/-!
# Text

Pattern text and everything it is put together from, as lists of characters.
-/

namespace PatternBuilder

abbrev Text := List Char

def Text.single? : Text → Option Char
  | [c] => some c
  | _ => none

def Text.utf8Length : Text → Nat
  | [] => 0
  | c :: t => c.utf8Size + Text.utf8Length t

-- What is said of the characters of a text is decided along the text, not over all characters.

section

variable {P : Char → Prop} [DecidablePred P]

instance (priority := 1100) Text.decidableForall (t : Text) : Decidable (∀ c ∈ t, P c) :=
  List.decidableBAll P t

instance (priority := 1100) Text.decidableForall? (c? : Option Char) : Decidable (∀ c ∈ c?, P c) :=
  Option.decidableForallMem c?

instance (priority := 1100) Text.decidableExists? (c? : Option Char) : Decidable (∃ c ∈ c?, P c) :=
  Option.decidableExistsMem c?

end

end PatternBuilder
