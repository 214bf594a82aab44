import PatternBuilder.Text

/-!
# Escaping

A character with a meaning of its own gets a backslash. Which characters have one depends on the
place: outside of a character class or as a member of one.
-/

namespace PatternBuilder.Escape

def special : List Char :=
  ['\x7b', '\x7d', '(', ')', '[', ']', '|', '?', '*', '+', '.', '^', '$', '\\']

def classSpecial : List Char := ['-', ']', '\\', '[', '^']

def escapeChar (chars : List Char) (c : Char) : Text := if c ∈ chars then ['\\', c] else [c]

def escapeAll (chars : List Char) (t : Text) : Text := t.flatMap (escapeChar chars)

def general (t : Text) : Text := escapeAll special t

def inClass (t : Text) : Text := escapeAll classSpecial t

@[simp] theorem escapeAll_nil (chars : List Char) : escapeAll chars [] = [] := rfl

theorem escapeAll_cons (chars : List Char) (c : Char) (t : Text) :
    escapeAll chars (c :: t) = escapeChar chars c ++ escapeAll chars t := rfl

theorem escapeAll_append (chars : List Char) (s t : Text) :
    escapeAll chars (s ++ t) = escapeAll chars s ++ escapeAll chars t := by
  simp [escapeAll]

end PatternBuilder.Escape
