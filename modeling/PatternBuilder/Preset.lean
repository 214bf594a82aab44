import PatternBuilder.CharRange

/-!
# Presets

Named character sets and the catalogs that resolve their names.
-/

namespace PatternBuilder

inductive Preset where
  | word
  | nonWord
  | number
  | nonNumeric
  | letter
  | upper
  | lower
  | whitespace
  | nonWhitespace
  | space
  | tab
  | dot
  | blank
  | hex
  | alphanum
  deriving DecidableEq, Repr

namespace Preset

/-- A part of a preset that stands for itself. -/
inductive Piece where
  /-- An escape sequence of the pattern language. -/
  | token (t : Text)
  | char (c : Char)
  | range (r : CharRange)
  /-- Any character; written as a dot. -/
  | wildcard
  deriving DecidableEq, Repr

inductive Member where
  | preset (p : Preset)
  | range (r : CharRange)
  deriving DecidableEq, Repr

inductive Definition where
  | piece (p : Piece)
  | union (ms : List Member)
  deriving DecidableEq, Repr

/-- Letters are a range of mixed case, which is split into both cases when it is used. -/
def definition : Preset → Definition
  | .word => .piece (.token ['\\', 'w'])
  | .nonWord => .piece (.token ['\\', 'W'])
  | .number => .piece (.range ⟨'0', '9'⟩)
  | .nonNumeric => .piece (.token ['\\', 'D'])
  | .letter => .piece (.range ⟨'a', 'Z'⟩)
  | .upper => .piece (.range ⟨'A', 'Z'⟩)
  | .lower => .piece (.range ⟨'a', 'z'⟩)
  | .whitespace => .piece (.token ['\\', 's'])
  | .nonWhitespace => .piece (.token ['\\', 'S'])
  | .space => .piece (.char ' ')
  | .tab => .piece (.token ['\\', 't'])
  | .dot => .piece .wildcard
  | .blank => .union [.preset .space, .preset .tab]
  | .hex => .union [.preset .number, .range ⟨'a', 'F'⟩]
  | .alphanum => .union [.preset .letter, .preset .number]

def Definition.piece? : Definition → Option Piece
  | .piece p => some p
  | .union _ => none

/-- Members of a union are never unions themselves. -/
def Member.piece? : Member → Option Piece
  | .preset p => p.definition.piece?
  | .range r => some (.range r)

def pieces (p : Preset) : List Piece :=
  match p.definition with
  | .piece q => [q]
  | .union ms => ms.filterMap Member.piece?

end Preset

/-- A table of preset names, all in lowercase. -/
structure Catalog where
  names : List (Text × Preset)
  deriving DecidableEq, Repr

namespace Catalog

def ofNames (names : List (String × Preset)) : Catalog := ⟨names.map fun n => (n.1.toList, n.2)⟩

/-- Resolves a name without regard to ASCII case. -/
def find? (catalog : Catalog) (name : Text) : Option Preset :=
  catalog.names.lookup (name.map Char.toLower)

def standard : Catalog := ofNames [
  ("word", .word), ("words", .word),
  ("word_character", .word), ("word_characters", .word),
  ("non_word", .nonWord), ("non_words", .nonWord),
  ("non_word_character", .nonWord), ("non_word_characters", .nonWord),
  ("number", .number), ("numbers", .number), ("digit", .number), ("digits", .number),
  ("non_numeric", .nonNumeric), ("non_numerics", .nonNumeric),
  ("non_digit", .nonNumeric), ("non_digits", .nonNumeric),
  ("letter", .letter), ("letters", .letter), ("char", .letter), ("chars", .letter),
  ("character", .letter), ("characters", .letter),
  ("upper", .upper), ("uppers", .upper),
  ("uppercase_letter", .upper), ("uppercase_letters", .upper),
  ("lower", .lower), ("lowers", .lower),
  ("lowercase_letter", .lower), ("lowercase_letters", .lower),
  ("whitespace", .whitespace), ("whitespaces", .whitespace),
  ("non_whitespace", .nonWhitespace), ("non_whitespaces", .nonWhitespace),
  ("space", .space), ("spaces", .space), ("tab", .tab), ("tabs", .tab),
  ("dot", .dot), ("dots", .dot), ("any", .dot), ("anys", .dot),
  ("blank", .blank), ("blanks", .blank), ("hex", .hex), ("hexs", .hex),
  ("alphanum", .alphanum), ("alphanums", .alphanum),
  ("alphanumeric", .alphanum), ("alphanumerics", .alphanum)]

instance : Inhabited Catalog := ⟨standard⟩

end Catalog
end PatternBuilder
