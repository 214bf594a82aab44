import PatternBuilder.Dialect.Node
import PatternBuilder.Unicode.WordData

/-!
# Places in a text

Cursors, which are places in a text, and the anchors that hold there.
-/

namespace PatternBuilder.Dialect

/-- A place in a text; the part before it is kept backwards, together with its length in UTF-8. -/
structure Cursor where
  passed : Text
  rest : Text
  offset : Nat
  deriving DecidableEq, Repr

namespace Cursor

def start (t : Text) : Cursor := ⟨[], t, 0⟩

def next? (c : Cursor) : Option Cursor :=
  match c.rest with
  | [] => none
  | x :: rest => some ⟨x :: c.passed, rest, c.offset + x.utf8Size⟩

def read? (c : Cursor) (s : CharSet) : Option Cursor :=
  match c.rest with
  | [] => none
  | x :: rest => if s.contains x then some ⟨x :: c.passed, rest, c.offset + x.utf8Size⟩ else none

def back? (c : Cursor) : (count : Nat) → Option Cursor
  | 0 => some c
  | count + 1 =>
    match c.passed with
    | [] => none
    | x :: passed => back? ⟨passed, x :: c.rest, c.offset - x.utf8Size⟩ count

def textTo (c d : Cursor) : Text := c.rest.take (c.rest.length - d.rest.length)

end Cursor

def isWordChar (c : Option Char) : Bool := c.any Unicode.wordSet.contains

def Anchor.holds (place : Cursor) : Anchor → Bool
  | .textStart => place.passed.isEmpty
  | .textEnd => place.rest.isEmpty
  | .lastLineEnds => place.rest.all (· == '\n')
  | .lineStart => place.passed.isEmpty || place.passed.head? == some '\n'
  | .lineEnd => place.rest.isEmpty || place.rest.head? == some '\n'
  | .wordStart => !isWordChar place.passed.head? && isWordChar place.rest.head?
  | .wordEnd => isWordChar place.passed.head? && !isWordChar place.rest.head?
  | .wordEdge => isWordChar place.passed.head? != isWordChar place.rest.head?
  | .noWordEdge => isWordChar place.passed.head? == isWordChar place.rest.head?

end PatternBuilder.Dialect
