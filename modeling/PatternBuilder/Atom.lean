import PatternBuilder.CharRange
import PatternBuilder.Escape

/-!
# Atoms

The units a clause is made of once its values have been gathered.
-/

namespace PatternBuilder

inductive Atom where
  | range (r : CharRange)
  /-- One character, escaped only when it is written. -/
  | char (c : Char)
  /-- Text that is already escaped. -/
  | literal (t : Text)
  /-- An escape sequence of the pattern language. -/
  | token (t : Text)
  deriving DecidableEq, Repr

namespace Atom

def atMostOnePlain (t : Text) : Bool := decide ((t.filter (· != '\\')).length ≤ 1)

def fitsClass : Atom → Bool
  | .range _ => true
  | .char _ => true
  | .literal t => atMostOnePlain t
  | .token t => atMostOnePlain t

def isCharIn (rs : List CharRange) : Atom → Bool
  | .char c => rs.any (·.contains c)
  | _ => false

/-- Loose atoms without repetitions and without the characters that a range contains, then the
ranges. -/
def combine (loose : List Atom) (rs : List CharRange) : List Atom :=
  (loose.filter fun a => !a.isCharIn rs).eraseDups ++ rs.map .range

end Atom
end PatternBuilder
