import PatternBuilder.Unicode.Property

/-!
# Character ranges

Inclusive ranges of characters and their canonical lists: reversed ranges dropped, contained ranges
dropped, overlapping and adjacent ranges joined, ranges of digits before all others.
-/

namespace PatternBuilder

structure CharRange where
  lo : Char
  hi : Char
  deriving DecidableEq, Repr

namespace CharRange

def contains (r : CharRange) (c : Char) : Bool := decide (r.lo ≤ c) && decide (c ≤ r.hi)

def covers (outer inner : CharRange) : Bool :=
  decide (outer.lo ≤ inner.lo) && decide (inner.hi ≤ outer.hi)

def isForward (r : CharRange) : Bool := decide (r.lo ≤ r.hi)

def isNumeric (r : CharRange) : Bool := r.lo.isDigit && r.hi.isDigit

def lowered (r : CharRange) : CharRange := ⟨Unicode.toLower r.lo, Unicode.toLower r.hi⟩

def raised (r : CharRange) : CharRange := ⟨Unicode.toUpper r.lo, Unicode.toUpper r.hi⟩

/-- A range between a small and a capital letter means both cases: `a..Z` is `a..z` and `A..Z`. -/
def splitCase (r : CharRange) : List CharRange :=
  if (Unicode.isLower r.lo || Unicode.isLower r.hi) &&
      (Unicode.isUpper r.lo || Unicode.isUpper r.hi) then
    [r.lowered, r.raised]
  else [r]

/-- A range between two capital letters in lowercase. Other ranges stay, since their lowercase
would cover other characters. -/
def foldCase (r : CharRange) : CharRange :=
  if Unicode.isUpper r.lo && Unicode.isUpper r.hi then r.lowered else r

/-- The ranges that no other range of the list covers, each once. -/
def dropCovered (rs : List CharRange) : List CharRange :=
  let distinct := rs.eraseDups
  distinct.filter fun r => !distinct.any fun other => other != r && other.covers r

def insertByLow (r : CharRange) : List CharRange → List CharRange
  | [] => [r]
  | s :: rs => if r.lo ≤ s.lo then r :: s :: rs else s :: insertByLow r rs

def sortByLow (rs : List CharRange) : List CharRange := rs.foldr insertByLow []

def touches (r s : CharRange) : Bool := decide (s.lo.toNat ≤ r.hi.toNat + 1)

def extendTo (r : CharRange) (hi : Char) : CharRange := ⟨r.lo, if r.hi ≤ hi then hi else r.hi⟩

def joinFrom (r : CharRange) : List CharRange → List CharRange
  | [] => [r]
  | s :: rs => if r.touches s then joinFrom (r.extendTo s.hi) rs else r :: joinFrom s rs

def join : List CharRange → List CharRange
  | [] => []
  | r :: rs => joinFrom r rs

def merge (rs : List CharRange) : List CharRange := join (sortByLow rs)

def simplify (rs : List CharRange) : List CharRange := merge (dropCovered rs)

/-- Ranges of digits come first and are never joined with others. -/
def canonical (rs : List CharRange) : List CharRange :=
  let forward := rs.filter isForward
  simplify (forward.filter isNumeric) ++ simplify (forward.filter fun r => !r.isNumeric)

end CharRange
end PatternBuilder
