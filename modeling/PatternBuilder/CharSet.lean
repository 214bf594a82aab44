import PatternBuilder.Unicode.Property

/-!
# Character sets

Sets of characters as lists of spans of code points. The spans of a set ascend and do not touch each
other, so that equal sets have equal lists.
-/

namespace PatternBuilder

structure Span where
  lo : Nat
  hi : Nat
  deriving DecidableEq, Repr, Hashable

def Span.contains (s : Span) (n : Nat) : Bool := decide (s.lo ≤ n) && decide (n ≤ s.hi)

structure CharSet where
  spans : List Span
  deriving DecidableEq, Repr

namespace CharSet

def empty : CharSet := ⟨[]⟩

def contains (s : CharSet) (c : Char) : Bool := s.spans.any (·.contains c.toNat)

def insertSpan (r : Span) : List Span → List Span
  | [] => [r]
  | s :: rest =>
    if r.hi + 1 < s.lo then r :: s :: rest
    else if s.hi + 1 < r.lo then s :: insertSpan r rest
    else insertSpan ⟨min r.lo s.lo, max r.hi s.hi⟩ rest

def range (lo hi : Char) : CharSet := if lo ≤ hi then ⟨[⟨lo.toNat, hi.toNat⟩]⟩ else empty

def single (c : Char) : CharSet := ⟨[⟨c.toNat, c.toNat⟩]⟩

def only? (s : CharSet) : Option Char :=
  match s.spans with
  | [r] => if r.lo = r.hi then some (Char.ofNat r.lo) else none
  | _ => none

def isAscii (s : CharSet) : Bool := s.spans.all fun r => decide (r.hi < 0x80)

def union (s t : CharSet) : CharSet := ⟨s.spans.foldr insertSpan t.spans⟩

def unions (sets : List CharSet) : CharSet := sets.foldr union empty

def surrogates : Span := ⟨0xD800, 0xDFFF⟩

/-- What ascending spans leave free from `next` on. -/
def gapsFrom (next : Nat) : List Span → List Span
  | [] => if next ≤ 0x10FFFF then [⟨next, 0x10FFFF⟩] else []
  | s :: rest =>
    if next < s.lo then ⟨next, s.lo - 1⟩ :: gapsFrom (s.hi + 1) rest
    else gapsFrom (s.hi + 1) rest

def complement (s : CharSet) : CharSet := ⟨gapsFrom 0 (insertSpan surrogates s.spans)⟩

def inter (s t : CharSet) : CharSet := (s.complement.union t.complement).complement

def diff (s t : CharSet) : CharSet := (s.complement.union t).complement

def symmDiff (s t : CharSet) : CharSet := (s.diff t).union (t.diff s)

def imageSpans (r : Unicode.MappedRun) (s : Span) : List Span :=
  if s.hi < r.first || r.last < s.lo then []
  else
    let first := r.first + (s.lo - r.first + r.step - 1) / r.step * r.step
    let last := min r.last s.hi
    if r.step = 1 then [⟨r.image first, r.image last⟩]
    else (List.range ((last + r.step - first) / r.step)).map fun k =>
      let n := r.image (first + k * r.step)
      ⟨n, n⟩

def inverse (r : Unicode.MappedRun) : Unicode.MappedRun :=
  ⟨⟨r.target, r.image r.last, r.step⟩, r.first⟩

/-- The pairs of characters that differ in case alone, as runs in both directions. The dotless `ı`
has no partner. -/
def caseRuns : List Unicode.MappedRun :=
  let runs := ⟨⟨0x41, 0x5A, 1⟩, 0x61⟩ ::
    (Unicode.lowerRuns ++ Unicode.upperRuns.filter fun r => r.first != 0x131)
  runs ++ runs.map inverse

def addPartners (s : CharSet) : CharSet :=
  ⟨(caseRuns.flatMap fun r => s.spans.flatMap (imageSpans r)).foldr insertSpan s.spans⟩

def closePartners (s : CharSet) : (rounds : Nat) → CharSet
  | 0 => s
  | rounds + 1 =>
    let t := s.addPartners
    if t = s then s else t.closePartners rounds

/-- The set with all characters that differ from a member in case alone. Three steps of case lead
from each such character to every other. -/
def foldCase (s : CharSet) : CharSet := s.closePartners 3

end CharSet
end PatternBuilder
