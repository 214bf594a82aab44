import PatternBuilder.Dialect.Core
import PatternBuilder.Dialect.EscapeSequence

/-!
# Regular expressions

The regular part of the dialect in a normal form. Sequences and alternatives are flat and lean to
the right, neighbouring characters are one text, alternatives of single characters are one set, and
a beginning that all alternatives share stands before them.
-/

namespace PatternBuilder.Dialect

inductive Regular where
  /-- The empty text matches nothing but itself. -/
  | text (t : Text)
  | set (s : CharSet)
  | anchor (a : Anchor)
  | times (body : Regular) (min : Nat) (max : Option Nat) (greedy : Bool)
  | capture (number : Nat) (body : Regular)
  | seq (first rest : Regular)
  | alt (first rest : Regular)
  deriving DecidableEq, Repr

namespace Regular

def empty : Regular := .text []

def ofSet (s : CharSet) : Regular :=
  match s.only? with
  | some c => .text [c]
  | none => .set s

def prepend (t : Text) (r : Regular) : Regular :=
  match t, r with
  | [], r => r
  | t, .text u => .text (t ++ u)
  | t, .seq (.text u) r => .seq (.text (t ++ u)) r
  | t, r => .seq (.text t) r

def append : Regular → Regular → Regular
  | .text t, r => prepend t r
  | .seq a b, r => .seq a (append b r)
  | a, .text [] => a
  | a, r => .seq a r

def concat (rs : List Regular) : Regular := rs.foldr append empty

def items : Regular → List Regular
  | .seq a b => a :: b.items
  | .text [] => []
  | r => [r]

def branches : Regular → List Regular
  | .alt a b => a :: b.branches
  | r => [r]

def char? : Regular → Option CharSet
  | .text [c] => some (.single c)
  | _ => none

def set? : Regular → Option CharSet
  | .set s => some s
  | _ => none

def ofBranches : List Regular → Regular
  | [] => .set .empty
  | [r] => r
  | r :: rs => .alt r (ofBranches rs)

/-- The choice between flat alternatives, as one set where all are single characters or all are
sets. -/
def chooseFlat (rs : List Regular) : Regular :=
  match rs with
  | [r] => r
  | rs =>
    match rs.mapM char?, rs.mapM set? with
    | some sets, _ => ofSet (.unions sets)
    | none, some sets => ofSet (.unions sets)
    | none, none => ofBranches rs

def commonStart : List Regular → List Regular → List Regular
  | a :: as, b :: bs => if a = b then a :: commonStart as bs else []
  | _, _ => []

def isSequence : Regular → Bool
  | .seq _ _ => true
  | _ => false

/-- The items that all alternatives begin with, if there are several and all are sequences. -/
def sharedStart (rs : List Regular) : List Regular :=
  match rs with
  | [] => []
  | [_] => []
  | r :: rs =>
    if r.isSequence && rs.all isSequence then
      rs.foldl (fun start r => commonStart start r.items) r.items
    else []

def choose (rs : List Regular) : Regular :=
  let flat := rs.flatMap branches
  match sharedStart flat with
  | [] => chooseFlat flat
  | start =>
    let ends := flat.map fun r => concat (r.items.drop start.length)
    concat (start ++ [chooseFlat (ends.flatMap branches)])

/-- Only the empty text can match. -/
def isHollow : Regular → Bool
  | .text t => t.isEmpty
  | .set _ => false
  | .anchor _ => true
  | .times body _ _ _ => body.isHollow
  | .capture _ body => body.isHollow
  | .seq a b => a.isHollow && b.isHollow
  | .alt a b => a.isHollow && b.isHollow

/-- Every match takes at least one character. -/
def isSolid : Regular → Bool
  | .text t => !t.isEmpty
  | .set s => !s.spans.isEmpty
  | .anchor _ => false
  | .times body min _ _ => min != 0 && body.isSolid
  | .capture _ body => body.isSolid
  | .seq a b => a.isSolid || b.isSolid
  | .alt a b => a.isSolid && b.isSolid

/-- Repeats an expression. What matches only the empty text is repeated once at most; what is
repeated exactly once is left as it is. -/
def repeated (body : Regular) (min : Nat) (max : Option Nat) (greedy : Bool) : Regular :=
  let (min, max) :=
    if body.isHollow then (Nat.min min 1, some (Nat.min (max.getD 1) 1)) else (min, max)
  if max = some 0 then empty
  else if min = 1 ∧ max = some 1 then body
  else .times body min max greedy

def lastGroup : Regular → Nat
  | .text _ => 0
  | .set _ => 0
  | .anchor _ => 0
  | .times body _ _ _ => body.lastGroup
  | .capture number body => Nat.max number body.lastGroup
  | .seq a b => Nat.max a.lastGroup b.lastGroup
  | .alt a b => Nat.max a.lastGroup b.lastGroup

/-- The bounds of regular repetition are words of 32 bits. -/
def greatestBound : Nat := 4294967295

def checkBounds (min : Nat) (max : Option Nat) : Except SyntaxError Unit :=
  if greatestBound < max.getD min then .error .boundTooLarge
  else if max.any (· < min) then .error .reversedBounds
  else .ok ()

end Regular

mutual

/-- The regular expression of a core; lookarounds and atomic groups have none. -/
def Core.regular : Core → Except SyntaxError Regular
  | .set s => .ok (.ofSet s)
  | .anchor a => .ok (.anchor a)
  | .capture number body => return .capture number (← body.regular)
  | .atomic _ => .error .notRegular
  | .look _ _ _ => .error .notRegular
  | .times body min max greedy => do
    Regular.checkBounds min max
    return (← body.regular).repeated min max greedy
  | .concat items => return .concat (← regularAll items)
  | .choice branches => return .choose (← regularAll branches)

def regularAll : List Core → Except SyntaxError (List Regular)
  | [] => .ok []
  | c :: cs => return (← c.regular) :: (← regularAll cs)

end

end PatternBuilder.Dialect
