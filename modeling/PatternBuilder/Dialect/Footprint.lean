import PatternBuilder.Dialect.Regular
import Std.Data.HashSet

/-!
# Footprint of automata

How many bytes an automaton for a regular expression takes that reads UTF-8 byte by byte, once
forwards and once backwards. The size is reckoned from the expression, so that repetition need not
be written out to find it too large.
-/

namespace PatternBuilder.Dialect

/-- The digits to the base 64 of the numbers from `lo` to `hi`, as few sequences of ranges as
possible; `count` digits follow the first, which is raised by `lead`. -/
def digitRanges (lead : Nat) : (count : Nat) → (lo hi : Nat) → List (List Span)
  | 0, lo, hi => [[⟨lead + lo, lead + hi⟩]]
  | count + 1, lo, hi =>
    let unit := Nat.pow 64 (count + 1)
    let first := lo / unit
    let last := hi / unit
    let under (n : Nat) (lo hi : Nat) : List (List Span) :=
      (digitRanges 0x80 count lo hi).map fun rest => ⟨lead + n, lead + n⟩ :: rest
    if first = last then under first (lo % unit) (hi % unit)
    else
      let head := if lo % unit = 0 then [] else under first (lo % unit) (unit - 1)
      let tail := if hi % unit = unit - 1 then [] else under last 0 (hi % unit)
      let lo := if lo % unit = 0 then first else first + 1
      let hi := if hi % unit = unit - 1 then last else last - 1
      let middle :=
        if lo ≤ hi then
          (digitRanges 0x80 count 0 (unit - 1)).map fun rest => ⟨lead + lo, lead + hi⟩ :: rest
        else []
      head ++ middle ++ tail

/-- The code points with one byte to four, each with the first byte of its zero and the number of
bytes that follow. -/
def encodings : List (Span × Nat × Nat) :=
  [(⟨0, 0x7F⟩, 0, 0), (⟨0x80, 0x7FF⟩, 0xC0, 1), (⟨0x800, 0xD7FF⟩, 0xE0, 2),
    (⟨0xE000, 0xFFFF⟩, 0xE0, 2), (⟨0x10000, 0x10FFFF⟩, 0xF0, 3)]

def byteSequences (s : CharSet) : List (List Span) :=
  s.spans.flatMap fun r =>
    encodings.flatMap fun (e, lead, count) =>
      let lo := max r.lo e.lo
      let hi := min r.hi e.hi
      if lo ≤ hi then digitRanges lead count lo hi else []

def sharedLength : List Span → List Span → Nat
  | a :: as, b :: bs => if a = b then sharedLength as bs + 1 else 0
  | _, _ => 0

/-- The number of distinct beginnings of ascending sequences; `before` is the sequence before them.
-/
def beginnings (before : List Span) : List (List Span) → Nat
  | [] => 0
  | s :: rest => (s.length - sharedLength before s) + beginnings s rest

def continuations : List (List Span) → List (List (List Span))
  | [] => []
  | [] :: rest => continuations rest
  | (a :: as) :: rest =>
    match rest, continuations rest with
    | (b :: _) :: _, group :: groups =>
      if a = b then (as :: group) :: groups else [as] :: group :: groups
    | _, groups => [as] :: groups

def stateSize : Nat := 32

/-- Adds the bytes of the states that read the sequences, of no more than `depth` ranges. Equal ways
to go on share a state. -/
def addEndings (sequences : List (List Span)) :
    (depth : Nat) → Std.HashSet (List (List Span)) × Nat → Std.HashSet (List (List Span)) × Nat
  | 0, counted => counted
  | depth + 1, (seen, size) =>
    if seen.contains sequences then (seen, size)
    else
      let next := continuations sequences
      let (seen, size) := (next.filter (· != [[]])).foldl (fun counted sequences =>
        addEndings sequences depth counted) (seen, size)
      (seen.insert sequences, size + stateSize + 8 * next.length)

inductive Direction where
  | forwards
  | backwards
  deriving DecidableEq, Repr

def setSize (d : Direction) (s : CharSet) : Nat :=
  if s.isAscii then 2 * stateSize + 8 * s.spans.length
  else
    let sequences := byteSequences s
    match d with
    | .forwards => stateSize + (addEndings sequences 4 (∅, 0)).2
    | .backwards => (beginnings [] sequences + 2) * stateSize + 4 * sequences.length

def forkSize : Nat := stateSize + 8

namespace Regular

def isChoice : Regular → Bool
  | .alt _ _ => true
  | _ => false

def timesSize (size : Nat) (solid : Bool) (min : Nat) : (max : Option Nat) → Nat
  | none =>
    if min = 0 then size + forkSize + (if solid then 0 else forkSize + stateSize)
    else min * size + forkSize
  | some max =>
    let copies := if min = 0 then stateSize else min * size
    if min = max then copies
    else if min = 0 ∧ max = 1 then size + forkSize + stateSize
    else copies + stateSize + (max - min) * (forkSize + size)

/-- Groups are marked only on the way forwards. -/
def size (d : Direction) : Regular → Nat
  | .text t => if t.isEmpty then stateSize else stateSize * t.utf8Length
  | .set s => setSize d s
  | .anchor _ => stateSize
  | .times body min max _ => timesSize (body.size d) body.isSolid min max
  | .capture _ body => body.size d + if d = .forwards then 2 * stateSize else 0
  | .seq a b => a.size d + b.size d
  | .alt a b => a.size d + b.size d + if b.isChoice then 4 else stateSize + forkSize

def footprint (r : Regular) : Nat :=
  Nat.max (r.size .forwards + 208) (r.size .backwards + 144)

end Regular
end PatternBuilder.Dialect
