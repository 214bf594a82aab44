import PatternBuilder.Dialect.Cursor
import PatternBuilder.Dialect.Footprint

/-!
# Automata

Regular expressions as automata. An automaton takes its transitions in their order of preference and
goes to no state twice at one place, so that it finds the match that backtracking would prefer in a
time bounded by the product of its size and the length of the text.
-/

namespace PatternBuilder.Dialect

inductive Instruction where
  | accept
  | read (s : CharSet) (next : Nat)
  | anchor (a : Anchor) (next : Nat)
  /-- Goes on with `first` and, if that fails, with `second`. -/
  | fork (first second : Nat)
  | openGroup (number next : Nat)
  | closeGroup (number next : Nat)
  deriving DecidableEq, Repr

structure Automaton where
  code : Array Instruction
  start : Nat
  groups : List Nat
  deriving DecidableEq, Repr

abbrev Code := Array Instruction

/-- Adds the states of an expression in front of the state `next`, and gives the first of them. -/
abbrev Builds := (next : Nat) → Code → Nat × Code

namespace Code

def add (i : Instruction) (code : Code) : Nat × Code := (code.size, code.push i)

def branching (greedy : Bool) (again leave : Nat) : Instruction :=
  if greedy then .fork again leave else .fork leave again

def copies (f : Builds) : (count : Nat) → Builds
  | 0, next, code => (next, code)
  | count + 1, next, code =>
    let (next, code) := copies f count next code
    f next code

def optional (f : Builds) (greedy : Bool) : (count : Nat) → Builds
  | 0, next, code => (next, code)
  | count + 1, next, code =>
    let (inner, code) := optional f greedy count next code
    let (again, code) := f inner code
    code.add (branching greedy again next)

/-- One pass or more; also gives the state behind a pass. -/
def loop (f : Builds) (greedy : Bool) (next : Nat) (code : Code) : Nat × Nat × Code :=
  let behind := code.size
  let (again, code) := f behind (code.push .accept)
  (again, behind, code.setIfInBounds behind (branching greedy again next))

def times (f : Builds) (solid : Bool) (min : Nat) (max : Option Nat) (greedy : Bool) : Builds :=
  fun next code =>
    match max with
    | some max =>
      let (next, code) := optional f greedy (max - min) next code
      copies f min next code
    | none =>
      let (again, behind, code) := loop f greedy next code
      match min with
      | 0 => if solid then (behind, code) else code.add (branching greedy again next)
      | min + 1 => copies f min again code

end Code

def Regular.build : Regular → Builds
  | .text t => fun next code =>
    t.foldr (fun c (next, code) => Code.add (.read (.single c) next) code) (next, code)
  | .set s => fun next code => code.add (.read s next)
  | .anchor a => fun next code => code.add (.anchor a next)
  | .times body min max greedy => Code.times body.build body.isSolid min max greedy
  | .capture number body => fun next code =>
    let (next, code) := code.add (.closeGroup number next)
    let (next, code) := body.build next code
    code.add (.openGroup number next)
  | .seq a b => fun next code =>
    let (next, code) := b.build next code
    a.build next code
  | .alt a b => fun next code =>
    let (second, code) := b.build next code
    let (first, code) := a.build next code
    code.add (.fork first second)

def Automaton.ofRegular (groups : List Nat) (r : Regular) : Automaton :=
  let (start, code) := r.build 0 #[.accept]
  ⟨code, start, groups⟩

/-- A state to go on from, with the places where the open groups begin, the innermost first, and the
groups that are complete, the latest first. -/
structure Thread where
  state : Nat
  place : Cursor
  opened : List Cursor
  groups : List (Nat × Text)

structure Hit where
  stop : Cursor
  groups : List (Nat × Text)

abbrev Visited := Std.HashSet (Nat × Nat)

namespace Automaton

def successors (t : Thread) : Instruction → List Thread
  | .accept => []
  | .read s next =>
    match t.place.read? s with
    | some place => [{ t with state := next, place }]
    | none => []
  | .anchor a next => if a.holds t.place then [{ t with state := next }] else []
  | .fork first second => [{ t with state := first }, { t with state := second }]
  | .openGroup _ next => [{ t with state := next, opened := t.place :: t.opened }]
  | .closeGroup number next =>
    match t.opened with
    | [] => [{ t with state := next }]
    | c :: opened =>
      [{ t with state := next, opened, groups := (number, c.textTo t.place) :: t.groups }]

def run (a : Automaton) (visited : Visited) : (steps : Nat) → List Thread → Option Hit × Visited
  | 0, _ => (none, visited)
  | _, [] => (none, visited)
  | steps + 1, t :: threads =>
    if visited.contains (t.place.offset, t.state) then a.run visited steps threads
    else
      match a.code[t.state]? with
      | some .accept => (some ⟨t.place, t.groups⟩, visited)
      | some i =>
        a.run (visited.insert (t.place.offset, t.state)) steps (successors t i ++ threads)
      | none => a.run visited steps threads

/-- Each state is visited once at each place, and leaves two threads at most. -/
def stepLimit (a : Automaton) (t : Text) : Nat := 2 * a.code.size * (t.length + 1) + 1

def firstThread (a : Automaton) (c : Cursor) : Thread := ⟨a.start, c, [], []⟩

def matchAt? (a : Automaton) (c : Cursor) : Option Hit :=
  (a.run ∅ (a.stepLimit c.rest) [a.firstThread c]).1

def searchFrom (a : Automaton) (visited : Visited) (passed : Text) (offset : Nat) :
    Text → Option (Cursor × Hit)
  | [] =>
    let c : Cursor := ⟨passed, [], offset⟩
    (a.run visited (a.stepLimit []) [a.firstThread c]).1.map (c, ·)
  | x :: rest =>
    let c : Cursor := ⟨passed, x :: rest, offset⟩
    match a.run visited (a.stepLimit (x :: rest)) [a.firstThread c] with
    | (some hit, _) => some (c, hit)
    | (none, visited) => a.searchFrom visited (x :: passed) (offset + x.utf8Size) rest

def search (a : Automaton) (c : Cursor) : Option (Cursor × Hit) :=
  a.searchFrom ∅ c.passed c.offset c.rest

end Automaton
end PatternBuilder.Dialect
