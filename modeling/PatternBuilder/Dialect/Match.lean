import PatternBuilder.Dialect.Strategy

/-!
# Matching

Carries out strategies by backtracking. Of two alternatives the first that lets the rest of the
pattern match is taken. Each alternative that is turned to afterwards costs one of the backtracks of
the search, which ends without a match when they run out.
-/

namespace PatternBuilder.Dialect

/-- A place in the text and the groups, the latest first; a group may have lost its text again. -/
structure State where
  cursor : Cursor
  groups : List (Nat × Option Text)
  deriving DecidableEq, Repr

namespace State

def capture (s : State) (number : Nat) (t : Text) : State :=
  { s with groups := (number, some t) :: s.groups }

def latestGroups (s : State) : List (Nat × Text) :=
  (s.groups.map Prod.fst).eraseDups.filterMap fun n =>
    (s.groups.lookup n).join.map fun t => (n, t)

def isLevel (s t : State) : Bool := s.cursor.offset == t.cursor.offset

end State

abbrev Budget := Option Nat

inductive Outcome where
  | found (s : State) (left : Budget)
  | failed (left : Budget)
  /-- The search is given up. -/
  | exhausted
  deriving DecidableEq, Repr

def Outcome.orElse (o : Outcome) (next : Budget → Outcome) : Outcome :=
  match o with
  | .failed none => next none
  | .failed (some 0) => .exhausted
  | .failed (some (n + 1)) => next (some n)
  | o => o

abbrev Continuation := State → Budget → Outcome

/-- A part of a pattern: it matches from a state if the continuation can take over behind it. -/
abbrev Action := State → Budget → Continuation → Outcome

namespace Action

/-- What `m` has matched stays, whatever comes behind it. -/
def atomic (m : Action) : Action := fun s b k =>
  match m s b .found with
  | .found t b => k t b
  | o => o

/-- A lookaround takes nothing, but keeps the groups of its body. -/
def look (m : Action) (back : Nat) : Action := fun s b k =>
  match s.cursor.back? back with
  | some c => m { s with cursor := c } b fun t b => k { t with cursor := s.cursor } b
  | none => .failed b

def lookNot (m : Action) (back : Nat) : Action := fun s b k =>
  match m.look back s b .found with
  | .found _ b => .failed b
  | o => o.orElse fun b => k s b

structure Repetition where
  min : Nat
  max : Option Nat
  greedy : Bool
  checked : Bool

namespace Repetition

/-- After a pass that took nothing, all further passes would do the same: more of them than there
are backtracks left, or endlessly many. -/
def isStuck (r : Repetition) (count left : Nat) (b : Budget) : Bool :=
  b.any (· < left) || (r.max.isNone && !r.checked && decide (r.min ≤ count))

/-- Passes behind the first `count`, `left` more at most; `before` is the state before the last. -/
def passes (r : Repetition) (m : Action) (count : Nat) (before : Option State) :
    (left : Nat) → Action
  | 0, s, b, k => if r.max.isNone then .exhausted else k s b
  | left + 1, s, b, k =>
    let stands := before.any s.isLevel
    let pass (b : Budget) : Outcome :=
      if stands && r.isStuck count (left + 1) b then .exhausted
      else m s b fun t b => passes r m (count + 1) (some s) left t b k
    if r.checked && stands && decide (r.min < count) then .failed b
    else if count < r.min then pass b
    else if r.greedy then (pass b).orElse fun b => k s b
    else (k s b).orElse pass

/-- Without an upper bound each pass beyond the least number takes something, so that no more passes
than characters follow. -/
def run (r : Repetition) (m : Action) : Action := fun s b k =>
  r.passes m 0 none (r.max.getD (r.min + s.cursor.rest.length + 2)) s b k

end Repetition
end Action

def Strategy.run : Strategy → Action
  | .done => fun s b k => k s b
  | .set x => fun s b k =>
    match s.cursor.read? x with
    | some c => k { s with cursor := c } b
    | none => .failed b
  | .anchor a => fun s b k => if a.holds s.cursor then k s b else .failed b
  | .automaton a => fun s b k =>
    match a.matchAt? s.cursor with
    | some hit =>
      k ⟨hit.stop, a.groups.map (fun n => (n, hit.groups.lookup n)) ++ s.groups⟩ b
    | none => .failed b
  | .capture number body => fun s b k =>
    body.run s b fun t b => k (t.capture number (s.cursor.textTo t.cursor)) b
  | .atomic body => Action.atomic body.run
  | .look back false body => Action.look body.run back
  | .look back true body => Action.lookNot body.run back
  | .times body min max greedy checked => Action.Repetition.run ⟨min, max, greedy, checked⟩ body.run
  | .seq p q => fun s b k => p.run s b fun t b => q.run t b k
  | .alt p q => fun s b k => (p.run s b k).orElse fun b => q.run s b k

def Strategy.searchFrom (p : Strategy) (b : Budget) (passed : Text) (offset : Nat) :
    Text → Option (Cursor × State)
  | [] =>
    let c : Cursor := ⟨passed, [], offset⟩
    match p.run ⟨c, []⟩ b .found with
    | .found s _ => some (c, s)
    | _ => none
  | x :: rest =>
    let c : Cursor := ⟨passed, x :: rest, offset⟩
    match p.run ⟨c, []⟩ b .found with
    | .found s _ => some (c, s)
    | .exhausted => none
    | .failed (some 0) => none
    | .failed left =>
      p.searchFrom (left.map (· - 1)) (x :: passed) (offset + x.utf8Size) rest

def Strategy.search (p : Strategy) (b : Budget) (c : Cursor) : Option (Cursor × State) :=
  p.searchFrom b c.passed c.offset c.rest

end PatternBuilder.Dialect
