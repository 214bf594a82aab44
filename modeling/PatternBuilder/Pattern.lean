import PatternBuilder.Builder
import PatternBuilder.Dialect.Bounds
import PatternBuilder.Dialect.Grammar
import PatternBuilder.Dialect.Match

/-!
# Compiled patterns

Patterns that are ready for searching, and what a search finds. Positions are byte offsets.
-/

namespace PatternBuilder

structure CompileError where
  pattern : Written
  cause : Dialect.SyntaxError
  deriving DecidableEq, Repr

def CompileError.message (e : CompileError) : Text :=
  "cannot compile pattern ".toList ++ e.pattern.text

/-- A match; `groups` are the texts of the groups that took part, by number. -/
structure Found where
  start : Nat
  stop : Nat
  text : Text
  groups : List (Nat × Text)
  /-- The number of groups with the whole match. -/
  count : Nat
  names : List (Text × Nat)
  deriving DecidableEq, Repr

namespace Found

def group? (f : Found) (number : Nat) : Option Text :=
  if number = 0 then some f.text else f.groups.lookup number

def isEmpty (f : Found) : Bool := f.start == f.stop

/-- Of several groups with one name the last counts. -/
def named? (f : Found) (name : Text) : Option Text := do
  f.group? (← f.names.reverse.lookup name)

end Found

inductive Searcher where
  | automaton (a : Dialect.Automaton)
  | backtracking (s : Dialect.Strategy) (budget : Dialect.Budget)

structure Pattern where
  source : Text
  flags : Flags
  searcher : Searcher
  /-- The number of groups with the whole match. -/
  count : Nat
  names : List (Text × Nat)

namespace Pattern

open Dialect

/-- The text that is compiled: flags are modes that it sets for itself. -/
def dialectText (source : Text) (flags : Flags) : Text :=
  let body := withLowerBounds source
  if flags.isEmpty then body else "(?".toList ++ flags.text ++ ')' :: body

/-- The searcher for a core, and its number of groups. Those groups at the end that can take no part
are lost to an automaton. Backtracking treats the core as if something came behind it. -/
def searcherOf (limits : Limits) (c : Core) : Except SyntaxError (Searcher × Nat) := do
  match if c.traits.regular then limits.automaton else none with
  | some limit =>
    let r ← c.regular
    let a ← Automaton.ofItems limit [c]
    return (.automaton a, r.lastGroup)
  | none => do
    let s ← c.strategy limits.automaton true
    return (.backtracking s limits.backtracks, c.groups.length)

def ofText (limits : Limits) (source : Text) (flags : Flags) : Except SyntaxError Pattern := do
  let root ← Node.parse (dialectText source flags)
  if limits.depth.any (· < root.depth) then throw .nestedTooDeep
  let (searcher, groups) ← searcherOf limits root.core
  return ⟨source, flags, searcher, groups + 1, root.names 0⟩

def compileWithin (limits : Limits) (source : Text) (flags : Flags) : Except CompileError Pattern :=
  (ofText limits source flags).mapError (⟨⟨source, flags⟩, ·⟩)

def compile (source : Text) (flags : Flags) : Except CompileError Pattern :=
  compileWithin .standard source flags

def searchFrom (p : Pattern) (c : Cursor) : Option (Found × Cursor) := do
  let (start, stop, groups) ← match p.searcher with
    | .automaton a => (a.search c).map fun (start, hit) => (start, hit.stop, hit.groups)
    | .backtracking strategy budget => (strategy.search budget c).map fun (start, s) =>
        (start, s.cursor, s.latestGroups)
  return (
    { start := start.offset
      stop := stop.offset
      text := start.textTo stop
      groups
      count := p.count
      names := p.names }, stop)

def find (p : Pattern) (t : Text) : Option Found := (p.searchFrom (.start t)).map Prod.fst

def isMatch (p : Pattern) (t : Text) : Bool := (p.find t).isSome

/-- The matches from `c` on. Behind an empty match the search goes on one character later, and an
empty match at `lastStop`, where the match before it ended, does not count. -/
def findAllFrom (p : Pattern) (lastStop : Option Nat) : (limit : Nat) → Cursor → List Found
  | 0, _ => []
  | limit + 1, c =>
    match p.searchFrom c with
    | none => []
    | some (f, stop) =>
      if f.isEmpty then
        let others := (stop.next?.map (p.findAllFrom (some f.stop) limit)).getD []
        if lastStop = some f.stop then others else f :: others
      else f :: p.findAllFrom (some f.stop) limit stop

def findAll (p : Pattern) (t : Text) : List Found :=
  p.findAllFrom none (t.length + 1) (.start t)

end Pattern

def Builder.toPatternWithin (limits : Dialect.Limits) (b : Builder) : Except CompileError Pattern :=
  Pattern.compileWithin limits b.pattern.source b.pattern.flags

def Builder.toPattern (b : Builder) : Except CompileError Pattern := b.toPatternWithin .standard

end PatternBuilder
