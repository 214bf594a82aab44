import PatternBuilder.Dialect.Automaton

/-!
# Strategies

How a pattern is matched: a whole pattern that is regular by an automaton, any other by
backtracking, in which regular stretches are left to automata. Such a stretch matches in one way
only.
-/

namespace PatternBuilder.Dialect

structure Limits where
  /-- Groups inside of groups. -/
  depth : Option Nat
  /-- The bytes of an automaton; without this limit there are no automata. -/
  automaton : Option Nat
  /-- Alternatives that are turned to in one search. -/
  backtracks : Option Nat
  deriving DecidableEq, Repr

namespace Limits

def standard : Limits := ⟨some 63, some 10485760, some 1000000⟩

def unlimited : Limits := ⟨none, none, none⟩

end Limits

inductive Strategy where
  | done
  | set (s : CharSet)
  | anchor (a : Anchor)
  | automaton (a : Automaton)
  | capture (number : Nat) (body : Strategy)
  | atomic (body : Strategy)
  /-- A lookbehind starts `back` characters before. -/
  | look (back : Nat) (negated : Bool) (body : Strategy)
  /-- Where `checked`, a pass beyond the least number fails if the pass before it took nothing. -/
  | times (body : Strategy) (min : Nat) (max : Option Nat) (greedy checked : Bool)
  | seq (first second : Strategy)
  | alt (first second : Strategy)
  deriving Repr

namespace Strategy

def ofItems : List Strategy → Strategy
  | [] => .done
  | [p] => p
  | p :: ps => .seq p (ofItems ps)

def ofBranches : List Strategy → Strategy
  | [] => .done
  | [p] => p
  | p :: ps => .alt p (ofBranches ps)

end Strategy

def Automaton.ofItems (limit : Nat) (items : List Core) : Except SyntaxError Automaton := do
  let r ← (Core.concat items).regular
  if r.footprint ≤ limit then .ok (.ofRegular (groupsOfAll items) r) else .error .automatonTooLarge

def Core.set? : Core → Option CharSet
  | .set s => some s
  | _ => none

/-- The strategy of regular items in a row. Single characters need no automaton. -/
def Strategy.stretch (limit : Nat) (items : List Core) : Except SyntaxError Strategy :=
  match items.mapM Core.set? with
  | some sets => .ok (.ofItems (sets.map .set))
  | none => return .automaton (← Automaton.ofItems limit items)

/-- The strategy of a sequence from the strategies of its items. Automata take the longest beginning
whose items have a fixed width, and the longest end; where something goes on behind the sequence,
the end has to have a fixed width too. -/
def Strategy.sequence (automata : Option Nat) (goesOn : Bool) (items : List Core)
    (strategies : List (Except SyntaxError Strategy)) : Except SyntaxError Strategy :=
  match automata with
  | none => return .ofItems (← strategies.mapM id)
  | some limit => do
    let traits := traitsOfAll items
    let isSteady (t : Traits) : Bool := t.regular && t.fixed
    let first := (traits.takeWhile isSteady).length
    let others := traits.drop first
    let last := (others.reverse.takeWhile fun t => t.regular && (t.fixed || !goesOn)).length
    let middle := others.length - last
    let before ← Strategy.stretch limit (items.take first)
    let between ← ((strategies.drop first).take middle).mapM id
    let after ← Strategy.stretch limit (items.drop (first + middle))
    return .ofItems (before :: between ++ [after])

def Strategy.lookBehind (negated : Bool) (t : Traits) (body : Except SyntaxError Strategy) :
    Except SyntaxError Strategy := do
  if t.fixed then return .look t.least negated (← body) else .error .lookbehindWidth

def Strategy.lookBehindEach (negated : Bool) (ts : List Traits)
    (bodies : List (Except SyntaxError Strategy)) : Except SyntaxError Strategy := do
  let looks ← (ts.zip bodies).mapM fun (t, body) => Strategy.lookBehind negated t body
  return if negated then .ofItems looks else .ofBranches looks

def Strategy.optional (body : Strategy) (greedy : Bool) : Strategy :=
  if greedy then .alt body .done else .alt .done body

mutual

/-- The strategy of a core. When something `goesOn` behind it, which may fail and turn back to it,
the core as a whole is not left to an automaton. -/
def Core.strategy (automata : Option Nat) (goesOn : Bool) (c : Core) :
    Except SyntaxError Strategy :=
  match if !goesOn && c.traits.regular then automata else none with
  | some limit => Strategy.stretch limit [c]
  | none =>
    match c with
    | .set s => .ok (.set s)
    | .anchor a => .ok (.anchor a)
    | .capture number body => return .capture number (← body.strategy automata goesOn)
    | .atomic body => return .atomic (← body.strategy automata false)
    | .look false negated body => return .look 0 negated (← body.strategy automata false)
    | .look true negated (.choice branches) =>
      let t := (Core.choice branches).traits
      if t.fixed then
        Strategy.lookBehind negated t ((Core.choice branches).strategy automata false)
      else
        Strategy.lookBehindEach negated (traitsOfAll branches)
          (strategiesOfAll automata false branches)
    | .look true negated body =>
      Strategy.lookBehind negated body.traits (body.strategy automata false)
    | .times body min max greedy =>
      if min = 0 ∧ max = some 1 then return .optional (← body.strategy automata goesOn) greedy
      else
        let checked := max.isNone && body.traits.least == 0
        return .times (← body.strategy automata true) min max greedy checked
    | .concat items => Strategy.sequence automata goesOn items (strategiesOfAll automata true items)
    | .choice branches => do
      return .ofBranches (← (strategiesOfAll automata goesOn branches).mapM id)

def strategiesOfAll (automata : Option Nat) (goesOn : Bool) :
    List Core → List (Except SyntaxError Strategy)
  | [] => []
  | c :: cs => c.strategy automata goesOn :: strategiesOfAll automata goesOn cs

end

end PatternBuilder.Dialect
