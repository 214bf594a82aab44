import PatternBuilder.Dialect.Node

/-!
# Cores of patterns

The tree of a pattern without plain groups and without members that match nothing, and what decides
how a part of it can be matched: how many characters it takes, whether always the same number, and
whether it is regular, that is free of lookarounds, atomic groups and word boundaries.
-/

namespace PatternBuilder.Dialect

inductive Core where
  | set (s : CharSet)
  | anchor (a : Anchor)
  | capture (number : Nat) (body : Core)
  | atomic (body : Core)
  | look (behind negated : Bool) (body : Core)
  | times (body : Core) (min : Nat) (max : Option Nat) (greedy : Bool)
  | concat (items : List Core)
  | choice (branches : List Core)

namespace Core

def ofItems : List Core → Core
  | [c] => c
  | cs => .concat cs

end Core

/-- The members of the sequence that a node is, when `base` groups have been opened before it. A
node that is no sequence has one member, or none if it vanishes. -/
def Node.members (base : Nat) : Node → List Core
  | .empty => []
  | .single s => [.set s]
  | .anchor a => [.anchor a]
  | .paren p body =>
    match p with
    | .plain =>
      match body.members base with
      | [] => []
      | cs => [.ofItems cs]
    | .atomic => [.atomic (.ofItems (body.members base))]
    | .look behind negated => [.look behind negated (.ofItems (body.members base))]
    | _ => [.capture (base + 1) (.ofItems (body.members (base + 1)))]
  | .times body min max greedy => [.times (.ofItems (body.members base)) min max greedy]
  | .seq a b => a.members base ++ b.members (base + a.captureCount)
  | .alt a b =>
    let first := Core.ofItems (a.members base)
    match b, b.members (base + a.captureCount) with
    | .alt _ _, [.choice branches] => [.choice (first :: branches)]
    | _, cs => [.choice [first, .ofItems cs]]

def Node.core (n : Node) : Core := .ofItems (n.members 0)

def Anchor.isRegular : Anchor → Bool
  | .lineStart => true
  | .lineEnd => true
  | .textStart => true
  | .textEnd => true
  | _ => false

structure Traits where
  /-- The least number of characters that a match takes. -/
  least : Nat
  /-- All matches take as many. -/
  fixed : Bool
  regular : Bool
  deriving DecidableEq, Repr

namespace Traits

def concat (ts : List Traits) : Traits :=
  ⟨ts.foldr (fun t n => t.least + n) 0, ts.all fixed, ts.all regular⟩

def choice (ts : List Traits) : Traits :=
  let least := ((ts.map least).min?).getD 0
  ⟨least, ts.all fun t => t.fixed && t.least == least, ts.all regular⟩

end Traits

mutual

def Core.traits : Core → Traits
  | .set _ => ⟨1, true, true⟩
  | .anchor a => ⟨0, true, a.isRegular⟩
  | .capture _ body => body.traits
  | .atomic body => { body.traits with regular := false }
  | .look _ _ _ => ⟨0, true, false⟩
  | .times body min max _ =>
    let t := body.traits
    ⟨t.least * min, t.fixed && max == some min, t.regular⟩
  | .concat items => .concat (traitsOfAll items)
  | .choice branches => .choice (traitsOfAll branches)

def traitsOfAll : List Core → List Traits
  | [] => []
  | c :: cs => c.traits :: traitsOfAll cs

end

mutual

def Core.groups : Core → List Nat
  | .set _ => []
  | .anchor _ => []
  | .capture number body => number :: body.groups
  | .atomic body => body.groups
  | .look _ _ body => body.groups
  | .times body _ _ _ => body.groups
  | .concat items => groupsOfAll items
  | .choice branches => groupsOfAll branches

def groupsOfAll : List Core → List Nat
  | [] => []
  | c :: cs => c.groups ++ groupsOfAll cs

end

end PatternBuilder.Dialect
