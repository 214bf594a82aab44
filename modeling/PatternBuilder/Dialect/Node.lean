import PatternBuilder.CharSet

/-!
# Pattern trees

The syntax of the pattern dialect: single characters, anchors, groups and lookarounds, repetition,
sequence and alternation. Flags do not occur: what they change is worked into sets and anchors.
-/

namespace PatternBuilder.Dialect

inductive Anchor where
  | lineStart
  | lineEnd
  | textStart
  | textEnd
  /-- Nothing but line ends follows. -/
  | lastLineEnds
  | wordStart
  | wordEnd
  /-- The start or the end of a word. -/
  | wordEdge
  | noWordEdge
  deriving DecidableEq, Repr

inductive Paren where
  | plain
  | capture
  | named (name : Text)
  /-- What the group has matched is not given up for another way to match it. -/
  | atomic
  | look (behind negated : Bool)
  deriving DecidableEq, Repr

def Paren.captures : Paren → Bool
  | .capture => true
  | .named _ => true
  | _ => false

inductive Node where
  | empty
  /-- One character of the set. -/
  | single (s : CharSet)
  | anchor (a : Anchor)
  | paren (p : Paren) (body : Node)
  /-- From `min` to `max` times; as often as possible where `greedy`, else as seldom. -/
  | times (body : Node) (min : Nat) (max : Option Nat) (greedy : Bool)
  | seq (first second : Node)
  | alt (first second : Node)
  deriving DecidableEq, Repr

namespace Node

def ofItems : List Node → Node
  | [] => .empty
  | [n] => n
  | n :: ns => .seq n (ofItems ns)

def ofBranches (first : Node) : List Node → Node
  | [] => first
  | n :: ns => .alt first (ofBranches n ns)

def captureCount : Node → Nat
  | .empty => 0
  | .single _ => 0
  | .anchor _ => 0
  | .paren p body => (if p.captures then 1 else 0) + body.captureCount
  | .times body _ _ _ => body.captureCount
  | .seq a b => a.captureCount + b.captureCount
  | .alt a b => a.captureCount + b.captureCount

def names (base : Nat) : Node → List (Text × Nat)
  | .empty => []
  | .single _ => []
  | .anchor _ => []
  | .paren (.named name) body => (name, base + 1) :: body.names (base + 1)
  | .paren .capture body => body.names (base + 1)
  | .paren _ body => body.names base
  | .times body _ _ _ => body.names base
  | .seq a b => a.names base ++ b.names (base + a.captureCount)
  | .alt a b => a.names base ++ b.names (base + a.captureCount)

def depth : Node → Nat
  | .empty => 0
  | .single _ => 0
  | .anchor _ => 0
  | .paren _ body => body.depth + 1
  | .times body _ _ _ => body.depth
  | .seq a b => max a.depth b.depth
  | .alt a b => max a.depth b.depth

/-- Nothing is left of the node once plain groups are taken away. -/
def vanishes : Node → Bool
  | .empty => true
  | .paren .plain body => body.vanishes
  | .seq a b => a.vanishes && b.vanishes
  | _ => false

/-- A quantifier can follow: seen through plain groups, the node is not empty and not a lone anchor
or lookaround. -/
def isRepeatable : Node → Bool
  | .empty => false
  | .anchor _ => false
  | .paren (.look _ _) _ => false
  | .paren .plain body => body.isRepeatable
  | .seq a b =>
    if a.vanishes then b.isRepeatable
    else if b.vanishes then a.isRepeatable
    else true
  | _ => true

end Node
end PatternBuilder.Dialect
