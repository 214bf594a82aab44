import PatternBuilder.Builder
import PatternBuilder.Dialect.Grammar
import PatternBuilder.Proofs.Parts

/-!
# The meaning of clauses

The pattern tree that a builder is meant to stand for, read off its clauses without writing them.
-/

namespace PatternBuilder

open Dialect

namespace Dialect.Node

/-- One after the other; what is empty is left out. -/
def append : Node → Node → Node
  | .empty, n => n
  | m, .empty => m
  | m, n => .seq m n

def ofAlternatives : List Node → Node
  | [] => .empty
  | n :: ns => ofBranches n ns

structure Joins (op : Node → Node → Node) (f : List Node → Node) : Prop where
  nil : f [] = .empty
  one : ∀ n, f [n] = n
  cons : ∀ n k ns, f (n :: k :: ns) = op n (f (k :: ns))

theorem joins_ofItems : Joins .seq ofItems := ⟨rfl, fun _ => rfl, fun _ _ _ => rfl⟩

theorem joins_ofAlternatives : Joins .alt ofAlternatives := ⟨rfl, fun _ => rfl, fun _ _ _ => rfl⟩

namespace Joins

variable {op : Node → Node → Node} {f : List Node → Node}

theorem of_forall (h : Joins op f) {P : Node → Prop} (hempty : P .empty)
    (hop : ∀ {a b}, P a → P b → P (op a b)) {ns : List Node} (hns : ∀ n ∈ ns, P n) :
    P (f ns) := by
  match ns with
  | [] => exact h.nil ▸ hempty
  | [n] => exact (h.one n).symm ▸ hns n List.mem_cons_self
  | n :: k :: ns =>
    obtain ⟨hn, hrest⟩ := List.forall_mem_cons.mp hns
    exact (h.cons n k ns).symm ▸ hop hn (of_forall h hempty hop hrest)

theorem flatMap (h : Joins op f) {α : Type} {g : Node → List α}
    (hop : ∀ a b, g (op a b) = g a ++ g b) {ns : List Node} (hempty : ns = [] → g .empty = []) :
    g (f ns) = ns.flatMap g := by
  match ns with
  | [] => rw [h.nil, hempty rfl, List.flatMap_nil]
  | [n] => rw [h.one, List.flatMap_singleton]
  | n :: k :: ns =>
    have hne : k :: ns ≠ [] := List.cons_ne_nil k ns
    rw [h.cons, hop, flatMap h hop (absurd · hne)]
    exact List.flatMap_cons.symm

end Joins

end Dialect.Node

namespace Dialect.Modes

/-- A character in pattern text. In extended mode a blank is there, but stands for nothing. -/
def charNode (m : Modes) (c : Char) : Node :=
  if m.extended && isBlank c then .seq .empty .empty
  else .single (closed m.ignoreCase (.single c))

def anyChar (m : Modes) : Node :=
  .single (if m.dotAll then CharSet.empty else .single '\n').complement

def lineStart (m : Modes) : Node := .anchor (if m.multiLine then .lineStart else .textStart)

def lineEnd (m : Modes) : Node := .anchor (if m.multiLine then .lineEnd else .textEnd)

def escapeNode (m : Modes) (c : Char) : Node :=
  match shorthand? c, control? c with
  | some s, _ => .single s
  | none, some d => .single (closed m.ignoreCase (.single d))
  | none, none => m.charNode c

end Dialect.Modes

namespace Escape

def unescape : Text → Text
  | [] => []
  | ['\\'] => ['\\']
  | '\\' :: c :: t => c :: unescape t
  | c :: t => c :: unescape t

end Escape

/-- A repetition, unless it is for once. The greatest number there is stands for no bound. -/
def Quantifier.node (m : Modes) (q : Quantifier) (n : Node) : Node :=
  if q.lower = 1 ∧ q.upper = some 1 then n
  else .times n q.lower (q.upper.bind upperBound) (!m.reluctant)

namespace Atom

def set : Atom → CharSet
  | .range r => .range r.lo r.hi
  | .char c => .single c
  | .token ['\\', c] => ((shorthand? c).orElse fun _ => (control? c).map .single).getD .empty
  | _ => .empty

def setOf (as : List Atom) : CharSet := as.foldl (fun s a => a.set.union s) .empty

def literalNode (m : Modes) (t : Text) : Node :=
  Node.ofItems ((Escape.unescape t).map m.charNode)

def classNode? (m : Modes) (bareDot : Bool) : List Atom → Option Node
  | [] => none
  | [.char c] => some (if c = '.' ∧ bareDot then m.anyChar else m.charNode c)
  | [.token ['\\', c]] => some (m.escapeNode c)
  | [.literal t] => some (literalNode m t)
  | as => some (.single (closed m.ignoreCase (setOf as)))

def textNode (m : Modes) : Atom → Node
  | .literal t => literalNode m t
  | .token t => literalNode m t
  | _ => .empty

/-- A text that does not fit a class is an alternative of its own. -/
def node (m : Modes) (bareDot : Bool) (as : List Atom) : Node :=
  Node.ofAlternatives ((classNode? m bareDot (as.filter fitsClass)).toList ++
    (as.filter fun a => !a.fitsClass).map (textNode m))

end Atom

def Grouping.node : Grouping → Node → Node
  | .none, n => n
  | .capture, n => .paren .capture n
  | .nonCapture, n => .paren .plain n
  | .named name, n => .paren (.named name) n

namespace Options

def beforeNode (m : Modes) : Option Text → Node
  | some ['^'] => m.lineStart
  | some ['\\', 'A'] => .anchor .textStart
  | _ => .empty

def afterNode (m : Modes) : Option Text → Node
  | some ['$'] => m.lineEnd
  | some ['\\', 'z'] => .anchor .textEnd
  | _ => .empty

def lookaround? (o : Options) : Option Paren :=
  match o.before with
  | some ['(', '?', '='] => some (.look false false)
  | some ['(', '?', '!'] => some (.look false true)
  | some ['(', '?', '<', '='] => some (.look true false)
  | some ['(', '?', '<', '!'] => some (.look true true)
  | _ => none

def repeated (m : Modes) (o : Options) (body : Node) : Node :=
  match o.quantifier with
  | some q => q.node m body
  | none => body

/-- The quantifier repeats the body, the group asked for is around that, the decoration outside. -/
def node (m : Modes) (o : Options) (body : Node) : Node :=
  let n := o.grouping.node (o.repeated m body)
  match o.lookaround? with
  | some p => .paren p n
  | none => (beforeNode m o.before).append (n.append (afterNode m o.after))

end Options

namespace Clause

def node (m : Modes) (flags : Flags) (c : Clause Node) : Node :=
  c.options.node m (match c.body with
    | .atoms as => Atom.node m c.options.bareDot (Atom.foldWhen flags.ignoreCase as)
    | .nested n => n)

end Clause

namespace Layout

/-- A repeater repeats the clause as a whole. Where nothing is written there is nothing to
repeat. -/
def Item.node (m : Modes) (flags : Flags) (i : Item (Clause Node)) : Node :=
  let n := i.clause.node m flags
  match i.repeater with
  | none => n
  | some r => if n = .empty then n else (r.options.quantifier.map fun q => q.node m n).getD n

def nodeFrom {α : Type} (f : Item α → Node) (n : Node) : List (Part α) → Node
  | [] => n
  | u :: us =>
    if u.isJoined then nodeFrom f (.alt n (f u.item)) us
    else n.append (nodeFrom f (f u.item) us)

/-- Neighbours that are joined are alternatives; what is left stands one behind the other. -/
def nodeOfParts {α : Type} (f : Item α → Node) : List (Part α) → Node
  | [] => .empty
  | u :: us => nodeFrom f (f u.item) us

def node (m : Modes) (flags : Flags) (cs : List (Clause Node)) : Node :=
  nodeOfParts (Item.node m flags) (parts cs)

end Layout

namespace Builder

mutual

/-- The pattern tree that a builder stands for, under the flags of the outermost one. -/
def node (m : Modes) (flags : Flags) : Builder → Node
  | ⟨clauses, _, _, _, _⟩ => Layout.node m flags (clauseNodes m flags clauses)

def clauseNodes (m : Modes) (flags : Flags) : List (Clause Builder) → List (Clause Node)
  | [] => []
  | c :: cs => clauseNode m flags c :: clauseNodes m flags cs

def clauseNode (m : Modes) (flags : Flags) : Clause Builder → Clause Node
  | ⟨body, options, index⟩ => ⟨bodyNode m flags body, options, index⟩

def bodyNode (m : Modes) (flags : Flags) : Body Builder → Body Node
  | .atoms as => .atoms as
  | .nested b => .nested (node m flags b)

end

theorem bodyNode_eq (m : Modes) (flags : Flags) (b : Body Builder) :
    bodyNode m flags b = b.map (node m flags) := by
  cases b <;> simp [bodyNode, Body.map]

theorem clauseNode_eq (m : Modes) (flags : Flags) (c : Clause Builder) :
    clauseNode m flags c = c.map (node m flags) := by
  cases c
  simp [clauseNode, bodyNode_eq, Clause.map]

theorem clauseNodes_eq (m : Modes) (flags : Flags) (cs : List (Clause Builder)) :
    clauseNodes m flags cs = cs.map (Clause.map (node m flags)) := by
  induction cs with
  | nil => simp [clauseNodes]
  | cons c cs ih => simp [clauseNodes, clauseNode_eq, ih]

theorem node_eq (m : Modes) (flags : Flags) (b : Builder) :
    b.node m flags = Layout.node m flags (b.clauses.map (Clause.map (node m flags))) := by
  cases b
  simp [node, clauseNodes_eq]

end Builder
end PatternBuilder
