import PatternBuilder.Pattern
import PatternBuilder.Proofs.SimpleTrees
import PatternBuilder.Proofs.WritingBuilders

/-!
# Trees without lookbehinds

Only a lookbehind can keep a tree from being matched by backtracking.
-/

namespace PatternBuilder

namespace Dialect

def Node.looksAhead : Node → Bool
  | .empty => true
  | .single _ => true
  | .anchor _ => true
  | .paren (.look behind _) body => !behind && body.looksAhead
  | .paren _ body => body.looksAhead
  | .times body _ _ _ => body.looksAhead
  | .seq a b => a.looksAhead && b.looksAhead
  | .alt a b => a.looksAhead && b.looksAhead

theorem Node.isHereditary_looksAhead : IsHereditary Node.looksAhead where
  empty := rfl
  plain _ := rfl
  paren p _ _ h := by cases p <;> simp [Node.looksAhead, h]
  times _ _ _ _ _ _ h := h
  seq _ _ := rfl
  alt _ _ := rfl

theorem Node.Alike.looksAhead {m n : Node} (h : Alike m n) : m.looksAhead = n.looksAhead :=
  isHereditary_looksAhead.alike h

theorem Node.looksAhead_of_isSimple {n : Node} (h : n.isSimple = true) : n.looksAhead = true := by
  refine isHereditary_looksAhead.of_isSimple (fun _ => rfl) (fun _ => rfl) (fun p n hp => ?_) h
  cases p with
  | look behind negated => cases hp
  | _ => rfl

mutual

def Core.looksAhead : Core → Bool
  | .set _ => true
  | .anchor _ => true
  | .capture _ body => body.looksAhead
  | .atomic body => body.looksAhead
  | .look behind _ body => !behind && body.looksAhead
  | .times body _ _ _ => body.looksAhead
  | .concat items => allLookAhead items
  | .choice branches => allLookAhead branches

def allLookAhead : List Core → Bool
  | [] => true
  | c :: cs => c.looksAhead && allLookAhead cs

end

theorem allLookAhead_eq (cs : List Core) : allLookAhead cs = cs.all Core.looksAhead := by
  induction cs with
  | nil => rfl
  | cons c cs ih => rw [allLookAhead, ih, List.all_cons]

theorem Core.looksAhead_ofItems (cs : List Core) :
    (Core.ofItems cs).looksAhead = cs.all Core.looksAhead := by
  match cs with
  | [] => rfl
  | [c] => simp [ofItems]
  | c :: d :: ds =>
    rw [ofItems, looksAhead, allLookAhead_eq]
    simp

theorem Node.looksAhead_members {n : Node} (h : n.looksAhead = true) (base : Nat) :
    (n.members base).all Core.looksAhead = true := by
  induction n generalizing base with
  | empty => rfl
  | single s => rfl
  | anchor a => rfl
  | paren p body ih =>
    cases p with
    | plain =>
      have hbody := ih h base
      rw [members]
      split
      · rfl
      next => simpa [Core.looksAhead_ofItems] using hbody
    | look behind negated =>
      simp only [looksAhead, Bool.and_eq_true, Bool.not_eq_true'] at h
      simp [members, Core.looksAhead, Core.looksAhead_ofItems, h.1, ih h.2 base]
    | atomic => simpa [members, Core.looksAhead, Core.looksAhead_ofItems] using ih h base
    | capture => simpa [members, Core.looksAhead, Core.looksAhead_ofItems] using ih h (base + 1)
    | named name => simpa [members, Core.looksAhead, Core.looksAhead_ofItems] using ih h (base + 1)
  | times body min max greedy ih =>
    simpa [members, Core.looksAhead, Core.looksAhead_ofItems] using ih h base
  | seq a b iha ihb =>
    rw [looksAhead, Bool.and_eq_true] at h
    rw [members, List.all_append, iha h.1, ihb h.2]
    rfl
  | alt a b iha ihb =>
    rw [looksAhead, Bool.and_eq_true] at h
    have ha := iha h.1 base
    have hb := ihb h.2 (base + a.captureCount)
    unfold members
    split
    next branches hmembers =>
      rw [hmembers] at hb
      simp only [List.all_cons, List.all_nil, Bool.and_true, Core.looksAhead] at hb
      simp [Core.looksAhead, allLookAhead, Core.looksAhead_ofItems, ha, hb]
    next => simp [Core.looksAhead, allLookAhead, Core.looksAhead_ofItems, ha, hb]

theorem Node.looksAhead_core {n : Node} (h : n.looksAhead = true) : n.core.looksAhead = true := by
  rw [core, Core.looksAhead_ofItems]
  exact n.looksAhead_members h 0

theorem mapM_id_ok {α : Type} {es : List (Except SyntaxError α)} (h : ∀ e ∈ es, ∃ s, e = .ok s) :
    ∃ ss, es.mapM id = .ok ss := by
  induction es with
  | nil => exact ⟨[], rfl⟩
  | cons e es ih =>
    obtain ⟨s, rfl⟩ := h e List.mem_cons_self
    obtain ⟨ss, hss⟩ := ih fun d hd => h d (List.mem_cons_of_mem _ hd)
    exact ⟨s :: ss, by rw [List.mapM_cons, hss]; rfl⟩

mutual

/-- Backtracking alone refuses nothing but lookbehinds. -/
theorem Core.strategy_ok (c : Core) (h : c.looksAhead = true) (goesOn : Bool) :
    ∃ s, c.strategy none goesOn = .ok s := by
  match c with
  | .set s => exact ⟨.set s, by simp [Core.strategy]⟩
  | .anchor a => exact ⟨.anchor a, by simp [Core.strategy]⟩
  | .capture number body =>
    obtain ⟨s, hs⟩ := body.strategy_ok h goesOn
    exact ⟨.capture number s, by simp [Core.strategy, hs, bind, Except.bind, pure, Except.pure]⟩
  | .atomic body =>
    obtain ⟨s, hs⟩ := body.strategy_ok h false
    exact ⟨.atomic s, by simp [Core.strategy, hs, bind, Except.bind, pure, Except.pure]⟩
  | .look behind negated body =>
    rw [Core.looksAhead, Bool.and_eq_true, Bool.not_eq_true'] at h
    obtain ⟨s, hs⟩ := body.strategy_ok h.2 false
    rw [h.1]
    exact ⟨.look 0 negated s, by simp [Core.strategy, hs, bind, Except.bind, pure, Except.pure]⟩
  | .times body min max greedy =>
    by_cases honce : min = 0 ∧ max = some 1
    · obtain ⟨s, hs⟩ := body.strategy_ok h goesOn
      exact ⟨.optional s greedy, by
        simp [Core.strategy, hs, honce, bind, Except.bind, pure, Except.pure]⟩
    · obtain ⟨s, hs⟩ := body.strategy_ok h true
      exact ⟨.times s min max greedy (max.isNone && body.traits.least == 0), by
        simp [Core.strategy, hs, honce, bind, Except.bind, pure, Except.pure]⟩
  | .concat items =>
    obtain ⟨ss, hss⟩ := mapM_id_ok (strategiesOfAll_ok items h true)
    exact ⟨.ofItems ss, by
      simp [Core.strategy, Strategy.sequence, hss, bind, Except.bind, pure, Except.pure]⟩
  | .choice branches =>
    obtain ⟨ss, hss⟩ := mapM_id_ok (strategiesOfAll_ok branches h goesOn)
    exact ⟨.ofBranches ss, by simp [Core.strategy, hss, bind, Except.bind, pure, Except.pure]⟩

theorem strategiesOfAll_ok (cs : List Core) (h : allLookAhead cs = true) (goesOn : Bool) :
    ∀ e ∈ strategiesOfAll none goesOn cs, ∃ s, e = .ok s := by
  match cs with
  | [] => simp [strategiesOfAll]
  | c :: cs =>
    rw [allLookAhead, Bool.and_eq_true] at h
    intro e he
    rw [strategiesOfAll, List.mem_cons] at he
    rcases he with rfl | he
    · exact c.strategy_ok h.1 goesOn
    · exact strategiesOfAll_ok cs h.2 goesOn e he

end

end Dialect

open Dialect

namespace Pattern

variable {source : Text} {flags : Flags}

theorem ofText_unlimited {n : Node} (hparse : Node.parse (dialectText source flags) = .ok n)
    (hn : n.looksAhead = true) : ∃ p, ofText .unlimited source flags = .ok p := by
  obtain ⟨s, hs⟩ := n.core.strategy_ok (Node.looksAhead_core hn) true
  have hsearcher : searcherOf .unlimited n.core =
      .ok (.backtracking s none, n.core.groups.length) := by
    simp [searcherOf, Limits.unlimited, hs, bind, Except.bind, pure, Except.pure]
  exact ⟨_, by
    simp only [ofText, hparse, hsearcher, bind, Except.bind, pure, Except.pure]
    rfl⟩

theorem ofText_error {limits : Limits} {e : SyntaxError}
    (hparse : Node.parse (dialectText source flags) = .error e) :
    ofText limits source flags = .error e := by
  simp [ofText, hparse, bind, Except.bind]

end Pattern

variable {m : Modes}

namespace Options

theorem looksAhead_repeated (o : Options) (n : Node) :
    (o.repeated m n).looksAhead = n.looksAhead := by
  unfold repeated
  split
  · unfold Quantifier.node
    split <;> rfl
  · rfl

def LooksAhead (o : Options) : Prop := ∀ negated, o.lookaround? ≠ some (.look true negated)

theorem looksAhead_node {o : Options} (ho : o.LooksAhead) {n : Node} (hn : n.looksAhead = true) :
    (o.node m n).looksAhead = true := by
  have hgrouped : (o.grouping.node (o.repeated m n)).looksAhead = true := by
    rw [← hn, ← o.looksAhead_repeated (m := m) n]
    cases o.grouping <;> rfl
  unfold node
  split
  next p hp =>
    unfold lookaround? at hp
    split at hp <;> cases hp
    · exact hgrouped
    · exact hgrouped
    · exact absurd (by simp [lookaround?, *]) (ho false)
    · exact absurd (by simp [lookaround?, *]) (ho true)
  next =>
    have hbefore : ∀ t, (beforeNode m t).looksAhead = true := fun t => by
      unfold beforeNode
      split <;> rfl
    have hafter : ∀ t, (afterNode m t).looksAhead = true := fun t => by
      unfold afterNode
      split <;> rfl
    simp [Node.isHereditary_looksAhead.append, hgrouped, hbefore, hafter]

end Options

namespace Builder

def LooksAhead (b : Builder) : Prop :=
  ∀ (m : Modes) (flags : Flags), (b.node m flags).looksAhead = true

theorem looksAhead_of_clauses {b : Builder}
    (hcs : ∀ c ∈ b.clauses, c.isSeparator = true → c.hasContent = false)
    (h : ∀ c ∈ b.clauses, c.options.LooksAhead ∧ ∀ k, c.body = .nested k → k.LooksAhead) :
    b.LooksAhead := by
  intro m flags
  rw [node_eq, Layout.node, Layout.parts_map, Layout.nodeOfParts_map]
  apply (Layout.hereditary_nodeOfParts Node.isHereditary_looksAhead).mpr
  intro u hu
  obtain ⟨hclause, _⟩ := Layout.mem_of_mem_parts hcs hu
  obtain ⟨hoptions, hnested⟩ := h _ hclause
  have hc : ((u.item.clause.map (Builder.node m flags)).node m flags).looksAhead = true := by
    refine Options.looksAhead_node hoptions ?_
    cases hbody : u.item.clause.body with
    | atoms as =>
      simp [Clause.map, hbody, Body.map, Node.looksAhead_of_isSimple, Atom.isSimple_node]
    | nested k => simpa [Clause.map, hbody, Body.map] using hnested k hbody m flags
  unfold Layout.Item.node
  split
  next => exact hc
  next r _ =>
    simp only [Options.map_getD_eq_repeated]
    split
    · exact hc
    · rw [Options.looksAhead_repeated]
      exact hc

end Builder
end PatternBuilder
