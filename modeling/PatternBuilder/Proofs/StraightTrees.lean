import PatternBuilder.Proofs.AgreeingCores
import PatternBuilder.Proofs.Parsing

/-!
# Trees as they are read

What reading makes of a phrase, to the last node: sequences and alternatives are bracketed to the
right, whatever their bracketing in the phrase.
-/

namespace PatternBuilder.Dialect

/-- One list of alternatives behind another: the last of the first goes on with the first of the
second. -/
def glue {α : Type} : List (List α) → List (List α) → List (List α)
  | [], vs => vs
  | [u], [] => [u]
  | [u], v :: vs => (u ++ v) :: vs
  | u :: w :: us, vs => u :: glue (w :: us) vs

namespace Node

def ofLay (ws : List (List Node)) : Node := ofAlternatives (ws.map ofItems)

/-- The alternatives of a tree, each with the items of its sequence. -/
def lay : Node → List (List Node)
  | .empty => [[]]
  | .single s => [[.single s]]
  | .anchor a => [[.anchor a]]
  | .paren p body => [[.paren p (ofLay body.lay)]]
  | .times body min max greedy => [[.times (ofLay body.lay) min max greedy]]
  | .seq a b => glue a.lay b.lay
  | .alt a b => a.lay ++ b.lay

def straight (n : Node) : Node := ofLay n.lay

end Node

theorem glue_ne_nil {α : Type} {us vs : List (List α)} (hus : us ≠ []) : glue us vs ≠ [] := by
  match us, vs with
  | [], _ => exact absurd rfl hus
  | [u], [] => simp [glue]
  | [u], v :: vs => simp [glue]
  | u :: w :: us, vs => simp [glue]

theorem Node.lay_ne_nil (n : Node) : n.lay ≠ [] := by
  induction n with
  | seq a b iha ihb => exact glue_ne_nil iha
  | alt a b iha ihb => simp [lay, iha]
  | _ => simp [lay]

namespace Level

def extend (l : Level) : List (List Node) → Level
  | [] => l
  | [u] => { l with items := u.reverse ++ l.items }
  | u :: v :: vs => extend ({ l with items := u.reverse ++ l.items } : Level).split (v :: vs)

theorem extend_cons (l : Level) (u : List Node) {vs : List (List Node)} (h : vs ≠ []) :
    l.extend (u :: vs) = extend ({ l with items := u.reverse ++ l.items } : Level).split vs := by
  obtain ⟨v, vs, rfl⟩ := List.exists_cons_of_ne_nil h
  rfl

theorem extend_glue (l : Level) {us vs : List (List Node)} (hus : us ≠ []) (hvs : vs ≠ []) :
    (l.extend us).extend vs = l.extend (glue us vs) := by
  induction us generalizing l with
  | nil => exact absurd rfl hus
  | cons u us ih =>
    cases us with
    | nil =>
      obtain ⟨v, vs, rfl⟩ := List.exists_cons_of_ne_nil hvs
      cases vs with
      | nil => simp [extend, glue]
      | cons w vs => simp [extend, glue]
    | cons w us =>
      rw [extend_cons l u (List.cons_ne_nil w us), ih _ (List.cons_ne_nil w us), glue,
        extend_cons l u (glue_ne_nil (List.cons_ne_nil w us))]

theorem extend_append (l : Level) {us vs : List (List Node)} (hus : us ≠ []) (hvs : vs ≠ []) :
    (l.extend us).split.extend vs = l.extend (us ++ vs) := by
  induction us generalizing l with
  | nil => exact absurd rfl hus
  | cons u us ih =>
    cases us with
    | nil => rw [List.singleton_append, extend_cons l u hvs, extend]
    | cons w us =>
      have hne : w :: us ++ vs ≠ [] := by simp
      rw [extend_cons l u (List.cons_ne_nil w us), ih _ (List.cons_ne_nil w us)]
      exact (extend_cons l u hne).symm

theorem node_extend {l : Level} (hl : l.items = []) {ws : List (List Node)} (hws : ws ≠ []) :
    (l.extend ws).node = Node.ofAlternatives (l.branches.reverse ++ ws.map Node.ofItems) := by
  induction ws generalizing l with
  | nil => exact absurd rfl hws
  | cons u us ih =>
    cases us with
    | nil => simp [extend, node_eq, branch, hl]
    | cons v us =>
      rw [extend_cons l u (List.cons_ne_nil v us), ih rfl (List.cons_ne_nil v us)]
      simp [split, branch, hl]

end Level

theorem Sign.lay_node {m : Modes} {s : Sign} {x : Lexeme} (h : s.lexeme? m = some x) :
    (s.node m).lay = [[s.node m]] := by
  rcases lexeme_cases h with ⟨y, rfl⟩ | ⟨a, rfl⟩ <;> simp [Sign.node, h, Node.lay]

namespace Phrase

variable {m : Modes} {p : Phrase}

/-- A phrase that a quantifier can follow is one item. -/
theorem lay_of_isSingle (h : p.IsSingle) (hl : p.lexemes m ≠ []) :
    ∃ n, (p.node m).lay = [[n]] ∧ Node.straight (p.node m) = n := by
  cases p with
  | sign s =>
    cases hs : s.lexeme? m with
    | none => simp [lexemes, hs] at hl
    | some x =>
      have hlay : ((Phrase.sign s).node m).lay = [[(Phrase.sign s).node m]] := Sign.lay_node hs
      refine ⟨_, hlay, ?_⟩
      rw [Node.straight, hlay]
      rfl
  | paren p body => exact ⟨_, rfl, rfl⟩
  | _ => exact h.elim

theorem stack_of_feed_quantifier {l : Level} {opened : List (Paren × Level)} {n : Node} {min : Nat}
    {max : Option Nat} {greedy : Bool} {st : Stack}
    (hst : Stack.feed ⟨l.extend [[n]], opened⟩ (.quantifier min max greedy false) = .ok st) :
    st = ⟨l.extend [[.times n min max greedy]], opened⟩ := by
  have hrepeat : n.isRepeatable = true := by
    by_contra hno
    simp [Stack.feed, Level.extend, Level.repeatLast, hno, bind, Except.bind] at hst
  simp only [Stack.feed, Level.extend, Level.repeatLast, List.reverse_singleton,
    List.singleton_append, hrepeat, if_true, Bool.false_eq_true, if_false, bind, Except.bind,
    pure, Except.pure] at hst
  cases hst
  rfl

theorem stack_of_foldlM (h : p.Proper m) {l : Level} {opened : List (Paren × Level)} {st : Stack}
    (hst : (p.lexemes m).foldlM Stack.feed ⟨l, opened⟩ = .ok st) :
    st = ⟨l.extend (p.node m).lay, opened⟩ := by
  induction p generalizing l opened st with
  | empty =>
    cases hst
    rfl
  | sign s =>
    cases hs : s.lexeme? m with
    | none =>
      have hnode : s.node m = .empty := by simp [Sign.node, hs]
      simp only [lexemes, hs, Option.toList_none, List.foldlM_nil] at hst
      cases hst
      rw [node, hnode]
      rfl
    | some x =>
      simp only [lexemes, hs, Option.toList_some, List.foldlM_cons, Sign.feed_lexeme hs,
        List.foldlM_nil] at hst
      cases hst
      rw [node, Sign.lay_node hs]
      rfl
  | paren p body ih =>
    rw [lexemes, List.cons_append, List.foldlM_cons] at hst
    obtain ⟨u, hbody, hclosing⟩ := exists_of_foldlM_append hst
    rw [ih h.2 hbody] at hclosing
    cases hclosing
    have hnode : (Level.start.extend (body.node m).lay).node = Node.ofLay (body.node m).lay :=
      Level.node_extend rfl (Node.lay_ne_nil _)
    rw [hnode]
    rfl
  | times body q ih =>
    obtain ⟨hbody, hsingle, hlexemes, hfits, hq⟩ := h
    obtain ⟨u, hu, hquantifier⟩ := exists_of_foldlM_append hst
    obtain ⟨n, hlay, hn⟩ := lay_of_isSingle hsingle hlexemes
    rw [ih hbody hu, hlay] at hquantifier
    simp only [List.foldlM_cons, List.foldlM_nil, bind_pure] at hquantifier
    rw [node, Quantifier.node_of_text_ne_nil hq, Node.lay, ← Node.straight, hn]
    exact stack_of_feed_quantifier hquantifier
  | seq a b iha ihb =>
    obtain ⟨u, ha, hb⟩ := exists_of_foldlM_append hst
    rw [iha h.1.1 ha] at hb
    rw [ihb h.2.1 hb, Level.extend_glue l (Node.lay_ne_nil _) (Node.lay_ne_nil _)]
    rfl
  | alt a b iha ihb =>
    obtain ⟨u, ha, hbar⟩ := exists_of_foldlM_append hst
    rw [iha h.1 ha, List.foldlM_cons] at hbar
    rw [ihb h.2 hbar, Level.extend_append l (Node.lay_ne_nil _) (Node.lay_ne_nil _)]
    rfl

end Phrase
end PatternBuilder.Dialect
