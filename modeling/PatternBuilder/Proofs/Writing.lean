import PatternBuilder.Proofs.PhraseOutline

/-!
# Writing trees

How the text of a tree can be put together from the texts of its parts. The outline of a text
decides where a group is needed, and the group is written there.
-/

namespace PatternBuilder

open Dialect

/-- The text is that of a phrase with the tree, up to its shape. -/
def Spells (m : Modes) (t : Text) (n : Node) : Prop :=
  ∃ p : Phrase, p.Proper m ∧ p.text = t ∧ Node.Alike (p.node m) n

theorem Dialect.Phrase.vanishes_of_lexemes {m : Modes} {p : Phrase} (h : p.lexemes m = []) :
    (p.node m).vanishes = true := by
  induction p with
  | empty => rfl
  | sign s =>
    have hs : s.lexeme? m = none := by simpa [Phrase.lexemes] using h
    simp [Phrase.node, Sign.node, hs, Node.vanishes]
  | paren p body => simp [Phrase.lexemes] at h
  | times body q => simp [Phrase.lexemes] at h
  | seq a b iha ihb =>
    simp only [Phrase.lexemes, List.append_eq_nil_iff] at h
    simp [Phrase.node, Node.vanishes, iha h.1, ihb h.2]
  | alt a b => simp [Phrase.lexemes] at h

namespace Spells

variable {m : Modes} {s t : Text} {a b n : Node}

theorem nil : Spells m [] .empty := ⟨.empty, trivial, rfl, .refl _⟩

theorem alike (h : Spells m t n) {k : Node} (hk : Node.Alike n k) : Spells m t k := by
  obtain ⟨p, hp, htext, hn⟩ := h
  exact ⟨p, hp, htext, hn.trans hk⟩

theorem sign {x : Sign} (h : x.Proper) : Spells m x.text (x.node m) := ⟨.sign x, h, rfl, .refl _⟩

theorem append (hs : Spells m s a) (ht : Spells m t b) (hsbar : s.hasOuterBar = false)
    (htbar : t.hasOuterBar = false) : Spells m (s ++ t) (.seq a b) := by
  obtain ⟨p, hp, rfl, ha⟩ := hs
  obtain ⟨q, hq, rfl, hb⟩ := ht
  rw [Phrase.hasOuterBar_text hp] at hsbar
  rw [Phrase.hasOuterBar_text hq] at htbar
  have hseq := ha.seq hb
  by_cases hpe : p = .empty
  · subst hpe
    exact ⟨q, hq, rfl, (Node.Alike.emptySeq _).symm.trans hseq⟩
  by_cases hqe : q = .empty
  · subst hqe
    exact ⟨p, hp, (List.append_nil _).symm, (Node.Alike.seqEmpty _).symm.trans hseq⟩
  · exact ⟨.seq p q, ⟨⟨hp, hpe, hsbar⟩, hq, hqe, htbar⟩, rfl, hseq⟩

theorem alt (hs : Spells m s a) (ht : Spells m t b) : Spells m (s ++ '|' :: t) (.alt a b) := by
  obtain ⟨p, hp, rfl, ha⟩ := hs
  obtain ⟨q, hq, rfl, hb⟩ := ht
  exact ⟨.alt p q, ⟨hp, hq⟩, rfl, ha.alt hb⟩

theorem paren (h : Spells m s n) {p : Paren} (hp : p.Proper) :
    Spells m (p.opening ++ s ++ [')']) (.paren p n) := by
  obtain ⟨body, hbody, rfl, hn⟩ := h
  exact ⟨.paren p body, ⟨hp, hbody⟩, rfl, hn.paren p⟩

theorem plain (h : Spells m s n) : Spells m (Grouping.nonCapture.wrap s) n :=
  (h.paren (p := .plain) trivial).alike (.plain n)

theorem repeated (h : Spells m s n) (hunit : s.isUnit = true) (hn : n.vanishes = false)
    {q : Quantifier} (hq : q.Fits) : Spells m (s ++ q.text) (q.node m n) := by
  obtain ⟨p, hp, rfl, hnode⟩ := h
  by_cases hqe : q.text = []
  · have hnone : q.node m n = n := if_pos (Quantifier.text_eq_nil.mp hqe)
    rw [hqe, hnone, List.append_nil]
    exact ⟨p, hp, rfl, hnode⟩
  · have hv : (p.node m).vanishes = false := hnode.vanishes.trans hn
    have hl : p.lexemes m ≠ [] := fun hl => by
      rw [Phrase.vanishes_of_lexemes hl] at hv
      cases hv
    rcases (Phrase.isUnit_text hp).mp hunit with rfl | hsingle
    · exact absurd rfl hl
    · refine ⟨.times p q, ⟨hp, hsingle, hl, hq, hqe⟩, rfl, ?_⟩
      rw [Phrase.node, Quantifier.node_of_text_ne_nil hqe, Quantifier.node_of_text_ne_nil hqe]
      exact hnode.times _ _ _

theorem strip (h : Spells m s n) : Spells m s.stripGroup n := by
  obtain ⟨p, hp, rfl, hnode⟩ := h
  by_cases hplain : ∃ body, p = .paren .plain body
  · obtain ⟨body, rfl⟩ := hplain
    refine ⟨body, hp.2, (Phrase.stripGroup_plain hp.2).symm, ?_⟩
    exact (Node.Alike.plain _).symm.trans hnode
  · have hother := Phrase.stripGroup_other hp fun body he => hplain ⟨body, he⟩
    exact ⟨p, hp, hother.symm, hnode⟩

theorem hasOuterBar_append (h : Spells m s n) (t : Text) :
    (s ++ t).hasOuterBar = (s.hasOuterBar || t.hasOuterBar) := by
  obtain ⟨p, hp, rfl, _⟩ := h
  rw [Phrase.hasOuterBar_text hp, Text.hasOuterBar, Phrase.ofText_text hp,
    Phrase.barOutside_marks hp]
  rfl

theorem hasOuterBar_paren (h : Spells m s n) {p : Paren} (hp : p.Proper) :
    (p.opening ++ s ++ [')']).hasOuterBar = false := by
  obtain ⟨body, hbody, rfl, _⟩ := h
  exact Phrase.hasOuterBar_text (m := m) (p := .paren p body) ⟨hp, hbody⟩

theorem hasOuterBar_of_isUnit (h : Spells m s n) (hunit : s.isUnit = true) :
    s.hasOuterBar = false := by
  obtain ⟨p, hp, rfl, _⟩ := h
  rw [Phrase.hasOuterBar_text hp]
  rcases (Phrase.isUnit_text hp).mp hunit with rfl | hsingle
  · rfl
  · exact Phrase.hasBar_of_isSingle hsingle

theorem isUnit_paren (h : Spells m s n) {p : Paren} (hp : p.Proper) :
    (p.opening ++ s ++ [')']).isUnit = true := by
  obtain ⟨body, hbody, rfl, _⟩ := h
  exact (Phrase.isUnit_text (m := m) (p := .paren p body) ⟨hp, hbody⟩).mpr (.inr trivial)

end Spells

theorem Quantifier.hasOuterBar_text (q : Quantifier) : q.text.hasOuterBar = false := by
  have hplain := Mark.ofText_append_of_plain (s := q.text)
    (fun _ => not_structural_of_mem_text) []
  have hscan := Mark.barOutside_plains 0 q.text []
  rw [List.append_nil] at hplain
  rw [Text.hasOuterBar, hplain]
  exact hscan

end PatternBuilder
