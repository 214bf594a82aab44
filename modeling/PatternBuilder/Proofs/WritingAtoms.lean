import PatternBuilder.Proofs.GatheredAtoms
import PatternBuilder.Proofs.Lexing
import PatternBuilder.Proofs.WritingClauses

/-!
# Writing atoms

Atoms are written as the alternatives that they are: one class for what fits it, and the texts.
-/

namespace PatternBuilder

open Dialect Options

theorem Dialect.Modes.charNode_ne_empty (m : Modes) (c : Char) : m.charNode c ≠ .empty := by
  unfold charNode
  split <;> exact Node.noConfusion

theorem Dialect.Node.ofItems_ne_empty {n : Node} (hn : n ≠ .empty) (ns : List Node) :
    Node.ofItems (n :: ns) ≠ .empty := by
  cases ns with
  | nil => exact hn
  | cons k ks => exact Node.noConfusion

variable {m : Modes}

theorem isWritten_sign {x : Sign} (h : x.Proper) (hbar : x.text.hasOuterBar = false) {n : Node}
    (hnode : Node.Alike (x.node m) n) (hn : n ≠ .empty) : IsWritten m false x.text n :=
  ⟨(Spells.sign h).alike hnode, fun _ => hbar, by simp [x.text_ne_nil, hn]⟩

theorem hasOuterBar_sign {x : Sign} (h : x.Proper) : x.text.hasOuterBar = false := by
  have hbar := Phrase.hasOuterBar_text (m := {}) (p := .sign x) h
  exact hbar

namespace Dialect.Sign

def ofChar (c : Char) : Sign := if c ∈ Escape.special then .escape c else .bare c

theorem text_ofChar (c : Char) : (ofChar c).text = Escape.general [c] := by
  unfold ofChar
  split <;> simp [Escape.general, Escape.escapeAll, Escape.escapeChar, text, *]

theorem proper_ofChar (c : Char) : (ofChar c).Proper := by
  unfold ofChar
  split
  next hc => exact .inl hc
  next hc => exact .inl hc

theorem node_ofChar (m : Modes) (c : Char) : (ofChar c).node m =
    if m.extended && isBlank c then .empty else .single (closed m.ignoreCase (.single c)) := by
  unfold ofChar
  split
  next hc =>
    have hletters : ∀ d ∈ Escape.special, anchor? d = none ∧ shorthand? d = none ∧
        control? d = none ∧ isBlank d = false := by decide
    obtain ⟨ha, hs, hd, hb⟩ := hletters c hc
    simp [node, lexeme?, ha, hs, hd, Modes.single, hb]
  next hc =>
    simp only [Escape.special, List.mem_cons, not_or] at hc
    by_cases hb : (m.extended && isBlank c) = true
    · simp [node, lexeme?, hc, hb]
    · simp [node, lexeme?, hc, hb, Modes.single]

end Dialect.Sign

theorem isWritten_char (m : Modes) (c : Char) :
    IsWritten m false (Escape.general [c]) (m.charNode c) := by
  have hproper := Sign.proper_ofChar c
  have hnode : Node.Alike ((Sign.ofChar c).node m) (m.charNode c) := by
    rw [Sign.node_ofChar, Modes.charNode]
    split
    · exact (Node.Alike.emptySeq _).symm
    · exact .refl _
  rw [← Sign.text_ofChar]
  exact isWritten_sign hproper (hasOuterBar_sign hproper) hnode (m.charNode_ne_empty c)

theorem isWritten_literal (m : Modes) (s : Text) :
    IsWritten m false (Escape.general s) (Atom.literalNode m (Escape.general s)) := by
  rw [Atom.literalNode, Escape.unescape_general]
  induction s with
  | nil => exact ⟨.nil, fun _ => rfl, by simp [Escape.general, Node.ofItems]⟩
  | cons c s ih =>
    have htext : Escape.general (c :: s) = Escape.general [c] ++ Escape.general s := by
      simp [Escape.general, Escape.escapeAll]
    have hboth := (isWritten_char m c).append ih
    have hne := Node.ofItems_ne_empty (m.charNode_ne_empty c) (s.map m.charNode)
    have hfirst : Escape.general [c] ≠ [] := fun he =>
      m.charNode_ne_empty c ((isWritten_char m c).empty.mp he)
    rw [htext, List.map_cons]
    refine ⟨hboth.spells.alike ?_, hboth.bar, by simp [hne, hfirst]⟩
    exact (Node.append_alike _ _).trans (Node.ofItems_cons_alike _ _).symm

theorem isWritten_token (m : Modes) {c : Char} (h : (shorthand? c).isSome = true ∨ c = 't') :
    IsWritten m false ['\\', c] (m.escapeNode c) := by
  have hproper : (Sign.escape c).Proper := by
    rcases h with h | rfl
    · exact .inr (.inl h)
    · exact .inr (.inr (by decide))
  have hnode : (Sign.escape c).node m = m.escapeNode c ∧ m.escapeNode c ≠ .empty := by
    rcases h with h | rfl
    · have hletter := mem_of_shorthand h
      simp only [List.mem_cons, List.not_mem_nil, or_false] at hletter
      rcases hletter with rfl | rfl | rfl | rfl | rfl | rfl <;>
        exact ⟨rfl, Node.noConfusion⟩
    · exact ⟨rfl, Node.noConfusion⟩
  exact isWritten_sign hproper (hasOuterBar_sign hproper) (.of_eq hnode.1) hnode.2

theorem isWritten_bracket (m : Modes) {as : List Atom} (h : ∀ a ∈ as, a.IsMember)
    (hapart : Atom.AreApart as) (hne : as.flatMap Atom.memberText ≠ []) :
    IsWritten m false ('[' :: as.flatMap Atom.memberText ++ [']'])
      (.single (closed m.ignoreCase (Atom.setOf as))) := by
  have hproper : (Sign.bracket as).Proper := ⟨h, hapart, hne⟩
  exact isWritten_sign hproper (hasOuterBar_sign hproper) (.refl _) Node.noConfusion

theorem isWritten_charText (m : Modes) (bareDot : Bool) (c : Char) :
    IsWritten m false (Atom.charText bareDot c)
      (if c = '.' ∧ bareDot then m.anyChar else m.charNode c) := by
  unfold Atom.charText
  split
  · have hproper : (Sign.bare '.').Proper := .inr (by decide)
    exact isWritten_sign hproper (hasOuterBar_sign hproper) (.refl _) Node.noConfusion
  · exact isWritten_char m c

theorem memberText_of_two {a b : Atom} {as : List Atom} (h : ∀ c ∈ a :: b :: as, c.IsMember)
    (hapart : Atom.AreApart (a :: b :: as)) : (a :: b :: as).flatMap Atom.memberText ≠ [] := by
  have hnil : ∀ c ∈ a :: b :: as, c.memberText = [] → c = .literal [] := by
    intro c hc he
    have hmember := h c hc
    cases c with
    | range r => simp [Atom.memberText] at he
    | char d =>
      exact absurd (set_of_memberText_eq_nil (a := .char d) trivial he).1 (by simp [Atom.tokens])
    | literal t => rw [show t = [] from hmember]
    | token t =>
      obtain ⟨d, rfl, _⟩ := hmember
      cases he
  intro he
  have ha := hnil a (by simp) (List.flatMap_eq_nil_iff.mp he a (by simp))
  have hb := hnil b (by simp) (List.flatMap_eq_nil_iff.mp he b (by simp))
  have hcount := hapart.1 (.literal []) rfl
  rw [ha, hb, List.count_cons_self, List.count_cons_self] at hcount
  omega

theorem isWritten_class (m : Modes) (bareDot : Bool) {as : List Atom} (h : ∀ a ∈ as, a.IsMember)
    (hapart : Atom.AreApart as) (has : as ≠ []) :
    ∃ t n, Atom.classText? bareDot as = some t ∧ Atom.classNode? m bareDot as = some n ∧
      IsWritten m false t n := by
  match as with
  | [] => exact absurd rfl has
  | [.char c] => exact ⟨_, _, rfl, rfl, isWritten_charText m bareDot c⟩
  | [.literal t] =>
    have ht : t = [] := h (.literal t) List.mem_cons_self
    subst ht
    exact ⟨_, _, rfl, rfl, isWritten_literal m []⟩
  | [.token t] =>
    obtain ⟨c, rfl, hc⟩ := h (.token t) List.mem_cons_self
    exact ⟨_, _, rfl, rfl, isWritten_token m hc⟩
  | [.range r] =>
    exact ⟨_, _, rfl, rfl, isWritten_bracket m h hapart (by simp [Atom.memberText])⟩
  | a :: b :: as =>
    have hnode : Atom.classNode? m bareDot (a :: b :: as) =
        some (.single (closed m.ignoreCase (Atom.setOf (a :: b :: as)))) := by
      rw [Atom.classNode?] <;> simp
    have htext : Atom.classText? bareDot (a :: b :: as) =
        some ('[' :: (a :: b :: as).flatMap Atom.memberText ++ [']']) := by
      rw [Atom.classText?] <;> simp
    exact ⟨_, _, htext, hnode, isWritten_bracket m h hapart (memberText_of_two h hapart)⟩

def AreAlternatives (m : Modes) : List Text → List Node → Prop := List.Forall₂ (IsWritten m false)

theorem intercalate_cons (t u : Text) (ts : List Text) :
    ['|'].intercalate (t :: u :: ts) = t ++ '|' :: ['|'].intercalate (u :: ts) := by
  simp [List.intercalate]

/-- `P` holds of the pieces that atoms are written with, and stays where texts are put together. -/
structure Atom.Composes (P : Text → Prop) : Prop where
  nil : P []
  char {c : Char} : c ∉ Escape.special → P [c]
  escape (c : Char) : P ['\\', c]
  dot : P ['.']
  bar : P ['|']
  bracket {as : List Atom} : (∀ a ∈ as, a.IsMember) → P ('[' :: as.flatMap Atom.memberText ++ [']'])
  append {s t : Text} : P s → P t → P (s ++ t)

namespace Atom.Composes

variable {P : Text → Prop} {bareDot : Bool} {as : List Atom}

theorem general (hP : Composes P) (t : Text) : P (Escape.general t) := by
  induction t with
  | nil => exact hP.nil
  | cons c t ih =>
    by_cases hc : c ∈ Escape.special
    · rw [Escape.general_cons_special hc]
      exact hP.append (hP.escape c) ih
    · rw [Escape.general_cons_plain hc]
      exact hP.append (hP.char hc) ih

theorem classText (hP : Composes P) (h : ∀ a ∈ as, a.IsMember) {t : Text}
    (ht : classText? bareDot as = some t) : P t := by
  unfold classText? at ht
  split at ht
  · cases ht
  next c =>
    cases ht
    unfold charText
    split
    · exact hP.dot
    · exact hP.general [c]
  next s =>
    obtain rfl : s = [] := h (.literal s) List.mem_cons_self
    cases ht
    exact hP.nil
  next s =>
    obtain ⟨c, rfl, -⟩ : (Atom.token s).IsMember := h (.token s) List.mem_cons_self
    cases ht
    exact hP.escape c
  · cases ht
    exact hP.bracket h

theorem intercalate (hP : Composes P) {ts : List Text} (h : ∀ t ∈ ts, P t) :
    P (['|'].intercalate ts) := by
  match ts with
  | [] => exact hP.nil
  | [t] => simpa [List.intercalate] using h t List.mem_cons_self
  | t :: u :: ts =>
    rw [intercalate_cons]
    have hrest := hP.intercalate fun v hv => h v (List.mem_cons_of_mem t hv)
    exact hP.append (h t List.mem_cons_self) (hP.append hP.bar hrest)

theorem alternatives (hP : Composes P) (bareDot : Bool) (h : ∀ a ∈ as, a.IsSound) :
    P (['|'].intercalate (Atom.alternatives bareDot as)) := by
  refine hP.intercalate fun t ht => ?_
  rcases List.mem_append.mp ht with ht | ht
  · refine hP.classText (fun a ha => ?_) (Option.mem_toList.mp ht)
    obtain ⟨hmem, hfits⟩ := List.mem_filter.mp ha
    exact isMember_of_fitsClass (h a hmem) hfits
  · obtain ⟨a, ha, rfl⟩ := List.mem_map.mp ht
    obtain ⟨hmem, hfits⟩ := List.mem_filter.mp ha
    obtain ⟨s, rfl, -⟩ := eq_literal_of_not_fitsClass (h a hmem) (by simpa using hfits)
    exact hP.general s

end Atom.Composes

theorem AreAlternatives.isWritten {ts : List Text} {ns : List Node} (h : AreAlternatives m ts ns) :
    Spells m (['|'].intercalate ts) (Node.ofAlternatives ns) ∧
      (['|'].intercalate ts = [] ↔ Node.ofAlternatives ns = .empty) ∧
      (Text.hasOuterBar (['|'].intercalate ts) = true → 1 < ts.length) := by
  induction h with
  | nil => exact ⟨.nil, by simp [Node.ofAlternatives, List.intercalate], fun hb => by cases hb⟩
  | @cons t n ts ns ht hts ih =>
    cases hts with
    | nil =>
      have hone : ['|'].intercalate [t] = t := by simp [List.intercalate]
      rw [hone]
      refine ⟨ht.spells, ht.empty, fun hb => ?_⟩
      rw [ht.bar rfl] at hb
      cases hb
    | @cons u k ts ns hu hts =>
      rw [intercalate_cons, Node.ofAlternatives_cons n (List.cons_ne_nil k ns)]
      exact ⟨ht.spells.alt ih.1, by simp, fun _ => by simp⟩

namespace Atom

variable {as : List Atom}

theorem areAlternatives_texts (m : Modes) (h : ∀ a ∈ as, a.IsSound) :
    AreAlternatives m ((as.filter fun a => !a.fitsClass).map memberText)
      ((as.filter fun a => !a.fitsClass).map (textNode m)) := by
  induction as with
  | nil => exact .nil
  | cons a as ih =>
    have hrest := ih fun b hb => h b (List.mem_cons_of_mem a hb)
    cases hfits : a.fitsClass with
    | true => simpa [hfits] using hrest
    | false =>
      obtain ⟨s, rfl, _⟩ := eq_literal_of_not_fitsClass (h a List.mem_cons_self) hfits
      rw [List.filter_cons_of_pos (by simp [hfits]), List.map_cons, List.map_cons]
      exact .cons (isWritten_literal m s) hrest

theorem areAlternatives (m : Modes) (bareDot : Bool) (h : AreSound as) :
    ∃ ns, Atom.node m bareDot as = Node.ofAlternatives ns ∧
      AreAlternatives m (alternatives bareDot as) ns := by
  have htexts := areAlternatives_texts m h.sound
  refine ⟨_, rfl, ?_⟩
  have hmember : ∀ a ∈ as.filter fitsClass, a.IsMember := fun a ha =>
    isMember_of_fitsClass (h.sound a (List.mem_of_mem_filter ha)) (List.mem_filter.mp ha).2
  unfold alternatives
  by_cases hclass : as.filter fitsClass = []
  · rw [hclass]
    exact htexts
  · obtain ⟨t, n, htext, hnode, hwritten⟩ :=
      isWritten_class m bareDot hmember (h.apart.filter fitsClass) hclass
    rw [htext, hnode]
    exact .cons hwritten htexts

end Atom

theorem intercalate_ne_nil {ts : List Text} (h : 1 < ts.length ∨ ∃ t ∈ ts, t ≠ []) :
    ['|'].intercalate ts ≠ [] := by
  match ts with
  | [] => simp at h
  | [t] => simpa [List.intercalate] using h
  | t :: u :: us => simp

namespace Options

variable {o : Options} {as : List Atom}

theorem alternatives_ne_nil (h : Atom.AreSound as) (ho : o.AreFor as)
    (halternatives : 1 < (Atom.alternatives o.bareDot as).length ∨ o.longTexts = true) :
    ['|'].intercalate (Atom.alternatives o.bareDot as) ≠ [] := by
  refine intercalate_ne_nil (halternatives.imp_right fun hlong => ?_)
  obtain ⟨a, ha, hfits⟩ := ho hlong
  obtain ⟨s, rfl, hs⟩ := Atom.eq_literal_of_not_fitsClass (h.sound a ha) hfits
  refine ⟨Escape.general s, ?_, fun hnil => ?_⟩
  · have hlast : Escape.general s ∈ (as.filter fun a => !a.fitsClass).map Atom.memberText :=
      List.mem_map.mpr ⟨_, List.mem_filter.mpr ⟨ha, by simp [hfits]⟩, rfl⟩
    exact List.mem_append_right _ hlast
  · have hcount := Escape.plainCount_escapeAll Escape.special s
    rw [show Escape.escapeAll Escape.special s = [] from hnil] at hcount
    rw [← hcount] at hs
    cases hs

theorem isWritten_atomsText {flags : Flags} (scope : Scope) (ho : o.IsPlain)
    (h : Atom.AreSound (Atom.foldWhen flags.ignoreCase as))
    (hlong : o.AreFor (Atom.foldWhen flags.ignoreCase as))
    (hcontent : (o.node m (Atom.node m o.bareDot
      (Atom.foldWhen flags.ignoreCase as))).repeatsContent = true) :
    IsWritten m scope.isBare (o.atomsText flags scope.alternative as)
      (o.node m (Atom.node m o.bareDot (Atom.foldWhen flags.ignoreCase as))) := by
  have hne := alternatives_ne_nil h hlong
  obtain ⟨ns, hnode, hwritten⟩ := Atom.areAlternatives m o.bareDot h
  obtain ⟨hspells, hempty, hbar⟩ := hwritten.isWritten
  unfold atomsText
  rw [hnode] at hcontent ⊢
  have hdressed : ∀ alternatives, IsDressed m o alternatives _ _ := fun _ =>
    ⟨ho, hspells, content_of_node hcontent⟩
  refine ⟨spells_dress (hdressed _) fun hs => ?_, fun hbare => ?_,
    dress_eq_nil ho (.inr ⟨hempty, ?_⟩)⟩
  · cases hplain : o.isUndecorated <;> simp [hbar hs]
  · have hrun : scope.alternative = false := (Bool.or_eq_false_iff.mp hbare).1
    exact hasOuterBar_dress (hdressed _) fun hs => by simp [hbar hs, hrun]
  · intro halternatives
    simp only [Bool.and_eq_true, Bool.or_eq_true, decide_eq_true_eq] at halternatives
    exact hne halternatives.1

end Options

end PatternBuilder
