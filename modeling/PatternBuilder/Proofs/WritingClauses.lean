import PatternBuilder.Proofs.Writing

/-!
# Writing clauses

Quantifier, group and decoration around a text stand for the same around its tree.
-/

namespace PatternBuilder

open Dialect

namespace Options

/-- Around the clause there are anchors at most, or a lookaround. The name is that of a group, and
the numbers of the quantifier are words. -/
structure IsPlain (o : Options) : Prop where
  decoration : o.before ∈ [none, some ['^'], some ['\\', 'A']] ∧
      o.after ∈ [none, some ['$'], some ['\\', 'z']] ∨
    o.lookaround?.isSome = true ∧ o.after = some [')']
  name : ∀ name ∈ o.name, IsGroupName name
  quantifier : ∀ q ∈ o.quantifier, q.Fits

instance (o : Options) : Decidable o.IsPlain :=
  decidable_of_iff (_ ∧ _ ∧ _)
    ⟨fun ⟨h, hname, hquantifier⟩ => ⟨h, hname, hquantifier⟩,
      fun ⟨h, hname, hquantifier⟩ => ⟨h, hname, hquantifier⟩⟩

def core (o : Options) (alternatives : Bool) (body : Text) : Text :=
  if alternatives || (!o.quantifierText.isEmpty && !body.isUnit) then
    if o.quantifierText.isEmpty && o.asksForGroup then body
    else Grouping.nonCapture.wrap body ++ o.quantifierText
  else body ++ o.quantifierText

theorem dress_eq (o : Options) (alternatives : Bool) (body : Text) :
    o.dress alternatives body = o.surround (o.grouping.wrap (o.core alternatives body)) := by
  unfold dress core
  split
  · split <;> rfl
  · rfl

theorem repeated_of_quantifierText {o : Options} (h : o.quantifierText = []) (m : Modes)
    (n : Node) :
    o.repeated m n = n := by
  unfold repeated
  cases hq : o.quantifier with
  | none => rfl
  | some q =>
    have htext : q.text = [] := by simpa [quantifierText, Quantifier.optionText, hq] using h
    exact if_pos (Quantifier.text_eq_nil.mp htext)

theorem exists_quantifier {o : Options} (h : o.quantifierText ≠ []) :
    ∃ q, o.quantifier = some q ∧ o.quantifierText = q.text ∧ q.text ≠ [] := by
  cases hq : o.quantifier with
  | none => simp [quantifierText, Quantifier.optionText, hq] at h
  | some q =>
    have htext : o.quantifierText = q.text := by simp [quantifierText, Quantifier.optionText, hq]
    exact ⟨q, rfl, htext, htext ▸ h⟩

theorem repeated_of_some {o : Options} {q : Quantifier} (h : o.quantifier = some q) (m : Modes)
    (n : Node) : o.repeated m n = q.node m n := by
  rw [repeated, h]

section

variable {m : Modes} {o : Options} {alternatives : Bool} {s : Text} {n : Node}

theorem content_of_repeated (h : (o.repeated m n).repeatsContent = true) :
    n.repeatsContent = true ∧ (o.quantifierText ≠ [] → n.vanishes = false) := by
  by_cases hq : o.quantifierText = []
  · rw [repeated_of_quantifierText hq] at h
    exact ⟨h, fun hne => absurd hq hne⟩
  · obtain ⟨q, hsome, _, hne⟩ := exists_quantifier hq
    rw [repeated_of_some hsome, Quantifier.node_of_text_ne_nil hne, Node.repeatsContent,
      Bool.and_eq_true, Bool.not_eq_true'] at h
    exact ⟨h.1, fun _ => h.2⟩

theorem spells_core (ho : o.IsPlain) (h : Spells m s n)
    (hcontent : (o.repeated m n).repeatsContent = true) :
    Spells m (o.core alternatives s) (o.repeated m n) := by
  have hvanishes := (content_of_repeated hcontent).2
  unfold core
  by_cases hq : o.quantifierText = []
  · rw [repeated_of_quantifierText hq, hq, List.append_nil, List.append_nil]
    split
    · split
      · exact h
      · exact h.plain
    · exact h
  · obtain ⟨q, hsome, htext, hne⟩ := exists_quantifier hq
    have hfits := ho.quantifier q hsome
    have hn := hvanishes hq
    have hempty : q.text.isEmpty = false := by simpa using hne
    rw [repeated_of_some hsome, htext, hempty]
    split
    · exact h.plain.repeated (h.isUnit_paren (p := .plain) trivial) hn hfits
    · next hcond =>
      have hunit : s.isUnit = true := by
        simp only [Bool.not_false, Bool.true_and, Bool.or_eq_true, Bool.not_eq_true', not_or,
          Bool.not_eq_false] at hcond
        exact hcond.2
      exact h.repeated hunit hn hfits

theorem hasOuterBar_core (h : Spells m s n) (hbar : s.hasOuterBar = true → alternatives = true)
    (hgroup : o.asksForGroup = false) : (o.core alternatives s).hasOuterBar = false := by
  have hq : o.quantifierText.hasOuterBar = false := by
    by_cases hq : o.quantifierText = []
    · rw [hq]
      rfl
    · obtain ⟨q, _, htext, _⟩ := exists_quantifier hq
      rw [htext, Quantifier.hasOuterBar_text]
  unfold core
  rw [hgroup, Bool.and_false]
  split
  · rw [if_neg (by decide), h.plain.hasOuterBar_append, hq, Bool.or_false]
    exact h.hasOuterBar_paren (p := .plain) trivial
  · next hcond =>
    have hs : s.hasOuterBar = false := by
      rw [Bool.eq_false_iff]
      intro hs
      simp [hbar hs] at hcond
    rw [h.hasOuterBar_append, hs, hq]
    rfl

theorem core_eq_nil (hempty : s = [] ↔ n = .empty) (halternatives : alternatives = true → s ≠ []) :
    o.core alternatives s = [] ↔ o.repeated m n = .empty := by
  by_cases hq : o.quantifierText = []
  · rw [repeated_of_quantifierText hq, ← hempty, core, hq]
    cases halt : alternatives with
    | false => simp
    | true =>
      have hs := halternatives halt
      by_cases hgroup : o.asksForGroup = true
      · simp [hgroup]
      · simp [hgroup, Grouping.wrap, hs]
  · obtain ⟨q, hsome, htext, hne⟩ := exists_quantifier hq
    rw [repeated_of_some hsome, Quantifier.node_of_text_ne_nil hne, core]
    simp only [htext]
    constructor
    · intro hcore
      split at hcore
      · simp [hne, Grouping.wrap] at hcore
      · simp [hne] at hcore
    · intro hnode
      cases hnode

end

end Options

namespace Grouping

variable {m : Modes} {s : Text} {n : Node}

theorem exists_paren {g : Grouping} (hg : ∀ name, g = .named name → IsGroupName name)
    (hne : g ≠ .none) : ∃ p : Paren, p.Proper ∧ (p = .capture → g = .capture) ∧
      (∀ t, g.wrap t = p.opening ++ t ++ [')']) ∧ ∀ n, g.node n = .paren p n := by
  cases g with
  | none => exact absurd rfl hne
  | capture => exact ⟨.capture, trivial, fun _ => rfl, fun _ => rfl, fun _ => rfl⟩
  | nonCapture =>
    exact ⟨.plain, trivial, fun h => absurd h (by simp), fun _ => rfl, fun _ => rfl⟩
  | named name =>
    exact ⟨.named name, hg name rfl, fun h => absurd h (by simp),
      fun t => by simp [wrap, Paren.opening], fun _ => rfl⟩

theorem spells_wrap {g : Grouping} (hg : ∀ name, g = .named name → IsGroupName name)
    (h : Spells m s n) : Spells m (g.wrap s) (g.node n) := by
  by_cases hne : g = .none
  · subst hne
    exact h
  · obtain ⟨p, hp, -, hwrap, hnode⟩ := exists_paren hg hne
    rw [hwrap, hnode]
    exact h.paren hp

theorem hasOuterBar_wrap {g : Grouping} (hg : ∀ name, g = .named name → IsGroupName name)
    (hne : g ≠ .none) (h : Spells m s n) : (g.wrap s).hasOuterBar = false := by
  obtain ⟨p, hp, -, hwrap, -⟩ := exists_paren hg hne
  rw [hwrap]
  exact h.hasOuterBar_paren hp

theorem wrap_ne_nil {g : Grouping} (hne : g ≠ .none) (s : Text) (n : Node) :
    g.wrap s ≠ [] ∧ g.node n ≠ .empty := by
  cases g with
  | none => exact absurd rfl hne
  | _ => simp [wrap, node]

end Grouping

namespace Options

theorem name_of_grouping {o : Options} {name : Text} (h : o.grouping = .named name) :
    o.name = some name := by
  unfold Options.grouping at h
  split at h
  next k hk => rw [hk, Grouping.named.inj h]
  next =>
    split at h
    · cases h
    · split at h <;> cases h

theorem IsPlain.grouping {o : Options} (h : o.IsPlain) :
    ∀ name, o.grouping = .named name → IsGroupName name := by
  intro name hname
  exact h.name name (name_of_grouping hname)

theorem asksForGroup_eq_false {o : Options} : o.asksForGroup = false ↔ o.grouping = .none := by
  simp [asksForGroup]

theorem before_of_lookaround {o : Options} {p : Paren} (h : o.lookaround? = some p) :
    o.before = some p.opening ∧ p.Proper := by
  unfold lookaround? at h
  split at h <;> cases h <;> exact ⟨by assumption, trivial⟩

theorem lookaround_of_before {o : Options} (h : o.before ∈ [none, some ['^'], some ['\\', 'A']]) :
    o.lookaround? = none := by
  simp only [List.mem_cons, List.not_mem_nil, or_false] at h
  rcases h with h | h | h <;> simp [lookaround?, h]

variable {m : Modes}

structure IsBeside (m : Modes) (t : Option Text) (n : Node) : Prop where
  spells : Spells m (t.getD []) n
  bar : (t.getD []).hasOuterBar = false
  empty : t.getD [] = [] ↔ n = .empty
  absent : t = none ↔ n = .empty

theorem isBeside_none : IsBeside m none .empty := ⟨.nil, rfl, by simp, by simp⟩

theorem isBeside_anchor {x : Sign} {a : Anchor} (hx : x.Proper) (hbar : x.text.hasOuterBar = false)
    (hnode : x.node m = .anchor a) : IsBeside m (some x.text) (.anchor a) where
  spells := hnode ▸ .sign hx
  bar := hbar
  empty := by simp [x.text_ne_nil]
  absent := by simp

theorem isBeside_before {t : Option Text} (h : t ∈ [none, some ['^'], some ['\\', 'A']]) :
    IsBeside m t (beforeNode m t) := by
  simp only [List.mem_cons, List.not_mem_nil, or_false] at h
  rcases h with rfl | rfl | rfl
  · exact isBeside_none
  · exact isBeside_anchor (x := .bare '^') (.inr (by decide)) rfl rfl
  · exact isBeside_anchor (x := .escape 'A') (.inr (.inr (by decide))) rfl rfl

theorem isBeside_after {t : Option Text} (h : t ∈ [none, some ['$'], some ['\\', 'z']]) :
    IsBeside m t (afterNode m t) := by
  simp only [List.mem_cons, List.not_mem_nil, or_false] at h
  rcases h with rfl | rfl | rfl
  · exact isBeside_none
  · exact isBeside_anchor (x := .bare '$') (.inr (by decide)) rfl rfl
  · exact isBeside_anchor (x := .escape 'z') (.inr (.inr (by decide))) rfl rfl

theorem spells_between {before after : Option Text} {b a : Node} {s : Text} {n : Node}
    (hb : IsBeside m before b) (ha : IsBeside m after a) (h : Spells m s n)
    (hbar : before = none ∧ after = none ∨ s.hasOuterBar = false) :
    Spells m (before.getD [] ++ s ++ after.getD []) (b.append (n.append a)) := by
  rcases hbar with ⟨rfl, rfl⟩ | hs
  · rw [hb.absent.mp rfl, ha.absent.mp rfl]
    have hn : Node.Alike n (Node.append .empty (n.append .empty)) :=
      (Node.Alike.seqEmpty n).symm.trans
        ((Node.append_alike n .empty).symm.trans (.refl _))
    simpa using h.alike hn
  · have hfirst := hb.spells.append h hb.bar hs
    have hfirstbar : (before.getD [] ++ s).hasOuterBar = false := by
      rw [hb.spells.hasOuterBar_append, hb.bar, hs]
      rfl
    refine (hfirst.append ha.spells hfirstbar ha.bar).alike ?_
    have hright := (Node.append_alike n a).symm
    exact (Node.Alike.seqAssoc b n a).trans (((Node.Alike.refl b).seq hright).trans
      (Node.append_alike b _).symm)

variable {o : Options} {alternatives : Bool} {s : Text} {n : Node}

structure IsDressed (m : Modes) (o : Options) (alternatives : Bool) (s : Text) (n : Node) :
    Prop where
  plain : o.IsPlain
  spells : Spells m s n
  content : (o.repeated m n).repeatsContent = true

theorem spells_grouped (h : IsDressed m o alternatives s n) :
    Spells m (o.grouping.wrap (o.core alternatives s)) (o.grouping.node (o.repeated m n)) :=
  Grouping.spells_wrap h.plain.grouping (spells_core h.plain h.spells h.content)

/-- Bars show only where neither a group is asked for nor one is around the alternatives. -/
theorem hasOuterBar_wrap_core {k : Node} (ho : o.IsPlain) (h : Spells m s n)
    (hcore : Spells m (o.core alternatives s) k)
    (hbar : o.asksForGroup = false → s.hasOuterBar = true → alternatives = true) :
    (o.grouping.wrap (o.core alternatives s)).hasOuterBar = false := by
  by_cases hgroup : o.grouping = .none
  · have hask := asksForGroup_eq_false.mpr hgroup
    rw [hgroup]
    exact hasOuterBar_core h (hbar hask) hask
  · exact Grouping.hasOuterBar_wrap ho.grouping hgroup hcore

theorem hasOuterBar_grouped (h : IsDressed m o alternatives s n)
    (hbar : s.hasOuterBar = true → alternatives = true) :
    (o.grouping.wrap (o.core alternatives s)).hasOuterBar = false :=
  hasOuterBar_wrap_core h.plain h.spells (spells_core h.plain h.spells h.content) fun _ => hbar

/-- The text of a dressed body is that of the dressed tree. Alternatives may show only where nothing
stands beside them. -/
theorem spells_dress (h : IsDressed m o alternatives s n)
    (hbar : s.hasOuterBar = true → alternatives = true ∨ o.isUndecorated = true) :
    Spells m (o.dress alternatives s) (o.node m n) := by
  have hgrouped := spells_grouped h
  rw [dress_eq, surround, node]
  rcases h.plain.decoration with ⟨hb, ha⟩ | ⟨hlook, hafter⟩
  · rw [lookaround_of_before hb]
    refine spells_between (isBeside_before hb) (isBeside_after ha) hgrouped ?_
    by_cases hplain : o.isUndecorated = true
    · simp only [isUndecorated, Bool.and_eq_true, Option.isNone_iff_eq_none] at hplain
      exact .inl hplain
    · exact .inr (hasOuterBar_grouped h fun hs => (hbar hs).resolve_right hplain)
  · obtain ⟨p, hp⟩ := Option.isSome_iff_exists.mp hlook
    obtain ⟨hbefore, hproper⟩ := before_of_lookaround hp
    rw [hp, hbefore, hafter]
    exact hgrouped.paren hproper

theorem hasOuterBar_surround (ho : o.IsPlain) (h : Spells m s n) (hno : s.hasOuterBar = false) :
    (o.surround s).hasOuterBar = false := by
  rw [surround]
  rcases ho.decoration with ⟨hb, ha⟩ | ⟨hlook, hafter⟩
  · have hbefore := isBeside_before (m := m) hb
    have hafter := isBeside_after (m := m) ha
    rw [List.append_assoc, hbefore.spells.hasOuterBar_append, hbefore.bar,
      h.hasOuterBar_append, hno, hafter.bar]
    rfl
  · obtain ⟨p, hp⟩ := Option.isSome_iff_exists.mp hlook
    obtain ⟨hbefore, hproper⟩ := before_of_lookaround hp
    rw [hbefore, hafter]
    exact h.hasOuterBar_paren hproper

theorem hasOuterBar_dress (h : IsDressed m o alternatives s n)
    (hbar : s.hasOuterBar = true → alternatives = true) :
    (o.dress alternatives s).hasOuterBar = false := by
  rw [dress_eq]
  exact hasOuterBar_surround h.plain (spells_grouped h) (hasOuterBar_grouped h hbar)

/-- Around a group that is asked for there is always text, around any other body if it has some. -/
theorem dress_eq_nil (ho : o.IsPlain)
    (hempty : o.asksForGroup = true ∨
      (s = [] ↔ n = .empty) ∧ (alternatives = true → s ≠ [])) :
    o.dress alternatives s = [] ↔ o.node m n = .empty := by
  have hgrouped : o.grouping.wrap (o.core alternatives s) = [] ↔
      o.grouping.node (o.repeated m n) = .empty := by
    by_cases hgroup : o.grouping = .none
    · rcases hempty with hask | ⟨hs, halternatives⟩
      · exact absurd hgroup (by simpa [asksForGroup] using hask)
      · rw [hgroup]
        exact core_eq_nil hs halternatives
    · have hne := Grouping.wrap_ne_nil hgroup (o.core alternatives s) (o.repeated m n)
      simp [hne]
  rw [dress_eq, surround, node]
  rcases ho.decoration with ⟨hb, ha⟩ | ⟨hlook, hafter⟩
  · have hbefore := isBeside_before (m := m) hb
    have hafter := isBeside_after (m := m) ha
    rw [lookaround_of_before hb]
    simp [Node.append_eq_empty, hgrouped, hbefore.empty, hafter.empty]
  · obtain ⟨p, hp⟩ := Option.isSome_iff_exists.mp hlook
    rw [hp, hafter]
    simp

theorem repeatsContent_grouping (g : Grouping) (n : Node) :
    (g.node n).repeatsContent = n.repeatsContent := by
  cases g <;> rfl

theorem content_of_node (h : (o.node m n).repeatsContent = true) :
    (o.repeated m n).repeatsContent = true := by
  unfold node at h
  rw [← repeatsContent_grouping o.grouping]
  split at h
  · exact h
  · simp only [Node.isHereditary_repeatsContent.append, Bool.and_eq_true] at h
    exact h.2.1

/-- What is known of the text of a clause. Where it cannot stand `bare`, its alternatives do not
show. -/
structure IsWritten (m : Modes) (bare : Bool) (t : Text) (n : Node) : Prop where
  spells : Spells m t n
  bar : bare = false → t.hasOuterBar = false
  empty : t = [] ↔ n = .empty

theorem IsWritten.append {t : Text} {a b : Node} (hs : IsWritten m false s a)
    (ht : IsWritten m false t b) : IsWritten m false (s ++ t) (a.append b) := by
  have hsbar := hs.bar rfl
  have htbar := ht.bar rfl
  refine ⟨(hs.spells.append ht.spells hsbar htbar).alike (Node.append_alike a b).symm,
    fun _ => ?_, ?_⟩
  · rw [hs.spells.hasOuterBar_append, hsbar, htbar]
    rfl
  · rw [List.append_eq_nil_iff, Node.append_eq_empty, hs.empty, ht.empty]

theorem isWritten_nested (ho : o.IsPlain) {bare : Bool} (h : Spells m s n)
    (hempty : s = [] ↔ n = .empty) (hcontent : (o.node m n).repeatsContent = true) :
    IsWritten m bare (o.nestedText bare s) (o.node m n) := by
  have hrepeated := content_of_node hcontent
  unfold nestedText
  by_cases hask : o.asksForGroup = true
  · rw [if_pos hask]
    have hdressed : IsDressed m o s.stripGroup.hasOuterBar s.stripGroup n :=
      ⟨ho, h.strip, hrepeated⟩
    exact ⟨spells_dress hdressed .inl, fun _ => hasOuterBar_dress hdressed id,
      dress_eq_nil ho (.inl hask)⟩
  · rw [if_neg hask]
    have hdressed : IsDressed m o (s.hasOuterBar && !(bare && o.isUndecorated)) s n :=
      ⟨ho, h, hrepeated⟩
    refine ⟨spells_dress hdressed fun hs => ?_,
      fun hbare => hasOuterBar_dress hdressed fun hs => ?_,
      dress_eq_nil ho (.inr ⟨hempty, fun halt hnil => ?_⟩)⟩
    · cases hplain : o.isUndecorated <;> simp [hs]
    · simp [hs, hbare]
    · rw [hnil] at halt
      cases halt

theorem map_getD_eq_repeated (o : Options) (m : Modes) (n : Node) :
    (o.quantifier.map fun q => q.node m n).getD n = o.repeated m n := by
  unfold repeated
  cases o.quantifier <;> rfl

theorem IsWritten.repeatText {bare : Bool} (h : IsWritten m bare s n) {r : Options} (hr : r.IsPlain)
    (hcontent : (if n = .empty then n else r.repeated m n).repeatsContent = true) :
    IsWritten m bare (Clause.repeatText s r.quantifierText)
      (if n = .empty then n else r.repeated m n) := by
  by_cases hn : n = .empty
  · have hs := h.empty.mpr hn
    rw [if_pos hn]
    simpa [Clause.repeatText, hs] using h
  · have hs : s ≠ [] := fun hs => hn (h.empty.mp hs)
    have hsome : s.isEmpty = false := by simpa using hs
    rw [if_neg hn] at hcontent ⊢
    unfold Clause.repeatText
    rw [hsome, if_neg (by decide)]
    by_cases hq : r.quantifierText = []
    · rw [repeated_of_quantifierText hq, hq]
      simpa using h
    · obtain ⟨q, hquantifier, htext, hne⟩ := exists_quantifier hq
      have hvanishes := (content_of_repeated hcontent).2 hq
      have hfits := hr.quantifier q hquantifier
      have hqempty : q.text.isEmpty = false := by simpa using hne
      have hnode : q.node m n ≠ .empty := by
        rw [Quantifier.node_of_text_ne_nil hne]
        exact Node.noConfusion
      rw [repeated_of_some hquantifier, htext, hqempty, Bool.false_or]
      split
      next hunit =>
        refine ⟨h.spells.repeated hunit hvanishes hfits, fun _ => ?_, by simp [hs, hnode]⟩
        rw [h.spells.hasOuterBar_append, h.spells.hasOuterBar_of_isUnit hunit,
          Quantifier.hasOuterBar_text]
        rfl
      next =>
        have hunit := h.spells.isUnit_paren (p := .plain) trivial
        have hbar := h.spells.hasOuterBar_paren (p := .plain) trivial
        refine ⟨h.spells.plain.repeated hunit hvanishes hfits, fun _ => ?_,
          by simp [Grouping.wrap, hnode]⟩
        rw [h.spells.plain.hasOuterBar_append, Quantifier.hasOuterBar_text, Bool.or_false]
        exact hbar

end Options
end PatternBuilder
