import PatternBuilder.Proofs.CaseSets
import PatternBuilder.Proofs.Contributions
import PatternBuilder.Proofs.ValueTexts

/-!
# Case variants

Texts that differ in the case of ASCII letters alone have the same lowercase, and so the atoms that
they are gathered into are folded into the same atoms. What is decided about the atoms before they
are folded may differ.
-/

namespace PatternBuilder

namespace Unicode

theorem toLower_capital : ∀ k, k < 26 →
    (Char.ofNat (k + 65)).toLower = Char.ofNat (k + 97) := by
  decide +kernel

theorem congr_toLower {α : Type} {f : Char → α}
    (h : ∀ k, k < 26 → f (Char.ofNat (k + 97)) = f (Char.ofNat (k + 65))) (c : Char) :
    f c.toLower = f c := by
  by_cases hupper : 65 ≤ c.toNat ∧ c.toNat ≤ 90
  · have hc : Char.ofNat (c.toNat - 65 + 65) = c := by
      rw [Nat.sub_add_cancel hupper.1, Char.ofNat_toNat]
    have hlower := toLower_capital (c.toNat - 65) (by omega)
    have hletter := h (c.toNat - 65) (by omega)
    rw [hc] at hlower hletter
    rw [hlower, hletter]
  · have hsame : c.toLower = c := by
      unfold Char.toLower
      split
      next hcapital => exact absurd hcapital hupper
      next => rfl
    rw [hsame]

/-- No ASCII letter is case-ignorable. -/
theorem caseIgnorableRuns_letters : ∀ r ∈ caseIgnorableRuns,
    r.last < 65 ∨ 90 < r.first ∧ r.last < 97 ∨ 122 < r.first := by
  decide +kernel

theorem isCaseIgnorable_letter {n : Nat} (h : 65 ≤ n ∧ n ≤ 90 ∨ 97 ≤ n ∧ n ≤ 122) :
    isCaseIgnorable (Char.ofNat n) = false := by
  have hn : (Char.ofNat n).toNat = n := CharSet.toNat_ofNat_ascii (by omega)
  rw [isCaseIgnorable, inRuns, List.any_eq_false]
  intro r hr hcontains
  have hplace := caseIgnorableRuns_letters r hr
  simp only [hn, Run.contains, Bool.and_eq_true, decide_eq_true_eq] at hcontains
  omega

theorem isCased_toLower (c : Char) : isCased c.toLower = isCased c :=
  congr_toLower (by decide +kernel) c

theorem isCaseIgnorable_toLower (c : Char) : isCaseIgnorable c.toLower = isCaseIgnorable c := by
  apply congr_toLower
  intro k hk
  rw [isCaseIgnorable_letter (by omega), isCaseIgnorable_letter (by omega)]

theorem lowerAll_toLower (c : Char) : lowerAll c.toLower = lowerAll c :=
  congr_toLower (by decide +kernel) c

theorem lowerFirst_toLower (c : Char) : lowerFirst c.toLower = lowerFirst c :=
  congr_toLower (by decide +kernel) c

theorem isSigma_toLower (c : Char) : decide (c.toLower = 'Σ') = decide (c = 'Σ') :=
  congr_toLower (f := fun c => decide (c = 'Σ')) (by decide +kernel) c

theorem casedNext_map_toLower (t : Text) : casedNext (t.map Char.toLower) = casedNext t := by
  have hignored : isCaseIgnorable ∘ Char.toLower = isCaseIgnorable :=
    funext isCaseIgnorable_toLower
  unfold casedNext
  rw [List.dropWhile_map, hignored]
  cases t.dropWhile isCaseIgnorable with
  | nil => rfl
  | cons c t => exact isCased_toLower c

theorem lowerBetween_toLower (before : Text) (c : Char) (after : Text) :
    lowerBetween (before.map Char.toLower) c.toLower (after.map Char.toLower) =
      lowerBetween before c after := by
  have hsigma : c.toLower = 'Σ' ↔ c = 'Σ' := decide_eq_decide.mp (isSigma_toLower c)
  unfold lowerBetween
  simp only [hsigma, casedNext_map_toLower, lowerAll_toLower]

theorem lowerFrom_map_toLower (before t : Text) :
    lowerFrom (before.map Char.toLower) (t.map Char.toLower) = lowerFrom before t := by
  induction t generalizing before with
  | nil => rfl
  | cons c t ih =>
    rw [List.map_cons, lowerFrom, lowerFrom, lowerBetween_toLower, ← List.map_cons, ih]

theorem lowerText_map_toLower (t : Text) : lowerText (t.map Char.toLower) = lowerText t :=
  lowerFrom_map_toLower [] t

end Unicode

theorem Escape.map_toLower_escapeAll {chars : List Char}
    (hchars : ∀ k, k < 26 →
      decide (Char.ofNat (k + 97) ∈ chars) = decide (Char.ofNat (k + 65) ∈ chars))
    (hfixed : ∀ c ∈ chars, c.toLower = c) (t : Text) :
    (escapeAll chars t).map Char.toLower = escapeAll chars (t.map Char.toLower) := by
  induction t with
  | nil => rfl
  | cons c t ih =>
    have hmem : c.toLower ∈ chars ↔ c ∈ chars :=
      decide_eq_decide.mp (Unicode.congr_toLower (f := fun c => decide (c ∈ chars)) hchars c)
    have hchar : (escapeChar chars c).map Char.toLower = escapeChar chars c.toLower := by
      unfold escapeChar
      by_cases hc : c ∈ chars
      · rw [if_pos hc, if_pos (hmem.mpr hc), List.map_cons, List.map_singleton, hfixed c hc]
        rfl
      · rw [if_neg hc, if_neg (mt hmem.mp hc), List.map_singleton]
    rw [escapeAll_cons, List.map_append, hchar, ih, List.map_cons, escapeAll_cons]

theorem Text.plainCount_map_toLower (t : Text) :
    Text.plainCount (t.map Char.toLower) = t.plainCount := by
  have hsame : (fun c : Char => c != '\\') ∘ Char.toLower = fun c => c != '\\' :=
    funext (Unicode.congr_toLower (f := fun c => c != '\\') (by decide +kernel))
  rw [plainCount, List.filter_map, hsame, List.length_map, plainCount]

/-- The texts agree, place by place, but for the case of ASCII letters. -/
def AreCaseVariants (ss ts : List Text) : Prop :=
  ss.map (List.map Char.toLower) = ts.map (List.map Char.toLower)

instance (ss ts : List Text) : Decidable (AreCaseVariants ss ts) :=
  inferInstanceAs (Decidable (_ = _))

/-- There are two different texts of several characters, backslashes left out. -/
def AreSeveralLong (ss : List Text) : Prop :=
  ∃ s ∈ ss, ∃ t ∈ ss, s ≠ t ∧ 2 ≤ s.plainCount ∧ 2 ≤ t.plainCount

instance (ss : List Text) : Decidable (AreSeveralLong ss) :=
  inferInstanceAs (Decidable (∃ s ∈ ss, ∃ t ∈ ss, _))

variable {ss ts : List Text}

namespace Atom

theorem combine_nil (loose : List Atom) : combine loose [] = loose.eraseDups := by
  have hall : (loose.filter fun a => !a.isCharIn []) = loose := by
    rw [List.filter_eq_self]
    intro a _
    cases a <;> rfl
  rw [combine, hall]
  exact List.append_nil _

/-- A text fits no class if it has several characters that are no backslashes. -/
theorem fitsClass_of_ofText {t : Text} {a : Atom} (h : ofText? t = some a) :
    a.fitsClass = false ↔ 2 ≤ t.plainCount := by
  rcases ofText_cases t with ⟨-, he⟩ | ⟨c, rfl, he⟩ | ⟨-, chars, -, he⟩
  · rw [he] at h
    cases h
  · rw [he] at h
    cases h
    have hone : Text.plainCount [c] ≤ 1 := List.length_filter_le _ [c]
    simp only [fitsClass, Bool.true_eq_false, false_iff]
    omega
  · rw [he] at h
    cases h
    have hcount := Escape.plainCount_escapeAll chars t
    unfold Text.plainCount at hcount ⊢
    rw [fitsClass, atMostOnePlain, hcount, decide_eq_false_iff_not]
    omega

theorem bind_foldedLoose_map_toLower (t : Text) :
    (ofText? (t.map Char.toLower)).bind foldedLoose? = (ofText? t).bind foldedLoose? := by
  match t with
  | [] => rfl
  | [c] => exact congrArg (fun d => some (Atom.char d)) (Unicode.lowerFirst_toLower c)
  | c :: d :: t =>
    have hlower : ∀ chars : List Char,
        (∀ k, k < 26 →
          decide (Char.ofNat (k + 97) ∈ chars) = decide (Char.ofNat (k + 65) ∈ chars)) →
        (∀ c ∈ chars, c.toLower = c) → ∀ t : Text,
        Unicode.lowerText (Escape.escapeAll chars (t.map Char.toLower)) =
          Unicode.lowerText (Escape.escapeAll chars t) := by
      intro chars hchars hfixed t
      rw [← Escape.map_toLower_escapeAll hchars hfixed, Unicode.lowerText_map_toLower]
    have hone : atMostOnePlain ((c :: d :: t).map Char.toLower) =
        atMostOnePlain (c :: d :: t) := by
      have hcount := Text.plainCount_map_toLower (c :: d :: t)
      unfold Text.plainCount at hcount
      rw [atMostOnePlain, hcount, atMostOnePlain]
    rw [ofText?_of_length (by simp), ofText?_of_length (by simp), hone, Option.bind_some,
      Option.bind_some, foldedLoose?, foldedLoose?]
    split
    · rw [Escape.inClass, hlower _ (by decide +kernel) (by decide), Escape.inClass]
    · rw [Escape.general, hlower _ (by decide +kernel) (by decide), Escape.general]

theorem filterMap_folded_congr (h : AreCaseVariants ss ts) :
    (ss.filterMap ofText?).filterMap foldedLoose? =
      (ts.filterMap ofText?).filterMap foldedLoose? := by
  have hlowered : ∀ us : List Text, (us.filterMap ofText?).filterMap foldedLoose? =
      (us.map (List.map Char.toLower)).filterMap fun t => (ofText? t).bind foldedLoose? := by
    intro us
    rw [List.filterMap_filterMap, List.filterMap_map]
    exact congrArg (List.filterMap · us) (funext fun t => (bind_foldedLoose_map_toLower t).symm)
  rw [hlowered, h, ← hlowered]

end Atom

namespace Catalog

theorem gather_ofTexts (catalog : Catalog) (ss : List Text) :
    catalog.gather (.ofTexts ss) = ⟨(ss.filterMap Atom.ofText?).eraseDups, false⟩ := by
  have hleaves : (Value.ofTexts ss).leaves = ss.map .text := by
    simp only [Value.ofTexts, Value.ofText, Value.leaves_list, List.flatMap_map,
      Value.leaves_leaf]
    exact List.map_eq_flatMap.symm
  have hpresets : catalog.presets (ss.map .text) = [] := by
    have hnone : (ss.map Leaf.text).filterMap (Leaf.preset? catalog) = [] := by
      simp [List.filterMap_eq_nil_iff, Leaf.preset?]
    rw [presets, hnone]
    rfl
  have hloose : catalog.looseAtoms (ss.map .text) = ss.filterMap Atom.ofText? := by
    rw [looseAtoms, hpresets, List.filterMap_map]
    exact List.append_nil _
  have hranges : catalog.ranges (ss.map .text) = [] := by
    have hnone : (ss.map Leaf.text).filterMap Leaf.range? = [] := by
      simp [List.filterMap_eq_nil_iff, Leaf.range?]
    rw [ranges, hpresets, hnone]
    rfl
  rw [gather, hleaves, gatherLeaves, hloose, hranges, hpresets]
  exact congrArg (Gathered.mk · false) (Atom.combine_nil _)

theorem foldCase_gather_congr (catalog : Catalog) (h : AreCaseVariants ss ts) :
    Atom.foldCase (catalog.gather (.ofTexts ss)).atoms =
      Atom.foldCase (catalog.gather (.ofTexts ts)).atoms := by
  have hfolded : ∀ us : List Text, Atom.foldCase (catalog.gather (.ofTexts us)).atoms =
      ((us.filterMap Atom.ofText?).filterMap Atom.foldedLoose?).eraseDups := by
    intro us
    have hranges : (us.filterMap Atom.ofText?).eraseDups.filterMap Atom.foldedRange? = [] := by
      rw [List.filterMap_eq_nil_iff]
      intro a ha
      obtain ⟨t, -, ht⟩ := List.mem_filterMap.mp (List.mem_eraseDups.mp ha)
      have hloose := Atom.isLoose_of_ofText ht
      cases a with
      | range r => cases hloose
      | _ => rfl
    rw [gather_ofTexts, Atom.foldCase, hranges]
    exact (Atom.combine_nil _).trans (eraseDups_filterMap_eraseDups _ _)
  rw [hfolded, hfolded, Atom.filterMap_folded_congr h]

theorem longTexts_gather_iff (catalog : Catalog) (ss : List Text) (o : Options) :
    (Builder.gatheredOptions (catalog.gather (.ofTexts ss)) o).longTexts = true ↔
      AreSeveralLong ss := by
  have hlong : ∀ a, a ∈ (ss.filterMap Atom.ofText?).filter (fun a => !a.fitsClass) ↔
      ∃ s ∈ ss, Atom.ofText? s = some a ∧ 2 ≤ s.plainCount := by
    intro a
    simp only [List.mem_filter, List.mem_filterMap, Bool.not_eq_true']
    constructor
    · rintro ⟨⟨s, hs, ha⟩, hfits⟩
      exact ⟨s, hs, ha, (Atom.fitsClass_of_ofText ha).mp hfits⟩
    · rintro ⟨s, hs, ha, hcount⟩
      exact ⟨⟨s, hs, ha⟩, (Atom.fitsClass_of_ofText ha).mpr hcount⟩
  rw [Builder.gatheredOptions, gather_ofTexts, decide_eq_true_eq, filter_eraseDups,
    one_lt_length_eraseDups]
  constructor
  · rintro ⟨a, ha, b, hb, hne⟩
    obtain ⟨s, hs, hsa, hcount⟩ := (hlong a).mp ha
    obtain ⟨t, ht, htb, hcount'⟩ := (hlong b).mp hb
    refine ⟨s, hs, t, ht, ?_, hcount, hcount'⟩
    rintro rfl
    exact hne (Option.some.inj (hsa.symm.trans htb))
  · rintro ⟨s, hs, t, ht, hne, hcount, hcount'⟩
    have hsome : ∀ u : Text, 2 ≤ u.plainCount → ∃ a, Atom.ofText? u = some a := by
      intro u hu
      apply Option.ne_none_iff_exists'.mp
      rw [Ne, Atom.ofText_eq_none_iff]
      rintro rfl
      cases hu
    obtain ⟨a, ha⟩ := hsome s hcount
    obtain ⟨b, hb⟩ := hsome t hcount'
    refine ⟨a, (hlong a).mpr ⟨s, hs, ha, hcount⟩, b, (hlong b).mpr ⟨t, ht, hb, hcount'⟩, ?_⟩
    rintro rfl
    exact hne (Atom.ofText_injective (ha.trans hb.symm))

end Catalog

end PatternBuilder
