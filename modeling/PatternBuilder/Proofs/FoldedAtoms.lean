import PatternBuilder.Proofs.GatheredAtoms

/-!
# Atoms in lowercase

Lowercase keeps the characters with a meaning of their own, and brings none in. So it can be taken
of text that is already escaped, and folded atoms are as sound as gathered ones.
-/

namespace PatternBuilder

namespace Unicode

/-- A character from beyond ASCII never becomes a special one. -/
theorem lowerRuns_targets :
    ∀ r ∈ lowerRuns, 0x80 ≤ r.target ∨ (r.target = 0x6B ∧ r.first = r.last) := by
  decide +kernel

theorem special_lt : ∀ c ∈ Escape.special, c.toNat < 0x80 ∧ c.toNat ≠ 0 ∧ c.toNat ≠ 0x6B := by
  decide

theorem toNat_ofNat (n : Nat) : (Char.ofNat n).toNat = n ∨ (Char.ofNat n).toNat = 0 := by
  by_cases h : n.isValidChar
  · exact .inl (by rw [Char.ofNat, dif_pos h]; rfl)
  · exact .inr (by simp [Char.ofNat, h])

theorem mapThrough_lowerRuns (c : Char) :
    mapThrough lowerRuns c = c ∨ mapThrough lowerRuns c ∉ Escape.special := by
  unfold mapThrough
  split
  next r hr =>
    have hmem := List.mem_of_find?_eq_some hr
    have hcontains := List.find?_some hr
    simp only [Run.contains, Bool.and_eq_true, decide_eq_true_eq] at hcontains
    right
    intro hspecial
    obtain ⟨hlow, hzero, hk⟩ := special_lt _ hspecial
    have himage : (Char.ofNat (r.image c.toNat)).toNat = r.target + (c.toNat - r.first) :=
      (toNat_ofNat _).resolve_right hzero
    have htarget := lowerRuns_targets r hmem
    omega
  next => exact .inl rfl

theorem toLower_ascii : ∀ n, n < 0x80 → (Char.ofNat n ∈ Escape.special →
      (Char.ofNat n).toLower = Char.ofNat n) ∧
    (Char.ofNat n ∉ Escape.special → (Char.ofNat n).toLower ∉ Escape.special) := by
  decide +kernel

theorem toLower_special {c : Char} (h : c ∈ Escape.special) : toLower c = c := by
  have hascii := (special_lt c h).1
  have hlower := (toLower_ascii c.toNat hascii).1
  rw [Char.ofNat_toNat] at hlower
  rw [toLower, isAscii, if_pos (decide_eq_true hascii)]
  exact hlower h

theorem toLower_not_special {c : Char} (h : c ∉ Escape.special) : toLower c ∉ Escape.special := by
  unfold toLower
  split
  next hascii =>
    have hlower := (toLower_ascii c.toNat (of_decide_eq_true hascii)).2
    rw [Char.ofNat_toNat] at hlower
    exact hlower h
  next =>
    rcases mapThrough_lowerRuns c with hsame | hnot
    · rwa [hsame]
    · exact hnot

theorem lowerBetween_special {c : Char} (h : c ∈ Escape.special) (before after : Text) :
    lowerBetween before c after = [c] := by
  have hne : c ≠ 'Σ' ∧ c ≠ 'İ' := by
    constructor <;>
    · rintro rfl
      revert h
      decide
  rw [lowerBetween, if_neg hne.1, lowerAll, if_neg hne.2, toLower_special h]

theorem lowerBetween_not_special {c : Char} (h : c ∉ Escape.special) (before after : Text) :
    lowerBetween before c after ≠ [] ∧ ∀ d ∈ lowerBetween before c after, d ∉ Escape.special := by
  have hsigma : ∀ d ∈ ['ς', 'σ', 'i', '\u0307'], d ∉ Escape.special := by decide
  unfold lowerBetween lowerAll
  split
  · split <;> simp [hsigma]
  · split
    · simp [hsigma]
    · simp [toLower_not_special h]

end Unicode

namespace Escape

theorem general_append (s t : Text) : general (s ++ t) = general s ++ general t :=
  escapeAll_append special s t

theorem general_of_not_special {t : Text} (h : ∀ c ∈ t, c ∉ special) : general t = t := by
  induction t with
  | nil => rfl
  | cons c t ih =>
    rw [general_cons_plain (h c List.mem_cons_self), ih fun d hd => h d (List.mem_cons_of_mem c hd)]

theorem plainCount_append (s t : Text) : (s ++ t).plainCount = s.plainCount + t.plainCount := by
  simp [Text.plainCount]

theorem plainCount_cons (c : Char) (t : Text) :
    Text.plainCount (c :: t) = Text.plainCount [c] + t.plainCount :=
  plainCount_append [c] t

/-- The lowercase of escaped text is escaped text, of no fewer characters. -/
theorem lowerFrom_general (before s : Text) :
    ∃ t, Unicode.lowerFrom before (general s) = general t ∧ s.plainCount ≤ t.plainCount ∧
      (s = [] → t = []) := by
  induction s generalizing before with
  | nil => exact ⟨[], rfl, Nat.le_refl _, fun _ => rfl⟩
  | cons c s ih =>
    by_cases hc : c ∈ special
    · have hbackslash : '\\' ∈ special := by decide
      obtain ⟨t, htext, hcount, _⟩ := ih (c :: '\\' :: before)
      refine ⟨c :: t, ?_, ?_, fun he => by cases he⟩
      · rw [general_cons_special hc, general_cons_special hc, Unicode.lowerFrom, Unicode.lowerFrom,
          Unicode.lowerBetween_special hbackslash, Unicode.lowerBetween_special hc, htext]
        rfl
      · rw [plainCount_cons c s, plainCount_cons c t]
        omega
    · obtain ⟨t, htext, hcount, _⟩ := ih (c :: before)
      obtain ⟨hne, hplain⟩ := Unicode.lowerBetween_not_special hc before (general s)
      refine ⟨Unicode.lowerBetween before c (general s) ++ t, ?_, ?_, fun he => by cases he⟩
      · rw [general_cons_plain hc, Unicode.lowerFrom, htext, general_append,
          general_of_not_special hplain]
      · have hlower : '\\' ∉ Unicode.lowerBetween before c (general s) := fun hb =>
          hplain _ hb (by decide)
        have hpos := List.length_pos_of_ne_nil hne
        have hone : Text.plainCount [c] ≤ 1 := List.length_filter_le _ [c]
        rw [plainCount_append, Text.plainCount_of_no_backslash hlower, plainCount_cons]
        omega

end Escape

namespace Atom

variable {as : List Atom}

theorem isSoundLoose_of_folded {a b : Atom} (ha : a.IsSound) (hb : b ∈ foldedLoose? a) :
    b.IsSoundLoose := by
  cases a with
  | range r => cases hb
  | char c =>
    cases hb
    exact ⟨trivial, rfl⟩
  | literal t =>
    cases hb
    obtain ⟨s, rfl, hs⟩ := ha
    obtain ⟨t, htext, hcount, hnil⟩ := Escape.lowerFrom_general [] s
    exact ⟨⟨t, htext, hs.imp hnil fun htwo => Nat.le_trans htwo hcount⟩, rfl⟩
  | token t =>
    cases hb
    exact ⟨ha, rfl⟩

theorem AreSound.foldCase (h : AreSound as) : AreSound (foldCase as) := by
  refine areSound_combine (fun b hb => ?_) fun _ => CharRange.isForward_of_mem_canonical
  obtain ⟨a, ha, hfold⟩ := List.mem_filterMap.mp hb
  exact isSoundLoose_of_folded (h.sound a ha) hfold

theorem AreSound.foldWhen (h : AreSound as) (ignoreCase : Bool) :
    AreSound (foldWhen ignoreCase as) := by
  unfold Atom.foldWhen
  split
  · exact h.foldCase
  · exact h

end Atom

theorem Options.AreFor.foldWhen {o : Options} {as : List Atom} (ho : o.AreFor as)
    (h : Atom.AreSound as) (ignoreCase : Bool) : o.AreFor (Atom.foldWhen ignoreCase as) := by
  unfold Atom.foldWhen
  split
  · intro hlong
    obtain ⟨a, ha, hfits⟩ := ho hlong
    obtain ⟨s, rfl, hs⟩ := Atom.eq_literal_of_not_fitsClass (h.sound a ha) hfits
    obtain ⟨t, htext, hcount, _⟩ := Escape.lowerFrom_general [] s
    refine ⟨.literal (Escape.general t), ?_, Atom.fitsClass_general (Nat.le_trans hs hcount)⟩
    refine Atom.mem_combine.mpr (.inl ⟨List.mem_filterMap.mpr ⟨_, ha, ?_⟩, rfl⟩)
    exact congrArg (some ∘ Atom.literal) htext
  · exact ho

end PatternBuilder
