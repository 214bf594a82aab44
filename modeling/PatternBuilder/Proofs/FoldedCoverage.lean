import PatternBuilder.Proofs.FoldedAtoms

/-!
# The characters that folded atoms cover

Folding takes a character and both bounds of a range to lowercase. Up to case an atom covers the
same characters before and after, unless its interior does not move with its bounds: a range
between two capital letters is shifted as a block, and `İ` is taken for `i`.
-/

namespace PatternBuilder

namespace Unicode

/-- No member of `r` is mapped to a member of `s`: the images lie outside of its bounds or, in
steps of two, between its members. -/
def MappedRun.misses (r s : MappedRun) : Bool :=
  decide (s.last < r.target) || decide (r.target + (r.last - r.first) < s.first) ||
    (s.step == 2 && (r.step == 2 || r.first == r.last) && r.target % 2 != s.first % 2)

theorem lowerRuns_misses : ∀ r ∈ lowerRuns, lowerRuns.all r.misses = true := by
  decide +kernel

theorem Run.contains_iff {r : Run} {n : Nat} :
    r.contains n = true ↔ r.first ≤ n ∧ n ≤ r.last ∧ (n - r.first) % r.step = 0 := by
  simp [Run.contains, and_assoc]

theorem MappedRun.not_contains_image {r s : MappedRun} (h : r.misses s = true) {n : Nat}
    (hn : r.contains n = true) : s.contains (r.image n) = false := by
  simp only [misses, Bool.or_eq_true, Bool.and_eq_true, decide_eq_true_eq, beq_iff_eq,
    bne_iff_ne] at h
  rw [Run.contains_iff] at hn
  rw [← Bool.not_eq_true, Run.contains_iff]
  rintro ⟨hfirst, hlast, hstep⟩
  unfold MappedRun.image at hfirst hlast hstep
  rcases h with (hbelow | habove) | ⟨⟨hs, hr | hr⟩, hparity⟩
  · omega
  · omega
  · rw [hs] at hstep
    rw [hr] at hn
    omega
  · rw [hs] at hstep
    omega

theorem toLower_toLower_ascii : ∀ n, n < 0x80 →
    (Char.ofNat n).toLower.toLower = (Char.ofNat n).toLower ∧
      (Char.ofNat n).toLower.toNat < 0x80 := by
  decide +kernel

theorem toLower_of_ascii {c : Char} (h : c.toNat < 0x80) : toLower c = c.toLower := by
  rw [toLower, isAscii, if_pos (decide_eq_true h)]

theorem toLower_of_not_ascii {c : Char} (h : ¬c.toNat < 0x80) :
    toLower c = mapThrough lowerRuns c := by
  rw [toLower, isAscii, if_neg (by simpa using h)]

theorem mapThrough_eq_self {runs : List MappedRun} {c : Char}
    (h : ∀ s ∈ runs, s.contains c.toNat = false) : mapThrough runs c = c := by
  have hnone : runs.find? (·.contains c.toNat) = none := by
    rw [List.find?_eq_none]
    intro s hs
    simp [h s hs]
  rw [mapThrough, hnone]

/-- A lowercase mapping leads to a character that has none of its own. -/
theorem toLower_toLower (c : Char) : toLower (toLower c) = toLower c := by
  by_cases hascii : c.toNat < 0x80
  · obtain ⟨htwice, hsmall⟩ := toLower_toLower_ascii c.toNat hascii
    rw [Char.ofNat_toNat] at htwice hsmall
    rw [toLower_of_ascii hascii, toLower_of_ascii hsmall, htwice]
  · rw [toLower_of_not_ascii hascii, mapThrough]
    split
    next r hfind =>
      have hr := List.mem_of_find?_eq_some hfind
      have hcontains := List.find?_some hfind
      have himage : r.image c.toNat = r.target + (c.toNat - r.first) := rfl
      rcases toNat_ofNat (r.image c.toNat) with hvalid | hzero
      · by_cases hsmall : (Char.ofNat (r.image c.toNat)).toNat < 0x80
        · -- the only image in ASCII is the `k` of the Kelvin sign
          have hk : Char.ofNat (r.image c.toNat) = 'k' := by
            have htarget := lowerRuns_targets r hr
            rw [Run.contains_iff] at hcontains
            have hsame : r.image c.toNat = 0x6B := by omega
            rw [hsame]
          rw [hk]
          decide
        · rw [toLower_of_not_ascii hsmall]
          refine mapThrough_eq_self fun s hs => ?_
          rw [hvalid]
          exact r.not_contains_image (List.all_eq_true.mp (lowerRuns_misses r hr) s hs) hcontains
      · have hnull : Char.ofNat (r.image c.toNat) = '\x00' := Char.toNat_inj.mp hzero
        rw [hnull]
        decide
    next =>
      rw [toLower_of_not_ascii hascii]
      unfold mapThrough
      split
      · simp_all
      · rfl

theorem lowerFirst_of_ne {c : Char} (h : c ≠ 'İ') : lowerFirst c = toLower c := if_neg h

end Unicode

namespace Atom

open Unicode

/-- The characters of an atom that is a character or a range. -/
def Covers : Atom → Char → Prop
  | .range r, c => r.contains c = true
  | .char d, c => c = d
  | .literal _, _ => False
  | .token _, _ => False

/-- One of the atoms covers a character of the same lowercase. -/
def CoverCase (as : List Atom) (c : Char) : Prop :=
  ∃ a ∈ as, ∃ d, a.Covers d ∧ toLower d = toLower c

variable {as bs : List Atom} {a : Atom} {c d : Char}

theorem coverCase_congr (h : toLower c = toLower d) : CoverCase as c ↔ CoverCase as d := by
  simp only [CoverCase, h]

theorem covers_combine {loose : List Atom} {rs : List CharRange} :
    (∃ a ∈ combine loose rs, a.Covers c) ↔ (∃ a ∈ loose, a.Covers c) ∨ CharRange.Covered rs c := by
  constructor
  · rintro ⟨a, ha, hc⟩
    rcases mem_combine.mp ha with ⟨ha, -⟩ | ⟨r, hr, rfl⟩
    · exact .inl ⟨a, ha, hc⟩
    · exact .inr ⟨r, hr, hc⟩
  · rintro (⟨a, ha, hc⟩ | ⟨r, hr, hc⟩)
    · cases hin : a.isCharIn rs with
      | false => exact ⟨a, mem_combine.mpr (.inl ⟨ha, hin⟩), hc⟩
      | true =>
        -- a character that is dropped lies in a range
        cases a with
        | char d =>
          obtain ⟨r, hr, hd⟩ := List.any_eq_true.mp hin
          rw [Covers] at hc
          exact ⟨.range r, mem_combine.mpr (.inr ⟨r, hr, rfl⟩), hc ▸ hd⟩
        | range r => cases hin
        | literal t => cases hin
        | token t => cases hin
    · exact ⟨.range r, mem_combine.mpr (.inr ⟨r, hr, rfl⟩), hc⟩

theorem covers_foldCase :
    (∃ b ∈ foldCase as, b.Covers c) ↔
      (∃ d, .char d ∈ as ∧ c = lowerFirst d) ∨
        ∃ r, .range r ∈ as ∧ r.foldCase.contains c = true := by
  rw [foldCase, covers_combine, CharRange.covered_canonical]
  refine or_congr ⟨?_, ?_⟩ ⟨?_, ?_⟩
  · rintro ⟨b, hb, hc⟩
    obtain ⟨a, ha, hfold⟩ := List.mem_filterMap.mp hb
    cases a with
    | char d =>
      cases hfold
      exact ⟨d, ha, hc⟩
    | range r => cases hfold
    | literal t =>
      cases hfold
      exact hc.elim
    | token t =>
      cases hfold
      exact hc.elim
  · rintro ⟨d, hd, hc⟩
    exact ⟨.char (lowerFirst d), List.mem_filterMap.mpr ⟨_, hd, rfl⟩, hc⟩
  · rintro ⟨s, hs, hc⟩
    obtain ⟨a, ha, hfold⟩ := List.mem_filterMap.mp hs
    cases a with
    | range r =>
      cases hfold
      exact ⟨r, ha, hc⟩
    | char d => cases hfold
    | literal t => cases hfold
    | token t => cases hfold
  · rintro ⟨r, hr, hc⟩
    exact ⟨r.foldCase, List.mem_filterMap.mpr ⟨_, hr, rfl⟩, hc⟩

theorem coverCase_of_char (h : .char d ∈ as) (hc : toLower d = toLower c) : CoverCase as c :=
  ⟨.char d, h, d, rfl, hc⟩

theorem coverCase_of_range {r : CharRange} (h : .range r ∈ as) (hc : r.contains c = true) :
    CoverCase as c :=
  ⟨.range r, h, c, hc, rfl⟩

theorem coverCase_foldCase_of_char (h : .char d ∈ as) (hc : toLower (lowerFirst d) = toLower c) :
    CoverCase (foldCase as) c := by
  obtain ⟨b, hb, hcovers⟩ := covers_foldCase.mpr (.inl ⟨d, h, rfl⟩)
  exact ⟨b, hb, lowerFirst d, hcovers, hc⟩

theorem coverCase_foldCase_of_range {r : CharRange} (h : .range r ∈ as)
    (hc : r.foldCase.contains c = true) : CoverCase (foldCase as) c := by
  obtain ⟨b, hb, hcovers⟩ := covers_foldCase.mpr (.inr ⟨r, h, hc⟩)
  exact ⟨b, hb, c, hcovers, rfl⟩

theorem coverCase_foldCase_of (hdotted : .char 'İ' ∈ as → CoverCase (foldCase as) 'İ')
    (hcapital : ∀ r, .range r ∈ as → isUpper r.lo = true → isUpper r.hi = true →
      ∀ c, r.contains c = true → CoverCase (foldCase as) c)
    (h : CoverCase as c) : CoverCase (foldCase as) c := by
  obtain ⟨a, ha, d, hd, hcase⟩ := h
  cases a with
  | char e =>
    cases hd
    by_cases he : d = 'İ'
    · subst he
      exact (coverCase_congr hcase).mp (hdotted ha)
    · refine coverCase_foldCase_of_char ha ?_
      rw [lowerFirst_of_ne he, toLower_toLower, hcase]
  | range r =>
    refine (coverCase_congr hcase).mp ?_
    by_cases hupper : (isUpper r.lo && isUpper r.hi) = true
    · obtain ⟨hlo, hhi⟩ := Bool.and_eq_true_iff.mp hupper
      exact hcapital r ha hlo hhi d hd
    · refine coverCase_foldCase_of_range ha ?_
      rwa [CharRange.foldCase, if_neg hupper]
  | literal t => exact hd.elim
  | token t => exact hd.elim

theorem coverCase_of_foldCase (hdotted : .char 'İ' ∈ as → CoverCase as 'i')
    (hcapital : ∀ r, .range r ∈ as → isUpper r.lo = true → isUpper r.hi = true →
      ∀ c, r.lowered.contains c = true → CoverCase as c)
    (h : CoverCase (foldCase as) c) : CoverCase as c := by
  obtain ⟨b, hb, d, hd, hcase⟩ := h
  refine (coverCase_congr hcase).mp ?_
  rcases covers_foldCase.mp ⟨b, hb, hd⟩ with ⟨e, he, rfl⟩ | ⟨r, hr, hc⟩
  · by_cases hdot : e = 'İ'
    · subst hdot
      exact hdotted he
    · refine coverCase_of_char he ?_
      rw [lowerFirst_of_ne hdot, toLower_toLower]
  · rw [CharRange.foldCase] at hc
    split at hc
    next hupper =>
      obtain ⟨hlo, hhi⟩ := Bool.and_eq_true_iff.mp hupper
      exact hcapital r hr hlo hhi d hc
    next => exact coverCase_of_range hr hc

end Atom

open Unicode

/-- Folding keeps what the atoms of a value cover up to case just if it does so for `İ`, which
becomes `i`, and for the ranges between two capital letters, of which only the bounds are
lowered. -/
theorem Catalog.coverCase_foldCase_iff (catalog : Catalog) (v : Value) :
    (∀ c, Atom.CoverCase (catalog.gather v).atoms c ↔
        Atom.CoverCase (Atom.foldCase (catalog.gather v).atoms) c) ↔
      (.char 'İ' ∈ (catalog.gather v).atoms →
        Atom.CoverCase (Atom.foldCase (catalog.gather v).atoms) 'İ' ∧
          Atom.CoverCase (catalog.gather v).atoms 'i') ∧
      ∀ r, .range r ∈ (catalog.gather v).atoms → isUpper r.lo = true → isUpper r.hi = true →
        (∀ c, r.contains c = true → Atom.CoverCase (Atom.foldCase (catalog.gather v).atoms) c) ∧
          ∀ c, r.lowered.contains c = true → Atom.CoverCase (catalog.gather v).atoms c := by
  constructor
  · intro h
    refine ⟨fun hdotted => ⟨?_, ?_⟩, fun r hr hlo hhi => ⟨fun c hc => ?_, fun c hc => ?_⟩⟩
    · exact (h 'İ').mp (Atom.coverCase_of_char hdotted rfl)
    · exact (h 'i').mpr (Atom.coverCase_foldCase_of_char hdotted rfl)
    · exact (h c).mp (Atom.coverCase_of_range hr hc)
    · refine (h c).mpr (Atom.coverCase_foldCase_of_range hr ?_)
      rwa [CharRange.foldCase, if_pos (by rw [hlo, hhi]; rfl)]
  · rintro ⟨hdotted, hcapital⟩ c
    exact ⟨Atom.coverCase_foldCase_of (fun h => (hdotted h).1)
        fun r hr hlo hhi => (hcapital r hr hlo hhi).1,
      Atom.coverCase_of_foldCase (fun h => (hdotted h).2)
        fun r hr hlo hhi => (hcapital r hr hlo hhi).2⟩

/-- The letters from `À` to `Þ` have the sign `×` among them, and those from `à` to `þ` do not. -/
theorem Catalog.coverCase_foldCase_multiplicationSign :
    ¬∀ c, Atom.CoverCase (standard.gather (.ofCharRange 'À' 'Þ')).atoms c ↔
      Atom.CoverCase (Atom.foldCase (standard.gather (.ofCharRange 'À' 'Þ')).atoms) c := by
  intro h
  have hatoms : (standard.gather (.ofCharRange 'À' 'Þ')).atoms = [.range ⟨'À', 'Þ'⟩] := by
    decide +kernel
  have hfolded : Atom.foldCase [.range ⟨'À', 'Þ'⟩] = [.range ⟨'à', 'þ'⟩] := by decide +kernel
  have hsign : ∀ n, n < 0xFF → 0xE0 ≤ n → toLower (Char.ofNat n) ≠ '×' := by decide +kernel
  rw [hatoms, hfolded] at h
  obtain ⟨a, ha, d, hd, hcase⟩ := (h '×').mp (Atom.coverCase_of_range List.mem_cons_self rfl)
  obtain rfl := List.mem_singleton.mp ha
  obtain ⟨hlow, hhigh⟩ := CharRange.contains_iff.mp hd
  refine hsign d.toNat (Nat.lt_succ_of_le hhigh) hlow ?_
  rw [Char.ofNat_toNat]
  exact hcase

end PatternBuilder
