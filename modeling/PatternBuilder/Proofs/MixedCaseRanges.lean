import PatternBuilder.Proofs.FoldedCoverage

/-!
# Letters of ranges of mixed case

A range between a small and a capital letter is split into one of small letters and one of capitals.
What that does to the letters between the bounds depends on which of them comes first.
-/

namespace PatternBuilder

namespace Unicode

def MappedRun.leavesAscii (r : MappedRun) : Bool :=
  decide (0x80 ≤ r.target ∧ r.image r.last < 0xD800) ||
    decide (0xE000 ≤ r.target ∧ r.image r.last < 0x110000)

/-- The run leads out of ASCII, or has one character only, for which `p` does not hold. -/
def MappedRun.leavesBut (p : Char → Bool) (r : MappedRun) : Bool :=
  r.leavesAscii || r.first == r.last && !p (Char.ofNat r.first)

/-- The sign of Kelvin, whose lowercase is in ASCII, is no small letter; the dotless `ı` and the
long `ſ`, whose capitals are in ASCII, are no capitals. -/
theorem caseRuns_leaveAscii :
    (∀ r ∈ lowerRuns, r.leavesBut isLower = true) ∧
      ∀ r ∈ upperRuns, r.leavesBut isUpper = true := by
  decide +kernel

variable {c : Char}

theorem toNat_ofNat_image {r : MappedRun} (h : r.leavesAscii = true) {n : Nat}
    (hn : r.contains n = true) : 0x80 ≤ (Char.ofNat (r.image n)).toNat := by
  have hle : r.image n ≤ r.image r.last := by
    have hbetween := Run.contains_iff.mp hn
    unfold MappedRun.image
    omega
  have htarget : r.target ≤ r.image n := Nat.le_add_right _ _
  have hvalid : (r.image n).isValidChar := by
    simp only [MappedRun.leavesAscii, Bool.or_eq_true, decide_eq_true_eq] at h
    unfold Nat.isValidChar
    omega
  have hcode : (Char.ofNat (r.image n)).toNat = r.image n := by
    rw [Char.ofNat, dif_pos hvalid]
    rfl
  rw [hcode]
  simp only [MappedRun.leavesAscii, Bool.or_eq_true, decide_eq_true_eq] at h
  omega

/-- Where `p` holds, `f` keeps what is in ASCII, and does not lead into ASCII what is beyond it. -/
structure KeepsAscii (p : Char → Bool) (f : Char → Char) : Prop where
  ascii : ∀ {c}, c.toNat < 0x80 → p c = true → f c = c
  beyond : ∀ {c}, 0x80 ≤ c.toNat → p c = true → 0x80 ≤ (f c).toNat

theorem KeepsAscii.le {p : Char → Bool} {f : Char → Char} (h : KeepsAscii p f) (hc : p c = true)
    {n : Nat} (hn : n < 0x80) (hle : n ≤ c.toNat) : n ≤ (f c).toNat := by
  by_cases hascii : c.toNat < 0x80
  · rwa [h.ascii hascii hc]
  · have hhigh := h.beyond (Nat.not_lt.mp hascii) hc
    omega

theorem not_ascii_mapThrough {runs : List MappedRun} {p : Char → Bool}
    (h : ∀ r ∈ runs, r.leavesBut p = true) (hc : 0x80 ≤ c.toNat) (hp : p c = true) :
    0x80 ≤ (mapThrough runs c).toNat := by
  unfold mapThrough
  split
  next r hfind =>
    have hcontains := List.find?_some hfind
    have hrun := h r (List.mem_of_find?_eq_some hfind)
    simp only [MappedRun.leavesBut, Bool.or_eq_true, Bool.and_eq_true, beq_iff_eq] at hrun
    rcases hrun with hleaves | ⟨hone, hnot⟩
    · exact toNat_ofNat_image hleaves hcontains
    · have hbetween := Run.contains_iff.mp hcontains
      have hsame : r.first = c.toNat := by omega
      rw [hsame, Char.ofNat_toNat, hp] at hnot
      cases hnot
  next => exact hc

theorem case_of_ascii (hc : c.toNat < 0x80) :
    (isLower c = true → toLower c = c ∧ (toUpper c).toNat + 0x20 = c.toNat) ∧
      (isUpper c = true →
        toUpper c = c ∧ (toLower c).toNat = c.toNat + 0x20 ∧ isLower c = false) ∧
      (toUpper c).toNat ≤ c.toNat := by
  have hall : ∀ n, n < 0x80 →
      (isLower (Char.ofNat n) = true → toLower (Char.ofNat n) = Char.ofNat n ∧
        (toUpper (Char.ofNat n)).toNat + 0x20 = n) ∧
      (isUpper (Char.ofNat n) = true → toUpper (Char.ofNat n) = Char.ofNat n ∧
        (toLower (Char.ofNat n)).toNat = n + 0x20 ∧ isLower (Char.ofNat n) = false) ∧
      (toUpper (Char.ofNat n)).toNat ≤ n := by
    decide +kernel
  have hcase := hall c.toNat hc
  rwa [Char.ofNat_toNat] at hcase

theorem keepsAscii_toLower : KeepsAscii isLower toLower where
  ascii hc h := ((case_of_ascii hc).1 h).1
  beyond hc h := by
    rw [toLower_of_not_ascii (Nat.not_lt.mpr hc)]
    exact not_ascii_mapThrough caseRuns_leaveAscii.1 hc h

theorem keepsAscii_toUpper : KeepsAscii isUpper toUpper where
  ascii hc h := ((case_of_ascii hc).2.1 h).1
  beyond hc h := by
    rw [toUpper, isAscii, if_neg (by simpa using hc)]
    exact not_ascii_mapThrough caseRuns_leaveAscii.2 hc h

theorem isUpper_of_ascii (hc : c.toNat < 0x80) : isUpper c = c.isUpper := by
  rw [isUpper, isAscii, if_pos (decide_eq_true hc)]

theorem isLower_of_ascii (hc : c.toNat < 0x80) : isLower c = c.isLower := by
  rw [isLower, isAscii, if_pos (decide_eq_true hc)]

theorem lt_of_isAlpha (hc : c.isAlpha = true) : c.toNat < 0x80 := by
  have hcode : c.toNat = c.val.toNat := rfl
  have hcapital : 'Z'.val.toNat = 90 := rfl
  have hsmall : 'z'.val.toNat = 122 := rfl
  rcases Bool.or_eq_true_iff.mp hc with h | h
  · have hle : c.val ≤ 'Z'.val := (of_decide_eq_true h).2
    have := UInt32.le_iff_toNat_le.mp hle
    omega
  · have hle : c.val ≤ 'z'.val := of_decide_eq_true (Bool.and_eq_true_iff.mp h).2
    have := UInt32.le_iff_toNat_le.mp hle
    omega

end Unicode

namespace CharRange

open Unicode

variable {r : CharRange} {c : Char}

theorem covered_splitCase_of_capital (hc : c.toNat < 0x80) (h : r.contains c = true)
    (hlo : isUpper r.lo = true) (hhi : isLower r.hi = true) :
    Covered r.splitCase c ↔
      (toLower r.lo).toNat ≤ c.toNat ∨ c.toNat ≤ (toUpper r.hi).toNat := by
  obtain ⟨hlow, hhigh⟩ := contains_iff.mp h
  obtain ⟨hcapital, -⟩ := (case_of_ascii (c := r.lo) (by omega)).2.1 hlo
  have hsplit : r.splitCase = [r.lowered, r.raised] := by
    simp [splitCase, hhi, hlo]
  have hlower := keepsAscii_toLower.le hhi hc hhigh
  rw [hsplit, covered_cons, covered_cons, or_iff_left covered_nil, contains_iff, contains_iff,
    lowered, raised, hcapital]
  simp only [hlower, hlow, and_true, true_and]

theorem covered_splitCase_of_not_capital (hc : c.toNat < 0x80) (h : r.contains c = true)
    (hcases : isUpper r.lo = true → isLower r.hi = false) : Covered r.splitCase c := by
  obtain ⟨hlow, hhigh⟩ := contains_iff.mp h
  obtain ⟨-, hlo, hraised⟩ := case_of_ascii (c := r.lo) (by omega)
  unfold splitCase
  split
  next hsplit =>
    have hcapital : isUpper r.hi = true := by
      cases hupper : isUpper r.lo with
      | false => simpa [hupper] using (Bool.and_eq_true_iff.mp hsplit).2
      | true => simp [hcases hupper, (hlo hupper).2.2] at hsplit
    have hhigher := keepsAscii_toUpper.le hcapital hc hhigh
    exact ⟨r.raised, by simp, contains_iff.mpr ⟨hraised.trans hlow, hhigher⟩⟩
  next => exact covered_cons.mpr (.inl h)

theorem covered_splitCase_iff (hc : c.toNat < 0x80) (h : r.contains c = true) :
    Covered r.splitCase c ↔ (isUpper r.lo = true → isLower r.hi = true →
      (toLower r.lo).toNat ≤ c.toNat ∨ c.toNat ≤ (toUpper r.hi).toNat) := by
  by_cases hcapital : isUpper r.lo = true ∧ isLower r.hi = true
  · rw [covered_splitCase_of_capital hc h hcapital.1 hcapital.2]
    simp [hcapital]
  · refine iff_of_true (covered_splitCase_of_not_capital hc h fun hlo => ?_)
      fun hlo hhi => absurd ⟨hlo, hhi⟩ hcapital
    exact Bool.eq_false_iff.mpr fun hhi => hcapital ⟨hlo, hhi⟩

end CharRange

namespace Catalog

open Unicode

variable (catalog : Catalog) {lo hi c : Char}

theorem atoms_gather_charRange : (catalog.gather (.ofCharRange lo hi)).atoms =
    (CharRange.canonical (CharRange.splitCase ⟨lo, hi⟩)).map .range := by
  have hleaves : (Value.ofCharRange lo hi).leaves = [.range [lo] [hi]] := Value.leaves_leaf _
  have hloose : catalog.looseAtoms [.range [lo] [hi]] = [] := rfl
  have hranges : catalog.ranges [.range [lo] [hi]] = CharRange.splitCase ⟨lo, hi⟩ :=
    List.append_nil _
  rw [gather, hleaves, gatherLeaves, hloose, hranges]
  rfl

theorem covers_gather_charRange : (∃ a ∈ (catalog.gather (.ofCharRange lo hi)).atoms, a.Covers c) ↔
    CharRange.Covered (CharRange.splitCase ⟨lo, hi⟩) c := by
  rw [atoms_gather_charRange, ← CharRange.covered_canonical]
  simp [CharRange.Covered, Atom.Covers]

theorem atoms_gather_eq_nil (hcapital : lo.isUpper = true) (hsmall : hi.isLower = true)
    (h : hi < lo.toLower) : (catalog.gather (.ofCharRange lo hi)).atoms = [] := by
  have hascii : lo.toNat < 0x80 ∧ hi.toNat < 0x80 := by
    constructor <;> apply lt_of_isAlpha
    · exact Bool.or_eq_true_iff.mpr (.inl hcapital)
    · exact Bool.or_eq_true_iff.mpr (.inr hsmall)
  rw [← isUpper_of_ascii hascii.1] at hcapital
  rw [← isLower_of_ascii hascii.2] at hsmall
  obtain ⟨hraised, hdistance, hlo⟩ := (case_of_ascii hascii.1).2.1 hcapital
  obtain ⟨hlowered, hbehind⟩ := (case_of_ascii hascii.2).1 hsmall
  have hless : hi.toNat < (toLower lo).toNat := toLower_of_ascii hascii.1 ▸ h
  have hsplit : CharRange.splitCase ⟨lo, hi⟩ = [⟨toLower lo, hi⟩, ⟨lo, toUpper hi⟩] := by
    simp [CharRange.splitCase, CharRange.lowered, CharRange.raised, hcapital, hsmall, hraised,
      hlowered]
  have hreversed : (CharRange.splitCase ⟨lo, hi⟩).filter CharRange.isForward = [] := by
    simp only [hsplit, List.filter_eq_nil_iff, List.forall_mem_cons, CharRange.isForward_iff]
    exact ⟨by omega, by omega, by simp⟩
  rw [atoms_gather_charRange, CharRange.canonical, hreversed]
  rfl

/-- A range that is not reversed keeps its letters, unless it goes from a capital of ASCII to a
lowercase letter, in ASCII or beyond: then those stay that are not before the lowercase of the one
or not behind the uppercase of the other. Nothing at all is left where both are in ASCII and the
small letter comes first in the alphabet. -/
theorem covers_letter_gather (hc : c.isAlpha = true) (hlo : lo ≤ c) (hhi : c ≤ hi) :
    ((∃ a ∈ (catalog.gather (.ofCharRange lo hi)).atoms, a.Covers c) ↔
        (lo.isUpper = true → isLower hi = true → lo.toLower ≤ c ∨ c ≤ toUpper hi)) ∧
      ((catalog.gather (.ofCharRange lo hi)).atoms = [] ↔
        lo.isUpper = true ∧ hi.isLower = true ∧ hi < lo.toLower) := by
  have hletter : ∀ d : Char, d.toNat < 0x80 → lo ≤ d → d ≤ hi →
      ((∃ a ∈ (catalog.gather (.ofCharRange lo hi)).atoms, a.Covers d) ↔
        (lo.isUpper = true → isLower hi = true → lo.toLower ≤ d ∨ d ≤ toUpper hi)) := by
    intro d hd hlow hhigh
    have hascii : lo.toNat < 0x80 := Nat.lt_of_le_of_lt hlow hd
    have hbetween : CharRange.contains ⟨lo, hi⟩ d = true :=
      CharRange.contains_iff.mpr ⟨hlow, hhigh⟩
    rw [covers_gather_charRange, CharRange.covered_splitCase_iff hd hbetween,
      isUpper_of_ascii hascii, toLower_of_ascii hascii]
    rfl
  refine ⟨hletter c (lt_of_isAlpha hc) hlo hhi, fun h => ?_,
    fun ⟨hcapital, hsmall, hless⟩ => catalog.atoms_gather_eq_nil hcapital hsmall hless⟩
  have hnone : ∀ d, ¬∃ a ∈ (catalog.gather (.ofCharRange lo hi)).atoms, a.Covers d := by
    simp [h]
  obtain ⟨hcapital, hsmall, -⟩ :
      lo.isUpper = true ∧ isLower hi = true ∧ ¬(lo.toLower ≤ c ∨ c ≤ toUpper hi) := by
    simpa only [Classical.not_imp] using mt (hletter c (lt_of_isAlpha hc) hlo hhi).mpr (hnone c)
  -- the small form of the lower bound would stay if it came no later than the upper bound
  have hascii : lo.toNat < 0x80 := Nat.lt_of_le_of_lt hlo (lt_of_isAlpha hc)
  have hform : lo ≤ lo.toLower ∧ lo.toLower.toNat < 0x80 := by
    obtain ⟨-, hsmallAscii⟩ := toLower_toLower_ascii lo.toNat hascii
    obtain ⟨-, hdistance, -⟩ := (case_of_ascii hascii).2.1 (isUpper_of_ascii hascii ▸ hcapital)
    rw [toLower_of_ascii hascii] at hdistance
    rw [Char.ofNat_toNat] at hsmallAscii
    exact ⟨show lo.toNat ≤ lo.toLower.toNat by omega, hsmallAscii⟩
  have hless : hi < lo.toLower := by
    by_contra hle
    have hstays := hletter lo.toLower hform.2 hform.1 (Char.not_lt.mp hle)
    exact hnone _ (hstays.mpr fun _ _ => .inl (Char.le_refl _))
  refine ⟨hcapital, ?_, hless⟩
  rwa [isLower_of_ascii (Nat.lt_trans hless hform.2)] at hsmall

theorem covers_letter_gather_capitalToSmall : 'd'.isAlpha = true ∧ 'C' ≤ 'd' ∧ 'd' ≤ 'x' ∧
    ((∃ a ∈ (standard.gather (.ofCharRange 'C' 'x')).atoms, a.Covers 'd') ↔
        ('C'.isUpper = true → isLower 'x' = true → 'C'.toLower ≤ 'd' ∨ 'd' ≤ toUpper 'x')) ∧
      ((standard.gather (.ofCharRange 'C' 'x')).atoms = [] ↔
        'C'.isUpper = true ∧ 'x'.isLower = true ∧ 'x' < 'C'.toLower) := by
  have hc : 'd'.isAlpha = true := by decide
  have hlo : 'C' ≤ 'd' := by decide
  have hhi : 'd' ≤ 'x' := by decide
  exact ⟨hc, hlo, hhi, standard.covers_letter_gather hc hlo hhi⟩

/-- The long s is lowercase as well, and its capital comes before `Z`. -/
example : (standard.gather (.ofCharRange 'Z' 'ſ')).atoms = [.range ⟨'z', 'ſ'⟩] := by
  decide +kernel

/-- From `C` to `x` there is `Y`, which comes behind the last capital, and from `Z` to `a` there are
both bounds, which are in the wrong order in either case. -/
theorem covers_letter_gather_gaps :
    ('C' ≤ 'Y' ∧ 'Y' ≤ 'x' ∧
        ¬∃ a ∈ (standard.gather (.ofCharRange 'C' 'x')).atoms, a.Covers 'Y') ∧
      'Z' ≤ 'a' ∧ (standard.gather (.ofCharRange 'Z' 'a')).atoms = [] := by
  have hcapital : isUpper 'C' = true ∧ isLower 'x' = true := by
    rw [isUpper_of_ascii (by decide), isLower_of_ascii (by decide)]
    decide
  have hbetween := CharRange.covered_splitCase_of_capital (r := ⟨'C', 'x'⟩) (c := 'Y') (by decide)
    (by decide) hcapital.1 hcapital.2
  refine ⟨⟨by decide, by decide, ?_⟩, by decide, standard.atoms_gather_eq_nil ?_ ?_ ?_⟩
  · rw [covers_gather_charRange, hbetween]
    decide
  all_goals decide

end Catalog

end PatternBuilder
