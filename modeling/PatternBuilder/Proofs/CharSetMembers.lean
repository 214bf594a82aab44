import PatternBuilder.CharSet
import PatternBuilder.Unicode.WordData

/-!
# Members of character sets

What each operation on character sets does to their members.
-/

namespace PatternBuilder

theorem Span.contains_iff {s : Span} {n : Nat} : s.contains n = true ↔ s.lo ≤ n ∧ n ≤ s.hi := by
  simp [contains]

namespace CharSet

def InSpans (spans : List Span) (n : Nat) : Prop := spans.any (·.contains n) = true

theorem inSpans_cons {s : Span} {spans : List Span} {n : Nat} :
    InSpans (s :: spans) n ↔ (s.lo ≤ n ∧ n ≤ s.hi) ∨ InSpans spans n := by
  simp only [InSpans, List.any_cons, Bool.or_eq_true, Span.contains_iff]

/-- Spans that touch are joined without losing or adding a code point. -/
theorem inSpans_insertSpan {r : Span} {spans : List Span} {n : Nat} :
    InSpans (insertSpan r spans) n ↔ (r.lo ≤ n ∧ n ≤ r.hi) ∨ InSpans spans n := by
  fun_induction insertSpan r spans with
  | case1 r => exact inSpans_cons
  | case2 r s rest => exact inSpans_cons
  | case3 r s rest _ _ ih =>
    rw [inSpans_cons, ih, inSpans_cons]
    exact or_left_comm
  | case4 r s rest hbehind hbefore ih =>
    have hjoined : (min r.lo s.lo ≤ n ∧ n ≤ max r.hi s.hi) ↔
        (r.lo ≤ n ∧ n ≤ r.hi) ∨ (s.lo ≤ n ∧ n ≤ s.hi) := by
      omega
    rw [ih, inSpans_cons, hjoined, or_assoc]

theorem inSpans_foldr {rs spans : List Span} {n : Nat} :
    InSpans (rs.foldr insertSpan spans) n ↔ InSpans rs n ∨ InSpans spans n := by
  induction rs with
  | nil => simp [InSpans]
  | cons r rs ih => rw [List.foldr_cons, inSpans_insertSpan, ih, inSpans_cons, or_assoc]

variable {c d : Char} {s t : CharSet}

theorem contains_empty : empty.contains c = false := rfl

theorem contains_single : (single d).contains c = true ↔ c = d := by
  have hcode : d.toNat ≤ c.toNat ∧ c.toNat ≤ d.toNat ↔ c.toNat = d.toNat := by omega
  simp only [contains, single, List.any_cons, List.any_nil, Bool.or_false, Span.contains_iff, hcode]
  exact Char.toNat_inj

theorem contains_range {lo hi : Char} :
    (range lo hi).contains c = true ↔ lo.toNat ≤ c.toNat ∧ c.toNat ≤ hi.toNat := by
  unfold range
  split
  next => simp [contains, Span.contains_iff]
  next h =>
    have hreversed : ¬lo.toNat ≤ hi.toNat := h
    simp only [contains_empty, Bool.false_eq_true, false_iff]
    omega

theorem contains_union :
    (s.union t).contains c = true ↔ s.contains c = true ∨ t.contains c = true := inSpans_foldr

def ascendFrom (next : Nat) : List Span → Bool
  | [] => true
  | s :: rest => decide (next ≤ s.lo) && decide (s.lo ≤ s.hi) && ascendFrom (s.hi + 1) rest

theorem ascendFrom_cons {next : Nat} {r : Span} {rest : List Span} :
    ascendFrom next (r :: rest) = true ↔
      (next ≤ r.lo ∧ r.lo ≤ r.hi) ∧ ascendFrom (r.hi + 1) rest = true := by
  simp [ascendFrom]

theorem ascendFrom_of_le {next next' : Nat} (hle : next' ≤ next) {spans : List Span}
    (h : ascendFrom next spans = true) : ascendFrom next' spans = true := by
  cases spans with
  | nil => rfl
  | cons r rest =>
    rw [ascendFrom_cons] at h ⊢
    exact ⟨⟨Nat.le_trans hle h.1.1, h.1.2⟩, h.2⟩

theorem ascendFrom_insertSpan {next : Nat} {r : Span} (hr : next ≤ r.lo ∧ r.lo ≤ r.hi)
    {spans : List Span} (h : ascendFrom next spans = true) :
    ascendFrom next (insertSpan r spans) = true := by
  fun_induction insertSpan r spans generalizing next with
  | case1 r => exact ascendFrom_cons.mpr ⟨hr, rfl⟩
  | case2 r s rest hbehind =>
    rw [ascendFrom_cons] at h
    exact ascendFrom_cons.mpr ⟨hr, ascendFrom_cons.mpr ⟨⟨by omega, h.1.2⟩, h.2⟩⟩
  | case3 r s rest hbehind hbefore ih =>
    rw [ascendFrom_cons] at h
    exact ascendFrom_cons.mpr ⟨h.1, ih ⟨by omega, hr.2⟩ h.2⟩
  | case4 r s rest hbehind hbefore ih =>
    rw [ascendFrom_cons] at h
    refine ih ?_ (ascendFrom_of_le (by omega) h.2)
    simp only
    omega

theorem le_of_inSpans {next n : Nat} {spans : List Span} (h : ascendFrom next spans = true)
    (hn : InSpans spans n) : next ≤ n := by
  induction spans generalizing next with
  | nil => cases hn
  | cons s rest ih =>
    rw [ascendFrom_cons] at h
    rcases inSpans_cons.mp hn with hs | hrest
    · omega
    · have hnext := ih h.2 hrest
      omega

theorem inSpans_gapsFrom {next n : Nat} (hn : n ≤ 0x10FFFF) {spans : List Span}
    (h : ascendFrom next spans = true) :
    InSpans (gapsFrom next spans) n ↔ next ≤ n ∧ ¬InSpans spans n := by
  induction spans generalizing next with
  | nil =>
    unfold gapsFrom
    split
    · rw [inSpans_cons]
      simp [InSpans, hn]
    next hlast =>
      have hless : ¬next ≤ n := by omega
      simp [InSpans, hless]
  | cons s rest ih =>
    rw [ascendFrom_cons] at h
    have hrest : InSpans rest n → s.hi + 1 ≤ n := le_of_inSpans h.2
    unfold gapsFrom
    split
    · rw [inSpans_cons, inSpans_cons, ih h.2]
      simp only
      by_cases hmem : InSpans rest n
      · have hbehind := hrest hmem
        simp only [hmem, not_true_eq_false, and_false, or_false, or_true, iff_false]
        omega
      · simp only [hmem, not_false_eq_true, and_true, or_false]
        omega
    · rw [inSpans_cons, ih h.2]
      by_cases hmem : InSpans rest n
      · simp [hmem]
      · simp only [hmem, not_false_eq_true, and_true, or_false]
        omega

theorem contains_complement (h : ascendFrom 0 s.spans = true) :
    s.complement.contains c = true ↔ ¬s.contains c = true := by
  have hvalid : c.toNat < 0xD800 ∨ 0xDFFF < c.toNat ∧ c.toNat < 0x110000 := c.valid
  have hascend := ascendFrom_insertSpan (r := surrogates) (by decide) h
  have hgaps := inSpans_gapsFrom (n := c.toNat) (by omega) hascend
  have hsurrogate : ¬(surrogates.lo ≤ c.toNat ∧ c.toNat ≤ surrogates.hi) := by
    simp only [surrogates]
    omega
  rw [inSpans_insertSpan] at hgaps
  simp only [hsurrogate, false_or, Nat.zero_le, true_and] at hgaps
  exact hgaps

theorem ascendFrom_shorthands : ascendFrom 0 Unicode.wordSet.spans = true ∧
    ascendFrom 0 Unicode.digitSet.spans = true ∧ ascendFrom 0 Unicode.spaceSet.spans = true := by
  decide +kernel

end CharSet
end PatternBuilder
