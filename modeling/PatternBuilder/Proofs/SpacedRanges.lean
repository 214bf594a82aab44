import PatternBuilder.Proofs.CanonicalRanges

/-!
# Spaced ranges

Ranges that ascend and leave a gap between each and the next are determined by their code points.
The canonical form of a list consists of two such parts, so that it depends on nothing but the code
points that the forward ranges of each part reach. A range covers another one there only across the
two parts.
-/

namespace PatternBuilder.CharRange

variable {r s : CharRange} {rs ss : List CharRange} {n : Nat}

structure IsSpaced (rs : List CharRange) : Prop where
  forward : ∀ r ∈ rs, r.lo.toNat ≤ r.hi.toNat
  ascending : rs.Pairwise fun r s => r.lo.toNat < s.lo.toNat
  apart : rs.Pairwise fun r s => r.hi.toNat + 1 < s.lo.toNat

theorem isSpaced_nil : IsSpaced [] := ⟨nofun, .nil, .nil⟩

theorem isSpaced_cons : IsSpaced (r :: rs) ↔
    r.lo.toNat ≤ r.hi.toNat ∧ (∀ s ∈ rs, r.hi.toNat + 1 < s.lo.toNat) ∧ IsSpaced rs := by
  constructor
  · rintro ⟨hforward, hascending, hapart⟩
    obtain ⟨hr, hrs⟩ := List.forall_mem_cons.mp hforward
    obtain ⟨hgap, hapart⟩ := List.pairwise_cons.mp hapart
    exact ⟨hr, hgap, hrs, (List.pairwise_cons.mp hascending).2, hapart⟩
  · rintro ⟨hr, hgap, hrs⟩
    refine ⟨List.forall_mem_cons.mpr ⟨hr, hrs.forward⟩, List.pairwise_cons.mpr ⟨?_, hrs.ascending⟩,
      List.pairwise_cons.mpr ⟨hgap, hrs.apart⟩⟩
    intro s hs
    have hbehind := hgap s hs
    omega

namespace IsSpaced

theorem lo_le (h : IsSpaced (r :: rs)) (hn : n ∈ points (r :: rs)) : r.lo.toNat ≤ n := by
  obtain ⟨hr, hgap, -⟩ := isSpaced_cons.mp h
  rcases mem_points_cons.mp hn with hn | ⟨s, hs, hn⟩
  · exact hn.1
  · have hbehind := hgap s hs
    omega

theorem succ_hi_not_mem (h : IsSpaced (r :: rs)) : r.hi.toNat + 1 ∉ points (r :: rs) := by
  obtain ⟨-, hgap, -⟩ := isSpaced_cons.mp h
  intro hn
  rcases mem_points_cons.mp hn with hn | ⟨s, hs, hn⟩
  · omega
  · have hbehind := hgap s hs
    omega

/-- What lies past the first range is what the others reach. -/
theorem mem_points_tail (h : IsSpaced (r :: rs)) :
    n ∈ points rs ↔ n ∈ points (r :: rs) ∧ r.hi.toNat < n := by
  obtain ⟨-, hgap, -⟩ := isSpaced_cons.mp h
  rw [mem_points_cons]
  constructor
  · rintro ⟨s, hs, hn⟩
    have hbehind := hgap s hs
    exact ⟨.inr ⟨s, hs, hn⟩, by omega⟩
  · rintro ⟨hn | hn, hpast⟩
    · omega
    · exact hn

theorem lo_mem (h : IsSpaced (r :: rs)) : r.lo.toNat ∈ points (r :: rs) :=
  mem_points_cons.mpr (.inl ⟨Nat.le_refl _, (isSpaced_cons.mp h).1⟩)

/-- Of two first ranges that begin alike, neither goes further: the code point behind the shorter
one would be free in one list and not in the other. -/
theorem hi_le_hi (hr : IsSpaced (r :: rs)) (hlo : s.lo = r.lo)
    (h : points (s :: ss) ⊆ points (r :: rs)) : s.hi.toNat ≤ r.hi.toNat := by
  by_contra hless
  have hforward := (isSpaced_cons.mp hr).1
  have hmem : r.hi.toNat + 1 ∈ points (s :: ss) := by
    refine mem_points_cons.mpr (.inl ?_)
    rw [hlo]
    omega
  exact hr.succ_hi_not_mem (h hmem)

theorem eq_of_points (hr : IsSpaced rs) (hs : IsSpaced ss) (h : points rs = points ss) :
    rs = ss := by
  induction rs generalizing ss with
  | nil =>
    cases ss with
    | nil => rfl
    | cons s ss => exact absurd (h.superset hs.lo_mem) (by simp [mem_points])
  | cons r rs ih =>
    cases ss with
    | nil => exact absurd (h.subset hr.lo_mem) (by simp [mem_points])
    | cons s ss =>
      have hlo : r.lo.toNat = s.lo.toNat :=
        Nat.le_antisymm (hr.lo_le (h.superset hs.lo_mem)) (hs.lo_le (h.subset hr.lo_mem))
      have hsame : r.lo = s.lo := Char.toNat_inj.mp hlo
      have hhi : r.hi.toNat = s.hi.toNat :=
        Nat.le_antisymm (hs.hi_le_hi hsame h.subset) (hr.hi_le_hi hsame.symm h.superset)
      obtain rfl := eq_of_bounds hlo hhi
      have htail : points rs = points ss := by
        ext n
        rw [hr.mem_points_tail, hs.mem_points_tail, h]
      rw [ih (isSpaced_cons.mp hr).2.2 (isSpaced_cons.mp hs).2.2 htail]

end IsSpaced

theorem lo_le_of_mem_joinFrom (h : Ascending (r :: rs)) (hs : s ∈ joinFrom r rs) :
    r.lo.toNat ≤ s.lo.toNat := by
  refine forall_mem_joinFrom (P := fun x => r.lo.toNat ≤ x.lo.toNat) ?_ ?_ s hs
  · exact fun x y hx _ => hx
  · exact List.forall_mem_cons.mpr ⟨Nat.le_refl _, (List.pairwise_cons.mp h).1⟩

theorem isSpaced_joinFrom (h : Ascending (r :: rs)) (hforward : ∀ s ∈ r :: rs, s.isForward = true) :
    IsSpaced (joinFrom r rs) := by
  induction rs generalizing r with
  | nil =>
    have hr := isForward_iff.mp (hforward r List.mem_cons_self)
    exact isSpaced_cons.mpr ⟨hr, nofun, isSpaced_nil⟩
  | cons s rs ih =>
    obtain ⟨hr, hsrs⟩ := List.forall_mem_cons.mp hforward
    have hascending := (List.pairwise_cons.mp h).2
    rw [joinFrom]
    split
    next =>
      refine ih (h.extendTo s.hi) (List.forall_mem_cons.mpr ⟨isForward_extendTo hr s.hi, ?_⟩)
      exact fun x hx => hsrs x (List.mem_cons_of_mem s hx)
    next ht =>
      refine isSpaced_cons.mpr ⟨isForward_iff.mp hr, fun x hx => ?_, ih hascending hsrs⟩
      have hgap : ¬s.lo.toNat ≤ r.hi.toNat + 1 := by simpa [touches] using ht
      have hlow := lo_le_of_mem_joinFrom hascending hx
      omega

theorem isSpaced_join (h : Ascending rs) (hforward : ∀ r ∈ rs, r.isForward = true) :
    IsSpaced (join rs) := by
  cases rs with
  | nil => exact isSpaced_nil
  | cons r rs => exact isSpaced_joinFrom h hforward

theorem isSpaced_merge (hforward : ∀ r ∈ rs, r.isForward = true) : IsSpaced (merge rs) :=
  isSpaced_join (ascending_sortByLow rs) fun r hr => hforward r (mem_sortByLow.mp hr)

theorem isSpaced_simplify (hforward : ∀ r ∈ rs, r.isForward = true) : IsSpaced (simplify rs) :=
  isSpaced_merge fun r hr => hforward r (mem_of_mem_dropCovered hr)

theorem simplify_eq_iff (hrs : ∀ r ∈ rs, r.isForward = true) (hss : ∀ r ∈ ss, r.isForward = true) :
    simplify rs = simplify ss ↔ points rs = points ss := by
  constructor
  · intro h
    rw [← points_simplify, h, points_simplify]
  · intro h
    refine (isSpaced_simplify hrs).eq_of_points (isSpaced_simplify hss) ?_
    rw [points_simplify, points_simplify, h]

/-- Joining makes up for covered ranges that were not dropped. -/
theorem merge_dropCovered (hforward : ∀ r ∈ rs, r.isForward = true) :
    merge (dropCovered rs) = merge rs :=
  (isSpaced_simplify hforward).eq_of_points (isSpaced_merge hforward)
    (points_simplify.trans points_merge.symm)

theorem isNumeric_iff : r.isNumeric = true ↔
    (48 ≤ r.lo.toNat ∧ r.lo.toNat ≤ 57) ∧ 48 ≤ r.hi.toNat ∧ r.hi.toNat ≤ 57 := by
  simp [isNumeric, Char.isDigit, UInt32.le_iff_toNat_le]

theorem isNumeric_extendTo (hr : r.isNumeric = true) (hs : s.isNumeric = true) :
    (r.extendTo s.hi).isNumeric = true := by
  rw [isNumeric_iff] at hr hs ⊢
  rw [lo_extendTo, hi_extendTo]
  omega

theorem isNumeric_extendTo_eq_false (hforward : r.isForward = true) (hr : r.isNumeric = false)
    (hi : Char) : (r.extendTo hi).isNumeric = false := by
  rw [← Bool.not_eq_true, isNumeric_iff] at hr ⊢
  rw [isForward_iff] at hforward
  rw [lo_extendTo, hi_extendTo]
  omega

theorem isNumeric_of_mem_simplify_numerals (h : r ∈ simplify (numerals rs)) :
    r.isNumeric = true := by
  have hextend : ∀ x y : CharRange, x.isNumeric = true → y.isNumeric = true →
      (x.extendTo y.hi).isNumeric = true := fun x y => isNumeric_extendTo
  exact forall_mem_simplify hextend (fun x hx => (mem_numerals.mp hx).2.2) r h

theorem isNumeric_of_mem_simplify_others (h : r ∈ simplify (others rs)) :
    r.isNumeric = false := by
  have hextend : ∀ x y : CharRange, x.isForward = true ∧ x.isNumeric = false →
      y.isForward = true ∧ y.isNumeric = false →
        (x.extendTo y.hi).isForward = true ∧ (x.extendTo y.hi).isNumeric = false :=
    fun x y hx _ => ⟨isForward_extendTo hx.1 y.hi, isNumeric_extendTo_eq_false hx.1 hx.2 y.hi⟩
  exact (forall_mem_simplify hextend (fun x hx => (mem_others.mp hx).2) r h).2

theorem isForward_of_mem_numerals : ∀ r ∈ numerals rs, r.isForward = true :=
  fun _ hr => (mem_numerals.mp hr).2.1

theorem isForward_of_mem_others : ∀ r ∈ others rs, r.isForward = true :=
  fun _ hr => (mem_others.mp hr).2.1

theorem filter_isForward_canonical (rs : List CharRange) :
    (canonical rs).filter isForward = canonical rs :=
  List.filter_eq_self.mpr fun _ => isForward_of_mem_canonical

theorem numerals_canonical (rs : List CharRange) :
    numerals (canonical rs) = simplify (numerals rs) := by
  rw [numerals, filter_isForward_canonical, canonical_eq, List.filter_append,
    List.filter_eq_self.mpr fun r => isNumeric_of_mem_simplify_numerals,
    List.filter_eq_nil_iff.mpr fun r hr => by simp [isNumeric_of_mem_simplify_others hr],
    List.append_nil]

theorem others_canonical (rs : List CharRange) :
    others (canonical rs) = simplify (others rs) := by
  rw [others, filter_isForward_canonical, canonical_eq, List.filter_append,
    List.filter_eq_nil_iff.mpr fun r hr => by simp [isNumeric_of_mem_simplify_numerals hr],
    List.filter_eq_self.mpr fun r hr => by simp [isNumeric_of_mem_simplify_others hr],
    List.nil_append]

/-- The canonical form says what the ranges of digits reach and what the others reach, and nothing
else. -/
theorem canonical_eq_iff : canonical rs = canonical ss ↔
    points (numerals rs) = points (numerals ss) ∧ points (others rs) = points (others ss) := by
  rw [← simplify_eq_iff isForward_of_mem_numerals isForward_of_mem_numerals,
    ← simplify_eq_iff isForward_of_mem_others isForward_of_mem_others]
  constructor
  · intro h
    rw [← numerals_canonical, ← numerals_canonical, ← others_canonical, ← others_canonical, h]
    exact ⟨rfl, rfl⟩
  · rintro ⟨hnumerals, hothers⟩
    rw [canonical_eq, canonical_eq, hnumerals, hothers]

theorem canonical_congr (h : ∀ r, r ∈ rs ↔ r ∈ ss) : canonical rs = canonical ss := by
  refine canonical_eq_iff.mpr ⟨points_congr fun r => ?_, points_congr fun r => ?_⟩
  · rw [mem_numerals, mem_numerals, h]
  · rw [mem_others, mem_others, h]

theorem canonical_canonical (rs : List CharRange) : canonical (canonical rs) = canonical rs := by
  rw [canonical_eq_iff, numerals_canonical, others_canonical, points_simplify, points_simplify]
  exact ⟨rfl, rfl⟩

/-- The canonical form is what reaches the same code points as the forward ranges, those of digits
first, and leaves gaps in each of the two parts. There is only one such list. -/
theorem parts_canonical (rs : List CharRange) :
    (∃ digits rest, canonical rs = digits ++ rest ∧
      (∀ r ∈ digits, r.isNumeric = true) ∧ (∀ r ∈ rest, r.isNumeric = false) ∧
      IsSpaced digits ∧ IsSpaced rest ∧
      points digits = points (numerals rs) ∧ points rest = points (others rs)) ∧
    (∀ ss, canonical ss = canonical rs ↔
      points (numerals ss) = points (numerals rs) ∧ points (others ss) = points (others rs)) ∧
    canonical (canonical rs) = canonical rs ∧
    ((∀ r ∈ rs, r.isForward = true) → merge (dropCovered rs) = merge rs) := by
  refine ⟨⟨simplify (numerals rs), simplify (others rs), canonical_eq rs, ?_, ?_, ?_, ?_,
    points_simplify, points_simplify⟩, fun ss => canonical_eq_iff, canonical_canonical rs,
    merge_dropCovered⟩
  · exact fun r => isNumeric_of_mem_simplify_numerals
  · exact fun r => isNumeric_of_mem_simplify_others
  · exact isSpaced_simplify isForward_of_mem_numerals
  · exact isSpaced_simplify isForward_of_mem_others

def overlapping : List CharRange :=
  [⟨'c', 'k'⟩, ⟨'b', 'f'⟩, ⟨'5', '9'⟩, ⟨'a', 'e'⟩, ⟨'a', 'b'⟩]

example : canonical overlapping = [⟨'5', '9'⟩, ⟨'a', 'k'⟩] := by decide

theorem parts_canonical_overlapping : (∀ r ∈ overlapping, r.isForward = true) ∧
    merge (dropCovered overlapping) = merge overlapping :=
  ⟨by decide, (parts_canonical overlapping).2.2.2 (by decide)⟩

theorem IsSpaced.apart_or (h : IsSpaced rs) (hr : r ∈ rs) (hs : s ∈ rs) (hne : r ≠ s) :
    r.hi.toNat + 1 < s.lo.toNat ∨ s.hi.toNat + 1 < r.lo.toNat := by
  induction rs with
  | nil => cases hr
  | cons x rs ih =>
    obtain ⟨-, hgap, hrs⟩ := isSpaced_cons.mp h
    rcases List.mem_cons.mp hr with rfl | hrtail <;> rcases List.mem_cons.mp hs with rfl | hstail
    · exact absurd rfl hne
    · exact .inl (hgap s hstail)
    · exact .inr (hgap r hrtail)
    · exact ih hrs hrtail hstail

theorem IsSpaced.not_covers (h : IsSpaced rs) (hr : r ∈ rs) (hs : s ∈ rs) (hne : s ≠ r) :
    ¬s.covers r = true := by
  have hforward := h.forward r hr
  rw [covers_iff]
  rcases h.apart_or hs hr hne with hgap | hgap <;> omega

theorem isNumeric_of_covers (hs : s.isForward = true) (hr : r.isNumeric = true)
    (hcovers : r.covers s = true) : s.isNumeric = true := by
  rw [isNumeric_iff] at hr ⊢
  rw [isForward_iff] at hs
  rw [covers_iff] at hcovers
  omega

theorem isNumeric_of_mem_canonical_covers (hr : r ∈ canonical rs) (hs : s ∈ canonical rs)
    (hne : s ≠ r) (hcovers : s.covers r = true) : r.isNumeric = true ∧ s.isNumeric = false := by
  have hforward := isForward_of_mem_canonical hr
  rcases List.mem_append.mp hr with hr | hr <;> rcases List.mem_append.mp hs with hs | hs
  · exact absurd hcovers ((isSpaced_simplify isForward_of_mem_numerals).not_covers hr hs hne)
  · exact ⟨isNumeric_of_mem_simplify_numerals hr, isNumeric_of_mem_simplify_others hs⟩
  · have hnumeric := isNumeric_of_covers hforward (isNumeric_of_mem_simplify_numerals hs) hcovers
    rw [isNumeric_of_mem_simplify_others hr] at hnumeric
    cases hnumeric
  · exact absurd hcovers ((isSpaced_simplify isForward_of_mem_others).not_covers hr hs hne)

theorem nodup_canonical (rs : List CharRange) : (canonical rs).Nodup := by
  have hspaced : ∀ {ss}, IsSpaced ss → ss.Nodup := fun h => h.ascending.imp fun hlow he => by
    rw [he] at hlow
    exact Nat.lt_irrefl _ hlow
  rw [canonical_eq, List.nodup_append]
  refine ⟨hspaced (isSpaced_simplify isForward_of_mem_numerals),
    hspaced (isSpaced_simplify isForward_of_mem_others), fun r hr s hs he => ?_⟩
  have hnumeric := isNumeric_of_mem_simplify_numerals hr
  rw [he, isNumeric_of_mem_simplify_others hs] at hnumeric
  cases hnumeric

theorem simplify_singleton (r : CharRange) : simplify [r] = [r] := by
  simp [simplify, dropCovered, List.eraseDups_cons, merge, sortByLow, insertByLow, join, joinFrom]

theorem points_pair (h : r.covers s = true) : points [r, s] = points [r] := by
  rw [covers_iff] at h
  ext n
  simp only [mem_points, List.mem_cons, List.not_mem_nil, or_false, exists_eq_or_imp,
    exists_eq_left]
  omega

theorem canonical_pair (hr : r.isForward = true) (hs : s.isForward = true)
    (hcovers : r.covers s = true) :
    canonical [r, s] = if s.isNumeric && !r.isNumeric then [s, r] else [r] := by
  have hsame : simplify [r, s] = [r] := by
    rw [← simplify_singleton r, simplify_eq_iff (by simp [hr, hs]) (by simp [hr])]
    exact points_pair hcovers
  have hnone : simplify [] = [] := rfl
  rw [canonical_eq]
  cases hrn : r.isNumeric with
  | true =>
    have hsn := isNumeric_of_covers hs hrn hcovers
    simp [numerals, others, hr, hs, hrn, hsn, hsame, hnone]
  | false =>
    cases hsn : s.isNumeric with
    | true => simp [numerals, others, hr, hs, hrn, hsn, simplify_singleton]
    | false => simp [numerals, others, hr, hs, hrn, hsn, hsame, hnone]

/-- No range of the canonical form covers another one but a range of digits. So of two ranges one of
which covers the other only the larger is left, but for digits in a range of others. -/
theorem covers_canonical (rs : List CharRange) :
    ((canonical rs).Nodup ∧ ∀ r ∈ canonical rs, ∀ s ∈ canonical rs, s ≠ r → s.covers r = true →
      r.isNumeric = true ∧ s.isNumeric = false) ∧
    ∀ r s : CharRange, r.isForward = true → s.isForward = true → r.covers s = true →
      canonical [r, s] = if s.isNumeric && !r.isNumeric then [s, r] else [r] :=
  ⟨⟨nodup_canonical rs, fun _ hr _ hs => isNumeric_of_mem_canonical_covers hr hs⟩,
    fun _ _ => canonical_pair⟩

theorem covers_canonical_letters :
    (isForward ⟨'a', 'z'⟩ = true ∧ isForward ⟨'e', 'i'⟩ = true ∧
      covers ⟨'a', 'z'⟩ ⟨'e', 'i'⟩ = true ∧ canonical [⟨'a', 'z'⟩, ⟨'e', 'i'⟩] = [⟨'a', 'z'⟩]) ∧
    ⟨'0', '9'⟩ ∈ canonical [⟨'/', ':'⟩, ⟨'0', '9'⟩] ∧
      isNumeric ⟨'0', '9'⟩ = true ∧ isNumeric ⟨'/', ':'⟩ = false := by
  obtain ⟨⟨-, hacross⟩, hpair⟩ := covers_canonical [⟨'/', ':'⟩, ⟨'0', '9'⟩]
  have hletters := hpair ⟨'a', 'z'⟩ ⟨'e', 'i'⟩ (by decide) (by decide) (by decide)
  rw [if_neg (by decide)] at hletters
  have hdigits : ⟨'0', '9'⟩ ∈ canonical [⟨'/', ':'⟩, ⟨'0', '9'⟩] := by decide
  exact ⟨⟨by decide, by decide, by decide, hletters⟩, hdigits,
    hacross _ hdigits ⟨'/', ':'⟩ (by decide) (by decide) (by decide)⟩

/-- The digits lie within the range from `/` to `:` and are not dropped. -/
theorem covers_canonical_digits :
    (¬∀ rs, ∀ r ∈ canonical rs, ∀ s ∈ canonical rs, s ≠ r → ¬s.covers r = true) ∧
      ¬∀ r s : CharRange, r.isForward = true → s.isForward = true → r.covers s = true →
        canonical [r, s] = [r] := by
  have hboth : canonical [⟨'/', ':'⟩, ⟨'0', '9'⟩] = [⟨'0', '9'⟩, ⟨'/', ':'⟩] := by decide
  constructor
  · intro h
    have hnone := h [⟨'/', ':'⟩, ⟨'0', '9'⟩]
    rw [hboth] at hnone
    exact hnone ⟨'0', '9'⟩ (by decide) ⟨'/', ':'⟩ (by decide) (by decide) (by decide)
  · intro h
    have hone := h ⟨'/', ':'⟩ ⟨'0', '9'⟩ (by decide) (by decide) (by decide)
    rw [hboth] at hone
    exact absurd hone (by decide)

end PatternBuilder.CharRange
