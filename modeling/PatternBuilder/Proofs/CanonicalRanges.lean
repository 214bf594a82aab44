import Mathlib.Data.List.Basic
import Mathlib.Data.Set.Basic
import PatternBuilder.CharRange

/-!
# Canonical ranges

The canonical form of a list of ranges has the same code points as the list, and no reversed range.
-/

namespace PatternBuilder.CharRange

theorem contains_iff {r : CharRange} {c : Char} :
    r.contains c = true ↔ r.lo.toNat ≤ c.toNat ∧ c.toNat ≤ r.hi.toNat := by
  simp [contains, Char.le_def, UInt32.le_iff_toNat_le]

theorem isForward_iff {r : CharRange} : r.isForward = true ↔ r.lo.toNat ≤ r.hi.toNat := by
  simp [isForward, Char.le_def, UInt32.le_iff_toNat_le]

theorem covers_iff {r s : CharRange} :
    r.covers s = true ↔ r.lo.toNat ≤ s.lo.toNat ∧ s.hi.toNat ≤ r.hi.toNat := by
  simp [covers, Char.le_def, UInt32.le_iff_toNat_le]

theorem eq_of_bounds {r s : CharRange} (hlo : r.lo.toNat = s.lo.toNat)
    (hhi : r.hi.toNat = s.hi.toNat) : r = s := by
  cases r
  cases s
  exact congrArg₂ CharRange.mk (Char.toNat_inj.mp hlo) (Char.toNat_inj.mp hhi)

/-- The code points that lie in one of the ranges. Not all of them are characters: a range may go
past the surrogates. -/
def points (rs : List CharRange) : Set Nat := {n | ∃ r ∈ rs, r.lo.toNat ≤ n ∧ n ≤ r.hi.toNat}

def Covered (rs : List CharRange) (c : Char) : Prop := ∃ r ∈ rs, r.contains c = true

variable {r s : CharRange} {rs ss : List CharRange} {c : Char} {n : Nat}

theorem mem_points : n ∈ points rs ↔ ∃ r ∈ rs, r.lo.toNat ≤ n ∧ n ≤ r.hi.toNat := Iff.rfl

theorem mem_points_cons :
    n ∈ points (r :: rs) ↔ (r.lo.toNat ≤ n ∧ n ≤ r.hi.toNat) ∨ n ∈ points rs := by
  simp [mem_points]

theorem points_append : points (rs ++ ss) = points rs ∪ points ss := by
  ext n
  simp only [mem_points, Set.mem_union, List.mem_append, or_and_right, exists_or]

theorem points_congr (h : ∀ r, r ∈ rs ↔ r ∈ ss) : points rs = points ss := by
  simp only [points, h]

theorem covered_iff : Covered rs c ↔ c.toNat ∈ points rs := by
  simp only [Covered, mem_points, contains_iff]

theorem covered_nil : ¬Covered [] c := by
  simp [Covered]

theorem covered_cons : Covered (r :: rs) c ↔ r.contains c = true ∨ Covered rs c := by
  simp [Covered]

theorem covered_append : Covered (rs ++ ss) c ↔ Covered rs c ∨ Covered ss c := by
  simp only [Covered, List.mem_append, or_and_right, exists_or]

/-- A range that covers another one is longer: it leaves less room on both sides. -/
def room (r : CharRange) : Nat := r.lo.toNat + (UInt32.size - r.hi.toNat)

theorem room_lt_of_covers (hne : s ≠ r) (h : s.covers r = true) : s.room < r.room := by
  rw [covers_iff] at h
  have hlarge : s.hi.toNat < UInt32.size := s.hi.val.toNat_lt_size
  have hsame : ¬(s.lo.toNat = r.lo.toNat ∧ s.hi.toNat = r.hi.toNat) := by
    rintro ⟨hlo, hhi⟩
    exact hne (eq_of_bounds hlo hhi)
  unfold room
  omega

/-- Above each range there is one that stays. The induction is on the room that is left. -/
theorem exists_covers_dropCovered (h : r ∈ rs) : ∃ s ∈ dropCovered rs, s.covers r = true := by
  induction hroom : r.room using Nat.strongRecOn generalizing r with
  | _ n ih =>
    by_cases hdrop : rs.eraseDups.any (fun s => s != r && s.covers r) = true
    · obtain ⟨s, hs, hcovers⟩ := List.any_eq_true.mp hdrop
      rw [Bool.and_eq_true, bne_iff_ne] at hcovers
      have hless : s.room < n := hroom ▸ room_lt_of_covers hcovers.1 hcovers.2
      obtain ⟨x, hx, hxs⟩ := ih _ hless (List.mem_eraseDups.mp hs) rfl
      have hsr := hcovers.2
      rw [covers_iff] at hxs hsr
      exact ⟨x, hx, covers_iff.mpr (by omega)⟩
    · refine ⟨r, List.mem_filter.mpr ⟨List.mem_eraseDups.mpr h, ?_⟩, covers_iff.mpr (by omega)⟩
      simpa using hdrop

theorem mem_of_mem_dropCovered (h : r ∈ dropCovered rs) : r ∈ rs :=
  List.mem_eraseDups.mp (List.mem_of_mem_filter h)

theorem points_dropCovered : points (dropCovered rs) = points rs := by
  ext n
  constructor
  · rintro ⟨r, hr, hn⟩
    exact ⟨r, mem_of_mem_dropCovered hr, hn⟩
  · rintro ⟨r, hr, hn⟩
    obtain ⟨s, hs, hcovers⟩ := exists_covers_dropCovered hr
    rw [covers_iff] at hcovers
    exact ⟨s, hs, by omega⟩

theorem mem_insertByLow {x : CharRange} : x ∈ insertByLow r rs ↔ x = r ∨ x ∈ rs := by
  induction rs with
  | nil => simp [insertByLow]
  | cons s rs ih =>
    rw [insertByLow]
    split
    · simp
    · simp [ih, or_left_comm]

theorem mem_sortByLow {x : CharRange} : x ∈ sortByLow rs ↔ x ∈ rs := by
  induction rs with
  | nil => simp [sortByLow]
  | cons r rs ih =>
    rw [sortByLow, List.foldr_cons, mem_insertByLow, List.mem_cons]
    exact or_congr Iff.rfl ih

def Ascending (rs : List CharRange) : Prop := rs.Pairwise fun r s => r.lo.toNat ≤ s.lo.toNat

theorem ascending_insertByLow (h : Ascending rs) : Ascending (insertByLow r rs) := by
  induction rs with
  | nil => exact List.pairwise_singleton _ _
  | cons s rs ih =>
    obtain ⟨hs, hrs⟩ := List.pairwise_cons.mp h
    have hle : r.lo ≤ s.lo ↔ r.lo.toNat ≤ s.lo.toNat := UInt32.le_iff_toNat_le
    rw [insertByLow]
    split
    next hr =>
      have hlow := hle.mp hr
      refine List.pairwise_cons.mpr ⟨fun x hx => ?_, h⟩
      rcases List.mem_cons.mp hx with rfl | hx
      · exact hlow
      · exact Nat.le_trans hlow (hs x hx)
    next hr =>
      have hlow : s.lo.toNat ≤ r.lo.toNat := by
        rw [hle] at hr
        omega
      refine List.pairwise_cons.mpr ⟨fun x hx => ?_, ih hrs⟩
      rcases mem_insertByLow.mp hx with rfl | hx
      · exact hlow
      · exact hs x hx

theorem ascending_sortByLow (rs : List CharRange) : Ascending (sortByLow rs) := by
  induction rs with
  | nil => exact .nil
  | cons r rs ih => exact ascending_insertByLow ih

theorem lo_extendTo (r : CharRange) (hi : Char) : (r.extendTo hi).lo = r.lo := rfl

theorem hi_extendTo (r : CharRange) (hi : Char) :
    (r.extendTo hi).hi.toNat = max r.hi.toNat hi.toNat := by
  have hle : r.hi ≤ hi ↔ r.hi.toNat ≤ hi.toNat := UInt32.le_iff_toNat_le
  unfold extendTo
  split
  next h => exact (Nat.max_eq_right (hle.mp h)).symm
  next h =>
    have hless : hi.toNat ≤ r.hi.toNat := by
      rw [hle] at h
      omega
    exact (Nat.max_eq_left hless).symm

/-- Without a gap between them, a range and its extension over another one are the two together. -/
theorem mem_extendTo_iff (hlow : r.lo.toNat ≤ s.lo.toNat) (ht : r.touches s = true) :
    ((r.extendTo s.hi).lo.toNat ≤ n ∧ n ≤ (r.extendTo s.hi).hi.toNat) ↔
      (r.lo.toNat ≤ n ∧ n ≤ r.hi.toNat) ∨ (s.lo.toNat ≤ n ∧ n ≤ s.hi.toNat) := by
  have hgap : s.lo.toNat ≤ r.hi.toNat + 1 := of_decide_eq_true ht
  rw [hi_extendTo, lo_extendTo]
  omega

theorem isForward_extendTo (hr : r.isForward = true) (hi : Char) :
    (r.extendTo hi).isForward = true := by
  rw [isForward_iff] at hr ⊢
  rw [hi_extendTo, lo_extendTo]
  omega

theorem Ascending.extendTo (h : Ascending (r :: s :: rs)) (hi : Char) :
    Ascending (r.extendTo hi :: rs) := by
  obtain ⟨hr, hrs⟩ := List.pairwise_cons.mp h
  exact List.pairwise_cons.mpr ⟨fun x hx => hr x (List.mem_cons_of_mem s hx),
    (List.pairwise_cons.mp hrs).2⟩

theorem points_joinFrom (h : Ascending (r :: rs)) :
    points (joinFrom r rs) = points (r :: rs) := by
  induction rs generalizing r with
  | nil => rfl
  | cons s rs ih =>
    obtain ⟨hr, hrs⟩ := List.pairwise_cons.mp h
    ext n
    rw [joinFrom]
    split
    next ht =>
      rw [ih (h.extendTo s.hi), mem_points_cons, mem_extendTo_iff (hr s List.mem_cons_self) ht]
      simp only [mem_points_cons, or_assoc]
    next =>
      rw [mem_points_cons, ih hrs, mem_points_cons (r := r)]

theorem points_join (h : Ascending rs) : points (join rs) = points rs := by
  cases rs with
  | nil => rfl
  | cons r rs => exact points_joinFrom h

theorem points_merge : points (merge rs) = points rs := by
  rw [merge, points_join (ascending_sortByLow rs)]
  exact points_congr fun _ => mem_sortByLow

section

variable {P : CharRange → Prop} (hextend : ∀ r s, P r → P s → P (r.extendTo s.hi))

include hextend

/-- What extending keeps, joining keeps. -/
theorem forall_mem_joinFrom (h : ∀ s ∈ r :: rs, P s) : ∀ s ∈ joinFrom r rs, P s := by
  induction rs generalizing r with
  | nil => exact h
  | cons s rs ih =>
    obtain ⟨hr, hs, hrs⟩ : P r ∧ P s ∧ ∀ x ∈ rs, P x := by simpa using h
    rw [joinFrom]
    split
    · exact ih (List.forall_mem_cons.mpr ⟨hextend r s hr hs, hrs⟩)
    · exact List.forall_mem_cons.mpr ⟨hr, ih (List.forall_mem_cons.mpr ⟨hs, hrs⟩)⟩

theorem forall_mem_join (h : ∀ r ∈ rs, P r) : ∀ r ∈ join rs, P r := by
  cases rs with
  | nil => exact h
  | cons r rs => exact forall_mem_joinFrom hextend h

theorem forall_mem_simplify (h : ∀ r ∈ rs, P r) : ∀ r ∈ simplify rs, P r :=
  forall_mem_join hextend fun r hr => h r (mem_of_mem_dropCovered (mem_sortByLow.mp hr))

end

theorem points_simplify : points (simplify rs) = points rs :=
  points_merge.trans points_dropCovered

def numerals (rs : List CharRange) : List CharRange := (rs.filter isForward).filter isNumeric

def others (rs : List CharRange) : List CharRange :=
  (rs.filter isForward).filter fun r => !r.isNumeric

theorem canonical_eq (rs : List CharRange) :
    canonical rs = simplify (numerals rs) ++ simplify (others rs) := rfl

theorem mem_numerals : r ∈ numerals rs ↔ r ∈ rs ∧ r.isForward = true ∧ r.isNumeric = true := by
  simp only [numerals, List.mem_filter, and_assoc]

theorem mem_others : r ∈ others rs ↔ r ∈ rs ∧ r.isForward = true ∧ r.isNumeric = false := by
  simp only [others, List.mem_filter, and_assoc, Bool.not_eq_true']

theorem isForward_of_mem_canonical (h : r ∈ canonical rs) : r.isForward = true := by
  have hextend : ∀ r s : CharRange, r.isForward = true → s.isForward = true →
      (r.extendTo s.hi).isForward = true := fun _ s hr _ => isForward_extendTo hr s.hi
  rcases List.mem_append.mp h with h | h
  · exact forall_mem_simplify hextend (fun r hr => (mem_numerals.mp hr).2.1) r h
  · exact forall_mem_simplify hextend (fun r hr => (mem_others.mp hr).2.1) r h

/-- A reversed range has no code point, so dropping it changes nothing. -/
theorem points_canonical : points (canonical rs) = points rs := by
  rw [canonical_eq, points_append, points_simplify, points_simplify]
  ext n
  constructor
  · rintro (⟨r, hr, hn⟩ | ⟨r, hr, hn⟩)
    · exact ⟨r, (mem_numerals.mp hr).1, hn⟩
    · exact ⟨r, (mem_others.mp hr).1, hn⟩
  · rintro ⟨r, hr, hn⟩
    have hforward : r.isForward = true := isForward_iff.mpr (by omega)
    cases hnumeric : r.isNumeric with
    | true => exact .inl ⟨r, mem_numerals.mpr ⟨hr, hforward, hnumeric⟩, hn⟩
    | false => exact .inr ⟨r, mem_others.mpr ⟨hr, hforward, hnumeric⟩, hn⟩

theorem covered_canonical : Covered (canonical rs) c ↔ Covered rs c := by
  rw [covered_iff, covered_iff, points_canonical]

end PatternBuilder.CharRange
