import Mathlib.Data.List.Basic
import Mathlib.Data.List.Induction

/-!
# Lists without repetitions

What is kept when only the first of equal elements stays.
-/

namespace PatternBuilder

variable {α β : Type}

theorem forall_mem_eraseDups_map [BEq β] [LawfulBEq β] {f : α → β} {P : β → Prop} {as : List α}
    (h : ∀ a ∈ as, P (f a)) : ∀ b ∈ (as.map f).eraseDups, P b := by
  intro b hb
  obtain ⟨a, ha, rfl⟩ := List.mem_map.mp (List.mem_eraseDups.mp hb)
  exact h a ha

variable [BEq α]

theorem eraseDups_induction {P : List α → Prop} (nil : P [])
    (cons : ∀ a as, P (as.filter fun b => !b == a) → P (a :: as)) (as : List α) : P as := by
  induction hlength : as.length using Nat.strongRecOn generalizing as with
  | _ n ih =>
    cases as with
    | nil => exact nil
    | cons a as =>
      have hless : (as.filter fun b => !b == a).length < n := by
        have hfilter := List.length_filter_le (fun b => !b == a) as
        rw [List.length_cons] at hlength
        omega
      exact cons a as (ih _ hless _ rfl)

theorem eraseDups_ne_nil {as : List α} (h : as ≠ []) : as.eraseDups ≠ [] := by
  obtain ⟨a, as, rfl⟩ := List.exists_cons_of_ne_nil h
  rw [List.eraseDups_cons]
  exact List.cons_ne_nil _ _

theorem eraseDups_words_ne_nil [LawfulBEq α] (g : α → α) {ws : List (List α)} (hne : ws ≠ [])
    (hwords : ∀ w ∈ ws, w ≠ []) :
    (ws.map (List.map g)).eraseDups ≠ [] ∧ ∀ w ∈ (ws.map (List.map g)).eraseDups, w ≠ [] :=
  ⟨eraseDups_ne_nil (mt List.map_eq_nil_iff.mp hne),
    forall_mem_eraseDups_map fun w hw => mt List.map_eq_nil_iff.mp (hwords w hw)⟩

variable [LawfulBEq α]

theorem one_lt_length_eraseDups {as : List α} :
    1 < as.eraseDups.length ↔ ∃ a ∈ as, ∃ b ∈ as, a ≠ b := by
  cases as with
  | nil => simp
  | cons a as =>
    have hother : ∀ b, b ∈ as.filter (fun c => !c == a) ↔ b ∈ as ∧ b ≠ a := by simp
    rw [List.eraseDups_cons, List.length_cons, Nat.lt_add_left_iff_pos, List.length_pos_iff]
    constructor
    · intro hne
      obtain ⟨b, hb⟩ := List.exists_mem_of_ne_nil _ hne
      obtain ⟨hmem, hdiffers⟩ := (hother b).mp (List.mem_eraseDups.mp hb)
      exact ⟨a, List.mem_cons_self, b, List.mem_cons_of_mem a hmem, hdiffers.symm⟩
    · rintro ⟨b, hb, c, hc, hbc⟩
      have hdiffers : ∃ d ∈ a :: as, d ≠ a := by
        by_cases hba : b = a
        · exact ⟨c, hc, fun hca => hbc (hba.trans hca.symm)⟩
        · exact ⟨b, hb, hba⟩
      obtain ⟨d, hd, hda⟩ := hdiffers
      have hmem : d ∈ as := (List.mem_cons.mp hd).resolve_left hda
      exact eraseDups_ne_nil (List.ne_nil_of_mem ((hother d).mpr ⟨hmem, hda⟩))

theorem count_eraseDups_le (as : List α) (a : α) : as.eraseDups.count a ≤ 1 := by
  induction as using eraseDups_induction with
  | nil => simp
  | cons b as ih =>
    rw [List.eraseDups_cons, List.count_cons]
    by_cases hab : b = a
    · subst hab
      have hout : b ∉ (as.filter fun c => !c == b).eraseDups := by
        rw [List.mem_eraseDups]
        simp
      simp [List.count_eq_zero_of_not_mem hout]
    · simpa [hab] using ih

theorem find?_eraseDups (as : List α) (f : α → Bool) : as.eraseDups.find? f = as.find? f := by
  induction as using eraseDups_induction with
  | nil => rfl
  | cons a as ih =>
    rw [List.eraseDups_cons, List.find?_cons, List.find?_cons, ih, List.find?_filter]
    cases ha : f a with
    | true => rfl
    | false =>
      refine congrArg (List.find? · as) (funext fun b => ?_)
      by_cases hb : b = a <;> simp [hb, ha]

theorem filter_eraseDups (as : List α) (p : α → Bool) :
    as.eraseDups.filter p = (as.filter p).eraseDups := by
  induction as using eraseDups_induction with
  | nil => rfl
  | cons a as ih =>
    rw [List.filter_filter] at ih
    rw [List.eraseDups_cons, List.filter_cons, List.filter_cons, ih]
    split
    · rw [List.eraseDups_cons, List.filter_filter]
      simp only [Bool.and_comm]
    next hp =>
      refine congrArg List.eraseDups (List.filter_congr fun b _ => ?_)
      by_cases hb : b = a <;> simp [hb, hp]

theorem eraseDups_map [BEq β] [LawfulBEq β] {f : α → β} (hf : Function.Injective f) (as : List α) :
    (as.map f).eraseDups = as.eraseDups.map f := by
  induction as using eraseDups_induction with
  | nil => rfl
  | cons a as ih =>
    have hsame : ((fun b => !b == f a) ∘ f) = fun b => !b == a := by
      funext b
      by_cases hb : b = a
      · simp [hb]
      · simp [hb, hf.eq_iff]
    rw [List.map_cons, List.eraseDups_cons, List.filter_map, hsame, ih, List.eraseDups_cons,
      List.map_cons]

theorem nodup_eraseDups (as : List α) : as.eraseDups.Nodup :=
  List.nodup_iff_count.mpr fun a => count_eraseDups_le as a

theorem pairwise_idxOf_eraseDups (as : List α) :
    as.eraseDups.Pairwise fun a b => as.idxOf a < as.idxOf b := by
  induction as using List.reverseRecOn with
  | nil => exact .nil
  | append_singleton as b ih =>
    have hbefore : ∀ a ∈ as, (as ++ [b]).idxOf a = as.idxOf a := fun a ha =>
      List.idxOf_append_of_mem ha
    have hkept : as.eraseDups.Pairwise fun a c => (as ++ [b]).idxOf a < (as ++ [b]).idxOf c := by
      refine ih.imp_of_mem fun ha hc hless => ?_
      rwa [hbefore _ (List.mem_eraseDups.mp ha), hbefore _ (List.mem_eraseDups.mp hc)]
    rw [List.eraseDups_append]
    by_cases hb : b ∈ as
    · simpa [List.removeAll, hb] using hkept
    · have hlast : ∀ a ∈ as, (as ++ [b]).idxOf a < (as ++ [b]).idxOf b := by
        intro a ha
        have hless : as.idxOf a < as.length := List.idxOf_lt_length_of_mem ha
        rw [hbefore a ha, List.idxOf_append_of_notMem hb]
        omega
      simpa [List.removeAll, hb, List.eraseDups_cons, List.pairwise_append] using ⟨hkept, hlast⟩

/-- Of the elements behind, those that are there before go. -/
theorem eraseDups_append_eq (as bs : List α) :
    (as ++ bs).eraseDups = as.eraseDups ++ bs.eraseDups.filter fun b => !as.elem b := by
  rw [List.eraseDups_append, List.removeAll, filter_eraseDups]

theorem eraseDups_append_of_subset {as bs : List α} (h : ∀ b ∈ bs, b ∈ as) :
    (as ++ bs).eraseDups = as.eraseDups := by
  rw [eraseDups_append_eq, List.filter_eq_nil_iff.mpr, List.append_nil]
  intro b hb
  simp [h b (List.mem_eraseDups.mp hb)]

theorem eraseDups_append_congr {as as' bs bs' : List α} (ha : as.eraseDups = as'.eraseDups)
    (hb : bs.eraseDups = bs'.eraseDups) : (as ++ bs).eraseDups = (as' ++ bs').eraseDups := by
  have hsame : ∀ b, as.elem b = as'.elem b := fun b => by
    rw [Bool.eq_iff_iff, List.elem_iff, List.elem_iff, ← List.mem_eraseDups, ha, List.mem_eraseDups]
  rw [eraseDups_append_eq, eraseDups_append_eq, ha, hb]
  simp only [hsame]

omit [BEq α] [LawfulBEq α] in
/-- Elements that stand for nothing can be left out. -/
theorem flatMap_filter_eq {f : α → List β} {p : α → Bool} (h : ∀ a, p a = false → f a = [])
    (as : List α) : (as.filter p).flatMap f = as.flatMap f := by
  induction as with
  | nil => rfl
  | cons a as ih =>
    rw [List.filter_cons]
    cases ha : p a with
    | true => simp [ih]
    | false => simp [ih, h a ha]

/-- What elements stand for has the same first occurrences if equal elements are taken once. -/
theorem eraseDups_flatMap_eraseDups [BEq β] [LawfulBEq β] (f : α → List β) (as : List α) :
    (as.eraseDups.flatMap f).eraseDups = (as.flatMap f).eraseDups := by
  induction as using eraseDups_induction with
  | nil => rfl
  | cons a as ih =>
    -- what `a` stands for is there already, so the other places of `a` add nothing
    have hothers : ((as.filter fun b => !b == a).flatMap f).filter (fun x => !(f a).elem x) =
        (as.flatMap f).filter fun x => !(f a).elem x := by
      rw [List.filter_flatMap, List.filter_flatMap, flatMap_filter_eq]
      intro b hb
      obtain rfl : b = a := by simpa using hb
      exact List.filter_eq_nil_iff.mpr fun x hx => by simp [hx]
    rw [List.eraseDups_cons, List.flatMap_cons, List.flatMap_cons, eraseDups_append_eq,
      eraseDups_append_eq, ih, filter_eraseDups, filter_eraseDups, hothers]

theorem eraseDups_filterMap_eraseDups [BEq β] [LawfulBEq β] (f : α → Option β) (as : List α) :
    (as.eraseDups.filterMap f).eraseDups = (as.filterMap f).eraseDups := by
  rw [List.filterMap_eq_flatMap_toList, List.filterMap_eq_flatMap_toList,
    eraseDups_flatMap_eraseDups]

end PatternBuilder
