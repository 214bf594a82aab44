import PatternBuilder.Decimal.Binary64

/-!
# Texts of numbers

Every double has a text: the search for its shortest decimal ends on a grid that is finer than the
distance of any two doubles.
-/

namespace PatternBuilder

theorem signedDecimal_ne_nil (n : Int) : signedDecimal n ≠ [] := by
  unfold signedDecimal
  split
  · exact List.cons_ne_nil _ _
  · exact decimal_ne_nil _

namespace Tolerance

/-- The next point of a grid that is finer than the tolerance lies in it. -/
theorem contains_above {t : Tolerance} {down : Nat} (hlow : t.low < t.value)
    (hdown : 0 < down) (hden : 0 < t.den) (hfine : t.value * down + t.den < t.high * down) :
    t.contains (t.value * down / t.den + 1) down = true := by
  have hlower : t.low * down < t.value * down := Nat.mul_lt_mul_of_pos_right hlow hdown
  have hsplit := Nat.div_add_mod (t.value * down) t.den
  have hmod := Nat.mod_lt (t.value * down) hden
  rw [Nat.mul_comm] at hsplit
  have hnum : (t.value * down / t.den + 1) * t.den =
      t.value * down / t.den * t.den + t.den := Nat.succ_mul _ _
  rw [contains, hnum]
  split <;> simp only [Bool.and_eq_true, decide_eq_true_eq] <;> omega

theorem isSome_onGrid {t : Tolerance} {down : Nat} {exponent : Int} (hexp : exponent ≤ 0)
    (hdown : Nat.pow 10 (-exponent).toNat = down)
    (h : t.contains (t.value * down / t.den + 1) down = true) : (t.onGrid exponent).isSome := by
  have hup : Nat.pow 10 exponent.toNat = 1 := by rw [Int.toNat_of_nonpos hexp]
  simp only [onGrid, hup, hdown, Nat.one_mul, Nat.mul_one, h]
  split <;> simp_all

theorem isSome_shortest {t : Tolerance} {top : Int} {count i : Nat} (hi : i < count)
    (h : (t.onGrid (top - i)).isSome) : (t.shortest? top count).isSome := by
  rw [shortest?, List.findSome?_isSome_iff]
  exact ⟨i, List.mem_range.mpr hi, h⟩

end Tolerance

theorem Scientific.positional_ne_nil (s : Scientific) : s.positional ≠ [] := by
  simp only [positional]
  split
  · simp [decimal_ne_nil]
  · split <;> simp

namespace Binary64

theorem isSome_shortest_tolerance {x : Binary64} (h : x.significand ≠ 0) :
    (x.tolerance.shortest? 309 634).isSome := by
  obtain ⟨down, hdown⟩ : ∃ d, Nat.pow 10 (-(309 - (633 : Nat) : Int)).toNat = d := ⟨_, rfl⟩
  have hpowers : ∀ n, n < 1077 → Nat.pow 2 n < down := by
    rw [← hdown]
    decide +kernel
  have hden : x.tolerance.den < down := by
    refine hpowers _ ?_
    unfold exponent
    omega
  have hscale : 0 < Nat.pow 2 (x.exponent - 2).toNat := Nat.two_pow_pos _
  have hlow : x.tolerance.low < x.tolerance.value := by
    refine Nat.mul_lt_mul_of_pos_right ?_ hscale
    split <;> omega
  refine Tolerance.isSome_shortest (i := 633) (by decide)
    (Tolerance.isSome_onGrid (by decide) hdown
      (Tolerance.contains_above hlow (by omega) (Nat.two_pow_pos _) ?_))
  have hhigh : x.tolerance.high = x.tolerance.value + 2 * Nat.pow 2 (x.exponent - 2).toNat :=
    Nat.add_mul _ _ _
  rw [hhigh, Nat.add_mul]
  have hgap : 1 * down ≤ 2 * Nat.pow 2 (x.exponent - 2).toNat * down :=
    Nat.mul_le_mul_right _ (by omega)
  omega

theorem magnitudeText_ne_nil (x : Binary64) : x.magnitudeText ≠ [] := by
  unfold magnitudeText
  split
  · simp
  next h =>
    obtain ⟨s, hs⟩ := Option.isSome_iff_exists.mp (isSome_shortest_tolerance h)
    rw [hs]
    exact s.positional_ne_nil

theorem text_ne_nil (x : Binary64) : x.text ≠ [] := by
  simp only [text]
  split
  · split <;> simp
  · simp [magnitudeText_ne_nil]

end Binary64

end PatternBuilder
