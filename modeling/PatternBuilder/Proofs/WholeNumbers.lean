import PatternBuilder.Proofs.AnchoredTexts

/-!
# Whole numbers

What the pattern of a whole number matches, within the limits that patterns are compiled with: the
decimal text of the number that is held in 64 bits with a sign. That is the number that was given
exactly if it fits them.
-/

namespace PatternBuilder

open Dialect

theorem mem_signedDecimal {n : Int} {c : Char} (h : c ∈ signedDecimal n) :
    c = '-' ∨ c.isDigit = true := by
  unfold signedDecimal at h
  split at h
  · exact (List.mem_cons.mp h).imp_right isDigit_of_mem_decimal
  · exact .inr (isDigit_of_mem_decimal h)

theorem signedDecimal_not_special {n : Int} : ∀ c ∈ signedDecimal n, c ∉ Escape.special := by
  have hspecial : ∀ c ∈ Escape.special, c ≠ '-' ∧ c.isDigit = false := by decide
  intro c hc hmem
  obtain ⟨hsign, hdigit⟩ := hspecial c hmem
  rcases mem_signedDecimal hc with h | h
  · exact hsign h
  · exact Bool.false_ne_true (hdigit.symm.trans h)

theorem decimal_injective : Function.Injective decimal := by
  intro m n h
  rw [← ofDigitChars_decimal m, h, ofDigitChars_decimal]

theorem signedDecimal_injective : Function.Injective signedDecimal := by
  have hsign : ∀ m n, '-' :: decimal m ≠ decimal n := by
    intro m n h
    have hmem : '-' ∈ decimal n := h ▸ List.mem_cons_self
    exact absurd (isDigit_of_mem_decimal hmem) (by decide)
  intro m n h
  unfold signedDecimal at h
  split at h <;> split at h
  · have habs := decimal_injective (List.cons.inj h).2
    omega
  · exact absurd h (hsign _ _)
  · exact absurd h.symm (hsign _ _)
  · have habs := decimal_injective h
    omega

theorem length_signedDecimal_le (n : Int64) : (signedDecimal n.toInt).length ≤ 20 := by
  have hlow := n.le_toInt
  have hhigh := n.toInt_lt
  have hdigits : (decimal n.toInt.natAbs).length ≤ 19 :=
    (Nat.length_toDigits_le_iff (by decide) (by decide)).mpr (by omega)
  unfold signedDecimal
  split
  · exact Nat.succ_le_succ hdigits
  · exact Nat.le_succ_of_le hdigits

theorem Text.utf8Length_le (t : Text) : t.utf8Length ≤ 4 * t.length := by
  induction t with
  | nil => exact Nat.le_refl 0
  | cons c t ih =>
    have hc := c.utf8Size_le_four
    rw [utf8Length, List.length_cons]
    omega

theorem Atom.alternatives_ofNumber {s : Text} (hs : ∀ c ∈ s, c ∉ Escape.special) :
    alternatives false [ofNumber s] = [s] := by
  unfold ofNumber
  split
  next c hc =>
    obtain rfl := Text.single?_eq_some.mp hc
    have hfits : (char c).fitsClass = true := rfl
    simp [alternatives, hfits, classText?, charText, Escape.general_of_not_special hs]
  next =>
    rw [Escape.general_of_not_special hs]
    cases hfits : (literal s).fitsClass <;> simp [alternatives, hfits, classText?, memberText]

namespace Builder

theorem source_wholeText_int (catalog : Catalog) (n : Int64) :
    ((ofCatalog catalog).wholeText (.leaf (.int n))).source =
      '\\' :: 'A' :: (signedDecimal n.toInt ++ ['\\', 'z']) :=
  source_wholeText_single catalog (gather_leaf rfl rfl rfl)
    (Atom.alternatives_ofNumber signedDecimal_not_special)

/-- The pattern of the whole text compiles within the usual limits, and matches the text and no
other. -/
def Denotes (catalog : Catalog) (v : Value) (s : Text) : Prop :=
  ∃ p, ((ofCatalog catalog).wholeText v).toPattern = .ok p ∧ ∀ t, p.isMatch t = true ↔ t = s

variable {catalog : Catalog}

theorem Denotes.unique {v : Value} {s t : Text} (hs : Denotes catalog v s)
    (ht : Denotes catalog v t) : s = t := by
  obtain ⟨p, hp, hmatch⟩ := hs
  obtain ⟨q, hq, hmatch'⟩ := ht
  obtain rfl : p = q := Except.ok.inj (hp.symm.trans hq)
  exact (hmatch' s).mp ((hmatch s).mpr rfl)

/-- The text is short enough for an automaton. -/
theorem denotes_int (catalog : Catalog) (n : Int64) :
    Denotes catalog (.leaf (.int n)) (signedDecimal n.toInt) := by
  have hsize : 32 * (signedDecimal n.toInt).utf8Length + 272 ≤ 10485760 := by
    have hlength := length_signedDecimal_le n
    have hbytes := (signedDecimal n.toInt).utf8Length_le
    omega
  have hlimit : Limits.standard.automaton = some 10485760 := rfl
  obtain ⟨p, hp, hmatch⟩ := Pattern.isMatch_plain hlimit hsize signedDecimal_not_special
    (signedDecimal_ne_nil n.toInt)
  refine ⟨p, toPatternWithin_eq_ok.mpr ?_, hmatch⟩
  rw [source_wholeText_int]
  exact hp

theorem toInt_ofInt_iff (k : Int) : (Int64.ofInt k).toInt = k ↔
    Int64.minValue.toInt ≤ k ∧ k ≤ Int64.maxValue.toInt := by
  constructor
  · intro h
    exact h ▸ ⟨(Int64.ofInt k).minValue_le_toInt, (Int64.ofInt k).toInt_le⟩
  · rintro ⟨hlow, hhigh⟩
    exact Int64.toInt_ofInt_of_le hlow (Int.lt_add_one_of_le hhigh)

/-- A number is matched by its own text exactly if it fits 64 bits with a sign. -/
theorem denotes_ofWhole_iff {α : Type} [Value.Whole α] (n : α) :
    Denotes catalog (.ofWhole n) (toString (Value.Whole.toInt n)).toList ↔
      Int64.minValue.toInt ≤ Value.Whole.toInt n ∧
        Value.Whole.toInt n ≤ Int64.maxValue.toInt := by
  have hheld := denotes_int catalog (Int64.ofInt (Value.Whole.toInt n))
  rw [← signedDecimal_eq, ← toInt_ofInt_iff]
  constructor
  · intro h
    exact signedDecimal_injective (hheld.unique h)
  · intro h
    rw [h] at hheld
    exact hheld

/-- The pattern of a whole number compiles, and matches its decimal text and no other. For the
numbers that 64 bits hold without a sign this is so as long as they are held with a sign too; from
there on the pattern matches the text of the number that is less by 2 ^ 64. -/
theorem denotes_ofWhole (catalog : Catalog) :
    (∀ n : Int32, Denotes catalog (.ofWhole n) (toString n.toInt).toList) ∧
      (∀ n : Int64, Denotes catalog (.ofWhole n) (toString n.toInt).toList) ∧
      (∀ n : UInt8, Denotes catalog (.ofWhole n) (toString n.toNat).toList) ∧
      (∀ n : UInt32, Denotes catalog (.ofWhole n) (toString n.toNat).toList) ∧
      ∀ n : UInt64,
        (Denotes catalog (.ofWhole n) (toString n.toNat).toList ↔
          (n.toNat : Int) ≤ Int64.maxValue.toInt) ∧
        Denotes catalog (.ofWhole n) (toString (if (n.toNat : Int) ≤ Int64.maxValue.toInt
          then (n.toNat : Int) else n.toNat - UInt64.size)).toList := by
  have hmin : Int64.minValue.toInt = -9223372036854775808 := rfl
  have hmax : Int64.maxValue.toInt = 9223372036854775807 := rfl
  refine ⟨fun n => ?_, fun n => ?_, fun n => ?_, fun n => ?_, fun n => ⟨?_, ?_⟩⟩
  · have hlow := n.le_toInt
    have hhigh := n.toInt_lt
    exact (denotes_ofWhole_iff n).mpr (by simp only [Value.Whole.toInt]; omega)
  · exact (denotes_ofWhole_iff n).mpr ⟨n.minValue_le_toInt, n.toInt_le⟩
  · have hhigh := n.toNat_lt
    exact (denotes_ofWhole_iff n).mpr (by simp only [Value.Whole.toInt]; omega)
  · have hhigh := n.toNat_lt
    exact (denotes_ofWhole_iff n).mpr (by simp only [Value.Whole.toInt]; omega)
  · refine (denotes_ofWhole_iff n).trans ?_
    simp only [Value.Whole.toInt]
    omega
  · have hhigh := n.toNat_lt
    have hheld : (Int64.ofInt (Value.Whole.toInt n)).toInt =
        if (n.toNat : Int) ≤ Int64.maxValue.toInt then (n.toNat : Int)
        else n.toNat - UInt64.size := by
      simp only [Int64.toInt_ofInt, Value.Whole.toInt, Int.bmod, Int64.size, UInt64.size]
      omega
    rw [← hheld, ← signedDecimal_eq]
    exact denotes_int catalog _

theorem denotes_ofWhole_wrapped :
    Denotes .standard (.ofWhole (9223372036854775808 : UInt64)) "-9223372036854775808".toList ∧
      ¬Denotes .standard (.ofWhole (9223372036854775808 : UInt64))
        "9223372036854775808".toList := by
  have hheld : Denotes .standard (.ofWhole (9223372036854775808 : UInt64))
      "-9223372036854775808".toList := denotes_int .standard (-9223372036854775808)
  refine ⟨hheld, fun h => ?_⟩
  exact absurd (hheld.unique h) (by decide)

end Builder
end PatternBuilder
