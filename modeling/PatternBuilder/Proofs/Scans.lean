import Mathlib.Data.List.Basic

/-!
# Scans

What the readers of a text have in common: a scan passes over the characters that are taken up
already, and a run of steps ends with the first that fails.
-/

namespace PatternBuilder

/-- The elements to pass over are counted down, one at a time. -/
structure Skips {α β : Type} (scan : Nat → List α → β) : Prop where
  nil (skip : Nat) : scan skip [] = scan 0 []
  cons (skip : Nat) (x : α) (xs : List α) : scan (skip + 1) (x :: xs) = scan skip xs

namespace Skips

variable {α β : Type} {scan : Nat → List α → β}

theorem drop (h : Skips scan) (skip : Nat) (xs : List α) :
    scan skip xs = scan 0 (xs.drop skip) := by
  induction xs generalizing skip with
  | nil => rw [List.drop_nil, h.nil]
  | cons x xs ih =>
    cases skip with
    | zero => rfl
    | succ skip => rw [h.cons, ih, List.drop_succ_cons]

theorem of_suffix (h : Skips scan) {xs ys : List α} (hs : ys <:+ xs) :
    scan (xs.length - ys.length) xs = scan 0 ys := by
  obtain ⟨zs, rfl⟩ := hs
  rw [h.drop, List.length_append, Nat.add_sub_cancel, List.drop_left]

end Skips

variable {ε α β : Type}

theorem exists_of_bind_eq_ok {x : Except ε α} {f : α → Except ε β} {b : β}
    (h : (x >>= f) = .ok b) : ∃ a, x = .ok a ∧ f a = .ok b := by
  cases x with
  | error e => cases h
  | ok a => exact ⟨a, rfl, h⟩

variable {step : β → α → Except ε β} {s t : β} {xs ys : List α}

theorem exists_of_foldlM_cons {x : α} (h : (x :: xs).foldlM step s = .ok t) :
    ∃ u, step s x = .ok u ∧ xs.foldlM step u = .ok t :=
  exists_of_bind_eq_ok h

theorem exists_of_foldlM_append (h : (xs ++ ys).foldlM step s = .ok t) :
    ∃ u, xs.foldlM step s = .ok u ∧ ys.foldlM step u = .ok t := by
  rw [List.foldlM_append] at h
  exact exists_of_bind_eq_ok h

/-- What every step keeps, a run keeps that does not fail. -/
theorem foldlM_keeps {P : β → Prop} (hstep : ∀ {s t x}, P s → step s x = .ok t → P t) (hs : P s)
    (h : xs.foldlM step s = .ok t) : P t := by
  induction xs generalizing s with
  | nil =>
    cases h
    exact hs
  | cons x xs ih =>
    obtain ⟨u, hu, h⟩ := exists_of_foldlM_cons h
    exact ih (hstep hs hu) h

end PatternBuilder
