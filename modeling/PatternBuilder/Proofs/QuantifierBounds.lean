import PatternBuilder.Quantifier

/-!
# Bounds of quantifiers

The text of a quantifier reads back as its bounds, however large they are, and has braces only
where no shorthand has these bounds.
-/

namespace PatternBuilder

structure Bounds where
  lower : Nat
  upper : Option Nat
  deriving DecidableEq, Repr

def Quantifier.bounds (q : Quantifier) : Bounds := ⟨q.lower, q.upper⟩

namespace Bounds

def number? (t : Text) : Option Nat :=
  if t ≠ [] ∧ ∀ c ∈ t, c.isDigit = true then some (Nat.ofDigitChars 10 t 0) else none

def side? (t : Text) : Option (Option Nat) := if t = [] then some none else (number? t).map some

/-- The bounds between two braces: a count, or a comma with a bound on one side or on both. A lower
bound that is left open is zero. -/
def ofInside? (t : Text) : Option Bounds :=
  match t.splitOn ',' with
  | [count] => (number? count).map fun n => ⟨n, some n⟩
  | [min, max] =>
    match side? min, side? max with
    -- A comma alone bounds nothing.
    | some none, some none => none
    | some min, some max => some ⟨min.getD 0, max⟩
    | _, _ => none
  | _ => none

/-- The bounds that the text of a quantifier stands for. Numbers may be of any size here, where the
dialect has words of 64 bits and takes the greatest of them for no bound. -/
def ofText? : Text → Option Bounds
  | [] => some ⟨1, some 1⟩
  | ['*'] => some ⟨0, none⟩
  | ['+'] => some ⟨1, none⟩
  | ['?'] => some ⟨0, some 1⟩
  | '\x7b' :: t => if t.getLast? = some '\x7d' then ofInside? t.dropLast else none
  | _ => none

def shorthands : List Text := [[], ['*'], ['+'], ['?']]

theorem number?_decimal (n : Nat) : number? (decimal n) = some n := by
  have hdigits : ∀ c ∈ decimal n, c.isDigit = true := fun c => isDigit_of_mem_decimal
  rw [number?, if_pos ⟨decimal_ne_nil n, hdigits⟩, ofDigitChars_decimal]

theorem side?_boundText (n : Option Nat) : side? (Quantifier.boundText n) = some n := by
  cases n with
  | none => rfl
  | some n =>
    have htext : Quantifier.boundText (some n) = decimal n := rfl
    rw [htext, side?, if_neg (decimal_ne_nil n), number?_decimal]
    rfl

theorem comma_not_mem_boundText (n : Option Nat) : ',' ∉ Quantifier.boundText n := by
  cases n with
  | none => exact List.not_mem_nil
  | some n => exact fun hc => absurd (isDigit_of_mem_decimal hc) (by decide)

theorem ofText?_braces (t : Text) : ofText? ('\x7b' :: t ++ ['\x7d']) = ofInside? t := by
  have hlast : (t ++ ['\x7d']).getLast? = some '\x7d' := List.getLast?_concat
  rw [List.cons_append, ofText?, if_pos hlast, List.dropLast_concat]

theorem ofInside?_count (n : Nat) : ofInside? (decimal n) = some ⟨n, some n⟩ := by
  have hsplit : (decimal n).splitOn ',' = [decimal n] :=
    List.splitOn_eq_singleton (comma_not_mem_boundText (some n))
  simp only [ofInside?, hsplit, number?_decimal, Option.map_some]

theorem ofInside?_sides {min max : Option Nat} (h : ¬(min = none ∧ max = none)) :
    ofInside? (Quantifier.boundText min ++ ',' :: Quantifier.boundText max) =
      some ⟨min.getD 0, max⟩ := by
  have hsplit : (Quantifier.boundText min ++ ',' :: Quantifier.boundText max).splitOn ',' =
      [Quantifier.boundText min, Quantifier.boundText max] := by
    rw [List.splitOn_append_cons_self_of_not_mem (comma_not_mem_boundText min),
      List.splitOn_eq_singleton (comma_not_mem_boundText max)]
  simp only [ofInside?, hsplit, side?_boundText]
  cases min with
  | some m => rfl
  | none =>
    cases max with
    | some n => rfl
    | none => exact absurd ⟨rfl, rfl⟩ h

end Bounds

namespace Quantifier

open Bounds

theorem ofText?_bracesText {q : Quantifier} (h : ∀ s ∈ shorthands, ofText? s ≠ some q.bounds) :
    q.bracesText.head? = some '\x7b' ∧ ofText? q.bracesText = some q.bounds := by
  cases q with
  | zeroOrMore => exact absurd rfl (h ['*'] (by decide))
  | oneOrMore => exact absurd rfl (h ['+'] (by decide))
  | zeroOrOne => exact absurd rfl (h ['?'] (by decide))
  | exactly n => exact ⟨rfl, (ofText?_braces _).trans (ofInside?_count n)⟩
  | range min max =>
    have hsides : ¬(min = none ∧ max = none) := by
      rintro ⟨rfl, rfl⟩
      exact h ['*'] (by decide) rfl
    exact ⟨rfl, (ofText?_braces _).trans (ofInside?_sides hsides)⟩

/-- A quantifier is written as the shorthand for its bounds, and in braces where there is none. -/
theorem text_cases (q : Quantifier) :
    (q.text ∈ shorthands ∧ ofText? q.text = some q.bounds) ∨
      (q.text = q.bracesText ∧ ∀ s ∈ shorthands, ofText? s ≠ some q.bounds) := by
  unfold text bounds
  split
  case h_5 honce hplus hstar hmaybe =>
    have hother : ∀ b : Bounds, (q.lower = b.lower → q.upper = b.upper → False) →
        some b ≠ some ⟨q.lower, q.upper⟩ := by
      intro b hb he
      obtain rfl := Option.some.inj he
      exact hb rfl rfl
    refine .inr ⟨rfl, fun s hs => ?_⟩
    simp only [shorthands, List.mem_cons, List.not_mem_nil, or_false] at hs
    rcases hs with rfl | rfl | rfl | rfl
    · exact hother ⟨1, some 1⟩ honce
    · exact hother ⟨0, none⟩ hstar
    · exact hother ⟨1, none⟩ hplus
    · exact hother ⟨0, some 1⟩ hmaybe
  all_goals
    rename_i hlower hupper
    rw [hlower, hupper]
    exact .inl ⟨by decide, rfl⟩

/-- The text of a quantifier reads back as its lower and its upper bound, and begins with a brace
exactly if no shorthand has these bounds. -/
theorem bounds_text (q : Quantifier) :
    ofText? q.text = some ⟨q.lower, q.upper⟩ ∧
      (q.text.head? = some '\x7b' ↔ ∀ s ∈ shorthands, ofText? s ≠ some ⟨q.lower, q.upper⟩) := by
  rcases q.text_cases with ⟨hshort, hread⟩ | ⟨hbraces, hnone⟩
  · have hhead : ∀ s ∈ shorthands, s.head? ≠ some '\x7b' := by decide
    exact ⟨hread, fun hbrace => absurd hbrace (hhead _ hshort),
      fun hnone => absurd hread (hnone _ hshort)⟩
  · obtain ⟨hbrace, hread⟩ := ofText?_bracesText hnone
    rw [hbraces]
    exact ⟨hread, fun _ => hnone, fun _ => hbrace⟩

/-- The greatest number of 64 bits is a bound like any other. -/
example : ofText? (atMost 18446744073709551615).text = some ⟨0, some 18446744073709551615⟩ := by
  decide

end Quantifier
end PatternBuilder
