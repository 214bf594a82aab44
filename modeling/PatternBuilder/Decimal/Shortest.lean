import PatternBuilder.Decimal

/-!
# Shortest decimals

The shortest decimal that stands for a number, when every number of a given interval does: the
coarsest grid of powers of ten with a point in the interval is taken, and of two such points the
nearer one.
-/

namespace PatternBuilder

/-- A positive number inside the interval of numbers that stand for it. The three bounds are
numerators over `den`; `closed` says that the ends belong to the interval. -/
structure Tolerance where
  low : Nat
  value : Nat
  high : Nat
  den : Nat
  closed : Bool

structure Scientific where
  digits : Nat
  exponent : Int
  deriving DecidableEq, Repr

namespace Tolerance

def contains (t : Tolerance) (num den : Nat) : Bool :=
  if t.closed then
    decide (t.low * den ≤ num * t.den) && decide (num * t.den ≤ t.high * den)
  else
    decide (t.low * den < num * t.den) && decide (num * t.den < t.high * den)

/-- The multiple of `10 ^ exponent` nearest to the value, if one next to it stands for it. Halfway
the larger one is taken. -/
def onGrid (t : Tolerance) (exponent : Int) : Option Scientific :=
  let up := Nat.pow 10 exponent.toNat
  let down := Nat.pow 10 (-exponent).toNat
  let step := up * t.den
  let below := t.value * down / step
  let above := below + 1
  let nearBelow := decide (2 * (t.value * down - below * step) < step)
  match t.contains (below * up) down, t.contains (above * up) down with
  | true, true => some ⟨if nearBelow then below else above, exponent⟩
  | true, false => some ⟨below, exponent⟩
  | false, true => some ⟨above, exponent⟩
  | false, false => none

/-- The first hit on the grids from `10 ^ top` down, over `count` grids. -/
def shortest? (t : Tolerance) (top : Int) (count : Nat) : Option Scientific :=
  (List.range count).findSome? fun (i : Nat) => t.onGrid (top - i)

end Tolerance

/-- The number in positional notation, without a point when it is whole. -/
def Scientific.positional (s : Scientific) : Text :=
  let digits := decimal s.digits
  let places := (-s.exponent).toNat
  if places = 0 then
    digits ++ List.replicate s.exponent.toNat '0'
  else if places < digits.length then
    digits.take (digits.length - places) ++ '.' :: digits.drop (digits.length - places)
  else
    '0' :: '.' :: List.replicate (places - digits.length) '0' ++ digits

end PatternBuilder
