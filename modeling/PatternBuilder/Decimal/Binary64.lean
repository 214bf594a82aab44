import PatternBuilder.Decimal.Shortest

/-!
# Double precision numbers

A double is kept by its bit pattern. Its text is the shortest decimal that reads back as the same
double, always in positional notation.
-/

namespace PatternBuilder

structure Binary64 where
  bits : UInt64
  deriving DecidableEq, Repr

namespace Binary64

def negative (x : Binary64) : Bool := x.bits.toNat.testBit 63

def exponentField (x : Binary64) : Nat := x.bits.toNat / Nat.pow 2 52 % Nat.pow 2 11

def fraction (x : Binary64) : Nat := x.bits.toNat % Nat.pow 2 52

/-- With `exponent` this gives the magnitude of a finite double, `significand * 2 ^ exponent`. -/
def significand (x : Binary64) : Nat :=
  if x.exponentField = 0 then x.fraction else Nat.pow 2 52 + x.fraction

def exponent (x : Binary64) : Int := (max x.exponentField 1 : Nat) - 1075

/-- The numbers that round to the magnitude. The ends lie halfway to the neighbours, and rounding
to even brings them in when the significand is even. Below a power of two the neighbour is at half
the distance. -/
def tolerance (x : Binary64) : Tolerance :=
  let m := x.significand
  let scale := Nat.pow 2 (x.exponent - 2).toNat
  let gap := if x.fraction = 0 ∧ 1 < x.exponentField then 1 else 2
  { low := (4 * m - gap) * scale
    value := 4 * m * scale
    high := (4 * m + 2) * scale
    den := Nat.pow 2 (2 - x.exponent).toNat
    closed := m % 2 == 0 }

/-- Doubles lie between `10 ^ -324` and `10 ^ 309`. -/
def magnitudeText (x : Binary64) : Text :=
  if x.significand = 0 then ['0']
  else ((x.tolerance.shortest? 309 634).map Scientific.positional).getD []

def text (x : Binary64) : Text :=
  let sign := if x.negative then ['-'] else []
  if x.exponentField = 2047 then
    if x.fraction = 0 then sign ++ ['i', 'n', 'f'] else ['N', 'a', 'N']
  else sign ++ x.magnitudeText

end Binary64
end PatternBuilder
