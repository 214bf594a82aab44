import PatternBuilder.Decimal

/-!
# Quantifiers

How often something is repeated, and the shortest text for it.
-/

namespace PatternBuilder

inductive Quantifier where
  | zeroOrMore
  | oneOrMore
  | zeroOrOne
  | exactly (n : Nat)
  /-- Either bound may be left open. -/
  | range (min max : Option Nat)
  deriving DecidableEq, Repr

namespace Quantifier

def between (min max : Nat) : Quantifier := .range (some min) (some max)

def atLeast (min : Nat) : Quantifier := .range (some min) none

def atMost (max : Nat) : Quantifier := .range none (some max)

def lower : Quantifier → Nat
  | .zeroOrMore => 0
  | .oneOrMore => 1
  | .zeroOrOne => 0
  | .exactly n => n
  | .range min _ => min.getD 0

/-- `none` stands for no bound. -/
def upper : Quantifier → Option Nat
  | .zeroOrMore => none
  | .oneOrMore => none
  | .zeroOrOne => some 1
  | .exactly n => some n
  | .range _ max => max

def boundText (n : Option Nat) : Text := (n.map decimal).getD []

def bracesText : Quantifier → Text
  | .exactly n => '\x7b' :: decimal n ++ ['\x7d']
  | .range min max => '\x7b' :: boundText min ++ ',' :: boundText max ++ ['\x7d']
  | _ => []

/-- Once is written as nothing and the bounds of a symbol as that symbol; all others are written in
braces. -/
def text (q : Quantifier) : Text :=
  match q.lower, q.upper with
  | 1, some 1 => []
  | 1, none => ['+']
  | 0, none => ['*']
  | 0, some 1 => ['?']
  | _, _ => q.bracesText

def optionText (q : Option Quantifier) : Text := (q.map text).getD []

end Quantifier
end PatternBuilder
