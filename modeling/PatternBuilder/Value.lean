import PatternBuilder.Decimal.Binary64

/-!
# Values

What a caller hands to a clause: a tree of values of mixed kinds. Only the sequence of its leaves
matters, so a tree is read through `Value.leaves`.
-/

namespace PatternBuilder

inductive Leaf where
  | text (t : Text)
  | int (n : Int64)
  | float (x : Binary64)
  | bool (b : Bool)
  /-- The name of a preset; a name that is unknown stands for its own text. -/
  | symbol (name : Text)
  /-- An inclusive range between two texts. -/
  | range (low high : Text)
  deriving DecidableEq, Repr

inductive Value where
  | leaf (l : Leaf)
  | list (vs : List Value)

namespace Value

mutual

def leaves : Value → List Leaf
  | .leaf l => [l]
  | .list vs => leavesOfList vs

def leavesOfList : List Value → List Leaf
  | [] => []
  | v :: vs => v.leaves ++ leavesOfList vs

end

theorem leavesOfList_eq (vs : List Value) : leavesOfList vs = vs.flatMap leaves := by
  induction vs with
  | nil => simp [leavesOfList]
  | cons v vs ih => simp [leavesOfList, ih]

@[simp] theorem leaves_leaf (l : Leaf) : (leaf l).leaves = [l] := by simp [leaves]

@[simp] theorem leaves_list (vs : List Value) : (list vs).leaves = vs.flatMap leaves := by
  simp [leaves, leavesOfList_eq]

def empty : Value := .list []

def ofText (t : Text) : Value := .leaf (.text t)

def ofChar (c : Char) : Value := ofText [c]

def ofBool (b : Bool) : Value := .leaf (.bool b)

def ofFloat (x : Binary64) : Value := .leaf (.float x)

def ofSymbol (name : Text) : Value := .leaf (.symbol name)

def ofTexts (ts : List Text) : Value := .list (ts.map ofText)

def ofChars (cs : List Char) : Value := .list (cs.map ofChar)

def ofCharRange (lo hi : Char) : Value := .leaf (.range [lo] [hi])

class Whole (α : Type) where
  toInt : α → Int

instance : Whole Int32 := ⟨Int32.toInt⟩
instance : Whole Int64 := ⟨Int64.toInt⟩
instance : Whole UInt8 := ⟨fun n => n.toNat⟩
instance : Whole UInt32 := ⟨fun n => n.toNat⟩
instance : Whole UInt64 := ⟨fun n => n.toNat⟩

variable {α : Type} [Whole α]

/-- An integer is kept in 64 bits with a sign, and one that does not fit wraps around. -/
def ofWhole (n : α) : Value := .leaf (.int (Int64.ofInt (Whole.toInt n)))

/-- The bounds of a range of integers are their decimal texts, with no wrapping. -/
def ofWholeRange (lo hi : α) : Value :=
  .leaf (.range (signedDecimal (Whole.toInt lo)) (signedDecimal (Whole.toInt hi)))

end Value
end PatternBuilder
