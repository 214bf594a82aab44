import PatternBuilder.Text

/-!
# Matching flags

The flags a pattern is matched with, and sets of them. A set is written as the letters of its
flags, always in the order `mix`.
-/

namespace PatternBuilder

inductive Flag where
  /-- The line anchors hold at every line boundary. -/
  | multiLine
  | ignoreCase
  /-- Blanks and comments in the pattern stand for nothing. -/
  | extended
  deriving DecidableEq, Repr

namespace Flag

def all : List Flag := [.multiLine, .ignoreCase, .extended]

def letter : Flag → Char
  | .multiLine => 'm'
  | .ignoreCase => 'i'
  | .extended => 'x'

def ofLetter? (c : Char) : Option Flag := all.find? (·.letter == c)

def bit : Flag → Nat
  | .multiLine => 1
  | .ignoreCase => 2
  | .extended => 4

theorem mem_all (f : Flag) : f ∈ all := by cases f <;> decide

end Flag

structure Flags where
  multiLine : Bool := false
  ignoreCase : Bool := false
  extended : Bool := false
  deriving DecidableEq, Repr

namespace Flags

def empty : Flags := {}

instance : Inhabited Flags := ⟨empty⟩

def contains (s : Flags) : Flag → Bool
  | .multiLine => s.multiLine
  | .ignoreCase => s.ignoreCase
  | .extended => s.extended

def set (s : Flags) (f : Flag) (on : Bool) : Flags :=
  match f with
  | .multiLine => { s with multiLine := on }
  | .ignoreCase => { s with ignoreCase := on }
  | .extended => { s with extended := on }

def insert (s : Flags) (f : Flag) : Flags := s.set f true

def erase (s : Flags) (f : Flag) : Flags := s.set f false

def singleton (f : Flag) : Flags := empty.insert f

def isEmpty (s : Flags) : Bool := s == empty

def ofList (fs : List Flag) : Flags := fs.foldl insert empty

def toList (s : Flags) : List Flag := Flag.all.filter s.contains

/-- The letters of the flags, in the order `mix`. -/
def text (s : Flags) : Text := s.toList.map Flag.letter

def number (s : Flags) : Nat := s.toList.foldr (fun f n => f.bit + n) 0

@[simp] theorem contains_empty (f : Flag) : empty.contains f = false := by cases f <;> rfl

theorem contains_set (s : Flags) (f g : Flag) (on : Bool) :
    (s.set f on).contains g = if g = f then on else s.contains g := by
  cases f <;> cases g <;> rfl

@[simp] theorem mem_toList {s : Flags} {f : Flag} : f ∈ s.toList ↔ s.contains f = true := by
  simp [toList, Flag.mem_all]

theorem ext_contains {s t : Flags} (h : ∀ f, s.contains f = t.contains f) : s = t := by
  have hm := h .multiLine
  have hi := h .ignoreCase
  have hx := h .extended
  cases s
  cases t
  simp_all [contains]

end Flags
end PatternBuilder
