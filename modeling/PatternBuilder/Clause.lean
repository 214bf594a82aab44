import PatternBuilder.Atom
import PatternBuilder.Options

/-!
# Clauses

A clause has atoms or a nested part as its body. The type of nested parts is left open: builders
hold nested builders, and a clause that is ready to be written holds their text.
-/

namespace PatternBuilder

inductive Body (β : Type) where
  | atoms (as : List Atom)
  | nested (b : β)

namespace Body

variable {β γ : Type}

def map (f : β → γ) : Body β → Body γ
  | .atoms as => .atoms as
  | .nested b => .nested (f b)

/-- An empty list of atoms is no content; a nested part always is. -/
def hasContent : Body β → Bool
  | .atoms as => !as.isEmpty
  | .nested _ => true

@[simp] theorem hasContent_map (f : β → γ) (b : Body β) : (b.map f).hasContent = b.hasContent := by
  cases b <;> rfl

end Body

structure Clause (β : Type) where
  body : Body β
  options : Options
  /-- The position among the clauses at the time of appending. -/
  index : Nat

namespace Clause

variable {β γ : Type}

def map (f : β → γ) (c : Clause β) : Clause γ := ⟨c.body.map f, c.options, c.index⟩

def isSeparator (c : Clause β) : Bool := c.options.isSeparator

def hasContent (c : Clause β) : Bool := c.body.hasContent

def atoms (c : Clause β) : List Atom :=
  match c.body with
  | .atoms as => as
  | .nested _ => []

def nested? (c : Clause β) : Option β :=
  match c.body with
  | .atoms _ => none
  | .nested b => some b

/-- A quantifier alone, which repeats the clause before it. -/
def isRepeater (c : Clause β) : Bool :=
  !c.isSeparator && !c.hasContent && c.options.quantifier.isSome && c.options.isUndecorated

@[simp] theorem isSeparator_map (f : β → γ) (c : Clause β) :
    (c.map f).isSeparator = c.isSeparator := rfl

@[simp] theorem hasContent_map (f : β → γ) (c : Clause β) :
    (c.map f).hasContent = c.hasContent := Body.hasContent_map f c.body

@[simp] theorem isRepeater_map (f : β → γ) (c : Clause β) :
    (c.map f).isRepeater = c.isRepeater := by
  simp [isRepeater, map, isSeparator, hasContent]

end Clause
end PatternBuilder
