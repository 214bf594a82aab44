import PatternBuilder.Atom.Gather
import PatternBuilder.Clause.Text

/-!
# Builders

A builder holds the clauses of a pattern in order, and flags. Its source is derived from them; a
nested builder is written with the flags of the outermost one.
-/

namespace PatternBuilder

structure Written where
  source : Text
  flags : Flags
  deriving DecidableEq, Repr

/-- The pattern in the form `/source/flags`. -/
def Written.text (c : Written) : Text := '/' :: c.source ++ '/' :: c.flags.text

inductive Step (β : Type) where
  | append (v : Value) (o : Options)
  | embed (b : β) (o : Options)
  | separate
  | addFlag (f : Flag)
  | removeFlag (f : Flag)
  /-- Asks for the written pattern. -/
  | write

structure Builder where
  clauses : List (Clause Builder)
  flags : Flags
  catalog : Catalog
  /-- The steps that a reset replays. -/
  recipe : Option (List (Step Builder))
  /-- The written pattern, once it has been asked for and until the next change. -/
  written : Option Written

namespace Builder

mutual

/-- The source under `flags`, whatever the builder's own flags. -/
def render (flags : Flags) : Builder → Text
  | ⟨clauses, _, _, _, _⟩ => sequenceText flags (writeClauses flags clauses)

def writeClauses (flags : Flags) : List (Clause Builder) → List (Clause Text)
  | [] => []
  | c :: cs => writeClause flags c :: writeClauses flags cs

def writeClause (flags : Flags) : Clause Builder → Clause Text
  | ⟨body, options, index⟩ => ⟨writeBody flags body, options, index⟩

def writeBody (flags : Flags) : Body Builder → Body Text
  | .atoms as => .atoms as
  | .nested b => .nested (render flags b)

end

theorem writeBody_eq (flags : Flags) (b : Body Builder) :
    writeBody flags b = b.map (render flags) := by
  cases b <;> simp [writeBody, Body.map]

theorem writeClause_eq (flags : Flags) (c : Clause Builder) :
    writeClause flags c = c.map (render flags) := by
  cases c
  simp [writeClause, writeBody_eq, Clause.map]

theorem writeClauses_eq (flags : Flags) (cs : List (Clause Builder)) :
    writeClauses flags cs = cs.map (Clause.map (render flags)) := by
  induction cs with
  | nil => simp [writeClauses]
  | cons c cs ih => simp [writeClauses, writeClause_eq, ih]

theorem render_eq (flags : Flags) (b : Builder) :
    b.render flags = sequenceText flags (b.clauses.map (Clause.map (render flags))) := by
  cases b
  simp [render, writeClauses_eq]

def ofCatalog (catalog : Catalog) : Builder where
  clauses := []
  flags := .empty
  catalog := catalog
  recipe := none
  written := none

def empty : Builder := ofCatalog .standard

instance : Inhabited Builder := ⟨empty⟩

def size (b : Builder) : Nat := b.clauses.length

def isEmpty (b : Builder) : Bool := b.clauses.isEmpty

/-- Adds a clause behind all others. Its index is the size so far. -/
def push (b : Builder) (body : Body Builder) (o : Options) : Builder :=
  { b with clauses := b.clauses ++ [⟨body, o, b.size⟩], written := none }

def gatheredOptions (g : Gathered) (o : Options) : Options :=
  { o with
    bareDot := g.wildcard
    longTexts := decide (1 < (g.atoms.filter fun a => !a.fitsClass).length)
    isSeparator := false }

def append (b : Builder) (v : Value) (o : Options) : Builder :=
  let g := b.catalog.gather v
  b.push (.atoms g.atoms) (gatheredOptions g o)

def embed (b : Builder) (inner : Builder) (o : Options) : Builder :=
  b.push (.nested inner) { o with isSeparator := false }

def separate (b : Builder) : Builder := b.push (.atoms []) { isSeparator := true }

def setFlag (b : Builder) (f : Flag) (on : Bool) : Builder :=
  { b with flags := b.flags.set f on, written := none }

def addFlag (b : Builder) (f : Flag) : Builder := b.setFlag f true

def removeFlag (b : Builder) (f : Flag) : Builder := b.setFlag f false

def write (b : Builder) : Written × Builder :=
  match b.written with
  | some c => (c, b)
  | none =>
    let c := ⟨b.render b.flags, b.flags⟩
    (c, { b with written := some c })

def pattern (b : Builder) : Written := b.write.1

def source (b : Builder) : Text := b.pattern.source

def play (b : Builder) : Step Builder → Builder
  | .append v o => b.append v o
  | .embed inner o => b.embed inner o
  | .separate => b.separate
  | .addFlag f => b.addFlag f
  | .removeFlag f => b.removeFlag f
  | .write => b.write.2

def playAll (b : Builder) (steps : List (Step Builder)) : Builder := steps.foldl play b

def clear (b : Builder) : Builder := { b with clauses := [], flags := .empty, written := none }

def reset (b : Builder) : Builder := b.clear.playAll (b.recipe.getD [])

def ofRecipe (steps : List (Step Builder)) : Builder := reset { empty with recipe := some steps }

end Builder
end PatternBuilder
