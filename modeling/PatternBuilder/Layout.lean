import PatternBuilder.Clause

/-!
# Layout of clause sequences

Decides which clauses of a sequence count, which repeaters go with which clause, and where groups
around runs of alternatives begin and end. When the whole sequence is one run, it needs no group.
-/

namespace PatternBuilder

structure Scope where
  /-- A group begins right before the clause. -/
  opens : Bool := false
  /-- A group ends right after the clause. -/
  closes : Bool := false
  /-- There is a separator next to the clause. -/
  alternative : Bool := false
  /-- The clause is the whole sequence. -/
  solo : Bool := false
  deriving DecidableEq, Repr

/-- Alternatives inside the clause cannot reach into its neighbours. -/
def Scope.isBare (s : Scope) : Bool := s.alternative || s.solo

def Scope.enclose (s : Scope) (t : Text) : Text :=
  (if s.opens then ['(', '?', ':'] else []) ++ t ++ (if s.closes then [')'] else [])

inductive Slot (α : Type) where
  | separator (a : α)
  | entry (a : α) (repeater : Option α) (scope : Scope)

def Slot.map {α β : Type} (f : α → β) : Slot α → Slot β
  | .separator a => .separator (f a)
  | .entry a r scope => .entry (f a) (r.map f) scope

namespace Layout

variable {β : Type}

/-- A separator without an alternative before it, or a repeater with nothing to repeat. `before` is
the last clause that counted. -/
def isStray (before : Option (Clause β)) (c : Clause β) : Bool :=
  (c.isSeparator && before.all Clause.isSeparator) ||
    (c.isRepeater && !before.any Clause.hasContent)

def dropStrays (before : Option (Clause β)) : List (Clause β) → List (Clause β)
  | [] => []
  | c :: cs => if isStray before c then dropStrays before cs else c :: dropStrays (some c) cs

def dropLastSeparator (cs : List (Clause β)) : List (Clause β) :=
  if cs.getLast?.any Clause.isSeparator then cs.dropLast else cs

def kept (cs : List (Clause β)) : List (Clause β) := dropLastSeparator (dropStrays none cs)

structure Item (α : Type) where
  clause : α
  repeater : Option α

def items : List (Clause β) → List (Item (Clause β))
  | [] => []
  | [c] => [⟨c, none⟩]
  | c :: r :: cs => if r.isRepeater then ⟨c, some r⟩ :: items cs else ⟨c, none⟩ :: items (r :: cs)

/-- Separators stand exactly at every second place; `due` says whether one is next. -/
def alternates (due : Bool) : List (Item (Clause β)) → Bool
  | [] => true
  | i :: is => (i.clause.isSeparator == due) && alternates (!due) is

def startsWithSeparator (is : List (Item (Clause β))) : Bool :=
  is.head?.any fun i => i.clause.isSeparator

/-- Groups are set around each run of alternatives, unless `flat`. `behind` says whether the item
before was a separator. -/
def place (flat solo behind : Bool) : List (Item (Clause β)) → List (Slot (Clause β))
  | [] => []
  | i :: is =>
    if i.clause.isSeparator then .separator i.clause :: place flat solo true is
    else
      let ahead := startsWithSeparator is
      .entry i.clause i.repeater
        { opens := !flat && !behind && ahead
          closes := !flat && behind && !ahead
          alternative := behind || ahead
          solo := solo } :: place flat solo false is

def slots (cs : List (Clause β)) : List (Slot (Clause β)) :=
  let is := items (kept cs)
  place (alternates false is) (is.length == 1) false is

end Layout
end PatternBuilder
