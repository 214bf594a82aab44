import PatternBuilder.Layout

/-!
# Parts of a clause sequence

The clause sequence as it is meant, read from left to right in one pass: a part is a clause with the
repeater that goes with it, and a part behind a separator is one more alternative beside the part
before it.
-/

namespace PatternBuilder.Layout

variable {β γ : Type}

structure Part (α : Type) where
  separator : Option α
  item : Item α

def Item.map {α δ : Type} (f : α → δ) (i : Item α) : Item δ := ⟨f i.clause, i.repeater.map f⟩

def Part.map {α δ : Type} (f : α → δ) (u : Part α) : Part δ := ⟨u.separator.map f, u.item.map f⟩

def Part.isJoined {α : Type} (u : Part α) : Bool := u.separator.isSome

def Part.isOpen (u : Part (Clause β)) : Bool := u.item.clause.hasContent && u.item.repeater.isNone

/-- The parts read so far, the last one first, and the separator behind them. -/
structure Progress (β : Type) where
  read : List (Part (Clause β))
  pending : Option (Clause β)

namespace Progress

def start : Progress β := ⟨[], none⟩

/-- Only the first of several separators counts, and none does before the first part. -/
def separate (p : Progress β) (c : Clause β) : Progress β :=
  if p.read.isEmpty then p else { p with pending := p.pending <|> some c }

/-- A repeater goes with the part directly before it, or with none. -/
def repeatLast (p : Progress β) (r : Clause β) : Progress β :=
  match p.pending, p.read with
  | none, u :: us =>
    if u.isOpen then { p with read := ⟨u.separator, ⟨u.item.clause, some r⟩⟩ :: us } else p
  | _, _ => p

def add (p : Progress β) (c : Clause β) : Progress β := ⟨⟨p.pending, ⟨c, none⟩⟩ :: p.read, none⟩

def step (p : Progress β) (c : Clause β) : Progress β :=
  if c.isSeparator then p.separate c
  else if c.isRepeater then p.repeatLast c
  else p.add c

end Progress

/-- The parts of a clause sequence. A separator behind the last one stands for nothing. -/
def parts (cs : List (Clause β)) : List (Part (Clause β)) :=
  (cs.foldl Progress.step .start).read.reverse

end PatternBuilder.Layout
