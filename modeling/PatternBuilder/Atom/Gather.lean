import PatternBuilder.Atom
import PatternBuilder.Preset
import PatternBuilder.Value

/-!
# Gathering values into atoms

The leaves of a value contribute loose atoms, presets and ranges. Loose atoms keep the order of
their first occurrence, those of presets after all others; ranges come last in canonical form.
-/

namespace PatternBuilder

/-- The atom of a literal text. A text of several characters is escaped for the place where it will
stand: a class when all but one of its characters are backslashes, else outside of one. -/
def Atom.ofText? (t : Text) : Option Atom :=
  if t = [] then none
  else match t.single? with
    | some c => some (.char c)
    | none =>
      if atMostOnePlain t then some (.literal (Escape.inClass t))
      else some (.literal (Escape.general t))

def Atom.ofNumber (t : Text) : Atom :=
  match t.single? with
  | some c => .char c
  | none => .literal (Escape.general t)

namespace Leaf

def atom? (catalog : Catalog) : Leaf → Option Atom
  | .text t => Atom.ofText? t
  | .int n => some (Atom.ofNumber (signedDecimal n.toInt))
  | .float x => some (Atom.ofNumber x.text)
  | .bool true => some (.literal ['t', 'r', 'u', 'e'])
  | .bool false => some (.literal ['f', 'a', 'l', 's', 'e'])
  | .symbol name => if (catalog.find? name).isSome then none else Atom.ofText? name
  | .range _ _ => none

def preset? (catalog : Catalog) : Leaf → Option Preset
  | .symbol name => catalog.find? name
  | _ => none

/-- A range counts only when both bounds are single characters. -/
def range? : Leaf → Option CharRange
  | .range low high => do return ⟨← low.single?, ← high.single?⟩
  | _ => none

end Leaf

namespace Preset.Piece

def atom? : Piece → Option Atom
  | .token t => some (.token t)
  | .char c => some (.char c)
  | .range _ => none
  | .wildcard => some (.char '.')

def range? : Piece → Option CharRange
  | .range r => some r
  | _ => none

end Preset.Piece

/-- The atoms of a value; `wildcard` says that one of its presets is the wildcard, which makes a
lone dot mean any character. -/
structure Gathered where
  atoms : List Atom
  wildcard : Bool
  deriving DecidableEq, Repr

namespace Catalog

/-- The presets named by the leaves, in the order of their first mention. -/
def presets (catalog : Catalog) (ls : List Leaf) : List Preset :=
  (ls.filterMap (Leaf.preset? catalog)).eraseDups

def looseAtoms (catalog : Catalog) (ls : List Leaf) : List Atom :=
  ls.filterMap (Leaf.atom? catalog) ++
    ((catalog.presets ls).flatMap Preset.pieces).filterMap Preset.Piece.atom?

def ranges (catalog : Catalog) (ls : List Leaf) : List CharRange :=
  (ls.filterMap Leaf.range? ++
    ((catalog.presets ls).flatMap Preset.pieces).filterMap Preset.Piece.range?).flatMap
      CharRange.splitCase

def gatherLeaves (catalog : Catalog) (ls : List Leaf) : Gathered where
  atoms := Atom.combine (catalog.looseAtoms ls) (CharRange.canonical (catalog.ranges ls))
  wildcard := ((catalog.presets ls).flatMap Preset.pieces).contains .wildcard

def gather (catalog : Catalog) (v : Value) : Gathered := catalog.gatherLeaves v.leaves

end Catalog
end PatternBuilder
