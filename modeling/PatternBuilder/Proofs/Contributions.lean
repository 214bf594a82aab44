import Mathlib.Data.List.Nodup
import PatternBuilder.Proofs.GatheredAtoms
import PatternBuilder.Proofs.SpacedRanges

/-!
# What leaves contribute

Each leaf of a value contributes by itself: an atom, a range, or the pieces of the preset that it
names. Gathering keeps every loose atom that no range contains, each at the place of its first
contribution, and behind them the canonical form of all ranges. No two texts become the same atom.
-/

namespace PatternBuilder

attribute [ext] Gathered

namespace Leaf

variable (catalog : Catalog)

def pieces (l : Leaf) : List Preset.Piece := (l.preset? catalog).toList.flatMap Preset.pieces

def presetAtoms (l : Leaf) : List Atom := (l.pieces catalog).filterMap Preset.Piece.atom?

def ranges (l : Leaf) : List CharRange :=
  (l.range?.toList ++ (l.pieces catalog).filterMap Preset.Piece.range?).flatMap CharRange.splitCase

end Leaf

namespace Catalog

/-- All contributions of loose atoms, repetitions among them: what stands for a leaf itself, and
behind that what belongs to a preset, once more for each leaf that names it. -/
def contributions (catalog : Catalog) (ls : List Leaf) : List Atom :=
  ls.filterMap (Leaf.atom? catalog) ++ ls.flatMap (Leaf.presetAtoms catalog)

def coverage (catalog : Catalog) (ls : List Leaf) : List CharRange :=
  CharRange.canonical (ls.flatMap (Leaf.ranges catalog))

variable {catalog : Catalog} {ls ms : List Leaf} {a : Atom}

theorem mem_contributions : a ∈ catalog.contributions ls ↔
    ∃ l ∈ ls, l.atom? catalog = some a ∨ a ∈ l.presetAtoms catalog := by
  simp only [contributions, List.mem_append, List.mem_filterMap, List.mem_flatMap, and_or_left,
    exists_or]

/-- A preset that is named again adds nothing that its first name does not. -/
theorem eraseDups_looseAtoms :
    (catalog.looseAtoms ls).eraseDups = (catalog.contributions ls).eraseDups := by
  refine eraseDups_append_congr rfl ?_
  have hpresets : ls.flatMap (Leaf.presetAtoms catalog) =
      (ls.filterMap (Leaf.preset? catalog)).flatMap
        fun p => p.pieces.filterMap Preset.Piece.atom? := by
    rw [List.filterMap_eq_flatMap_toList, List.flatMap_assoc]
    refine congrArg (List.flatMap · ls) (funext fun l => ?_)
    rw [Leaf.presetAtoms, Leaf.pieces, List.filterMap_flatMap]
  rw [List.filterMap_flatMap, presets, eraseDups_flatMap_eraseDups, hpresets]

theorem canonical_ranges : CharRange.canonical (catalog.ranges ls) = catalog.coverage ls := by
  refine CharRange.canonical_congr fun r => ?_
  simp only [ranges, Leaf.ranges, Leaf.pieces, List.mem_flatMap, List.mem_append,
    List.mem_filterMap, mem_presets, Option.mem_toList, Option.mem_def]
  constructor
  · rintro ⟨s, ⟨l, hl, hs⟩ | ⟨q, ⟨p, ⟨l, hl, hp⟩, hq⟩, hs⟩, hr⟩
    · exact ⟨l, hl, s, .inl hs, hr⟩
    · exact ⟨l, hl, s, .inr ⟨q, ⟨p, hp, hq⟩, hs⟩, hr⟩
  · rintro ⟨l, hl, s, hs | ⟨q, ⟨p, hp, hq⟩, hs⟩, hr⟩
    · exact ⟨s, .inl ⟨l, hl, hs⟩, hr⟩
    · exact ⟨s, .inr ⟨q, ⟨p, ⟨l, hl, hp⟩, hq⟩, hs⟩, hr⟩

def keptAtoms (catalog : Catalog) (ls : List Leaf) : List Atom :=
  (catalog.contributions ls).eraseDups.filter fun a => !a.isCharIn (catalog.coverage ls)

theorem atoms_gatherLeaves : (catalog.gatherLeaves ls).atoms =
    catalog.keptAtoms ls ++ (catalog.coverage ls).map .range := by
  rw [gatherLeaves, Atom.combine, canonical_ranges, ← filter_eraseDups, eraseDups_looseAtoms]
  rfl

theorem mem_keptAtoms : a ∈ catalog.keptAtoms ls ↔
    (∃ l ∈ ls, l.atom? catalog = some a ∨ a ∈ l.presetAtoms catalog) ∧
      a.isCharIn (catalog.coverage ls) = false := by
  rw [keptAtoms, List.mem_filter, List.mem_eraseDups, mem_contributions, Bool.not_eq_true']

theorem nodup_keptAtoms : (catalog.keptAtoms ls).Nodup := (nodup_eraseDups _).filter _

theorem pairwise_keptAtoms : (catalog.keptAtoms ls).Pairwise fun a b =>
    (catalog.contributions ls).idxOf a < (catalog.contributions ls).idxOf b :=
  (pairwise_idxOf_eraseDups _).filter _

end Catalog

def Atom.spelled : Atom → Text
  | .range _ => []
  | .char c => [c]
  | .literal t => Escape.unescape t
  | .token t => t

namespace Atom

variable {a : Atom} {t : Text}

theorem ofText_cases (t : Text) : (t = [] ∧ ofText? t = none) ∨
    (∃ c, t = [c] ∧ ofText? t = some (.char c)) ∨
    (t ≠ [] ∧ ∃ chars, '\\' ∈ chars ∧
      ofText? t = some (.literal (Escape.escapeAll chars t))) := by
  unfold ofText?
  split
  next h => exact .inl ⟨h, rfl⟩
  next hne =>
    split
    next c hc => exact .inr (.inl ⟨c, Text.single?_eq_some.mp hc, rfl⟩)
    next =>
      refine .inr (.inr ⟨hne, ?_⟩)
      split
      · exact ⟨Escape.classSpecial, by decide, rfl⟩
      · exact ⟨Escape.special, by decide, rfl⟩

theorem ofText_eq_none_iff : ofText? t = none ↔ t = [] := by
  rcases ofText_cases t with ⟨rfl, he⟩ | ⟨c, rfl, he⟩ | ⟨hne, chars, -, he⟩
  · simp [he]
  · simp [he]
  · simp [he, hne]

/-- Both ways of escaping are undone in the same way. -/
theorem spelled_of_ofText (h : ofText? t = some a) : a.spelled = t := by
  rcases ofText_cases t with ⟨rfl, he⟩ | ⟨c, rfl, he⟩ | ⟨-, chars, hchars, he⟩
  · rw [he] at h
    cases h
  · rw [he] at h
    cases h
    rfl
  · rw [he] at h
    cases h
    exact Escape.unescape_escapeAll hchars t

theorem ofText_injective : Function.Injective ofText? := by
  intro s t h
  cases hs : ofText? s with
  | none =>
    rw [hs] at h
    rw [ofText_eq_none_iff.mp hs, ofText_eq_none_iff.mp h.symm]
  | some a =>
    rw [hs] at h
    rw [← spelled_of_ofText hs, ← spelled_of_ofText h.symm]

theorem isLoose_of_ofText (h : ofText? t = some a) : a.isLoose = true := by
  rcases ofText_cases t with ⟨-, he⟩ | ⟨c, -, he⟩ | ⟨-, chars, -, he⟩
  all_goals
    rw [he] at h
    cases h
  · rfl
  · rfl

theorem isLoose_ofNumber (t : Text) : (ofNumber t).isLoose = true := by
  unfold ofNumber
  split <;> rfl

end Atom

theorem Leaf.isLoose_of_atom {catalog : Catalog} {l : Leaf} {a : Atom}
    (h : l.atom? catalog = some a) : a.isLoose = true := by
  cases l with
  | text t => exact Atom.isLoose_of_ofText h
  | int n =>
    cases h
    exact Atom.isLoose_ofNumber _
  | float x =>
    cases h
    exact Atom.isLoose_ofNumber _
  | bool b => cases b <;> cases h <;> rfl
  | symbol name =>
    rw [atom?] at h
    split at h
    · cases h
    · exact Atom.isLoose_of_ofText h
  | range low high => cases h

theorem Leaf.isLoose_of_mem_presetAtoms {catalog : Catalog} {l : Leaf} {a : Atom}
    (h : a ∈ l.presetAtoms catalog) : a.isLoose = true := by
  obtain ⟨q, -, hq⟩ := List.mem_filterMap.mp h
  cases q with
  | range r => cases hq
  | _ => cases hq; rfl

theorem Preset.wildcard_mem_pieces {p : Preset} : .wildcard ∈ p.pieces ↔ p = .dot := by
  cases p <;> decide

namespace Catalog

variable {catalog : Catalog} {ls ms : List Leaf} {a : Atom}

theorem isLoose_of_mem_keptAtoms (h : a ∈ catalog.keptAtoms ls) : a.isLoose = true := by
  obtain ⟨⟨l, -, hatom | hpreset⟩, -⟩ := mem_keptAtoms.mp h
  · exact Leaf.isLoose_of_atom hatom
  · exact Leaf.isLoose_of_mem_presetAtoms hpreset

theorem wildcard_gatherLeaves_iff : (catalog.gatherLeaves ls).wildcard = true ↔
    ∃ l ∈ ls, l.preset? catalog = some .dot := by
  simp only [gatherLeaves, List.contains_eq_mem, decide_eq_true_eq, List.mem_flatMap,
    Preset.wildcard_mem_pieces, exists_eq_right, mem_presets, Option.mem_def]

theorem nodup_atoms_gatherLeaves : (catalog.gatherLeaves ls).atoms.Nodup := by
  rw [atoms_gatherLeaves, List.nodup_append]
  refine ⟨nodup_keptAtoms, ?_, ?_⟩
  · exact (CharRange.nodup_canonical _).map fun _ _ h => Atom.range.inj h
  · intro a ha b hb he
    obtain ⟨r, -, rfl⟩ := List.mem_map.mp hb
    have hloose := isLoose_of_mem_keptAtoms ha
    rw [he] at hloose
    cases hloose

/-- The atoms of a value are the contributions of its leaves: the loose atoms that no range
contains, each once and in the order of their first contributions, then the ranges. Different texts
contribute different atoms, so that none of them stands for another. -/
theorem contents_gather (catalog : Catalog) (v : Value) :
    (catalog.gather v).atoms.Nodup ∧
    (∃ loose, (catalog.gather v).atoms = loose ++ (catalog.coverage v.leaves).map .range ∧
      (∀ a ∈ loose, a.isLoose = true) ∧
      (∀ a, a ∈ loose ↔
        (∃ l ∈ v.leaves, l.atom? catalog = some a ∨ a ∈ l.presetAtoms catalog) ∧
          a.isCharIn (catalog.coverage v.leaves) = false) ∧
      loose.Pairwise fun a b => (catalog.contributions v.leaves).idxOf a <
        (catalog.contributions v.leaves).idxOf b) ∧
    ((catalog.gather v).wildcard = true ↔ ∃ l ∈ v.leaves, l.preset? catalog = some .dot) ∧
    ∀ s t : Text, s ≠ [] → t ≠ [] → s ≠ t → ∃ a b, (Leaf.text s).atom? catalog = some a ∧
      (Leaf.text t).atom? catalog = some b ∧ a ≠ b := by
  refine ⟨nodup_atoms_gatherLeaves, ⟨catalog.keptAtoms v.leaves, atoms_gatherLeaves, ?_, ?_,
    pairwise_keptAtoms⟩, wildcard_gatherLeaves_iff, ?_⟩
  · exact fun a => isLoose_of_mem_keptAtoms
  · exact fun a => mem_keptAtoms
  · intro s t hs ht hne
    obtain ⟨a, ha⟩ := Option.ne_none_iff_exists'.mp (mt Atom.ofText_eq_none_iff.mp hs)
    obtain ⟨b, hb⟩ := Option.ne_none_iff_exists'.mp (mt Atom.ofText_eq_none_iff.mp ht)
    refine ⟨a, b, ha, hb, fun hsame => hne ?_⟩
    exact Atom.ofText_injective (by rw [ha, hb, hsame])

example : (standard.gather (.list [.ofSymbol ['b', 'l', 'a', 'n', 'k'], .ofText ['x'],
    .list [.ofCharRange 'a' 'f', .ofSymbol ['t', 'a', 'b'], .ofText ['c']], .ofText ['x']])).atoms =
      [.char 'x', .char ' ', .token ['\\', 't'], .range ⟨'a', 'f'⟩] := by
  decide +kernel

theorem contents_gather_backslash : (['\\', '-'] ≠ ([] : Text) ∧ ['-', '\\'] ≠ ([] : Text) ∧
    (['\\', '-'] : Text) ≠ ['-', '\\']) ∧
      ∃ a b, (Leaf.text ['\\', '-']).atom? standard = some a ∧
        (Leaf.text ['-', '\\']).atom? standard = some b ∧ a ≠ b :=
  ⟨⟨by decide, by decide, by decide⟩,
    (contents_gather standard .empty).2.2.2 _ _ (by decide) (by decide) (by decide)⟩

end Catalog
end PatternBuilder
