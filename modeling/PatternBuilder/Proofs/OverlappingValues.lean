import Mathlib.Logic.Relation
import PatternBuilder.Proofs.Contributions

/-!
# Overlapping values

What a value is gathered into depends on its leaves alone. Leaves that are there already add
nothing, sublists do not show, and values with the same leaves in any order and number have the same
ranges and the same loose atoms up to their order.
-/

namespace PatternBuilder

namespace Value

/-- A sublist is dissolved into the list around it, at any depth. -/
inductive Dissolves : Value → Value → Prop where
  | here (us vs ws : List Value) : Dissolves (.list (us ++ .list vs :: ws)) (.list (us ++ vs ++ ws))
  | inside (us : List Value) {v w : Value} (ws : List Value) (h : Dissolves v w) :
      Dissolves (.list (us ++ v :: ws)) (.list (us ++ w :: ws))

def Regrouped : Value → Value → Prop := Relation.EqvGen Dissolves

variable {v w : Value}

theorem Dissolves.leaves_eq (h : Dissolves v w) : v.leaves = w.leaves := by
  induction h with
  | here us vs ws => simp
  | inside us ws h ih => simp [ih]

theorem Regrouped.leaves_eq (h : Regrouped v w) : v.leaves = w.leaves := by
  induction h with
  | rel v w h => exact h.leaves_eq
  | refl v => rfl
  | symm v w h ih => exact ih.symm
  | trans u v w huv hvw ihuv ihvw => exact ihuv.trans ihvw

end Value

namespace Catalog

variable {catalog : Catalog} {ls ms : List Leaf}

theorem coverage_congr (h : ∀ l, l ∈ ls ↔ l ∈ ms) : catalog.coverage ls = catalog.coverage ms :=
  CharRange.canonical_congr fun r => by simp only [List.mem_flatMap, h]

theorem wildcard_gatherLeaves_congr (h : ∀ l, l ∈ ls ↔ l ∈ ms) :
    (catalog.gatherLeaves ls).wildcard = (catalog.gatherLeaves ms).wildcard := by
  rw [Bool.eq_iff_iff, wildcard_gatherLeaves_iff, wildcard_gatherLeaves_iff]
  simp only [h]

theorem perm_keptAtoms (h : ∀ l, l ∈ ls ↔ l ∈ ms) :
    (catalog.keptAtoms ls).Perm (catalog.keptAtoms ms) := by
  rw [List.perm_ext_iff_of_nodup nodup_keptAtoms nodup_keptAtoms]
  intro a
  rw [mem_keptAtoms, mem_keptAtoms, coverage_congr h]
  simp only [h]

theorem eraseDups_contributions_append (h : ∀ m ∈ ms, m ∈ ls) :
    (catalog.contributions (ls ++ ms)).eraseDups = (catalog.contributions ls).eraseDups := by
  unfold contributions
  rw [List.filterMap_append, List.flatMap_append]
  refine eraseDups_append_congr (eraseDups_append_of_subset ?_) (eraseDups_append_of_subset ?_)
  · intro a ha
    obtain ⟨m, hm, hatom⟩ := List.mem_filterMap.mp ha
    exact List.mem_filterMap.mpr ⟨m, h m hm, hatom⟩
  · intro a ha
    obtain ⟨m, hm, hpreset⟩ := List.mem_flatMap.mp ha
    exact List.mem_flatMap.mpr ⟨m, h m hm, hpreset⟩

theorem gatherLeaves_append (h : ∀ m ∈ ms, m ∈ ls) :
    catalog.gatherLeaves (ls ++ ms) = catalog.gatherLeaves ls := by
  have hsame : ∀ l, l ∈ ls ++ ms ↔ l ∈ ls := by
    intro l
    rw [List.mem_append, or_iff_left_of_imp (h l)]
  apply Gathered.ext
  · rw [atoms_gatherLeaves, atoms_gatherLeaves, keptAtoms, keptAtoms, coverage_congr hsame,
      eraseDups_contributions_append h]
  · exact wildcard_gatherLeaves_congr hsame

theorem filter_isLoose_gatherLeaves :
    (catalog.gatherLeaves ls).atoms.filter Atom.isLoose = catalog.keptAtoms ls := by
  have hranges : ((catalog.coverage ls).map Atom.range).filter Atom.isLoose = [] := by
    rw [List.filter_map, List.filter_eq_nil_iff.mpr (fun r _ => Bool.noConfusion), List.map_nil]
  rw [atoms_gatherLeaves, List.filter_append, hranges, List.append_nil]
  exact List.filter_eq_self.mpr fun a => isLoose_of_mem_keptAtoms

theorem filter_not_isLoose_gatherLeaves :
    ((catalog.gatherLeaves ls).atoms.filter fun a => !a.isLoose) =
      (catalog.coverage ls).map .range := by
  have hloose : (catalog.keptAtoms ls).filter (fun a => !a.isLoose) = [] :=
    List.filter_eq_nil_iff.mpr fun a ha => by simp [isLoose_of_mem_keptAtoms ha]
  rw [atoms_gatherLeaves, List.filter_append, hloose, List.nil_append]
  refine List.filter_eq_self.mpr fun a ha => ?_
  obtain ⟨r, -, rfl⟩ := List.mem_map.mp ha
  rfl

/-- Values whose leaves are there already add nothing behind others, sublists do not show, and the
order and number of leaves shows in the order of the loose atoms alone. -/
theorem gather_overlapping (catalog : Catalog) (xs ys : List Value) :
    ((∀ l ∈ (Value.list ys).leaves, l ∈ (Value.list xs).leaves) →
      catalog.gather (.list (xs ++ ys)) = catalog.gather (.list xs)) ∧
    (∀ v, Value.Regrouped (.list xs) v → catalog.gather v = catalog.gather (.list xs)) ∧
    ((∀ l, l ∈ (Value.list xs).leaves ↔ l ∈ (Value.list ys).leaves) →
      (catalog.gather (.list xs)).wildcard = (catalog.gather (.list ys)).wildcard ∧
      ((catalog.gather (.list xs)).atoms.filter fun a => !a.isLoose) =
        ((catalog.gather (.list ys)).atoms.filter fun a => !a.isLoose) ∧
      ((catalog.gather (.list xs)).atoms.filter Atom.isLoose).Perm
        ((catalog.gather (.list ys)).atoms.filter Atom.isLoose)) := by
  refine ⟨fun h => ?_, fun v h => ?_, fun h => ⟨wildcard_gatherLeaves_congr h, ?_, ?_⟩⟩
  · have hleaves : (Value.list (xs ++ ys)).leaves =
        (Value.list xs).leaves ++ (Value.list ys).leaves := by simp
    rw [gather, hleaves]
    exact gatherLeaves_append h
  · rw [gather, gather, h.leaves_eq]
  · rw [gather, gather, filter_not_isLoose_gatherLeaves, filter_not_isLoose_gatherLeaves,
      coverage_congr h]
  · rw [gather, gather, filter_isLoose_gatherLeaves, filter_isLoose_gatherLeaves]
    exact perm_keptAtoms h

def badgeParts : List Value :=
  [.ofText ['a', 'b'], .ofText ['c'], .ofSymbol ['d', 'i', 'g', 'i', 't']]

def badgePartsAgain : List Value :=
  [.ofSymbol ['d', 'i', 'g', 'i', 't'], .list [.ofText ['c'], .ofText ['a', 'b']], .ofText ['c']]

theorem gather_overlapping_badge :
    ((∀ l ∈ (Value.list badgePartsAgain).leaves, l ∈ (Value.list badgeParts).leaves) ∧
      Value.Regrouped (.list badgeParts) (.list [.list badgeParts]) ∧
      ∀ l, l ∈ (Value.list badgeParts).leaves ↔ l ∈ (Value.list badgePartsAgain).leaves) ∧
    standard.gather (.list (badgeParts ++ badgePartsAgain)) = standard.gather (.list badgeParts) ∧
    standard.gather (.list [.list badgeParts]) = standard.gather (.list badgeParts) ∧
    ((standard.gather (.list badgeParts)).atoms.filter Atom.isLoose).Perm
      ((standard.gather (.list badgePartsAgain)).atoms.filter Atom.isLoose) := by
  have hagain : ∀ l ∈ (Value.list badgePartsAgain).leaves, l ∈ (Value.list badgeParts).leaves := by
    decide
  have hbefore : ∀ l ∈ (Value.list badgeParts).leaves,
      l ∈ (Value.list badgePartsAgain).leaves := by
    decide
  have hsublist : Value.Regrouped (.list badgeParts) (.list [.list badgeParts]) :=
    .symm _ _ (.rel _ _ (.here [] badgeParts []))
  have hsame : ∀ l, l ∈ (Value.list badgeParts).leaves ↔
      l ∈ (Value.list badgePartsAgain).leaves := fun l => ⟨hbefore l, hagain l⟩
  obtain ⟨happended, hregrouped, hreordered⟩ :=
    gather_overlapping standard badgeParts badgePartsAgain
  exact ⟨⟨hagain, hsublist, hsame⟩, happended hagain, hregrouped _ hsublist, (hreordered hsame).2.2⟩

end Catalog
end PatternBuilder
