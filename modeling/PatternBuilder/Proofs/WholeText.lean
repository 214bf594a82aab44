import PatternBuilder.Proofs.AcceptedTexts
import PatternBuilder.Proofs.SpokenPatterns

/-!
# Patterns of whole texts

What a pattern between the anchors of the whole text matches.
-/

namespace PatternBuilder

open Dialect

theorem Layout.node_singleton {m : Modes} {flags : Flags} {c : Clause Node}
    (hsep : c.isSeparator = false) (hrepeater : c.isRepeater = false) :
    node m flags [c] = c.node m flags := by
  have hparts : parts [c] = [⟨none, ⟨c, none⟩⟩] := by
    simp [parts, Progress.step, Progress.add, Progress.start, hsep, hrepeater]
  rw [node, hparts]
  rfl

theorem Dialect.Cursor.exists_whole {R S : Cursor → Cursor → Prop}
    (h : ∀ c d, R c d ↔ c.passed = [] ∧ d.rest = [] ∧ S c d) (t : Text) :
    (∃ u v, t = u ++ v ∧ ∃ d, R ⟨u.reverse, v, Text.utf8Length u⟩ d) ↔
      ∃ d, d.rest = [] ∧ S (.start t) d := by
  simp only [h]
  constructor
  · rintro ⟨u, v, rfl, d, hu, hrest, hS⟩
    obtain rfl := List.reverse_eq_nil_iff.mp hu
    exact ⟨d, hrest, hS⟩
  · rintro ⟨d, hrest, hS⟩
    exact ⟨[], t, rfl, d, rfl, hrest, hS⟩

theorem Dialect.Cursor.exists_passes {s t : Text} :
    (∃ d, d.rest = [] ∧ (Cursor.start t).Passes s d) ↔ t = s := by
  constructor
  · rintro ⟨d, hrest, hpasses, _⟩
    rw [hrest, List.append_nil] at hpasses
    exact hpasses
  · rintro rfl
    exact ⟨⟨t.reverse, [], Text.utf8Length t⟩, rfl, by simp [Cursor.Passes, Cursor.start]⟩

namespace Builder

variable {b : Builder}

theorem Spoken.isMatch_of_isSimple (h : b.Spoken)
    (hhash : b.flags.extended = true → '#' ∉ Text.bare false b.source)
    (hsimple : b.tree.isSimple = true) :
    ∃ p, b.toPatternWithin .unlimited = .ok p ∧ ∀ t, p.isMatch t = true ↔
      ∃ u v, t = u ++ v ∧ ∃ d, b.tree.Reaches ⟨u.reverse, v, Text.utf8Length u⟩ d := by
  obtain ⟨n, hn, halike⟩ := h.parse_compiledText hhash (Node.repeatsSoundly_of_isSimple hsimple)
  obtain ⟨p, hp, hmatch⟩ := Pattern.isMatch_unlimited hn (halike.isSimple.trans hsimple)
  refine ⟨p, toPatternWithin_eq_ok.mpr (h.flags_pattern ▸ hp), fun t => ?_⟩
  simp only [hmatch, halike.reaches]

variable {catalog : Catalog} {v : Value}

theorem spoken_wholeText (hv : v.IsFair catalog) : ((ofCatalog catalog).wholeText v).Spoken :=
  (Spoken.start catalog).anchored hv _ (by simp)

theorem tree_wholeText (catalog : Catalog) (v : Value) :
    ((ofCatalog catalog).wholeText v).tree =
      (Node.anchor .textStart).append
        ((Atom.node {} (catalog.gather v).wildcard (catalog.gather v).atoms).append
          (.anchor .textEnd)) := by
  have hclauses : ((ofCatalog catalog).wholeText v).clauses =
      [⟨.atoms (catalog.gather v).atoms, gatheredOptions (catalog.gather v)
        (.enclosedBy Anchor.textStart Anchor.textEnd), 0⟩] := rfl
  rw [tree, node_eq, hclauses, List.map_singleton]
  refine Layout.node_singleton rfl ?_
  simp [Clause.isRepeater, Clause.map, gatheredOptions, Options.enclosedBy]

theorem isMatch_wholeText (hv : v.IsFair catalog) {L : Text → Prop}
    (h : (Atom.node {} (catalog.gather v).wildcard (catalog.gather v).atoms).Accepts L) :
    ∃ p, ((ofCatalog catalog).wholeText v).toPatternWithin .unlimited = .ok p ∧
      ∀ t, p.isMatch t = true ↔ L t := by
  have htree := tree_wholeText catalog v
  have hsimple : ((ofCatalog catalog).wholeText v).tree.isSimple = true := by
    rw [htree, Node.isHereditary_isSimple.append, Node.isHereditary_isSimple.append,
      Atom.isSimple_node]
    rfl
  obtain ⟨p, hp, hmatch⟩ := (spoken_wholeText hv).isMatch_of_isSimple nofun hsimple
  refine ⟨p, hp, fun t => ?_⟩
  have hreaches : ∀ c d, ((ofCatalog catalog).wholeText v).tree.Reaches c d ↔
      c.passed = [] ∧ d.rest = [] ∧ ∃ u, L u ∧ c.Passes u d := by
    intro c d
    rw [htree, (Node.append_alike _ _).reaches, Node.Reaches]
    simp only [(Node.append_alike _ _).reaches, Node.Reaches, h _ _, Anchor.holds, List.isEmpty_iff]
    constructor
    · rintro ⟨_, ⟨rfl, hpassed⟩, e, ⟨u, hu, hce⟩, rfl, hrest⟩
      exact ⟨hpassed, hrest, u, hu, hce⟩
    · rintro ⟨hpassed, hrest, u, hu, hcd⟩
      exact ⟨c, ⟨rfl, hpassed⟩, d, ⟨u, hu, hcd⟩, rfl, hrest⟩
  rw [hmatch, Cursor.exists_whole hreaches]
  constructor
  · rintro ⟨d, hrest, u, hu, hpasses⟩
    exact Cursor.exists_passes.mp ⟨d, hrest, hpasses⟩ ▸ hu
  · intro ht
    obtain ⟨d, hrest, hpasses⟩ := Cursor.exists_passes.mpr (Eq.refl t)
    exact ⟨d, hrest, t, ht, hpasses⟩

end Builder
end PatternBuilder
