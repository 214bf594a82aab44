import PatternBuilder.Proofs.FoldedAtoms
import PatternBuilder.Proofs.Parsing
import PatternBuilder.Proofs.Places
import PatternBuilder.Proofs.WritingAtoms
import PatternBuilder.Proofs.WritingParts

/-!
# Writing builders

The source of a builder is the text of its pattern tree, however deep the builder is nested.
-/

namespace PatternBuilder

open Dialect Options

namespace Layout

theorem nodeFrom_map {α δ : Type} (g : Item δ → Node) (h : α → δ) (n : Node) (us : List (Part α)) :
    nodeFrom g n (us.map (Part.map h)) = nodeFrom (fun i => g (i.map h)) n us := by
  induction us generalizing n with
  | nil => rfl
  | cons u us ih =>
    rw [List.map_cons, nodeFrom, nodeFrom, isJoined_map]
    split
    · exact ih _
    · exact congrArg (n.append ·) (ih _)

theorem nodeOfParts_map {α δ : Type} (g : Item δ → Node) (h : α → δ) (us : List (Part α)) :
    nodeOfParts g (us.map (Part.map h)) = nodeOfParts (fun i => g (i.map h)) us := by
  cases us with
  | nil => rfl
  | cons u us => exact nodeFrom_map g h _ us

variable {β : Type}

theorem mem_of_mem_parts {cs : List (Clause β)}
    (hcs : ∀ c ∈ cs, c.isSeparator = true → c.hasContent = false) {u : Part (Clause β)}
    (hu : u ∈ parts cs) : u.item.clause ∈ cs ∧ ∀ r ∈ u.item.repeater, r ∈ cs := by
  have hmem : ∀ c ∈ u.clauses, c ∈ cs := fun c hc =>
    mem_of_mem_kept (kept_eq hcs ▸ List.mem_flatMap.mpr ⟨u, hu, hc⟩)
  refine ⟨hmem _ (by simp [Part.clauses]), fun r hr => hmem r ?_⟩
  have hsome : u.item.repeater = some r := hr
  simp [Part.clauses, hsome]

end Layout

namespace Builder

def IsSpelled (b : Builder) : Prop :=
  ∀ (m : Modes) (flags : Flags), (b.node m flags).repeatsContent = true →
    IsWritten m true (b.render flags) (b.node m flags)

end Builder

structure Clause.IsWritable (c : Clause Builder) : Prop where
  plain : c.options.IsPlain
  separator : c.isSeparator = true → c.hasContent = false
  atoms : ∀ as, c.body = .atoms as → Atom.AreSound as ∧ c.options.AreFor as
  nested : ∀ b, c.body = .nested b → b.IsSpelled

namespace Clause

variable {m : Modes} {flags : Flags} {c r : Clause Builder}

theorem IsWritable.isWritten_text (h : c.IsWritable) (hsep : c.isSeparator = false) (scope : Scope)
    (hcontent : ((c.map (Builder.node m flags)).node m flags).repeatsContent = true) :
    IsWritten m scope.isBare ((c.map (Builder.render flags)).text flags scope)
      ((c.map (Builder.node m flags)).node m flags) := by
  have hmap : (c.map (Builder.render flags)).isSeparator = false := hsep
  rw [Clause.text, hmap, if_neg (by decide)]
  obtain ⟨body, o, index⟩ := c
  cases body with
  | atoms as =>
    obtain ⟨hsound, hfor⟩ := h.atoms as rfl
    exact isWritten_atomsText scope h.plain (hsound.foldWhen flags.ignoreCase)
      (hfor.foldWhen hsound flags.ignoreCase) hcontent
  | nested b =>
    have hb := h.nested b rfl m flags (content_of_repeated (content_of_node hcontent)).1
    exact isWritten_nested h.plain hb.spells hb.empty hcontent

end Clause

namespace Layout

variable {m : Modes} {flags : Flags}

theorem isWritten_item {i : Item (Clause Builder)} (hc : i.clause.IsWritable)
    (hsep : i.clause.isSeparator = false) (hr : ∀ r ∈ i.repeater, r.options.IsPlain) (scope : Scope)
    (hcontent : ((i.map (Clause.map (Builder.node m flags))).node m flags).repeatsContent = true) :
    IsWritten m scope.isBare ((i.map (Clause.map (Builder.render flags))).text flags scope)
      ((i.map (Clause.map (Builder.node m flags))).node m flags) := by
  obtain ⟨c, repeater⟩ := i
  cases repeater with
  | none => exact hc.isWritten_text hsep scope hcontent
  | some r =>
    have hnode : ((⟨c, some r⟩ : Item (Clause Builder)).map
        (Clause.map (Builder.node m flags))).node m flags =
        if (c.map (Builder.node m flags)).node m flags = .empty then
          (c.map (Builder.node m flags)).node m flags
        else r.options.repeated m ((c.map (Builder.node m flags)).node m flags) := by
      rw [← map_getD_eq_repeated]
      rfl
    rw [hnode] at hcontent ⊢
    have hclause : ((c.map (Builder.node m flags)).node m flags).repeatsContent = true := by
      split at hcontent
      · exact hcontent
      · exact (content_of_repeated hcontent).1
    exact (hc.isWritten_text hsep scope hclause).repeatText (hr r rfl) hcontent

end Layout

namespace Builder

theorem isSpelled_of_clauses {b : Builder} (h : ∀ c ∈ b.clauses, c.IsWritable) : b.IsSpelled := by
  intro m flags hcontent
  have hcs : ∀ c ∈ b.clauses, c.isSeparator = true → c.hasContent = false := fun c hc =>
    (h c hc).separator
  rw [node_eq, Layout.node, Layout.parts_map, Layout.nodeOfParts_map] at hcontent ⊢
  rw [render_eq, Layout.sequenceText_map flags _ hcs]
  refine Layout.isWritten_parts (fun u hu scope => ?_) (Layout.head_parts hcs)
  obtain ⟨hclause, hrepeater⟩ := Layout.mem_of_mem_parts hcs hu
  have hsep := (Layout.isWellFormed_parts hcs u hu).clause.1
  exact Layout.isWritten_item (h _ hclause) hsep (fun r hr => (h r (hrepeater r hr)).plain) scope
    ((Layout.hereditary_nodeOfParts Node.isHereditary_repeatsContent).mp hcontent u hu)

end Builder
end PatternBuilder
