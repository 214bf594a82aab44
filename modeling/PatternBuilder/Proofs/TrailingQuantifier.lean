import PatternBuilder.Builder.Vocabulary
import PatternBuilder.Proofs.Places
import PatternBuilder.Proofs.Runs

/-!
# Quantifiers without content

A quantifier around nothing repeats the clause before it, and no other text changes.
-/

namespace PatternBuilder

namespace Layout

variable {β : Type}

structure Progress.IsUnseparated (p : Progress β) : Prop where
  read : ∀ u ∈ p.read, u.separator = none
  pending : p.pending = none

theorem Progress.IsUnseparated.step {p : Progress β} (h : p.IsUnseparated) {c : Clause β}
    (hc : c.isSeparator = false) : (p.step c).IsUnseparated := by
  rw [Progress.step, hc, if_neg (by decide)]
  split
  · unfold repeatLast
    split
    next u us _ hread =>
      split
      · refine ⟨fun v hv => ?_, h.pending⟩
        rcases List.mem_cons.mp hv with rfl | hv
        · exact h.read u (hread ▸ List.mem_cons_self)
        · exact h.read v (hread ▸ List.mem_cons_of_mem u hv)
      · exact h
    next => exact h
  · refine ⟨fun v hv => ?_, rfl⟩
    rcases List.mem_cons.mp hv with rfl | hv
    · exact h.pending
    · exact h.read v hv

theorem Progress.IsUnseparated.foldl {p : Progress β} (h : p.IsUnseparated) {cs : List (Clause β)}
    (hcs : ∀ c ∈ cs, c.isSeparator = false) : (cs.foldl Progress.step p).IsUnseparated := by
  induction cs generalizing p with
  | nil => exact h
  | cons c cs ih =>
    exact ih (h.step (hcs c List.mem_cons_self)) fun d hd => hcs d (List.mem_cons_of_mem c hd)

section

variable {cs : List (Clause β)}

end

variable {flags : Flags} {cs : List (Clause Text)}

end Layout

/-- A nested part counts as content also if it has no text. The quantifier is then written behind
nothing, where it repeats what comes before it or cannot be read. -/
theorem Options.nestedText_nil (o : Options) (bare : Bool) :
    o.nestedText bare [] = o.surround (o.grouping.wrap o.quantifierText) := by
  have hdress : o.dress false [] = o.surround (o.grouping.wrap o.quantifierText) := by
    have hunit : Text.isUnit [] = true := rfl
    simp [dress, hunit]
  unfold nestedText
  split <;> exact hdress

namespace Builder

theorem render_embed_textless {catalog : Catalog} {inner : Builder} {flags : Flags}
    (h : inner.render flags = []) (o : Options) :
    ((ofCatalog catalog).embed inner o).render flags =
      o.surround (o.grouping.wrap o.quantifierText) := by
  rw [render_embed_alone rfl, h, Options.nestedText_nil]

end Builder
end PatternBuilder
