import PatternBuilder.Proofs.DoubledGroups

/-!
# Closed sources

The source of a builder is closed, also where it has doubled or hidden groups.
-/

namespace PatternBuilder

open Dialect

namespace Text

theorem IsClosed.of_isFlat {t : Text} (h : t.IsFlat) : t.IsClosed := by
  rcases h with rfl | h
  · exact nil
  · exact h.closes

theorem composes_closed : Layout.Composes IsClosed (fun _ => True) where
  nil := .nil
  bar := .of_isFlat (.inr isStrokes_bar)
  append := .append
  plain h _ := h.plain
  bars _ _ := trivial

end Text

open Text

namespace Options

variable {o : Options} {alternatives : Bool} {t : Text}

theorem isClosed_quantifierText (o : Options) : o.quantifierText.IsClosed :=
  .of_isFlat (isFlat_quantifier o.quantifier)

theorem isClosed_core (h : t.IsClosed) : (o.core alternatives t).IsClosed := by
  unfold core
  split
  · split
    · exact h
    · exact h.plain.append o.isClosed_quantifierText
  · exact h.append o.isClosed_quantifierText

theorem isClosed_alternatives (o : Options) (ignoreCase : Bool) {as : List Atom}
    (h : Atom.AreSound as) :
    IsClosed (['|'].intercalate (Atom.alternatives o.bareDot (Atom.foldWhen ignoreCase as))) :=
  .of_isFlat (composes_flat.alternatives o.bareDot (h.foldWhen ignoreCase).sound)

theorem isClosed_nestedInner (bare : Bool) (h : t.IsClosed) : (o.nestedInner bare t).IsClosed := by
  unfold nestedInner
  split
  · exact isClosed_core h.strip
  · exact isClosed_core h

theorem IsFramed.isClosed_wrap (ho : o.IsFramed) (h : t.IsClosed) :
    (o.grouping.wrap t).IsClosed := by
  by_cases hne : o.grouping = .none
  · rw [hne]
    exact h
  · obtain ⟨p, hp, -, hwrap, -⟩ := Grouping.exists_paren ho.grouping hne
    rw [hwrap, List.append_assoc]
    exact h.paren hp

theorem IsFramed.isClosed_surround (ho : o.IsFramed) (h : t.IsClosed) :
    (o.surround t).IsClosed := by
  rcases ho.decoration with ⟨hbefore, hafter⟩ | ⟨hlook, hafter⟩
  · exact ((IsClosed.of_isFlat (isFlat_anchor hbefore)).append h).append
      (.of_isFlat (isFlat_anchor hafter))
  · obtain ⟨p, hp⟩ := Option.isSome_iff_exists.mp hlook
    obtain ⟨hbefore, hproper⟩ := before_of_lookaround hp
    simpa [surround, hbefore, hafter] using h.paren hproper

end Options

namespace Clause

theorem isClosed_repeatText {t : Text} (h : t.IsClosed) (q : Option Quantifier) :
    (repeatText t (Quantifier.optionText q)).IsClosed := by
  have hquantifier : (Quantifier.optionText q).IsClosed := .of_isFlat (isFlat_quantifier q)
  unfold repeatText
  split
  · exact h
  · split
    · exact h.append hquantifier
    · exact h.plain.append hquantifier

end Clause

namespace Builder

theorem isClosed_text {c : Clause Builder} (h : IsBuiltClause Options.IsFramed c)
    (hsep : c.isSeparator = false) (flags : Flags) (scope : Scope)
    (hnested : ∀ k, c.body = .nested k → (k.render flags).IsClosed) :
    ((c.map (render flags)).text flags scope).IsClosed := by
  rw [Clause.text_eq hsep]
  apply h.options.isClosed_surround
  apply h.options.isClosed_wrap
  obtain ⟨body, o, index⟩ := c
  cases body with
  | atoms as =>
    apply Options.isClosed_core
    exact o.isClosed_alternatives flags.ignoreCase (h.atoms as rfl).1
  | nested k => exact Options.isClosed_nestedInner scope.isBare (hnested k rfl)

theorem BuiltWith.isClosed_render {b : Builder} (h : b.BuiltWith Options.IsFramed) (flags : Flags) :
    (b.render flags).IsClosed := by
  refine h.induct allowsClauses_isFramed fun b hclauses => ?_
  apply render_composed composes_closed
  · intro c hc
    exact (hclauses c hc).1.separator
  · intro c r scope hmem
    obtain ⟨hsep, hc⟩ := Layout.mem_of_mem_slots hmem
    obtain ⟨hclause, hnested⟩ := hclauses c hc
    have htext := isClosed_text hclause hsep flags scope hnested
    cases r with
    | none => exact htext
    | some r => exact Clause.isClosed_repeatText htext r.options.quantifier

end Builder
end PatternBuilder
