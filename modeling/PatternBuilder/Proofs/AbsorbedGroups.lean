import PatternBuilder.Proofs.ClosedSources

/-!
# Absorbed groups

A plain group around all that is nested in a clause gives way to the group that the clause asks for,
so it makes no difference to the source.
-/

namespace PatternBuilder

open Text

theorem Options.nestedText_plain {o : Options} (ho : o.asksForGroup = true) {t : Text}
    (h : t.stripGroup.IsClosed) (bare : Bool) :
    o.nestedText bare (Grouping.nonCapture.wrap t.stripGroup) = o.nestedText bare t := by
  rw [nestedText, if_pos ho, nestedText, if_pos ho, h.stripGroup_plain]

theorem Options.core_grouped (alternatives : Bool) (t : Text) :
    Options.grouped.core alternatives t = t := by
  cases alternatives with
  | false => exact List.append_nil t
  | true => rfl

namespace Builder

variable {b k wrapper : Builder} {o : Options} {flags : Flags}

/-- Clauses with a hole in the place of one nested part. -/
def holed (before : List (Clause Builder)) (o : Options) (index : Nat)
    (behind : List (Clause Builder)) : List (Clause (Option Builder)) :=
  before.map (Clause.map some) ++ ⟨.nested none, o, index⟩ :: behind.map (Clause.map some)

theorem map_getD_map_some (k : Builder) (c : Clause Builder) :
    (c.map some).map (Option.getD · k) = c := by
  obtain ⟨body, o, index⟩ := c
  cases body <;> rfl

theorem map_getD_holed (k : Builder) (before : List (Clause Builder)) (o : Options) (index : Nat)
    (behind : List (Clause Builder)) :
    (holed before o index behind).map (Clause.map (Option.getD · k)) =
      before ++ ⟨.nested k, o, index⟩ :: behind := by
  have hsome : ∀ cs : List (Clause Builder),
      (cs.map (Clause.map some)).map (Clause.map (Option.getD · k)) = cs := by
    intro cs
    rw [List.map_map]
    exact (List.map_congr_left fun c _ => map_getD_map_some k c).trans (List.map_id cs)
  rw [holed, List.map_append, List.map_cons, hsome, hsome]
  rfl

/-- Where one of two nested parts stands, the other may stand if the clause is written alike. -/
theorem render_replaced (h : ∀ bare, o.nestedText bare (k.render flags) =
      o.nestedText bare (b.render flags)) (host : Builder) (before : List (Clause Builder))
    (index : Nat) (behind : List (Clause Builder)) :
    render flags { host with clauses := before ++ ⟨.nested k, o, index⟩ :: behind } =
      render flags { host with clauses := before ++ ⟨.nested b, o, index⟩ :: behind } := by
  rw [render_eq, render_eq, ← map_getD_holed k, ← map_getD_holed b, List.map_map, List.map_map]
  have hkind : ∀ n : Builder, ∀ c : Clause (Option Builder),
      Layout.SameKind c ((c.map (Option.getD · n)).map (render flags)) := by
    intro n c
    exact (Layout.sameKind_map _ c).trans (Layout.sameKind_map _ _)
  apply Layout.sequenceText_congr
  · intro c _
    exact hkind k c
  · intro c _
    exact hkind b c
  · intro c hc hsep scope
    rcases List.mem_append.mp hc with hc | hc
    · obtain ⟨d, -, rfl⟩ := List.mem_map.mp hc
      simp only [Function.comp_apply, map_getD_map_some]
    · rcases List.mem_cons.mp hc with rfl | hc
      · have hmarked : o.isSeparator = false := hsep
        have htext := h scope.isBare
        simpa [Clause.text, Clause.map, Body.map, Clause.isSeparator, hmarked] using htext
      · obtain ⟨d, -, rfl⟩ := List.mem_map.mp hc
        simp only [Function.comp_apply, map_getD_map_some]
  · intro c
    rfl

theorem render_embed_grouped (hwrapper : wrapper.clauses = []) (b : Builder) (flags : Flags) :
    (wrapper.embed b .grouped).render flags =
      Grouping.nonCapture.wrap (b.render flags).stripGroup := by
  rw [render_embed_alone hwrapper, Options.nestedText, if_pos (by decide), Options.dress_eq,
    Options.core_grouped]
  exact List.append_nil _

/-- A builder that is wrapped in a plain group as a whole and then nested, in a clause that asks for
a group, is written as the builder itself, and so are all clauses around. In particular a second
plain group adds nothing to the first. -/
theorem render_absorbed (h : b.BuiltWith Options.IsFramed) (hwrapper : wrapper.clauses = [])
    (flags : Flags) :
    (∀ o : Options, o.asksForGroup = true →
      (∀ bare, o.nestedText bare ((wrapper.embed b .grouped).render flags) =
        o.nestedText bare (b.render flags)) ∧
      ∀ (host : Builder) (before : List (Clause Builder)) (index : Nat)
        (behind : List (Clause Builder)),
        render flags { host with
          clauses := before ++ ⟨.nested (wrapper.embed b .grouped), o, index⟩ :: behind } =
        render flags { host with clauses := before ++ ⟨.nested b, o, index⟩ :: behind }) ∧
      (wrapper.embed (wrapper.embed b .grouped) .grouped).render flags =
        (wrapper.embed b .grouped).render flags := by
  have hstripped := (h.isClosed_render flags).strip
  constructor
  · intro o ho
    have htext : ∀ bare, o.nestedText bare ((wrapper.embed b .grouped).render flags) =
        o.nestedText bare (b.render flags) := by
      intro bare
      rw [render_embed_grouped hwrapper]
      exact Options.nestedText_plain ho hstripped bare
    exact ⟨htext, render_replaced htext⟩
  · rw [render_embed_grouped hwrapper, render_embed_grouped hwrapper, hstripped.stripGroup_plain]

def parentheses : Builder :=
  (empty.find (.ofText [')', '('])).separate.embed
    ((empty.group (.ofTexts [['a', '('], ['b', ')']])).find (.ofChars ['[', ']'])) {}

theorem render_absorbed_parentheses :
    (empty.embed (empty.embed parentheses .grouped)
        { name := some ['w'], quantifier := some .zeroOrOne }).render .empty =
      (empty.embed parentheses
        { name := some ['w'], quantifier := some .zeroOrOne }).render .empty ∧
    (empty.embed (empty.embed parentheses .grouped) .grouped).render .empty =
      "(?:\\)\\(|(?:a\\(|b\\))[\\[\\]])".toList := by
  have hinner : BuiltWith Options.IsFramed
      ((empty.group (.ofTexts [['a', '('], ['b', ')']])).find (.ofChars ['[', ']'])) :=
    .append (.append (.start rfl) (by decide +kernel) (by decide)) (by decide +kernel) (by decide)
  have hbuilt : parentheses.BuiltWith Options.IsFramed :=
    .embed (.separate (.append (.start rfl) (by decide +kernel) (by decide))) hinner (by decide)
  obtain ⟨hasked, htwice⟩ := render_absorbed hbuilt (rfl : empty.clauses = []) .empty
  obtain ⟨-, hplaced⟩ := hasked { name := some ['w'], quantifier := some .zeroOrOne } (by decide)
  exact ⟨hplaced empty [] 0 [], htwice.trans (by decide +kernel)⟩

end Builder
end PatternBuilder
