import PatternBuilder.Builder
import PatternBuilder.Proofs.WritingParts

/-!
# Composed texts

What holds of the text of a sequence because it holds of the entries. The layout sets its groups
around runs of alternatives only, so there are bars in each of them.
-/

namespace PatternBuilder

namespace Layout

/-- Texts with `P` are composed to texts with `P`. A group is set around those of them that have
`G`, and alternatives do. -/
structure Composes (P G : Text → Prop) : Prop where
  nil : P []
  bar : P ['|']
  append {s t : Text} : P s → P t → P (s ++ t)
  plain {t : Text} : P t → G t → P (Grouping.nonCapture.wrap t)
  bars {s t : Text} : P s → P t → G (s ++ '|' :: t)

variable {β : Type} {P G : Text → Prop} {f : Scope → Item (Clause β) → Text}

def EntriesHave (P : Text → Prop) (f : Scope → Item (Clause β) → Text)
    (ss : List (Slot (Clause β))) : Prop :=
  ∀ c r scope, .entry c r scope ∈ ss → P (f scope ⟨c, r⟩)

namespace EntriesHave

variable {flat solo : Bool} {u : Part (Clause β)} {us : List (Part (Clause β))}

theorem head (h : EntriesHave P f (partsSlots flat solo (u :: us))) :
    P (f (u.scope flat solo us) u.item) :=
  h _ _ _ (List.mem_append_right _ List.mem_cons_self)

theorem tail (h : EntriesHave P f (partsSlots flat solo (u :: us))) :
    EntriesHave P f (partsSlots flat solo us) := by
  intro c r scope hmem
  exact h c r scope (List.mem_append_right _ (List.mem_cons_of_mem _ hmem))

end EntriesHave

namespace Composes

/-- Where not all parts are one run: `s` is what is written of the run up to here. The induction is
on the parts behind. -/
theorem run (hP : Composes P G) {us : List (Part (Clause β))}
    (h : EntriesHave P f (partsSlots false false us)) (multi : Bool) {s : Text} (hs : P s)
    (hmulti : multi = true → G s ∨ us.head?.any Part.isJoined = true)
    (hsingle : multi = false → us.head?.any Part.isJoined = false) :
    P (runText multi s us ++ partsText f false false us) := by
  induction us generalizing s multi with
  | nil =>
    cases multi with
    | true =>
      have hgroup := hP.plain hs ((hmulti rfl).resolve_right (by simp))
      simpa [runText, partsText, Grouping.wrap] using hgroup
    | false => simpa [runText, partsText] using hs
  | cons u us ih =>
    by_cases hjoined : u.isJoined = true
    · cases multi with
      | false =>
        have hahead := hsingle rfl
        simp [hjoined] at hahead
      | true =>
        have halt : P (s ++ '|' :: f (u.scope false false us) u.item) :=
          hP.append hs (hP.append hP.bar h.head)
        have hrun := ih h.tail true halt (fun _ => .inl (hP.bars hs h.head)) Bool.noConfusion
        simpa [runText, partsText, hjoined, Part.scope, Scope.enclose] using hrun
    · have hleft : P (runText multi s (u :: us)) := by
        cases multi with
        | true =>
          have hgroup := hP.plain hs ((hmulti rfl).resolve_right (by simpa using hjoined))
          simpa [runText, hjoined, Grouping.wrap] using hgroup
        | false => simpa [runText] using hs
      have hright := ih h.tail (us.head?.any Part.isJoined) h.head (fun ha => .inr ha) fun ha => ha
      rw [partsText_cons_run f (by simpa using hjoined)]
      exact hP.append hleft hright

theorem flat (hP : Composes P G) {solo : Bool} {us : List (Part (Clause β))}
    (h : EntriesHave P f (partsSlots true solo us)) : P (partsText f true solo us) := by
  induction us with
  | nil => exact hP.nil
  | cons u us ih =>
    have hjoined : P (if u.isJoined then ['|'] else []) := by
      split
      · exact hP.bar
      · exact hP.nil
    have hitem := hP.append (hP.append hjoined h.head) (ih h.tail)
    simpa [partsText, Part.scope, Scope.enclose] using hitem

theorem parts (hP : Composes P G) {us : List (Part (Clause β))}
    (hhead : ∀ u ∈ us.head?, u.separator = none)
    (h : EntriesHave P f (partsSlots (us.tail.all Part.isJoined) (us.length == 1) us)) :
    P (partsText f (us.tail.all Part.isJoined) (us.length == 1) us) := by
  cases us with
  | nil => exact hP.nil
  | cons u us =>
    have hfirst : u.isJoined = false := by simp [Part.isJoined, hhead u rfl]
    rw [List.tail_cons] at h ⊢
    cases hflat : us.all Part.isJoined with
    | true =>
      rw [hflat] at h
      exact hP.flat h
    | false =>
      rw [hflat, length_cons_of_split u hflat] at h
      rw [length_cons_of_split u hflat, partsText_cons_run f hfirst]
      exact hP.run h.tail (us.head?.any Part.isJoined) h.head (fun ha => .inr ha) fun ha => ha

end Composes

end Layout

namespace Builder

variable {P G : Text → Prop} {flags : Flags} {b : Builder}

/-- The source has `P` if what is written at each place has it. -/
theorem render_composed (hP : Layout.Composes P G)
    (hcs : ∀ c ∈ b.clauses, c.isSeparator = true → c.hasContent = false)
    (h : ∀ c r scope, .entry c r scope ∈ Layout.slots b.clauses →
      P ((c.map (render flags)).repeatedText flags scope (r.map (Clause.map (render flags))))) :
    P (b.render flags) := by
  rw [render_eq, Layout.sequenceText_map flags _ hcs]
  refine hP.parts (Layout.head_parts hcs) fun c r scope hmem => ?_
  rw [← Layout.slots_eq hcs] at hmem
  exact h c r scope hmem

end Builder
end PatternBuilder
