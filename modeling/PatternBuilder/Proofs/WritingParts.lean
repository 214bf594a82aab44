import PatternBuilder.Proofs.LayoutParts
import PatternBuilder.Proofs.WritingClauses

/-!
# Writing sequences

A sequence of parts is written as the tree of its parts: a group around every run of alternatives
keeps the bars inside.
-/

namespace PatternBuilder.Layout

open Dialect Options

variable {α : Type} {m : Modes} {f : Scope → Item α → Text} {g : Item α → Node}

def AreWritten (m : Modes) (f : Scope → Item α → Text) (g : Item α → Node)
    (us : List (Part α)) : Prop :=
  ∀ u ∈ us, ∀ scope : Scope, IsWritten m scope.isBare (f scope u.item) (g u.item)

theorem isWritten_plain {s : Text} {n : Node} (h : Spells m s n) (hn : n ≠ .empty) :
    IsWritten m false (Grouping.nonCapture.wrap s) n :=
  ⟨h.plain, fun _ => h.hasOuterBar_paren (p := .plain) trivial, by simp [Grouping.wrap, hn]⟩

/-- The run so far, in a group that has been opened if there is more than one alternative. -/
def runText (multi : Bool) (s : Text) (next : List (Part α)) : Text :=
  (if multi then ['(', '?', ':'] else []) ++ s ++
    (if multi && !next.head?.any Part.isJoined then [')'] else [])

theorem partsText_cons_run (f : Scope → Item α → Text) {u : Part α} (hjoined : u.isJoined = false)
    (us : List (Part α)) :
    partsText f false false (u :: us) =
      runText (us.head?.any Part.isJoined) (f (u.scope false false us) u.item) us ++
        partsText f false false us := by
  simp [runText, partsText, hjoined, Part.scope, Scope.enclose]

/-- With nothing joined on either side, bars would show beside the other runs. -/
theorem isBare_scope_alone {u : Part α} (hjoined : u.isJoined = false) {us : List (Part α)}
    (hahead : us.head?.any Part.isJoined = false) : (u.scope false false us).isBare = false := by
  simp [Part.scope, Scope.isBare, hjoined, hahead]

theorem length_cons_of_split (u : Part α) {us : List (Part α)}
    (hsplit : us.all Part.isJoined = false) : ((u :: us).length == 1) = false := by
  cases us with
  | nil => cases hsplit
  | cons v vs => simp

/-- Where not all parts are one run: `s` is what is written of the run up to here and `n` its tree.
The induction is on the parts behind. -/
theorem isWritten_run {us : List (Part α)} (h : AreWritten m f g us) (multi : Bool) {s : Text}
    {n : Node} (hs : Spells m s n)
    (hmulti : multi = true → n ≠ .empty ∨ us.head?.any Part.isJoined = true)
    (hsingle : multi = false → IsWritten m false s n ∧ us.head?.any Part.isJoined = false) :
    IsWritten m false (runText multi s us ++ partsText f false false us) (nodeFrom g n us) := by
  induction us generalizing s n multi with
  | nil =>
    cases multi with
    | true =>
      have hn : n ≠ .empty := (hmulti rfl).resolve_right (by simp)
      simpa [runText, partsText, nodeFrom, Grouping.wrap] using isWritten_plain hs hn
    | false => simpa [runText, partsText, nodeFrom] using (hsingle rfl).1
  | cons u us ih =>
    have hu := h u List.mem_cons_self
    have hus : AreWritten m f g us := fun v hv => h v (List.mem_cons_of_mem u hv)
    rw [nodeFrom]
    by_cases hjoined : u.isJoined = true
    · rw [if_pos hjoined]
      cases multi with
      | false =>
        have hahead := (hsingle rfl).2
        simp [hjoined] at hahead
      | true =>
        have hrun := ih hus true (hs.alt (hu (u.scope false false us)).spells)
          (fun _ => .inl Node.noConfusion) Bool.noConfusion
        simpa [runText, partsText, hjoined, Part.scope, Scope.enclose] using hrun
    · have hfirst : u.isJoined = false := by simpa using hjoined
      rw [if_neg hjoined, partsText_cons_run f hfirst]
      have hleft : IsWritten m false (runText multi s (u :: us)) n := by
        cases multi with
        | true =>
          have hn : n ≠ .empty := (hmulti rfl).resolve_right (by simpa using hjoined)
          simpa [runText, hjoined, Grouping.wrap] using isWritten_plain hs hn
        | false => simpa [runText] using (hsingle rfl).1
      have hright := ih hus (us.head?.any Part.isJoined) (hu (u.scope false false us)).spells
        (fun ha => .inr ha) fun ha => by
          have hwritten := hu (u.scope false false us)
          rw [isBare_scope_alone hfirst ha] at hwritten
          exact ⟨hwritten, ha⟩
      exact hleft.append hright

theorem isWritten_flat {us : List (Part α)} (h : AreWritten m f g us)
    (hjoined : us.all Part.isJoined = true) (solo : Bool) {s : Text} {n : Node}
    (hs : IsWritten m true s n) :
    IsWritten m true (s ++ partsText f true solo us) (nodeFrom g n us) := by
  induction us generalizing s n with
  | nil => simpa [partsText, nodeFrom] using hs
  | cons u us ih =>
    have hu := h u List.mem_cons_self (u.scope true solo us)
    have hus : AreWritten m f g us := fun v hv => h v (List.mem_cons_of_mem u hv)
    rw [List.all_cons, Bool.and_eq_true] at hjoined
    have halt : IsWritten m true (s ++ '|' :: f (u.scope true solo us) u.item)
        (.alt n (g u.item)) :=
      ⟨hs.spells.alt hu.spells, Bool.noConfusion, by simp⟩
    rw [nodeFrom, if_pos hjoined.1]
    simpa [partsText, hjoined.1, Part.scope, Scope.enclose] using ih hus hjoined.2 halt

theorem isWritten_parts {us : List (Part α)} (h : AreWritten m f g us)
    (hhead : ∀ u ∈ us.head?, u.separator = none) :
    IsWritten m true
      (partsText f (us.tail.all Part.isJoined) (us.length == 1) us) (nodeOfParts g us) := by
  cases us with
  | nil => exact ⟨.nil, Bool.noConfusion, by simp [partsText, nodeOfParts]⟩
  | cons u us =>
    have hu := h u List.mem_cons_self
    have hus : AreWritten m f g us := fun v hv => h v (List.mem_cons_of_mem u hv)
    have hfirst : u.isJoined = false := by simp [Part.isJoined, hhead u rfl]
    rw [List.tail_cons, nodeOfParts]
    cases hflat : us.all Part.isJoined with
    | true =>
      have hstart := hu (u.scope true ((u :: us).length == 1) us)
      have hrun := isWritten_flat hus hflat ((u :: us).length == 1)
        ⟨hstart.spells, Bool.noConfusion, hstart.empty⟩
      simpa [partsText, hfirst, Part.scope, Scope.enclose] using hrun
    | false =>
      have hrun := isWritten_run hus (us.head?.any Part.isJoined)
        (hu (u.scope false false us)).spells (fun ha => .inr ha) fun ha => by
          have hwritten := hu (u.scope false false us)
          rw [isBare_scope_alone hfirst ha] at hwritten
          exact ⟨hwritten, ha⟩
      rw [length_cons_of_split u hflat, partsText_cons_run f hfirst]
      exact ⟨hrun.spells, Bool.noConfusion, hrun.empty⟩

end PatternBuilder.Layout
