import PatternBuilder.Proofs.GroupOpeners

/-!
# Closed texts

A closed text leaves nothing open: no group, no bracket expression and no escape sequence. Nor does
it close what is open before it. So a scan of what is behind goes on as if the text were not there,
and a group that is set around the text is seen as one group.
-/

namespace PatternBuilder

open Dialect

namespace Text

/-- Whether the groups around the text are closed at the end depends on what comes behind alone. -/
def IsClosed (t : Text) : Prop :=
  ∀ depth u, Mark.closesLast depth (Mark.ofText (t ++ u)) = Mark.closesLast depth (Mark.ofText u)

def LeavesGroups (depth : Nat) (inClass : Bool) (t : Text) : Prop :=
  ∃ s, t = s ++ [')'] ∧ ∀ k u,
    Mark.closesLast (k + depth) (marksFrom inClass (s ++ u)) = Mark.closesLast k (Mark.ofText u)

theorem LeavesGroups.behind {inClass within : Bool} {t : Text} {depth inner : Nat} (s : Text)
    (hs : ∀ k u, Mark.closesLast (k + depth) (marksFrom inClass (s ++ u)) =
      Mark.closesLast (k + inner) (marksFrom within u))
    (h : LeavesGroups inner within t) : LeavesGroups depth inClass (s ++ t) := by
  obtain ⟨r, rfl, hr⟩ := h
  refine ⟨s ++ r, (List.append_assoc _ _ _).symm, ?_⟩
  intro k u
  rw [List.append_assoc, hs, hr]

theorem Closing.leavesGroups {inClass : Bool} {t : Text} {depth : Nat}
    (h : Closing depth inClass t) : LeavesGroups depth inClass t := by
  induction h with
  | last => exact ⟨[], rfl, fun _ _ => rfl⟩
  | @escape depth inClass t c _ ih =>
    refine ih.behind ['\\', c] fun k u => ?_
    cases inClass with
    | false => simp [marksFrom, Mark.ofText, Mark.afterEscape, Mark.closesLast]
    | true => rfl
  | bracket _ ih =>
    refine ih.behind ['['] fun k u => ?_
    simp [marksFrom, Mark.ofText, Mark.closesLast]
  | @unbracket depth inClass t _ ih =>
    refine ih.behind [']'] fun k u => ?_
    cases inClass with
    | false => simp [marksFrom, Mark.ofText, Mark.closesLast]
    | true => rfl
  | opening _ ih =>
    refine ih.behind ['('] fun k u => ?_
    simp [marksFrom, Mark.ofText, Mark.closesLast, Nat.add_assoc]
  | closing _ ih => exact ih.behind [')'] fun _ _ => rfl
  | @member depth c t hc _ ih =>
    refine ih.behind [c] fun k u => ?_
    simp only [List.mem_cons, List.not_mem_nil, or_false, not_or] at hc
    have hscan : Mark.afterBracket (c :: u) = Mark.afterBracket u := by
      rw [Mark.afterBracket]
      · exact hc.1
      · exact hc.2
    simp [marksFrom, hscan]
  | @plain depth c t hc _ ih =>
    exact ih.behind [c] fun k u => closesLast_cons_plain (by simp_all) (k + depth) u

namespace IsClosed

variable {s t : Text}

theorem nil : IsClosed [] := fun _ _ => rfl

theorem append (hs : s.IsClosed) (ht : t.IsClosed) : IsClosed (s ++ t) := by
  intro depth u
  rw [List.append_assoc, hs, ht]

theorem paren {p : Paren} (hp : p.Proper) (h : t.IsClosed) :
    IsClosed (p.opening ++ (t ++ [')'])) := by
  intro depth u
  rw [p.opening_eq_cons]
  simp only [List.cons_append, List.append_assoc, List.nil_append, Mark.ofText,
    Mark.closesLast, Mark.ofText_append_of_plain (Paren.not_structural_of_mem_opening hp),
    Mark.closesLast_plains, h depth.succ]

theorem plain (h : t.IsClosed) : (Grouping.nonCapture.wrap t).IsClosed :=
  h.paren (p := .plain) trivial

theorem isOneGroup_group (h : s.IsClosed) {p : Paren} (hp : p.Proper) (t : Text) :
    isOneGroup (p.opening ++ (s ++ ')' :: t)) = t.isEmpty := by
  have hends : Mark.closesLast 0 (.closing :: Mark.ofText t) = (Mark.ofText t).isEmpty := rfl
  rw [p.opening_eq_cons]
  simp only [isOneGroup, List.cons_append, Mark.ofText, Mark.areOneGroup,
    Mark.ofText_append_of_plain (Paren.not_structural_of_mem_opening hp), Mark.closesLast_plains,
    h 0, hends]
  cases t with
  | nil => rfl
  | cons c t => simpa using Mark.ofText_ne_nil (List.cons_ne_nil c t)

theorem isOneGroup_plain (h : t.IsClosed) : (Grouping.nonCapture.wrap t).isOneGroup = true :=
  h.isOneGroup_group (p := .plain) trivial []

theorem stripGroup_plain (h : t.IsClosed) : (Grouping.nonCapture.wrap t).stripGroup = t :=
  (if_pos h.isOneGroup_plain).trans (List.dropLast_concat ..)

theorem strip (h : t.IsClosed) : t.stripGroup.IsClosed := by
  unfold stripGroup
  split
  next rest =>
    split
    next hone =>
      have hrest : Mark.closesLast 0 (marksFrom false rest) = true := hone
      obtain ⟨s, rfl, hs⟩ := (closing_of_closesLast hrest).leavesGroups
      rw [List.dropLast_concat]
      exact hs
    next => exact h
  next => exact h

end IsClosed

end Text
end PatternBuilder
