import Mathlib.Data.List.Basic
import Mathlib.Data.List.Induction
import PatternBuilder.Outline
import PatternBuilder.Proofs.LayoutParts

/-!
# The scope of alternatives

In a layout each run of alternatives has exactly one group around it, and no group has anything else
in it. When the whole sequence is one run there is no group at all.
-/

namespace PatternBuilder

namespace Slot

variable {α : Type}

def isSeparator : Slot α → Bool
  | .separator _ => true
  | .entry _ _ _ => false

def scope : Slot α → Scope
  | .separator _ => {}
  | .entry _ _ scope => scope

def marks (s : Slot α) : List Mark :=
  (if s.scope.opens then [.opening] else []) ++ (if s.scope.closes then [.closing] else [])

def clauses : Slot α → List α
  | .separator _ => []
  | .entry a r _ => a :: r.toList

end Slot

namespace Layout

variable {α β : Type}

/-- Clauses and separators by turns; `due` says whether a separator is next. -/
def byTurns (due : Bool) : List (Slot α) → Bool
  | [] => true
  | s :: ss => (s.isSeparator == due) && byTurns (!due) ss

def endsWithSeparator (ss : List (Slot α)) : Bool := ss.getLast?.any Slot.isSeparator

def beginsWithSeparator (ss : List (Slot α)) : Bool := ss.head?.any Slot.isSeparator

/-- Two clauses at least, with a separator between neighbours. -/
structure IsRun (run : List (Slot α)) : Prop where
  turns : byTurns false run = true
  last : endsWithSeparator run = false
  several : 2 ≤ run.countP fun s => !s.isSeparator

/-- No separator leads on from the run to what is around it. -/
structure IsMaximalRun (before run after : List (Slot α)) : Prop where
  run : IsRun run
  before : endsWithSeparator before = false
  after : beginsWithSeparator after = false

/-- What lies between the opening of a group and the first closing behind it. -/
structure IsSpan (span : List (Slot α)) : Prop where
  opens : ∃ s ∈ span.head?, s.scope.opens = true
  closes : ∃ s ∈ span.getLast?, s.scope.closes = true
  inside : ∀ s ∈ span.dropLast, s.scope.closes = false

def IsInRun (before : List (Slot α)) (s : Slot α) (after : List (Slot α)) : Prop :=
  ∃ left l r right, before = left ++ l ∧ after = r ++ right ∧
    IsMaximalRun left (l ++ s :: r) right

def IsInSpan (before : List (Slot α)) (s : Slot α) (after : List (Slot α)) : Prop :=
  ∃ left l r right, before = left ++ l ∧ after = r ++ right ∧ IsSpan (l ++ s :: r)

structure IsScoped (ss : List (Slot α)) : Prop where
  /-- A separator is neither first nor last nor next to another one. -/
  between : ∀ before s after, ss = before ++ s :: after → s.isSeparator = true →
    (before ≠ [] ∧ endsWithSeparator before = false) ∧
      after ≠ [] ∧ beginsWithSeparator after = false
  /-- Each group that opens closes before the next one opens. -/
  paired : ∃ n, ss.flatMap Slot.marks = (List.replicate n [Mark.opening, Mark.closing]).flatten
  /-- The whole is one run without a group, or every separator lies in a group and every group
  holds one run, all of it and nothing else. -/
  grouped :
    (byTurns false ss = true ∧ ∀ s ∈ ss, s.scope.opens = false ∧ s.scope.closes = false) ∨
    ((∀ before s after, ss = before ++ s :: after → s.isSeparator = true →
        IsInSpan before s after) ∧
      ∀ before span after, ss = before ++ span ++ after → IsSpan span →
        IsMaximalRun before span after)
  /-- Exactly the members of runs are alternatives. -/
  alternative : ∀ before s after, ss = before ++ s :: after → s.isSeparator = false →
    (s.scope.alternative = true ↔ IsInRun before s after)

section

variable {s : Slot α} {ss before after : List (Slot α)}

@[simp] theorem endsWithSeparator_nil : endsWithSeparator ([] : List (Slot α)) = false := rfl

@[simp] theorem beginsWithSeparator_nil : beginsWithSeparator ([] : List (Slot α)) = false := rfl

@[simp] theorem beginsWithSeparator_cons : beginsWithSeparator (s :: ss) = s.isSeparator := rfl

@[simp] theorem endsWithSeparator_concat : endsWithSeparator (ss ++ [s]) = s.isSeparator := by
  simp [endsWithSeparator]

theorem endsWithSeparator_append_cons :
    endsWithSeparator (before ++ s :: after) = endsWithSeparator (s :: after) := by
  rw [endsWithSeparator, endsWithSeparator, List.getLast?_append_cons]

theorem byTurns_append_cons {due : Bool} : byTurns due (before ++ s :: after) = true ↔
    byTurns due (before ++ [s]) = true ∧ byTurns s.isSeparator (s :: after) = true := by
  induction before generalizing due with
  | nil =>
    simp only [List.nil_append, byTurns, Bool.and_true, Bool.and_eq_true, beq_iff_eq, true_and]
    constructor
    · rintro ⟨rfl, h⟩
      exact ⟨rfl, h⟩
    · rintro ⟨rfl, h⟩
      exact ⟨rfl, h⟩
  | cons t before ih => simp only [List.cons_append, byTurns, Bool.and_eq_true, ih, and_assoc]

theorem byTurns_concat {due : Bool} {t : Slot α} (h : byTurns due (ss ++ [t]) = true)
    (hne : s.isSeparator = !t.isSeparator) : byTurns due ((ss ++ [t]) ++ [s]) = true := by
  rw [List.append_assoc, List.singleton_append, byTurns_append_cons]
  refine ⟨h, ?_⟩
  simp [byTurns, hne]

theorem exists_concat (h : endsWithSeparator ss = true) :
    ∃ before t, ss = before ++ [t] ∧ t.isSeparator = true := by
  rcases List.eq_nil_or_concat' ss with rfl | ⟨before, t, rfl⟩
  · cases h
  · exact ⟨before, t, rfl, by simpa using h⟩

theorem exists_cons (h : beginsWithSeparator ss = true) :
    ∃ t after, ss = t :: after ∧ t.isSeparator = true := by
  cases ss with
  | nil => cases h
  | cons t after => exact ⟨t, after, rfl, h⟩

/-- A run with a separator in it has a clause on either side of that. -/
theorem several_of_separator {l r : List (Slot α)} (hs : s.isSeparator = true)
    (hturns : byTurns false (l ++ s :: r) = true)
    (hlast : endsWithSeparator (l ++ s :: r) = false) :
    2 ≤ (l ++ s :: r).countP fun t => !t.isSeparator := by
  have hleft : 0 < l.countP fun t => !t.isSeparator := by
    cases l with
    | nil => simp [byTurns, hs] at hturns
    | cons t l =>
      have ht : t.isSeparator = false := by
        simp only [List.cons_append, byTurns, Bool.and_eq_true, beq_iff_eq] at hturns
        exact hturns.1
      simp [ht]
  have hright : 0 < r.countP fun t => !t.isSeparator := by
    rcases List.eq_nil_or_concat' r with rfl | ⟨r, t, rfl⟩
    · simp [endsWithSeparator, hs] at hlast
    · have ht : t.isSeparator = false := by
        rw [← List.cons_append, ← List.append_assoc] at hlast
        simpa only [endsWithSeparator_concat] using hlast
      simp [ht]
  rw [List.countP_append, List.countP_cons]
  omega

end

structure IsPlaced (flat : Bool) (ss : List (Slot α)) : Prop where
  between : ∀ before s after, ss = before ++ s :: after → s.isSeparator = true →
    (before ≠ [] ∧ endsWithSeparator before = false) ∧
      after ≠ [] ∧ beginsWithSeparator after = false
  opens : ∀ before s after, ss = before ++ s :: after → s.isSeparator = false →
    s.scope.opens = (!flat && !endsWithSeparator before && beginsWithSeparator after)
  closes : ∀ before s after, ss = before ++ s :: after → s.isSeparator = false →
    s.scope.closes = (!flat && endsWithSeparator before && !beginsWithSeparator after)
  alternative : ∀ before s after, ss = before ++ s :: after → s.isSeparator = false →
    s.scope.alternative = (endsWithSeparator before || beginsWithSeparator after)
  flat : byTurns false ss = flat

theorem Slot.scope_of_isSeparator {s : Slot α} (h : s.isSeparator = true) : s.scope = {} := by
  cases s with
  | separator a => rfl
  | entry a r scope => cases h

namespace IsPlaced

variable {flat : Bool} {s : Slot α} {ss before after : List (Slot α)}

/-- The run of a place up to there. The induction goes back from the place, and each clause or
separator before it is of the other kind as long as the run lasts. -/
theorem exists_left (h : IsPlaced flat ss) (hss : ss = before ++ s :: after) :
    ∃ left l, before = left ++ l ∧ endsWithSeparator left = false ∧
      byTurns false (l ++ [s]) = true := by
  induction before using List.reverseRecOn generalizing s after with
  | nil =>
    refine ⟨[], [], rfl, rfl, ?_⟩
    cases hs : s.isSeparator with
    | true => exact absurd rfl (h.between _ s _ hss hs).1.1
    | false => simp [byTurns, hs]
  | append_singleton before t ih =>
    have hsplit : ss = before ++ t :: (s :: after) := by simpa using hss
    by_cases hkind : s.isSeparator = !t.isSeparator
    · obtain ⟨left, l, rfl, hleft, hturns⟩ := ih hsplit
      exact ⟨left, l ++ [t], by simp, hleft, byTurns_concat hturns hkind⟩
    · refine ⟨before ++ [t], [], by simp, ?_, ?_⟩
      · cases hs : s.isSeparator with
        | true => exact (h.between _ s _ hss hs).1.2
        | false => simpa [hs] using hkind
      · cases hs : s.isSeparator with
        | true =>
          have ht := (h.between _ s _ hss hs).1.2
          rw [endsWithSeparator_concat] at ht
          simp [hs, ht] at hkind
        | false => simp [byTurns, hs]

theorem exists_right (h : IsPlaced flat ss) (hss : ss = before ++ s :: after) :
    ∃ r right, after = r ++ right ∧ beginsWithSeparator right = false ∧
      byTurns s.isSeparator (s :: r) = true ∧ endsWithSeparator (s :: r) = false := by
  induction after generalizing before s with
  | nil =>
    refine ⟨[], [], rfl, rfl, by simp [byTurns], ?_⟩
    cases hs : s.isSeparator with
    | true => exact absurd rfl (h.between _ s _ hss hs).2.1
    | false => simpa [endsWithSeparator] using hs
  | cons t after ih =>
    have hsplit : ss = (before ++ [s]) ++ t :: after := by simpa using hss
    by_cases hkind : t.isSeparator = !s.isSeparator
    · obtain ⟨r, right, rfl, hright, hturns, hlast⟩ := ih hsplit
      refine ⟨t :: r, right, rfl, hright, ?_, ?_⟩
      · rw [byTurns, ← hkind, hturns]
        simp
      · simpa [endsWithSeparator] using hlast
    · cases hs : s.isSeparator with
      | true =>
        have ht := (h.between _ s _ hss hs).2.2
        simp_all
      | false =>
        refine ⟨[], t :: after, rfl, ?_, by simp [byTurns, hs], ?_⟩
        · simpa [hs] using hkind
        · simpa [endsWithSeparator] using hs

/-- Around every place there is a longest stretch of clauses and separators by turns. -/
theorem exists_stretch (h : IsPlaced flat ss) (hss : ss = before ++ s :: after) :
    ∃ left l r right, before = left ++ l ∧ after = r ++ right ∧
      endsWithSeparator left = false ∧ beginsWithSeparator right = false ∧
      byTurns false (l ++ s :: r) = true ∧ endsWithSeparator (l ++ s :: r) = false := by
  obtain ⟨left, l, hbefore, hleft, hl⟩ := h.exists_left hss
  obtain ⟨r, right, hafter, hright, hr, hlast⟩ := h.exists_right hss
  refine ⟨left, l, r, right, hbefore, hafter, hleft, hright, ?_, ?_⟩
  · exact byTurns_append_cons.mpr ⟨hl, hr⟩
  · rw [endsWithSeparator_append_cons, hlast]

theorem isInRun_of_isSeparator (h : IsPlaced flat ss) (hss : ss = before ++ s :: after)
    (hs : s.isSeparator = true) : IsInRun before s after := by
  obtain ⟨left, l, r, right, hbefore, hafter, hleft, hright, hturns, hlast⟩ := h.exists_stretch hss
  exact ⟨left, l, r, right, hbefore, hafter,
    ⟨⟨hturns, hlast, several_of_separator hs hturns hlast⟩, hleft, hright⟩⟩

theorem isInRun_of_neighbour (h : IsPlaced flat ss) (hss : ss = before ++ s :: after)
    (hnext : endsWithSeparator before = true ∨ beginsWithSeparator after = true) :
    IsInRun before s after := by
  obtain ⟨left, l, r, right, hbefore, hafter, hleft, hright, hturns, hlast⟩ := h.exists_stretch hss
  refine ⟨left, l, r, right, hbefore, hafter, ⟨⟨hturns, hlast, ?_⟩, hleft, hright⟩⟩
  rcases hnext with hnext | hnext
  · rcases List.eq_nil_or_concat' l with rfl | ⟨l, t, rfl⟩
    · rw [hbefore, List.append_nil, hleft] at hnext
      cases hnext
    · have ht : t.isSeparator = true := by
        rw [hbefore, ← List.append_assoc, endsWithSeparator_concat] at hnext
        exact hnext
      rw [List.append_assoc, List.singleton_append] at hturns hlast ⊢
      exact several_of_separator ht hturns hlast
  · cases r with
    | nil =>
      rw [hafter, List.nil_append, hright] at hnext
      cases hnext
    | cons t r =>
      have ht : t.isSeparator = true := by
        rw [hafter] at hnext
        exact hnext
      have hshift : l ++ s :: t :: r = (l ++ [s]) ++ t :: r := by simp
      rw [hshift] at hturns hlast ⊢
      exact several_of_separator ht hturns hlast

theorem neighbour_of_isInRun (hs : s.isSeparator = false) (h : IsInRun before s after) :
    endsWithSeparator before = true ∨ beginsWithSeparator after = true := by
  obtain ⟨left, l, r, right, rfl, rfl, hrun⟩ := h
  have hturns := hrun.run.turns
  cases r with
  | cons t r =>
    right
    rw [byTurns_append_cons] at hturns
    have ht : t.isSeparator = true ∧ byTurns false r = true := by
      simpa [byTurns, hs] using hturns.2
    exact ht.1
  | nil =>
    left
    rcases List.eq_nil_or_concat' l with rfl | ⟨l, t, rfl⟩
    · have hseveral := hrun.run.several
      simp [hs] at hseveral
    · rw [List.append_assoc, List.singleton_append, byTurns_append_cons] at hturns
      have ht : t.isSeparator = true := by simpa [byTurns, hs] using hturns.2
      rw [← List.append_assoc, endsWithSeparator_concat, ht]

theorem opens_eq_false_of_flat (h : IsPlaced true ss) (hs : s ∈ ss) :
    s.scope.opens = false ∧ s.scope.closes = false := by
  obtain ⟨before, after, hss⟩ := List.append_of_mem hs
  cases hsep : s.isSeparator with
  | true => simp [Slot.scope_of_isSeparator hsep]
  | false => simp [h.opens _ s _ hss hsep, h.closes _ s _ hss hsep]

/-- A run has a group of its own around it. -/
theorem isSpan_of_isMaximalRun (h : IsPlaced false ss) {run : List (Slot α)}
    (hss : ss = before ++ run ++ after) (hrun : IsMaximalRun before run after) : IsSpan run := by
  obtain ⟨⟨hturns, hlast, hseveral⟩, hbefore, hafter⟩ := hrun
  constructor
  · match run with
    | [] => simp at hseveral
    | [x] =>
      have hone := List.countP_le_length (p := fun s : Slot α => !s.isSeparator) (l := [x])
      simp only [List.length_singleton] at hone
      omega
    | x :: y :: rest =>
      simp only [byTurns, Bool.and_eq_true, beq_iff_eq] at hturns
      have hx := h.opens before x (y :: rest ++ after) (by simpa using hss) hturns.1
      refine ⟨x, rfl, ?_⟩
      rw [hx, hbefore, List.cons_append, beginsWithSeparator_cons, hturns.2.1]
      rfl
  · rcases List.eq_nil_or_concat' run with rfl | ⟨init, z, rfl⟩
    · simp at hseveral
    · rw [endsWithSeparator_concat] at hlast
      rcases List.eq_nil_or_concat' init with rfl | ⟨init, w, rfl⟩
      · have hone := List.countP_le_length (p := fun s : Slot α => !s.isSeparator) (l := [z])
        simp only [List.nil_append, List.length_singleton] at hone hseveral
        omega
      · have hw : w.isSeparator = true := by
          rw [List.append_assoc, List.singleton_append, byTurns_append_cons] at hturns
          simpa [byTurns, hlast] using hturns.2
        have hz := h.closes (before ++ (init ++ [w])) z after (by simpa using hss) hlast
        refine ⟨z, by simp, ?_⟩
        rw [hz, ← List.append_assoc, endsWithSeparator_concat, hw, hafter]
        rfl
  · intro s hs
    rcases List.eq_nil_or_concat' run with rfl | ⟨init, z, rfl⟩
    · cases hs
    · rw [List.dropLast_concat] at hs
      obtain ⟨l, r, rfl⟩ := List.append_of_mem hs
      -- Behind a member that is not the last one the run goes on.
      obtain ⟨t, r', ht⟩ : ∃ t r', r ++ [z] = t :: r' := List.exists_cons_of_ne_nil (by simp)
      have hsplit : l ++ s :: r ++ [z] = l ++ s :: t :: r' := by simp [ht]
      rw [hsplit] at hturns hss
      cases hsep : s.isSeparator with
      | true => simp [Slot.scope_of_isSeparator hsep]
      | false =>
        have hnext : t.isSeparator = true ∧ byTurns false r' = true := by
          simpa [byTurns, hsep] using (byTurns_append_cons.mp hturns).2
        have hs := h.closes (before ++ l) s (t :: r' ++ after) (by simpa using hss) hsep
        rw [hs, List.cons_append, beginsWithSeparator_cons, hnext.1]
        simp

theorem byTurns_of_open (h : IsPlaced false ss) {rest : List (Slot α)}
    (hss : ss = before ++ s :: rest ++ after)
    (hinside : ∀ t ∈ (s :: rest).dropLast, t.scope.closes = false)
    (hopen : s.isSeparator = false → endsWithSeparator before = true ∨ s.scope.opens = true) :
    byTurns s.isSeparator (s :: rest) = true := by
  induction rest generalizing before s with
  | nil => simp [byTurns]
  | cons t rest ih =>
    have hsplit : ss = before ++ s :: (t :: rest ++ after) := by simpa using hss
    have hkind : t.isSeparator = !s.isSeparator := by
      cases hs : s.isSeparator with
      | true => exact (h.between _ s _ hsplit hs).2.2
      | false =>
        have hnotlast : s.scope.closes = false := hinside s (by simp)
        have hcloses := h.closes _ s _ hsplit hs
        have hopens := h.opens _ s _ hsplit hs
        simp only [List.cons_append, beginsWithSeparator_cons] at hcloses hopens
        rcases hopen hs with hbefore | hfirst
        · simpa [hnotlast, hbefore] using hcloses
        · rw [hfirst] at hopens
          simpa using (Bool.and_eq_true_iff.mp hopens.symm).2
    have hsplit : ss = (before ++ [s]) ++ t :: rest ++ after := by simpa using hss
    have hrest := ih hsplit (fun u hu => hinside u (by simp [hu])) fun ht =>
      .inl (by simpa [ht] using hkind.symm)
    rw [byTurns, ← hkind, hrest]
    simp

/-- A group holds a run, and all of it. -/
theorem isMaximalRun_of_isSpan (h : IsPlaced false ss) {span : List (Slot α)}
    (hss : ss = before ++ span ++ after) (hspan : IsSpan span) :
    IsMaximalRun before span after := by
  obtain ⟨x, hx, hopens⟩ := hspan.opens
  obtain ⟨z, hz, hcloses⟩ := hspan.closes
  obtain ⟨rest, rfl⟩ := List.head?_eq_some_iff.mp hx
  obtain ⟨init, hinit⟩ := List.getLast?_eq_some_iff.mp hz
  -- Only clauses open and close groups.
  have hxsep : x.isSeparator = false := by
    rw [Bool.eq_false_iff]
    intro hsep
    simp [Slot.scope_of_isSeparator hsep] at hopens
  have hzsep : z.isSeparator = false := by
    rw [Bool.eq_false_iff]
    intro hsep
    simp [Slot.scope_of_isSeparator hsep] at hcloses
  have hfirst := h.opens before x (rest ++ after) (by simpa using hss) hxsep
  have hlast := h.closes (before ++ init) z after (by rw [hss, hinit]; simp) hzsep
  rw [hopens] at hfirst
  rw [hcloses] at hlast
  simp only [Bool.not_false, Bool.true_and, Bool.true_eq, Bool.and_eq_true, Bool.not_eq_true']
    at hfirst hlast
  have hturns := h.byTurns_of_open hss hspan.inside fun _ => .inr hopens
  rw [hxsep] at hturns
  have hends : endsWithSeparator (x :: rest) = false := by
    rw [hinit, endsWithSeparator_concat, hzsep]
  refine ⟨⟨hturns, hends, ?_⟩, hfirst.1, hlast.2⟩
  cases rest with
  | nil =>
    obtain ⟨rfl, rfl⟩ : init = [] ∧ z = x := by simpa [List.singleton_eq_append_iff] using hinit
    rw [List.append_nil, hfirst.1] at hlast
    cases hlast.1
  | cons t rest =>
    have ht : t.isSeparator = true := hfirst.2
    exact several_of_separator (l := [x]) ht hturns hends

/-- A group that has been opened closes before another one opens. The induction goes along the
places; a group is open where a separator is next to the place. -/
theorem marks_of_places (h : IsPlaced false ss) (hss : ss = before ++ after) :
    ∃ n, after.flatMap Slot.marks =
      (if endsWithSeparator before || beginsWithSeparator after then [Mark.closing] else []) ++
        (List.replicate n [Mark.opening, Mark.closing]).flatten := by
  induction after generalizing before with
  | nil =>
    refine ⟨0, ?_⟩
    have hbefore : endsWithSeparator before = false := by
      rw [Bool.eq_false_iff]
      intro hends
      obtain ⟨init, s, rfl, hs⟩ := exists_concat hends
      exact (h.between init s [] (by simpa using hss) hs).2.1 rfl
    simp [hbefore]
  | cons s after ih =>
    have hsplit : ss = (before ++ [s]) ++ after := by simpa using hss
    obtain ⟨n, hn⟩ := ih hsplit
    rw [endsWithSeparator_concat] at hn
    rw [List.flatMap_cons, hn, beginsWithSeparator_cons]
    cases hs : s.isSeparator with
    | true => exact ⟨n, by simp [Slot.marks, Slot.scope_of_isSeparator hs]⟩
    | false =>
      have hopens := h.opens _ s _ hss hs
      have hcloses := h.closes _ s _ hss hs
      cases hbefore : endsWithSeparator before <;> cases hafter : beginsWithSeparator after <;>
        simp only [hbefore, hafter, Bool.not_false, Bool.not_true, Bool.and_true, Bool.and_false]
          at hopens hcloses
      · exact ⟨n, by simp [Slot.marks, hopens, hcloses]⟩
      · exact ⟨n + 1, by simp [Slot.marks, hopens, hcloses, List.replicate_succ]⟩
      · exact ⟨n, by simp [Slot.marks, hopens, hcloses]⟩
      · exact ⟨n, by simp [Slot.marks, hopens, hcloses]⟩

theorem isScoped (h : IsPlaced flat ss) : IsScoped ss where
  between := h.between
  paired := by
    cases flat with
    | true =>
      refine ⟨0, List.flatMap_eq_nil_iff.mpr fun s hs => ?_⟩
      obtain ⟨hopens, hcloses⟩ := h.opens_eq_false_of_flat hs
      simp [Slot.marks, hopens, hcloses]
    | false =>
      obtain ⟨n, hn⟩ := h.marks_of_places (List.nil_append ss).symm
      refine ⟨n, ?_⟩
      cases hss : beginsWithSeparator ss with
      | true =>
        obtain ⟨s, after, rfl, hs⟩ := exists_cons hss
        exact absurd rfl (h.between [] s after rfl hs).1.1
      | false => simpa [hss] using hn
  grouped := by
    cases flat with
    | true => exact .inl ⟨h.flat, fun s hs => h.opens_eq_false_of_flat hs⟩
    | false =>
      refine .inr ⟨fun before s after hss hs => ?_, fun before span after hss hspan => ?_⟩
      · obtain ⟨left, l, r, right, hbefore, hafter, hrun⟩ := h.isInRun_of_isSeparator hss hs
        refine ⟨left, l, r, right, hbefore, hafter, h.isSpan_of_isMaximalRun ?_ hrun⟩
        rw [hss, hbefore, hafter]
        simp
      · exact h.isMaximalRun_of_isSpan hss hspan
  alternative := by
    intro before s after hss hs
    rw [h.alternative _ s _ hss hs, Bool.or_eq_true]
    exact ⟨h.isInRun_of_neighbour hss, neighbour_of_isInRun hs⟩

end IsPlaced

section

variable {flat solo behind : Bool}

theorem beginsWithSeparator_place (is : List (Item (Clause β))) :
    beginsWithSeparator (place flat solo behind is) = startsWithSeparator is := by
  cases is with
  | nil => rfl
  | cons i is => cases hi : i.clause.isSeparator <;>
      simp [place, startsWithSeparator, hi, Slot.isSeparator]

theorem byTurns_place {due : Bool} (is : List (Item (Clause β))) :
    byTurns due (place flat solo behind is) = alternates due is := by
  induction is generalizing due behind with
  | nil => rfl
  | cons i is ih => cases hi : i.clause.isSeparator <;>
      simp [place, byTurns, alternates, hi, ih, Slot.isSeparator]

/-- Whether a separator comes last, where `behind` says so of what is further back. -/
def endsBehind (behind : Bool) (before : List (Slot α)) : Bool :=
  (before.getLast?.map Slot.isSeparator).getD behind

@[simp] theorem endsBehind_nil : endsBehind behind ([] : List (Slot α)) = behind := rfl

@[simp] theorem endsBehind_cons (s : Slot α) (before : List (Slot α)) :
    endsBehind behind (s :: before) = endsBehind s.isSeparator before := by
  cases before <;> simp [endsBehind, List.getLast?_cons]

theorem endsBehind_false (before : List (Slot α)) :
    endsBehind false before = endsWithSeparator before := by
  unfold endsBehind endsWithSeparator
  cases before.getLast? <;> rfl

/-- The surroundings of a clause are read off the places next to it. -/
theorem scope_place {is : List (Item (Clause β))} {before after : List (Slot (Clause β))}
    {s : Slot (Clause β)} (h : place flat solo behind is = before ++ s :: after)
    (hs : s.isSeparator = false) :
    s.scope =
      { opens := !flat && !endsBehind behind before && beginsWithSeparator after
        closes := !flat && endsBehind behind before && !beginsWithSeparator after
        alternative := endsBehind behind before || beginsWithSeparator after
        solo := solo } := by
  induction is generalizing before behind with
  | nil => simp [place] at h
  | cons i is ih =>
    cases hi : i.clause.isSeparator with
    | true =>
      rw [place, if_pos hi] at h
      cases before with
      | nil =>
        obtain ⟨rfl, -⟩ := List.cons.inj h
        cases hs
      | cons t before =>
        obtain ⟨rfl, hrest⟩ := List.cons.inj h
        rw [ih hrest, endsBehind_cons]
        rfl
    | false =>
      rw [place, if_neg (by simp [hi])] at h
      cases before with
      | nil =>
        obtain ⟨rfl, rfl⟩ := List.cons.inj h
        simp [Slot.scope, beginsWithSeparator_place]
      | cons t before =>
        obtain ⟨rfl, hrest⟩ := List.cons.inj h
        rw [ih hrest, endsBehind_cons]
        rfl

/-- In the places of parts each separator has a clause right behind it, and none before another. -/
theorem between_place {us : List (Part (Clause β))} (hwf : ∀ u ∈ us, u.IsWellFormed)
    {before after : List (Slot (Clause β))} {s : Slot (Clause β)}
    (h : place flat solo behind (us.flatMap Part.items) = before ++ s :: after)
    (hs : s.isSeparator = true) :
    (before = [] → us.head?.any Part.isJoined = true) ∧ endsWithSeparator before = false ∧
      after ≠ [] ∧ beginsWithSeparator after = false := by
  induction us generalizing before behind with
  | nil => simp [place] at h
  | cons u us ih =>
    have hu := hwf u List.mem_cons_self
    have hus : ∀ v ∈ us, v.IsWellFormed := fun v hv => hwf v (List.mem_cons_of_mem u hv)
    cases hsep : u.separator with
    | none =>
      simp only [List.flatMap_cons, Part.items, hsep, Option.map_none, Option.toList_none,
        List.nil_append, List.cons_append, place, hu.clause.1, Bool.false_eq_true, if_false] at h
      cases before with
      | nil =>
        obtain ⟨rfl, -⟩ := List.cons.inj h
        cases hs
      | cons t before =>
        obtain ⟨rfl, hrest⟩ := List.cons.inj h
        obtain ⟨-, hends, hafter⟩ := ih hus hrest
        refine ⟨by simp, ?_, hafter⟩
        cases before with
        | nil => rfl
        | cons t before => exact hends
    | some r =>
      simp only [List.flatMap_cons, Part.items, hsep, Option.map_some, Option.toList_some,
        List.cons_append, List.nil_append, place, hu.separator r hsep, hu.clause.1,
        Bool.false_eq_true, if_true, if_false] at h
      cases before with
      | nil =>
        obtain ⟨rfl, rfl⟩ := List.cons.inj h
        exact ⟨fun _ => by simp [Part.isJoined, hsep], rfl, by simp, rfl⟩
      | cons t before =>
        have hbehind := (List.cons.inj h).2
        cases before with
        | nil =>
          obtain ⟨rfl, -⟩ := List.cons.inj hbehind
          cases hs
        | cons t' before =>
          obtain ⟨rfl, hrest⟩ := List.cons.inj hbehind
          obtain ⟨-, hends, hafter⟩ := ih hus hrest
          refine ⟨by simp, ?_, hafter⟩
          cases before with
          | nil => rfl
          | cons t before => exact hends

end

theorem items_kept {cs : List (Clause β)}
    (hcs : ∀ c ∈ cs, c.isSeparator = true → c.hasContent = false) :
    items (kept cs) = (parts cs).flatMap Part.items := by
  rw [kept_eq hcs, items_clauses (isWellFormed_parts hcs)]

theorem isPlaced_slots {cs : List (Clause β)}
    (hcs : ∀ c ∈ cs, c.isSeparator = true → c.hasContent = false) :
    IsPlaced (alternates false (items (kept cs))) (slots cs) where
  between := by
    intro before s after h hs
    rw [slots, items_kept hcs] at h
    obtain ⟨hfirst, hends, hafter⟩ := between_place (isWellFormed_parts hcs) h hs
    refine ⟨⟨fun hnil => ?_, hends⟩, hafter⟩
    obtain ⟨u, hu, hjoined⟩ := (Option.any_eq_true _ _).mp (hfirst hnil)
    simp [Part.isJoined, head_parts hcs u hu] at hjoined
  opens := by
    intro before s after h hs
    rw [scope_place h hs, endsBehind_false]
  closes := by
    intro before s after h hs
    rw [scope_place h hs, endsBehind_false]
  alternative := by
    intro before s after h hs
    rw [scope_place h hs, endsBehind_false]
  flat := byTurns_place _

/-- What is kept behind `last`, the nearest clause that is: a separator behind an alternative, a
repeater behind content, any other clause wherever it stands. Whether another alternative comes
behind a separator is not known here. -/
def isKeptBehind (last : Option (Clause β)) (c : Clause β) : Bool :=
  if c.isSeparator then last.any fun d => !d.isSeparator
  else !c.isRepeater || last.any Clause.hasContent

/-- The nearest predecessor that is kept, for a clause behind `before`. -/
def predecessor (before : List (Clause β)) : Option (Clause β) :=
  before.foldl (fun last c => if isKeptBehind last c then some c else last) none

/-- A separator is never listed, and a repeater only where there is content to repeat. -/
def isListed (before : List (Clause β)) (c : Clause β) : Bool :=
  !c.isSeparator && (!c.isRepeater || (predecessor before).any Clause.hasContent)

def listed (before : List (Clause β)) : List (Clause β) → List (Clause β)
  | [] => []
  | c :: cs => (if isListed before c then [c] else []) ++ listed (before ++ [c]) cs

theorem isKeptBehind_eq (last : Option (Clause β)) (c : Clause β) :
    isKeptBehind last c = !isStray last c := by
  cases hsep : c.isSeparator with
  | true =>
    have hrepeater : c.isRepeater = false := by
      rw [Bool.eq_false_iff]
      intro h
      simp [(Progress.isSeparator_of_isRepeater h).1] at hsep
    cases last <;> simp [isKeptBehind, isStray, hsep, hrepeater]
  | false => simp [isKeptBehind, isStray, hsep, Bool.not_and]

theorem predecessor_concat (before : List (Clause β)) (c : Clause β) :
    predecessor (before ++ [c]) =
      if isStray (predecessor before) c then predecessor before else some c := by
  rw [predecessor, List.foldl_append, ← predecessor, List.foldl_cons, List.foldl_nil,
    isKeptBehind_eq]
  cases isStray (predecessor before) c <;> rfl

theorem listed_eq (before cs : List (Clause β)) :
    (dropStrays (predecessor before) cs).filter (fun c => !c.isSeparator) = listed before cs := by
  induction cs generalizing before with
  | nil => rfl
  | cons c cs ih =>
    rw [listed, ← ih, predecessor_concat, dropStrays]
    cases hsep : c.isSeparator with
    | true => cases hstray : isStray (predecessor before) c <;> simp [isListed, hsep]
    | false =>
      have hlisted : isListed before c = !isStray (predecessor before) c := by
        simp [isListed, isStray, hsep, Bool.not_and]
      cases hstray : isStray (predecessor before) c <;> simp [hlisted, hstray, hsep]

theorem filter_dropLastSeparator (cs : List (Clause β)) :
    (dropLastSeparator cs).filter (fun c => !c.isSeparator) =
      cs.filter fun c => !c.isSeparator := by
  unfold dropLastSeparator
  split
  next hlast =>
    obtain ⟨s, hs, hsep⟩ := (Option.any_eq_true _ _).mp hlast
    obtain ⟨init, rfl⟩ := List.getLast?_eq_some_iff.mp hs
    simp [hsep]
  next => rfl

theorem clauses_place {us : List (Part (Clause β))} (hwf : ∀ u ∈ us, u.IsWellFormed)
    (flat solo behind : Bool) :
    (place flat solo behind (us.flatMap Part.items)).flatMap Slot.clauses =
      (us.flatMap Part.clauses).filter fun c => !c.isSeparator := by
  induction us generalizing behind with
  | nil => rfl
  | cons u us ih =>
    have hu := hwf u List.mem_cons_self
    have hrest := ih fun v hv => hwf v (List.mem_cons_of_mem u hv)
    have hrepeater : u.item.repeater.toList.filter (fun c => !c.isSeparator) =
        u.item.repeater.toList := by
      rw [List.filter_eq_self]
      intro r hr
      simp [(Progress.isSeparator_of_isRepeater (hu.repeater r (by simpa using hr))).1]
    cases hs : u.separator with
    | none =>
      simp [Part.items, Part.clauses, hs, place, hu.clause.1, Slot.clauses, hrest, hrepeater]
    | some r =>
      simp [Part.items, Part.clauses, hs, place, hu.clause.1, hu.separator r hs, Slot.clauses,
        hrest, hrepeater]

theorem clauses_slots {cs : List (Clause β)}
    (hcs : ∀ c ∈ cs, c.isSeparator = true → c.hasContent = false) :
    (slots cs).flatMap Slot.clauses = listed [] cs := by
  rw [slots, items_kept hcs, clauses_place (isWellFormed_parts hcs), ← kept_eq hcs, kept,
    filter_dropLastSeparator]
  exact listed_eq [] cs

/-- In every layout alternatives are scoped well, and it lists the clauses that it should, in their
order. -/
theorem isScoped_slots {cs : List (Clause β)}
    (hcs : ∀ c ∈ cs, c.isSeparator = true → c.hasContent = false) :
    IsScoped (slots cs) ∧ (slots cs).flatMap Slot.clauses = listed [] cs := by
  constructor
  · exact (isPlaced_slots hcs).isScoped
  · exact clauses_slots hcs

def twoRuns : List (Clause Text) :=
  let letter (c : Char) (index : Nat) : Clause Text := ⟨.atoms [.char c], {}, index⟩
  let separator (index : Nat) : Clause Text := ⟨.atoms [], { isSeparator := true }, index⟩
  let repeater (index : Nat) : Clause Text :=
    ⟨.atoms [], { quantifier := some .oneOrMore }, index⟩
  [separator 0, letter 'a' 1, repeater 2, repeater 3, separator 4, separator 5, letter 'b' 6,
    letter 'c' 7, separator 8, repeater 9, letter 'd' 10, separator 11]

theorem isScoped_slots_twoRuns :
    (∀ c ∈ twoRuns, c.isSeparator = true → c.hasContent = false) ∧ IsScoped (slots twoRuns) ∧
      (slots twoRuns).flatMap Slot.clauses = listed [] twoRuns ∧
      (listed [] twoRuns).map Clause.index = [1, 2, 6, 7, 10] := by
  have hcs : ∀ c ∈ twoRuns, c.isSeparator = true → c.hasContent = false := by decide
  obtain ⟨hscoped, hclauses⟩ := isScoped_slots hcs
  exact ⟨hcs, hscoped, hclauses, by decide⟩

end Layout
end PatternBuilder
