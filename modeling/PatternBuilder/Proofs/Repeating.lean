import PatternBuilder.Proofs.AcceptedTexts

/-!
# Repeated characters

Where the repetition of a character leads without limits: across a run of characters of its set,
which may be as long as the text allows. Backtracking tries the longest run first.
-/

namespace PatternBuilder.Dialect

namespace Cursor

variable {x : CharSet} {c d : Cursor}

def Runs (x : CharSet) (min : Nat) (c d : Cursor) : Prop :=
  ∃ t : Text, min ≤ t.length ∧ (∀ y ∈ t, x.contains y = true) ∧ c.Passes t d

theorem passes_cons {y : Char} {t : Text} :
    c.Passes (y :: t) d ↔ ∃ e, c.Passes [y] e ∧ e.Passes t d := by
  rw [← List.singleton_append, passes_append]

theorem runs_iff {min : Nat} :
    c.Runs x min d ↔ min = 0 ∧ d = c ∨ ∃ e, c.read? x = some e ∧ e.Runs x (min - 1) d := by
  constructor
  · rintro ⟨t, hmin, hall, hpasses⟩
    cases t with
    | nil => exact .inl ⟨Nat.le_zero.mp hmin, passes_nil.mp hpasses⟩
    | cons y t =>
      obtain ⟨e, hy, ht⟩ := passes_cons.mp hpasses
      refine .inr ⟨e, read?_eq_some.mpr ⟨y, hall y List.mem_cons_self, hy⟩, t, ?_, ?_, ht⟩
      · rw [List.length_cons] at hmin
        omega
      · intro z hz
        exact hall z (List.mem_cons_of_mem y hz)
  · rintro (⟨rfl, rfl⟩ | ⟨e, hread, t, hmin, hall, ht⟩)
    · exact ⟨[], Nat.le_refl 0, by simp, passes_nil.mpr rfl⟩
    · obtain ⟨y, hy, hpasses⟩ := read?_eq_some.mp hread
      refine ⟨y :: t, ?_, ?_, passes_cons.mpr ⟨e, hpasses, ht⟩⟩
      · rw [List.length_cons]
        omega
      · intro z hz
        rcases List.mem_cons.mp hz with rfl | hz
        · exact hy
        · exact hall z hz

/-- Where a run leads to `P`, its first character has been read, or it is over. -/
theorem exists_runs_iff {min : Nat} {P : Cursor → Prop} :
    (∃ d, c.Runs x min d ∧ P d) ↔
      (∃ e, c.read? x = some e ∧ ∃ d, e.Runs x (min - 1) d ∧ P d) ∨ min = 0 ∧ P c := by
  constructor
  · rintro ⟨d, hd, hP⟩
    rcases runs_iff.mp hd with ⟨hmin, rfl⟩ | ⟨e, hread, he⟩
    · exact .inr ⟨hmin, hP⟩
    · exact .inl ⟨e, hread, d, he, hP⟩
  · rintro (⟨e, hread, d, he, hP⟩ | ⟨hmin, hP⟩)
    · exact ⟨d, runs_iff.mpr (.inr ⟨e, hread, he⟩), hP⟩
    · exact ⟨c, runs_iff.mpr (.inl ⟨hmin, rfl⟩), hP⟩

/-- Behind a character less is left, at a greater offset. -/
theorem read?_progress {e : Cursor} (h : c.read? x = some e) :
    e.rest.length < c.rest.length ∧ c.offset < e.offset := by
  obtain ⟨y, -, hrest, -, hoffset⟩ := read?_eq_some.mp h
  have hsize := y.utf8Size_pos
  rw [hrest, hoffset]
  simp only [List.length_append, List.length_singleton, Text.utf8Length]
  omega

end Cursor

/-- Without limits, something is found exactly if `Q` holds. -/
def Outcome.Decides (o : Outcome) (Q : Prop) : Prop :=
  (Q → ∃ t, o = .found t none) ∧ (¬Q → o = .failed none)

namespace Outcome.Decides

variable {o : Outcome} {Q R : Prop}

theorem failed (h : ¬Q) : Decides (.failed none) Q := ⟨fun hq => absurd hq h, fun _ => rfl⟩

theorem congr (h : o.Decides Q) (hiff : Q ↔ R) : o.Decides R := by
  rwa [Decides, ← hiff]

theorem orElse {next : Budget → Outcome} (h : o.Decides Q) (hnext : (next none).Decides R) :
    (o.orElse next).Decides (Q ∨ R) := by
  by_cases hq : Q
  · obtain ⟨t, ht⟩ := h.1 hq
    exact ⟨fun _ => ⟨t, by rw [ht]; rfl⟩, fun hn => absurd (.inl hq) hn⟩
  · have hfailed : o.orElse next = next none := by
      rw [h.2 hq]
      rfl
    rw [hfailed]
    exact hnext.congr (or_iff_right hq).symm

end Outcome.Decides

namespace Strategy

open PatternBuilder.Dialect.Continuation PatternBuilder.Dialect.Action

variable {x : CharSet}

theorem run_set (s : State) (b : Budget) (k : Continuation) :
    run (.set x) s b k = match s.cursor.read? x with
      | some c => k { s with cursor := c } b
      | none => .failed b := rfl

/-- The passes behind the first `count`: what is missing of the least number is still to come. Each
pass takes a character, so that none stands where the one before it did, and fewer passes than are
`left` reach the end of the text. -/
theorem passes_set {min left count : Nat} {before : Option State} {k : Continuation}
    {P : Cursor → Prop} (hk : Tests k P) {s : State}
    (hbefore : ∀ q ∈ before, q.cursor.offset < s.cursor.offset)
    (hleft : s.cursor.rest.length < left) :
    (Repetition.passes ⟨min, none, true, false⟩ (run (.set x)) count before left s none k).Decides
      (∃ d, s.cursor.Runs x (min - count) d ∧ P d) := by
  induction left generalizing count before s with
  | zero => omega
  | succ left ih =>
    have hstands : before.any s.isLevel = false := by
      cases before with
      | none => rfl
      | some q =>
        have hoffset := hbefore q rfl
        simp only [Option.any_some, State.isLevel, beq_eq_false_iff_ne]
        omega
    have hpass : (run (.set x) s none fun t b =>
        Repetition.passes ⟨min, none, true, false⟩ (run (.set x)) (count + 1) (some s) left t b
          k).Decides
        (∃ e, s.cursor.read? x = some e ∧ ∃ d, e.Runs x (min - count - 1) d ∧ P d) := by
      rw [run_set]
      cases hread : s.cursor.read? x with
      | none =>
        refine Outcome.Decides.failed ?_
        rintro ⟨e, he, -⟩
        cases he
      | some e =>
        obtain ⟨hshorter, hlater⟩ := Cursor.read?_progress hread
        have hrest : ({ s with cursor := e } : State).cursor.rest.length < left := by
          change e.rest.length < left
          omega
        have hbefore : ∀ q ∈ some s, q.cursor.offset < e.offset := by
          rintro q ⟨⟩
          exact hlater
        have hnext : (Repetition.passes ⟨min, none, true, false⟩ (run (.set x)) (count + 1) (some s)
            left { s with cursor := e } none k).Decides _ := ih hbefore hrest
        refine hnext.congr ?_
        simp [Nat.sub_sub]
    rw [Repetition.passes, Cursor.exists_runs_iff]
    simp only [hstands, Bool.false_and, Bool.and_false, Bool.false_eq_true, if_false, if_true]
    by_cases hcount : count < min
    · rw [if_pos hcount]
      exact hpass.congr (or_iff_left fun h => by omega).symm
    · rw [if_neg hcount]
      have hhere : (k s none).Decides (P s.cursor) := hk s
      have hnone : min - count = 0 := by omega
      exact hpass.orElse (hhere.congr (and_iff_right hnone).symm)

theorem follows_times (x : CharSet) (min : Nat) :
    Follows (run (.times (.set x) min none true false)) (Cursor.Runs x min) := by
  intro k P hk s
  have hleft : s.cursor.rest.length < min + s.cursor.rest.length + 2 := by omega
  have hbefore : ∀ q ∈ (none : Option State), q.cursor.offset < s.cursor.offset := nofun
  have hpasses : (Repetition.passes ⟨min, none, true, false⟩ (run (.set x)) 0 none
      (min + s.cursor.rest.length + 2) s none k).Decides _ := passes_set hk hbefore hleft
  exact hpasses

theorem follows_optional {p : Strategy} {R : Cursor → Cursor → Prop} (h : Follows p.run R) :
    Follows (optional p true).run fun c d => R c d ∨ d = c :=
  follows_alt h follows_done

end Strategy

namespace Node

variable {x : CharSet}

theorem carry_times (x : CharSet) (min base : Nat) :
    Carry ((times (single x) min none true).members base) (Cursor.Runs x min) := by
  refine carry_single.mpr fun goesOn => ⟨.times (.set x) min none true false, ?_,
    Strategy.follows_times x min⟩
  simp [members, Core.ofItems, Core.strategy, Core.traits, bind, Except.bind, pure, Except.pure]

theorem carry_optional (x : CharSet) (base : Nat) :
    Carry ((times (single x) 0 (some 1) true).members base)
      fun c d => c.read? x = some d ∨ d = c := by
  refine carry_single.mpr fun goesOn => ⟨.optional (.set x) true, ?_,
    Strategy.follows_optional (Strategy.follows_set x)⟩
  simp [members, Core.ofItems, Core.strategy, bind, Except.bind, pure, Except.pure]

end Node
end PatternBuilder.Dialect
