import PatternBuilder.Proofs.Distinct
import PatternBuilder.Proofs.Reaching

/-!
# Agreement on ASCII text

Strategies that do the same from every place in ASCII text, as long as backtracking is not limited.
Sets may then differ beyond ASCII, and an alternative that is there already may be left out.
-/

namespace PatternBuilder

/-- The sets have the same ASCII characters. -/
def CharSet.Agree (s t : CharSet) : Prop :=
  ∀ c, Unicode.isAscii c = true → s.contains c = t.contains c

namespace Dialect

def Cursor.IsAscii (c : Cursor) : Prop :=
  (∀ x ∈ c.passed, Unicode.isAscii x = true) ∧ ∀ x ∈ c.rest, Unicode.isAscii x = true

namespace Cursor

variable {c d : Cursor} {s t : CharSet}

theorem read?_agree (h : s.Agree t) (hc : c.IsAscii) : c.read? s = c.read? t := by
  unfold read?
  split
  next => rfl
  next x rest hrest => rw [h x (hc.2 x (hrest ▸ List.mem_cons_self))]

theorem isAscii_read? (hc : c.IsAscii) (h : c.read? s = some d) : d.IsAscii := by
  obtain ⟨passed, rest, offset⟩ := c
  cases rest with
  | nil => cases h
  | cons x rest =>
    have hd : d = ⟨x :: passed, rest, offset + x.utf8Size⟩ := by
      simp only [read?, Option.ite_none_right_eq_some, Option.some.injEq] at h
      exact h.2.symm
    have hrest := List.forall_mem_cons.mp hc.2
    rw [hd]
    exact ⟨List.forall_mem_cons.mpr ⟨hrest.1, hc.1⟩, hrest.2⟩

theorem isAscii_back? {count : Nat} (hc : c.IsAscii) (h : c.back? count = some d) : d.IsAscii := by
  induction count generalizing c with
  | zero =>
    cases h
    exact hc
  | succ count ih =>
    obtain ⟨passed, rest, offset⟩ := c
    cases passed with
    | nil => cases h
    | cons x passed =>
      obtain ⟨hx, hbefore⟩ := List.forall_mem_cons.mp hc.1
      have hmoved : Cursor.IsAscii ⟨passed, x :: rest, offset - x.utf8Size⟩ :=
        ⟨hbefore, List.forall_mem_cons.mpr ⟨hx, hc.2⟩⟩
      exact ih hmoved h

end Cursor

/-- No backtracks are counted, and what is found lies in ASCII text. -/
def Outcome.IsFree : Outcome → Prop
  | .found s left => s.cursor.IsAscii ∧ left = none
  | .failed left => left = none
  | .exhausted => True

namespace Outcome

variable {o p : Outcome} {next other : Budget → Outcome}

theorem orElse_congr (h : o.IsFree) (hnext : next none = other none) :
    o.orElse next = o.orElse other := by
  cases o with
  | failed left =>
    obtain rfl : left = none := h
    exact hnext
  | _ => rfl

theorem IsFree.orElse (h : o.IsFree) (hnext : (next none).IsFree) : (o.orElse next).IsFree := by
  cases o with
  | failed left =>
    obtain rfl : left = none := h
    exact hnext
  | _ => exact h

end Outcome

def Continuation.Agree (k l : Continuation) : Prop :=
  ∀ s : State, s.cursor.IsAscii → k s none = l s none ∧ (k s none).IsFree

/-- The actions do the same everywhere in ASCII text, when the continuations do. -/
def Action.Agree (m n : Action) : Prop :=
  ∀ k l, Continuation.Agree k l → Continuation.Agree (fun s b => m s b k) fun s b => n s b l

theorem Continuation.Agree.left {k l : Continuation} (h : Continuation.Agree k l) :
    Continuation.Agree k k :=
  fun s hs => ⟨rfl, (h s hs).2⟩

theorem Continuation.Agree.symm {k l : Continuation} (h : Continuation.Agree k l) :
    Continuation.Agree l k :=
  fun s hs => ⟨(h s hs).1.symm, (h s hs).1 ▸ (h s hs).2⟩

theorem Continuation.agree_found : Continuation.Agree .found .found :=
  fun _ hs => ⟨rfl, hs, rfl⟩

namespace Action

open PatternBuilder.Dialect.Continuation (agree_found)

variable {m n p q : Action}

theorem Agree.symm (h : Agree m n) : Agree n m :=
  fun k l hk => Continuation.Agree.symm (h l k (Continuation.Agree.symm hk))

theorem Agree.trans (h : Agree m n) (h' : Agree n p) : Agree m p := by
  intro k l hk s hs
  have hleft := h k k hk.left s hs
  exact ⟨hleft.1.trans (h' k l hk s hs).1, hleft.2⟩

/-- An action that agrees with another is as good as its own other. -/
theorem Agree.left (h : Agree m n) : Agree m m := h.trans h.symm

theorem Agree.right (h : Agree m n) : Agree n n := h.symm.trans h

theorem Agree.atomic (h : Agree m n) : Agree m.atomic n.atomic := by
  intro k l hk s hs
  obtain ⟨heq, hfree⟩ := h _ _ agree_found s hs
  simp only [Action.atomic]
  simp only at heq hfree
  rw [← heq]
  cases hm : m s none .found with
  | found t left =>
    rw [hm] at hfree
    obtain ⟨ht, rfl⟩ := hfree
    exact hk t ht
  | failed left =>
    rw [hm] at hfree
    exact ⟨rfl, hfree⟩
  | exhausted => exact ⟨rfl, trivial⟩

theorem Agree.look (h : Agree m n) (back : Nat) : Agree (m.look back) (n.look back) := by
  intro k l hk s hs
  simp only [Action.look]
  cases hback : s.cursor.back? back with
  | none => exact ⟨rfl, rfl⟩
  | some c =>
    exact h _ _ (fun t _ => hk { t with cursor := s.cursor } hs) { s with cursor := c }
      (Cursor.isAscii_back? hs hback)

theorem Agree.lookNot (h : Agree m n) (back : Nat) : Agree (m.lookNot back) (n.lookNot back) := by
  intro k l hk s hs
  obtain ⟨heq, hfree⟩ := h.look back _ _ agree_found s hs
  simp only at heq hfree
  simp only [Action.lookNot, ← heq]
  cases hm : m.look back s none .found with
  | found t left =>
    rw [hm] at hfree
    exact ⟨rfl, hfree.2⟩
  | failed left =>
    rw [hm] at hfree
    obtain rfl : left = none := hfree
    exact hk s hs
  | exhausted => exact ⟨rfl, trivial⟩

/-- The induction is on the number of passes that are left. -/
theorem Repetition.agree_passes (r : Repetition) (h : Agree m n) (left count : Nat)
    (before : Option State) :
    Agree (r.passes m count before left) (r.passes n count before left) := by
  induction left generalizing count before with
  | zero =>
    intro k l hk s hs
    simp only [Repetition.passes]
    split
    · exact ⟨rfl, trivial⟩
    · exact hk s hs
  | succ left ih =>
    intro k l hk s hs
    have hhere := hk s hs
    have hnext := h _ _ (ih (count + 1) (some s) k l hk) s hs
    simp only [Repetition.passes]
    generalize before.any s.isLevel = stands
    have hpass : (if stands && r.isStuck count (left + 1) none then Outcome.exhausted
          else m s none fun t b => r.passes m (count + 1) (some s) left t b k) =
        (if stands && r.isStuck count (left + 1) none then Outcome.exhausted
          else n s none fun t b => r.passes n (count + 1) (some s) left t b l) ∧
        (if stands && r.isStuck count (left + 1) none then Outcome.exhausted
          else m s none fun t b => r.passes m (count + 1) (some s) left t b k).IsFree := by
      split
      · exact ⟨rfl, trivial⟩
      · exact hnext
    split
    · exact ⟨rfl, rfl⟩
    split
    · exact hpass
    split
    · refine ⟨?_, hpass.2.orElse hhere.2⟩
      rw [← hpass.1]
      exact Outcome.orElse_congr hpass.2 hhere.1
    · refine ⟨?_, hhere.2.orElse hpass.2⟩
      rw [← hhere.1]
      exact Outcome.orElse_congr hhere.2 hpass.1

theorem Repetition.agree_run (r : Repetition) (h : Agree m n) : Agree (r.run m) (r.run n) :=
  fun k l hk s hs => r.agree_passes h _ 0 none k l hk s hs

end Action

namespace Strategy

open PatternBuilder.Dialect.Action (Agree)

variable {p q p' q' : Strategy}

theorem agree_done : Agree (run .done) (run .done) := fun _ _ hk => hk

theorem agree_set {s t : CharSet} (h : s.Agree t) : Agree (run (.set s)) (run (.set t)) := by
  intro k l hk st hs
  simp only [run, ← Cursor.read?_agree h hs]
  cases hread : st.cursor.read? s with
  | none => exact ⟨rfl, rfl⟩
  | some c => exact hk { st with cursor := c } (Cursor.isAscii_read? hs hread)

theorem agree_anchor (a : Anchor) : Agree (run (.anchor a)) (run (.anchor a)) := by
  intro k l hk s hs
  simp only [run]
  split
  · exact hk s hs
  · exact ⟨rfl, rfl⟩

theorem agree_capture (number : Nat) (h : Agree p.run q.run) :
    Agree (run (.capture number p)) (run (.capture number q)) :=
  fun _ _ hk s => h _ _ (fun t => hk (t.capture number (s.cursor.textTo t.cursor))) s

theorem agree_atomic (h : Agree p.run q.run) : Agree (run (.atomic p)) (run (.atomic q)) :=
  h.atomic

theorem agree_look (back : Nat) (negated : Bool) (h : Agree p.run q.run) :
    Agree (run (.look back negated p)) (run (.look back negated q)) := by
  cases negated with
  | false => exact h.look back
  | true => exact h.lookNot back

theorem agree_times (min : Nat) (max : Option Nat) (greedy checked : Bool)
    (h : Agree p.run q.run) :
    Agree (run (.times p min max greedy checked)) (run (.times q min max greedy checked)) :=
  Action.Repetition.agree_run _ h

theorem agree_seq (hp : Agree p.run p'.run) (hq : Agree q.run q'.run) :
    Agree (run (.seq p q)) (run (.seq p' q')) :=
  fun k l hk => hp _ _ (hq k l hk)

theorem agree_alt (hp : Agree p.run p'.run) (hq : Agree q.run q'.run) :
    Agree (run (.alt p q)) (run (.alt p' q')) := by
  intro k l hk s hs
  obtain ⟨hfirst, hfree⟩ := hp k l hk s hs
  obtain ⟨hsecond, hsecondFree⟩ := hq k l hk s hs
  simp only at hfirst hsecond
  simp only [run, ← hfirst]
  exact ⟨Outcome.orElse_congr hfree hsecond, hfree.orElse hsecondFree⟩

theorem agree_optional (greedy : Bool) (h : Agree p.run q.run) :
    Agree (p.optional greedy).run (q.optional greedy).run := by
  cases greedy with
  | true => exact agree_alt h agree_done
  | false => exact agree_alt agree_done h

end Strategy

def Outcome.first? (os : List Outcome) : Option Outcome := os.find? (· != .failed none)

theorem Outcome.IsFree.orElse_eq {o : Outcome} (h : o.IsFree) (next : Budget → Outcome) :
    o.orElse next = if o = .failed none then next none else o := by
  cases o with
  | failed left =>
    obtain rfl : left = none := h
    rfl
  | _ => rfl

theorem Outcome.first?_cons (o : Outcome) (os : List Outcome) :
    first? (o :: os) = if o = .failed none then first? os else some o := by
  by_cases h : o = .failed none <;> simp [first?, h]

abbrev Branch := Nat × Strategy

namespace Branch

open PatternBuilder.Dialect.Action (Agree)

/-- Matches the alternative here, or in front of here where it `looks` behind. -/
def act (looks : Bool) (x : Branch) : Action := if looks then x.2.run.look x.1 else x.2.run

theorem act_agree {x y : Branch} (hback : x.1 = y.1) (h : Agree x.2.run y.2.run) (looks : Bool) :
    Agree (x.act looks) (y.act looks) := by
  cases looks with
  | false => exact h
  | true =>
    rw [act, act, hback]
    exact h.look y.1

def outcomes (looks : Bool) (xs : List Branch) (s : State) (k : Continuation) : List Outcome :=
  xs.map fun x => x.act looks s none k

structure AreAgreed (xs ys : List Branch) : Prop where
  nonempty : xs ≠ [] ∧ ys ≠ []
  left : ∀ x ∈ xs, Agree x.2.run x.2.run
  right : ∀ y ∈ ys, Agree y.2.run y.2.run
  first : ∀ looks k l, Continuation.Agree k l → ∀ s : State, s.cursor.IsAscii →
    Outcome.first? (outcomes looks xs s k) = Outcome.first? (outcomes looks ys s l)

theorem areAgreed_single {x y : Branch} (hback : x.1 = y.1) (h : Agree x.2.run y.2.run) :
    AreAgreed [x] [y] where
  nonempty := ⟨List.cons_ne_nil x [], List.cons_ne_nil y []⟩
  left := by simpa using h.left
  right := by simpa using h.right
  first looks k l hk s hs := by
    have hsame := (act_agree hback h looks k l hk s hs).1
    simp only at hsame
    simp [outcomes, hsame]

theorem AreAgreed.append {xs ys zs ws : List Branch} (h : AreAgreed xs ys) (h' : AreAgreed zs ws) :
    AreAgreed (xs ++ zs) (ys ++ ws) where
  nonempty := by simp [h.nonempty]
  left x hx := (List.mem_append.mp hx).elim (h.left x) (h'.left x)
  right y hy := (List.mem_append.mp hy).elim (h.right y) (h'.right y)
  first looks k l hk s hs := by
    have hfirst := h.first looks k l hk s hs
    have hsecond := h'.first looks k l hk s hs
    simp only [Outcome.first?, outcomes, List.map_append, List.find?_append] at hfirst hsecond ⊢
    rw [hfirst, hsecond]

theorem areAgreed_eraseDups {α : Type} [BEq α] [LawfulBEq α] {as : List α} (hne : as ≠ [])
    {f : α → Branch} {g : α → α}
    (h : ∀ a ∈ as, (f (g a)).1 = (f a).1 ∧ Agree (f (g a)).2.run (f a).2.run) :
    AreAgreed ((as.map g).eraseDups.map f) (as.map f) where
  nonempty := ⟨by simpa using eraseDups_ne_nil (mt List.map_eq_nil_iff.mp hne), by simpa using hne⟩
  left x hx := by
    obtain ⟨b, hb, rfl⟩ := List.mem_map.mp hx
    exact forall_mem_eraseDups_map (P := fun b => Agree (f b).2.run (f b).2.run)
      (fun a ha => (h a ha).2.left) b hb
  right y hy := by
    obtain ⟨a, ha, rfl⟩ := List.mem_map.mp hy
    exact (h a ha).2.right
  first looks k l hk s hs := by
    have hsame : ∀ a ∈ as, (f (g a)).act looks s none k = (f a).act looks s none l := fun a ha =>
      (act_agree (h a ha).1 (h a ha).2 looks k l hk s hs).1
    have hall : (as.map g).map (fun b => (f b).act looks s none k) =
        as.map fun a => (f a).act looks s none l := by
      rw [List.map_map]
      exact List.map_congr_left hsame
    simp only [Outcome.first?, outcomes, List.map_map, Function.comp_def]
    rw [← hall, List.find?_map, List.find?_map, find?_eraseDups]

end Branch

namespace Strategy

open PatternBuilder.Dialect.Action (Agree)

/-- What the alternatives come to is what the first does that does not fail. -/
theorem run_ofBranches {ps : List Strategy} (hne : ps ≠ []) {s : State} {k : Continuation}
    (h : ∀ p ∈ ps, (p.run s none k).IsFree) :
    (ofBranches ps).run s none k =
      (Outcome.first? (ps.map fun p => p.run s none k)).getD (.failed none) := by
  induction ps with
  | nil => exact absurd rfl hne
  | cons p ps ih =>
    obtain ⟨hp, hps⟩ := List.forall_mem_cons.mp h
    rw [List.map_cons, Outcome.first?_cons]
    cases ps with
    | nil =>
      rw [ofBranches]
      split
      · simpa [Outcome.first?]
      · rfl
    | cons q ps =>
      have hrest := ih (List.cons_ne_nil q ps) hps
      have halt : (ofBranches (p :: q :: ps)).run s none k =
          (p.run s none k).orElse fun b => (ofBranches (q :: ps)).run s b k := rfl
      rw [halt, hp.orElse_eq, hrest]
      split <;> rfl

theorem run_ofItems_lookNot {xs : List Branch} {s : State} {k : Continuation}
    (h : ∀ x ∈ xs, (x.act true s none .found).IsFree) :
    (ofItems (xs.map fun x => look x.1 true x.2)).run s none k =
      match Outcome.first? (Branch.outcomes true xs s .found) with
      | none => k s none
      | some (.found _ _) => .failed none
      | some o => o := by
  induction xs with
  | nil => rfl
  | cons x xs ih =>
    obtain ⟨hx, hxs⟩ := List.forall_mem_cons.mp h
    have hseq : (ofItems ((x :: xs).map fun x => look x.1 true x.2)).run s none k =
        x.2.run.lookNot x.1 s none fun t b =>
          (ofItems (xs.map fun x => look x.1 true x.2)).run t b k := by
      rw [List.map_cons, run_ofItems_cons]
      rfl
    have hact : x.2.run.look x.1 s none .found = x.act true s none .found := rfl
    have houtcomes : Branch.outcomes true (x :: xs) s .found =
        x.act true s none .found :: Branch.outcomes true xs s .found := rfl
    rw [hseq, Action.lookNot, hact, houtcomes, Outcome.first?_cons]
    cases ho : x.act true s none .found with
    | found t left =>
      rw [ho] at hx
      obtain rfl : left = none := hx.2
      rfl
    | failed left =>
      rw [ho] at hx
      obtain rfl : left = none := hx
      exact ih hxs
    | exhausted => rfl

end Strategy

namespace Branch.AreAgreed

open PatternBuilder.Dialect.Action (Agree)

variable {xs ys : List Branch}

theorem free (h : AreAgreed xs ys) (looks : Bool) {k : Continuation}
    (hk : Continuation.Agree k k) {s : State} (hs : s.cursor.IsAscii) :
    ∀ x ∈ xs, (x.act looks s none k).IsFree :=
  fun x hx => (act_agree rfl (h.left x hx) looks k k hk s hs).2

theorem symm (h : AreAgreed xs ys) : AreAgreed ys xs where
  nonempty := ⟨h.nonempty.2, h.nonempty.1⟩
  left := h.right
  right := h.left
  first looks k l hk s hs := (h.first looks l k hk.symm s hs).symm

/-- Either list of alternatives can be tried in the place of the other, here or behind here. -/
theorem ofBranches (h : AreAgreed xs ys) (looks : Bool) {f : Branch → Strategy}
    (hf : ∀ x, (f x).run = x.act looks) :
    Agree (Strategy.ofBranches (xs.map f)).run (Strategy.ofBranches (ys.map f)).run := by
  intro k l hk s hs
  have hrun : ∀ {zs ws : List Branch} {k : Continuation}, AreAgreed zs ws →
      Continuation.Agree k k → (Strategy.ofBranches (zs.map f)).run s none k =
        (Outcome.first? (outcomes looks zs s k)).getD (.failed none) := by
    intro zs ws k hzs hk
    rw [Strategy.run_ofBranches (by simpa using hzs.nonempty.1), List.map_map]
    · simp only [Function.comp_def, hf]
      rfl
    · intro p hp
      obtain ⟨x, hx, rfl⟩ := List.mem_map.mp hp
      rw [hf]
      exact hzs.free looks hk hs x hx
  simp only [hrun h hk.left, hrun h.symm hk.symm.left]
  rw [← h.first looks k l hk s hs]
  refine ⟨rfl, ?_⟩
  cases hfirst : Outcome.first? (outcomes looks xs s k) with
  | none => rfl
  | some o =>
    obtain ⟨x, hx, rfl⟩ := List.mem_map.mp (List.mem_of_find?_eq_some hfirst)
    exact h.free looks hk.left hs x hx

theorem lookNot (h : AreAgreed xs ys) :
    Agree (Strategy.ofItems (xs.map fun x => .look x.1 true x.2)).run
      (Strategy.ofItems (ys.map fun x => .look x.1 true x.2)).run := by
  intro k l hk s hs
  have hfree := h.free true Continuation.agree_found hs
  simp only [Strategy.run_ofItems_lookNot hfree,
    Strategy.run_ofItems_lookNot (h.symm.free true Continuation.agree_found hs),
    ← h.first true _ _ Continuation.agree_found s hs]
  cases hfirst : Outcome.first? (outcomes true xs s .found) with
  | none => exact hk s hs
  | some o =>
    obtain ⟨x, hx, rfl⟩ := List.mem_map.mp (List.mem_of_find?_eq_some hfirst)
    have hx := hfree x hx
    cases ho : x.act true s none .found with
    | found t left => exact ⟨rfl, rfl⟩
    | failed left =>
      rw [ho] at hx
      exact ⟨rfl, hx⟩
    | exhausted => exact ⟨rfl, trivial⟩

end Branch.AreAgreed

namespace Strategy

open PatternBuilder.Dialect.Action (Agree)

variable {p q : Strategy}

theorem searchFrom_agree (h : Agree p.run q.run) {passed rest : Text} (offset : Nat)
    (hpassed : ∀ x ∈ passed, Unicode.isAscii x = true)
    (hrest : ∀ x ∈ rest, Unicode.isAscii x = true) :
    p.searchFrom none passed offset rest = q.searchFrom none passed offset rest := by
  induction rest generalizing passed offset with
  | nil =>
    have hrun := h _ _ Continuation.agree_found ⟨⟨passed, [], offset⟩, []⟩ ⟨hpassed, hrest⟩
    simp only at hrun
    rw [searchFrom, searchFrom, ← hrun.1]
  | cons x rest ih =>
    have hrun := h _ _ Continuation.agree_found ⟨⟨passed, x :: rest, offset⟩, []⟩ ⟨hpassed, hrest⟩
    simp only at hrun
    obtain ⟨hx, hbehind⟩ := List.forall_mem_cons.mp hrest
    rw [searchFrom, searchFrom, ← hrun.1]
    cases ho : p.run ⟨⟨passed, x :: rest, offset⟩, []⟩ none .found with
    | found s left => rfl
    | exhausted => rfl
    | failed left =>
      have hfree := hrun.2
      rw [ho] at hfree
      obtain rfl : left = none := hfree
      exact ih _ (List.forall_mem_cons.mpr ⟨hx, hpassed⟩) hbehind

end Strategy
end Dialect
end PatternBuilder
