import PatternBuilder.Pattern
import PatternBuilder.Proofs.SimpleTrees

/-!
# Where a tree leads

The places that a simple tree leads to from a place in a text. Backtracking without limits finds a
match exactly if there is such a place.
-/

namespace PatternBuilder

namespace Dialect

namespace Node

def Reaches : Node → Cursor → Cursor → Prop
  | .empty, c, d => d = c
  | .single s, c, d => c.read? s = some d
  | .anchor a, c, d => d = c ∧ a.holds c = true
  | .paren p body, c, d => p.isGroup = true ∧ body.Reaches c d
  | .times _ _ _ _, _, _ => False
  | .seq a b, c, d => ∃ e, a.Reaches c e ∧ b.Reaches e d
  | .alt a b, c, d => a.Reaches c d ∨ b.Reaches c d

theorem Alike.reaches {m n : Node} (h : Alike m n) (c d : Cursor) :
    m.Reaches c d ↔ n.Reaches c d := by
  induction h generalizing c d with
  | refl n => rfl
  | symm _ ih => exact (ih c d).symm
  | trans _ _ ih₁ ih₂ => exact (ih₁ c d).trans (ih₂ c d)
  | plain n => simp [Reaches, Paren.isGroup]
  | emptySeq n => simp [Reaches]
  | seqEmpty n => simp [Reaches]
  | seqAssoc l m n =>
    constructor
    · rintro ⟨f, ⟨e, hl, hm⟩, hn⟩
      exact ⟨e, hl, f, hm, hn⟩
    · rintro ⟨e, hl, f, hm, hn⟩
      exact ⟨f, ⟨e, hl, hm⟩, hn⟩
  | altAssoc l m n => exact or_assoc
  | paren p _ ih => exact and_congr Iff.rfl (ih c d)
  | times => rfl
  | seq _ _ ih₁ ih₂ => exact exists_congr fun e => and_congr (ih₁ c e) (ih₂ e d)
  | alt _ _ ih₁ ih₂ => exact or_congr (ih₁ c d) (ih₂ c d)

end Node

/-- Without limits, the continuation takes over exactly at the places with the property. -/
def Continuation.Tests (k : Continuation) (P : Cursor → Prop) : Prop :=
  ∀ s : State, (P s.cursor → ∃ t, k s none = .found t none) ∧
    (¬P s.cursor → k s none = .failed none)

theorem Continuation.Tests.congr {k : Continuation} {P Q : Cursor → Prop}
    (h : Continuation.Tests k P) (hiff : ∀ c, P c ↔ Q c) : Continuation.Tests k Q := by
  intro s
  rw [← hiff]
  exact h s

/-- The action tries exactly the places that the relation leads to. -/
def Action.Follows (m : Action) (R : Cursor → Cursor → Prop) : Prop :=
  ∀ (k : Continuation) (P : Cursor → Prop), Continuation.Tests k P →
    Continuation.Tests (fun s b => m s b k) fun c => ∃ d, R c d ∧ P d

namespace Strategy

open PatternBuilder.Dialect.Continuation PatternBuilder.Dialect.Action

variable {R S : Cursor → Cursor → Prop} {p q : Strategy}

theorem follows_congr (h : Follows p.run R) (hiff : ∀ c d, R c d ↔ S c d) : Follows p.run S :=
  fun k P hk => (h k P hk).congr fun c => exists_congr fun d => and_congr_left' (hiff c d)

theorem follows_done : Follows (run .done) fun c d => d = c :=
  fun k P hk => Tests.congr hk fun c => by simp

theorem follows_set (x : CharSet) : Follows (run (.set x)) fun c d => c.read? x = some d := by
  intro k P hk s
  cases hread : s.cursor.read? x with
  | none => simp [run, hread]
  | some c => simpa [run, hread] using hk { s with cursor := c }

theorem follows_anchor (a : Anchor) :
    Follows (run (.anchor a)) fun c d => d = c ∧ a.holds c = true := by
  intro k P hk s
  by_cases ha : a.holds s.cursor = true
  · simpa [run, ha] using hk s
  · simp [run, ha]

theorem follows_capture (number : Nat) (h : Follows p.run R) :
    Follows (run (.capture number p)) R := by
  intro k P hk s
  have hinner : Tests (fun t b => k (t.capture number (s.cursor.textTo t.cursor)) b) P :=
    fun t => hk (t.capture number (s.cursor.textTo t.cursor))
  exact h _ P hinner s

theorem follows_seq (hp : Follows p.run R) (hq : Follows q.run S) :
    Follows (run (.seq p q)) fun c d => ∃ e, R c e ∧ S e d := by
  intro k P hk
  apply Tests.congr (hp _ _ (hq k P hk))
  intro c
  constructor
  · rintro ⟨e, hr, d, hs, hd⟩
    exact ⟨d, ⟨e, hr, hs⟩, hd⟩
  · rintro ⟨d, ⟨e, hr, hs⟩, hd⟩
    exact ⟨e, hr, d, hs, hd⟩

theorem follows_alt (hp : Follows p.run R) (hq : Follows q.run S) :
    Follows (run (.alt p q)) fun c d => R c d ∨ S c d := by
  intro k P hk s
  have hfirst := hp k P hk s
  have hsecond := hq k P hk s
  by_cases hr : ∃ d, R s.cursor d ∧ P d
  · obtain ⟨t, ht⟩ := hfirst.1 hr
    obtain ⟨d, hd⟩ := hr
    refine ⟨fun _ => ⟨t, ?_⟩, fun hn => absurd ⟨d, .inl hd.1, hd.2⟩ hn⟩
    simp [run, ht, Outcome.orElse]
  · have hfailed : (run (.alt p q)) s none k = q.run s none k := by
      simp [run, hfirst.2 hr, Outcome.orElse]
    have hiff : (∃ d, (R s.cursor d ∨ S s.cursor d) ∧ P d) ↔ ∃ d, S s.cursor d ∧ P d := by
      constructor
      · rintro ⟨d, hd | hd, hP⟩
        · exact absurd ⟨d, hd, hP⟩ hr
        · exact ⟨d, hd, hP⟩
      · rintro ⟨d, hd, hP⟩
        exact ⟨d, .inr hd, hP⟩
    refine ⟨fun hd => ?_, fun hd => ?_⟩
    · obtain ⟨t, ht⟩ := hsecond.1 (hiff.mp hd)
      exact ⟨t, hfailed.trans ht⟩
    · exact hfailed.trans (hsecond.2 fun hs => hd (hiff.mpr hs))

/-- How a sequence is bracketed does not matter to what it does. -/
theorem run_ofItems_cons (p : Strategy) (ps : List Strategy) :
    (ofItems (p :: ps)).run = (seq p (ofItems ps)).run := by
  cases ps <;> rfl

theorem run_ofItems_append (ps qs : List Strategy) :
    (ofItems (ps ++ qs)).run = (seq (ofItems ps) (ofItems qs)).run := by
  induction ps with
  | nil => rfl
  | cons p ps ih =>
    rw [List.cons_append, run_ofItems_cons, run, ih, run, run, run_ofItems_cons, run]

end Strategy

/-- The members of a sequence are matched one after the other as the relation says. -/
def Carry (cs : List Core) (R : Cursor → Cursor → Prop) : Prop :=
  ∀ goesOn, ∃ ps, (strategiesOfAll none goesOn cs).mapM id = .ok ps ∧
    Action.Follows (Strategy.ofItems ps).run R

theorem strategiesOfAll_append (goesOn : Bool) (cs ds : List Core) :
    strategiesOfAll none goesOn (cs ++ ds) =
      strategiesOfAll none goesOn cs ++ strategiesOfAll none goesOn ds := by
  induction cs with
  | nil => rfl
  | cons c cs ih => simp [strategiesOfAll, ih]

variable {R S : Cursor → Cursor → Prop} {cs ds : List Core}

theorem Carry.congr (h : Carry cs R) (hiff : ∀ c d, R c d ↔ S c d) : Carry cs S := by
  intro goesOn
  obtain ⟨ps, hps, hfollows⟩ := h goesOn
  exact ⟨ps, hps, Strategy.follows_congr hfollows hiff⟩

theorem Carry.append (hc : Carry cs R) (hd : Carry ds S) :
    Carry (cs ++ ds) fun c d => ∃ e, R c e ∧ S e d := by
  intro goesOn
  obtain ⟨ps, hps, hp⟩ := hc goesOn
  obtain ⟨qs, hqs, hq⟩ := hd goesOn
  refine ⟨ps ++ qs, ?_, ?_⟩
  · rw [strategiesOfAll_append, List.mapM_append, hps, hqs]
    rfl
  · rw [Strategy.run_ofItems_append]
    exact Strategy.follows_seq hp hq

theorem carry_single {c : Core} :
    Carry [c] R ↔ ∀ goesOn, ∃ p, c.strategy none goesOn = .ok p ∧ Action.Follows p.run R := by
  constructor
  · intro h goesOn
    obtain ⟨ps, hps, hfollows⟩ := h goesOn
    cases hc : c.strategy none goesOn with
    | error e =>
      rw [strategiesOfAll, strategiesOfAll, hc] at hps
      cases hps
    | ok p =>
      rw [strategiesOfAll, strategiesOfAll, hc] at hps
      cases hps
      exact ⟨p, rfl, hfollows⟩
  · intro h goesOn
    obtain ⟨p, hp, hfollows⟩ := h goesOn
    exact ⟨[p], by rw [strategiesOfAll, strategiesOfAll, hp]; rfl, hfollows⟩

theorem Carry.ofItems (h : Carry cs R) : Carry [Core.ofItems cs] R := by
  by_cases hone : ∃ c, cs = [c]
  · obtain ⟨c, rfl⟩ := hone
    exact h
  · have hconcat : Core.ofItems cs = .concat cs := by
      rw [Core.ofItems]
      exact fun c hc => hone ⟨c, hc⟩
    rw [hconcat, carry_single]
    intro goesOn
    obtain ⟨ps, hps, hfollows⟩ := h true
    exact ⟨.ofItems ps, by
      simp [Core.strategy, Strategy.sequence, hps, bind, Except.bind, pure, Except.pure], hfollows⟩

theorem Carry.capture (number : Nat) {c : Core} (h : Carry [c] R) :
    Carry [.capture number c] R := by
  rw [carry_single] at h ⊢
  intro goesOn
  obtain ⟨p, hp, hfollows⟩ := h goesOn
  exact ⟨.capture number p, by simp [Core.strategy, hp, bind, Except.bind, pure, Except.pure],
    Strategy.follows_capture number hfollows⟩

theorem strategy_choice {goesOn : Bool} {branches : List Core} {ps : List Strategy}
    (h : (strategiesOfAll none goesOn branches).mapM id = .ok ps) :
    (Core.choice branches).strategy none goesOn = .ok (.ofBranches ps) := by
  simp [Core.strategy, h, bind, Except.bind, pure, Except.pure]

theorem strategiesOfAll_cons {goesOn : Bool} {c : Core} {cs : List Core} {qs : List Strategy}
    (h : (strategiesOfAll none goesOn (c :: cs)).mapM id = .ok qs) : qs ≠ [] := by
  rintro rfl
  rw [strategiesOfAll, List.mapM_cons] at h
  cases hc : c.strategy none goesOn with
  | error e =>
    rw [hc] at h
    cases h
  | ok p =>
    cases hcs : (strategiesOfAll none goesOn cs).mapM id <;> rw [hc, hcs] at h <;> cases h

theorem Carry.choice_single {c : Core} (h : Carry [c] R) : Carry [.choice [c]] R := by
  rw [carry_single]
  intro goesOn
  obtain ⟨p, hp, hfollows⟩ := carry_single.mp h goesOn
  have hall : (strategiesOfAll none goesOn [c]).mapM id = .ok [p] := by
    rw [strategiesOfAll, strategiesOfAll, hp]
    rfl
  exact ⟨p, strategy_choice hall, hfollows⟩

theorem Carry.choice {b c : Core} {branches : List Core} (hb : Carry [b] R)
    (h : Carry [.choice (c :: branches)] S) :
    Carry [.choice (b :: c :: branches)] fun d e => R d e ∨ S d e := by
  rw [carry_single] at hb h ⊢
  intro goesOn
  obtain ⟨p, hp, hfollows⟩ := hb goesOn
  obtain ⟨q, hq, hothers⟩ := h goesOn
  cases hbranches : (strategiesOfAll none goesOn (c :: branches)).mapM id with
  | error e => simp [Core.strategy, hbranches, bind, Except.bind] at hq
  | ok qs =>
    have hsame : q = .ofBranches qs := Except.ok.inj (hq.symm.trans (strategy_choice hbranches))
    have hall : (strategiesOfAll none goesOn (b :: c :: branches)).mapM id = .ok (p :: qs) := by
      rw [strategiesOfAll, List.mapM_cons, hbranches, hp]
      rfl
    obtain ⟨r, rs, rfl⟩ := List.exists_cons_of_ne_nil (strategiesOfAll_cons hbranches)
    refine ⟨.alt p (.ofBranches (r :: rs)), strategy_choice hall, ?_⟩
    exact Strategy.follows_alt hfollows (hsame ▸ hothers)

theorem Node.members_alt (a b : Node) (base : Nat) :
    ∃ c cs, (Node.alt a b).members base = [.choice (c :: cs)] := by
  unfold members
  split <;> exact ⟨_, _, rfl⟩

theorem Node.carry_members {n : Node} (h : n.isSimple = true) (base : Nat) :
    Carry (n.members base) n.Reaches := by
  induction n generalizing base with
  | empty => exact fun _ => ⟨[], rfl, Strategy.follows_done⟩
  | single s =>
    exact carry_single.mpr fun goesOn => ⟨.set s, by simp [Core.strategy], Strategy.follows_set s⟩
  | anchor a =>
    exact carry_single.mpr fun goesOn =>
      ⟨.anchor a, by simp [Core.strategy], Strategy.follows_anchor a⟩
  | paren p body ih =>
    rw [isSimple, Bool.and_eq_true] at h
    have hsame : ∀ c d, body.Reaches c d ↔ (paren p body).Reaches c d := fun c d => by
      simp [Reaches, h.1]
    cases p with
    | plain =>
      have hbody := (ih h.2 base).congr hsame
      rw [members]
      split
      next hnil => rwa [hnil] at hbody
      next => exact hbody.ofItems
    | capture => exact ((ih h.2 (base + 1)).ofItems.capture (base + 1)).congr hsame
    | named name => exact ((ih h.2 (base + 1)).ofItems.capture (base + 1)).congr hsame
    | atomic => cases h.1
    | look behind negated => cases h.1
  | times => cases h
  | seq a b iha ihb =>
    rw [isSimple, Bool.and_eq_true] at h
    exact (iha h.1 base).append (ihb h.2 _)
  | alt a b iha ihb =>
    rw [isSimple, Bool.and_eq_true] at h
    have ha := (iha h.1 base).ofItems
    have hb := ihb h.2 (base + a.captureCount)
    unfold members
    split
    next l r branches hmembers =>
      obtain ⟨c, cs, hchoice⟩ := members_alt l r (base + a.captureCount)
      obtain rfl : branches = c :: cs := by
        have hsame := hmembers.symm.trans hchoice
        simpa using hsame
      rw [hmembers] at hb
      exact ha.choice hb
    next => exact ha.choice hb.ofItems.choice_single

theorem tests_found : Continuation.Tests .found fun _ => True :=
  fun s => ⟨fun _ => ⟨s, rfl⟩, fun h => absurd trivial h⟩

theorem Strategy.isSome_searchFrom {p : Strategy} (h : Action.Follows p.run R) (passed : Text)
    (offset : Nat) (rest : Text) :
    (p.searchFrom none passed offset rest).isSome = true ↔
      ∃ u v, rest = u ++ v ∧ ∃ d, R ⟨u.reverse ++ passed, v, offset + Text.utf8Length u⟩ d := by
  induction rest generalizing passed offset with
  | nil =>
    have hrun := h _ _ tests_found ⟨⟨passed, [], offset⟩, []⟩
    have hhere : (∃ u v, ([] : Text) = u ++ v ∧
        ∃ d, R ⟨u.reverse ++ passed, v, offset + Text.utf8Length u⟩ d) ↔
        ∃ d, R ⟨passed, [], offset⟩ d ∧ True := by
      constructor
      · rintro ⟨u, v, huv, d, hd⟩
        obtain ⟨rfl, rfl⟩ := List.append_eq_nil_iff.mp huv.symm
        exact ⟨d, hd, trivial⟩
      · rintro ⟨d, hd, _⟩
        exact ⟨[], [], rfl, d, hd⟩
    rw [hhere, searchFrom]
    by_cases hR : ∃ d, R ⟨passed, [], offset⟩ d ∧ True
    · obtain ⟨s, hs⟩ := hrun.1 hR
      simp only [hs, hR, Option.isSome_some]
    · simp only [hrun.2 hR, hR, Option.isSome_none, Bool.false_eq_true]
  | cons x rest ih =>
    have hrun := h _ _ tests_found ⟨⟨passed, x :: rest, offset⟩, []⟩
    rw [searchFrom]
    by_cases hR : ∃ d, R ⟨passed, x :: rest, offset⟩ d ∧ True
    · obtain ⟨s, hs⟩ := hrun.1 hR
      obtain ⟨d, hd, _⟩ := hR
      simp only [hs, Option.isSome_some, true_iff]
      exact ⟨[], x :: rest, rfl, d, hd⟩
    · simp only [hrun.2 hR]
      refine (ih (x :: passed) (offset + x.utf8Size)).trans ?_
      constructor
      · rintro ⟨u, v, rfl, d, hd⟩
        refine ⟨x :: u, v, rfl, d, ?_⟩
        simpa [Text.utf8Length, Nat.add_assoc] using hd
      · rintro ⟨u, v, huv, d, hd⟩
        cases u with
        | nil =>
          rw [List.nil_append] at huv
          subst huv
          exact absurd ⟨d, hd, trivial⟩ hR
        | cons y u =>
          obtain ⟨rfl, rfl⟩ := List.cons.inj huv
          refine ⟨u, v, rfl, d, ?_⟩
          simpa [Text.utf8Length, Nat.add_assoc] using hd

end Dialect

open Dialect

/-- A tree whose members are matched as a relation says compiles, and the pattern matches exactly
the texts in which the relation leads somewhere. -/
theorem Pattern.isMatch_of_carry {source : Text} {flags : Flags} {n : Node}
    {R : Cursor → Cursor → Prop} (hparse : Node.parse (dialectText source flags) = .ok n)
    (hn : Carry (n.members 0) R) :
    ∃ p, Pattern.ofText .unlimited source flags = .ok p ∧ ∀ t, p.isMatch t = true ↔
      ∃ u v, t = u ++ v ∧ ∃ d, R ⟨u.reverse, v, Text.utf8Length u⟩ d := by
  obtain ⟨p, hp, hfollows⟩ := carry_single.mp hn.ofItems true
  replace hp : n.core.strategy none true = .ok p := hp
  have hsearcher : searcherOf .unlimited n.core =
      .ok (.backtracking p none, n.core.groups.length) := by
    simp [searcherOf, Limits.unlimited, hp, bind, Except.bind, pure, Except.pure]
  refine ⟨⟨source, flags, .backtracking p none, n.core.groups.length + 1, n.names 0⟩,
    ?_, fun t => ?_⟩
  · simp only [ofText, hparse, hsearcher, bind, Except.bind, pure, Except.pure]
    rfl
  · have hsearch := Strategy.isSome_searchFrom hfollows [] 0 t
    simp only [List.append_nil, Nat.zero_add] at hsearch
    rw [← hsearch]
    simp only [isMatch, find, searchFrom, Strategy.search, Cursor.start]
    cases p.searchFrom none [] 0 t <;> rfl

/-- A simple tree compiles, and the pattern matches exactly the texts in which the tree leads
somewhere. -/
theorem Pattern.isMatch_unlimited {source : Text} {flags : Flags} {n : Node}
    (hparse : Node.parse (dialectText source flags) = .ok n) (hn : n.isSimple = true) :
    ∃ p, Pattern.ofText .unlimited source flags = .ok p ∧ ∀ t, p.isMatch t = true ↔
      ∃ u v, t = u ++ v ∧ ∃ d, n.Reaches ⟨u.reverse, v, Text.utf8Length u⟩ d :=
  isMatch_of_carry hparse (n.carry_members hn 0)

end PatternBuilder
