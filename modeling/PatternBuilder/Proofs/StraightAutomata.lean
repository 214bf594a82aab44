import PatternBuilder.Dialect.Strategy
import PatternBuilder.Proofs.AcceptedTexts

/-!
# Straight automata

The automaton of an expression without repetition, choice and groups goes through its states one
below the other. It finds a match where the expression leads somewhere.
-/

namespace PatternBuilder.Dialect

namespace Regular

/-- Nothing is repeated, chosen or captured. -/
def isStraight : Regular → Bool
  | .text _ => true
  | .set _ => true
  | .anchor _ => true
  | .seq a b => a.isStraight && b.isStraight
  | _ => false

def Leads : Regular → Cursor → Cursor → Prop
  | .text t, c, d => c.Passes t d
  | .set s, c, d => c.read? s = some d
  | .anchor a, c, d => d = c ∧ a.holds c = true
  | .seq a b, c, d => ∃ e, a.Leads c e ∧ b.Leads e d
  | _, _, _ => False

end Regular

namespace Automaton

variable {a : Automaton} {P : Cursor → Prop}

/-- A thread that comes to the state finds a match exactly at the places with the property, where
neither the state nor one below it has been visited. -/
def Decides (a : Automaton) (state : Nat) (P : Cursor → Prop) : Prop :=
  ∀ (visited : Visited) (steps : Nat) (t : Thread), t.state = state → state < steps →
    (∀ place q, q ≤ state → (place, q) ∉ visited) →
      ((a.run visited steps [t]).1.isSome = true ↔ P t.place)

theorem Decides.congr {Q : Cursor → Prop} {state : Nat} (h : a.Decides state P)
    (hiff : ∀ c, P c ↔ Q c) : a.Decides state Q :=
  fun visited steps t hstate hsteps hfresh =>
    (h visited steps t hstate hsteps hfresh).trans (hiff t.place)

theorem not_contains_of_fresh {visited : Visited} {state : Nat}
    (hfresh : ∀ place q, q ≤ state → (place, q) ∉ visited) (place : Nat) :
    visited.contains (place, state) = false := by
  rw [Bool.eq_false_iff, ne_eq, Std.HashSet.contains_iff_mem]
  exact hfresh place state (Nat.le_refl state)

theorem decides_accept (h : a.code[0]? = some .accept) : a.Decides 0 fun _ => True := by
  intro visited steps t hstate hsteps hfresh
  obtain ⟨n, rfl⟩ : ∃ n, steps = n + 1 := ⟨steps - 1, by omega⟩
  rw [run, hstate, not_contains_of_fresh hfresh, if_neg Bool.false_ne_true, h]
  simp

/-- One step of a thread that is alone and has been nowhere that counts. -/
theorem run_step {visited : Visited} {n : Nat} {t : Thread} {i : Instruction}
    (hfresh : ∀ place q, q ≤ t.state → (place, q) ∉ visited) (hi : a.code[t.state]? = some i)
    (hne : i ≠ .accept) : a.run visited (n + 1) [t] =
      a.run (visited.insert (t.place.offset, t.state)) n (successors t i) := by
  rw [run, not_contains_of_fresh hfresh, if_neg Bool.false_ne_true, hi]
  cases i with
  | accept => exact absurd rfl hne
  | _ => simp only [List.append_nil]

/-- A state with one successor, which lies below it, decides what its instruction lets pass. -/
theorem Decides.step {state next : Nat} {i : Instruction} {R : Cursor → Cursor → Prop}
    (h : a.Decides next P) (hbelow : next < state) (hi : a.code[state]? = some i)
    (hne : i ≠ .accept)
    (hsuccessors : ∀ t : Thread, (successors t i = [] ∧ ∀ d, ¬R t.place d) ∨
      ∃ u d, successors t i = [u] ∧ u.state = next ∧ u.place = d ∧ ∀ e, R t.place e ↔ e = d) :
    a.Decides state fun c => ∃ d, R c d ∧ P d := by
  intro visited steps t hstate hsteps hfresh
  obtain ⟨n, rfl⟩ : ∃ n, steps = n + 1 := ⟨steps - 1, by omega⟩
  rw [run_step (hstate ▸ hfresh) (hstate ▸ hi) hne]
  rcases hsuccessors t with ⟨hnil, hno⟩ | ⟨u, d, hone, hnext, rfl, honly⟩
  · have hnone : (a.run (visited.insert (t.place.offset, t.state)) n []).1 = none := by
      cases n <;> rfl
    simp [hnil, hnone, hno]
  · have hfresh' : ∀ place q, q ≤ next →
        (place, q) ∉ visited.insert (t.place.offset, t.state) := by
      intro place q hq hmem
      rcases Std.HashSet.mem_insert.mp hmem with heq | hmem
      · have hsame := congrArg Prod.snd (eq_of_beq heq)
        simp only at hsame
        omega
      · exact hfresh place q (by omega) hmem
    rw [hone, h _ n u hnext (by omega) hfresh']
    simp [honly]

theorem Decides.read {state next : Nat} {s : CharSet} (h : a.Decides next P) (hbelow : next < state)
    (hi : a.code[state]? = some (.read s next)) :
    a.Decides state fun c => ∃ d, c.read? s = some d ∧ P d := by
  refine h.step hbelow hi nofun fun t => ?_
  cases hread : t.place.read? s with
  | none => exact .inl ⟨by simp [successors, hread], by simp⟩
  | some d =>
    exact .inr ⟨{ t with state := next, place := d }, d, by simp [successors, hread], rfl, rfl,
      fun e => by simp [eq_comm]⟩

theorem Decides.anchor {state next : Nat} {x : Anchor} (h : a.Decides next P)
    (hbelow : next < state) (hi : a.code[state]? = some (.anchor x next)) :
    a.Decides state fun c => ∃ d, (d = c ∧ x.holds c = true) ∧ P d := by
  refine h.step hbelow hi nofun fun t => ?_
  by_cases hx : x.holds t.place = true
  · exact .inr ⟨{ t with state := next }, t.place, by simp [successors, hx], rfl, rfl,
      fun e => by simp [hx]⟩
  · exact .inl ⟨by simp [successors, hx], fun d hd => hx hd.2⟩

end Automaton

structure Builds.Carries (f : Builds) (R : Cursor → Cursor → Prop) : Prop where
  inBounds : ∀ {next code}, next < code.size → (f next code).1 < (f next code).2.size
  keeps : ∀ {next code}, next < code.size → code.toList <+: (f next code).2.toList
  decides : ∀ {next code}, next < code.size → ∀ {a : Automaton} {P : Cursor → Prop},
    (f next code).2.toList <+: a.code.toList → a.Decides next P →
      a.Decides (f next code).1 fun c => ∃ d, R c d ∧ P d

namespace Builds

variable {f g : Builds} {R S : Cursor → Cursor → Prop}

theorem Carries.congr (h : f.Carries R) (hiff : ∀ c d, R c d ↔ S c d) : f.Carries S := by
  obtain rfl : R = S := funext fun c => funext fun d => propext (hiff c d)
  exact h

theorem carries_nothing : Carries (fun next code => (next, code)) fun c d => d = c where
  inBounds h := h
  keeps _ := List.prefix_refl _
  decides _ _ _ _ h := h.congr fun c => by simp

theorem carries_add {i : (next : Nat) → Instruction} (h : ∀ {a : Automaton} {next state P},
    next < state → a.code[state]? = some (i next) → a.Decides next P →
      a.Decides state fun c => ∃ d, R c d ∧ P d) :
    Carries (fun next code => code.add (i next)) R where
  inBounds := by simp [Code.add]
  keeps := by simp [Code.add]
  decides {next code} hnext a P hkept hdecides := by
    have hcode : a.code[code.size]? = some (i next) := by
      have hlast := List.prefix_iff_getElem?.mp hkept code.size (by simp [Code.add])
      simpa [Code.add] using hlast
    exact h hnext hcode hdecides

theorem carries_read (s : CharSet) :
    Carries (fun next code => code.add (.read s next)) fun c d => c.read? s = some d :=
  carries_add fun hbelow hi h => h.read hbelow hi

theorem carries_anchor (x : Anchor) : Carries (fun next code => code.add (.anchor x next))
    fun c d => d = c ∧ x.holds c = true :=
  carries_add fun hbelow hi h => h.anchor hbelow hi

/-- What comes first is built last. -/
theorem Carries.seq (hf : f.Carries R) (hg : g.Carries S) :
    Carries (fun next code => f (g next code).1 (g next code).2)
      fun c d => ∃ e, R c e ∧ S e d where
  inBounds h := hf.inBounds (hg.inBounds h)
  keeps h := (hg.keeps h).trans (hf.keeps (hg.inBounds h))
  decides h a P hkept hdecides := by
    have hrest := hg.decides h ((hf.keeps (hg.inBounds h)).trans hkept) hdecides
    refine (hf.decides (hg.inBounds h) hkept hrest).congr fun c => ?_
    constructor
    · rintro ⟨e, hce, d, hed, hP⟩
      exact ⟨d, ⟨e, hce, hed⟩, hP⟩
    · rintro ⟨d, ⟨e, hce, hed⟩, hP⟩
      exact ⟨e, hce, d, hed, hP⟩

end Builds

namespace Regular

theorem carries_text (t : Text) : (Regular.text t).build.Carries fun c d => c.Passes t d := by
  induction t with
  | nil => exact Builds.carries_nothing.congr fun c d => Cursor.passes_nil.symm
  | cons x t ih =>
    refine ((Builds.carries_read (.single x)).seq ih).congr fun c d => ?_
    rw [← List.singleton_append, Cursor.passes_append]
    simp only [Cursor.read?_eq_some, CharSet.contains_single, exists_eq_left]

theorem carries_build {r : Regular} (h : r.isStraight = true) : r.build.Carries r.Leads := by
  induction r with
  | text t => exact carries_text t
  | set s => exact Builds.carries_read s
  | anchor x => exact Builds.carries_anchor x
  | seq r s ihr ihs =>
    have hparts : r.isStraight = true ∧ s.isStraight = true := by simpa [isStraight] using h
    exact (ihr hparts.1).seq (ihs hparts.2)
  | _ => cases h

theorem decides_ofRegular {r : Regular} (h : r.isStraight = true) (groups : List Nat) :
    (Automaton.ofRegular groups r).Decides (Automaton.ofRegular groups r).start
      fun c => ∃ d, r.Leads c d := by
  have hcarries := carries_build h
  have hnext : 0 < Array.size #[Instruction.accept] := Nat.zero_lt_one
  have haccept : (Automaton.ofRegular groups r).code[0]? = some .accept := by
    have hlast := List.prefix_iff_getElem?.mp (hcarries.keeps hnext) 0 Nat.zero_lt_one
    simpa [Automaton.ofRegular] using hlast
  refine (hcarries.decides hnext (List.prefix_refl _) (Automaton.decides_accept haccept)).congr ?_
  intro c
  simp only [and_true]

end Regular

namespace Automaton

variable {a : Automaton} {P : Cursor → Prop} {next : Nat}

theorem run_behind (hfirst : a.code[a.start]? = some (.anchor .textStart next)) {c : Cursor}
    (hc : c.passed ≠ []) (visited : Visited) (steps : Nat) :
    (a.run visited steps [a.firstThread c]).1 = none := by
  have hdone : ∀ (visited : Visited) (n : Nat), (a.run visited n []).1 = none := by
    intro visited n
    cases n <;> rfl
  cases steps with
  | zero => rfl
  | succ n =>
    rw [run]
    split
    · exact hdone visited n
    · simp [firstThread, hfirst, successors, Anchor.holds, hc, hdone]

theorem searchFrom_behind (hfirst : a.code[a.start]? = some (.anchor .textStart next))
    {passed : Text} (hpassed : passed ≠ []) (visited : Visited) (offset : Nat) (rest : Text) :
    a.searchFrom visited passed offset rest = none := by
  induction rest generalizing visited passed offset with
  | nil =>
    rw [searchFrom, run_behind hfirst hpassed]
    rfl
  | cons x rest ih =>
    have hnone := run_behind hfirst (c := ⟨passed, x :: rest, offset⟩) hpassed visited
      (a.stepLimit (x :: rest))
    rw [searchFrom]
    split
    next hit _ hrun => simp [hrun] at hnone
    next hrun => exact ih (List.cons_ne_nil x passed) _ _

/-- An automaton that begins with the start of the text searches at one place only. -/
theorem isSome_search (hfirst : a.code[a.start]? = some (.anchor .textStart next))
    (hstart : a.start < a.code.size) (hdecides : a.Decides a.start P) (t : Text) :
    (a.search (.start t)).isSome = true ↔ P (.start t) := by
  have hsteps : a.start < a.stepLimit t := by
    have hsize : a.code.size ≤ a.code.size * (2 * (t.length + 1)) :=
      Nat.le_mul_of_pos_right _ (by omega)
    have hlimit : a.stepLimit t = a.code.size * (2 * (t.length + 1)) + 1 := by
      rw [stepLimit, Nat.mul_comm 2, Nat.mul_assoc]
    omega
  have hhere := hdecides ∅ (a.stepLimit t) (a.firstThread (.start t)) rfl hsteps
    fun place q _ => Std.HashSet.not_mem_empty
  refine Iff.trans ?_ hhere
  cases t with
  | nil => simp [search, searchFrom, Cursor.start]
  | cons x rest =>
    simp only [search, Cursor.start, searchFrom]
    split
    next hit _ hrun => simp [hrun]
    next hrun => simp [hrun, searchFrom_behind hfirst]

end Automaton
end PatternBuilder.Dialect
