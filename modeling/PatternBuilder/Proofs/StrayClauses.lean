import Mathlib.Logic.Relation
import PatternBuilder.Proofs.QuantifiedClauses

/-!
# Stray clauses

A separator that has no alternative on one side, and a repeater with nothing before it to repeat,
can be put in or left out: the source does not show them.
-/

namespace PatternBuilder

namespace Clause

variable {β : Type}

def plainSeparator : Clause β := ⟨.atoms [], { isSeparator := true }, 0⟩

def withPlainSeparator (c : Clause β) : Clause β := if c.isSeparator then plainSeparator else c

theorem withPlainSeparator_of_isSeparator {c : Clause β} (h : c.isSeparator = true) :
    c.withPlainSeparator = plainSeparator := if_pos h

theorem withPlainSeparator_eq_self {c : Clause β} (h : c.isSeparator = false) :
    c.withPlainSeparator = c := by
  rw [withPlainSeparator, h, if_neg (by decide)]

theorem sameKind_withPlainSeparator {c : Clause β}
    (hc : c.isSeparator = true → c.hasContent = false) :
    Layout.SameKind c c.withPlainSeparator := by
  cases hsep : c.isSeparator with
  | true =>
    rw [withPlainSeparator_of_isSeparator hsep]
    refine ⟨hsep.symm, (hc hsep).symm, ?_⟩
    have hrepeater : c.isRepeater = false := by simp [isRepeater, hsep]
    exact hrepeater.symm
  | false =>
    rw [withPlainSeparator_eq_self hsep]
    exact ⟨rfl, rfl, rfl⟩

end Clause

namespace Layout

variable {β : Type} {cs ds before behind : List (Clause β)}

theorem isRepeater_of_mem_slots {c r : Clause β} {scope : Scope}
    (h : .entry c (some r) scope ∈ slots cs) : r.isRepeater = true :=
  (of_mem_items (mem_of_mem_place h).2).2 r rfl

/-- The sequence with one more clause, at a place where that is stray. -/
inductive AddsStray : List (Clause β) → List (Clause β) → Prop where
  | separatorFirst (s : Clause β) (cs : List (Clause β)) (hs : s.isSeparator = true)
      (hplain : s.hasContent = false) : AddsStray cs (s :: cs)
  | separatorLast (s : Clause β) (cs : List (Clause β)) (hs : s.isSeparator = true)
      (hplain : s.hasContent = false) : AddsStray cs (cs ++ [s])
  | separatorBefore (s t : Clause β) (before behind : List (Clause β)) (hs : s.isSeparator = true)
      (hplain : s.hasContent = false) (ht : t.isSeparator = true) :
      AddsStray (before ++ t :: behind) (before ++ s :: t :: behind)
  | separatorBehind (s t : Clause β) (before behind : List (Clause β)) (hs : s.isSeparator = true)
      (hplain : s.hasContent = false) (ht : t.isSeparator = true) :
      AddsStray (before ++ t :: behind) (before ++ t :: s :: behind)
  | repeaterFirst (r : Clause β) (cs : List (Clause β)) (hr : r.isRepeater = true) :
      AddsStray cs (r :: cs)
  | repeaterBehind (r t : Clause β) (before behind : List (Clause β)) (hr : r.isRepeater = true)
      (ht : t.isSeparator = true ∨ t.hasContent = false ∨ t.isRepeater = true) :
      AddsStray (before ++ t :: behind) (before ++ t :: r :: behind)

theorem AddsStray.noContent (h : AddsStray cs ds)
    (hcs : ∀ c ∈ cs, c.isSeparator = true → c.hasContent = false) :
    ∀ c ∈ ds, c.isSeparator = true → c.hasContent = false := by
  intro c hc hsep
  have hrepeater : ∀ r : Clause β, r.isRepeater = true → c = r → c.hasContent = false := by
    rintro r hr rfl
    exact (Progress.isSeparator_of_isRepeater hr).2
  cases h with
  | separatorFirst s cs hs hplain =>
    rcases List.mem_cons.mp hc with rfl | hc
    · exact hplain
    · exact hcs c hc hsep
  | separatorLast s cs hs hplain =>
    rcases List.mem_append.mp hc with hc | hc
    · exact hcs c hc hsep
    · exact List.mem_singleton.mp hc ▸ hplain
  | separatorBefore s t before behind hs hplain ht =>
    by_cases he : c = s
    · exact he ▸ hplain
    · exact hcs c (by simpa [he] using hc) hsep
  | separatorBehind s t before behind hs hplain ht =>
    by_cases he : c = s
    · exact he ▸ hplain
    · exact hcs c (by simpa [he] using hc) hsep
  | repeaterFirst r cs hr =>
    rcases List.mem_cons.mp hc with he | hc
    · exact hrepeater r hr he
    · exact hcs c hc hsep
  | repeaterBehind r t before behind hr ht =>
    by_cases he : c = r
    · exact hrepeater r hr he
    · exact hcs c (by simpa [he] using hc) hsep

namespace Progress

/-- Behind a separator another one changes nothing. -/
theorem step_separator {s t : Clause β} (hs : s.isSeparator = true) (ht : t.isSeparator = true)
    (p : Progress β) : (p.step t).step s = p.step t := by
  rw [step, step, if_pos ht, if_pos hs]
  unfold separate
  split
  · rfl
  · cases p.pending <;> rfl

/-- There is nothing for a repeater to go with. -/
def IsShut (p : Progress β) : Prop := p.pending = none → ∀ u ∈ p.read.head?, u.isOpen = false

theorem IsShut.repeatLast_eq {p : Progress β} (h : p.IsShut) (r : Clause β) :
    p.repeatLast r = p := by
  unfold repeatLast
  split
  next u us hp hread =>
    have hopen : u.isOpen = false := h hp u (by rw [hread, List.head?_cons]; rfl)
    rw [hopen, if_neg (by decide)]
  next => rfl

theorem isShut_separate (p : Progress β) (s : Clause β) : (p.separate s).IsShut := by
  unfold separate
  split
  next hread =>
    intro _ u hu
    rw [List.isEmpty_iff.mp hread] at hu
    cases hu
  next =>
    intro hp
    cases hpending : p.pending <;> simp [hpending] at hp

theorem isShut_repeatLast (p : Progress β) (r : Clause β) : (p.repeatLast r).IsShut := by
  unfold repeatLast
  split
  next u us hp hread =>
    split
    next =>
      intro _ v hv
      obtain rfl := Option.some.inj hv
      simp [Part.isOpen]
    next hopen =>
      intro _ v hv
      rw [hread] at hv
      obtain rfl := Option.some.inj hv
      simpa using hopen
  next hother =>
    intro hp u hu
    obtain ⟨us, hread⟩ := List.head?_eq_some_iff.mp hu
    exact absurd hread (hother u us hp)

/-- Behind a separator, a repeater or a clause without content there is nothing to repeat. -/
theorem isShut_step {t : Clause β}
    (ht : t.isSeparator = true ∨ t.hasContent = false ∨ t.isRepeater = true) (p : Progress β) :
    (p.step t).IsShut := by
  unfold step
  split
  next => exact p.isShut_separate t
  next hsep =>
    split
    next => exact p.isShut_repeatLast t
    next hrep =>
      have hcontent := (ht.resolve_left hsep).resolve_right hrep
      intro _ u hu
      obtain rfl := Option.some.inj hu
      simp [Part.isOpen, hcontent]

theorem step_repeater {p : Progress β} (hp : p.IsShut) {r : Clause β} (hr : r.isRepeater = true) :
    p.step r = p := by
  rw [step, (isSeparator_of_isRepeater hr).1, hr, if_neg (by decide), if_pos rfl,
    hp.repeatLast_eq]

theorem step_start {c : Clause β} (hc : c.isSeparator = true ∨ c.isRepeater = true) :
    start.step c = start := by
  unfold step
  split
  · rfl
  next hsep =>
    rw [if_pos (hc.resolve_left hsep)]
    rfl

end Progress

theorem parts_cons {c : Clause β} (hc : c.isSeparator = true ∨ c.isRepeater = true)
    (cs : List (Clause β)) : parts (c :: cs) = parts cs := by
  rw [parts, List.foldl_cons, Progress.step_start hc, parts]

theorem parts_concat_separator {s : Clause β} (hs : s.isSeparator = true) (cs : List (Clause β)) :
    parts (cs ++ [s]) = parts cs := by
  have hread : ∀ p : Progress β, (p.step s).read = p.read := by
    intro p
    rw [Progress.step, if_pos hs, Progress.separate]
    split <;> rfl
  rw [parts, List.foldl_append, List.foldl_cons, List.foldl_nil, hread, parts]

theorem parts_behind {c t : Clause β} (h : ∀ p : Progress β, (p.step t).step c = p.step t)
    (before behind : List (Clause β)) :
    parts (before ++ t :: c :: behind) = parts (before ++ t :: behind) := by
  rw [parts, parts, List.foldl_append, List.foldl_append, List.foldl_cons, List.foldl_cons,
    List.foldl_cons, h]

/-- The parts are the same, but for which one of several separators counts. -/
theorem AddsStray.parts_eq (h : AddsStray cs ds) :
    parts (ds.map Clause.withPlainSeparator) = parts (cs.map Clause.withPlainSeparator) := by
  have hplain : (Clause.plainSeparator : Clause β).isSeparator = true := rfl
  have hrepeater : ∀ r : Clause β, r.isRepeater = true → r.withPlainSeparator = r := fun r hr =>
    Clause.withPlainSeparator_eq_self (Progress.isSeparator_of_isRepeater hr).1
  cases h with
  | separatorFirst s cs hs _ =>
    rw [List.map_cons, Clause.withPlainSeparator_of_isSeparator hs, parts_cons (.inl hplain)]
  | separatorLast s cs hs _ =>
    rw [List.map_append, List.map_singleton, Clause.withPlainSeparator_of_isSeparator hs,
      parts_concat_separator hplain]
  | separatorBefore s t before behind hs _ ht =>
    simp only [List.map_append, List.map_cons, Clause.withPlainSeparator_of_isSeparator hs,
      Clause.withPlainSeparator_of_isSeparator ht]
    exact parts_behind (Progress.step_separator hplain hplain) _ _
  | separatorBehind s t before behind hs _ ht =>
    simp only [List.map_append, List.map_cons, Clause.withPlainSeparator_of_isSeparator hs,
      Clause.withPlainSeparator_of_isSeparator ht]
    exact parts_behind (Progress.step_separator hplain hplain) _ _
  | repeaterFirst r cs hr =>
    rw [List.map_cons, hrepeater r hr, parts_cons (.inr hr)]
  | repeaterBehind r t before behind hr ht =>
    simp only [List.map_append, List.map_cons, hrepeater r hr]
    refine parts_behind (fun p => Progress.step_repeater (Progress.isShut_step ?_ p) hr) _ _
    cases hsep : t.isSeparator with
    | true =>
      rw [Clause.withPlainSeparator_of_isSeparator hsep]
      exact .inl hplain
    | false =>
      rw [Clause.withPlainSeparator_eq_self hsep]
      exact ht

theorem slots_withPlainSeparator (hcs : ∀ c ∈ cs, c.isSeparator = true → c.hasContent = false) :
    (slots cs).map (Slot.map Clause.withPlainSeparator) =
      let us := parts (cs.map Clause.withPlainSeparator)
      partsSlots (us.tail.all Part.isJoined) (us.length == 1) us := by
  have hkind : ∀ c ∈ cs, SameKind c c.withPlainSeparator := fun c hc =>
    Clause.sameKind_withPlainSeparator (hcs c hc)
  have hplain : ∀ c ∈ cs.map Clause.withPlainSeparator,
      c.isSeparator = true → c.hasContent = false := by
    intro c hc
    obtain ⟨d, hd, rfl⟩ := List.mem_map.mp hc
    rw [(hkind d hd).separator, (hkind d hd).content]
    exact hcs d hd
  rw [← slots_map hkind, slots_eq hplain]

/-- However many stray clauses there are, only the place of a separator may be taken by another. -/
theorem slots_addsStray (h : Relation.ReflTransGen AddsStray cs ds)
    (hcs : ∀ c ∈ cs, c.isSeparator = true → c.hasContent = false) :
    (∀ c ∈ ds, c.isSeparator = true → c.hasContent = false) ∧
      (slots ds).map (Slot.map Clause.withPlainSeparator) =
        (slots cs).map (Slot.map Clause.withPlainSeparator) := by
  induction h with
  | refl => exact ⟨hcs, rfl⟩
  | tail _ hstep ih =>
    obtain ⟨hplain, hsame⟩ := ih
    have hadded := hstep.noContent hplain
    refine ⟨hadded, ?_⟩
    rw [slots_withPlainSeparator hadded, hstep.parts_eq, ← slots_withPlainSeparator hplain, hsame]

end Layout

namespace Builder

variable {b d : Builder}

theorem flatMap_text_withPlainSeparator (flags : Flags) (cs : List (Clause Builder)) :
    (((Layout.slots cs).map (Slot.map Clause.withPlainSeparator)).flatMap fun s =>
        (s.map (Clause.map (render flags))).text flags) =
      (Layout.slots cs).flatMap fun s => (s.map (Clause.map (render flags))).text flags := by
  rw [List.flatMap_map]
  apply List.flatMap_congr
  intro place hplace
  cases place with
  | separator c => rfl
  | entry c r scope =>
    have hc := Clause.withPlainSeparator_eq_self (Layout.mem_of_mem_slots hplace).1
    cases r with
    | none => simp only [Slot.map, hc, Option.map_none]
    | some r =>
      have hr := Clause.withPlainSeparator_eq_self
        (Layout.Progress.isSeparator_of_isRepeater (Layout.isRepeater_of_mem_slots hplace)).1
      simp only [Slot.map, hc, Option.map_some, hr]

/-- Any number of separators and repeaters can be put in where they are stray, one after the other:
the source stays the same. The clauses may get other numbers by that. -/
theorem render_addsStray
    (h : Relation.ReflTransGen Layout.AddsStray (b.clauses.map Clause.unnumbered)
      (d.clauses.map Clause.unnumbered))
    (hb : ∀ c ∈ b.clauses, c.isSeparator = true → c.hasContent = false) (flags : Flags) :
    d.render flags = b.render flags := by
  have hplain : ∀ c ∈ b.clauses.map Clause.unnumbered,
      c.isSeparator = true → c.hasContent = false := by
    intro c hc
    obtain ⟨e, he, rfl⟩ := List.mem_map.mp hc
    exact hb e he
  obtain ⟨-, hslots⟩ := Layout.slots_addsStray h hplain
  rw [render_unnumbered, render_unnumbered, ← flatMap_text_withPlainSeparator, hslots,
    flatMap_text_withPlainSeparator]

def unpadded : Builder := ((empty.find (.ofChar 'a')).orFind (.ofText ['b', 'c'])).endOfLine

def padded : Builder :=
  let strays (b : Builder) : Builder := b.quantify .oneOrMore
  let start := (strays empty).separate.find (.ofChar 'a')
  let middle := (strays start.separate.separate).find (.ofText ['b', 'c'])
  (strays (strays middle.endOfLine)).separate

theorem render_addsStray_padded :
    Relation.ReflTransGen Layout.AddsStray (unpadded.clauses.map Clause.unnumbered)
        (padded.clauses.map Clause.unnumbered) ∧
      (∀ c ∈ unpadded.clauses, c.isSeparator = true → c.hasContent = false) ∧
      padded.render .empty = unpadded.render .empty ∧
      padded.render .empty = "(?:a|bc)$".toList := by
  let s : Clause Builder := .plainSeparator
  let a : Clause Builder := ⟨.atoms [.char 'a'], {}, 0⟩
  let bc : Clause Builder := ⟨.atoms [.literal ['b', 'c']], {}, 0⟩
  let e : Clause Builder := ⟨.atoms [], { after := some ['$'] }, 0⟩
  let r : Clause Builder := repeater .oneOrMore
  have hfirst : Relation.ReflTransGen Layout.AddsStray [a, s, bc, e] [r, s, a, s, bc, e] :=
    (Relation.ReflTransGen.single (.separatorFirst s [a, s, bc, e] rfl rfl)).tail
      (.repeaterFirst r [s, a, s, bc, e] rfl)
  have hmiddle : Relation.ReflTransGen Layout.AddsStray [a, s, bc, e]
      [r, s, a, s, s, r, bc, e] :=
    (hfirst.tail (.separatorBehind s s [r, s, a] [bc, e] rfl rfl rfl)).tail
      (.repeaterBehind r s [r, s, a, s] [bc, e] rfl (.inl rfl))
  have hlast : Relation.ReflTransGen Layout.AddsStray [a, s, bc, e]
      [r, s, a, s, s, r, bc, e, r, r, s] :=
    ((hmiddle.tail (.repeaterBehind r e [r, s, a, s, s, r, bc] [] rfl (.inr (.inl rfl)))).tail
      (.repeaterBehind r r [r, s, a, s, s, r, bc, e] [] rfl (.inr (.inr rfl)))).tail
      (.separatorLast s [r, s, a, s, s, r, bc, e, r, r] rfl rfl)
  have hb : ∀ c ∈ unpadded.clauses, c.isSeparator = true → c.hasContent = false := by decide
  have hsame := render_addsStray (b := unpadded) (d := padded) hlast hb .empty
  exact ⟨hlast, hb, hsame, by decide +kernel⟩

end Builder
end PatternBuilder
