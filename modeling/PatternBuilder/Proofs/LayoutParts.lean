import PatternBuilder.Clause.Text
import PatternBuilder.Proofs.Parts

/-!
# The layout of parts

Dropping strays, joining repeaters and placing groups give the same as the parts, each written with
what is next to it.
-/

namespace PatternBuilder.Layout

variable {β γ : Type}

def Part.clauses (u : Part (Clause β)) : List (Clause β) :=
  u.separator.toList ++ u.item.clause :: u.item.repeater.toList

structure Part.IsWellFormed (u : Part (Clause β)) : Prop where
  separator : ∀ s ∈ u.separator, s.isSeparator = true
  clause : u.item.clause.isSeparator = false ∧ u.item.clause.isRepeater = false
  repeater : ∀ r ∈ u.item.repeater, r.isRepeater = true

namespace Progress

def clauses (p : Progress β) : List (Clause β) :=
  p.read.reverse.flatMap Part.clauses ++ p.pending.toList

def last? (p : Progress β) : Option (Clause β) :=
  p.pending.or (p.read.head?.map fun u => u.item.repeater.getD u.item.clause)

structure IsWellFormed (p : Progress β) : Prop where
  read : ∀ u ∈ p.read, u.IsWellFormed
  pending : ∀ s ∈ p.pending, s.isSeparator = true ∧ s.hasContent = false
  /-- No separator is kept before the first part. -/
  first : p.read = [] → p.pending = none
  /-- The first part has no separator. -/
  unjoined : ∀ u ∈ p.read.getLast?, u.separator = none

theorem isWellFormed_start : (start : Progress β).IsWellFormed where
  read := by simp [start]
  pending := by simp [start]
  first := fun _ => rfl
  unjoined := by simp [start]

theorem isSeparator_of_isRepeater {c : Clause β} (h : c.isRepeater = true) :
    c.isSeparator = false ∧ c.hasContent = false := by
  simp only [Clause.isRepeater, Bool.and_eq_true, Bool.not_eq_true'] at h
  exact ⟨h.1.1.1, h.1.1.2⟩

theorem IsWellFormed.step {p : Progress β} (h : p.IsWellFormed) {c : Clause β}
    (hc : c.isSeparator = true → c.hasContent = false) : (p.step c).IsWellFormed := by
  unfold Progress.step
  by_cases hsep : c.isSeparator = true
  · rw [if_pos hsep, separate]
    split
    next => exact h
    next hread =>
      refine ⟨h.read, fun s hs => ?_, fun hn => ?_, h.unjoined⟩
      · cases hp : p.pending with
        | none =>
          have he : c = s := by simpa [hp] using hs
          exact he ▸ ⟨hsep, hc hsep⟩
        | some r => exact h.pending s (by simpa [hp] using hs)
      · exact absurd (List.isEmpty_iff.mpr hn) hread
  · rw [if_neg hsep]
    by_cases hrep : c.isRepeater = true
    · rw [if_pos hrep, repeatLast]
      split
      next u us hp hread =>
        split
        next hopen =>
          have hu := h.read u (by simp [hread])
          have hlast := h.unjoined
          rw [hread] at hlast
          refine ⟨?_, by simp [hp], by simp, ?_⟩
          · intro v hv
            rcases List.mem_cons.mp hv with rfl | hv
            · exact ⟨hu.separator, hu.clause, fun r hr => by cases hr; exact hrep⟩
            · exact h.read v (by simp [hread, hv])
          · cases us with
            | nil => simpa using hlast
            | cons v vs => simpa using hlast
        next => exact h
      next => exact h
    · rw [if_neg hrep, add]
      refine ⟨?_, by simp, by simp, ?_⟩
      · intro v hv
        rcases List.mem_cons.mp hv with rfl | hv
        · refine ⟨fun s hs => (h.pending s hs).1, ⟨?_, ?_⟩, by simp⟩
          · simpa using hsep
          · simpa using hrep
        · exact h.read v hv
      · cases hread : p.read with
        | nil => simp [h.first hread]
        | cons u us =>
          have hlast := h.unjoined
          rw [hread] at hlast
          simpa using hlast

theorem IsWellFormed.step_clauses {p : Progress β} (h : p.IsWellFormed) (c : Clause β) :
    (p.step c).clauses = p.clauses ++ (if isStray p.last? c then [] else [c]) ∧
      (p.step c).last? = if isStray p.last? c then p.last? else some c := by
  unfold Progress.step
  by_cases hsep : c.isSeparator = true
  · have hrep : c.isRepeater = false := by simp [Clause.isRepeater, hsep]
    rw [if_pos hsep, separate]
    cases hread : p.read with
    | nil =>
      have hp := h.first hread
      simp [isStray, last?, hp, hread, hsep]
    | cons u us =>
      have hu := h.read u (by simp [hread])
      cases hp : p.pending with
      | none =>
        cases hr : u.item.repeater with
        | none => simp [isStray, last?, clauses, hp, hread, hsep, hrep, hr, hu.clause.1]
        | some r =>
          have hrs := (isSeparator_of_isRepeater (hu.repeater r hr)).1
          simp [isStray, last?, clauses, hp, hread, hsep, hrep, hr, hrs]
      | some s =>
        have hs := h.pending s hp
        simp [isStray, last?, clauses, hp, hread, hsep, hs.1]
  · rw [if_neg hsep]
    by_cases hrep : c.isRepeater = true
    · rw [if_pos hrep, repeatLast]
      cases hp : p.pending with
      | some s =>
        have hs := h.pending s hp
        simp [isStray, last?, clauses, hp, hsep, hrep, hs.2]
      | none =>
        cases hread : p.read with
        | nil => simp [isStray, last?, clauses, hp, hread, hsep, hrep]
        | cons u us =>
          have hu := h.read u (by simp [hread])
          cases hr : u.item.repeater with
          | none =>
            cases hcontent : u.item.clause.hasContent <;>
              simp [isStray, last?, clauses, Part.clauses, Part.isOpen, hp, hread, hsep, hrep, hr,
                hcontent]
          | some r =>
            have hrs := (isSeparator_of_isRepeater (hu.repeater r hr)).2
            simp [isStray, last?, clauses, Part.isOpen, hp, hread, hsep, hrep, hr, hrs]
    · rw [if_neg hrep, add]
      simp [isStray, last?, clauses, Part.clauses, hsep, hrep]

theorem IsWellFormed.dropStrays {p : Progress β} (h : p.IsWellFormed) {cs : List (Clause β)}
    (hcs : ∀ c ∈ cs, c.isSeparator = true → c.hasContent = false) :
    p.clauses ++ Layout.dropStrays p.last? cs = (cs.foldl Progress.step p).clauses ∧
      (cs.foldl Progress.step p).IsWellFormed := by
  induction cs generalizing p with
  | nil => exact ⟨List.append_nil _, h⟩
  | cons c cs ih =>
    have hc := hcs c List.mem_cons_self
    obtain ⟨hclauses, hlast⟩ := h.step_clauses c
    obtain ⟨hrest, hwf⟩ := ih (h.step hc) fun d hd => hcs d (List.mem_cons_of_mem c hd)
    refine ⟨?_, hwf⟩
    rw [List.foldl_cons, ← hrest, hclauses, hlast, Layout.dropStrays]
    split <;> simp

end Progress

theorem dropLastSeparator_clauses {p : Progress β} (h : p.IsWellFormed) :
    dropLastSeparator p.clauses = p.read.reverse.flatMap Part.clauses := by
  unfold dropLastSeparator Progress.clauses
  cases hp : p.pending with
  | some s => simp [(h.pending s hp).1]
  | none =>
    cases hread : p.read with
    | nil => simp
    | cons u us =>
      have hu := h.read u (by simp [hread])
      cases hr : u.item.repeater with
      | none => simp [Part.clauses, hr, hu.clause.1]
      | some r =>
        have hrs := (Progress.isSeparator_of_isRepeater (hu.repeater r hr)).1
        simp [Part.clauses, hr, hrs]

theorem isWellFormed_parts {cs : List (Clause β)}
    (hcs : ∀ c ∈ cs, c.isSeparator = true → c.hasContent = false) :
    ∀ u ∈ parts cs, u.IsWellFormed := by
  intro u hu
  have h := (Progress.isWellFormed_start.dropStrays hcs).2
  exact h.read u (List.mem_reverse.mp hu)

theorem head_parts {cs : List (Clause β)}
    (hcs : ∀ c ∈ cs, c.isSeparator = true → c.hasContent = false) :
    ∀ u ∈ (parts cs).head?, u.separator = none := by
  have h := (Progress.isWellFormed_start.dropStrays hcs).2
  rw [parts, List.head?_reverse]
  exact h.unjoined

theorem kept_eq {cs : List (Clause β)}
    (hcs : ∀ c ∈ cs, c.isSeparator = true → c.hasContent = false) :
    kept cs = (parts cs).flatMap Part.clauses := by
  obtain ⟨hclauses, hwf⟩ := Progress.isWellFormed_start.dropStrays hcs
  have hstart : dropStrays none cs = (cs.foldl Progress.step .start).clauses := hclauses
  rw [kept, hstart, dropLastSeparator_clauses hwf, parts]

def Part.items (u : Part (Clause β)) : List (Item (Clause β)) :=
  (u.separator.map fun s => ⟨s, none⟩).toList ++ [u.item]

theorem items_cons {c : Clause β} {cs : List (Clause β)}
    (h : ∀ r ∈ cs.head?, r.isRepeater = false) :
    items (c :: cs) = ⟨c, none⟩ :: items cs := by
  cases cs with
  | nil => rfl
  | cons r cs =>
    have hr : r.isRepeater = false := h r rfl
    simp [items, hr]

theorem items_cons_repeater {c r : Clause β} (h : r.isRepeater = true) (cs : List (Clause β)) :
    items (c :: r :: cs) = ⟨c, some r⟩ :: items cs := by
  rw [items, if_pos h]

theorem head_clauses {us : List (Part (Clause β))} (h : ∀ u ∈ us, u.IsWellFormed) :
    ∀ r ∈ (us.flatMap Part.clauses).head?, r.isRepeater = false := by
  cases us with
  | nil => simp
  | cons u us =>
    have hu := h u List.mem_cons_self
    cases hs : u.separator with
    | none => simp [Part.clauses, hs, hu.clause.2]
    | some s => simp [Part.clauses, hs, Clause.isRepeater, hu.separator s hs]

theorem items_clauses {us : List (Part (Clause β))} (h : ∀ u ∈ us, u.IsWellFormed) :
    items (us.flatMap Part.clauses) = us.flatMap Part.items := by
  induction us with
  | nil => rfl
  | cons u us ih =>
    have hu := h u List.mem_cons_self
    have hus : ∀ v ∈ us, v.IsWellFormed := fun v hv => h v (List.mem_cons_of_mem u hv)
    have hitem : items (u.item.clause :: (u.item.repeater.toList ++ us.flatMap Part.clauses)) =
        u.item :: us.flatMap Part.items := by
      cases hr : u.item.repeater with
      | none =>
        rw [Option.toList_none, List.nil_append, items_cons (head_clauses hus), ih hus, ← hr]
      | some r =>
        rw [Option.toList_some, List.singleton_append,
          items_cons_repeater (hu.repeater r hr), ih hus, ← hr]
    cases hs : u.separator with
    | none => simpa [Part.clauses, Part.items, hs] using hitem
    | some s =>
      have hclause : ∀ r ∈ (u.item.clause :: (u.item.repeater.toList ++
          us.flatMap Part.clauses)).head?, r.isRepeater = false := by
        simp [hu.clause.2]
      have hseparator := items_cons (c := s) hclause
      rw [hitem] at hseparator
      simpa [Part.clauses, Part.items, hs] using hseparator

def Part.scope {α : Type} (flat solo : Bool) (u : Part α) (next : List (Part α)) : Scope :=
  let ahead := next.head?.any Part.isJoined
  { opens := !flat && !u.isJoined && ahead
    closes := !flat && u.isJoined && !ahead
    alternative := u.isJoined || ahead
    solo := solo }

def partsText {α : Type} (f : Scope → Item α → Text) (flat solo : Bool) : List (Part α) → Text
  | [] => []
  | u :: us =>
    (if u.isJoined then ['|'] else []) ++
      (u.scope flat solo us).enclose (f (u.scope flat solo us) u.item) ++
      partsText f flat solo us

theorem startsWithSeparator_items {us : List (Part (Clause β))} (h : ∀ u ∈ us, u.IsWellFormed) :
    startsWithSeparator (us.flatMap Part.items) = us.head?.any Part.isJoined := by
  cases us with
  | nil => rfl
  | cons u us =>
    have hu := h u List.mem_cons_self
    cases hs : u.separator with
    | none => simp [startsWithSeparator, Part.items, Part.isJoined, hs, hu.clause.1]
    | some s => simp [startsWithSeparator, Part.items, Part.isJoined, hs, hu.separator s hs]

def Item.text (flags : Flags) (scope : Scope) (i : Item (Clause Text)) : Text :=
  i.clause.repeatedText flags scope i.repeater

def partsSlots (flat solo : Bool) : List (Part (Clause β)) → List (Slot (Clause β))
  | [] => []
  | u :: us =>
    u.separator.toList.map .separator ++
      .entry u.item.clause u.item.repeater (u.scope flat solo us) :: partsSlots flat solo us

theorem place_items {us : List (Part (Clause β))} (h : ∀ u ∈ us, u.IsWellFormed)
    (flat solo : Bool) :
    place flat solo false (us.flatMap Part.items) = partsSlots flat solo us := by
  induction us with
  | nil => rfl
  | cons u us ih =>
    have hu := h u List.mem_cons_self
    have hus : ∀ v ∈ us, v.IsWellFormed := fun v hv => h v (List.mem_cons_of_mem u hv)
    have hahead := startsWithSeparator_items hus
    rw [partsSlots, ← ih hus]
    cases hs : u.separator with
    | none => simp [Part.items, hs, place, hu.clause.1, hahead, Part.scope, Part.isJoined]
    | some s =>
      simp [Part.items, hs, place, hu.clause.1, hu.separator s hs, hahead, Part.scope,
        Part.isJoined]

theorem partsSlots_text (flags : Flags) (flat solo : Bool) (us : List (Part (Clause Text))) :
    (partsSlots flat solo us).flatMap (Slot.text flags) =
      partsText (Item.text flags) flat solo us := by
  induction us with
  | nil => rfl
  | cons u us ih =>
    rw [partsText, ← ih, partsSlots]
    cases hs : u.separator <;> simp [hs, Slot.text, Part.isJoined, Item.text]

theorem alternates_items {us : List (Part (Clause β))} (h : ∀ u ∈ us, u.IsWellFormed) :
    alternates true (us.flatMap Part.items) = us.all Part.isJoined := by
  induction us with
  | nil => rfl
  | cons u us ih =>
    have hu := h u List.mem_cons_self
    have hus : ∀ v ∈ us, v.IsWellFormed := fun v hv => h v (List.mem_cons_of_mem u hv)
    cases hs : u.separator with
    | none => simp [Part.items, hs, alternates, hu.clause.1, Part.isJoined]
    | some s =>
      simp [Part.items, hs, alternates, hu.clause.1, hu.separator s hs, Part.isJoined, ih hus]

/-- The places of a clause sequence, part by part. No group is needed when it is one run. -/
theorem slots_eq {cs : List (Clause β)}
    (hcs : ∀ c ∈ cs, c.isSeparator = true → c.hasContent = false) :
    slots cs = partsSlots ((parts cs).tail.all Part.isJoined) ((parts cs).length == 1)
      (parts cs) := by
  have hwf := isWellFormed_parts hcs
  have hhead := head_parts hcs
  have hitems : items (kept cs) = (parts cs).flatMap Part.items := by
    rw [kept_eq hcs, items_clauses hwf]
  rw [slots, hitems]
  generalize parts cs = us at *
  cases us with
  | nil => rfl
  | cons u us =>
    have hu := hwf u List.mem_cons_self
    have hs : u.separator = none := hhead u rfl
    have halternates := alternates_items fun v hv => hwf v (List.mem_cons_of_mem u hv)
    have hflat : alternates false ((u :: us).flatMap Part.items) = us.all Part.isJoined := by
      simp [Part.items, hs, alternates, hu.clause.1, halternates]
    have hsolo : (((u :: us).flatMap Part.items).length == 1) = ((u :: us).length == 1) := by
      cases us with
      | nil => simp [Part.items, hs]
      | cons v vs => simp [Part.items, hs]
    rw [hflat, hsolo]
    exact place_items hwf _ _

theorem sequenceText_eq (flags : Flags) {cs : List (Clause Text)}
    (hcs : ∀ c ∈ cs, c.isSeparator = true → c.hasContent = false) :
    sequenceText flags cs =
      partsText (Item.text flags) ((parts cs).tail.all Part.isJoined) ((parts cs).length == 1)
        (parts cs) := by
  rw [sequenceText, slots_eq hcs, partsSlots_text]

section

variable {α δ : Type}

theorem isJoined_map (g : α → δ) (u : Part α) : (u.map g).isJoined = u.isJoined := by
  simp [Part.isJoined, Part.map]

theorem scope_map (g : α → δ) (flat solo : Bool) (u : Part α) (next : List (Part α)) :
    (u.map g).scope flat solo (next.map (Part.map g)) = u.scope flat solo next := by
  have hahead : (next.map (Part.map g)).head?.any Part.isJoined = next.head?.any Part.isJoined := by
    cases next with
    | nil => rfl
    | cons v vs => exact isJoined_map g v
  simp only [Part.scope, hahead, isJoined_map]

theorem partsText_map (f : Scope → Item δ → Text) (g : α → δ) (flat solo : Bool)
    (us : List (Part α)) :
    partsText f flat solo (us.map (Part.map g)) =
      partsText (fun s i => f s (i.map g)) flat solo us := by
  induction us with
  | nil => rfl
  | cons u us ih =>
    rw [List.map_cons, partsText, partsText, ih, scope_map, isJoined_map]
    rfl

theorem all_isJoined_map (g : α → δ) (us : List (Part α)) :
    (us.map (Part.map g)).all Part.isJoined = us.all Part.isJoined := by
  induction us with
  | nil => rfl
  | cons u us ih => rw [List.map_cons, List.all_cons, List.all_cons, isJoined_map, ih]

end

def Progress.map (g : β → γ) (p : Progress β) : Progress γ :=
  ⟨p.read.map (Part.map (Clause.map g)), p.pending.map (Clause.map g)⟩

theorem Progress.step_map (g : β → γ) (p : Progress β) (c : Clause β) :
    (p.map g).step (c.map g) = (p.step c).map g := by
  unfold Progress.step
  rw [Clause.isSeparator_map, Clause.isRepeater_map]
  split
  · unfold separate
    cases hread : p.read <;> cases hp : p.pending <;> simp [Progress.map, hread, hp]
  split
  · unfold repeatLast
    cases hp : p.pending with
    | some s => simp [Progress.map, hp]
    | none =>
      cases hread : p.read with
      | nil => simp [Progress.map, hp, hread]
      | cons u us =>
        have hopen : (u.map (Clause.map g)).isOpen = u.isOpen := by
          simp [Part.isOpen, Part.map, Item.map]
        simp only [Progress.map, hp, hread, List.map_cons, Option.map_none, hopen]
        split
        · rfl
        · simp [hp, hread]
  · simp [add, Progress.map, Part.map, Item.map]

/-- Which parts there are does not depend on what the nested parts are. -/
theorem parts_map (g : β → γ) (cs : List (Clause β)) :
    parts (cs.map (Clause.map g)) = (parts cs).map (Part.map (Clause.map g)) := by
  have hfold : ∀ p : Progress β, (cs.map (Clause.map g)).foldl Progress.step (p.map g) =
      (cs.foldl Progress.step p).map g := by
    induction cs with
    | nil => exact fun _ => rfl
    | cons c cs ih =>
      intro p
      rw [List.map_cons, List.foldl_cons, Progress.step_map, ih, List.foldl_cons]
  have hstart : (cs.map (Clause.map g)).foldl Progress.step .start =
      (cs.foldl Progress.step .start).map g := hfold .start
  rw [parts, hstart, parts, List.map_reverse]
  rfl

theorem plainSeparators_map (g : β → γ) {cs : List (Clause β)}
    (hcs : ∀ c ∈ cs, c.isSeparator = true → c.hasContent = false) :
    ∀ c ∈ cs.map (Clause.map g), c.isSeparator = true → c.hasContent = false := by
  intro c hc hsep
  obtain ⟨d, hd, rfl⟩ := List.mem_map.mp hc
  rw [Clause.hasContent_map]
  exact hcs d hd hsep

theorem sequenceText_map (flags : Flags) (g : β → Text) {cs : List (Clause β)}
    (hcs : ∀ c ∈ cs, c.isSeparator = true → c.hasContent = false) :
    sequenceText flags (cs.map (Clause.map g)) =
      partsText (fun scope i => (i.map (Clause.map g)).text flags scope)
        ((parts cs).tail.all Part.isJoined) ((parts cs).length == 1) (parts cs) := by
  rw [sequenceText_eq flags (plainSeparators_map g hcs), parts_map, partsText_map, ← List.map_tail,
    all_isJoined_map, List.length_map]

end PatternBuilder.Layout
