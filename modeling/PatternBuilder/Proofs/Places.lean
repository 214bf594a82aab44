import Mathlib.Data.List.Basic
import PatternBuilder.Builder
import PatternBuilder.Proofs.LayoutParts

/-!
# Places of clauses

A clause has a place in the layout of its sequence if it counts. What else is in the clauses does
not matter to where they stand.
-/

namespace PatternBuilder

namespace Layout

variable {β γ : Type}

theorem mem_of_mem_dropStrays {before : Option (Clause β)} {cs : List (Clause β)} {c : Clause β}
    (h : c ∈ dropStrays before cs) : c ∈ cs := by
  induction cs generalizing before with
  | nil => exact h
  | cons d cs ih =>
    rw [dropStrays] at h
    split at h
    · exact List.mem_cons_of_mem d (ih h)
    · rcases List.mem_cons.mp h with rfl | h
      · exact List.mem_cons_self
      · exact List.mem_cons_of_mem d (ih h)

theorem mem_of_mem_kept {cs : List (Clause β)} {c : Clause β} (h : c ∈ kept cs) : c ∈ cs := by
  unfold kept dropLastSeparator at h
  split at h
  · exact mem_of_mem_dropStrays (List.dropLast_subset _ h)
  · exact mem_of_mem_dropStrays h

theorem of_mem_items {cs : List (Clause β)} {i : Item (Clause β)} (h : i ∈ items cs) :
    i.clause ∈ cs ∧ ∀ r ∈ i.repeater, r.isRepeater = true := by
  fun_induction items cs with
  | case1 => cases h
  | case2 c =>
    rw [List.mem_singleton.mp h]
    exact ⟨List.mem_cons_self, by simp⟩
  | case3 c r cs hr ih =>
    rcases List.mem_cons.mp h with rfl | h
    · exact ⟨List.mem_cons_self, fun k hk => Option.some.inj hk ▸ hr⟩
    · obtain ⟨hclause, hrepeater⟩ := ih h
      exact ⟨List.mem_cons_of_mem c (List.mem_cons_of_mem r hclause), hrepeater⟩
  | case4 c r cs hr ih =>
    rcases List.mem_cons.mp h with rfl | h
    · exact ⟨List.mem_cons_self, by simp⟩
    · obtain ⟨hclause, hrepeater⟩ := ih h
      exact ⟨List.mem_cons_of_mem c hclause, hrepeater⟩

theorem mem_of_mem_place {flat solo behind : Bool} {is : List (Item (Clause β))} {c : Clause β}
    {r : Option (Clause β)} {scope : Scope} (h : .entry c r scope ∈ place flat solo behind is) :
    c.isSeparator = false ∧ ⟨c, r⟩ ∈ is := by
  induction is generalizing behind with
  | nil => cases h
  | cons i is ih =>
    rw [place] at h
    by_cases hsep : i.clause.isSeparator = true
    · rw [if_pos hsep] at h
      rcases List.mem_cons.mp h with h | h
      · cases h
      · exact ⟨(ih h).1, List.mem_cons_of_mem i (ih h).2⟩
    · rw [if_neg hsep] at h
      rcases List.mem_cons.mp h with h | h
      · cases h
        exact ⟨by simpa using hsep, List.mem_cons_self⟩
      · exact ⟨(ih h).1, List.mem_cons_of_mem i (ih h).2⟩

theorem mem_of_mem_slots {cs : List (Clause β)} {c : Clause β} {r : Option (Clause β)}
    {scope : Scope} (h : .entry c r scope ∈ slots cs) : c.isSeparator = false ∧ c ∈ cs := by
  obtain ⟨hsep, hmem⟩ := mem_of_mem_place h
  exact ⟨hsep, mem_of_mem_kept (of_mem_items hmem).1⟩

theorem slots_singleton {c : Clause β} (hsep : c.isSeparator = false)
    (hrepeater : c.isRepeater = false) : slots [c] = [.entry c none { solo := true }] := by
  have hkept : kept [c] = [c] := by
    simp [kept, dropStrays, isStray, hsep, hrepeater, dropLastSeparator]
  rw [slots, hkept]
  simp [items, place, hsep, alternates, startsWithSeparator]

structure SameKind (c : Clause β) (d : Clause γ) : Prop where
  separator : d.isSeparator = c.isSeparator
  content : d.hasContent = c.hasContent
  repeater : d.isRepeater = c.isRepeater

theorem SameKind.trans {δ : Type} {c : Clause β} {d : Clause γ} {e : Clause δ} (h : SameKind c d)
    (k : SameKind d e) : SameKind c e where
  separator := k.separator.trans h.separator
  content := k.content.trans h.content
  repeater := k.repeater.trans h.repeater

theorem sameKind_map (g : β → γ) (c : Clause β) : SameKind c (c.map g) where
  separator := c.isSeparator_map g
  content := c.hasContent_map g
  repeater := c.isRepeater_map g

section

variable {f : Clause β → Clause γ}

theorem isStray_map {before : Option (Clause β)} {c : Clause β}
    (hbefore : ∀ b ∈ before, SameKind b (f b)) (hc : SameKind c (f c)) :
    isStray (before.map f) (f c) = isStray before c := by
  cases before with
  | none => simp [isStray, hc.separator, hc.repeater]
  | some b =>
    have hb := hbefore b rfl
    simp [isStray, hc.separator, hc.repeater, hb.separator, hb.content]

theorem dropStrays_map {before : Option (Clause β)} {cs : List (Clause β)}
    (hbefore : ∀ b ∈ before, SameKind b (f b)) (hcs : ∀ c ∈ cs, SameKind c (f c)) :
    dropStrays (before.map f) (cs.map f) = (dropStrays before cs).map f := by
  induction cs generalizing before with
  | nil => rfl
  | cons c cs ih =>
    have hc := hcs c List.mem_cons_self
    have hrest : ∀ d ∈ cs, SameKind d (f d) := fun d hd => hcs d (List.mem_cons_of_mem c hd)
    rw [List.map_cons, dropStrays, dropStrays, isStray_map hbefore hc]
    split
    · exact ih hbefore hrest
    · have hkept : ∀ b ∈ some c, SameKind b (f b) := fun b hb => Option.some.inj hb ▸ hc
      exact congrArg (f c :: ·) (ih hkept hrest)

theorem kept_map {cs : List (Clause β)} (hcs : ∀ c ∈ cs, SameKind c (f c)) :
    kept (cs.map f) = (kept cs).map f := by
  have hnone : ∀ b ∈ (none : Option (Clause β)), SameKind b (f b) := by simp
  have hdrop : dropStrays none (cs.map f) = (dropStrays none cs).map f := dropStrays_map hnone hcs
  have hlast : ((dropStrays none cs).map f).getLast?.any Clause.isSeparator =
      (dropStrays none cs).getLast?.any Clause.isSeparator := by
    rw [List.getLast?_map]
    cases hd : (dropStrays none cs).getLast? with
    | none => rfl
    | some d =>
      exact (hcs d (mem_of_mem_dropStrays (List.mem_of_getLast? hd))).separator
  rw [kept, hdrop, kept, dropLastSeparator, hlast, dropLastSeparator]
  split
  · exact List.map_dropLast.symm
  · rfl

theorem items_map {cs : List (Clause β)} (hcs : ∀ c ∈ cs, SameKind c (f c)) :
    items (cs.map f) = (items cs).map (Item.map f) := by
  fun_induction items cs with
  | case1 => rfl
  | case2 c => rfl
  | case3 c r cs hr ih =>
    have hrepeater := (hcs r (by simp)).repeater
    rw [List.map_cons, List.map_cons, items_cons_repeater (hrepeater.trans hr),
      ih fun d hd => hcs d (by simp [hd])]
    rfl
  | case4 c r cs hr ih =>
    have hrepeater := (hcs r (by simp)).repeater
    have hrest := ih fun d hd => hcs d (List.mem_cons_of_mem c hd)
    rw [List.map_cons, List.map_cons, items, hrepeater, if_neg hr]
    exact congrArg (⟨f c, none⟩ :: ·) hrest

variable {is : List (Item (Clause β))}

theorem startsWithSeparator_map (his : ∀ i ∈ is, SameKind i.clause (f i.clause)) :
    startsWithSeparator (is.map (Item.map f)) = startsWithSeparator is := by
  cases is with
  | nil => rfl
  | cons i is => exact (his i List.mem_cons_self).separator

theorem alternates_map (his : ∀ i ∈ is, SameKind i.clause (f i.clause)) (due : Bool) :
    alternates due (is.map (Item.map f)) = alternates due is := by
  induction is generalizing due with
  | nil => rfl
  | cons i is ih =>
    have hsep : (i.map f).clause.isSeparator = i.clause.isSeparator :=
      (his i List.mem_cons_self).separator
    rw [List.map_cons, alternates, alternates, hsep,
      ih fun j hj => his j (List.mem_cons_of_mem i hj)]

theorem place_map (his : ∀ i ∈ is, SameKind i.clause (f i.clause)) (flat solo behind : Bool) :
    place flat solo behind (is.map (Item.map f)) =
      (place flat solo behind is).map (Slot.map f) := by
  induction is generalizing behind with
  | nil => rfl
  | cons i is ih =>
    have hrest : ∀ j ∈ is, SameKind j.clause (f j.clause) := fun j hj =>
      his j (List.mem_cons_of_mem i hj)
    have hsep : (i.map f).clause.isSeparator = i.clause.isSeparator :=
      (his i List.mem_cons_self).separator
    rw [List.map_cons, place, place, hsep, startsWithSeparator_map hrest, ih hrest, ih hrest]
    split <;> rfl

/-- Where clauses stand depends on nothing but what they count for. -/
theorem slots_map {cs : List (Clause β)} (hcs : ∀ c ∈ cs, SameKind c (f c)) :
    slots (cs.map f) = (slots cs).map (Slot.map f) := by
  have hitems : ∀ i ∈ items (kept cs), SameKind i.clause (f i.clause) := fun i hi =>
    hcs i.clause (mem_of_mem_kept (of_mem_items hi).1)
  have hkept : ∀ c ∈ kept cs, SameKind c (f c) := fun c hc => hcs c (mem_of_mem_kept hc)
  rw [slots, kept_map hcs, items_map hkept, alternates_map hitems, List.length_map,
    place_map hitems, slots]

end

/-- Two texts of the same clauses are the same if every clause is written alike, wherever it
stands. -/
theorem sequenceText_congr {f g : Clause β → Clause Text} {cs : List (Clause β)}
    {flags flags' : Flags} (hf : ∀ c ∈ cs, SameKind c (f c)) (hg : ∀ c ∈ cs, SameKind c (g c))
    (htext : ∀ c ∈ cs, c.isSeparator = false → ∀ scope,
      (f c).text flags scope = (g c).text flags' scope)
    (hquantifier : ∀ c, (f c).options.quantifierText = (g c).options.quantifierText) :
    sequenceText flags (cs.map f) = sequenceText flags' (cs.map g) := by
  rw [sequenceText, sequenceText, slots_map hf, slots_map hg, List.flatMap_map, List.flatMap_map]
  apply List.flatMap_congr
  intro place hplace
  cases place with
  | separator c => rfl
  | entry c r scope =>
    obtain ⟨hsep, hc⟩ := mem_of_mem_slots hplace
    cases r with
    | none => exact congrArg scope.enclose (htext c hc hsep scope)
    | some r =>
      exact congrArg scope.enclose
        (congrArg₂ Clause.repeatText (htext c hc hsep scope) (hquantifier r))

end Layout

namespace Builder

theorem render_eq_slots (flags : Flags) (b : Builder) :
    b.render flags = (Layout.slots b.clauses).flatMap fun s =>
      (s.map (Clause.map (render flags))).text flags := by
  rw [render_eq, sequenceText, Layout.slots_map fun c _ => Layout.sameKind_map _ c,
    List.flatMap_map]

theorem render_embed_alone {b : Builder} (hb : b.clauses = []) (inner : Builder) (o : Options)
    (flags : Flags) : (b.embed inner o).render flags = o.nestedText true (inner.render flags) := by
  have hclauses : (b.embed inner o).clauses =
      [⟨.nested inner, { o with isSeparator := false }, 0⟩] := by
    simp [embed, push, size, hb]
  rw [render_eq_slots, hclauses, Layout.slots_singleton rfl (by simp [Clause.isRepeater,
    Clause.hasContent, Body.hasContent]), List.flatMap_singleton]
  exact List.append_nil _

section

variable {P : Builder → Prop}

mutual

/-- What a builder has if all that is nested in it has it, every builder has. -/
theorem induct_nested (h : ∀ b : Builder, (∀ c ∈ b.clauses, ∀ k, c.body = .nested k → P k) → P b) :
    (b : Builder) → P b
  | ⟨clauses, _, _, _, _⟩ => h _ (induct_nestedOf h clauses)

theorem induct_nestedOf
    (h : ∀ b : Builder, (∀ c ∈ b.clauses, ∀ k, c.body = .nested k → P k) → P b) :
    (cs : List (Clause Builder)) → ∀ c ∈ cs, ∀ k, c.body = .nested k → P k
  | [] => by simp
  | ⟨.atoms as, o, index⟩ :: cs => by
    intro c hc k hk
    rcases List.mem_cons.mp hc with rfl | hc
    · cases hk
    · exact induct_nestedOf h cs c hc k hk
  | ⟨.nested b, o, index⟩ :: cs => by
    intro c hc k hk
    rcases List.mem_cons.mp hc with rfl | hc
    · cases hk
      exact induct_nested h b
    · exact induct_nestedOf h cs c hc k hk

end

end

end Builder
end PatternBuilder
