import PatternBuilder.Proofs.QuantifiedClauses

/-!
# Appended clauses

All of a layout is worked out again when a clause is appended. What has been written before stays as
it is, but for a group around alternatives that were the whole sequence.
-/

namespace PatternBuilder

namespace Layout

variable {β : Type} {cs rs : List (Clause β)} {c : Clause β}

/-- The last clause that is not a repeater is no separator either, so that no separator is left open
at the end. -/
def endsInClause (cs : List (Clause β)) : Bool :=
  (cs.filter fun c => !c.isRepeater).getLast?.any fun c => !c.isSeparator

theorem exists_last (h : endsInClause cs = true) :
    ∃ before c after, cs = before ++ c :: after ∧ c.isSeparator = false ∧
      c.isRepeater = false ∧ ∀ r ∈ after, r.isRepeater = true := by
  obtain ⟨c, hc, hsep⟩ := (Option.any_eq_true _ _).mp h
  obtain ⟨init, hinit⟩ := List.getLast?_eq_some_iff.mp hc
  obtain ⟨before, rest, rfl, -, hrest⟩ := List.filter_eq_append_iff.mp hinit
  obtain ⟨strays, after, rfl, -, hrep, hafter⟩ := List.filter_eq_cons_iff.mp hrest
  refine ⟨before ++ strays, c, after, by simp, by simpa using hsep, by simpa using hrep, ?_⟩
  intro r hr
  simpa using List.filter_eq_nil_iff.mp hafter r hr

/-- Of several repeaters only the first can count, and only behind content. -/
theorem exists_entry (hsep : c.isSeparator = false) (hrep : c.isRepeater = false)
    (hrs : ∀ r ∈ rs, r.isRepeater = true) :
    ∃ r, IsEntry c r ∧ dropStrays (some c) rs = r.toList := by
  have hnone : ∀ (d : Clause β) (ks : List (Clause β)), d.hasContent = false →
      (∀ k ∈ ks, k.isRepeater = true) → dropStrays (some d) ks = [] := by
    intro d ks hd hks
    induction ks with
    | nil => rfl
    | cons k ks ih =>
      have hstray : isStray (some d) k = true := by simp [isStray, hd, hks k]
      rw [dropStrays, if_pos hstray]
      exact ih fun k' hk' => hks k' (List.mem_cons_of_mem k hk')
  have halone : IsEntry c none := ⟨hsep, hrep, by simp⟩
  cases hcontent : c.hasContent with
  | false => exact ⟨none, halone, hnone c rs hcontent hrs⟩
  | true =>
    cases rs with
    | nil => exact ⟨none, halone, rfl⟩
    | cons r rs =>
      have hr := hrs r List.mem_cons_self
      obtain ⟨hrsep, hrcontent⟩ := Progress.isSeparator_of_isRepeater hr
      have hcounts : isStray (some c) r = false := by simp [isStray, hrsep, hcontent]
      have hrest := hnone r rs hrcontent fun k hk => hrs k (List.mem_cons_of_mem r hk)
      refine ⟨some r, ⟨hsep, hrep, fun k hk => Option.some.inj hk ▸ ⟨hr, hcontent⟩⟩, ?_⟩
      rw [dropStrays, hcounts, if_neg (by decide), hrest]
      rfl

/-- Where no separator is left open, an appended clause is one item more. -/
theorem exists_items_concat (h : endsInClause cs = true) :
    ∃ is i, i.clause.isSeparator = false ∧ items (kept cs) = is ++ [i] ∧
      ∀ c : Clause β, c.isSeparator = false → c.isRepeater = false →
        items (kept (cs ++ [c])) = (is ++ [i]) ++ [⟨c, none⟩] := by
  obtain ⟨before, d, after, rfl, hsep, hrep, hafter⟩ := exists_last h
  obtain ⟨r, hentry, hdrop⟩ := exists_entry hsep hrep hafter
  have hcounts : isStray none d = false := isStray_none.mpr ⟨hsep, hrep⟩
  have hdropped : dropStrays none (before ++ d :: after) =
      dropStrays none before ++ d :: r.toList := by
    rw [dropStrays_append, dropStrays, isStray_of_none hcounts, if_neg (by decide), hdrop]
  have hlast : ∀ e ∈ (dropStrays none before ++ d :: r.toList).getLast?,
      e.isSeparator = false := by
    obtain ⟨e, he, hesep⟩ := hentry.allCount.last
    intro k hk
    rw [List.getLast?_append, Option.mem_def.mp he, Option.some_or] at hk
    exact Option.some.inj hk ▸ hesep
  have hitems : items (dropStrays none before ++ d :: r.toList) =
      items (dropStrays none before) ++ [⟨d, r⟩] := by
    rw [items_append hentry.allCount.head?, hentry.items_eq]
  refine ⟨items (dropStrays none before), ⟨d, r⟩, hsep, ?_, ?_⟩
  · rw [kept, hdropped, dropLastSeparator_of_last hlast, hitems]
  · intro c hc hcrep
    rw [items_kept_append _ (allCount_singleton hc hcrep), itemsBefore, hdropped, hitems]
    rfl

theorem alternates_two {i j : Item (Clause β)} (hi : i.clause.isSeparator = false)
    (hj : j.clause.isSeparator = false) (due : Bool) (is : List (Item (Clause β))) :
    alternates due ((is ++ [i]) ++ [j]) = false := by
  induction is generalizing due with
  | nil => cases due <;> simp [alternates, hi, hj]
  | cons k is ih => rw [List.cons_append, List.cons_append, alternates, ih, Bool.and_false]

theorem placesText_concat (hseparated : ∃ s ∈ slots cs, s.isSeparator = true)
    (hlast : endsInClause cs = true) (hsep : c.isSeparator = false) (hrep : c.isRepeater = false)
    (flags : Flags) (g : Clause β → Clause Text) :
    placesText flags g (slots (cs ++ [c])) =
      (if byTurns false (slots cs) then Grouping.nonCapture.wrap (placesText flags g (slots cs))
        else placesText flags g (slots cs)) ++ (g c).text flags {} := by
  obtain ⟨is, i, hi, hold, hnew⟩ := exists_items_concat hlast
  obtain ⟨s, hs, hbar⟩ := hseparated
  rw [slots, hold] at hs
  have hseveral : is ≠ [] := by
    rintro rfl
    obtain ⟨j, hj, hjsep⟩ := exists_item_of_place hs hbar
    obtain rfl := List.mem_singleton.mp hj
    rw [hi] at hjsep
    cases hjsep
  let k : Item (Clause β) := ⟨c, none⟩
  have hlength : 0 < is.length := List.length_pos_iff.mpr hseveral
  have hsolo : ((is ++ [i]).length == 1) = false := by
    rw [List.length_append, List.length_singleton, beq_eq_false_iff_ne]
    omega
  have hsolo' : (((is ++ [i]) ++ [k]).length == 1) = false := by
    rw [List.length_append, List.length_append, List.length_singleton, List.length_singleton,
      beq_eq_false_iff_ne]
    omega
  have hflat : alternates false ((is ++ [i]) ++ [k]) = false := alternates_two hi hsep false is
  have hnext : startsWithSeparator [k] = false := hsep
  have hbehind : lastSeparates false (is ++ [i]) = false := by simpa [lastSeparates] using hi
  have happended : placesText flags g (place false false false [k]) = (g c).text flags {} := by
    rw [place_entry hsep]
    exact (List.append_nil _).trans ((List.append_nil _).trans (List.nil_append _))
  rw [slots, slots, hnew c hsep hrep, hold, byTurns_place, hsolo, hsolo', hflat]
  cases hturns : alternates false (is ++ [i]) with
  | true =>
    have hrun : IsAlternation (is ++ [i]) :=
      isAlternation_of_alternates (is ++ [i]) hturns ⟨i, by simp, hi⟩
    have htwo : 2 ≤ (is ++ [i]).length := by
      rw [List.length_append, List.length_singleton]
      omega
    rw [if_pos rfl, hrun.text_flat htwo, hrun.text_place flags g [k] (.inr (.inr htwo)), hnext,
      happended]
    simp [Grouping.wrap]
  | false =>
    rw [if_neg (by decide), place_append hnext, placesText_append, hbehind, happended]

end Layout

namespace Builder

variable {b : Builder} {body : Body Builder} {o : Options}

/-- If a sequence has alternatives, and none is still open at its end, an appended clause leaves the
text before it as it was. Only where that text is one run without a group, the run gets one. The
clause itself is written as it is anywhere outside of runs. -/
theorem render_push (hseparated : ∃ s ∈ Layout.slots b.clauses, s.isSeparator = true)
    (hlast : Layout.endsInClause b.clauses = true) (hsep : o.isSeparator = false)
    (hrep : (⟨body, o, b.size⟩ : Clause Builder).isRepeater = false) (flags : Flags) :
    (b.push body o).render flags =
      (if Layout.byTurns false (Layout.slots b.clauses) then
          Grouping.nonCapture.wrap (b.render flags)
        else b.render flags) ++
        (Clause.map (render flags) ⟨body, o, b.size⟩).text flags {} := by
  rw [render_eq_slots, render_eq_slots]
  exact Layout.placesText_concat (c := ⟨body, o, b.size⟩) hseparated hlast hsep hrep flags _

def choice : Builder := ((empty.find (.ofChar 'a')).orFind (.ofText ['b', 'c'])).quantify .oneOrMore

theorem render_push_choice :
    let one := choice.push (.atoms [.char 'd']) {}
    let two := one.push (.nested choice) {}
    one.render .empty = Grouping.nonCapture.wrap (choice.render .empty) ++ ['d'] ∧
      two.render .empty = one.render .empty ++ Grouping.nonCapture.wrap (choice.render .empty) ∧
      two.render .empty = "(?:a|(?:bc)+)d(?:a|(?:bc)+)".toList := by
  intro one two
  have hone : one.render .empty = _ :=
    render_push (by decide +kernel) (by decide +kernel) rfl rfl .empty
  have htwo : two.render .empty = _ :=
    render_push (by decide +kernel) (by decide +kernel) rfl rfl .empty
  refine ⟨hone.trans ?_, htwo.trans ?_, ?_⟩ <;> decide +kernel

end Builder
end PatternBuilder
