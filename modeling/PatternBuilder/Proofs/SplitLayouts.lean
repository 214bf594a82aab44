import PatternBuilder.Proofs.Scoping

/-!
# Split layouts

A layout can be split at a clause: the places before it and behind it depend on the rest only
through what is next to the split. A run of alternatives is written in one piece wherever it stands.
-/

namespace PatternBuilder.Layout

variable {β : Type}

section

variable {behind cs ds ms : List (Clause β)}

/-- How clauses are filtered does not depend on which clauses come behind. -/
theorem dropStrays_append (before : Option (Clause β)) (cs ds : List (Clause β)) :
    dropStrays before (cs ++ ds) =
      dropStrays before cs ++ dropStrays ((dropStrays before cs).getLast?.or before) ds := by
  induction cs generalizing before with
  | nil => rfl
  | cons c cs ih =>
    rw [List.cons_append, dropStrays, dropStrays]
    by_cases hstray : isStray before c = true
    · rw [if_pos hstray, if_pos hstray, ih]
    · rw [if_neg hstray, if_neg hstray, ih, List.cons_append, List.getLast?_cons]
      cases (dropStrays (some c) cs).getLast? <;> rfl

/-- Behind any clause but a separator, the next one counts unless it is a repeater. -/
theorem dropStrays_cons {before c : Clause β} (hbefore : before.isSeparator = false)
    (hc : c.isRepeater = false) (cs : List (Clause β)) :
    dropStrays (some before) (c :: cs) = c :: dropStrays (some c) cs := by
  simp [dropStrays, isStray, hbefore, hc]

theorem dropLastSeparator_append (hcs : ∀ c ∈ cs.getLast?, c.isSeparator = false)
    (ds : List (Clause β)) : dropLastSeparator (cs ++ ds) = cs ++ dropLastSeparator ds := by
  unfold dropLastSeparator
  rw [List.getLast?_append]
  cases hds : ds.getLast? with
  | none =>
    obtain rfl := List.getLast?_eq_none_iff.mp hds
    cases hlast : cs.getLast? with
    | none => simp
    | some c => simp [hcs c hlast]
  | some d =>
    have hne : ds ≠ [] := by
      rintro rfl
      cases hds
    rw [Option.some_or, List.dropLast_append_of_ne_nil hne]
    split <;> rfl

theorem dropLastSeparator_of_last (hcs : ∀ c ∈ cs.getLast?, c.isSeparator = false) :
    dropLastSeparator cs = cs := by
  have happend := dropLastSeparator_append hcs []
  rw [List.append_nil] at happend
  exact happend.trans (List.append_nil cs)

theorem head?_dropLastSeparator (cs : List (Clause β)) :
    ∀ c ∈ (dropLastSeparator cs).head?, c ∈ cs.head? := by
  unfold dropLastSeparator
  split
  · match cs with
    | [] => exact fun _ h => h
    | [c] => simp
    | c :: d :: cs => exact fun _ h => h
  · exact fun _ h => h

theorem items_append (hds : ∀ d ∈ ds.head?, d.isRepeater = false) (cs : List (Clause β)) :
    items (cs ++ ds) = items cs ++ items ds := by
  fun_induction items cs with
  | case1 => rfl
  | case2 c => exact items_cons hds
  | case3 c r cs hr ih =>
    rw [List.cons_append, List.cons_append, items_cons_repeater hr, ih]
    rfl
  | case4 c r cs hr ih =>
    have hnext : items (c :: (r :: (cs ++ ds))) = ⟨c, none⟩ :: items (r :: (cs ++ ds)) := by
      rw [items, if_neg hr]
    rw [List.cons_append, List.cons_append, hnext, List.cons_append]
    exact congrArg (⟨c, none⟩ :: ·) ih

theorem dropStrays_sublist (b : Option (Clause β)) (cs : List (Clause β)) :
    (dropStrays b cs).Sublist cs := by
  induction cs generalizing b with
  | nil => exact .slnil
  | cons c cs ih =>
    rw [dropStrays]
    split
    · exact (ih b).cons c
    · exact (ih (some c)).cons_cons c

theorem dropStrays_dropStrays (b : Option (Clause β)) (cs : List (Clause β)) :
    dropStrays b (dropStrays b cs) = dropStrays b cs := by
  induction cs generalizing b with
  | nil => rfl
  | cons c cs ih =>
    by_cases hstray : isStray b c = true
    · rw [dropStrays, if_pos hstray, ih]
    · rw [dropStrays, if_neg hstray, dropStrays, if_neg hstray, ih]

theorem isStray_none {c : Clause β} :
    isStray none c = false ↔ c.isSeparator = false ∧ c.isRepeater = false := by
  cases hsep : c.isSeparator <;> cases hrep : c.isRepeater <;> simp [isStray, hsep, hrep]

/-- What counts as the first clause counts everywhere. -/
theorem isStray_of_none {c : Clause β} (h : isStray none c = false) (b : Option (Clause β)) :
    isStray b c = false := by
  obtain ⟨hsep, hrep⟩ := isStray_none.mp h
  simp [isStray, hsep, hrep]

structure AllCount (ms : List (Clause β)) : Prop where
  counted : dropStrays none ms = ms
  last : ∃ c ∈ ms.getLast?, c.isSeparator = false

theorem allCount_singleton {c : Clause β} (hsep : c.isSeparator = false)
    (hrep : c.isRepeater = false) : AllCount [c] := by
  have hc : isStray none c = false := isStray_none.mpr ⟨hsep, hrep⟩
  exact ⟨by simp [dropStrays, hc], c, rfl, hsep⟩

theorem AllCount.exists_cons (h : AllCount ms) :
    ∃ c cs, ms = c :: cs ∧ isStray none c = false ∧ dropStrays (some c) cs = cs := by
  have hcounted := h.counted
  cases ms with
  | nil =>
    obtain ⟨c, hc, -⟩ := h.last
    cases hc
  | cons c cs =>
    rw [dropStrays] at hcounted
    split at hcounted
    next =>
      have hless := (dropStrays_sublist none cs).length_le
      rw [hcounted, List.length_cons] at hless
      omega
    next hstray => exact ⟨c, cs, rfl, by simpa using hstray, (List.cons.inj hcounted).2⟩

theorem AllCount.head? (h : AllCount ms) : ∀ c ∈ ms.head?, c.isRepeater = false := by
  obtain ⟨c, cs, rfl, hc, -⟩ := h.exists_cons
  rintro d hd
  obtain rfl := Option.some.inj hd
  exact (isStray_none.mp hc).2

theorem AllCount.dropStrays_eq (h : AllCount ms) (b : Option (Clause β)) :
    dropStrays b ms = ms := by
  obtain ⟨c, cs, rfl, hstray, hrest⟩ := h.exists_cons
  rw [dropStrays, isStray_of_none hstray, if_neg (by decide), hrest]

theorem dropStrays_init {c : Clause β} (h : dropStrays none (cs ++ [c]) = cs ++ [c]) :
    dropStrays none cs = cs ∧ isStray cs.getLast? c = false := by
  rw [dropStrays_append] at h
  have hfirst := (dropStrays_sublist none cs).length_le
  have hsecond := (dropStrays_sublist ((dropStrays none cs).getLast?.or none) [c]).length_le
  have hlength := congrArg List.length h
  rw [List.length_append, List.length_append] at hlength
  obtain ⟨hcs, hc⟩ := List.append_inj h (by simp at hsecond hlength; omega)
  refine ⟨hcs, ?_⟩
  rw [hcs, Option.or_none, dropStrays] at hc
  split at hc
  · cases hc
  next hstray => simpa using hstray

theorem allCount_kept (hne : kept cs ≠ []) : AllCount (kept cs) := by
  have hcounted : dropStrays none (dropStrays none cs) = dropStrays none cs :=
    dropStrays_dropStrays none cs
  unfold kept dropLastSeparator at hne ⊢
  split
  next hlast =>
    rw [if_pos hlast] at hne
    obtain ⟨s, hs, hsep⟩ := (Option.any_eq_true _ _).mp hlast
    obtain ⟨init, hinit⟩ := List.getLast?_eq_some_iff.mp hs
    rw [hinit] at hcounted
    rw [hinit, List.dropLast_concat] at hne ⊢
    obtain ⟨hall, hstray⟩ := dropStrays_init hcounted
    refine ⟨hall, ?_⟩
    obtain ⟨c, hc⟩ := Option.isSome_iff_exists.mp (List.getLast?_isSome.mpr hne)
    rw [hc] at hstray
    refine ⟨c, hc, ?_⟩
    simpa [isStray, hsep] using (Bool.or_eq_false_iff.mp hstray).1
  next hlast =>
    rw [if_neg hlast] at hne
    refine ⟨hcounted, ?_⟩
    obtain ⟨c, hc⟩ := Option.isSome_iff_exists.mp (List.getLast?_isSome.mpr hne)
    rw [hc] at hlast
    exact ⟨c, hc, by simpa using hlast⟩

/-- What counts behind a clause that is no separator, of clauses that begin with no repeater. -/
def keptBehind : List (Clause β) → List (Clause β)
  | [] => []
  | c :: cs => c :: dropStrays (some c) cs

theorem dropStrays_some {c : Clause β} (hc : c.isSeparator = false)
    (hbehind : ∀ d ∈ behind.head?, d.isRepeater = false) :
    dropStrays (some c) behind = keptBehind behind := by
  cases behind with
  | nil => rfl
  | cons d behind => exact dropStrays_cons hc (hbehind d rfl) behind

theorem head?_keptBehind (cs : List (Clause β)) : (keptBehind cs).head? = cs.head? := by
  cases cs <;> rfl

def itemsBefore (cs : List (Clause β)) : List (Item (Clause β)) := items (dropStrays none cs)

def itemsBehind (cs : List (Clause β)) : List (Item (Clause β)) :=
  items (dropLastSeparator (keptBehind cs))

/-- In the midst of others, clauses that all count are joined as they are on their own. -/
theorem items_kept_split (before : List (Clause β)) (hms : AllCount ms)
    (hbehind : ∀ d ∈ behind.head?, d.isRepeater = false) :
    items (kept (before ++ (ms ++ behind))) =
      itemsBefore before ++ (items ms ++ itemsBehind behind) := by
  have hhead : ∀ d ∈ (dropLastSeparator (keptBehind behind)).head?, d.isRepeater = false := by
    intro d hd
    have hkept := head?_dropLastSeparator (keptBehind behind) d hd
    rw [head?_keptBehind] at hkept
    exact hbehind d hkept
  obtain ⟨c, hc, hsep⟩ := hms.last
  have hlast : ∀ d ∈ (dropStrays none before ++ ms).getLast?, d.isSeparator = false := by
    intro d hd
    rw [List.getLast?_append, Option.mem_def.mp hc, Option.some_or] at hd
    exact Option.some.inj hd ▸ hsep
  have hstart : ∀ d ∈ (ms ++ dropLastSeparator (keptBehind behind)).head?,
      d.isRepeater = false := by
    obtain ⟨e, es, rfl, -⟩ := hms.exists_cons
    exact hms.head?
  rw [kept, dropStrays_append, dropStrays_append, hms.dropStrays_eq, Option.mem_def.mp hc,
    Option.some_or, dropStrays_some hsep hbehind, ← List.append_assoc,
    dropLastSeparator_append hlast, List.append_assoc, items_append hstart, items_append hhead]
  rfl

theorem items_kept_append (before : List (Clause β)) (hms : AllCount ms) :
    items (kept (before ++ ms)) = itemsBefore before ++ items ms := by
  have hnone : ∀ d ∈ ([] : List (Clause β)).head?, d.isRepeater = false := by simp
  have hsplit := items_kept_split before hms hnone
  rw [List.append_nil] at hsplit
  exact hsplit.trans (congrArg (itemsBefore before ++ ·) (List.append_nil _))

end

section

variable {flat solo behind : Bool} {is js : List (Item (Clause β))}

def scopeBetween (flat solo behind ahead : Bool) : Scope where
  opens := !flat && !behind && ahead
  closes := !flat && behind && !ahead
  alternative := behind || ahead
  solo := solo

theorem place_entry {i : Item (Clause β)} (hi : i.clause.isSeparator = false) :
    place flat solo behind (i :: is) =
      .entry i.clause i.repeater (scopeBetween flat solo behind (startsWithSeparator is)) ::
        place flat solo false is := by
  rw [place, hi, if_neg (by decide)]
  rfl

theorem exists_item_of_place {s : Slot (Clause β)} (hs : s ∈ place flat solo behind is)
    (hsep : s.isSeparator = true) : ∃ i ∈ is, i.clause.isSeparator = true := by
  induction is generalizing behind with
  | nil => cases hs
  | cons i is ih =>
    cases hi : i.clause.isSeparator with
    | true => exact ⟨i, List.mem_cons_self, hi⟩
    | false =>
      rw [place_entry hi] at hs
      rcases List.mem_cons.mp hs with rfl | hs
      · cases hsep
      · obtain ⟨j, hj, hjsep⟩ := ih hs
        exact ⟨j, List.mem_cons_of_mem i hj, hjsep⟩

def lastSeparates (behind : Bool) (is : List (Item (Clause β))) : Bool :=
  (is.getLast?.map fun i => i.clause.isSeparator).getD behind

/-- The last item is a separator, so that a clause behind it is an alternative. -/
def endsInSeparator (cs : List (Clause β)) : Bool := lastSeparates false (itemsBefore cs)

theorem lastSeparates_cons (i : Item (Clause β)) (is : List (Item (Clause β))) :
    lastSeparates behind (i :: is) = lastSeparates i.clause.isSeparator is := by
  cases is <;> simp [lastSeparates, List.getLast?_cons]

/-- The places before a split, at which no separator is next. -/
theorem place_append (hjs : startsWithSeparator js = false) (is : List (Item (Clause β))) :
    place flat solo behind (is ++ js) =
      place flat solo behind is ++ place flat solo (lastSeparates behind is) js := by
  induction is generalizing behind with
  | nil => rfl
  | cons i is ih =>
    rw [lastSeparates_cons]
    cases hi : i.clause.isSeparator with
    | true =>
      rw [List.cons_append, place, if_pos hi, place, if_pos hi, ih]
      rfl
    | false =>
      have hahead : startsWithSeparator (is ++ js) = startsWithSeparator is := by
        cases is with
        | nil => exact hjs
        | cons j is => rfl
      rw [List.cons_append, place_entry hi, place_entry hi, hahead, ih]
      rfl

theorem exists_alternates (due : Bool) (is : List (Item (Clause β))) :
    ∃ flat due', ∀ js, alternates due (is ++ js) = (flat && alternates due' js) := by
  induction is generalizing due with
  | nil => exact ⟨true, due, fun _ => rfl⟩
  | cons i is ih =>
    obtain ⟨flat, due', hflat⟩ := ih (!due)
    refine ⟨(i.clause.isSeparator == due) && flat, due', fun js => ?_⟩
    rw [List.cons_append, alternates, hflat, Bool.and_assoc]

inductive IsAlternation : List (Item (Clause β)) → Prop where
  | single (i : Item (Clause β)) (hi : i.clause.isSeparator = false) : IsAlternation [i]
  | cons (i s : Item (Clause β)) (is : List (Item (Clause β)))
      (hi : i.clause.isSeparator = false) (hs : s.clause.isSeparator = true)
      (h : IsAlternation is) : IsAlternation (i :: s :: is)

theorem isAlternation_of_alternates : (is : List (Item (Clause β))) →
    alternates false is = true → (∃ i ∈ is.getLast?, i.clause.isSeparator = false) →
    IsAlternation is
  | [], _, hlast => by
    obtain ⟨i, hi, -⟩ := hlast
    cases hi
  | [i], hturns, _ => by
    apply IsAlternation.single
    simpa [alternates] using hturns
  | i :: s :: is, hturns, hlast => by
    simp only [alternates, Bool.and_eq_true, beq_iff_eq, Bool.not_false, Bool.not_true] at hturns
    obtain ⟨hi, hs, hrest⟩ := hturns
    have hmore : ∃ j ∈ is.getLast?, j.clause.isSeparator = false := by
      cases is with
      | nil =>
        obtain ⟨j, hj, hsep⟩ := hlast
        obtain rfl : s = j := by simpa using hj
        rw [hs] at hsep
        cases hsep
      | cons j is => simpa using hlast
    exact .cons i s is hi hs (isAlternation_of_alternates is hrest hmore)

namespace IsAlternation

theorem length_pos (h : IsAlternation is) : 0 < is.length := by
  cases h <;> simp

theorem startsWithSeparator_append (h : IsAlternation is) (js : List (Item (Clause β))) :
    startsWithSeparator (is ++ js) = false := by
  cases h with
  | single i hi => exact hi
  | cons i s is hi hs h => exact hi

/-- Seen from its ends, a run is like one clause. -/
theorem alternates_append (h : IsAlternation is) (due : Bool) (js : List (Item (Clause β))) :
    alternates due (is ++ js) = ((false == due) && alternates true js) := by
  induction h generalizing due with
  | single i hi =>
    rw [List.singleton_append, alternates, hi]
    cases due <;> rfl
  | cons i s is hi hs h ih =>
    rw [List.cons_append, List.cons_append, alternates, alternates, ih, hi, hs]
    cases due <;> rfl

end IsAlternation

structure AreAlternatives (ms : List (Clause β)) : Prop where
  count : AllCount ms
  turns : IsAlternation (items ms)

/-- In the place of one clause, all alternatives stand between the same items. -/
theorem exists_places (before : List (Clause β)) {behind : List (Clause β)}
    (hbehind : ∀ d ∈ behind.head?, d.isRepeater = false) :
    ∃ whole, ∀ ms, AreAlternatives ms → ∀ solo,
      ((itemsBefore before ++ (items ms ++ itemsBehind behind)).length == 1) = solo →
      slots (before ++ (ms ++ behind)) = place whole solo false (itemsBefore before) ++
        place whole solo (endsInSeparator before) (items ms ++ itemsBehind behind) := by
  obtain ⟨flat, due, hflat⟩ := exists_alternates false (itemsBefore before)
  refine ⟨flat && ((false == due) && alternates true (itemsBehind behind)), ?_⟩
  rintro ms hms solo rfl
  have hstart := hms.turns.startsWithSeparator_append (itemsBehind behind)
  rw [slots, items_kept_split before hms.count hbehind, hflat, hms.turns.alternates_append,
    place_append hstart, endsInSeparator]

end

/-- Next to a separator a clause is written alike, whatever else is around it. -/
theorem Item.text_of_alternative (flags : Flags) {scope : Scope} (h : scope.alternative = true)
    (i : Item (Clause Text)) : i.text flags scope = i.text flags { alternative := true } := by
  have hbare : scope.isBare = true := by simp [Scope.isBare, h]
  have hclause : i.clause.text flags scope = i.clause.text flags { alternative := true } := by
    rw [Clause.text, Clause.text, h, hbare]
    rfl
  rw [Item.text, Item.text]
  cases i.repeater with
  | none => exact hclause
  | some r => exact congrArg (Clause.repeatText · r.options.quantifierText) hclause

section

variable {is : List (Item (Clause β))} {flat solo behind : Bool}

def placesText (flags : Flags) (g : Clause β → Clause Text) (ss : List (Slot (Clause β))) : Text :=
  ss.flatMap fun s => (s.map g).text flags

def alternativesText (flags : Flags) (g : Clause β → Clause Text) (is : List (Item (Clause β))) :
    Text :=
  is.flatMap fun i =>
    if i.clause.isSeparator then ['|'] else (i.map g).text flags { alternative := true }

theorem placesText_append (flags : Flags) (g : Clause β → Clause Text)
    (ss ts : List (Slot (Clause β))) :
    placesText flags g (ss ++ ts) = placesText flags g ss ++ placesText flags g ts :=
  List.flatMap_append

/-- Alternatives are written in one piece. Their group opens if no separator is next to them
before, and closes if none is next behind. The induction is on the alternatives: a separator is
behind each but the first. -/
theorem IsAlternation.text_place (h : IsAlternation is) (flags : Flags)
    (g : Clause β → Clause Text) (rest : List (Item (Clause β)))
    (hrun : behind = true ∨ startsWithSeparator rest = true ∨ 2 ≤ is.length) :
    placesText flags g (place flat solo behind (is ++ rest)) =
      (if flat || behind then [] else ['(', '?', ':']) ++ (alternativesText flags g is ++
        ((if flat || startsWithSeparator rest then [] else [')']) ++
          placesText flags g (place flat solo false rest))) := by
  induction h generalizing behind with
  | single i hi =>
    have hnext : (behind || startsWithSeparator rest) = true := by simpa using hrun
    have htext : (i.map g).text flags (scopeBetween flat solo behind (startsWithSeparator rest)) =
        (i.map g).text flags { alternative := true } :=
      Item.text_of_alternative flags hnext (i.map g)
    have hwritten : alternativesText flags g [i] =
        (i.map g).text flags { alternative := true } := by
      simp [alternativesText, hi]
    rw [List.singleton_append, place_entry hi, placesText, List.flatMap_cons, Slot.map, Slot.text,
      hwritten, ← htext, placesText]
    cases flat <;> cases behind <;> cases hahead : startsWithSeparator rest <;>
      simp [scopeBetween, Scope.enclose, Item.text, Item.map, hahead] at hnext ⊢
  | cons i s is hi hs h ih =>
    have hrest := @ih true (.inl rfl)
    have hahead : startsWithSeparator (s :: (is ++ rest)) = true := hs
    have htext : (i.map g).text flags (scopeBetween flat solo behind true) =
        (i.map g).text flags { alternative := true } :=
      Item.text_of_alternative flags (Bool.or_true behind) (i.map g)
    have hwritten : alternativesText flags g (i :: s :: is) =
        (i.map g).text flags { alternative := true } ++ '|' :: alternativesText flags g is := by
      simp [alternativesText, hi, hs]
    have hsplit : ∀ (u v : Slot (Clause β)) ss, placesText flags g (u :: v :: ss) =
        (u.map g).text flags ++ ((v.map g).text flags ++ placesText flags g ss) :=
      fun _ _ _ => rfl
    rw [List.cons_append, List.cons_append, place_entry hi, hahead, place, if_pos hs, hsplit, hrest,
      hwritten, ← htext]
    cases flat <;> cases behind <;>
      simp [scopeBetween, Scope.enclose, Item.text, Item.map, Slot.text, Slot.map]

theorem IsAlternation.text_flat (h : IsAlternation is) (hseveral : 2 ≤ is.length) (flags : Flags)
    (g : Clause β → Clause Text) :
    placesText flags g (place true solo false is) = alternativesText flags g is := by
  have hplaces : placesText flags g (place true solo false (is ++ [])) = _ :=
    h.text_place flags g [] (.inr (.inr hseveral))
  simpa [place, placesText] using hplaces

end

end PatternBuilder.Layout
