import Mathlib.Data.List.Chain
import PatternBuilder.Proofs.QuantifiedClauses

/-!
# Members of runs

A clause in a run of alternatives may hold several alternatives itself: atoms that do not fit one
class, or a nested builder. Written out as clauses of their own they give the same source.
-/

namespace PatternBuilder

namespace Layout

variable {β : Type} {before behind cs ms : List (Clause β)} {c : Clause β}

/-- The clause between `before` and `behind` belongs to a run. Its place is the one behind the
places of all that is listed of `before`. -/
def IsRunMember (before : List (Clause β)) (c : Clause β) (behind : List (Clause β)) : Prop :=
  ∃ ss r scope ts, slots (before ++ c :: behind) = ss ++ .entry c r scope :: ts ∧
    ss.flatMap Slot.clauses = listed [] before ∧ IsInRun ss (.entry c r scope) ts

theorem IsRunMember.isSeparator (h : IsRunMember before c behind) : c.isSeparator = false := by
  obtain ⟨ss, r, scope, ts, hslots, -⟩ := h
  have hmem : .entry c r scope ∈ slots (before ++ c :: behind) := by
    rw [hslots]
    simp
  exact (mem_of_mem_slots hmem).1

def SparesSeparators (cs : List (Clause β)) : Prop :=
  cs.IsChain fun c r => r.isRepeater = true → c.isSeparator = false

theorem sparesSeparators_dropStrays (hcs : ∀ c ∈ cs, c.isSeparator = true → c.hasContent = false) :
    SparesSeparators (dropStrays none cs) := by
  have hbehind : ∀ (b : Clause β) (ds : List (Clause β)),
      (b.isSeparator = true → b.hasContent = false) →
      (∀ c ∈ ds, c.isSeparator = true → c.hasContent = false) →
      SparesSeparators (b :: dropStrays (some b) ds) := by
    intro b ds hb hds
    induction ds generalizing b with
    | nil => exact .singleton b
    | cons d ds ih =>
      have hrest : ∀ c ∈ ds, c.isSeparator = true → c.hasContent = false := fun c hc =>
        hds c (List.mem_cons_of_mem d hc)
      rw [dropStrays]
      by_cases hstray : isStray (some b) d = true
      · rw [if_pos hstray]
        exact ih b hb hrest
      · rw [if_neg hstray]
        refine List.isChain_cons_cons.mpr ⟨?_, ih d (hds d List.mem_cons_self) hrest⟩
        intro hd
        rw [Bool.eq_false_iff]
        intro hsep
        simp [isStray, hd, hb hsep] at hstray
  induction cs with
  | nil => exact .nil
  | cons c cs ih =>
    have hrest : ∀ d ∈ cs, d.isSeparator = true → d.hasContent = false := fun d hd =>
      hcs d (List.mem_cons_of_mem c hd)
    rw [dropStrays]
    split
    · exact ih hrest
    · exact hbehind c cs (hcs c List.mem_cons_self) hrest

theorem clauses_place_items (hcs : SparesSeparators cs) (flat solo behind : Bool) :
    (place flat solo behind (items cs)).flatMap Slot.clauses =
      cs.filter fun c => !c.isSeparator := by
  fun_induction items cs generalizing behind with
  | case1 => rfl
  | case2 c => cases hc : c.isSeparator <;> simp [place, hc, Slot.clauses]
  | case3 c r cs hr ih =>
    obtain ⟨hc, hchain⟩ := List.isChain_cons_cons.mp hcs
    have hrest := ih hchain.tail false
    have hrsep := (Progress.isSeparator_of_isRepeater hr).1
    rw [place_entry (hc hr), List.flatMap_cons, hrest]
    simp [Slot.clauses, hc hr, hrsep]
  | case4 c r cs hr ih =>
    have hrest := ih (List.isChain_cons_cons.mp hcs).2
    have hfilter : (c :: r :: cs).filter (fun c => !c.isSeparator) =
        (if c.isSeparator then [] else [c]) ++ (r :: cs).filter fun c => !c.isSeparator := by
      cases hc : c.isSeparator <;> simp [List.filter_cons, hc]
    rw [hfilter]
    cases hc : c.isSeparator with
    | true =>
      rw [place, if_pos hc, List.flatMap_cons, hrest]
      rfl
    | false =>
      rw [place_entry hc, List.flatMap_cons, hrest]
      rfl

theorem entry_of_clauses {α : Type} {ss ss' ts ts' : List (Slot α)} {a a' : α} {r r' : Option α}
    {scope scope' : Scope}
    (h : ss ++ .entry a r scope :: ts = ss' ++ .entry a' r' scope' :: ts')
    (hclauses : ss.flatMap Slot.clauses = ss'.flatMap Slot.clauses) : scope = scope' := by
  rcases List.append_eq_append_iff.mp h with ⟨us, rfl, hrest⟩ | ⟨us, rfl, hrest⟩
  · cases us with
    | nil => cases hrest; rfl
    | cons u us =>
      obtain ⟨rfl, -⟩ := List.cons.inj hrest
      simp [Slot.clauses] at hclauses
  · cases us with
    | nil => cases hrest; rfl
    | cons u us =>
      obtain ⟨rfl, -⟩ := List.cons.inj hrest
      simp [Slot.clauses] at hclauses

theorem areAlternatives_singleton (hsep : c.isSeparator = false) (hrep : c.isRepeater = false) :
    AreAlternatives [c] where
  count := allCount_singleton hsep hrep
  turns := .single ⟨c, none⟩ hsep

theorem IsRunMember.neighbour (h : IsRunMember before c behind)
    (hplain : ∀ d ∈ before, d.isSeparator = true → d.hasContent = false) {whole solo : Bool}
    {js : List (Item (Clause β))}
    (hplaces : slots (before ++ c :: behind) = place whole solo false (itemsBefore before) ++
      place whole solo (endsInSeparator before) (⟨c, none⟩ :: js)) :
    (endsInSeparator before || startsWithSeparator js) = true := by
  have hsep := h.isSeparator
  obtain ⟨ss, r, scope, ts, hslots, hlisted, hrun⟩ := h
  have hbefore : (place whole solo false (itemsBefore before)).flatMap Slot.clauses =
      listed [] before := by
    rw [itemsBefore, clauses_place_items (sparesSeparators_dropStrays hplain)]
    exact listed_eq [] before
  have halternative : scope.alternative = true := by
    have hread := congrArg Scope.alternative (scope_place hslots rfl)
    rw [endsBehind_false] at hread
    have hnext := IsPlaced.neighbour_of_isInRun rfl hrun
    rw [← Bool.or_eq_true] at hnext
    exact hread.trans hnext
  rw [place_entry hsep, hslots] at hplaces
  rw [entry_of_clauses hplaces (hlisted.trans hbefore.symm)] at halternative
  exact halternative

/-- Around a member of a run, the same is written for all alternatives that stand in its place. -/
theorem IsRunMember.exists_text (h : IsRunMember before c behind) (hc : c.isRepeater = false)
    (hbehind : ∀ d ∈ behind.head?, d.isRepeater = false)
    (hplain : ∀ d ∈ before, d.isSeparator = true → d.hasContent = false) (flags : Flags)
    (g : Clause β → Clause Text) :
    ∃ s t, ∀ ms, AreAlternatives ms →
      placesText flags g (slots (before ++ (ms ++ behind))) =
        s ++ (alternativesText flags g (items ms) ++ t) := by
  obtain ⟨whole, hplaces⟩ := exists_places before hbehind
  have hnext : (endsInSeparator before || startsWithSeparator (itemsBehind behind)) = true :=
    h.neighbour hplain (hplaces [c] (areAlternatives_singleton h.isSeparator hc) _ rfl)
  have hothers : 0 < (itemsBefore before).length + (itemsBehind behind).length := by
    by_contra hnone
    have hbefore : itemsBefore before = [] := List.length_eq_zero_iff.mp (by omega)
    have hafter : itemsBehind behind = [] := List.length_eq_zero_iff.mp (by omega)
    rw [endsInSeparator, hbefore, hafter] at hnext
    cases hnext
  refine ⟨placesText flags g (place whole false false (itemsBefore before)) ++
      (if whole || endsInSeparator before then [] else ['(', '?', ':']),
    (if whole || startsWithSeparator (itemsBehind behind) then [] else [')']) ++
      placesText flags g (place whole false false (itemsBehind behind)), ?_⟩
  intro ms hms
  have hsolo : ((itemsBefore before ++ (items ms ++ itemsBehind behind)).length == 1) = false := by
    have hsome := hms.turns.length_pos
    rw [beq_eq_false_iff_ne, List.length_append, List.length_append]
    omega
  have hrun : endsInSeparator before = true ∨ startsWithSeparator (itemsBehind behind) = true ∨
      2 ≤ (items ms).length := by
    rw [Bool.or_eq_true] at hnext
    exact hnext.imp_right .inl
  rw [hplaces ms hms false hsolo, placesText_append,
    hms.turns.text_place flags g (itemsBehind behind) hrun]
  simp only [List.append_assoc]

theorem AreAlternatives.cons (h : AreAlternatives ms) {s : Clause β} (hc : isStray none c = false)
    (hs : s.isSeparator = true) :
    items (c :: s :: ms) = ⟨c, none⟩ :: ⟨s, none⟩ :: items ms ∧ AreAlternatives (c :: s :: ms) := by
  obtain ⟨hsep, hrep⟩ := isStray_none.mp hc
  have hsrep : s.isRepeater = false := by simp [Clause.isRepeater, hs]
  have hitems : items (c :: s :: ms) = ⟨c, none⟩ :: ⟨s, none⟩ :: items ms := by
    have hnext : ∀ r ∈ (s :: ms).head?, r.isRepeater = false := by
      intro r hr
      exact Option.some.inj hr ▸ hsrep
    rw [items_cons hnext, items_cons h.count.head?]
  refine ⟨hitems, ⟨?_, ?_⟩, ?_⟩
  · rw [dropStrays, hc, if_neg (by decide), dropStrays_cons hsep hsrep, h.count.dropStrays_eq]
  · obtain ⟨e, he, hesep⟩ := h.count.last
    have hlast : (c :: s :: ms).getLast? = ms.getLast? := by
      obtain ⟨d, ds, rfl, -⟩ := h.count.exists_cons
      simp
    exact ⟨e, hlast ▸ he, hesep⟩
  · rw [hitems]
    exact .cons ⟨c, none⟩ ⟨s, none⟩ (items ms) hsep hs h.turns

/-- Clauses that count, with a separator between neighbours, are written with bars between them. -/
theorem areAlternatives_intersperse {s : Clause β} (hs : s.isSeparator = true)
    (hcs : ∀ c ∈ cs, isStray none c = false) (hne : cs ≠ []) (flags : Flags)
    (g : Clause β → Clause Text) :
    AreAlternatives (cs.intersperse s) ∧
      alternativesText flags g (items (cs.intersperse s)) =
        ['|'].intercalate (cs.map fun c => (g c).text flags { alternative := true }) := by
  induction cs with
  | nil => exact absurd rfl hne
  | cons c cs ih =>
    have hc := hcs c List.mem_cons_self
    obtain ⟨hsep, hrep⟩ := isStray_none.mp hc
    cases cs with
    | nil =>
      refine ⟨areAlternatives_singleton hsep hrep, ?_⟩
      simp [alternativesText, items, hsep, Item.text, Item.map, Clause.repeatedText]
    | cons d cs =>
      obtain ⟨hrest, htext⟩ := ih (fun e he => hcs e (List.mem_cons_of_mem c he)) (by simp)
      rw [List.intersperse_cons_cons]
      obtain ⟨hitems, hall⟩ := hrest.cons hc hs
      refine ⟨hall, ?_⟩
      have hfirst : alternativesText flags g (items (c :: s :: (d :: cs).intersperse s)) =
          (g c).text flags { alternative := true } ++
            '|' :: alternativesText flags g (items ((d :: cs).intersperse s)) := by
        rw [hitems]
        simp [alternativesText, hsep, hs, Item.text, Item.map, Clause.repeatedText]
      rw [hfirst, htext]
      rfl

/-- The clauses that count of a sequence that is one run are alternatives, and without a group they
are all of its text. -/
theorem areAlternatives_kept (hcs : ∀ c ∈ cs, c.isSeparator = true → c.hasContent = false)
    (hturns : byTurns false (slots cs) = true)
    (hseparated : ∃ s ∈ slots cs, s.isSeparator = true) (flags : Flags)
    (g : Clause β → Clause Text) :
    AreAlternatives (kept cs) ∧
      alternativesText flags g (items (kept cs)) = placesText flags g (slots cs) := by
  obtain ⟨s, hs, hbar⟩ := hseparated
  obtain ⟨i, hi, hisep⟩ := exists_item_of_place hs hbar
  rw [slots, byTurns_place] at hturns
  have hne : kept cs ≠ [] := by
    intro hnil
    rw [hnil] at hi
    cases hi
  have hlast : ∃ j ∈ (items (kept cs)).getLast?, j.clause.isSeparator = false := by
    rw [items_kept hcs] at hi ⊢
    rcases List.eq_nil_or_concat' (parts cs) with hnil | ⟨us, u, hus⟩
    · rw [hnil] at hi
      cases hi
    · have hu : u ∈ parts cs := by simp [hus]
      refine ⟨u.item, ?_, (isWellFormed_parts hcs u hu).clause.1⟩
      simp [hus, Part.items]
  have hrun := isAlternation_of_alternates _ hturns hlast
  have hseveral : 2 ≤ (items (kept cs)).length := by
    generalize items (kept cs) = is at hrun hi
    cases hrun with
    | single j hj =>
      obtain rfl := List.mem_singleton.mp hi
      rw [hj] at hisep
      cases hisep
    | cons j k is => simp
  refine ⟨⟨allCount_kept hne, hrun⟩, ?_⟩
  rw [slots, hturns, hrun.text_flat hseveral]

end Layout

namespace Options

variable {o : Options} {flags : Flags}

theorem IsUnmarked.atomsText_inRun (h : o.IsUnmarked) (hcase : flags.ignoreCase = false)
    (as : List Atom) :
    o.atomsText flags true as = ['|'].intercalate (Atom.alternatives o.bareDot as) := by
  rw [Options.atomsText, hcase, Atom.foldWhen, if_neg (by decide), h.decoration, h.dress]
  simp

theorem IsUnmarked.nestedText_bare (h : o.IsUnmarked) (t : Text) : o.nestedText true t = t := by
  rw [h.nestedText, h.decoration, h.dress]
  simp

theorem isUnmarked_bareDot (bareDot : Bool) : { bareDot := bareDot : Options }.IsUnmarked :=
  ⟨rfl, rfl, rfl⟩

end Options

namespace Atom

variable {as : List Atom}

theorem alternatives_of_fitsClass (bareDot : Bool) (h : ∀ a ∈ as, a.fitsClass = true) :
    alternatives bareDot as = (classText? bareDot as).toList := by
  have hfit : as.filter fitsClass = as := List.filter_eq_self.mpr h
  have hlong : as.filter (fun a => !a.fitsClass) = [] := by
    rw [List.filter_eq_nil_iff]
    intro a ha
    simp [h a ha]
  rw [alternatives, hfit, hlong]
  exact List.append_nil _

theorem alternatives_singleton (bareDot : Bool) {a : Atom} (h : a.fitsClass = false) :
    alternatives bareDot [a] = [a.memberText] := by
  simp [alternatives, classText?, h]

theorem exists_classText (bareDot : Bool) (hne : as ≠ []) :
    ∃ t, classText? bareDot as = some t := by
  unfold classText?
  split
  · exact absurd rfl hne
  all_goals exact ⟨_, rfl⟩

/-- The atoms, apart where they are written as alternatives: all that fit a class in one list, if
there are any, and each of the others in its own. -/
def apart (as : List Atom) : List (List Atom) :=
  let fitting := as.filter fitsClass
  (if fitting.isEmpty then [] else [fitting]) ++
    (as.filter fun a => !a.fitsClass).map fun a => [a]

theorem apart_ne_nil (hne : as ≠ []) : apart as ≠ [] := by
  obtain ⟨a, ha⟩ := List.exists_mem_of_ne_nil as hne
  cases hfit : a.fitsClass with
  | true =>
    have hmem : a ∈ as.filter fitsClass := List.mem_filter.mpr ⟨ha, hfit⟩
    simp [apart, List.ne_nil_of_mem hmem]
  | false =>
    have hmem : [a] ∈ apart as := by simp [apart, ha, hfit]
    exact List.ne_nil_of_mem hmem

theorem map_alternatives_apart (bareDot : Bool) (as : List Atom) :
    (apart as).map (fun bs => ['|'].intercalate (alternatives bareDot bs)) =
      alternatives bareDot as := by
  have hlong : ((as.filter fun a => !a.fitsClass).map fun a => [a]).map
      (fun bs => ['|'].intercalate (alternatives bareDot bs)) =
        (as.filter fun a => !a.fitsClass).map memberText := by
    rw [List.map_map]
    apply List.map_congr_left
    intro a ha
    have hfit : a.fitsClass = false := by simpa using (List.mem_filter.mp ha).2
    simp [alternatives_singleton bareDot hfit]
  rw [apart, List.map_append, hlong, alternatives]
  congr 1
  cases hfitting : (as.filter fitsClass).isEmpty with
  | true =>
    rw [List.isEmpty_iff.mp hfitting]
    rfl
  | false =>
    have hfit : ∀ a ∈ as.filter fitsClass, a.fitsClass = true := fun a ha =>
      (List.mem_filter.mp ha).2
    have hne : as.filter fitsClass ≠ [] := by
      intro hnil
      rw [hnil] at hfitting
      cases hfitting
    obtain ⟨t, ht⟩ := exists_classText bareDot hne
    rw [if_neg (by decide), List.map_singleton, alternatives_of_fitsClass bareDot hfit, ht]
    simp

end Atom

namespace Clause

variable {β : Type} {flags : Flags} {as : List Atom}

def ofAtoms (bareDot : Bool) (as : List Atom) : List (Clause β) :=
  (Atom.apart as).map fun bs => ⟨.atoms bs, { bareDot := bareDot }, 0⟩

theorem isStray_of_mem_ofAtoms {bareDot : Bool} {c : Clause β} (h : c ∈ ofAtoms bareDot as) :
    Layout.isStray none c = false := by
  obtain ⟨bs, -, rfl⟩ := List.mem_map.mp h
  apply Layout.isStray_none.mpr
  simp [isSeparator, isRepeater]

theorem text_ofAtoms (hcase : flags.ignoreCase = false) (bareDot : Bool) (as : List Atom)
    (f : β → Text) :
    (ofAtoms bareDot as).map (fun c => (c.map f).text flags { alternative := true }) =
      Atom.alternatives bareDot as := by
  rw [ofAtoms, List.map_map, ← Atom.map_alternatives_apart]
  apply List.map_congr_left
  intro bs _
  exact (Options.isUnmarked_bareDot bareDot).atomsText_inRun hcase bs

/-- What a member of a run of alternatives is written out as: its atoms, or what counts of a nested
builder that is itself a run and nothing else. -/
inductive Flattens (flags : Flags) (m : Clause Builder) : List (Clause Builder) → Prop where
  | atoms (as : List Atom) (s : Clause Builder) (hbody : m.body = .atoms as) (hne : as ≠ [])
      (hcase : flags.ignoreCase = false) (hs : s.isSeparator = true) :
      Flattens flags m ((ofAtoms m.options.bareDot as).intersperse s)
  | nested (k : Builder) (hbody : m.body = .nested k)
      (hplain : ∀ c ∈ k.clauses, c.isSeparator = true → c.hasContent = false)
      (hturns : Layout.byTurns false (Layout.slots k.clauses) = true)
      (hseparated : ∃ s ∈ Layout.slots k.clauses, s.isSeparator = true) :
      Flattens flags m (Layout.kept k.clauses)

theorem Flattens.hasContent {m : Clause Builder} {ms : List (Clause Builder)}
    (h : m.Flattens flags ms) : m.hasContent = true := by
  cases h with
  | atoms as s hbody hne => simp [Clause.hasContent, hbody, Body.hasContent, hne]
  | nested k hbody => simp [Clause.hasContent, hbody, Body.hasContent]

/-- The clauses stand in a run as the member did, and have the same text. -/
theorem Flattens.areAlternatives {m : Clause Builder} {ms : List (Clause Builder)}
    (h : m.Flattens flags ms) (hsep : m.isSeparator = false) (hm : m.options.IsUnmarked) :
    Layout.AreAlternatives ms ∧
      Layout.alternativesText flags (Clause.map (Builder.render flags)) (Layout.items ms) =
        (m.map (Builder.render flags)).text flags { alternative := true } := by
  cases h with
  | atoms as s hbody hne hcase hs =>
    have hwritten : (m.map (Builder.render flags)).text flags { alternative := true } =
        m.options.atomsText flags true as := by
      rw [text, isSeparator_map, hsep, if_neg (by decide)]
      simp [map, hbody, Body.map]
    obtain ⟨hrun, htext⟩ := Layout.areAlternatives_intersperse hs
      (fun c hc => isStray_of_mem_ofAtoms hc)
      (by simpa [ofAtoms] using Atom.apart_ne_nil hne) flags (map (Builder.render flags))
    refine ⟨hrun, ?_⟩
    rw [htext, hwritten, text_ofAtoms hcase]
    exact (hm.atomsText_inRun hcase as).symm
  | nested k hbody hplain hturns hseparated =>
    have hwritten : (m.map (Builder.render flags)).text flags { alternative := true } =
        m.options.nestedText true (k.render flags) := by
      rw [text, isSeparator_map, hsep, if_neg (by decide)]
      simp [map, hbody, Body.map, Scope.isBare]
    obtain ⟨hrun, htext⟩ := Layout.areAlternatives_kept hplain hturns hseparated flags
      (map (Builder.render flags))
    refine ⟨hrun, ?_⟩
    rw [htext, hwritten]
    exact (k.render_eq_slots flags).symm.trans (hm.nestedText_bare _).symm

end Clause

namespace Builder

variable {b d : Builder} {before behind ms : List (Clause Builder)} {m : Clause Builder}
  {flags : Flags}

/-- The numbers of the clauses are not seen in the source. -/
theorem render_congr_unnumbered
    (h : d.clauses.map Clause.unnumbered = b.clauses.map Clause.unnumbered) (flags : Flags) :
    d.render flags = b.render flags := by
  rw [render_unnumbered, h, ← render_unnumbered]

/-- A member of a run of alternatives that asks for nothing around its content can be written out:
its atoms, or the alternatives nested in it, become clauses in its place, and the source stays the
same. The clauses may get other numbers by that. -/
theorem render_flattens (hb : b.clauses = before ++ m :: behind)
    (hd : d.clauses.map Clause.unnumbered = (before ++ (ms ++ behind)).map Clause.unnumbered)
    (hplain : ∀ c ∈ b.clauses, c.isSeparator = true → c.hasContent = false)
    (hmember : Layout.IsRunMember before m behind) (hm : m.options.IsUnmarked)
    (hbehind : ∀ r ∈ behind.head?, r.isRepeater = false) (h : m.Flattens flags ms) :
    d.render flags = b.render flags := by
  have hsep := hmember.isSeparator
  have hrep : m.isRepeater = false := by simp [Clause.isRepeater, h.hasContent]
  have hbefore : ∀ c ∈ before, c.isSeparator = true → c.hasContent = false := by
    intro c hc
    exact hplain c (by simp [hb, hc])
  obtain ⟨s, t, hrender⟩ :=
    hmember.exists_text hrep hbehind hbefore flags (Clause.map (render flags))
  obtain ⟨hrun, htext⟩ := h.areAlternatives hsep hm
  have hone : Layout.alternativesText flags (Clause.map (render flags)) (Layout.items [m]) =
      (m.map (render flags)).text flags { alternative := true } := by
    simp [Layout.alternativesText, Layout.items, hsep, Layout.Item.text, Layout.Item.map,
      Clause.repeatedText]
  have hold := hrender [m] (Layout.areAlternatives_singleton hsep hrep)
  have hnew := hrender ms hrun
  let e : Builder := { d with clauses := before ++ (ms ++ behind) }
  have hsame : d.render flags = e.render flags := render_congr_unnumbered hd flags
  rw [hsame, render_eq_slots, render_eq_slots, hb]
  refine hnew.trans (Eq.trans ?_ hold.symm)
  rw [htext, hone]

def runOf (members : List (Body Builder)) : Builder :=
  (members.foldl (fun b body => b.separate.push body {}) (empty.push (.atoms [.char 'x']) {})).push
    (.atoms [.char 'y']) {}

theorem render_flattens_runOf :
    let two : List Atom := [.char 'd', .literal ['e', 'f', 'g']]
    let nested : Builder := (empty.find (.ofChar 'd')).orFind (.ofText ['e', 'f', 'g'])
    let apart : Builder := runOf [.atoms [.char 'd'], .atoms [.literal ['e', 'f', 'g']]]
    apart.render .empty = (runOf [.atoms two]).render .empty ∧
      apart.render .empty = (runOf [.nested nested]).render .empty ∧
      apart.render .empty = "(?:x|d|efg)y".toList := by
  intro two nested apart
  let x : Clause Builder := ⟨.atoms [.char 'x'], {}, 0⟩
  let s : Clause Builder := ⟨.atoms [], { isSeparator := true }, 1⟩
  let y : Clause Builder := ⟨.atoms [.char 'y'], {}, 3⟩
  let left : List (Slot (Clause Builder)) :=
    [.entry x none { opens := true, alternative := true }, .separator s]
  let inside : Scope := { closes := true, alternative := true }
  have hunmarked : ({} : Options).IsUnmarked := ⟨rfl, rfl, rfl⟩
  have hatoms : Layout.IsRunMember [x, s] ⟨.atoms two, {}, 2⟩ [y] := by
    have hplain : ∀ c ∈ [x, s, ⟨.atoms two, {}, 2⟩, y],
        c.isSeparator = true → c.hasContent = false := by decide
    exact ⟨left, none, inside, [.entry y none {}], rfl, rfl,
      (Layout.isPlaced_slots hplain).isInRun_of_neighbour rfl (.inl rfl)⟩
  have hnested : Layout.IsRunMember [x, s] ⟨.nested nested, {}, 2⟩ [y] := by
    have hplain : ∀ c ∈ [x, s, ⟨.nested nested, {}, 2⟩, y],
        c.isSeparator = true → c.hasContent = false := by decide
    exact ⟨left, none, inside, [.entry y none {}], rfl, rfl,
      (Layout.isPlaced_slots hplain).isInRun_of_neighbour rfl (.inl rfl)⟩
  have hone : (runOf [.atoms two]).clauses = [x, s] ++ ⟨.atoms two, {}, 2⟩ :: [y] := rfl
  have htwo : (runOf [.nested nested]).clauses = [x, s] ++ ⟨.nested nested, {}, 2⟩ :: [y] := rfl
  refine ⟨?_, ?_, by decide +kernel⟩
  · exact render_flattens hone rfl (by decide) hatoms hunmarked (by decide)
      (.atoms two s rfl (by simp [two]) rfl rfl)
  · exact render_flattens htwo rfl (by decide) hnested hunmarked (by decide)
      (.nested nested rfl (by decide +kernel) (by decide +kernel) (by decide +kernel))

end Builder
end PatternBuilder
