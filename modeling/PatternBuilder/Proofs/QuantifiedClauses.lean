import PatternBuilder.Proofs.ClosedSources
import PatternBuilder.Proofs.SplitLayouts

/-!
# Quantified clauses

A clause is repeated by its own quantifier, or by a quantifier alone that is put behind it. Both
give the same source, whatever clauses there are before and behind.
-/

namespace PatternBuilder

open Text

namespace Layout

variable {β : Type}

structure IsEntry (c : Clause β) (r : Option (Clause β)) : Prop where
  separator : c.isSeparator = false
  clause : c.isRepeater = false
  repeater : ∀ k ∈ r, k.isRepeater = true ∧ c.hasContent = true

namespace IsEntry

variable {c : Clause β} {r : Option (Clause β)}

theorem allCount (h : IsEntry c r) : AllCount (c :: r.toList) := by
  cases r with
  | none => exact allCount_singleton h.separator h.clause
  | some k =>
    have hc : isStray none c = false := isStray_none.mpr ⟨h.separator, h.clause⟩
    obtain ⟨hk, hcontent⟩ := h.repeater k rfl
    have hsep := (Progress.isSeparator_of_isRepeater hk).1
    have hcounts : isStray (some c) k = false := by simp [isStray, hcontent, hsep]
    exact ⟨by simp [dropStrays, hc, hcounts], k, rfl, hsep⟩

theorem items_eq (h : IsEntry c r) : items (c :: r.toList) = [⟨c, r⟩] := by
  cases r with
  | none => rfl
  | some k => exact items_cons_repeater (h.repeater k rfl).1 []

theorem areAlternatives (h : IsEntry c r) : AreAlternatives (c :: r.toList) where
  count := h.allCount
  turns := by
    rw [h.items_eq]
    exact .single ⟨c, r⟩ h.separator

end IsEntry

/-- All entries have the same place among the same clauses. -/
theorem exists_slots (before : List (Clause β)) {behind : List (Clause β)}
    (hbehind : ∀ d ∈ behind.head?, d.isRepeater = false) :
    ∃ ss scope ts,
      scope.alternative = (endsInSeparator before || startsWithSeparator (itemsBehind behind)) ∧
      ∀ c r, IsEntry c r →
        slots (before ++ c :: (r.toList ++ behind)) = ss ++ .entry c r scope :: ts := by
  obtain ⟨whole, hplaces⟩ := exists_places before hbehind
  let solo : Bool := (itemsBefore before).length + (itemsBehind behind).length == 0
  refine ⟨place whole solo false (itemsBefore before),
    scopeBetween whole solo (endsInSeparator before) (startsWithSeparator (itemsBehind behind)),
    place whole solo false (itemsBehind behind), rfl, ?_⟩
  intro c r h
  have hsolo : ((itemsBefore before ++ (items (c :: r.toList) ++ itemsBehind behind)).length == 1) =
      solo := by
    rw [h.items_eq, List.length_append, List.length_append, List.length_singleton,
      Bool.eq_iff_iff, beq_iff_eq, beq_iff_eq]
    omega
  rw [← List.cons_append, hplaces _ h.areAlternatives solo hsolo, h.items_eq,
    List.singleton_append, place_entry h.separator]

end Layout

namespace Options

structure IsUnmarked (o : Options) : Prop where
  quantifier : o.quantifier = none
  group : o.asksForGroup = false
  decoration : o.isUndecorated = true

variable {o : Options} {alternatives : Bool} {t : Text}

namespace IsUnmarked

theorem dress_quantified (h : o.IsUnmarked) (q : Option Quantifier) (alternatives : Bool)
    (t : Text) : { o with quantifier := q }.dress alternatives t =
      { o with quantifier := q }.core alternatives t := by
  have hgroup : { o with quantifier := q }.grouping = .none := asksForGroup_eq_false.mp h.group
  have hsides : o.before = none ∧ o.after = none := by
    simpa [isUndecorated] using h.decoration
  rw [dress_eq, hgroup, surround, hsides.1, hsides.2]
  exact List.append_nil _

theorem dress (h : o.IsUnmarked) (alternatives : Bool) (t : Text) :
    o.dress alternatives t = if alternatives then Grouping.nonCapture.wrap t else t := by
  have hnone : { o with quantifier := none } = o := by
    rw [← h.quantifier]
  have hdress := h.dress_quantified none alternatives t
  rw [hnone] at hdress
  have htext : o.quantifierText = [] := by
    rw [quantifierText, h.quantifier]
    rfl
  rw [hdress, core, htext, h.group]
  cases alternatives <;> simp

/-- The quantifier of a clause goes where a quantifier behind the clause would go. -/
theorem repeatText_dress (h : o.IsUnmarked) (ht : t.IsClosed) (hne : o.dress alternatives t ≠ [])
    (q : Quantifier) : Clause.repeatText (o.dress alternatives t) q.text =
      { o with quantifier := some q }.dress alternatives t := by
  have htext : { o with quantifier := some q }.quantifierText = q.text := rfl
  have hasks : { o with quantifier := some q }.asksForGroup = false := h.group
  rw [h.dress] at hne ⊢
  rw [h.dress_quantified, core, htext, hasks, Clause.repeatText]
  cases alternatives with
  | true =>
    have hunit : (Grouping.nonCapture.wrap t).isUnit = true :=
      isUnit_of_isOneGroup ht.isOneGroup_plain
    have hnonempty : Grouping.nonCapture.wrap t ≠ [] := hne
    simp [hunit, hnonempty]
  | false =>
    have hnonempty : t ≠ [] := hne
    cases hunit : t.isUnit <;> simp [hnonempty, hunit]

theorem dress_ne_nil (h : o.IsUnmarked) (halternatives : alternatives = true → t ≠ []) :
    o.dress alternatives t ≠ [] ↔ t ≠ [] := by
  rw [h.dress]
  cases alternatives with
  | true => simp [Grouping.wrap, halternatives]
  | false => exact Iff.rfl

theorem nestedText (h : o.IsUnmarked) (bare : Bool) (t : Text) :
    o.nestedText bare t = o.dress (t.hasOuterBar && !(bare && o.isUndecorated)) t := by
  rw [Options.nestedText, h.group, if_neg (by decide)]

theorem nestedText_ne_nil (h : o.IsUnmarked) (bare : Bool) (t : Text) :
    o.nestedText bare t ≠ [] ↔ t ≠ [] := by
  rw [h.nestedText]
  apply h.dress_ne_nil
  rintro hbar rfl
  cases hbar

theorem repeatText_nestedText (h : o.IsUnmarked) (ht : t.IsClosed)
    (hne : ∃ bare, o.nestedText bare t ≠ []) (bare : Bool) (q : Quantifier) :
    Clause.repeatText (o.nestedText bare t) q.text =
      { o with quantifier := some q }.nestedText bare t := by
  have hasks : { o with quantifier := some q }.asksForGroup = false := h.group
  obtain ⟨bare', hne⟩ := hne
  have hshown : o.nestedText bare t ≠ [] := by
    rw [h.nestedText_ne_nil] at hne ⊢
    exact hne
  rw [h.nestedText] at hshown ⊢
  rw [Options.nestedText, hasks, if_neg (by decide)]
  exact h.repeatText_dress ht hshown q

/-- Whether anything is written of the atoms does not depend on the place. -/
theorem atomsText_ne_nil (h : o.IsUnmarked) {as : List Atom} (has : Atom.AreSound as)
    (hfor : o.AreFor as) (flags : Flags) (inRun : Bool) : o.atomsText flags inRun as ≠ [] ↔
      ['|'].intercalate (Atom.alternatives o.bareDot (Atom.foldWhen flags.ignoreCase as)) ≠ [] := by
  rw [atomsText]
  apply h.dress_ne_nil
  intro halternatives
  simp only [Bool.and_eq_true, Bool.or_eq_true, decide_eq_true_eq] at halternatives
  exact alternatives_ne_nil (has.foldWhen flags.ignoreCase) (hfor.foldWhen has flags.ignoreCase)
    halternatives.1

theorem repeatText_atomsText (h : o.IsUnmarked) {as : List Atom} (has : Atom.AreSound as)
    (hfor : o.AreFor as) {flags : Flags} (hne : ∃ inRun, o.atomsText flags inRun as ≠ [])
    (inRun : Bool) (q : Quantifier) :
    Clause.repeatText (o.atomsText flags inRun as) q.text =
      { o with quantifier := some q }.atomsText flags inRun as := by
  obtain ⟨inRun', hne⟩ := hne
  have hshown : o.atomsText flags inRun as ≠ [] := by
    rw [h.atomsText_ne_nil has hfor] at hne ⊢
    exact hne
  rw [atomsText] at hshown ⊢
  rw [h.repeatText_dress (o.isClosed_alternatives flags.ignoreCase has) hshown q, atomsText]
  rfl

theorem atoms_ne_nil (h : o.IsUnmarked) {as : List Atom} (has : Atom.AreSound as)
    (hfor : o.AreFor as) {flags : Flags} (hne : ∃ inRun, o.atomsText flags inRun as ≠ []) :
    as ≠ [] := by
  rintro rfl
  obtain ⟨inRun, hne⟩ := hne
  rw [h.atomsText_ne_nil has hfor] at hne
  cases hcase : flags.ignoreCase <;> rw [hcase] at hne <;> exact hne rfl

end IsUnmarked

end Options

def Clause.unnumbered {β : Type} (c : Clause β) : Clause β := { c with index := 0 }

namespace Builder

variable {b : Builder} {body : Body Builder} {o : Options} {q : Quantifier} {flags : Flags}
  {later : List (Clause Builder)}

def pushAll (b : Builder) (later : List (Clause Builder)) : Builder :=
  later.foldl (fun b c => b.push c.body c.options) b

theorem clauses_pushAll (b : Builder) (later : List (Clause Builder)) :
    (b.pushAll later).clauses.map Clause.unnumbered =
      b.clauses.map Clause.unnumbered ++ later.map Clause.unnumbered := by
  induction later generalizing b with
  | nil => exact (List.append_nil _).symm
  | cons c later ih =>
    have hpush : (b.push c.body c.options).clauses.map Clause.unnumbered =
        b.clauses.map Clause.unnumbered ++ [c.unnumbered] := List.map_append
    have hrest := ih (b.push c.body c.options)
    rw [hpush, List.append_assoc] at hrest
    exact hrest

theorem render_unnumbered (b : Builder) (flags : Flags) :
    b.render flags = (Layout.slots (b.clauses.map Clause.unnumbered)).flatMap fun s =>
      (s.map (Clause.map (render flags))).text flags := by
  have hkind : ∀ c ∈ b.clauses, Layout.SameKind c c.unnumbered := fun _ _ => ⟨rfl, rfl, rfl⟩
  rw [render_eq_slots, Layout.slots_map hkind, List.flatMap_map]
  apply List.flatMap_congr
  intro place _
  cases place with
  | separator c => rfl
  | entry c r scope => cases r <;> rfl

/-- What is written before an entry and behind it does not depend on the entry. -/
theorem exists_render (flags : Flags) (before : List (Clause Builder))
    {behind : List (Clause Builder)} (hbehind : ∀ d ∈ behind.head?, d.isRepeater = false) :
    ∃ (s : Text) (scope : Scope) (t : Text), ∀ (b : Builder) (c : Clause Builder)
      (r : Option (Clause Builder)), Layout.IsEntry c r →
      b.clauses.map Clause.unnumbered = before ++ c :: (r.toList ++ behind) →
      b.render flags = s ++ (scope.enclose ((c.map (render flags)).repeatedText flags scope
        (r.map (Clause.map (render flags)))) ++ t) := by
  obtain ⟨ss, scope, ts, -, hslots⟩ := Layout.exists_slots before hbehind
  refine ⟨ss.flatMap fun s => (s.map (Clause.map (render flags))).text flags, scope,
    ts.flatMap fun s => (s.map (Clause.map (render flags))).text flags, ?_⟩
  intro b c r hentry hclauses
  rw [render_unnumbered, hclauses, hslots c r hentry, List.flatMap_append, List.flatMap_cons]
  rfl

def repeater (q : Quantifier) : Clause Builder := ⟨.atoms [], { quantifier := some q }, 0⟩

theorem quantify_eq (b : Builder) (q : Quantifier) :
    b.quantify q = b.push (repeater q).body (repeater q).options := by
  have hnone : b.catalog.gather .empty = ⟨[], false⟩ := rfl
  rw [quantify, append, hnone]
  rfl

/-- If a clause with a quantifier is written as the clause is repeated, it makes no difference which
of the two there is. -/
theorem render_push_quantify (hcontent : body.hasContent = true) (hsep : o.isSeparator = false)
    (htext : ∀ scope,
      Clause.repeatText ((Clause.map (render flags) ⟨body, o, 0⟩).text flags scope) q.text =
        (Clause.map (render flags) ⟨body, { o with quantifier := some q }, 0⟩).text flags scope)
    (hlater : ∀ c ∈ later.head?, c.isRepeater = false) (b : Builder) :
    (((b.push body o).quantify q).pushAll later).render flags =
      ((b.push body { o with quantifier := some q }).pushAll later).render flags := by
  have hbehind : ∀ c ∈ (later.map Clause.unnumbered).head?, c.isRepeater = false := by
    rw [List.head?_map]
    intro c hc
    obtain ⟨d, hd, rfl⟩ := Option.map_eq_some_iff.mp hc
    exact hlater d hd
  have hentry : ∀ (p : Options) (r : Option (Clause Builder)), p.isSeparator = false →
      (∀ k ∈ r, k.isRepeater = true) → Layout.IsEntry ⟨body, p, 0⟩ r := by
    intro p r hp hr
    constructor
    · exact hp
    · simp [Clause.isRepeater, Clause.hasContent, hcontent]
    · exact fun k hk => ⟨hr k hk, hcontent⟩
  have hrepeater : ∀ k ∈ some (repeater q), k.isRepeater = true := by
    intro k hk
    cases hk
    rfl
  have hone : (((b.push body o).quantify q).pushAll later).clauses.map Clause.unnumbered =
      b.clauses.map Clause.unnumbered ++
        ⟨body, o, 0⟩ :: ((some (repeater q)).toList ++ later.map Clause.unnumbered) := by
    rw [clauses_pushAll]
    simp [quantify_eq, push, Clause.unnumbered, repeater]
  have htwo : ((b.push body { o with quantifier := some q }).pushAll later).clauses.map
      Clause.unnumbered = b.clauses.map Clause.unnumbered ++
        ⟨body, { o with quantifier := some q }, 0⟩ ::
          (none.toList ++ later.map Clause.unnumbered) := by
    rw [clauses_pushAll]
    simp [push, Clause.unnumbered]
  obtain ⟨s, scope, t, hrender⟩ :=
    exists_render flags (b.clauses.map Clause.unnumbered) hbehind
  rw [hrender _ _ _ (hentry o _ hsep hrepeater) hone,
    hrender _ _ _ (hentry { o with quantifier := some q } none hsep (by simp)) htwo]
  exact congrArg (fun x => s ++ (scope.enclose x ++ t)) (htext scope)

/-- A clause of content without a quantifier, a group or text around it, and with a quantifier put
behind it, is written as the same clause with the quantifier in it, wherever it stands, unless there
is no text to repeat. -/
theorem render_quantify (b : Builder) (q : Quantifier) {o : Options} (ho : o.IsUnmarked)
    {later : List (Clause Builder)} (hlater : ∀ c ∈ later.head?, c.isRepeater = false)
    (flags : Flags) :
    (∀ v : Value, v.IsFair b.catalog →
      (∃ inRun, (gatheredOptions (b.catalog.gather v) o).atomsText flags inRun
        (b.catalog.gather v).atoms ≠ []) →
      (((b.append v o).quantify q).pushAll later).render flags =
        ((b.append v { o with quantifier := some q }).pushAll later).render flags) ∧
      ∀ k : Builder, k.BuiltWith Options.IsFramed →
        (∃ bare, o.nestedText bare (k.render flags) ≠ []) →
        (((b.embed k o).quantify q).pushAll later).render flags =
          ((b.embed k { o with quantifier := some q }).pushAll later).render flags := by
  constructor
  · intro v hv hne
    have hgathered : (gatheredOptions (b.catalog.gather v) o).IsUnmarked :=
      ⟨ho.quantifier, ho.group, ho.decoration⟩
    have hsound := b.catalog.areSound_gather hv
    have hfor := Options.areFor_gatheredOptions (b.catalog.gather v) o
    have hcontent : (Body.atoms (b.catalog.gather v).atoms : Body Builder).hasContent = true := by
      simpa [Body.hasContent] using hgathered.atoms_ne_nil hsound hfor hne
    apply render_push_quantify hcontent rfl _ hlater b
    intro scope
    exact hgathered.repeatText_atomsText hsound hfor hne scope.alternative q
  · intro k hk hne
    have hembedded : { o with isSeparator := false }.IsUnmarked :=
      ⟨ho.quantifier, ho.group, ho.decoration⟩
    apply render_push_quantify rfl rfl _ hlater b
    intro scope
    exact hembedded.repeatText_nestedText (hk.isClosed_render flags) hne scope.isBare q

def leftOfRun : Builder := (empty.find (.ofChar 'x')).separate

def rightOfRun : List (Clause Builder) := (empty.separate.find (.ofChar 'y')).clauses

theorem render_quantify_inRun :
    let words : Value := .ofTexts [['a', 'b'], ['c', 'd']]
    let nested : Builder := (empty.find (.ofText ['a', 'b'])).orFind (.ofText ['c', 'd'])
    (((leftOfRun.find words).quantify .oneOrMore).pushAll rightOfRun).render .empty =
        ((leftOfRun.oneOrMore words).pushAll rightOfRun).render .empty ∧
      (((leftOfRun.embed nested {}).quantify .oneOrMore).pushAll rightOfRun).render .empty =
        ((leftOfRun.embed nested (.quantified .oneOrMore)).pushAll rightOfRun).render .empty ∧
      ((leftOfRun.oneOrMore words).pushAll rightOfRun).render .empty = "x|(?:ab|cd)+|y".toList := by
  intro words nested
  have hunmarked : ({} : Options).IsUnmarked := ⟨rfl, by decide, by decide⟩
  have hnested : nested.BuiltWith Options.IsFramed :=
    .append (.separate (.append (.start rfl) (by decide +kernel) (by decide))) (by decide +kernel)
      (by decide)
  have hright : ∀ c ∈ rightOfRun.head?, c.isRepeater = false := by decide +kernel
  obtain ⟨hatoms, hembedded⟩ := render_quantify leftOfRun .oneOrMore hunmarked hright .empty
  exact ⟨hatoms words (by decide +kernel) ⟨true, by decide +kernel⟩,
    hembedded nested hnested ⟨true, by decide +kernel⟩, by decide +kernel⟩

end Builder
end PatternBuilder
