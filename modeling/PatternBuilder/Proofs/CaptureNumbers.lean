import PatternBuilder.Builder.Vocabulary
import PatternBuilder.Proofs.GroupOpeners
import PatternBuilder.Proofs.Places
import PatternBuilder.Proofs.ReadingBack

/-!
# Numbers of captures

The groups that capture are numbered by their opening parentheses in the source. What clauses ask
for, those that count taken in order and each before what is nested in it, is numbered the same,
unless the text inside of a capture without a name begins with a question mark. That happens where
a quantifier has lost what it repeats.
-/

namespace PatternBuilder

open Dialect

structure Capture where
  name : Option Text
  inner : Text
  deriving DecidableEq, Repr

def Capture.opener? (c : Capture) : Option (Option Text) :=
  match c.name with
  | some name => some (some name)
  | none => Text.opener? (c.inner ++ [')'])

def Grouping.captures : Grouping → Text → List Capture
  | .capture, inner => [⟨Option.none, inner⟩]
  | .named name, inner => [⟨some name, inner⟩]
  | _, _ => []

structure Rendered where
  text : Text
  captures : List Capture

namespace Options

def atomsInner (o : Options) (flags : Flags) (inRun : Bool) (as : List Atom) : Text :=
  let alternatives := Atom.alternatives o.bareDot (Atom.foldWhen flags.ignoreCase as)
  o.core ((decide (1 < alternatives.length) || o.longTexts) && !(inRun && o.isUndecorated))
    (['|'].intercalate alternatives)

def nestedInner (o : Options) (bare : Bool) (inner : Text) : Text :=
  if o.asksForGroup then o.core inner.stripGroup.hasOuterBar inner.stripGroup
  else o.core (inner.hasOuterBar && !(bare && o.isUndecorated)) inner

theorem atomsText_eq (o : Options) (flags : Flags) (inRun : Bool) (as : List Atom) :
    o.atomsText flags inRun as = o.surround (o.grouping.wrap (o.atomsInner flags inRun as)) :=
  o.dress_eq _ _

theorem nestedText_eq (o : Options) (bare : Bool) (inner : Text) :
    o.nestedText bare inner = o.surround (o.grouping.wrap (o.nestedInner bare inner)) := by
  unfold nestedText nestedInner
  split <;> exact o.dress_eq _ _

end Options

namespace Clause

def inner (flags : Flags) (scope : Scope) (c : Clause Rendered) : Text :=
  match c.body with
  | .atoms as => c.options.atomsInner flags scope.alternative as
  | .nested r => c.options.nestedInner scope.isBare r.text

/-- The clause's own capture stands before those of its nested part. -/
def captures (flags : Flags) (scope : Scope) (c : Clause Rendered) : List Capture :=
  c.options.grouping.captures (c.inner flags scope) ++ (c.nested?.map Rendered.captures).getD []

end Clause

/-- The captures of a clause where it stands. A repeater asks for none. -/
def Slot.captures (flags : Flags) : Slot (Clause Rendered) → List Capture
  | .separator _ => []
  | .entry c _ scope => c.captures flags scope

namespace Builder

mutual

/-- The captures of the clauses that count, in their order, each clause before what is nested in
it. -/
def captures (flags : Flags) : Builder → List Capture
  | ⟨clauses, _, _, _, _⟩ =>
    (Layout.slots (drawClauses flags clauses)).flatMap (Slot.captures flags)

def drawClauses (flags : Flags) : List (Clause Builder) → List (Clause Rendered)
  | [] => []
  | c :: cs => drawClause flags c :: drawClauses flags cs

def drawClause (flags : Flags) : Clause Builder → Clause Rendered
  | ⟨body, options, index⟩ => ⟨drawBody flags body, options, index⟩

def drawBody (flags : Flags) : Body Builder → Body Rendered
  | .atoms as => .atoms as
  | .nested b => .nested ⟨render flags b, captures flags b⟩

end

def rendered (flags : Flags) (b : Builder) : Rendered := ⟨b.render flags, b.captures flags⟩

theorem drawClauses_eq (flags : Flags) (cs : List (Clause Builder)) :
    drawClauses flags cs = cs.map (Clause.map (rendered flags)) := by
  induction cs with
  | nil => rw [drawClauses, List.map_nil]
  | cons c cs ih =>
    obtain ⟨body, o, index⟩ := c
    cases body <;> simp [drawClauses, drawClause, drawBody, ih, Clause.map, Body.map, rendered]

theorem captures_eq (flags : Flags) (b : Builder) :
    b.captures flags = (Layout.slots b.clauses).flatMap fun s =>
      (s.map (Clause.map (rendered flags))).captures flags := by
  cases b
  rw [captures, drawClauses_eq, Layout.slots_map fun c _ => Layout.sameKind_map _ c,
    List.flatMap_map]

end Builder

theorem Clause.text_eq {c : Clause Builder} (h : c.isSeparator = false) (flags : Flags)
    (scope : Scope) :
    (c.map (Builder.render flags)).text flags scope =
      c.options.surround (c.options.grouping.wrap
        ((c.map (Builder.rendered flags)).inner flags scope)) := by
  have hmap : (c.map (Builder.render flags)).isSeparator = false := h
  rw [text, hmap, if_neg (by decide)]
  obtain ⟨body, o, index⟩ := c
  cases body with
  | atoms as => exact o.atomsText_eq _ _ _
  | nested b => exact o.nestedText_eq _ _

namespace Text

variable {t : Text} {os : List (Option Text)}

theorem opens_quantifier (q : Option Quantifier) : Opens (Quantifier.optionText q) [] := by
  cases q with
  | none => exact .nil
  | some q =>
    refine .of_plain fun c hc hmem => ?_
    have houtside : ∀ d ∈ ['\\', '[', ']', '('], d ∉ Quantifier.signs ∧ d.isDigit = false := by
      decide
    obtain ⟨hsign, hdigit⟩ := houtside c hmem
    rcases Quantifier.mem_text hc with h | h
    · exact hsign h
    · exact absurd h (by simp [hdigit])

theorem opens_plain (h : Opens t os) : Opens (Grouping.nonCapture.wrap t) os :=
  .group (.cons (by decide) (.cons (by decide) h))

theorem opener?_name {name : Text} (h : IsGroupName name) (t : Text) :
    opener? ('?' :: '<' :: (name ++ '>' :: t)) = some (some name) := by
  obtain ⟨hne, hchars⟩ := h
  have htake : (name ++ '>' :: t).takeWhile isNameChar = name := by
    rw [List.takeWhile_append_of_pos hchars, List.takeWhile_cons_of_neg (by decide),
      List.append_nil]
  have hdrop : (name ++ '>' :: t).dropWhile isNameChar = '>' :: t := by
    rw [List.dropWhile_append_of_pos hchars, List.dropWhile_cons_of_neg (by decide)]
  cases name with
  | nil => exact absurd rfl hne
  | cons c name =>
    rw [opener?, htake, hdrop]
    rfl

theorem opens_named {name : Text} (hname : IsGroupName name) (h : Opens t os) :
    Opens ((Grouping.named name).wrap t) (some name :: os) := by
  have hplain : ∀ c ∈ name, c ∉ ['\\', '[', ']', '('] := by
    intro c hc hmem
    have houtside : ∀ d ∈ ['\\', '[', ']', '('], isNameChar d = false := by decide
    exact absurd (hname.2 c hc) (by simp [houtside c hmem])
  have hinside : Opens ('?' :: '<' :: (name ++ '>' :: t)) os := by
    have hrest : Opens ('>' :: t) os := h.cons (by decide)
    exact .cons (by decide) (.cons (by decide) ((Opens.of_plain hplain).append hrest))
  have hopener : opener? ('?' :: '<' :: (name ++ '>' :: t) ++ [')']) = some (some name) := by
    simpa using opener?_name hname (t ++ [')'])
  have hgroup := hinside.group
  rw [hopener] at hgroup
  simpa [Grouping.wrap] using hgroup

end Text

open Text

theorem Grouping.opens_wrap {g : Grouping} (hg : ∀ name, g = .named name → IsGroupName name)
    {t : Text} {os : List (Option Text)} (h : Opens t os) :
    Opens (g.wrap t) ((g.captures t).filterMap Capture.opener? ++ os) := by
  cases g with
  | none => exact h
  | capture =>
    have hshown : ((Grouping.capture).captures t).filterMap Capture.opener? =
        (opener? (t ++ [')'])).toList := by
      simp only [captures, Capture.opener?, List.filterMap_cons, List.filterMap_nil]
      cases opener? (t ++ [')']) <;> rfl
    rw [hshown]
    exact h.group
  | nonCapture => exact opens_plain h
  | named name => exact opens_named (hg name rfl) h

namespace Options

variable {o : Options} {t : Text} {os : List (Option Text)}

theorem opens_core (alternatives : Bool) (h : Opens t os) : Opens (o.core alternatives t) os := by
  have hquantifier : Opens o.quantifierText [] := opens_quantifier o.quantifier
  unfold core
  split
  · split
    · exact h
    · simpa using (opens_plain h).append hquantifier
  · simpa using h.append hquantifier

theorem opens_atomsInner (flags : Flags) (inRun : Bool) {as : List Atom} (h : Atom.AreSound as) :
    Opens (o.atomsInner flags inRun as) [] :=
  opens_core _ (composes_opens.alternatives o.bareDot (h.foldWhen flags.ignoreCase).sound)

theorem opens_nestedInner (bare : Bool) (h : Opens t os) : Opens (o.nestedInner bare t) os := by
  unfold nestedInner
  split
  · exact opens_core _ h.strip
  · exact opens_core _ h

def anchors : List Text :=
  ['^'] :: ['$'] :: ['A', 'z', 'b', 'B', '<', '>', 'Z'].map fun c => ['\\', c]

/-- Around the clause there are anchors at most, or a lookaround. The name is that of a group. -/
structure IsFramed (o : Options) : Prop where
  decoration : o.before.getD [] ∈ [] :: anchors ∧ o.after.getD [] ∈ [] :: anchors ∨
    o.lookaround?.isSome = true ∧ o.after = some [')']
  name : ∀ name ∈ o.name, IsGroupName name

instance (o : Options) : Decidable o.IsFramed :=
  decidable_of_iff (_ ∧ _) ⟨fun ⟨h, hname⟩ => ⟨h, hname⟩, fun ⟨h, hname⟩ => ⟨h, hname⟩⟩

theorem opens_anchor {t : Text} (h : t ∈ [] :: anchors) : Opens t [] := by
  simp only [anchors, List.map_cons, List.map_nil, List.mem_cons, List.not_mem_nil, or_false] at h
  rcases h with rfl | rfl | rfl | rfl | rfl | rfl | rfl | rfl | rfl | rfl <;> exact fun _ => rfl

theorem IsFramed.opens_surround (ho : o.IsFramed) (h : Opens t os) : Opens (o.surround t) os := by
  have hsides : Opens (o.before.getD []) [] ∧ Opens (o.after.getD []) [] := by
    rcases ho.decoration with ⟨hb, ha⟩ | ⟨hlook, ha⟩
    · exact ⟨opens_anchor hb, opens_anchor ha⟩
    · constructor
      · obtain ⟨p, hp⟩ := Option.isSome_iff_exists.mp hlook
        unfold lookaround? at hp
        split at hp
        next hb => exact hb ▸ fun _ => rfl
        next hb => exact hb ▸ fun _ => rfl
        next hb => exact hb ▸ fun _ => rfl
        next hb => exact hb ▸ fun _ => rfl
        next => cases hp
      · rw [ha]
        exact fun _ => rfl
  simpa [surround] using (hsides.1.append h).append hsides.2

end Options

namespace Builder

def IsCounted (b : Builder) : Prop :=
  ∀ flags, Opens (b.render flags) ((b.captures flags).filterMap Capture.opener?)

end Builder

structure Clause.IsCounted (c : Clause Builder) : Prop where
  framed : c.options.IsFramed
  atoms : ∀ as, c.body = .atoms as → Atom.AreSound as
  nested : ∀ b, c.body = .nested b → b.IsCounted

theorem Options.IsFramed.grouping {o : Options} (h : o.IsFramed) :
    ∀ name, o.grouping = .named name → IsGroupName name := by
  intro name hname
  exact h.name name (name_of_grouping hname)

theorem Clause.IsCounted.opens_text {c : Clause Builder} (h : c.IsCounted)
    (hsep : c.isSeparator = false) (flags : Flags) (scope : Scope) :
    Opens ((c.map (Builder.render flags)).text flags scope)
      (((c.map (Builder.rendered flags)).captures flags scope).filterMap Capture.opener?) := by
  rw [Clause.text_eq hsep, Clause.captures, List.filterMap_append]
  refine h.framed.opens_surround (Grouping.opens_wrap h.framed.grouping ?_)
  obtain ⟨body, o, index⟩ := c
  cases body with
  | atoms as => exact Options.opens_atomsInner flags scope.alternative (h.atoms as rfl)
  | nested b => exact Options.opens_nestedInner scope.isBare (h.nested b rfl flags)

theorem opens_repeatText {t : Text} {os : List (Option Text)} (h : Opens t os)
    (q : Option Quantifier) : Opens (Clause.repeatText t (Quantifier.optionText q)) os := by
  unfold Clause.repeatText
  split
  · exact h
  · split
    · simpa using h.append (opens_quantifier q)
    · simpa using (opens_plain h).append (opens_quantifier q)

theorem Scope.opens_enclose {t : Text} {os : List (Option Text)} (h : Opens t os) (s : Scope) :
    Opens (s.enclose t) os := by
  have hopening : Opens (if s.opens then ['(', '?', ':'] else []) [] := by
    split <;> exact fun _ => rfl
  have hclosing : Opens (if s.closes then [')'] else []) [] := by
    split <;> exact fun _ => rfl
  simpa [enclose] using (hopening.append h).append hclosing

namespace Builder

theorem isCounted_of_clauses {b : Builder} (h : ∀ c ∈ b.clauses, c.IsCounted) : b.IsCounted := by
  intro flags
  rw [render_eq_slots, captures_eq, List.filterMap_flatMap]
  refine .flatMap fun s hs => ?_
  cases s with
  | separator c => exact fun _ => rfl
  | entry c r scope =>
    obtain ⟨hsep, hc⟩ := Layout.mem_of_mem_slots hs
    have hclause := (h c hc).opens_text hsep flags scope
    refine Scope.opens_enclose ?_ scope
    cases r with
    | none => exact hclause
    | some r => exact opens_repeatText hclause r.options.quantifier

theorem allowsClauses_isFramed : AllowsClauses Options.IsFramed where
  gathered h _ := ⟨h.decoration, h.name⟩
  nested h := ⟨h.decoration, h.name⟩
  separator := by decide

theorem BuiltWith.isCounted {b : Builder} (h : b.BuiltWith Options.IsFramed) : b.IsCounted := by
  refine h.induct allowsClauses_isFramed fun b hclauses => ?_
  refine isCounted_of_clauses fun c hc => ?_
  obtain ⟨hclause, hnested⟩ := hclauses c hc
  exact ⟨hclause.options, fun as has => (hclause.atoms as has).1, hnested⟩

end Builder

/-- A capture with a name is read as that, one without a name as such unless it seems to be some
other group. -/
theorem Capture.opener?_eq_name {c : Capture} :
    c.opener? = some c.name ↔ (c.name = none → c.inner.head? ≠ some '?') := by
  obtain ⟨name, inner⟩ := c
  cases name with
  | some name => simp [opener?]
  | none =>
    cases inner with
    | nil => simp [opener?, Text.opener?]
    | cons c t =>
      by_cases hc : c = '?'
      · subst hc
        simpa [opener?] using opener?_question_ne (t ++ [')'])
      · simp [opener?, opener?_of_ne hc, hc]

namespace Builder

/-- The openers in the source are the captures that are asked for, in their order and with their
names, exactly when none without a name is taken for something else by a question mark at the
beginning of its inside. -/
theorem openers_render_iff {b : Builder} (h : b.BuiltWith Options.IsFramed) (flags : Flags) :
    Text.openers false (b.render flags) = (b.captures flags).map Capture.name ↔
      ∀ c ∈ b.captures flags, c.name = none → c.inner.head? ≠ some '?' := by
  rw [(h.isCounted flags).eq, List.filterMap_eq_map_iff_forall_eq_some]
  constructor
  · intro hall c hc
    exact Capture.opener?_eq_name.mp (hall c hc)
  · intro hall c hc
    exact Capture.opener?_eq_name.mpr (hall c hc)

def measured : Builder :=
  let number := (empty.append (.ofSymbol ['d', 'i', 'g', 'i', 't']) .capturing).append .empty
    { quantifier := some .oneOrMore, capture := some true }
  let measure := number.append (.ofSymbol ['l', 'o', 'w', 'e', 'r']) (.namedCapture ['u'])
  (empty.embed measure (.namedCapture ['m'])).separate.append (.ofText ['n', '/', 'a']) {}

theorem openers_render_measured :
    measured.BuiltWith Options.IsFramed ∧
      Text.openers false (measured.render .empty) =
        (measured.captures .empty).map Capture.name ∧
      (measured.captures .empty).map Capture.name = [some ['m'], none, some ['u']] := by
  have hnumber : BuiltWith Options.IsFramed ((empty.append (.ofSymbol ['d', 'i', 'g', 'i', 't'])
      .capturing).append .empty { quantifier := some .oneOrMore, capture := some true }) :=
    .append (.append (.start rfl) (by decide +kernel) (by decide)) (by decide) (by decide)
  have hbuilt : measured.BuiltWith Options.IsFramed :=
    .append (.separate (.embed (.start rfl) (.append hnumber (by decide +kernel) (by decide))
      (by decide))) (by decide +kernel) (by decide)
  exact ⟨hbuilt, (openers_render_iff hbuilt .empty).mpr (by decide +kernel), by decide +kernel⟩

def hiddenCapture : Builder :=
  empty.captureWith fun b => (b.zeroOrOneWith id).find (.ofText [':', 'a'])

/-- The question mark that repeats nothing turns the capture into a plain group. -/
theorem openers_render_hiddenCapture :
    hiddenCapture.BuiltWith Options.IsFramed ∧
      hiddenCapture.render .empty = ['(', '?', ':', 'a', ')'] ∧
      Text.openers false (hiddenCapture.render .empty) = [] ∧
      (hiddenCapture.captures .empty).map Capture.name = [none] := by
  have hinner : BuiltWith Options.IsFramed
      ((empty.zeroOrOneWith id).find (.ofText [':', 'a'])) :=
    .append (.embed (.start rfl) (.start rfl) (by decide)) (by decide +kernel) (by decide)
  exact ⟨.embed (.start rfl) hinner (by decide), by decide +kernel, by decide +kernel,
    by decide +kernel⟩

end Builder
end PatternBuilder
