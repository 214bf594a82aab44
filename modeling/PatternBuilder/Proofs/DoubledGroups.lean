import PatternBuilder.Proofs.Composing
import PatternBuilder.Proofs.GroupMarks

/-!
# No doubled groups

Nested builders, quantifiers and runs of alternatives all add groups to what they are written
around. A plain group that is there already is reused or taken away, so that none is doubled. That
holds as long as no capture is hidden by a question mark at the beginning of its inside.
-/

namespace PatternBuilder

open Dialect

namespace Mark

theorem barOutside_of_closesLast {depth : Nat} {ms : List Mark} (h : closesLast depth ms = true) :
    barOutside (depth + 1) ms = false := by
  induction ms generalizing depth with
  | nil => cases h
  | cons k ms ih =>
    cases k with
    | opening => exact ih h
    | closing =>
      cases depth with
      | zero =>
        rw [List.isEmpty_iff.mp h]
        rfl
      | succ depth => exact ih h
    | bar => cases depth <;> exact ih h
    | bracket => cases depth <;> exact ih h
    | plain => cases depth <;> exact ih h

end Mark

namespace Text

theorem isOneGroup_of_hasOuterBar {t : Text} (h : t.hasOuterBar = true) : t.isOneGroup = false := by
  unfold hasOuterBar at h
  unfold isOneGroup
  cases hmarks : Mark.ofText t with
  | nil => rfl
  | cons k ms =>
    cases k with
    | opening =>
      rw [← Bool.not_eq_true]
      intro hone
      rw [hmarks, Mark.barOutside, Mark.barOutside_of_closesLast hone] at h
      cases h
    | _ => rfl

theorem isUnit_of_isOneGroup {t : Text} (h : t.isOneGroup = true) : t.isUnit = true := by
  unfold isUnit
  split <;> first | rfl | exact h

namespace IsStrokes

variable {s t : Text}

theorem append (hs : s.IsStrokes) (ht : t.IsStrokes) : IsStrokes (s ++ t) where
  head := hs.head_append t
  marks := by
    obtain ⟨m, hm⟩ := hs.marks
    obtain ⟨n, hn⟩ := ht.marks
    refine ⟨m + (n + 1), fun u => ?_⟩
    rw [List.append_assoc, hm, hn, ← List.append_assoc, List.replicate_append_replicate]
    congr 2
    omega
  closes depth u := by rw [List.append_assoc, hs.closes, ht.closes]

theorem of_plain (hne : t ≠ []) (h : ∀ c ∈ t, c ∉ ['\\', '[', '(', ')']) : t.IsStrokes := by
  induction t with
  | nil => exact absurd rfl hne
  | cons c t ih =>
    have hc := char (h c List.mem_cons_self)
    by_cases ht : t = []
    · rwa [ht]
    · exact hc.append (ih ht fun d hd => h d (List.mem_cons_of_mem c hd))

end IsStrokes

def IsFlat (t : Text) : Prop := t = [] ∨ t.IsStrokes

namespace IsFlat

variable {s t : Text}

theorem append (hs : s.IsFlat) (ht : t.IsFlat) : IsFlat (s ++ t) := by
  rcases hs with rfl | hs
  · exact ht
  · rcases ht with rfl | ht
    · rw [List.append_nil]
      exact .inr hs
    · exact .inr (hs.append ht)

theorem isTidy (h : t.IsFlat) : t.IsTidy := by
  rcases h with rfl | h
  · exact .nil
  · simpa using IsTidy.strokes h .nil

theorem isOneGroup (h : t.IsFlat) : t.isOneGroup = false := by
  rcases h with rfl | h
  · rfl
  · exact isOneGroup_of_head h.head

end IsFlat

theorem ofText_inClass (c : Char) (u : Text) :
    GroupMark.ofText true (Escape.inClass [c] ++ u) = .stroke :: GroupMark.ofText true u := by
  rcases escapeChar_classSpecial c with hc | ⟨hc, hplain⟩
  · rw [hc]
    rfl
  · rw [hc, List.singleton_append]
    by_cases hopen : c = '('
    · subst hopen
      rfl
    by_cases hclose : c = ')'
    · subst hclose
      rfl
    · rw [GroupMark.ofText] <;> simp_all

theorem exists_ofText_memberText {a : Atom} (h : a.IsMember) : ∃ n, ∀ u,
    GroupMark.ofText true (a.memberText ++ u) =
      List.replicate n .stroke ++ GroupMark.ofText true u := by
  cases a with
  | range r =>
    refine ⟨3, fun u => ?_⟩
    have hdash : GroupMark.ofText true ('-' :: (Escape.inClass [r.hi] ++ u)) =
        .stroke :: GroupMark.ofText true (Escape.inClass [r.hi] ++ u) := rfl
    rw [Atom.memberText, List.append_assoc, List.cons_append, ofText_inClass, hdash, ofText_inClass]
    rfl
  | char c => exact ⟨1, fun u => ofText_inClass c u⟩
  | literal s =>
    rw [show s = [] from h]
    exact ⟨0, fun _ => rfl⟩
  | token s =>
    obtain ⟨c, rfl, -⟩ := h
    exact ⟨1, fun _ => rfl⟩

theorem exists_ofText_members {as : List Atom} (h : ∀ a ∈ as, a.IsMember) : ∃ n, ∀ u,
    GroupMark.ofText true (as.flatMap Atom.memberText ++ u) =
      List.replicate n .stroke ++ GroupMark.ofText true u := by
  induction as with
  | nil => exact ⟨0, fun _ => rfl⟩
  | cons a as ih =>
    obtain ⟨m, hm⟩ := exists_ofText_memberText (h a List.mem_cons_self)
    obtain ⟨n, hn⟩ := ih fun b hb => h b (List.mem_cons_of_mem a hb)
    refine ⟨m + n, fun u => ?_⟩
    rw [List.flatMap_cons, List.append_assoc, hm, hn, ← List.append_assoc,
      List.replicate_append_replicate]

theorem isStrokes_bracket {as : List Atom} (h : ∀ a ∈ as, a.IsMember) :
    IsStrokes ('[' :: as.flatMap Atom.memberText ++ [']']) where
  head := ⟨'[', rfl, by decide⟩
  marks := by
    obtain ⟨n, hn⟩ := exists_ofText_members h
    refine ⟨n + 1, fun u => ?_⟩
    have hopen : ∀ t, GroupMark.ofText false ('[' :: t) = .stroke :: GroupMark.ofText true t :=
      fun _ => rfl
    have hclose : GroupMark.ofText true (']' :: u) = .stroke :: GroupMark.ofText false u := rfl
    rw [List.append_assoc, List.cons_append, List.singleton_append, hopen, hn, hclose,
      List.append_cons, ← List.replicate_succ', ← List.cons_append, ← List.replicate_succ]
  closes depth u := by
    have hmarks : Mark.ofText ('[' :: as.flatMap Atom.memberText ++ [']'] ++ u) =
        .bracket :: Mark.ofText u := by
      simpa [Mark.ofText] using Mark.afterBracket_members h u
    rw [hmarks, Mark.closesLast]

theorem isStrokes_bar : IsStrokes ['|'] := .char (by decide)

theorem composes_flat : Atom.Composes IsFlat where
  nil := .inl rfl
  char {c} hc := by
    have hspecial : ∀ d ∈ ['\\', '[', '(', ')'], d ∈ Escape.special := by decide
    exact .inr (.char fun hd => hc (hspecial c hd))
  escape c := .inr (.escape c)
  dot := .inr (.char (by decide))
  bar := .inr isStrokes_bar
  bracket h := .inr (isStrokes_bracket h)
  append := .append

end Text

open Text

theorem Text.IsTidy.plain {t : Text} (h : t.IsTidy) (hsingle : t.stripGroup = t) :
    (Grouping.nonCapture.wrap t).IsTidy :=
  .group (p := .plain) trivial nofun h (fun _ => hsingle) .nil

theorem Text.isFlat_quantifier (q : Option Quantifier) : IsFlat (Quantifier.optionText q) := by
  by_cases hne : Quantifier.optionText q = []
  · exact .inl hne
  · refine .inr (.of_plain hne fun c hc => ?_)
    cases q with
    | none => cases hc
    | some q =>
      have hstructural : ∀ d ∈ ['\\', '[', '(', ')'], d ∈ Mark.structural := by decide
      exact fun hmem => Quantifier.not_structural_of_mem_text hc (hstructural c hmem)

namespace Options

variable {o : Options} {alternatives : Bool} {t : Text}

theorem isTidy_core (h : t.IsTidy) (halternatives : alternatives = true → t.isOneGroup = false) :
    (o.core alternatives t).IsTidy := by
  have hquantifier : o.quantifierText.IsTidy := (isFlat_quantifier o.quantifier).isTidy
  unfold core
  split
  next hgroup =>
    have hsingle : t.stripGroup = t := by
      refine stripGroup_of_not_isOneGroup ?_
      rcases Bool.or_eq_true_iff.mp hgroup with halt | hrepeated
      · exact halternatives halt
      · rw [Bool.and_eq_true, Bool.not_eq_true', Bool.not_eq_true'] at hrepeated
        exact Bool.eq_false_iff.mpr fun hone =>
          absurd (isUnit_of_isOneGroup hone) (by simp [hrepeated.2])
    split
    · exact h
    · exact (h.plain hsingle).append hquantifier
  next => exact h.append hquantifier

/-- What a group is written around is no plain group itself. -/
theorem stripGroup_core (h : t.IsTidy) (hsingle : t.stripGroup = t)
    (hgroup : o.asksForGroup = true) :
    (o.core alternatives t).stripGroup = o.core alternatives t := by
  by_cases hq : o.quantifierText = []
  · have hcore : o.core alternatives t = t := by simp [core, hq, hgroup]
    rw [hcore, hsingle]
  · have hstrokes : o.quantifierText.IsStrokes := (isFlat_quantifier o.quantifier).resolve_left hq
    have hquantified {s : Text} (hs : s.IsTidy) :
        (s ++ o.quantifierText).stripGroup = s ++ o.quantifierText := by
      refine stripGroup_of_not_isOneGroup ?_
      simpa using hs.isOneGroup_of_strokes hstrokes []
    have hempty : o.quantifierText.isEmpty = false := by simpa using hq
    unfold core
    split
    · rw [hempty, Bool.false_and, if_neg (by decide)]
      exact hquantified (h.plain hsingle)
    · exact hquantified h

theorem isTidy_atomsInner (flags : Flags) (inRun : Bool) {as : List Atom} (h : Atom.AreSound as) :
    (o.atomsInner flags inRun as).IsTidy ∧ (o.asksForGroup = true →
      (o.atomsInner flags inRun as).stripGroup = o.atomsInner flags inRun as) := by
  have hflat := composes_flat.alternatives o.bareDot (h.foldWhen flags.ignoreCase).sound
  exact ⟨isTidy_core hflat.isTidy fun _ => hflat.isOneGroup,
    stripGroup_core hflat.isTidy (stripGroup_of_not_isOneGroup hflat.isOneGroup)⟩

theorem isTidy_nestedInner (bare : Bool) (h : t.IsTidy) :
    (o.nestedInner bare t).IsTidy ∧ (o.asksForGroup = true →
      (o.nestedInner bare t).stripGroup = o.nestedInner bare t) := by
  unfold nestedInner
  by_cases hgroup : o.asksForGroup = true
  · obtain ⟨hstripped, hsingle⟩ := h.strip
    rw [if_pos hgroup]
    exact ⟨isTidy_core hstripped isOneGroup_of_hasOuterBar, stripGroup_core hstripped hsingle⟩
  · rw [if_neg hgroup]
    exact ⟨isTidy_core h fun hbar => isOneGroup_of_hasOuterBar (Bool.and_eq_true_iff.mp hbar).1,
      fun hasks => absurd hasks hgroup⟩

theorem isFlat_anchor (h : t ∈ [] :: anchors) : t.IsFlat := by
  simp only [anchors, List.map_cons, List.map_nil, List.mem_cons, List.not_mem_nil, or_false] at h
  rcases h with rfl | rfl | rfl | rfl | rfl | rfl | rfl | rfl | rfl | rfl
  · exact .inl rfl
  · exact .inr (.char (by decide))
  · exact .inr (.char (by decide))
  all_goals exact .inr (.escape _)

theorem IsFramed.isTidy_surround (ho : o.IsFramed) (h : t.IsTidy) : (o.surround t).IsTidy := by
  rcases ho.decoration with ⟨hbefore, hafter⟩ | ⟨hlook, hafter⟩
  · exact ((isFlat_anchor hbefore).isTidy.append h).append (isFlat_anchor hafter).isTidy
  · obtain ⟨p, hp⟩ := Option.isSome_iff_exists.mp hlook
    obtain ⟨hbefore, hproper⟩ := before_of_lookaround hp
    have hshown : GroupMark.shown? p = none ∧ p ≠ .capture := by
      unfold lookaround? at hp
      split at hp <;> cases hp <;> simp [GroupMark.shown?]
    have hgroup : (p.opening ++ (t ++ ')' :: [])).IsTidy :=
      .group hproper (fun hp => absurd hp hshown.2) h (by simp [hshown.1]) .nil
    simpa [surround, hbefore, hafter] using hgroup

theorem IsFramed.isTidy_wrap (ho : o.IsFramed) (h : t.IsTidy)
    (hsingle : o.asksForGroup = true → t.stripGroup = t)
    (hcapture : o.grouping = .capture → t.head? ≠ some '?') : (o.grouping.wrap t).IsTidy := by
  by_cases hne : o.grouping = .none
  · rw [hne]
    exact h
  · obtain ⟨p, hp, hopen, hwrap, -⟩ := Grouping.exists_paren ho.grouping hne
    have hasks : o.asksForGroup = true := by simpa [asksForGroup] using hne
    rw [hwrap, List.append_assoc]
    exact .group hp (fun hcap => hcapture (hopen hcap)) h (fun _ => hsingle hasks) .nil

end Options

/-- A capture without a name is not hidden by a question mark at the beginning of its inside. -/
def Capture.IsOpen (c : Capture) : Prop := c.name = none → c.inner.head? ≠ some '?'

instance : DecidablePred Capture.IsOpen := fun c =>
  inferInstanceAs (Decidable (c.name = none → c.inner.head? ≠ some '?'))

namespace Builder

def IsTidied (b : Builder) : Prop :=
  ∀ flags, (∀ c ∈ b.captures flags, c.IsOpen) → (b.render flags).IsTidy

end Builder

namespace Clause

structure IsOrderly (c : Clause Builder) : Prop where
  framed : c.options.IsFramed
  separator : c.isSeparator = true → c.hasContent = false
  atoms : ∀ as, c.body = .atoms as → Atom.AreSound as
  nested : ∀ b, c.body = .nested b → b.IsTidied

variable {c : Clause Builder} {flags : Flags}

theorem IsOrderly.isTidy_text (h : c.IsOrderly) (hsep : c.isSeparator = false) (scope : Scope)
    (hopen : ∀ k ∈ (c.map (Builder.rendered flags)).captures flags scope, k.IsOpen) :
    ((c.map (Builder.render flags)).text flags scope).IsTidy := by
  have hinner : ((c.map (Builder.rendered flags)).inner flags scope).IsTidy ∧
      (c.options.asksForGroup = true →
        ((c.map (Builder.rendered flags)).inner flags scope).stripGroup =
          (c.map (Builder.rendered flags)).inner flags scope) := by
    obtain ⟨body, o, index⟩ := c
    cases body with
    | atoms as => exact Options.isTidy_atomsInner flags scope.alternative (h.atoms as rfl)
    | nested b =>
      refine Options.isTidy_nestedInner scope.isBare (h.nested b rfl flags fun k hk => ?_)
      exact hopen k (List.mem_append_right _ hk)
  rw [Clause.text_eq hsep]
  refine h.framed.isTidy_surround (h.framed.isTidy_wrap hinner.1 hinner.2 fun hcapture => ?_)
  have hown : (⟨none, (c.map (Builder.rendered flags)).inner flags scope⟩ : Capture) ∈
      (c.map (Builder.rendered flags)).captures flags scope := by
    refine List.mem_append_left _ ?_
    have hgrouping : (c.map (Builder.rendered flags)).options.grouping = .capture := hcapture
    rw [hgrouping]
    exact List.mem_singleton.mpr rfl
  exact hopen _ hown rfl

theorem isTidy_repeatText {t : Text} (h : t.IsTidy) (q : Option Quantifier) :
    (repeatText t (Quantifier.optionText q)).IsTidy := by
  have hquantifier := (isFlat_quantifier q).isTidy
  unfold repeatText
  split
  · exact h
  · split
    · exact h.append hquantifier
    next hunit =>
      rw [Bool.or_eq_true, not_or] at hunit
      have hone : t.isOneGroup = false :=
        Bool.eq_false_iff.mpr fun hone => hunit.2 (isUnit_of_isOneGroup hone)
      exact (h.plain (stripGroup_of_not_isOneGroup hone)).append hquantifier

end Clause

namespace Builder

/-- A group around alternatives has a bar in it, and is not doubled. -/
theorem composes_tidy : Layout.Composes Text.IsTidy (fun t => t.stripGroup = t) where
  nil := .nil
  bar := by simpa using Text.IsTidy.strokes isStrokes_bar .nil
  append := .append
  plain := .plain
  bars {_ t} hs _ := stripGroup_of_not_isOneGroup (hs.isOneGroup_of_strokes isStrokes_bar t)

theorem isTidied_of_clauses {b : Builder} (h : ∀ c ∈ b.clauses, c.IsOrderly) : b.IsTidied := by
  intro flags hopen
  refine render_composed composes_tidy (fun c hc => (h c hc).separator) fun c r scope hs => ?_
  obtain ⟨hsep, hc⟩ := Layout.mem_of_mem_slots hs
  have htext := (h c hc).isTidy_text hsep scope fun k hk => hopen k <| by
    rw [captures_eq]
    exact List.mem_flatMap.mpr ⟨_, hs, hk⟩
  cases r with
  | none => exact htext
  | some r => exact Clause.isTidy_repeatText htext r.options.quantifier

theorem BuiltWith.isTidied {b : Builder} (h : b.BuiltWith Options.IsFramed) : b.IsTidied := by
  refine h.induct allowsClauses_isFramed fun b hclauses => ?_
  refine isTidied_of_clauses fun c hc => ?_
  obtain ⟨hclause, hnested⟩ := hclauses c hc
  exact ⟨hclause.options, hclause.separator, fun as has => (hclause.atoms as has).1, hnested⟩

/-- No group of the source that is plain or captures has one plain group for its entire content,
unless a capture is hidden by a question mark at the beginning of its inside. -/
theorem not_hasDoubledGroup_render {b : Builder} (h : b.BuiltWith Options.IsFramed) (flags : Flags)
    (hopen : ∀ c ∈ b.captures flags, c.IsOpen) : ¬(b.render flags).HasDoubledGroup :=
  (h.isTidied flags hopen).not_hasDoubledGroup

def wordsInGroups : Builder :=
  let words := empty.group (.ofTexts [['a', 'b'], ['c', 'd']])
  (empty.embed words .capturing).embed (empty.embed words .grouped)
    { name := some ['w'], quantifier := some .oneOrMore }

theorem not_hasDoubledGroup_wordsInGroups :
    (wordsInGroups.BuiltWith Options.IsFramed ∧
      ∀ c ∈ wordsInGroups.captures .empty, c.IsOpen) ∧
    wordsInGroups.render .empty = "(ab|cd)(?<w>(?:ab|cd)+)".toList ∧
      ¬(wordsInGroups.render .empty).HasDoubledGroup := by
  have hwords : BuiltWith Options.IsFramed (empty.group (.ofTexts [['a', 'b'], ['c', 'd']])) :=
    .append (.start rfl) (by decide +kernel) (by decide)
  have hbuilt : wordsInGroups.BuiltWith Options.IsFramed :=
    .embed (.embed (.start rfl) hwords (by decide)) (.embed (.start rfl) hwords (by decide))
      (by decide)
  have hopen : ∀ c ∈ wordsInGroups.captures .empty, c.IsOpen := by decide +kernel
  exact ⟨⟨hbuilt, hopen⟩, by decide +kernel, not_hasDoubledGroup_render hbuilt .empty hopen⟩

def hiddenAroundGroup : Builder :=
  empty.captureWith fun b => ((b.zeroOrOneWith id).find (.ofText [':'])).group (.ofText ['a', 'b'])

/-- The question mark that repeats nothing turns the capture into a plain group, around another. -/
theorem hasDoubledGroup_hiddenAroundGroup :
    hiddenAroundGroup.BuiltWith Options.IsFramed ∧
      hiddenAroundGroup.render .empty = "(?:(?:ab))".toList ∧
      (hiddenAroundGroup.render .empty).HasDoubledGroup := by
  have hinner : BuiltWith Options.IsFramed
      (((empty.zeroOrOneWith id).find (.ofText [':'])).group (.ofText ['a', 'b'])) :=
    .append (.append (.embed (.start rfl) (.start rfl) (by decide)) (by decide +kernel) (by decide))
      (by decide +kernel) (by decide)
  have htext : hiddenAroundGroup.render .empty = "(?:(?:ab))".toList := by decide +kernel
  refine ⟨.embed (.start rfl) hinner (by decide), htext, .plain, [.stroke, .stroke], rfl,
    .stroke (.stroke .nil), [], [], ?_⟩
  rw [htext]
  decide +kernel

end Builder

end PatternBuilder
