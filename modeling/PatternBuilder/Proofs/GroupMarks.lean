import PatternBuilder.Proofs.CaptureNumbers
import PatternBuilder.Proofs.ClosedTexts

/-!
# Groups directly around groups

Where the groups of a text begin and end, whether or not the text can be read: a quantifier that
stands behind nothing is a character like any other here. A group is doubled if all that is in it is
one plain group. The texts without doubled groups are closed under the ways in which pattern text
is put together.
-/

namespace PatternBuilder

open Dialect

inductive GroupMark where
  /-- The parenthesis of a group that is plain or captures, or of some other group. -/
  | opening (p : Option Paren)
  | closing
  /-- Any other character outside of bracket expressions, or one inside. -/
  | stroke
  deriving DecidableEq

namespace GroupMark

def paren? : Text → Option Paren
  | '?' :: ':' :: _ => some .plain
  | t => (Text.opener? t).map fun name => (name.map Paren.named).getD .capture

/-- The marks of a text, which begins in a bracket expression or outside. -/
def ofText (inClass : Bool) : Text → List GroupMark
  | [] => []
  | ['\\'] => [.stroke]
  | '\\' :: _ :: t => .stroke :: ofText inClass t
  | '[' :: t => .stroke :: ofText true t
  | ']' :: t => .stroke :: ofText false t
  | '(' :: t => (if inClass then .stroke else .opening (paren? t)) :: ofText inClass t
  | ')' :: t => (if inClass then .stroke else .closing) :: ofText inClass t
  | _ :: t => .stroke :: ofText inClass t

inductive IsBalanced : List GroupMark → Prop where
  | nil : IsBalanced []
  | stroke {ms : List GroupMark} (h : IsBalanced ms) : IsBalanced (.stroke :: ms)
  | group (p : Option Paren) {ms ns : List GroupMark} (hms : IsBalanced ms) (hns : IsBalanced ns) :
      IsBalanced (.opening p :: ms ++ .closing :: ns)

def shown? : Paren → Option Paren
  | .plain => some .plain
  | .capture => some .capture
  | .named name => some (.named name)
  | .atomic => none
  | .look _ _ => none

def enclose (p : Paren) (ms : List GroupMark) : List GroupMark :=
  .opening (shown? p) :: (p.opening.tail.map fun _ => .stroke) ++ ms ++ [.closing]

end GroupMark

/-- Somewhere in the text a group that is plain or captures has one plain group for its entire
content. -/
def Text.HasDoubledGroup (t : Text) : Prop :=
  ∃ p ms, (GroupMark.shown? p).isSome = true ∧ GroupMark.IsBalanced ms ∧
    GroupMark.enclose p (GroupMark.enclose .plain ms) <:+: GroupMark.ofText false t

namespace GroupMark

variable {ms ns us vs rest : List GroupMark} {p : Paren}

namespace IsBalanced

theorem strokes {α : Type} (xs : List α) (h : IsBalanced ms) :
    IsBalanced ((xs.map fun _ => .stroke) ++ ms) := by
  induction xs with
  | nil => exact h
  | cons x xs ih => exact .stroke ih

/-- Where balanced marks end is decided by the first closing that is not theirs. -/
theorem unique (hms : IsBalanced ms) (hns : IsBalanced ns)
    (h : ms ++ .closing :: us = ns ++ .closing :: vs) : ms = ns ∧ us = vs := by
  induction hms generalizing ns us vs with
  | nil =>
    cases hns with
    | nil => exact ⟨rfl, (List.cons.inj h).2⟩
    | stroke => cases h
    | group => cases h
  | stroke _ ih =>
    cases hns with
    | nil => cases h
    | stroke hns =>
      obtain ⟨rfl, hrest⟩ := ih hns (List.cons.inj h).2
      exact ⟨rfl, hrest⟩
    | group => cases h
  | group p _ _ ihinner ihrest =>
    cases hns with
    | nil => cases h
    | stroke => cases h
    | group q hinner hrest =>
      simp only [List.cons_append, List.append_assoc, List.cons.injEq, opening.injEq] at h
      obtain ⟨rfl, hmarks⟩ := h
      obtain ⟨rfl, hbehind⟩ := ihinner hinner hmarks
      obtain ⟨rfl, hlast⟩ := ihrest hrest hbehind
      exact ⟨rfl, hlast⟩

end IsBalanced

theorem enclose_append (p : Paren) (ms us : List GroupMark) :
    enclose p ms ++ us =
      .opening (shown? p) :: (((p.opening.tail.map fun _ => .stroke) ++ ms) ++ .closing :: us) := by
  simp [enclose]

theorem IsBalanced.enclosed (h : IsBalanced ms) : IsBalanced (enclose p ms) := by
  have hgroup := IsBalanced.group (shown? p) (h.strokes p.opening.tail) .nil
  simpa [GroupMark.enclose] using hgroup

theorem eq_of_shown {p q : Paren} (hp : (shown? p).isSome = true) (h : shown? p = shown? q) :
    p = q := by
  cases p <;> cases q <;> simp_all [shown?]

/-- No group begins in strokes. -/
theorem exists_behind_strokes {α : Type} (xs : List α)
    (h : us ++ (enclose p ns ++ vs) = (xs.map fun _ => .stroke) ++ rest) :
    ∃ us', us' ++ (enclose p ns ++ vs) = rest := by
  induction xs generalizing us with
  | nil => exact ⟨us, h⟩
  | cons x xs ih =>
    cases us with
    | nil => cases h
    | cons u us => exact ih (List.cons.inj h).2

/-- A group that begins in balanced marks ends in them. -/
theorem IsBalanced.infix_or (hms : IsBalanced ms) (hns : IsBalanced ns)
    (h : us ++ (enclose p ns ++ vs) = ms ++ .closing :: rest) :
    enclose p ns <:+: ms ∨ ∃ us', us' ++ (enclose p ns ++ vs) = rest := by
  induction hms generalizing us rest with
  | nil =>
    cases us with
    | nil => cases h
    | cons u us => exact .inr ⟨us, (List.cons.inj h).2⟩
  | stroke _ ih =>
    cases us with
    | nil => cases h
    | cons u us =>
      rcases ih (List.cons.inj h).2 with hin | hbehind
      · exact .inl (List.infix_cons hin)
      · exact .inr hbehind
  | @group q is rs his _ ihinner ihrest =>
    simp only [List.cons_append, List.append_assoc] at h
    cases us with
    | nil =>
      rw [List.nil_append, enclose_append] at h
      obtain ⟨hq, h⟩ := List.cons.inj h
      obtain ⟨hsame, -⟩ := (hns.strokes p.opening.tail).unique his h
      refine .inl ⟨[], rs, ?_⟩
      rw [List.nil_append, enclose_append, hsame, hq]
      simp
    | cons u us =>
      rcases ihinner (List.cons.inj h).2 with hin | ⟨us', hbehind⟩
      · refine .inl (hin.trans ⟨[.opening q], .closing :: rs, by simp⟩)
      · rcases ihrest hbehind with hin | hlater
        · exact .inl (hin.trans ⟨.opening q :: is ++ [.closing], [], by simp⟩)
        · exact .inr hlater

theorem ofText_stroke {c : Char} (h : c ∉ ['\\', '[', '(', ')']) (t : Text) :
    ofText false (c :: t) = .stroke :: ofText false t := by
  simp only [List.mem_cons, not_or] at h
  by_cases hclose : c = ']'
  · subst hclose
    rfl
  · rw [ofText] <;> simp [h, hclose]

theorem ofText_strokes {s : Text} (h : ∀ c ∈ s, c ∉ ['\\', '[', '(', ')']) (t : Text) :
    ofText false (s ++ t) = (s.map fun _ => .stroke) ++ ofText false t := by
  induction s with
  | nil => rfl
  | cons c s ih =>
    rw [List.cons_append, ofText_stroke (h c List.mem_cons_self),
      ih fun d hd => h d (List.mem_cons_of_mem c hd)]
    rfl

theorem ofText_ne_nil {t : Text} (h : t ≠ []) : ofText false t ≠ [] := by
  unfold ofText
  split
  · exact absurd rfl h
  all_goals simp

/-- What an opening is read as, unless the text behind it makes it another one. -/
theorem paren?_opening (hp : p.Proper) {t : Text} (hcapture : p = .capture → t.head? ≠ some '?')
    (u : Text) : paren? (p.opening.tail ++ (t ++ ')' :: u)) = shown? p := by
  rcases p with _ | _ | name | _ | ⟨behind, negated⟩
  case plain => rfl
  case capture =>
    have hhead : ∃ c r, t ++ ')' :: u = c :: r ∧ c ≠ '?' := by
      cases t with
      | nil => exact ⟨')', u, rfl, by decide⟩
      | cons c t => exact ⟨c, t ++ ')' :: u, rfl, by simpa using hcapture rfl⟩
    obtain ⟨c, r, hr, hc⟩ := hhead
    have htail : Paren.capture.opening.tail ++ (t ++ ')' :: u) = c :: r := hr
    rw [htail, paren?, Text.opener?_of_ne hc]
    · rfl
    · simp [hc]
  case named =>
    have htail : (Paren.named name).opening.tail ++ (t ++ ')' :: u) =
        '?' :: '<' :: (name ++ '>' :: (t ++ ')' :: u)) := by simp [Paren.opening]
    rw [htail, paren?, Text.opener?_name hp]
    · rfl
    · simp
  case atomic => rfl
  case look => cases behind <;> cases negated <;> rfl

theorem ofText_opening (hp : p.Proper) {t : Text} (hcapture : p = .capture → t.head? ≠ some '?')
    (u : Text) : ofText false (p.opening ++ (t ++ ')' :: u)) =
      .opening (shown? p) :: (p.opening.tail.map fun _ => .stroke) ++
        ofText false (t ++ ')' :: u) := by
  have hstructural : ∀ c ∈ ['\\', '[', '(', ')'], c ∈ Mark.structural := by decide
  have htail : ∀ c ∈ p.opening.tail, c ∉ ['\\', '[', '(', ')'] := fun c hc hmem =>
    Paren.not_structural_of_mem_opening hp c hc (hstructural c hmem)
  have hopening : ofText false ('(' :: (p.opening.tail ++ (t ++ ')' :: u))) =
      .opening (paren? (p.opening.tail ++ (t ++ ')' :: u))) ::
        ofText false (p.opening.tail ++ (t ++ ')' :: u)) := rfl
  rw [p.opening_eq_cons, List.cons_append, hopening, paren?_opening hp hcapture,
    ofText_strokes htail]
  rfl

end GroupMark

namespace Text

open GroupMark

/-- The text is no group and belongs to none, however it goes on. -/
structure IsStrokes (s : Text) : Prop where
  head : ∃ c ∈ s.head?, c ≠ '('
  marks : ∃ n, ∀ u, GroupMark.ofText false (s ++ u) =
    List.replicate (n + 1) .stroke ++ GroupMark.ofText false u
  closes : ∀ depth u, Mark.closesLast depth (Mark.ofText (s ++ u)) =
    Mark.closesLast depth (Mark.ofText u)

inductive IsTidy : Text → Prop where
  | nil : IsTidy []
  | strokes {s t : Text} (hs : s.IsStrokes) (ht : IsTidy t) : IsTidy (s ++ t)
  | group {p : Paren} {s t : Text} (hp : p.Proper) (hcapture : p = .capture → s.head? ≠ some '?')
      (hs : IsTidy s) (hsingle : (shown? p).isSome = true → s.stripGroup = s) (ht : IsTidy t) :
      IsTidy (p.opening ++ (s ++ ')' :: t))

theorem stripGroup_of_not_isOneGroup {t : Text} (h : t.isOneGroup = false) : t.stripGroup = t := by
  unfold stripGroup
  split
  · rw [if_neg (by simp [h])]
  · rfl

theorem isOneGroup_of_head {t : Text} (h : ∃ c ∈ t.head?, c ≠ '(') : t.isOneGroup = false := by
  obtain ⟨c, hc, hne⟩ := h
  cases t with
  | nil => cases hc
  | cons d t =>
    obtain rfl : d = c := by simpa using hc
    unfold isOneGroup Mark.ofText
    split <;> simp_all [Mark.areOneGroup]

namespace IsStrokes

variable {s t : Text}

theorem ne_nil (h : s.IsStrokes) : s ≠ [] := by
  obtain ⟨c, hc, -⟩ := h.head
  rintro rfl
  cases hc

theorem head_append (h : s.IsStrokes) (t : Text) : ∃ c ∈ (s ++ t).head?, c ≠ '(' := by
  obtain ⟨c, hc, hne⟩ := h.head
  refine ⟨c, ?_, hne⟩
  rw [List.head?_append_of_ne_nil _ h.ne_nil]
  exact hc

theorem char {c : Char} (h : c ∉ ['\\', '[', '(', ')']) : IsStrokes [c] where
  head := ⟨c, rfl, fun hc => h (by simp [hc])⟩
  marks := ⟨0, ofText_stroke h⟩
  closes depth u := by
    simpa [marksFrom] using closesLast_cons_plain (by simpa using h) depth u

theorem escape (c : Char) : IsStrokes ['\\', c] where
  head := ⟨'\\', rfl, by decide⟩
  marks := ⟨0, fun _ => rfl⟩
  closes depth u := by simp [Mark.ofText, Mark.afterEscape, Mark.closesLast]

end IsStrokes

namespace IsTidy

variable {s t u : Text} {p : Paren}

theorem append (hs : IsTidy s) (ht : IsTidy t) : IsTidy (s ++ t) := by
  induction hs with
  | nil => exact ht
  | strokes hx _ ih => simpa using IsTidy.strokes hx ih
  | group hp hcapture hi hsingle _ _ ih => simpa using IsTidy.group hp hcapture hi hsingle ih

theorem marks (h : IsTidy t) : ∃ ms, IsBalanced ms ∧
    ∀ u, GroupMark.ofText false (t ++ u) = ms ++ GroupMark.ofText false u := by
  induction h with
  | nil => exact ⟨[], .nil, fun _ => rfl⟩
  | strokes hs _ ih =>
    obtain ⟨n, hn⟩ := hs.marks
    obtain ⟨ms, hms, hu⟩ := ih
    refine ⟨List.replicate (n + 1) .stroke ++ ms, ?_, fun u => ?_⟩
    · simpa using hms.strokes (List.replicate (n + 1) ())
    · rw [List.append_assoc, hn, hu, List.append_assoc]
  | @group p s t hp hcapture _ _ _ ihs iht =>
    obtain ⟨ms, hms, hs⟩ := ihs
    obtain ⟨ns, hns, ht⟩ := iht
    refine ⟨.opening (shown? p) :: ((p.opening.tail.map fun _ => .stroke) ++ ms) ++
      .closing :: ns, .group _ (hms.strokes _) hns, fun u => ?_⟩
    have hclosing : GroupMark.ofText false (')' :: (t ++ u)) =
        .closing :: GroupMark.ofText false (t ++ u) := rfl
    rw [List.append_assoc, List.append_assoc, List.cons_append, ofText_opening hp hcapture, hs,
      hclosing, ht]
    simp

theorem isClosed (h : IsTidy t) : t.IsClosed := by
  induction h with
  | nil => exact .nil
  | strokes hs _ ih => exact IsClosed.append hs.closes ih
  | group hp _ _ _ _ ihs iht => simpa using (ihs.paren hp).append iht

theorem isOneGroup_group (hs : IsTidy s) (hp : p.Proper) (t : Text) :
    isOneGroup (p.opening ++ (s ++ ')' :: t)) = t.isEmpty :=
  hs.isClosed.isOneGroup_group hp t

/-- With strokes on the outside a text is no single group. -/
theorem isOneGroup_of_strokes (hs : IsTidy s) (hx : u.IsStrokes) (t : Text) :
    isOneGroup (s ++ (u ++ t)) = false := by
  cases hs with
  | nil => exact isOneGroup_of_head (hx.head_append t)
  | strokes hy _ =>
    rw [List.append_assoc]
    exact isOneGroup_of_head (hy.head_append _)
  | @group p i r hp _ hi _ _ =>
    have hne : r ++ (u ++ t) ≠ [] := by simp [hx.ne_nil]
    rw [List.append_assoc, List.append_assoc, List.cons_append, hi.isOneGroup_group hp]
    simpa using hne

/-- Only a plain group around everything is taken away, and what is in it is no such group. -/
theorem stripGroup_cases (h : IsTidy t) : t.stripGroup = t ∨
    ∃ s, t = Grouping.nonCapture.wrap s ∧ t.stripGroup = s ∧ IsTidy s ∧ s.stripGroup = s := by
  cases h with
  | nil => exact .inl rfl
  | strokes hs _ =>
    exact .inl (stripGroup_of_not_isOneGroup (isOneGroup_of_head (hs.head_append _)))
  | @group p s t hp hcapture hs hsingle _ =>
    have hone := hs.isOneGroup_group hp t
    cases t with
    | cons c t => exact .inl (stripGroup_of_not_isOneGroup hone)
    | nil =>
      rcases p with _ | _ | name | _ | ⟨behind, negated⟩
      case plain =>
        refine .inr ⟨s, rfl, ?_, hs, hsingle rfl⟩
        exact (if_pos hone).trans (List.dropLast_concat ..)
      case capture =>
        left
        unfold stripGroup
        split
        next rest htext =>
          have htail : s ++ [')'] = '?' :: ':' :: rest := (List.cons.inj htext).2
          cases s with
          | nil => cases htail
          | cons c s => exact absurd (congrArg some (List.cons.inj htail).1) (hcapture rfl)
        next => rfl
      case named => exact .inl rfl
      case atomic => exact .inl rfl
      case look => cases behind <;> cases negated <;> exact .inl rfl

theorem strip (h : IsTidy t) : IsTidy t.stripGroup ∧ t.stripGroup.stripGroup = t.stripGroup := by
  rcases h.stripGroup_cases with hsame | ⟨s, -, hstrip, hs, hsingle⟩
  · rw [hsame]
    exact ⟨h, hsame⟩
  · rw [hstrip]
    exact ⟨hs, hsingle⟩

/-- A text with the marks of a plain group is one. -/
theorem stripGroup_ne (h : IsTidy t) {ms : List GroupMark} (hms : IsBalanced ms)
    (hmarks : GroupMark.ofText false t = enclose .plain ms) : t.stripGroup ≠ t := by
  cases h with
  | nil => cases hmarks
  | strokes hs _ =>
    obtain ⟨n, hn⟩ := hs.marks
    rw [hn] at hmarks
    cases hmarks
  | @group p s r hp hcapture hs _ hr =>
    obtain ⟨ns, hns, hsmarks⟩ := hs.marks
    have hclosing : GroupMark.ofText false (')' :: r) = .closing :: GroupMark.ofText false r := rfl
    rw [ofText_opening hp hcapture, hsmarks, hclosing, enclose, List.cons_append, List.cons_append,
      List.cons_append] at hmarks
    obtain ⟨hshown, hinside⟩ := List.cons.inj hmarks
    obtain rfl : p = .plain := by
      rcases p with _ | _ | name | _ | ⟨behind, negated⟩ <;> simp_all [shown?]
    rw [List.append_assoc, List.append_cancel_left_eq] at hinside
    obtain ⟨-, hbehind⟩ := hns.unique hms hinside
    have hr : r = [] := by
      by_contra hne
      exact ofText_ne_nil hne hbehind
    rw [hr]
    have hone := hs.isOneGroup_group (p := .plain) trivial []
    have hstrip : (Paren.plain.opening ++ (s ++ [')'])).stripGroup = s :=
      (if_pos hone).trans (List.dropLast_concat ..)
    rw [hstrip]
    intro hlength
    have hlength := congrArg List.length hlength
    simp [Paren.opening] at hlength
    omega

theorem not_hasDoubledGroup (h : IsTidy t) : ¬t.HasDoubledGroup := by
  induction h with
  | nil =>
    rintro ⟨p, ms, -, -, us, vs, hmarks⟩
    simp [enclose, GroupMark.ofText] at hmarks
  | strokes hs _ ih =>
    rintro ⟨p, ms, hp, hms, us, vs, hmarks⟩
    obtain ⟨n, hn⟩ := hs.marks
    rw [hn, List.append_assoc] at hmarks
    obtain ⟨us', hbehind⟩ :=
      exists_behind_strokes (List.replicate (n + 1) ()) (by simpa using hmarks)
    exact ih ⟨p, ms, hp, hms, us', vs, by simpa using hbehind⟩
  | @group q s t hq hcapture hs hsingle _ ihs iht =>
    rintro ⟨p, ms, hp, hms, us, vs, hmarks⟩
    obtain ⟨ns, hns, hsmarks⟩ := hs.marks
    have hclosing : GroupMark.ofText false (')' :: t) = .closing :: GroupMark.ofText false t := rfl
    have hinner : GroupMark.ofText false s = ns := by simpa [GroupMark.ofText] using hsmarks []
    rw [ofText_opening hq hcapture, hsmarks, hclosing, List.append_assoc,
      List.cons_append] at hmarks
    cases us with
    | nil =>
      rw [List.nil_append, enclose_append] at hmarks
      obtain ⟨hshown, hinside⟩ := List.cons.inj hmarks
      obtain rfl := eq_of_shown hp (GroupMark.opening.inj hshown)
      rw [List.append_assoc, List.append_cancel_left_eq] at hinside
      obtain ⟨hcontent, -⟩ := hms.enclosed.unique hns hinside
      exact hs.stripGroup_ne hms (hinner.trans hcontent.symm) (hsingle hp)
    | cons u us =>
      obtain ⟨us', hbehind⟩ := exists_behind_strokes q.opening.tail (List.cons.inj hmarks).2
      rcases hns.infix_or hms.enclosed hbehind with hin | ⟨us'', hlater⟩
      · exact ihs ⟨p, ms, hp, hms, hinner ▸ hin⟩
      · exact iht ⟨p, ms, hp, hms, us'', vs, by simpa using hlater⟩

end IsTidy

end Text
end PatternBuilder
