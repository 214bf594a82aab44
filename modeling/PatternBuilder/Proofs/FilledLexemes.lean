import PatternBuilder.Proofs.BasicText
import PatternBuilder.Proofs.FilledBrackets

/-!
# Lexemes of filled texts

A zero that a lexeme takes up does no harm: bounds begin with it, or it lies in a comment. Elsewhere
it goes astray, as a lexeme of its own or as a member of a set.
-/

namespace PatternBuilder.Dialect

open Marked

theorem skipGap_line (extended : Bool) (c : Char) (t : Text) :
    skipGap extended .lineComment (c :: t) =
      skipGap extended (if c = '\n' then .blanks else .lineComment) t := rfl

theorem skipGap_group {extended : Bool} {c : Char} (hclose : c ≠ ')') (hslash : c ≠ '\\')
    (t : Text) : skipGap extended .groupComment (c :: t) = skipGap extended .groupComment t := by
  rw [skipGap]
  · exact hclose
  · exact fun _ _ hc => absurd hc hslash

theorem Likewise.of_suffix {ε : Type} {m n : Marked} {x y : Except ε Text}
    (h : Likewise n.Leaves x y) (hn : n <:+ m) : Likewise m.Leaves x y :=
  h.mono fun _ _ hab => hab.of_suffix hn

theorem Marked.Fits.unmarked {before c : Char} {zero : Bool} {m : Marked}
    (h : Fits before ((c, zero) :: m)) (hne : before ≠ '\x7b' ∨ c ≠ ',') : zero = false := by
  cases zero with
  | false => rfl
  | true => exact hne.elim (absurd (h.1 rfl).1) (absurd (h.1 rfl).2)

theorem Marked.IsFree.of_comment {m : Marked} (h : IsFree m) {u : Text}
    (hu : text m = '?' :: '#' :: u ∨ filled m = '?' :: '#' :: u) :
    ∃ n, m = ('?', false) :: ('#', false) :: n ∧ Fits '#' n := by
  obtain rfl | ⟨c, n, rfl, hc⟩ := h.cases
  · simp at hu
  simp only [text_cons, filled_false, List.cons.injEq, ← and_or_left] at hu
  obtain ⟨rfl, hu⟩ := hu
  obtain rfl | ⟨d, k, rfl, hd⟩ := (hc.isFree (by decide)).cases
  · simp at hu
  simp only [text_cons, filled_false, List.cons.injEq, ← and_or_left] at hu
  obtain ⟨rfl, -⟩ := hu
  exact ⟨k, rfl, hd⟩

/-- Whatever gap both texts begin with, it ends in the same place: a zero in a comment makes no
difference. -/
def Marked.GapsAlike (extended : Bool) (m : Marked) : Prop :=
  ∀ (g : Gap) {before : Char}, Fits before m → (g = .blanks → IsFree m) →
    Likewise m.Leaves (skipGap extended g (text m)) (skipGap extended g (filled m))

section

variable {extended zero : Bool} {before c : Char} {n : Marked}

theorem skipGap_lineComment_likewise (h : Fits before ((c, zero) :: n))
    (hn : GapsAlike extended n) :
    Likewise (Leaves ((c, zero) :: n)) (skipGap extended .lineComment (text ((c, zero) :: n)))
      (skipGap extended .lineComment (filled ((c, zero) :: n))) := by
  have hfilled : skipGap extended .lineComment (filled ((c, zero) :: n)) =
      skipGap extended .lineComment (c :: filled n) := by
    cases zero <;> rfl
  rw [hfilled, text_cons, skipGap_line, skipGap_line]
  split
  next hc =>
    have hfree : IsFree n := h.2.isFree (by simp [hc])
    exact (hn .blanks h.2 fun _ => hfree).of_suffix (List.suffix_cons _ n)
  next => exact (hn .lineComment h.2 Gap.noConfusion).of_suffix (List.suffix_cons _ n)

/-- An escape is two characters long, so what is alike is asked of all that is shorter. -/
theorem skipGap_groupComment_likewise (h : Fits before ((c, zero) :: n))
    (hshorter : ∀ k : Marked, k.length ≤ n.length → GapsAlike extended k) :
    Likewise (Leaves ((c, zero) :: n)) (skipGap extended .groupComment (text ((c, zero) :: n)))
      (skipGap extended .groupComment (filled ((c, zero) :: n))) := by
  by_cases hclose : c = ')'
  · subst hclose
    obtain rfl := h.unmarked (.inr (by decide))
    have hfree : IsFree n := h.2.isFree (by decide)
    exact (hshorter n (Nat.le_refl _) .blanks h.2 fun _ => hfree).of_suffix (List.suffix_cons _ n)
  by_cases hslash : c = '\\'
  · subst hslash
    obtain rfl := h.unmarked (.inr (by decide))
    rcases n with _ | ⟨⟨d, zero⟩, n⟩
    · exact .error _
    obtain rfl := h.2.unmarked (.inl (by decide))
    exact (hshorter n (by simp) .groupComment h.2.2 Gap.noConfusion).of_suffix ⟨[_, _], rfl⟩
  have hskip : ∀ t, skipGap extended .groupComment (c :: t) =
      skipGap extended .groupComment t := skipGap_group hclose hslash
  have hfilled : skipGap extended .groupComment (filled ((c, zero) :: n)) =
      skipGap extended .groupComment (filled n) := by
    cases zero with
    | false => exact hskip _
    | true => exact (skipGap_group (by decide) (by decide) _).trans (hskip _)
  rw [hfilled, text_cons, hskip]
  exact (hshorter n (Nat.le_refl _) .groupComment h.2 Gap.noConfusion).of_suffix
    (List.suffix_cons _ n)

/-- The opening of a comment is three characters long. -/
theorem skipGap_blanks_likewise (h : IsFree ((c, zero) :: n))
    (hshorter : ∀ k : Marked, k.length ≤ n.length → GapsAlike extended k) :
    Likewise (Leaves ((c, zero) :: n)) (skipGap extended .blanks (text ((c, zero) :: n)))
      (skipGap extended .blanks (filled ((c, zero) :: n))) := by
  obtain rfl := (h 'x').unmarked (.inl (by decide))
  by_cases hcomment : c = '(' ∧ ∃ k, n = ('?', false) :: ('#', false) :: k ∧ Fits '#' k
  · obtain ⟨rfl, k, rfl, hk⟩ := hcomment
    have hbehind := hshorter k (by simp only [List.length_cons]; omega) .groupComment hk
      Gap.noConfusion
    exact hbehind.of_suffix ⟨[_, _, _], rfl⟩
  have hn : c = '(' → IsFree n := fun hc => h.tail.isFree (by simp [hc])
  have htext : c = '(' → ∀ u, text n ≠ '?' :: '#' :: u := fun hc _ hu =>
    hcomment ⟨hc, (hn hc).of_comment (.inl hu)⟩
  have hfilled : c = '(' → ∀ u, filled n ≠ '?' :: '#' :: u := fun hc _ hu =>
    hcomment ⟨hc, (hn hc).of_comment (.inr hu)⟩
  rw [filled_false, text_cons, skipGap_blanks htext, skipGap_blanks hfilled]
  split
  next hblank =>
    have hbrace : c ≠ '\x7b' := by
      rintro rfl
      simp [isBlank] at hblank
    exact (hshorter n (Nat.le_refl _) .blanks h.tail fun _ => h.tail.isFree hbrace).of_suffix
      (List.suffix_cons _ n)
  split
  next =>
    exact (hshorter n (Nat.le_refl _) .lineComment h.tail Gap.noConfusion).of_suffix
      (List.suffix_cons _ n)
  next => exact .ok (.refl h)

end

theorem Marked.gapsAlike (extended : Bool) (m : Marked) : m.GapsAlike extended := by
  induction hlen : m.length using Nat.strongRecOn generalizing m with
  | ind k ih =>
    subst hlen
    intro g before h hg
    rcases m with _ | ⟨⟨c, zero⟩, n⟩
    · cases g
      · exact .ok (.refl isFree_nil)
      · exact .ok (.refl isFree_nil)
      · exact .error _
    have hshorter : ∀ k : Marked, k.length ≤ n.length → k.GapsAlike extended := fun k hk =>
      ih k.length (Nat.lt_succ_of_le hk) k rfl
    cases g with
    | lineComment => exact skipGap_lineComment_likewise h (hshorter n (Nat.le_refl _))
    | groupComment => exact skipGap_groupComment_likewise h hshorter
    | blanks => exact skipGap_blanks_likewise (hg rfl) hshorter

theorem Reading.skip_likewise (r : Reading) {m : Marked} (h : IsFree m) :
    Likewise m.Leaves (r.skip (text m)) (r.skip (filled m)) :=
  m.gapsAlike _ _ (h 'x') fun _ => h

theorem Likewise.toOption {ε α β : Type} {R : α → β → Prop} {x : Except ε α} {y : Except ε β}
    (h : Likewise R x y) : Option.Rel R x.toOption y.toOption := by
  cases h with
  | error e => exact .none
  | ok h => exact .some h

def Marked.ReadsBounds (m : Marked) (a b : Nat × Option Nat × Text) : Prop :=
  a.1 = b.1 ∧ m.Reads a.2 b.2

theorem readNumber?_rel {m : Marked} (h : IsFree m) :
    Option.Rel m.Reads (readNumber? (text m)) (readNumber? (filled m)) := by
  obtain ⟨n, hn, hfree, htake, hdrop, hdrop'⟩ := h.takeWhile (p := Char.isDigit) (by decide)
  unfold readNumber?
  rw [htake, hdrop, hdrop']
  dsimp only
  split
  · exact .none
  · exact .some ⟨rfl, n, hn, hfree, rfl, rfl⟩

def closeBounds? (min : Nat) (max : Option Nat) : Text → Option (Nat × Option Nat × Text)
  | '\x7d' :: rest => some (min, max, rest)
  | _ => none

theorem closeBounds?_rel (min : Nat) (max : Option Nat) {m : Marked} (h : IsFree m) :
    Option.Rel m.ReadsBounds (closeBounds? min max (text m)) (closeBounds? min max (filled m)) := by
  obtain rfl | ⟨c, n, rfl, hfits⟩ := h.cases
  · exact .none
  by_cases hc : c = '\x7d'
  · subst hc
    exact .some ⟨rfl, rfl, (Leaves.refl (hfits.isFree (by decide))).cons⟩
  · simp [closeBounds?, hc]

def Reading.lastBound? (r : Reading) (min : Nat) (t : Text) : Option (Nat × Option Nat × Text) :=
  (r.skip t).toOption.bind fun t =>
    (r.skip ((readNumber? t).getD (noBound, t)).2).toOption.bind
      (closeBounds? min (upperBound ((readNumber? t).getD (noBound, t)).1))

theorem Marked.ReadsBounds.of_suffix {m n : Marked} {a b : Nat × Option Nat × Text}
    (h : n.ReadsBounds a b) (hn : n <:+ m) : m.ReadsBounds a b :=
  ⟨h.1, h.2.of_suffix hn⟩

theorem skip_closeBounds?_rel (r : Reading) (min : Nat) (max : Option Nat) {m : Marked}
    {rest rest' : Text} (h : m.Leaves rest rest') :
    Option.Rel m.ReadsBounds ((r.skip rest).toOption.bind (closeBounds? min max))
      ((r.skip rest').toOption.bind (closeBounds? min max)) := by
  obtain ⟨n, hn, hfree, rfl, rfl⟩ := h
  refine rel_bind (r.skip_likewise hfree).toOption ?_
  rintro _ _ ⟨k, hk, hkfree, rfl, rfl⟩
  exact rel_mono (closeBounds?_rel min max hkfree) fun _ _ hab => hab.of_suffix (hk.trans hn)

theorem lastBound?_rel (r : Reading) (min : Nat) {m : Marked} (h : IsFree m) :
    Option.Rel m.ReadsBounds (r.lastBound? min (text m)) (r.lastBound? min (filled m)) := by
  refine rel_bind (r.skip_likewise h).toOption ?_
  rintro _ _ ⟨n, hn, hfree, rfl, rfl⟩
  obtain ⟨htext, hfilled⟩ | ⟨⟨max, rest⟩, ⟨_, rest'⟩, htext, hfilled, rfl, hrest⟩ :=
    rel_cases (readNumber?_rel hfree)
  · rw [htext, hfilled]
    exact skip_closeBounds?_rel r min _ ((Leaves.refl hfree).of_suffix hn)
  · rw [htext, hfilled]
    exact skip_closeBounds?_rel r min _ (hrest.of_suffix hn)

theorem upperBraces_eq (r : Reading) (min : Nat) (t : Text) :
    r.upperBraces min t = (r.skip t).toOption.bind fun t =>
      if t.head? = some ',' then r.lastBound? min t.tail
      else closeBounds? min (upperBound min) t := by
  unfold Reading.upperBraces
  cases (r.skip t).toOption with
  | none => rfl
  | some u =>
    cases u with
    | nil => rfl
    | cons c u =>
      by_cases hcomma : c = ','
      · subst hcomma
        simp only [Option.bind_eq_bind, Option.bind_some, List.head?_cons, if_true,
          List.tail_cons, Reading.lastBound?]
        rfl
      by_cases hclose : c = '\x7d'
      · subst hclose
        rfl
      · simp [hcomma, hclose, closeBounds?]

theorem upperBraces_rel (r : Reading) (min : Nat) {m : Marked} (h : IsFree m) :
    Option.Rel m.ReadsBounds (r.upperBraces min (text m)) (r.upperBraces min (filled m)) := by
  rw [upperBraces_eq, upperBraces_eq]
  refine rel_bind (r.skip_likewise h).toOption ?_
  rintro _ _ ⟨n, hn, hfree, rfl, rfl⟩
  rw [hfree.head?]
  split
  next hcomma =>
    obtain rfl | ⟨c, k, rfl, hfits⟩ := hfree.cases
    · cases hcomma
    obtain rfl : c = ',' := by simpa using hcomma
    exact rel_mono (lastBound?_rel r min (hfits.isFree (by decide))) fun _ _ hab =>
      hab.of_suffix ((List.suffix_cons _ k).trans hn)
  next =>
    exact rel_mono (closeBounds?_rel min _ hfree) fun _ _ hab => hab.of_suffix hn

/-- Behind an opening brace a zero in front of the comma is the lower bound that is left open. -/
theorem braces?_rel (r : Reading) {m : Marked} (h : Fits '\x7b' m) :
    Option.Rel m.ReadsBounds (r.braces? (text m)) (r.braces? (filled m)) := by
  obtain h | ⟨-, n, rfl, hn⟩ := h.isFree_or_comma
  · rw [braces?_eq, braces?_eq]
    refine rel_bind (r.skip_likewise h).toOption ?_
    rintro _ _ ⟨n, hn, hfree, rfl, rfl⟩
    rw [hfree.head?]
    split
    · exact rel_mono (upperBraces_rel r 0 hfree) fun _ _ hab => hab.of_suffix hn
    · refine rel_bind (readNumber?_rel hfree) ?_
      rintro ⟨min, rest⟩ ⟨_, rest'⟩ ⟨rfl, k, hk, hkfree, rfl, rfl⟩
      exact rel_mono (upperBraces_rel r min hkfree) fun _ _ hab => hab.of_suffix (hk.trans hn)
  · have hskip : ∀ c ∈ ['0', ','], ∀ t, r.skip (c :: t) = .ok (c :: t) := by
      intro c hc t
      simp only [List.mem_cons, List.not_mem_nil, or_false] at hc
      rcases hc with rfl | rfl <;>
        exact skipGap_cons (fun _ => by decide) fun hc => absurd hc (by decide)
    have hzero : readNumber? ('0' :: ',' :: filled n) = some (0, ',' :: filled n) := by
      simp [readNumber?, noBound, Nat.ofDigitChars]
    have hupper : ∀ t, r.upperBraces 0 (',' :: t) = r.lastBound? 0 t := by
      intro t
      rw [upperBraces_eq, hskip ',' (by decide)]
      rfl
    have htext : r.braces? (',' :: text n) = r.lastBound? 0 (text n) := by
      rw [braces?_eq, hskip ',' (by decide), ← hupper]
      rfl
    have hfilled : r.braces? ('0' :: ',' :: filled n) = r.lastBound? 0 (filled n) := by
      rw [braces?_eq, hskip '0' (by decide), ← hupper]
      simp [Except.toOption, hzero]
    rw [text_cons, filled_true, htext, hfilled]
    exact rel_mono (lastBound?_rel r 0 hn) fun _ _ hab => hab.of_suffix (List.suffix_cons _ n)

theorem bounds?_rel (r : Reading) {c : Char} {m : Marked} (h : Fits c m) :
    Option.Rel m.ReadsBounds (r.bounds? c (text m)) (r.bounds? c (filled m)) := by
  by_cases hc : c = '\x7b'
  · subst hc
    exact braces?_rel r h
  have hfree := h.isFree hc
  unfold Reading.bounds?
  split
  · exact .some ⟨rfl, rfl, .refl hfree⟩
  · exact .some ⟨rfl, rfl, .refl hfree⟩
  · exact .some ⟨rfl, rfl, .refl hfree⟩
  · exact absurd rfl hc
  · exact .none

structure Marked.CutsSame (m : Marked) (a b : Cut) : Prop where
  lexemes : a.lexemes = b.lexemes
  next : a.next = b.next
  rest : m.Leaves a.rest b.rest

theorem Marked.CutsSame.of_suffix {m n : Marked} {a b : Cut} (h : n.CutsSame a b) (hn : n <:+ m) :
    m.CutsSame a b :=
  ⟨h.lexemes, h.next, h.rest.of_suffix hn⟩

theorem quantifier_likewise (r : Reading) (min : Nat) (max : Option Nat) {m : Marked}
    (h : IsFree m) :
    Likewise m.CutsSame (r.quantifier min max (text m)) (r.quantifier min max (filled m)) := by
  refine Likewise.bind (r.skip_likewise h) ?_
  rintro _ _ ⟨n, hn, hfree, rfl, rfl⟩
  obtain ⟨k, hk, hkfree, hmarked, hmarked'⟩ := hfree.dropSign (c := '?') (by decide)
  obtain ⟨j, hj, hjfree, hatomic, hatomic'⟩ := hkfree.dropSign (c := '+') (by decide)
  simp only [hfree.head?, hmarked, hmarked', hkfree.head?, hatomic, hatomic']
  exact .ok ⟨rfl, rfl, j, hj.trans (hk.trans hn), hjfree, rfl, rfl⟩

theorem escape_likewise (r : Reading) (c : Char) {m : Marked} (h : IsFree m) :
    Likewise m.CutsSame (r.escape c (text m)) (r.escape c (filled m)) := by
  unfold Reading.escape
  rw [h.head?]
  split
  · exact .ok ⟨rfl, rfl, .refl h⟩
  · exact .ok ⟨rfl, rfl, .refl h⟩
  · split
    · exact .error _
    · exact .ok ⟨rfl, rfl, .refl h⟩
  · exact .ok ⟨rfl, rfl, .refl h⟩
  · refine Likewise.bind (escapedChar_likewise _ h) ?_
    rintro ⟨d, rest⟩ ⟨_, rest'⟩ ⟨rfl, hrest⟩
    exact .ok ⟨rfl, rfl, hrest⟩

theorem name_likewise (r : Reading) {m : Marked} (h : IsFree m) :
    Likewise m.CutsSame (r.name (text m)) (r.name (filled m)) := by
  obtain ⟨n, hn, hfree, htake, hdrop, hdrop'⟩ := h.takeWhile (p := isNameChar) (by decide)
  unfold Reading.name
  rw [htake, hdrop, hdrop']
  obtain rfl | ⟨c, k, rfl, hfits⟩ := hfree.cases
  · cases (text m).takeWhile isNameChar <;> exact .error _
  by_cases hc : c = '>'
  · subst hc
    have hrest := (Leaves.refl (hfits.isFree (by decide))).cons.of_suffix hn
    cases (text m).takeWhile isNameChar with
    | nil => exact .error _
    | cons d ds => exact .ok ⟨rfl, rfl, hrest⟩
  · cases (text m).takeWhile isNameChar <;> simp [hc] <;> exact .error _

theorem modeChange_likewise (r : Reading) (modes : Modes) (on : Bool) (read : Text) {m : Marked}
    (h : IsFree m) :
    Likewise m.CutsSame (r.modeChange modes on read (text m))
      (r.modeChange modes on read (filled m)) := by
  induction m generalizing modes on read with
  | nil => exact .error _
  | cons p m ih =>
    obtain ⟨c, n, heq, hfits⟩ := h.cases.resolve_left (List.cons_ne_nil p m)
    obtain ⟨rfl, rfl⟩ := List.cons.inj heq
    have hnext : c ≠ '\x7b' → ∀ modes on read,
        Likewise (CutsSame ((c, false) :: m)) (r.modeChange modes on read (text m))
          (r.modeChange modes on read (filled m)) := fun hc modes on read =>
      (ih modes on read (hfits.isFree hc)).mono fun _ _ hab =>
        hab.of_suffix (List.suffix_cons _ m)
    rw [text_cons, filled_false]
    by_cases hclose : c = ')'
    · subst hclose
      rw [Reading.modeChange, Reading.modeChange]
      split
      · exact .error _
      · exact .ok ⟨rfl, rfl, (Leaves.refl (hfits.isFree (by decide))).cons⟩
    by_cases hcolon : c = ':'
    · subst hcolon
      rw [Reading.modeChange, Reading.modeChange]
      split
      · exact .error _
      · exact .ok ⟨rfl, rfl, (Leaves.refl (hfits.isFree (by decide))).cons⟩
    by_cases hdash : c = '-'
    · subst hdash
      rw [Reading.modeChange, Reading.modeChange]
      split
      · exact hnext (by decide) modes false _
      · exact .error _
    by_cases hblank : (modes.extended && isBlank c) = true
    · have hskip : ∀ t, r.modeChange modes on read (c :: t) =
          r.modeChange modes on (c :: read) t := by
        intro t
        rw [Reading.modeChange, if_pos hblank] <;> assumption
      rw [hskip, hskip]
      refine hnext ?_ modes on _
      rintro rfl
      simp [isBlank] at hblank
    cases hset : modes.set? on c with
    | none =>
      have hrefused : ∀ t, r.modeChange modes on read (c :: t) = .error .unknownMode := by
        intro t
        rw [Reading.modeChange, if_neg hblank, hset] <;> assumption
      rw [hrefused, hrefused]
      exact .error _
    | some modes' =>
      have hmode : ∀ t, r.modeChange modes on read (c :: t) =
          r.modeChange modes' on (c :: read) t := by
        intro t
        rw [Reading.modeChange, if_neg hblank, hset] <;> assumption
      rw [hmode, hmode]
      refine hnext ?_ modes' on _
      rintro rfl
      cases hset

theorem opening_likewise (r : Reading) {m n : Marked} {c : Char} (hfits : Fits c n)
    (hc : c ≠ '\x7b') (hn : n <:+ m) (p : Paren) :
    Likewise (ε := SyntaxError) m.CutsSame (.ok ⟨[.opening p], r.opened none r.modes, text n⟩)
      (.ok ⟨[.opening p], r.opened none r.modes, filled n⟩) :=
  .ok ⟨rfl, rfl, (Leaves.refl (hfits.isFree hc)).of_suffix hn⟩

/-- Behind `?<` stands the sign of a lookbehind or a name. -/
theorem group_angle_likewise (r : Reading) {m : Marked} (h : IsFree m) :
    Likewise m.CutsSame (r.group ('?' :: '<' :: text m)) (r.group ('?' :: '<' :: filled m)) := by
  obtain rfl | ⟨c, n, rfl, hc⟩ := h.cases
  · exact .error _
  by_cases hequal : c = '='
  · subst hequal
    exact opening_likewise r hc (by decide) (List.suffix_cons _ n) _
  by_cases hbang : c = '!'
  · subst hbang
    exact opening_likewise r hc (by decide) (List.suffix_cons _ n) _
  have hgroup : ∀ t, r.group ('?' :: '<' :: c :: t) = r.name (c :: t) := by
    intro t
    simp [Reading.group, hequal, hbang]
  simp only [text_cons, filled_false, hgroup]
  exact name_likewise r h

/-- Behind `?P` stands a name, or the letter is taken for a mode. -/
theorem group_letter_likewise (r : Reading) {m : Marked} (h : IsFree (('P', false) :: m)) :
    Likewise (CutsSame (('P', false) :: m)) (r.group ('?' :: 'P' :: text m))
      (r.group ('?' :: 'P' :: filled m)) := by
  obtain rfl | ⟨c, n, rfl, hc⟩ := (h.tail.isFree (by decide)).cases
  · exact modeChange_likewise r r.modes true [] h
  by_cases hangle : c = '<'
  · subst hangle
    exact (name_likewise r (hc.isFree (by decide))).mono fun _ _ hab => hab.of_suffix ⟨[_, _], rfl⟩
  have hgroup : ∀ t, r.group ('?' :: 'P' :: c :: t) =
      r.modeChange r.modes true [] ('P' :: c :: t) := by
    intro t
    simp [Reading.group, hangle]
  simp only [text_cons, filled_false, hgroup]
  exact modeChange_likewise r r.modes true [] h

theorem group_mark_likewise (r : Reading) {m : Marked} (h : IsFree m) :
    Likewise m.CutsSame (r.group ('?' :: text m)) (r.group ('?' :: filled m)) := by
  obtain rfl | ⟨c, n, rfl, hc⟩ := h.cases
  · exact .error _
  by_cases hequal : c = '='
  · subst hequal
    exact opening_likewise r hc (by decide) (List.suffix_cons _ n) _
  by_cases hbang : c = '!'
  · subst hbang
    exact opening_likewise r hc (by decide) (List.suffix_cons _ n) _
  by_cases hatomic : c = '>'
  · subst hatomic
    exact opening_likewise r hc (by decide) (List.suffix_cons _ n) _
  by_cases hangle : c = '<'
  · subst hangle
    exact (group_angle_likewise r (hc.isFree (by decide))).mono fun _ _ hab =>
      hab.of_suffix (List.suffix_cons _ n)
  by_cases hletter : c = 'P'
  · subst hletter
    exact group_letter_likewise r h
  have hgroup : ∀ t, r.group ('?' :: c :: t) = r.modeChange r.modes true [] (c :: t) := by
    intro t
    simp [Reading.group, hequal, hbang, hatomic, hangle, hletter]
  simp only [text_cons, filled_false, hgroup]
  exact modeChange_likewise r r.modes true [] h

/-- The opening of a group. All its signs come before what a brace could open. -/
theorem group_likewise (r : Reading) {m : Marked} (h : IsFree m) :
    Likewise m.CutsSame (r.group (text m)) (r.group (filled m)) := by
  obtain rfl | ⟨c, n, rfl, hc⟩ := h.cases
  · exact .ok ⟨rfl, rfl, .refl h⟩
  by_cases hmark : c = '?'
  · subst hmark
    exact (group_mark_likewise r (hc.isFree (by decide))).mono fun _ _ hab =>
      hab.of_suffix (List.suffix_cons _ n)
  · have hgroup : ∀ t, r.group (c :: t) =
        .ok ⟨[.opening .capture], r.opened none r.modes, c :: t⟩ := by
      intro t
      simp [Reading.group, hmark]
    rw [text_cons, filled_false, hgroup, hgroup]
    exact .ok ⟨rfl, rfl, .refl h⟩

/-- What is cut off both texts. Either it is the same, or a set has been read in brackets, or a
brace is a plain character and a comma with a zero in front of it is left. -/
inductive Marked.Cuts (m : Marked) : Cut → Cut → Prop where
  | same {a b : Cut} (h : m.CutsSame a b) : Cuts m a b
  | bracket (x y : CharSet) (next : Reading) {rest rest' : Text} (h : m.Leaves rest rest') :
      Cuts m ⟨[.single x], next, rest⟩ ⟨[.single y], next, rest'⟩
  | comma (x : CharSet) (next : Reading) {n : Marked} (hn : (',', true) :: n <:+ m)
      (h : IsFree n) :
      Cuts m ⟨[.single x], next, ',' :: text n⟩ ⟨[.single x], next, '0' :: ',' :: filled n⟩

theorem itemAt_likewise (r : Reading) {c : Char} {m : Marked} (h : Fits c m) :
    Likewise m.Cuts (r.itemAt c (text m)) (r.itemAt c (filled m)) := by
  by_cases hbrace : c = '\x7b'
  · subst hbrace
    obtain hfree | ⟨-, n, rfl, hn⟩ := h.isFree_or_comma
    · exact .ok (.same ⟨rfl, rfl, .refl hfree⟩)
    · exact .ok (.comma _ _ (List.suffix_refl _) hn)
  have hfree := h.isFree hbrace
  have hitem : ∀ {next : Reading} {ls : List Lexeme}, Likewise (ε := SyntaxError) m.Cuts
      (.ok ⟨ls, next, text m⟩) (.ok ⟨ls, next, filled m⟩) :=
    .ok (.same ⟨rfl, rfl, .refl hfree⟩)
  unfold Reading.itemAt
  split
  · obtain rfl | ⟨e, n, rfl, he⟩ := hfree.cases
    · exact .error _
    obtain hn | ⟨rfl, k, rfl, hk⟩ := he.isFree_or_comma
    · exact (escape_likewise r e hn).mono fun _ _ hab =>
        .same (hab.of_suffix (List.suffix_cons _ n))
    · exact .ok (.comma _ _ (List.suffix_cons _ _) hk)
  · exact (readBracket_likewise _ hfree).bind fun _ _ hab => .ok (.bracket _ _ _ hab)
  · refine Likewise.bind (r.skip_likewise hfree) ?_
    rintro _ _ ⟨n, hn, hnfree, rfl, rfl⟩
    exact (group_likewise r hnfree).mono fun _ _ hab => .same (hab.of_suffix hn)
  · exact hitem
  · exact hitem
  · exact .error _
  · exact .error _
  · exact .error _
  · exact hitem
  · exact hitem
  · exact hitem
  · exact hitem

theorem cut_likewise (r : Reading) {c : Char} {m : Marked} (h : Fits c m) :
    Likewise m.Cuts (r.cut c (text m)) (r.cut c (filled m)) := by
  have hbounds : Option.Rel m.ReadsBounds (if r.afterItem then r.bounds? c (text m) else none)
      (if r.afterItem then r.bounds? c (filled m) else none) := by
    split
    · exact bounds?_rel r h
    · exact .none
  unfold Reading.cut
  obtain ⟨htext, hfilled⟩ |
      ⟨⟨min, max, _⟩, ⟨_, _, _⟩, htext, hfilled, rfl, rfl, n, hn, hfree, rfl, rfl⟩ :=
    rel_cases hbounds
  · rw [htext, hfilled]
    exact itemAt_likewise r h
  · rw [htext, hfilled]
    exact (quantifier_likewise r min max hfree).mono fun _ _ hab => .same (hab.of_suffix hn)

/-- Whether a zero goes astray, from behind the first `skip` characters on: it is not part of a
lexeme, or the lexeme is not the same without it. -/
def strays (r : Reading) (skip : Nat) : Marked → Bool
  | [] => false
  | (c, zero) :: m =>
    match skip with
    | skip + 1 => strays r skip m
    | 0 =>
      zero ||
        match r.skip (c :: text m) with
        | .error _ => false
        | .ok rest =>
          if rest.length ≤ m.length then strays r (m.length - rest.length) m
          else
            match r.cut c (text m), r.cut c (filled m) with
            | .ok cut, .ok cut' =>
              cut.lexemes != cut'.lexemes || strays cut.next (m.length - cut.rest.length) m
            | _, _ => false

/-- Lexemes of both texts; `astray` says that there is a zero or a set that only the second text
has. -/
inductive Lexeme.Filled : Bool → List Lexeme → List Lexeme → Prop where
  | nil : Filled false [] []
  | cons (x : Lexeme) {astray : Bool} {ls ls' : List Lexeme} (h : Filled astray ls ls') :
      Filled astray (x :: ls) (x :: ls')
  | bracket (x y : CharSet) {astray : Bool} {ls ls' : List Lexeme} (h : Filled astray ls ls') :
      Filled (decide (x ≠ y) || astray) (.single x :: ls) (.single y :: ls')
  | zero (x y : CharSet) {astray : Bool} {ls ls' : List Lexeme} (h : Filled astray ls ls') :
      Filled true (.single x :: ls) (.single x :: .single y :: ls')

theorem Lexeme.Filled.append (ks : List Lexeme) {astray : Bool} {ls ls' : List Lexeme}
    (h : Filled astray ls ls') : Filled astray (ks ++ ls) (ks ++ ls') := by
  induction ks with
  | nil => exact h
  | cons x ks ih => exact .cons x ih

theorem skips_strays (r : Reading) : Skips (strays r) where
  nil _ := by simp only [strays]
  cons _ _ _ := by rw [strays]

theorem strays_gap {r : Reading} {c : Char} {m n : Marked}
    (hskip : r.skip (c :: text m) = .ok (text n)) (hn : n <:+ m) :
    strays r 0 ((c, false) :: m) = strays r 0 n := by
  rw [strays]
  simp only [Bool.false_or, hskip, text_length, if_pos hn.length_le, (skips_strays r).of_suffix hn]

theorem strays_cut {r : Reading} {c : Char} {m n : Marked} {a b : Cut}
    (hskip : r.skip (c :: text m) = .ok (c :: text m)) (ha : r.cut c (text m) = .ok a)
    (hb : r.cut c (filled m) = .ok b) (hrest : a.rest = text n) (hn : n <:+ m) :
    strays r 0 ((c, false) :: m) = (a.lexemes != b.lexemes || strays a.next 0 n) := by
  have hlonger : ¬(c :: text m).length ≤ m.length := by simp [text_length]
  rw [strays]
  simp only [Bool.false_or, hskip, if_neg hlonger, ha, hb, hrest, text_length,
    (skips_strays a.next).of_suffix hn]

/-- A comma and a zero are characters by themselves. -/
theorem lexemesFrom_comma (r : Reading) {c : Char} (hc : c ∈ ['0', ',']) (t : Text) :
    lexemesFrom r 0 (c :: t) =
      after [r.modes.single c] (lexemesFrom { r with afterItem := true } 0 t) := by
  simp only [List.mem_cons, List.not_mem_nil, or_false] at hc
  have hskip : r.skip (c :: t) = .ok (c :: t) := by
    rcases hc with rfl | rfl <;>
      exact skipGap_cons (fun _ => by decide) fun hc => absurd hc (by decide)
  have hcut : r.cut c t = .ok (r.item [r.modes.single c] t) := by
    rcases hc with rfl | rfl <;>
      exact (cut_eq_itemAt (by decide) t).trans (itemAt_plain (by decide) t)
  exact lexemesFrom_cut hskip hcut (List.suffix_refl t)

theorem Likewise.after {astray : Bool} {x y : Except SyntaxError (List Lexeme)}
    (h : Likewise (Lexeme.Filled astray) x y) {astray' : Bool} {ks ls : List Lexeme}
    (hks : ∀ {us vs}, Lexeme.Filled astray us vs → Lexeme.Filled astray' (ks ++ us) (ls ++ vs)) :
    Likewise (Lexeme.Filled astray') (after ks x) (after ls y) := by
  cases h with
  | error e => exact .error e
  | ok h => exact .ok (hks h)

/-- Both texts are cut into the same lexemes, as long as no zero goes astray. The induction is on
the length: gaps and lexemes take up several characters. -/
theorem lexemesFrom_likewise (r : Reading) {m : Marked} (h : IsFree m) :
    Likewise (Lexeme.Filled (strays r 0 m)) (lexemesFrom r 0 (text m))
      (lexemesFrom r 0 (filled m)) := by
  induction hlen : m.length using Nat.strongRecOn generalizing m r with
  | ind k ih =>
    subst hlen
    obtain rfl | ⟨c, n, rfl, hfits⟩ := h.cases
    · exact .ok .nil
    have hskip := r.skip_likewise h
    rw [text_cons, filled_false] at hskip ⊢
    obtain ⟨e, htext, hfilled⟩ | ⟨_, _, htext, hfilled, k, hk, hkfree, rfl, rfl⟩ := hskip.cases
    · rw [lexemesFrom_refused htext, lexemesFrom_refused hfilled]
      exact .error e
    rcases List.suffix_cons_iff.mp hk with rfl | hk
    case inr =>
      have hshorter := hk.length_le
      rw [lexemesFrom_skip htext, lexemesFrom_skip hfilled, strays_gap htext hk]
      exact ih _ (by simp only [List.length_cons]; omega) r hkfree rfl
    rw [text_cons] at htext
    rw [filled_false] at hfilled
    obtain ⟨e, ha, hb⟩ | ⟨a, b, ha, hb, hcuts⟩ := (cut_likewise r hfits).cases
    · rw [lexemesFrom_uncut htext ha, lexemesFrom_uncut hfilled hb]
      exact .error e
    cases hcuts with
    | same hsame =>
      obtain ⟨hlexemes, hnext, j, hj, hjfree, hrest, hrest'⟩ := hsame
      have hshorter := hj.length_le
      have hbehind := ih _ (by simp only [List.length_cons]; omega) a.next hjfree rfl
      rw [lexemesFrom_cut htext ha (hrest ▸ text_suffix hj),
        lexemesFrom_cut hfilled hb (hrest' ▸ filled_suffix hj),
        strays_cut htext ha hb hrest hj, hrest, hrest', ← hlexemes, ← hnext]
      exact hbehind.after fun hls => by simpa using hls.append a.lexemes
    | bracket x y next hrest =>
      obtain ⟨j, hj, hjfree, rfl, rfl⟩ := hrest
      have hshorter := hj.length_le
      have hbehind := ih _ (by simp only [List.length_cons]; omega) next hjfree rfl
      rw [lexemesFrom_cut htext ha (text_suffix hj), lexemesFrom_cut hfilled hb (filled_suffix hj),
        strays_cut htext ha hb rfl hj]
      have hsets : ([Lexeme.single x] != [.single y]) = decide (x ≠ y) := by
        by_cases hxy : x = y <;> simp [hxy]
      rw [hsets]
      exact hbehind.after fun hls => .bracket x y hls
    | @comma x next j hn hfree =>
      have hshorter := hn.length_le
      have hbehind := ih _ (by simp only [List.length_cons] at hshorter ⊢; omega)
        { next with afterItem := true } hfree rfl
      have hastray : strays next 0 ((',', true) :: j) = true := by
        rw [strays, Bool.true_or]
      rw [lexemesFrom_cut htext ha (text_suffix hn), lexemesFrom_cut hfilled hb (filled_suffix hn),
        strays_cut htext ha hb rfl hn, hastray, Bool.or_true, lexemesFrom_comma next (by decide),
        lexemesFrom_comma next (by decide), lexemesFrom_comma _ (by decide), after_after,
        after_after, after_after]
      exact hbehind.after fun hls => .zero x _ (.cons _ hls)

end PatternBuilder.Dialect
