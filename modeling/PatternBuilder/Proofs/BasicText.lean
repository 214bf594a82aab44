import Mathlib.Data.List.TakeWhile
import PatternBuilder.Proofs.Lexing

/-!
# Basic pattern text

The basic dialect has characters, escape sequences, bracket expressions, anchors, groups with a name
or without, lookarounds, quantifiers and bars. Codes of characters, comments, inline modes and
atomic groups are outside of it, and so are brackets that stand among the members of a bracket
expression without an escape. Each lexeme of a basic text stands for the marks that a scan finds in
its place.
-/

namespace PatternBuilder

open Dialect

namespace Text

def codeLetters : List Char := ['x', 'u', 'U']

/-- What comes behind `(?` in a plain group, a lookaround and a named group. -/
def groupSigns : List Char := [':', '=', '!', '<', 'P']

def opensGroup (t : Text) : Bool :=
  t.head? != some '?' || t.tail.head?.any groupSigns.contains

def opensEmptyClass (t : Text) : Bool :=
  (if t.head? = some '^' then t.tail else t).head? == some ']'

/-- The syntax of the dialect without its further forms: no escape sequence gives the code of a
character, and every group is plain, captures, has a name or looks around. `inClass` says whether
the text begins in a bracket expression. -/
def hasBasicSyntax (inClass : Bool) : Text → Bool
  | [] => true
  | '\\' :: c :: t => !codeLetters.contains c && hasBasicSyntax inClass t
  | '[' :: t => hasBasicSyntax true t
  | ']' :: t => hasBasicSyntax false t
  | '(' :: t => (inClass || opensGroup t) && hasBasicSyntax inClass t
  | _ :: t => hasBasicSyntax inClass t

/-- Bracket expressions are not empty, and an opening bracket inside of one is escaped. -/
def hasPlainBrackets (inClass : Bool) : Text → Bool
  | [] => true
  | '\\' :: _ :: t => hasPlainBrackets inClass t
  | '[' :: t => !inClass && !opensEmptyClass t && hasPlainBrackets true t
  | ']' :: t => hasPlainBrackets false t
  | _ :: t => hasPlainBrackets inClass t

def isBasic (inClass : Bool) (t : Text) : Bool :=
  t.hasBasicSyntax inClass && t.hasPlainBrackets inClass

section

variable (inClass : Bool) (c : Char) (t : Text)

theorem isBasic_escape :
    isBasic inClass ('\\' :: c :: t) = (!codeLetters.contains c && isBasic inClass t) :=
  Bool.and_assoc ..

theorem isBasic_bracket :
    isBasic inClass ('[' :: t) = (!inClass && !opensEmptyClass t && isBasic true t) :=
  Bool.and_left_comm ..

theorem isBasic_close : isBasic inClass (']' :: t) = isBasic false t := rfl

theorem isBasic_group :
    isBasic inClass ('(' :: t) = ((inClass || opensGroup t) && isBasic inClass t) :=
  Bool.and_assoc ..

end

theorem isBasic_cons {inClass : Bool} {c : Char} (h : c ∉ ['\\', '[', ']', '(']) (t : Text) :
    isBasic inClass (c :: t) = isBasic inClass t := by
  simp only [List.mem_cons, not_or] at h
  rw [isBasic, hasBasicSyntax, hasPlainBrackets, isBasic] <;> simp [h]

theorem isBasic_cons_outside {c : Char} (h : c ∉ Mark.structural) (t : Text) :
    isBasic false (c :: t) = isBasic false t := by
  by_cases hc : c = ']'
  · rw [hc, isBasic_close]
  · simp only [Mark.structural, List.mem_cons, not_or] at h
    exact isBasic_cons (by simp [h, hc]) t

/-- What stands before `u` in `t` is plain. -/
def Passes (t u : Text) : Prop := ∃ s, t = s ++ u ∧ ∀ c ∈ s, c ∉ Mark.structural

namespace Passes

theorem refl (t : Text) : Passes t t := ⟨[], rfl, by simp⟩

theorem trans {t u v : Text} (h : Passes t u) (h' : Passes u v) : Passes t v := by
  obtain ⟨s, rfl, hs⟩ := h
  obtain ⟨s', rfl, hs'⟩ := h'
  refine ⟨s ++ s', by simp, fun c hc => ?_⟩
  rcases List.mem_append.mp hc with hc | hc
  · exact hs c hc
  · exact hs' c hc

theorem cons {c : Char} {t u : Text} (hc : c ∉ Mark.structural) (h : Passes t u) :
    Passes (c :: t) u := by
  obtain ⟨s, rfl, hs⟩ := h
  refine ⟨c :: s, rfl, fun d hd => ?_⟩
  rcases List.mem_cons.mp hd with rfl | hd
  · exact hc
  · exact hs d hd

theorem dropWhile {p : Char → Bool} (hp : ∀ c, p c = true → c ∉ Mark.structural) (t : Text) :
    Passes t (t.dropWhile p) :=
  ⟨t.takeWhile p, List.takeWhile_append_dropWhile.symm,
    fun c hc => hp c (List.mem_takeWhile_imp hc)⟩

theorem suffix {t u : Text} (h : Passes t u) : u <:+ t := by
  obtain ⟨s, rfl, -⟩ := h
  exact List.suffix_append s u

theorem isBasic {t u : Text} (h : Passes t u) : isBasic false t = isBasic false u := by
  obtain ⟨s, rfl, hs⟩ := h
  induction s with
  | nil => rfl
  | cons c s ih =>
    rw [List.cons_append, isBasic_cons_outside (hs c List.mem_cons_self),
      ih fun d hd => hs d (List.mem_cons_of_mem c hd)]

theorem ofText {t u : Text} (h : Passes t u) :
    ∃ s : Text, Mark.ofText t = s.map (fun _ => .plain) ++ Mark.ofText u := by
  obtain ⟨s, rfl, hs⟩ := h
  exact ⟨s, Mark.ofText_append_of_plain hs u⟩

end Passes
end Text

namespace Dialect

structure Reading.IsBasic (r : Reading) : Prop where
  modes : r.modes.extended = false
  outer : ∀ o ∈ r.outer, ∀ m ∈ o, m.extended = false

namespace Reading.IsBasic

variable {r : Reading}

theorem withItem (h : r.IsBasic) (afterItem : Bool) :
    ({ r with afterItem := afterItem } : Reading).IsBasic := ⟨h.modes, h.outer⟩

theorem opened (h : r.IsBasic) {outside : Option Modes}
    (ho : ∀ m ∈ outside, m.extended = false) : (r.opened outside r.modes).IsBasic := by
  refine ⟨h.modes, fun o hmem => ?_⟩
  rcases List.mem_cons.mp hmem with rfl | hmem
  · exact ho
  · exact h.outer o hmem

theorem closed (h : r.IsBasic) : r.closed.IsBasic := by
  unfold Reading.closed
  split
  next => exact h.withItem true
  next outside outer houter =>
    have hall := h.outer
    rw [houter] at hall
    refine ⟨?_, fun o ho => hall o (List.mem_cons_of_mem _ ho)⟩
    cases outside with
    | none => exact h.modes
    | some m => exact hall _ List.mem_cons_self m rfl

theorem skip (h : r.IsBasic) {t : Text} (ht : Text.isBasic false t = true) : r.skip t = .ok t := by
  rw [Reading.skip, h.modes]
  cases t with
  | nil => rfl
  | cons c t =>
    refine skipGap_cons (by simp) fun hc u htu => ?_
    rw [hc, htu, Text.isBasic_group] at ht
    simp [Text.opensGroup, Text.groupSigns] at ht

end Reading.IsBasic

/-- The marks that a scan finds in the place of a lexeme. -/
inductive Lexeme.Shows : Lexeme → List Mark → Prop where
  | single (s : CharSet) : Shows (.single s) [.plain]
  | bracket (s : CharSet) : Shows (.single s) [.bracket]
  | anchor (a : Anchor) : Shows (.anchor a) [.plain]
  | opening {p : Paren} (hp : p ≠ .atomic) (t : Text) :
      Shows (.opening p) (.opening :: t.map fun _ => .plain)
  | closing : Shows .closing [.closing]
  | bar : Shows .bar [.bar]
  | quantifier (min : Nat) (max : Option Nat) (greedy atomic : Bool) (c : Char) (t : Text) :
      Shows (.quantifier min max greedy atomic) ((c :: t).map fun _ => .plain)

inductive Lexeme.Outlines : List Lexeme → List Mark → Prop where
  | nil : Outlines [] []
  | cons {x : Lexeme} {ls : List Lexeme} {ms ns : List Mark} (h : x.Shows ms)
      (hs : Outlines ls ns) : Outlines (x :: ls) (ms ++ ns)

structure Cut.IsBasic (t : Text) (cut : Cut) : Prop where
  shown : ∃ x ms, cut.lexemes = [x] ∧ x.Shows ms ∧ Mark.ofText t = ms ++ Mark.ofText cut.rest
  next : cut.next.IsBasic
  rest : Text.isBasic false cut.rest = true
  suffix : cut.rest <:+ t.tail

variable {r : Reading} {t : Text} {cut : Cut}

theorem escapedChar_rest {c d : Char} {rest : Text} (hc : c ∉ Text.codeLetters)
    (h : escapedChar c t = .ok (d, rest)) : rest = t := by
  simp only [Text.codeLetters, List.mem_cons, not_or] at hc
  unfold escapedChar at h
  split at h
  · cases h
    rfl
  · split at h <;> simp_all
    split at h <;> simp_all

theorem escape_shows {c : Char} (hc : c ∉ Text.codeLetters) (h : r.escape c t = .ok cut) :
    ∃ x : Lexeme, cut = r.item [x] t ∧ x.Shows [.plain] := by
  unfold Reading.escape at h
  split at h
  · cases h
    exact ⟨_, rfl, .single _⟩
  · cases h
    exact ⟨_, rfl, .single _⟩
  · split at h
    · cases h
    · cases h
      exact ⟨_, rfl, .anchor _⟩
  · cases h
    exact ⟨_, rfl, .single _⟩
  · obtain ⟨⟨d, rest⟩, hd, hcut⟩ := exists_of_bind_eq_ok h
    cases hcut
    obtain rfl := escapedChar_rest hc hd
    exact ⟨_, rfl, .single _⟩

theorem classEscape_rest {c : Char} {token : BracketToken} {rest : Text}
    (hc : c ∉ Text.codeLetters) (h : classEscape c t = .ok (token, rest)) : rest = t := by
  unfold classEscape at h
  split at h
  · cases h
    rfl
  · cases h
    rfl
  · cases h
    rfl
  · cases h
    rfl
  · split at h
    · cases h
      rfl
    · obtain ⟨⟨d, u⟩, hd, htoken⟩ := exists_of_bind_eq_ok h
      cases htoken
      exact escapedChar_rest hc hd

/-- The expression ends where a scan takes it to end. The induction is on the length, since an
escape sequence is two characters long. -/
theorem bracketTokens_basic {ignoreCase : Bool} {tokens : List BracketToken} {rest : Text}
    (ht : Text.isBasic true t = true) (h : bracketTokens ignoreCase 0 0 t = .ok (tokens, rest)) :
    Mark.afterBracket t = Mark.ofText rest ∧ Text.isBasic false rest = true ∧ rest <:+ t := by
  induction hlen : t.length using Nat.strongRecOn generalizing t tokens with
  | ind n ih =>
    subst hlen
    cases t with
    | nil => cases h
    | cons c u =>
      by_cases hslash : c = '\\'
      · subst hslash
        cases u with
        | nil => cases h
        | cons e u =>
          have hbasic : e ∉ Text.codeLetters ∧ Text.isBasic true u = true := by
            simpa [Text.isBasic_escape] using ht
          rw [bracketTokens] at h
          obtain ⟨⟨token, v⟩, htoken, h⟩ := exists_of_bind_eq_ok h
          obtain rfl := classEscape_rest hbasic.1 htoken
          obtain ⟨⟨us, w⟩, hus, h⟩ := exists_of_bind_eq_ok h
          cases h
          rw [(skips_bracketTokens ignoreCase 0).of_suffix (List.suffix_cons e v)] at hus
          obtain ⟨hmarks, hrest, hsuffix⟩ :=
            ih v.length (by simp only [List.length_cons]; omega) hbasic.2 hus rfl
          exact ⟨hmarks, hrest, hsuffix.trans ⟨['\\', e], rfl⟩⟩
      by_cases hclose : c = ']'
      · subst hclose
        cases h
        exact ⟨rfl, by rwa [Text.isBasic_close] at ht, List.suffix_cons _ _⟩
      have hopen : c ≠ '[' := by
        rintro rfl
        simp [Text.isBasic_bracket] at ht
      have hbasic : Text.isBasic true u = true := by
        by_cases hgroup : c = '('
        · simpa [hgroup, Text.isBasic_group] using ht
        · rwa [Text.isBasic_cons (by simp [hslash, hopen, hclose, hgroup])] at ht
      rw [bracketTokens] at h
      · obtain ⟨⟨us, w⟩, hus, h⟩ := exists_of_bind_eq_ok h
        cases h
        obtain ⟨hmarks, hrest, hsuffix⟩ := ih u.length (by simp) hbasic hus rfl
        refine ⟨?_, hrest, hsuffix.trans (List.suffix_cons c u)⟩
        rw [Mark.afterBracket, hmarks] <;> simp [hslash, hclose]
      · exact hslash
      · exact hopen
      · exact hclose

theorem readBracket_basic {ignoreCase : Bool} {s : CharSet} {rest : Text}
    (ht : Text.isBasic true t = true) (hmembers : Text.opensEmptyClass t = false)
    (h : readBracket ignoreCase t = .ok (s, rest)) :
    Mark.afterBracket t = Mark.ofText rest ∧ Text.isBasic false rest = true ∧ rest <:+ t := by
  have hfirst :
      ((if (t.head? == some '^') = true then t.tail else t).head? == some ']') = false := by
    simpa [Text.opensEmptyClass] using hmembers
  rw [readBracket] at h
  simp only [hfirst, Bool.false_eq_true, if_false] at h
  obtain ⟨⟨tokens, u⟩, htokens, h⟩ := exists_of_bind_eq_ok h
  obtain ⟨set, -, h⟩ := exists_of_bind_eq_ok h
  cases h
  split at htokens
  next hnegated =>
    obtain ⟨u, rfl⟩ := List.head?_eq_some_iff.mp (eq_of_beq hnegated)
    rw [Text.isBasic_cons (by decide)] at ht
    obtain ⟨hmarks, hrest, hsuffix⟩ := bracketTokens_basic ht htokens
    exact ⟨hmarks, hrest, hsuffix.trans (List.suffix_cons _ u)⟩
  next => exact bracketTokens_basic ht htokens

theorem name_basic (hr : r.IsBasic) (h : r.name t = .ok cut) :
    ∃ p, p ≠ .atomic ∧ cut.lexemes = [.opening p] ∧ Text.Passes t cut.rest ∧ cut.next.IsBasic := by
  have ht := Text.Passes.dropWhile (p := isNameChar) (fun _ => not_structural_of_isNameChar) t
  unfold Reading.name at h
  split at h
  next _ hdrop =>
    cases h
    rw [hdrop] at ht
    exact ⟨_, by simp, rfl, ht.trans (.cons (by decide) (.refl _)), hr.opened (by simp)⟩
  next => cases h

theorem group_basic (hr : r.IsBasic)
    (hopens : Text.opensGroup t = true) (h : r.group t = .ok cut) :
    ∃ p, p ≠ .atomic ∧ cut.lexemes = [.opening p] ∧ Text.Passes t cut.rest ∧ cut.next.IsBasic := by
  have hopened : (r.opened none r.modes).IsBasic := hr.opened (by simp)
  unfold Reading.group at h
  split at h
  · cases h
    exact ⟨_, by simp, rfl, .cons (by decide) (.cons (by decide) (.refl _)), hopened⟩
  · cases h
    exact ⟨_, by simp, rfl, .cons (by decide) (.cons (by decide) (.refl _)), hopened⟩
  · cases h
    exact ⟨_, by simp, rfl,
      .cons (by decide) (.cons (by decide) (.cons (by decide) (.refl _))), hopened⟩
  · cases h
    exact ⟨_, by simp, rfl,
      .cons (by decide) (.cons (by decide) (.cons (by decide) (.refl _))), hopened⟩
  · obtain ⟨p, hp, hlexemes, hrest, hnext⟩ := name_basic hr h
    exact ⟨p, hp, hlexemes, .cons (by decide) (.cons (by decide) hrest), hnext⟩
  · obtain ⟨p, hp, hlexemes, hrest, hnext⟩ := name_basic hr h
    exact ⟨p, hp, hlexemes, .cons (by decide) (.cons (by decide) (.cons (by decide) hrest)), hnext⟩
  · simp [Text.opensGroup, Text.groupSigns] at hopens
  next u hequal hbang hequalBehind hbangBehind hname hnameP hatomic =>
    cases u with
    | nil => simp [Text.opensGroup] at hopens
    | cons c u =>
      have hc : c ∈ Text.groupSigns := by simpa [Text.opensGroup] using hopens
      simp only [Text.groupSigns, List.mem_cons, List.not_mem_nil, or_false] at hc
      rcases hc with rfl | rfl | rfl | rfl | rfl
      · cases h
        exact ⟨.plain, by simp, rfl, .cons (by decide) (.cons (by decide) (.refl u)),
          hr.opened (by simpa using hr.modes)⟩
      · exact absurd rfl (hequal u)
      · exact absurd rfl (hbang u)
      · exact absurd rfl (hname u)
      · simp [Reading.modeChange, hr.modes, Modes.set?] at h
  · cases h
    exact ⟨_, by simp, rfl, .refl _, hopened⟩

theorem not_structural_of_isDigit {c : Char} (h : c.isDigit = true) : c ∉ Mark.structural := by
  intro hc
  simp only [Mark.structural, List.mem_cons, List.not_mem_nil, or_false] at hc
  rcases hc with rfl | rfl | rfl | rfl | rfl <;> revert h <;> decide

theorem passes_of_readNumber? {n : Nat} {u : Text} (h : readNumber? t = some (n, u)) :
    Text.Passes t u := by
  simp only [readNumber?] at h
  split at h
  · cases h
  · cases h
    exact .dropWhile (fun _ => not_structural_of_isDigit) t

def Reading.upperBraces (r : Reading) (min : Nat) (t : Text) :
    Option (Nat × Option Nat × Text) := do
  match ← (r.skip t).toOption with
  | '\x7d' :: rest => some (min, upperBound min, rest)
  | ',' :: t =>
    let t ← (r.skip t).toOption
    let (max, t) := (readNumber? t).getD (noBound, t)
    match ← (r.skip t).toOption with
    | '\x7d' :: rest => some (min, upperBound max, rest)
    | _ => none
  | _ => none

theorem braces?_eq (r : Reading) (t : Text) :
    r.braces? t = (r.skip t).toOption.bind fun t =>
      if t.head? == some ',' then r.upperBraces 0 t
      else (readNumber? t).bind fun lower => r.upperBraces lower.1 lower.2 := rfl

theorem passes_of_upperBraces (hr : r.IsBasic) (ht : Text.isBasic false t = true) {lower min : Nat}
    {max : Option Nat} {rest : Text} (h : r.upperBraces lower t = some (min, max, rest)) :
    Text.Passes t rest := by
  have hskip : ∀ {u}, Text.Passes t u → r.skip u = .ok u := fun hu => hr.skip (hu.isBasic ▸ ht)
  simp only [Reading.upperBraces, hskip (.refl t), Except.toOption, Option.bind_eq_bind,
    Option.bind_some] at h
  split at h
  next =>
    cases h
    exact .cons (by decide) (.refl rest)
  next u =>
    have hu : Text.Passes (',' :: u) u := .cons (by decide) (.refl u)
    rw [hskip hu] at h
    simp only [Option.bind_some] at h
    have hv : Text.Passes u ((readNumber? u).getD (noBound, u)).2 := by
      cases hn : readNumber? u with
      | none => exact .refl u
      | some n => exact passes_of_readNumber? hn
    rw [hskip (hu.trans hv)] at h
    simp only [Option.bind_some] at h
    split at h
    next hrest =>
      cases h
      rw [hrest] at hv
      exact (hu.trans hv).trans (.cons (by decide) (.refl _))
    next => cases h
  next => cases h

theorem passes_of_braces? (hr : r.IsBasic) (ht : Text.isBasic false t = true) {min : Nat}
    {max : Option Nat} {rest : Text} (h : r.braces? t = some (min, max, rest)) :
    Text.Passes t rest := by
  rw [braces?_eq, hr.skip ht] at h
  simp only [Except.toOption, Option.bind_some] at h
  split at h
  · exact passes_of_upperBraces hr ht h
  · obtain ⟨⟨lower, u⟩, hlower, h⟩ := Option.bind_eq_some_iff.mp h
    have hu := passes_of_readNumber? hlower
    exact hu.trans (passes_of_upperBraces hr (hu.isBasic ▸ ht) h)

theorem passes_of_bounds? (hr : r.IsBasic) {c : Char} (ht : Text.isBasic false t = true) {min : Nat}
    {max : Option Nat} {rest : Text} (h : r.bounds? c t = some (min, max, rest)) :
    Text.Passes t rest := by
  unfold Reading.bounds? at h
  split at h
  · cases h
    exact .refl _
  · cases h
    exact .refl _
  · cases h
    exact .refl _
  · exact passes_of_braces? hr ht h
  · cases h

theorem quantifier_basic (hr : r.IsBasic) (ht : Text.isBasic false t = true) {min : Nat}
    {max : Option Nat} (h : r.quantifier min max t = .ok cut) :
    ∃ greedy atomic, cut.lexemes = [.quantifier min max greedy atomic] ∧ Text.Passes t cut.rest ∧
      cut.next.IsBasic := by
  simp only [Reading.quantifier, hr.skip ht, bind, Except.bind, pure, Except.pure,
    Except.ok.injEq] at h
  subst h
  have hsign : ∀ {c : Char} (u : Text), c ∉ Mark.structural →
      Text.Passes u (if u.head? == some c then u.tail else u) := by
    intro c u hc
    split
    next hhead =>
      obtain ⟨u, rfl⟩ := List.head?_eq_some_iff.mp (eq_of_beq hhead)
      exact .cons hc (.refl u)
    next => exact .refl u
  have hmark := hsign (c := '?') t (by decide)
  have hplus := hsign (c := '+') (if t.head? == some '?' then t.tail else t) (by decide)
  exact ⟨_, _, rfl, hmark.trans hplus, hr.withItem false⟩

theorem itemAt_basic (hr : r.IsBasic) {c : Char} (ht : Text.isBasic false (c :: t) = true)
    (h : r.itemAt c t = .ok cut) : cut.IsBasic (c :: t) := by
  by_cases hc : c ∈ Mark.structural
  · simp only [Mark.structural, List.mem_cons, List.not_mem_nil, or_false] at hc
    rcases hc with rfl | rfl | rfl | rfl | rfl
    · cases t with
      | nil => cases h
      | cons e t =>
        have hbasic : e ∉ Text.codeLetters ∧ Text.isBasic false t = true := by
          simpa [Text.isBasic_escape] using ht
        obtain ⟨x, rfl, hx⟩ := escape_shows hbasic.1 h
        exact ⟨⟨x, _, rfl, hx, rfl⟩, hr.withItem true, hbasic.2, List.suffix_cons e t⟩
    · have hbasic : Text.opensEmptyClass t = false ∧ Text.isBasic true t = true := by
        simpa [Text.isBasic_bracket] using ht
      obtain ⟨⟨s, rest⟩, hs, h⟩ := exists_of_bind_eq_ok h
      cases h
      obtain ⟨hmarks, hrest, hsuffix⟩ := readBracket_basic hbasic.2 hbasic.1 hs
      exact ⟨⟨_, _, rfl, .bracket s, congrArg _ hmarks⟩, hr.withItem true, hrest, hsuffix⟩
    · have hbasic : Text.opensGroup t = true ∧ Text.isBasic false t = true := by
        simpa [Text.isBasic_group] using ht
      have hgroup : r.group t = .ok cut := by
        simpa [Reading.itemAt, hr.skip hbasic.2, bind, Except.bind] using h
      obtain ⟨p, hp, hlexemes, hrest, hnext⟩ := group_basic hr hbasic.1 hgroup
      obtain ⟨s, hs⟩ := hrest.ofText
      exact ⟨⟨_, _, hlexemes, .opening hp s, congrArg _ hs⟩, hnext, hrest.isBasic ▸ hbasic.2,
        hrest.suffix⟩
    · cases h
      exact ⟨⟨_, _, rfl, .closing, rfl⟩, hr.closed, by rwa [Text.isBasic_cons (by decide)] at ht,
        List.suffix_refl t⟩
    · cases h
      exact ⟨⟨_, _, rfl, .bar, rfl⟩, hr.withItem false,
        by rwa [Text.isBasic_cons (by decide)] at ht, List.suffix_refl t⟩
  · have hmarks := Mark.ofText_cons_of_plain hc t
    have hbasic : Text.isBasic false t = true := by rwa [Text.isBasic_cons_outside hc] at ht
    obtain ⟨x, hx, rfl⟩ : ∃ x : Lexeme, x.Shows [.plain] ∧ cut = r.item [x] t := by
      unfold Reading.itemAt at h
      split at h
      all_goals first | exact absurd (by decide) hc | cases h
      · exact ⟨_, .single _, rfl⟩
      · exact ⟨_, .anchor _, rfl⟩
      · exact ⟨_, .anchor _, rfl⟩
      · exact ⟨_, .single _, rfl⟩
    exact ⟨⟨x, _, rfl, hx, hmarks⟩, hr.withItem true, hbasic, List.suffix_refl t⟩

theorem cut_basic (hr : r.IsBasic) {c : Char} (ht : Text.isBasic false (c :: t) = true)
    (h : r.cut c t = .ok cut) : cut.IsBasic (c :: t) := by
  unfold Reading.cut at h
  split at h
  next min max rest hbounds =>
    have hbounds : r.bounds? c t = some (min, max, rest) := by
      split at hbounds
      · exact hbounds
      · cases hbounds
    have hc : c ∈ Phrase.repeating := by
      by_contra hc
      rw [bounds?_eq_none hc] at hbounds
      cases hbounds
    have hplain : ∀ d ∈ Phrase.repeating, d ∉ Mark.structural := by decide
    rw [Text.isBasic_cons_outside (hplain c hc)] at ht
    have hrest := passes_of_bounds? hr ht hbounds
    obtain ⟨greedy, atomic, hlexemes, hmarks, hnext⟩ := quantifier_basic hr (hrest.isBasic ▸ ht) h
    have hall := hrest.trans hmarks
    obtain ⟨s, hs⟩ := hall.ofText
    have hshown : Mark.ofText (c :: t) =
        (c :: s).map (fun _ => .plain) ++ Mark.ofText cut.rest := by
      rw [Mark.ofText_cons_of_plain (hplain c hc), hs]
      rfl
    exact ⟨⟨_, _, hlexemes, .quantifier min max greedy atomic c s, hshown⟩, hnext,
      hall.isBasic ▸ ht, hall.suffix⟩
  next => exact itemAt_basic hr ht h

theorem outlines_of_lexemesFrom (hr : r.IsBasic) (ht : Text.isBasic false t = true)
    {ls : List Lexeme} (h : lexemesFrom r 0 t = .ok ls) : Lexeme.Outlines ls (Mark.ofText t) := by
  induction hlen : t.length using Nat.strongRecOn generalizing t r ls with
  | ind n ih =>
    subst hlen
    cases t with
    | nil =>
      cases h
      exact .nil
    | cons c t =>
      have hskip := hr.skip ht
      cases hcut : r.cut c t with
      | error e =>
        rw [lexemesFrom_uncut hskip hcut] at h
        cases h
      | ok cut =>
        obtain ⟨⟨x, ms, hlexemes, hx, hmarks⟩, hnext, hrest, hsuffix⟩ := cut_basic hr ht hcut
        rw [lexemesFrom_cut hskip hcut hsuffix] at h
        cases hls : lexemesFrom cut.next 0 cut.rest with
        | error e => simp [hls, after, Except.map] at h
        | ok ks =>
          rw [hls] at h
          cases h
          have hlonger : cut.rest.length < (c :: t).length := by
            have hle := hsuffix.length_le
            simp only [List.tail_cons, List.length_cons] at hle ⊢
            omega
          have houtlines := ih _ hlonger hnext hrest hls rfl
          rw [hmarks, hlexemes]
          exact .cons hx houtlines

end Dialect
end PatternBuilder
