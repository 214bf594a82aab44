import PatternBuilder.Pattern
import PatternBuilder.Proofs.Parsing
import PatternBuilder.Proofs.Writing

/-!
# The text that is compiled

A source is not compiled as it is: lower bounds are filled in and modes are set in front of it. The
tree that is read is still the one that was written, under the modes of the flags.
-/

namespace PatternBuilder

open Dialect

/-- The characters outside of escape sequences and classes. -/
def Text.bare (inClass : Bool) : Text → Text
  | [] => []
  | ['\\'] => []
  | '\\' :: _ :: t => bare inClass t
  | '[' :: t => bare true t
  | ']' :: t => bare false t
  | c :: t => if inClass then bare inClass t else c :: bare inClass t

def Quantifier.filled : Quantifier → Quantifier
  | .range none max => .range (some 0) max
  | q => q

namespace Dialect

theorem escapeChar_classSpecial (c : Char) :
    Escape.inClass [c] = ['\\', c] ∨ Escape.inClass [c] = [c] ∧ c ∉ ['\\', '[', ']'] := by
  have hclass : ∀ d ∈ ['\\', '[', ']'], d ∈ Escape.classSpecial := by decide
  by_cases hc : c ∈ Escape.classSpecial
  · exact .inl (by simp [Escape.inClass, Escape.escapeAll, Escape.escapeChar, hc])
  · refine .inr ⟨?_, fun hd => hc (hclass c hd)⟩
    simp [Escape.inClass, Escape.escapeAll, Escape.escapeChar, hc]

theorem fillBounds_plain {c : Char} (h : c ∉ ['\\', '[', ']']) (t : Text) :
    fillBounds true (c :: t) = c :: fillBounds true t := by
  simp only [List.mem_cons, List.not_mem_nil, or_false, not_or] at h
  by_cases hc : c = '\x7b'
  · simp [hc, fillBounds]
  · rw [fillBounds] <;> simp [h, hc]

theorem bare_plain {c : Char} (h : c ∉ ['\\', '[', ']']) (t : Text) :
    Text.bare true (c :: t) = Text.bare true t := by
  simp only [List.mem_cons, List.not_mem_nil, or_false, not_or] at h
  rw [Text.bare] <;> simp [h]

theorem scan_inClass (c : Char) (t : Text) :
    fillBounds true (Escape.inClass [c] ++ t) = Escape.inClass [c] ++ fillBounds true t ∧
      Text.bare true (Escape.inClass [c] ++ t) = Text.bare true t := by
  rcases escapeChar_classSpecial c with hc | ⟨hc, hplain⟩
  · rw [hc]
    exact ⟨rfl, rfl⟩
  · rw [hc]
    exact ⟨fillBounds_plain hplain t, bare_plain hplain t⟩

theorem scan_memberText {a : Atom} (h : a.IsMember) (t : Text) :
    fillBounds true (a.memberText ++ t) = a.memberText ++ fillBounds true t ∧
      Text.bare true (a.memberText ++ t) = Text.bare true t := by
  cases a with
  | range r =>
    obtain ⟨hhi, hhibare⟩ := scan_inClass r.hi t
    obtain ⟨hlo, hlobare⟩ := scan_inClass r.lo ('-' :: (Escape.inClass [r.hi] ++ t))
    have hdash : fillBounds true ('-' :: (Escape.inClass [r.hi] ++ t)) =
        '-' :: fillBounds true (Escape.inClass [r.hi] ++ t) := fillBounds_plain (by decide) _
    have hdashbare : Text.bare true ('-' :: (Escape.inClass [r.hi] ++ t)) =
        Text.bare true (Escape.inClass [r.hi] ++ t) := bare_plain (by decide) _
    rw [Atom.memberText, List.append_assoc, List.cons_append]
    constructor
    · rw [hlo, hdash, hhi, List.append_assoc, List.cons_append]
    · rw [hlobare, hdashbare, hhibare]
  | char c => exact scan_inClass c t
  | literal s =>
    rw [show s = [] from h]
    exact ⟨rfl, rfl⟩
  | token s =>
    obtain ⟨c, rfl, _⟩ := h
    exact ⟨rfl, rfl⟩

theorem scan_bracket {as : List Atom} (h : ∀ a ∈ as, a.IsMember) (rest : Text) :
    fillBounds true (as.flatMap Atom.memberText ++ ']' :: rest) =
        as.flatMap Atom.memberText ++ ']' :: fillBounds false rest ∧
      Text.bare true (as.flatMap Atom.memberText ++ ']' :: rest) = Text.bare false rest := by
  induction as with
  | nil => exact ⟨rfl, rfl⟩
  | cons a as ih =>
    obtain ⟨hrest, hrestbare⟩ := ih fun b hb => h b (List.mem_cons_of_mem a hb)
    obtain ⟨ha, habare⟩ := scan_memberText (h a List.mem_cons_self)
      (as.flatMap Atom.memberText ++ ']' :: rest)
    rw [List.flatMap_cons, List.append_assoc]
    exact ⟨by rw [ha, hrest, List.append_assoc], by rw [habare, hrestbare]⟩

theorem scan_outside {f : Text → Text} {signs : List Char}
    (hf : ∀ {c}, c ∉ signs → ∀ t, f (c :: t) = c :: f t) {u : Text} (h : ∀ c ∈ u, c ∉ signs)
    (t : Text) : f (u ++ t) = u ++ f t := by
  induction u with
  | nil => rfl
  | cons c u ih =>
    obtain ⟨hc, hu⟩ := List.forall_mem_cons.mp h
    rw [List.cons_append, hf hc, ih hu, List.cons_append]

theorem fillBounds_cons {c : Char} (h : c ∉ ['\\', '[', ']', '\x7b']) (t : Text) :
    fillBounds false (c :: t) = c :: fillBounds false t := by
  simp only [List.mem_cons, List.not_mem_nil, or_false, not_or] at h
  rw [fillBounds] <;> simp [h]

theorem bare_cons {c : Char} (h : c ∉ ['\\', '[', ']']) (t : Text) :
    Text.bare false (c :: t) = c :: Text.bare false t := by
  simp only [List.mem_cons, List.not_mem_nil, or_false, not_or] at h
  rw [Text.bare, if_neg Bool.false_ne_true] <;> simp [h]

end Dialect

namespace Quantifier

theorem filled_bounds (q : Quantifier) : q.filled.lower = q.lower ∧ q.filled.upper = q.upper := by
  cases q with
  | range min max => cases min <;> exact ⟨rfl, rfl⟩
  | _ => exact ⟨rfl, rfl⟩

/-- Quantifiers with the same bounds are written by the same symbol, or both in braces. -/
theorem text_of_bounds {q r : Quantifier} (hlower : r.lower = q.lower)
    (hupper : r.upper = q.upper) :
    (r.text = q.text ∧ ∀ c ∈ q.text, c ∈ ['+', '*', '?']) ∨
      (q.text = q.bracesText ∧ r.text = r.bracesText) := by
  unfold text
  rw [hlower, hupper]
  split
  case h_5 => exact .inr ⟨rfl, rfl⟩
  all_goals exact .inl ⟨rfl, by simp⟩

theorem digit_outside {c : Char} (h : c.isDigit = true) :
    c ∉ ['\\', '[', ']', '\x7b'] ∧ c ≠ ',' := by
  constructor
  · intro hc
    simp only [List.mem_cons, List.not_mem_nil, or_false] at hc
    rcases hc with rfl | rfl | rfl | rfl <;> exact absurd h (by decide)
  · rintro rfl
    exact absurd h (by decide)

theorem boundText_outside {n : Option Nat} {c : Char} (h : c ∈ boundText n) :
    c ∉ ['\\', '[', ']', '\x7b'] ∧ c ≠ ',' :=
  digit_outside (isDigit_of_mem_boundText h)

theorem fillBounds_braces {u : Text} (hne : u ≠ [])
    (h : ∀ c ∈ u, c ∉ ['\\', '[', ']', '\x7b'] ∧ c ≠ ',') (t : Text) :
    fillBounds false ('\x7b' :: (u ++ t)) = '\x7b' :: (u ++ fillBounds false t) := by
  cases u with
  | nil => exact absurd rfl hne
  | cons c u =>
    have hcomma := (h c List.mem_cons_self).2
    have hrest := scan_outside fillBounds_cons (fun d hd => (h d hd).1) t
    rw [fillBounds, hrest, if_neg (by simp [hcomma])]

/-- Only braces that begin with a comma leave the lower bound open. -/
theorem fillBounds_bracesText (q : Quantifier) (t : Text) :
    fillBounds false (q.bracesText ++ t) = q.filled.bracesText ++ fillBounds false t := by
  have hend : fillBounds false ('\x7d' :: t) = '\x7d' :: fillBounds false t :=
    scan_outside fillBounds_cons (u := ['\x7d']) (by decide) t
  have hmax : ∀ max : Option Nat, fillBounds false (',' :: (boundText max ++ '\x7d' :: t)) =
      ',' :: (boundText max ++ '\x7d' :: fillBounds false t) := by
    intro max
    have houtside := scan_outside fillBounds_cons (u := ',' :: boundText max) (t := '\x7d' :: t)
        fun c hc => by
      rcases List.mem_cons.mp hc with rfl | hc
      · decide
      · exact (boundText_outside hc).1
    rw [hend] at houtside
    exact houtside
  cases q with
  | exactly n =>
    have hbraces := fillBounds_braces (decimal_ne_nil n)
      (fun c hc => digit_outside (isDigit_of_mem_decimal hc)) ('\x7d' :: t)
    rw [hend] at hbraces
    simpa [bracesText, filled] using hbraces
  | range min max =>
    cases min with
    | none =>
      have hopen : fillBounds false ('\x7b' :: ',' :: (boundText max ++ '\x7d' :: t)) =
          '\x7b' :: '0' :: fillBounds false (',' :: (boundText max ++ '\x7d' :: t)) := rfl
      rw [hmax] at hopen
      have hzero : decimal 0 = ['0'] := rfl
      simpa [bracesText, filled, boundText, hzero] using hopen
    | some n =>
      have hbraces := fillBounds_braces (decimal_ne_nil n)
        (fun c hc => digit_outside (isDigit_of_mem_decimal hc))
        (',' :: (boundText max ++ '\x7d' :: t))
      rw [hmax] at hbraces
      have hn : boundText (some n) = decimal n := rfl
      simpa [bracesText, filled, hn] using hbraces
  | _ => rfl

theorem fillBounds_text (q : Quantifier) (t : Text) :
    fillBounds false (q.text ++ t) = q.filled.text ++ fillBounds false t := by
  obtain ⟨hlower, hupper⟩ := q.filled_bounds
  rcases text_of_bounds hlower hupper with ⟨hsame, hsigns⟩ | ⟨hq, hfilled⟩
  · have hsign : ∀ c ∈ ['+', '*', '?'], c ∉ ['\\', '[', ']', '\x7b'] := by decide
    rw [hsame]
    exact scan_outside fillBounds_cons (fun c hc => hsign c (hsigns c hc)) t
  · rw [hq, hfilled]
    exact q.fillBounds_bracesText t

end Quantifier

namespace Dialect

theorem Paren.opening_outside {p : Paren} (h : p.Proper) {c : Char} (hc : c ∈ p.opening) :
    c ∉ ['\\', '[', ']', '\x7b'] := by
  rcases p with _ | _ | name | _ | ⟨behind, negated⟩
  case named =>
    have hsigns : ∀ d ∈ ['(', '?', '<', '>'], d ∉ ['\\', '[', ']', '\x7b'] := by decide
    have hnames : ∀ d ∈ ['\\', '[', ']', '\x7b'], isNameChar d = false := by decide
    by_cases hname : c ∈ name
    · intro hd
      exact absurd (h.2 c hname) (by simp [hnames c hd])
    · refine hsigns c ?_
      simp only [opening, List.cons_append, List.mem_cons, List.mem_append, hname] at hc
      simp only [List.mem_cons]
      tauto
  case look => revert c; cases behind <;> cases negated <;> decide
  all_goals revert c; decide

namespace Phrase

def filled : Phrase → Phrase
  | .empty => .empty
  | .sign s => .sign s
  | .paren p body => .paren p body.filled
  | .times body q => .times body.filled q.filled
  | .seq a b => .seq a.filled b.filled
  | .alt a b => .alt a.filled b.filled

variable {m : Modes} {p : Phrase}

theorem fillBounds_sign {s : Sign} (h : s.Proper) (rest : Text) :
    fillBounds false (s.text ++ rest) = s.text ++ fillBounds false rest := by
  cases s with
  | bare c =>
    refine scan_outside fillBounds_cons (u := [c]) (fun d hd => ?_) rest
    have hspecial : ∀ e ∈ ['\\', '[', ']', '\x7b'], e ∈ Escape.special := by decide
    have hsigns : ∀ e ∈ ['\\', '[', ']', '\x7b'], e ∉ ['.', '^', '$'] := by decide
    rw [List.mem_singleton.mp hd]
    intro hc
    rcases h with h | h
    · exact h (hspecial c hc)
    · exact hsigns c hc h
  | escape c => rfl
  | bracket as =>
    have hbracket := (scan_bracket h.1 rest).1
    rw [Sign.text, List.append_assoc, List.cons_append, List.cons_append, List.append_assoc]
    exact congrArg ('[' :: ·) hbracket

theorem fillBounds_text (h : p.Proper m) (rest : Text) :
    fillBounds false (p.text ++ rest) = p.filled.text ++ fillBounds false rest := by
  induction p generalizing rest with
  | empty => rfl
  | sign s => exact fillBounds_sign h rest
  | paren p body ih =>
    have hclose : fillBounds false (')' :: rest) = ')' :: fillBounds false rest :=
      scan_outside fillBounds_cons (u := [')']) (by decide) rest
    rw [text, List.append_assoc, List.append_assoc,
      scan_outside fillBounds_cons (fun c hc => p.opening_outside h.1 hc), List.singleton_append,
      ih h.2, hclose]
    simp [filled, text]
  | times body q ih =>
    rw [text, List.append_assoc, ih h.1, q.fillBounds_text]
    simp [filled, text]
  | seq a b iha ihb =>
    rw [text, List.append_assoc, iha h.1.1, ihb h.2.1]
    simp [filled, text]
  | alt a b iha ihb =>
    have hbar : fillBounds false ('|' :: (b.text ++ rest)) =
        '|' :: fillBounds false (b.text ++ rest) :=
      scan_outside fillBounds_cons (u := ['|']) (by decide) _
    rw [text, List.append_assoc, List.cons_append, iha h.1, hbar, ihb h.2]
    simp [filled, text]

theorem lexemes_filled (m : Modes) (p : Phrase) : p.filled.lexemes m = p.lexemes m := by
  induction p with
  | empty => rfl
  | sign s => rfl
  | paren p body ih => simp [filled, lexemes, ih]
  | times body q ih => simp [filled, lexemes, ih, q.filled_bounds]
  | seq a b iha ihb => simp [filled, lexemes, iha, ihb]
  | alt a b iha ihb => simp [filled, lexemes, iha, ihb]

theorem filled_shape (p : Phrase) :
    (p.filled = .empty ↔ p = .empty) ∧ p.filled.hasBar = p.hasBar ∧
      (p.filled.IsSingle ↔ p.IsSingle) := by
  cases p <;> simp [filled, hasBar, IsSingle]

theorem Proper.filled (h : p.Proper m) : p.filled.Proper m := by
  induction p with
  | empty => exact h
  | sign s => exact h
  | paren p body ih => exact ⟨h.1, ih h.2⟩
  | times body q ih =>
    obtain ⟨hbody, hsingle, hlexemes, hfits, htext⟩ := h
    obtain ⟨hlower, hupper⟩ := q.filled_bounds
    refine ⟨ih hbody, body.filled_shape.2.2.mpr hsingle, (body.lexemes_filled m).symm ▸ hlexemes,
      ?_, ?_⟩
    · rw [Quantifier.Fits, hlower, hupper]
      exact hfits
    · rwa [ne_eq, Quantifier.text_eq_nil, hlower, hupper, ← Quantifier.text_eq_nil]
  | seq a b iha ihb =>
    obtain ⟨⟨ha, hane, habar⟩, hb, hbne, hbbar⟩ := h
    exact ⟨⟨iha ha, fun he => hane (a.filled_shape.1.mp he), a.filled_shape.2.1.trans habar⟩,
      ihb hb, fun he => hbne (b.filled_shape.1.mp he), b.filled_shape.2.1.trans hbbar⟩
  | alt a b iha ihb => exact ⟨iha h.1, ihb h.2⟩

theorem Hashless.filled (h : p.Hashless) : p.filled.Hashless := by
  induction p with
  | empty => exact h
  | sign s => exact h
  | paren p body ih => exact ih h
  | times body q ih => exact ih h
  | seq a b iha ihb => exact ⟨iha h.1, ihb h.2⟩
  | alt a b iha ihb => exact ⟨iha h.1, ihb h.2⟩

theorem bare_sign {s : Sign} (h : s.Proper) (rest : Text) :
    ∃ u, Text.bare false (s.text ++ rest) = u ++ Text.bare false rest ∧ ('#' ∉ u → s.Hashless) := by
  cases s with
  | bare c =>
    refine ⟨[c], scan_outside bare_cons (fun d hd => ?_) rest, fun hc => ?_⟩
    · have hspecial : ∀ e ∈ ['\\', '[', ']'], e ∈ Escape.special := by decide
      have hsigns : ∀ e ∈ ['\\', '[', ']'], e ∉ ['.', '^', '$'] := by decide
      rw [List.mem_singleton.mp hd]
      intro hc
      rcases h with h | h
      · exact h (hspecial c hc)
      · exact hsigns c hc h
    · exact fun he => hc (List.mem_singleton.mpr he.symm)
  | escape c => exact ⟨[], rfl, fun _ => trivial⟩
  | bracket as =>
    have hbracket := (scan_bracket h.1 rest).2
    refine ⟨[], ?_, fun _ => trivial⟩
    rw [Sign.text, List.append_assoc, List.cons_append, List.cons_append]
    exact hbracket

theorem bare_text (h : p.Proper m) (rest : Text) :
    ∃ u, Text.bare false (p.text ++ rest) = u ++ Text.bare false rest ∧ ('#' ∉ u → p.Hashless) := by
  induction p generalizing rest with
  | empty => exact ⟨[], rfl, fun _ => trivial⟩
  | sign s => exact bare_sign h rest
  | paren p body ih =>
    obtain ⟨u, hu, hhash⟩ := ih h.2 (')' :: rest)
    have hopening := scan_outside bare_cons (u := p.opening)
      (fun c hc hd => p.opening_outside h.1 hc (List.mem_append_left ['\x7b'] hd))
    have hclose : Text.bare false (')' :: rest) = [')'] ++ Text.bare false rest := rfl
    refine ⟨p.opening ++ u ++ [')'], ?_, fun hc => hhash fun hmem => hc ?_⟩
    · rw [text, List.append_assoc, List.append_assoc, hopening, List.singleton_append, hu, hclose]
      simp
    · simp [hmem]
  | times body q ih =>
    obtain ⟨u, hu, hhash⟩ := ih h.1 (q.text ++ rest)
    refine ⟨u ++ q.text, ?_, fun hc => hhash fun hmem => hc (List.mem_append_left _ hmem)⟩
    have hq : ∀ c ∈ q.text, c ∉ ['\\', '[', ']'] := by
      intro c hc hd
      have hsigns := Quantifier.mem_text hc
      simp only [List.mem_cons, List.not_mem_nil, or_false] at hd
      rcases hd with rfl | rfl | rfl <;> revert hsigns <;> decide
    rw [text, List.append_assoc, hu, scan_outside bare_cons hq, List.append_assoc]
  | seq a b iha ihb =>
    obtain ⟨u, hu, hhashu⟩ := iha h.1.1 (b.text ++ rest)
    obtain ⟨v, hv, hhashv⟩ := ihb h.2.1 rest
    refine ⟨u ++ v, by rw [text, List.append_assoc, hu, hv, List.append_assoc], fun hc => ?_⟩
    exact ⟨hhashu fun hmem => hc (List.mem_append_left v hmem),
      hhashv fun hmem => hc (List.mem_append_right u hmem)⟩
  | alt a b iha ihb =>
    obtain ⟨u, hu, hhashu⟩ := iha h.1 ('|' :: b.text ++ rest)
    obtain ⟨v, hv, hhashv⟩ := ihb h.2 rest
    have hbar : Text.bare false ('|' :: (b.text ++ rest)) =
        '|' :: Text.bare false (b.text ++ rest) := rfl
    refine ⟨u ++ '|' :: v, ?_, fun hc => ?_⟩
    · rw [text, List.append_assoc, hu, List.cons_append, hbar, hv]
      simp
    · exact ⟨hhashu fun hmem => hc (List.mem_append_left _ hmem),
        hhashv fun hmem => hc (List.mem_append_right _ (List.mem_cons_of_mem _ hmem))⟩

theorem hashless_of_bare (h : p.Proper m) (hhash : '#' ∉ Text.bare false p.text) : p.Hashless := by
  obtain ⟨u, hu, hhashless⟩ := bare_text h []
  rw [List.append_nil] at hu
  exact hhashless fun hmem => hhash (hu ▸ List.mem_append_left _ hmem)

end Phrase

theorem fillBounds_of_closed {t : Text} (h : hasOpenBound t = false) (inClass : Bool) :
    fillBounds inClass t = t := by
  fun_induction fillBounds inClass t with
  | case1 => rfl
  | case2 => rfl
  | case3 inClass c t ih =>
    simp only [hasOpenBound, Bool.or_eq_false_iff] at h
    rw [ih h.2.2]
  | case4 inClass t ih => rw [ih (Bool.or_eq_false_iff.mp h).2]
  | case5 inClass t ih => rw [ih (Bool.or_eq_false_iff.mp h).2]
  | case6 inClass t hopen ih => simp_all [hasOpenBound]
  | case7 inClass t hopen ih => rw [ih (Bool.or_eq_false_iff.mp h).2]
  | case8 inClass c t _ _ _ _ _ ih => rw [ih (Bool.or_eq_false_iff.mp h).2]

theorem withLowerBounds_eq (t : Text) : withLowerBounds t = fillBounds false t := by
  unfold withLowerBounds
  split
  · rfl
  next h => exact (fillBounds_of_closed (by simpa using h) false).symm

end Dialect

def Flags.modes (flags : Flags) : Modes where
  ignoreCase := flags.ignoreCase
  multiLine := flags.multiLine
  extended := flags.extended

theorem Flags.text_eq (flags : Flags) :
    flags.text = (if flags.multiLine then ['m'] else []) ++
      ((if flags.ignoreCase then ['i'] else []) ++ if flags.extended then ['x'] else []) := by
  obtain ⟨multiLine, ignoreCase, extended⟩ := flags
  cases multiLine <;> cases ignoreCase <;> cases extended <;> rfl

namespace Dialect

/-- The modes in front of a text are read as a group without content. -/
theorem lexemesFrom_modes {flags : Flags} (h : flags.isEmpty = false) (t : Text) :
    lexemesFrom .start 0 ('(' :: '?' :: (flags.text ++ ')' :: t)) =
      after [.opening .plain, .closing] (lexemesFrom ⟨flags.modes, [], true⟩ 0 t) := by
  have hskip : Reading.start.skip ('(' :: '?' :: (flags.text ++ ')' :: t)) =
      .ok ('(' :: '?' :: (flags.text ++ ')' :: t)) := by
    apply skipGap_cons (fun _ => by decide)
    intro _ u
    rw [flags.text_eq]
    obtain ⟨multiLine, ignoreCase, extended⟩ := flags
    cases multiLine <;> cases ignoreCase <;> cases extended <;> simp
  have hcut : Reading.start.cut '(' ('?' :: (flags.text ++ ')' :: t)) =
      .ok ⟨[.opening .plain, .closing], ⟨flags.modes, [], true⟩, t⟩ := by
    rw [flags.text_eq]
    obtain ⟨multiLine, ignoreCase, extended⟩ := flags
    cases multiLine <;> cases ignoreCase <;> cases extended <;> first | rfl | cases h
  have hsuffix : t <:+ '?' :: (flags.text ++ ')' :: t) :=
    ⟨'?' :: (flags.text ++ [')']), by simp⟩
  rw [lexemesFrom_cut hskip hcut hsuffix]

end Dialect

def Dialect.Level.behindModes (flags : Flags) : Level :=
  if flags.isEmpty then .start else .push .start (.paren .plain .empty)

theorem Dialect.Level.alike_behindModes (flags : Flags) :
    Node.Alike (behindModes flags).branch .empty ∧ (behindModes flags).branches = [] := by
  unfold behindModes
  split
  · exact ⟨.refl _, rfl⟩
  · exact ⟨.plain .empty, rfl⟩

namespace Spells

variable {flags : Flags} {t : Text} {n : Node}

theorem parse_dialectText {p : Phrase} (h : p.Proper flags.modes)
    (hhash : flags.extended = true → p.Hashless) :
    Node.parse (Pattern.dialectText p.text flags) =
      ((p.lexemes flags.modes).foldlM Stack.feed ⟨.behindModes flags, []⟩).bind Stack.finish := by
  have hbody : withLowerBounds p.text = p.filled.text := by
    have hfill := Phrase.fillBounds_text h []
    rw [List.append_nil, fillBounds, List.append_nil] at hfill
    rw [withLowerBounds_eq, hfill]
  have hlexemes := p.lexemes_filled flags.modes
  unfold Pattern.dialectText Level.behindModes
  rw [hbody]
  cases hflags : flags.isEmpty with
  | true =>
    have hmodes : flags.modes = {} := by
      have hempty : flags = .empty := by simpa [Flags.isEmpty] using hflags
      rw [hempty]
      rfl
    rw [hmodes] at h hlexemes ⊢
    have hcut := Phrase.lexemesFrom_whole (r := .start) h.filled nofun
    rw [← hlexemes, Node.parse, lexemes, if_pos rfl, if_pos rfl, hcut]
    rfl
  | false =>
    have hcut := Phrase.lexemesFrom_whole (r := ⟨flags.modes, [], true⟩) h.filled
      fun hm => (hhash hm).filled
    have hprefix : "(?".toList ++ flags.text ++ ')' :: p.filled.text =
        '(' :: '?' :: (flags.text ++ ')' :: p.filled.text) := by
      simp
    rw [← hlexemes, Node.parse, lexemes, if_neg (by decide), if_neg (by decide), hprefix,
      lexemesFrom_modes hflags, hcut]
    rfl

theorem parse_sound (h : Spells flags.modes t n)
    (hhash : flags.extended = true → '#' ∉ Text.bare false t) (hs : n.repeatsSoundly = true) :
    ∃ k, Node.parse (Pattern.dialectText t flags) = .ok k ∧ Node.Alike k n := by
  obtain ⟨p, hp, rfl, hn⟩ := h
  have hparse := parse_dialectText hp fun hm => Phrase.hashless_of_bare hp (hhash hm)
  obtain ⟨hl, hbranches⟩ := Level.alike_behindModes flags
  rw [← hn.repeatsSoundly] at hs
  obtain ⟨l', hl', htakes⟩ := Phrase.foldlM_lexemes hp hs (.behindModes flags) []
  have hnode := htakes.node hl
  rw [hbranches] at hnode
  refine ⟨l'.node, ?_, hnode.trans hn⟩
  rw [hparse, hl']
  rfl

theorem parse_unsound (h : Spells flags.modes t n)
    (hhash : flags.extended = true → '#' ∉ Text.bare false t) (hs : n.repeatsSoundly = false) :
    Node.parse (Pattern.dialectText t flags) = .error .nothingToRepeat := by
  obtain ⟨p, hp, rfl, hn⟩ := h
  have hparse := parse_dialectText hp fun hm => Phrase.hashless_of_bare hp (hhash hm)
  rw [← hn.repeatsSoundly] at hs
  rw [hparse, Phrase.foldlM_unsound hp hs _ []]
  rfl

end Spells
end PatternBuilder
