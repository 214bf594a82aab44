import PatternBuilder.Proofs.BracketReading
import PatternBuilder.Proofs.PhraseOutline

/-!
# Cutting generated text

The lexemes of a phrase are what its text is cut into, whatever follows, as long as that is not a
quantifier. In extended mode blanks are passed over, and a bare hash would begin a comment.
-/

namespace PatternBuilder.Dialect

theorem skipGap_suffix {extended : Bool} {g : Gap} {t u : Text}
    (h : skipGap extended g t = .ok u) : u <:+ t := by
  fun_induction skipGap extended g t with
  | case1 => cases h
  | case2 =>
    cases h
    exact List.suffix_refl _
  | case3 c t ih => exact (ih h).trans (List.suffix_cons c t)
  | case4 t ih => exact (ih h).trans (List.suffix_cons _ t)
  | case5 c t ih => exact (ih h).trans ((List.suffix_cons c t).trans (List.suffix_cons _ _))
  | case6 c t _ _ ih => exact (ih h).trans (List.suffix_cons c t)
  | case7 t ih => exact (ih h).trans ⟨['(', '?', '#'], rfl⟩
  | case8 c t _ _ ih => exact (ih h).trans (List.suffix_cons c t)
  | case9 c t _ _ _ ih => exact (ih h).trans (List.suffix_cons c t)
  | case10 c t =>
    cases h
    exact List.suffix_refl _

theorem skipGap_blanks {extended : Bool} {c : Char} {t : Text}
    (hcomment : c = '(' → ∀ u, t ≠ '?' :: '#' :: u) :
    skipGap extended .blanks (c :: t) =
      if extended && isBlank c then skipGap extended .blanks t
      else if extended && c == '#' then skipGap extended .lineComment t
      else .ok (c :: t) := by
  rw [skipGap]
  exact fun u hc ht => hcomment hc u ht

theorem skipGap_blank {c : Char} (h : isBlank c = true) (t : Text) :
    skipGap true .blanks (c :: t) = skipGap true .blanks t := by
  have hc : c ≠ '(' := fun he => by rw [he] at h; exact absurd h (by decide)
  rw [skipGap_blanks fun he => absurd he hc]
  simp [h]

theorem skipGap_cons {extended : Bool} {c : Char} {t : Text}
    (hblank : extended = true → isBlank c = false ∧ c ≠ '#')
    (hcomment : c = '(' → ∀ u, t ≠ '?' :: '#' :: u) :
    skipGap extended .blanks (c :: t) = .ok (c :: t) := by
  rw [skipGap_blanks hcomment]
  cases extended with
  | false => rfl
  | true => simp [hblank rfl]

theorem skips_lexemesFrom (r : Reading) : Skips (lexemesFrom r) where
  nil _ := by simp only [lexemesFrom]
  cons _ _ _ := by rw [lexemesFrom]

theorem lexemesFrom_skip {r : Reading} {t u : Text} (h : r.skip t = .ok u) :
    lexemesFrom r 0 t = lexemesFrom r 0 u := by
  have hsuffix := skipGap_suffix h
  cases t with
  | nil => rw [List.suffix_nil.mp hsuffix]
  | cons c t =>
    rcases List.suffix_cons_iff.mp hsuffix with rfl | hs
    · rfl
    · rw [lexemesFrom, h]
      simp only [bind, Except.bind, if_pos hs.length_le]
      exact (skips_lexemesFrom r).of_suffix hs

theorem lexemesFrom_refused {r : Reading} {c : Char} {t : Text} {e : SyntaxError}
    (hskip : r.skip (c :: t) = .error e) : lexemesFrom r 0 (c :: t) = .error e := by
  rw [lexemesFrom, hskip]
  rfl

theorem lexemesFrom_blank {r : Reading} (hr : r.modes.extended = true) {c : Char}
    (hc : isBlank c = true) (t : Text) : lexemesFrom r 0 (c :: t) = lexemesFrom r 0 t := by
  have hskip : r.skip (c :: t) = r.skip t := by
    rw [Reading.skip, hr, skipGap_blank hc, Reading.skip, hr]
  cases ht : r.skip t with
  | ok u => rw [lexemesFrom_skip ht, lexemesFrom_skip (hskip.trans ht)]
  | error e =>
    cases t with
    | nil => rw [Reading.skip, hr] at ht; cases ht
    | cons d t =>
      rw [lexemesFrom_refused (hskip.trans ht), lexemesFrom_refused ht]

def after (ls : List Lexeme) (r : Except SyntaxError (List Lexeme)) :
    Except SyntaxError (List Lexeme) := r.map (ls ++ ·)

@[simp] theorem after_nil (r : Except SyntaxError (List Lexeme)) : after [] r = r := by
  cases r <;> rfl

@[simp] theorem after_after (ks ls : List Lexeme) (r : Except SyntaxError (List Lexeme)) :
    after ks (after ls r) = after (ks ++ ls) r := by
  cases r <;> simp [after, Except.map]

theorem lexemesFrom_uncut {r : Reading} {c : Char} {t : Text} {e : SyntaxError}
    (hskip : r.skip (c :: t) = .ok (c :: t)) (hcut : r.cut c t = .error e) :
    lexemesFrom r 0 (c :: t) = .error e := by
  have hlonger : ¬(c :: t).length ≤ t.length := by simp
  rw [lexemesFrom, hskip]
  simp only [bind, Except.bind, if_neg hlonger, hcut]

theorem lexemesFrom_cut {r : Reading} {c : Char} {t : Text} {cut : Cut}
    (hskip : r.skip (c :: t) = .ok (c :: t)) (hcut : r.cut c t = .ok cut) (hrest : cut.rest <:+ t) :
    lexemesFrom r 0 (c :: t) = after cut.lexemes (lexemesFrom cut.next 0 cut.rest) := by
  have hlonger : ¬(c :: t).length ≤ t.length := by simp
  rw [lexemesFrom, hskip]
  simp only [bind, Except.bind, if_neg hlonger, hcut, (skips_lexemesFrom cut.next).of_suffix hrest]
  cases lexemesFrom cut.next 0 cut.rest <;> rfl

theorem bounds?_eq_none {r : Reading} {c : Char} (h : c ∉ Phrase.repeating) (t : Text) :
    r.bounds? c t = none := by
  simp only [Phrase.repeating, List.mem_cons, not_or] at h
  rw [Reading.bounds?] <;> simp [h]

theorem cut_eq_itemAt {r : Reading} {c : Char} (h : c ∉ Phrase.repeating) (t : Text) :
    r.cut c t = r.itemAt c t := by
  rw [Reading.cut, bounds?_eq_none h, ite_self]

theorem mem_of_shorthand {c : Char} (h : (shorthand? c).isSome = true) :
    c ∈ ['w', 'W', 'd', 'D', 's', 'S'] := by
  revert h
  unfold shorthand?
  split <;> simp

theorem escape_eq_item {r : Reading} {c : Char} (h : (Sign.escape c).Proper) {l : Lexeme}
    (hl : (Sign.escape c).lexeme? r.modes = some l) (t : Text) :
    r.escape c t = .ok (r.item [l] t) := by
  have hmem : c ∈ Escape.special ++ ['w', 'W', 'd', 'D', 's', 'S'] ++ ['t', 'A', 'z'] := by
    rcases h with h | h | h
    · exact List.mem_append_left _ (List.mem_append_left _ h)
    · exact List.mem_append_left _ (List.mem_append_right _ (mem_of_shorthand h))
    · exact List.mem_append_right _ h
  simp only [Escape.special, List.cons_append, List.nil_append, List.mem_cons, List.not_mem_nil,
    or_false] at hmem
  rcases hmem with rfl | rfl | rfl | rfl | rfl | rfl | rfl | rfl | rfl | rfl | rfl | rfl | rfl |
      rfl | rfl | rfl | rfl | rfl | rfl | rfl | rfl | rfl | rfl <;>
    cases hl <;> rfl

theorem itemAt_plain {r : Reading} {c : Char} (h : c ∉ Escape.special) (t : Text) :
    r.itemAt c t = .ok (r.item [r.modes.single c] t) := by
  simp only [Escape.special, List.mem_cons, not_or] at h
  rw [Reading.itemAt] <;> simp [h]

theorem itemAt_bare {r : Reading} {c : Char} (h : (Sign.bare c).Proper) {l : Lexeme}
    (hl : (Sign.bare c).lexeme? r.modes = some l) (t : Text) :
    r.itemAt c t = .ok (r.item [l] t) := by
  by_cases hsign : c ∈ ['.', '^', '$']
  · simp only [List.mem_cons, List.not_mem_nil, or_false] at hsign
    rcases hsign with rfl | rfl | rfl <;> cases hl <;> rfl
  · have hspecial := h.resolve_right hsign
    simp only [List.mem_cons, not_or] at hsign
    simp only [Sign.lexeme?, hsign, if_false] at hl
    split at hl
    · cases hl
    · cases hl
      exact itemAt_plain hspecial t

theorem cut_sign {r : Reading} {s : Sign} (h : s.Proper) {l : Lexeme}
    (hl : s.lexeme? r.modes = some l) (rest : Text) :
    ∃ c t, s.text = c :: t ∧ r.cut c (t ++ rest) = .ok (r.item [l] rest) := by
  cases s with
  | bare c =>
    have hc : c ∉ Phrase.repeating :=
      Phrase.head_not_repeating (m := r.modes) (p := .sign (.bare c)) h c rfl
    exact ⟨c, [], rfl, (cut_eq_itemAt hc _).trans (itemAt_bare h hl rest)⟩
  | escape c =>
    exact ⟨'\\', [c], rfl, (cut_eq_itemAt (by decide) _).trans (escape_eq_item h hl rest)⟩
  | bracket as =>
    refine ⟨'[', as.flatMap Atom.memberText ++ [']'], rfl, ?_⟩
    have hread := readBracket_members r.modes.ignoreCase h.1 h.2.1 h.2.2 rest
    cases hl
    rw [cut_eq_itemAt (by decide), List.append_assoc]
    simp only [Reading.itemAt, List.cons_append, List.nil_append, hread, bind, Except.bind]
    rfl

theorem skipGap_sign {m : Modes} {s : Sign} (h : s.Proper) (hhash : m.extended = true → s.Hashless)
    {l : Lexeme} (hl : s.lexeme? m = some l) (rest : Text) :
    skipGap m.extended .blanks (s.text ++ rest) = .ok (s.text ++ rest) := by
  cases s with
  | bare c =>
    refine skipGap_cons (fun hm => ⟨?_, hhash hm⟩) (fun hc => ?_)
    · rw [Bool.eq_false_iff]
      intro hb
      by_cases hsign : c ∈ ['.', '^', '$']
      · simp only [List.mem_cons, List.not_mem_nil, or_false] at hsign
        rcases hsign with rfl | rfl | rfl <;> exact absurd hb (by decide)
      · simp only [List.mem_cons, not_or] at hsign
        simp [Sign.lexeme?, hsign, hm, hb] at hl
    · subst hc
      simp [Sign.Proper, Escape.special] at h
  | escape c => exact skipGap_cons (fun _ => by decide) fun hc => absurd hc (by decide)
  | bracket as => exact skipGap_cons (fun _ => by decide) fun hc => absurd hc (by decide)

theorem eq_blank_of_lexeme {m : Modes} {s : Sign} (hl : s.lexeme? m = none) :
    ∃ c, s = .bare c ∧ m.extended = true ∧ isBlank c = true := by
  cases s with
  | bare c =>
    refine ⟨c, rfl, ?_⟩
    simp only [Sign.lexeme?] at hl
    split at hl
    · cases hl
    split at hl
    · cases hl
    split at hl
    · cases hl
    split at hl
    · next hb => simpa using hb
    · cases hl
  | escape c =>
    simp only [Sign.lexeme?] at hl
    split at hl <;> cases hl
  | bracket as => cases hl

theorem lexemesFrom_sign {r : Reading} {s : Sign} (h : s.Proper)
    (hhash : r.modes.extended = true → s.Hashless) (rest : Text) :
    lexemesFrom r 0 (s.text ++ rest) =
      after (s.lexeme? r.modes).toList
        (lexemesFrom { r with afterItem := r.afterItem || (s.lexeme? r.modes).isSome } 0 rest) := by
  cases hl : s.lexeme? r.modes with
  | some l =>
    have hskip := skipGap_sign h hhash hl rest
    obtain ⟨c, t, htext, hcut⟩ := cut_sign h hl rest
    rw [htext, List.cons_append] at hskip ⊢
    rw [lexemesFrom_cut hskip hcut (List.suffix_append t rest)]
    simp [Reading.item]
  | none =>
    obtain ⟨c, rfl, hm, hb⟩ := eq_blank_of_lexeme hl
    rw [Option.toList_none, after_nil, Option.isSome_none, Bool.or_false]
    exact lexemesFrom_blank hm hb rest

/-- No quantifier and no mark of one comes next, even behind blanks. -/
def CannotRepeat (m : Modes) (t : Text) : Prop :=
  ∃ u, skipGap m.extended .blanks t = .ok u ∧ ∀ c ∈ u.head?, c ∉ Phrase.repeating

theorem cannotRepeat_nil (m : Modes) : CannotRepeat m [] := ⟨[], rfl, by simp⟩

theorem cannotRepeat_cons {m : Modes} {c : Char} (hblank : isBlank c = false ∧ c ≠ '#')
    (hcomment : c ≠ '(') (hrepeat : c ∉ Phrase.repeating) (t : Text) : CannotRepeat m (c :: t) :=
  ⟨c :: t, skipGap_cons (fun _ => hblank) (fun hc => absurd hc hcomment), by simpa using hrepeat⟩

theorem cannotRepeat_blank {m : Modes} (hm : m.extended = true) {c : Char} (hc : isBlank c = true)
    {t : Text} (h : CannotRepeat m t) : CannotRepeat m (c :: t) := by
  obtain ⟨u, hu, hhead⟩ := h
  rw [hm] at hu
  exact ⟨u, by rw [hm, skipGap_blank hc, hu], hhead⟩

namespace Phrase

/-- Behind the parenthesis that opens a group does not come what would make it a comment. -/
theorem paren_not_comment {m : Modes} {p : Paren} {body : Phrase} (h : body.Proper m)
    (rest u : Text) : p.opening.tail ++ (body.text ++ ')' :: rest) ≠ '?' :: '#' :: u := by
  rcases p with _ | _ | name | _ | ⟨behind, negated⟩
  case capture =>
    intro he
    have hhead := head_not_repeating h
    cases hbody : body.text with
    | nil => simp [Paren.opening, hbody] at he
    | cons c t =>
      rw [hbody] at he hhead
      have hc : c = '?' := (List.cons.inj he).1
      exact hhead c rfl (by simp [hc, repeating])
  case look => cases behind <;> cases negated <;> simp [Paren.opening]
  all_goals simp [Paren.opening]

theorem skipGap_paren {m : Modes} {p : Paren} {body : Phrase} (h : body.Proper m) (rest : Text) :
    skipGap m.extended .blanks ((Phrase.paren p body).text ++ rest) =
      .ok ((Phrase.paren p body).text ++ rest) := by
  rw [paren_text_append]
  exact skipGap_cons (fun _ => by decide) fun _ => paren_not_comment h rest

/-- Where a phrase has no lexemes it is all blanks, and what follows comes next. -/
theorem cannotRepeat_of_silent {m : Modes} {p : Phrase} (hs : p.lexemes m = []) {rest : Text}
    (hrest : CannotRepeat m rest) : CannotRepeat m (p.text ++ rest) := by
  induction p generalizing rest with
  | empty => exact hrest
  | sign s =>
    have hl : s.lexeme? m = none := by simpa [lexemes] using hs
    obtain ⟨c, rfl, hm, hb⟩ := eq_blank_of_lexeme hl
    exact cannotRepeat_blank hm hb hrest
  | paren p body => simp [lexemes] at hs
  | times body q => simp [lexemes] at hs
  | seq a b iha ihb =>
    simp only [lexemes, List.append_eq_nil_iff] at hs
    rw [text, List.append_assoc]
    exact iha hs.1 (ihb hs.2 hrest)
  | alt a b => simp [lexemes] at hs

theorem cannotRepeat_of_lexemes {m : Modes} {p : Phrase} (h : p.Proper m)
    (hhash : m.extended = true → p.Hashless) (hl : p.lexemes m ≠ []) (rest : Text) :
    CannotRepeat m (p.text ++ rest) := by
  induction p generalizing rest with
  | empty => exact absurd rfl hl
  | sign s =>
    cases hs : s.lexeme? m with
    | none => simp [lexemes, hs] at hl
    | some l =>
      refine ⟨_, skipGap_sign h hhash hs rest, ?_⟩
      rw [List.head?_append_of_ne_nil _ s.text_ne_nil]
      exact head_not_repeating h
  | paren p body =>
    refine ⟨_, skipGap_paren h.2 rest, ?_⟩
    rw [List.head?_append_of_ne_nil _ (text_ne_nil_of_isSingle (p := .paren p body) trivial)]
    exact head_not_repeating h
  | times body q ih =>
    rw [text, List.append_assoc]
    exact ih h.1 hhash h.2.2.1 _
  | seq a b iha ihb =>
    rw [text, List.append_assoc]
    by_cases ha : a.lexemes m = []
    · have hb : b.lexemes m ≠ [] := by simpa [lexemes, ha] using hl
      exact cannotRepeat_of_silent ha (ihb h.2.1 (fun hm => (hhash hm).2) hb rest)
    · exact iha h.1.1 (fun hm => (hhash hm).1) ha _
  | alt a b iha =>
    rw [text, List.append_assoc, List.cons_append]
    by_cases ha : a.lexemes m = []
    · exact cannotRepeat_of_silent ha
        (cannotRepeat_cons (by decide) (by decide) (by decide) (b.text ++ rest))
    · exact iha h.1 (fun hm => (hhash hm).1) ha _

theorem cannotRepeat_text {m : Modes} {p : Phrase} (h : p.Proper m)
    (hhash : m.extended = true → p.Hashless) {rest : Text} (hrest : CannotRepeat m rest) :
    CannotRepeat m (p.text ++ rest) := by
  by_cases hl : p.lexemes m = []
  · exact cannotRepeat_of_silent hl hrest
  · exact cannotRepeat_of_lexemes h hhash hl rest

end Phrase

theorem name_eq {r : Reading} {name : Text} (h : IsGroupName name) (t : Text) :
    r.name (name ++ '>' :: t) = .ok ⟨[.opening (.named name)], r.opened none r.modes, t⟩ := by
  have hend : isNameChar '>' = false := by decide
  have htake : (name ++ '>' :: t).takeWhile isNameChar = name := by
    rw [List.takeWhile_append_of_pos h.2, List.takeWhile_cons_of_neg (by simp [hend]),
      List.append_nil]
  have hdrop : (name ++ '>' :: t).dropWhile isNameChar = '>' :: t := by
    rw [List.dropWhile_append_of_pos h.2, List.dropWhile_cons_of_neg (by simp [hend])]
  rw [Reading.name, htake, hdrop]
  cases hname : name with
  | nil => exact absurd hname h.1
  | cons c name => rfl

theorem group_of_named {r : Reading} {name : Text} (h : IsGroupName name) (t : Text) :
    r.group ('?' :: '<' :: (name ++ '>' :: t)) =
      .ok ⟨[.opening (.named name)], r.opened none r.modes, t⟩ := by
  have hname := name_eq (r := r) h t
  obtain ⟨hne, hchars⟩ := h
  cases name with
  | nil => exact absurd rfl hne
  | cons c name =>
    have hc := hchars c List.mem_cons_self
    have hequal : c ≠ '=' := fun he => by rw [he] at hc; exact absurd hc (by decide)
    have hbang : c ≠ '!' := fun he => by rw [he] at hc; exact absurd hc (by decide)
    rw [List.cons_append] at hname ⊢
    rw [Reading.group]
    · exact hname
    · exact fun _ he => hequal (List.cons.inj he).1
    · exact fun _ he => hbang (List.cons.inj he).1

theorem group_of_capture {r : Reading} {t : Text} (h : ∀ c ∈ t.head?, c ∉ Phrase.repeating) :
    r.group t = .ok ⟨[.opening .capture], r.opened none r.modes, t⟩ := by
  have hne : ∀ u, t ≠ '?' :: u := fun u he => h '?' (by simp [he]) (by decide)
  unfold Reading.group
  split <;> first | rfl | exact absurd rfl (hne _)

theorem group_opening {r : Reading} {p : Paren} (hp : p.Proper) {t : Text}
    (ht : CannotRepeat r.modes t) :
    ∃ outside u, (do r.group (← r.skip (p.opening.tail ++ t))) =
        .ok ⟨[.opening p], r.opened outside r.modes, u⟩ ∧
      outside.getD r.modes = r.modes ∧ (u = t ∨ r.skip t = .ok u) := by
  obtain ⟨u, hu, hhead⟩ := ht
  have hskip : ∀ s, r.skip ('?' :: s) = .ok ('?' :: s) := fun s =>
    skipGap_cons (fun _ => by decide) fun hc => absurd hc (by decide)
  rcases p with _ | _ | name | _ | ⟨behind, negated⟩
  case plain =>
    refine ⟨some r.modes, t, ?_, rfl, .inl rfl⟩
    simp [Paren.opening, hskip, bind, Except.bind, Reading.group, Reading.modeChange]
  case capture =>
    refine ⟨none, u, ?_, rfl, .inr hu⟩
    change Except.bind (r.skip t) r.group = _
    rw [Reading.skip, hu]
    exact group_of_capture hhead
  case named =>
    refine ⟨none, t, ?_, rfl, .inl rfl⟩
    have htext : (Paren.named name).opening.tail ++ t = '?' :: '<' :: (name ++ '>' :: t) := by
      simp [Paren.opening]
    rw [htext, hskip]
    exact group_of_named hp t
  case atomic =>
    refine ⟨none, t, ?_, rfl, .inl rfl⟩
    simp [Paren.opening, hskip, bind, Except.bind, Reading.group]
  case look =>
    refine ⟨none, t, ?_, rfl, .inl rfl⟩
    cases behind <;> cases negated <;>
      simp [Paren.opening, hskip, bind, Except.bind, Reading.group]

theorem lexemesFrom_opening {r : Reading} {p : Paren} (hp : p.Proper) {body : Phrase}
    (h : body.Proper r.modes) (hhash : r.modes.extended = true → body.Hashless) (rest : Text) :
    ∃ outside, outside.getD r.modes = r.modes ∧
      lexemesFrom r 0 ((Phrase.paren p body).text ++ rest) =
        after [.opening p]
          (lexemesFrom (r.opened outside r.modes) 0 (body.text ++ ')' :: rest)) := by
  have hfollow : CannotRepeat r.modes (body.text ++ ')' :: rest) :=
    Phrase.cannotRepeat_text h hhash (cannotRepeat_cons (by decide) (by decide) (by decide) rest)
  have hskip := Phrase.skipGap_paren (p := p) h rest
  obtain ⟨outside, u, hgroup, houtside, hu⟩ := group_opening hp hfollow
  have hcut : r.cut '(' (p.opening.tail ++ (body.text ++ ')' :: rest)) =
      .ok ⟨[.opening p], r.opened outside r.modes, u⟩ := by
    rw [cut_eq_itemAt (by decide)]
    exact hgroup
  have hrest : u <:+ p.opening.tail ++ (body.text ++ ')' :: rest) := by
    rcases hu with rfl | hu
    · exact List.suffix_append _ _
    · exact (skipGap_suffix hu).trans (List.suffix_append _ _)
  refine ⟨outside, houtside, ?_⟩
  rw [Phrase.paren_text_append] at hskip ⊢
  rw [lexemesFrom_cut hskip hcut hrest]
  rcases hu with rfl | hu
  · rfl
  · rw [lexemesFrom_skip (r := r.opened outside r.modes) hu]

theorem lexemesFrom_closing (r : Reading) (rest : Text) :
    lexemesFrom r 0 (')' :: rest) = after [.closing] (lexemesFrom r.closed 0 rest) := by
  have hskip : r.skip (')' :: rest) = .ok (')' :: rest) :=
    skipGap_cons (fun _ => by decide) fun hc => absurd hc (by decide)
  exact lexemesFrom_cut hskip (cut_eq_itemAt (by decide) rest) (List.suffix_refl rest)

theorem closed_opened {r : Reading} {outside : Option Modes}
    (h : outside.getD r.modes = r.modes) (b : Bool) :
    Reading.closed { r.opened outside r.modes with afterItem := b } =
      { r with afterItem := true } := by
  simp [Reading.opened, Reading.closed, h]

theorem lexemesFrom_bar (r : Reading) (rest : Text) :
    lexemesFrom r 0 ('|' :: rest) =
      after [.bar] (lexemesFrom { r with afterItem := false } 0 rest) := by
  have hskip : r.skip ('|' :: rest) = .ok ('|' :: rest) :=
    skipGap_cons (fun _ => by decide) fun hc => absurd hc (by decide)
  exact lexemesFrom_cut hskip (cut_eq_itemAt (by decide) rest) (List.suffix_refl rest)

theorem skip_of_sign {r : Reading} {c : Char} (h : c ∈ Quantifier.signs) (t : Text) :
    r.skip (c :: t) = .ok (c :: t) := by
  have hsigns : ∀ d ∈ Quantifier.signs, (isBlank d = false ∧ d ≠ '#') ∧ d ≠ '(' := by decide
  exact skipGap_cons (fun _ => (hsigns c h).1) fun hc => absurd hc (hsigns c h).2

theorem skip_decimal (r : Reading) (n : Nat) (t : Text) :
    r.skip (decimal n ++ t) = .ok (decimal n ++ t) := by
  cases hn : decimal n with
  | nil => exact absurd hn (decimal_ne_nil n)
  | cons c ds =>
    have hc : c.isDigit = true := isDigit_of_mem_decimal (n := n) (by simp [hn])
    have hne : ∀ d, d.isDigit = false → c ≠ d := fun d hd he => by
      rw [he, hd] at hc
      cases hc
    refine skipGap_cons (fun _ => ⟨?_, hne '#' (by decide)⟩) fun hc =>
      absurd hc (hne '(' (by decide))
    simp [isBlank, hne ' ' (by decide), hne '\t' (by decide), hne '\n' (by decide),
      hne '\r' (by decide)]

theorem readNumber?_decimal {n : Nat} (hn : n ≤ noBound) {c : Char} (hc : c.isDigit = false)
    (t : Text) : readNumber? (decimal n ++ c :: t) = some (n, c :: t) := by
  have hdigits : ∀ d ∈ decimal n, d.isDigit = true := fun d => isDigit_of_mem_decimal
  have htake : (decimal n ++ c :: t).takeWhile Char.isDigit = decimal n := by
    rw [List.takeWhile_append_of_pos hdigits, List.takeWhile_cons_of_neg (by simp [hc]),
      List.append_nil]
  have hdrop : (decimal n ++ c :: t).dropWhile Char.isDigit = c :: t := by
    rw [List.dropWhile_append_of_pos hdigits, List.dropWhile_cons_of_neg (by simp [hc])]
  have hfits : ¬(decimal n = [] ∨ noBound < n) := by simp [decimal_ne_nil, Nat.not_lt.mpr hn]
  rw [readNumber?, htake, hdrop, ofDigitChars_decimal]
  exact if_neg hfits

theorem head_decimal_ne_comma (n : Nat) (t : Text) :
    ((decimal n ++ t).head? == some ',') = false := by
  rw [List.head?_append_of_ne_nil _ (decimal_ne_nil n), beq_eq_false_iff_ne]
  intro hc
  exact absurd (isDigit_of_mem_decimal (List.mem_of_mem_head? hc)) (by decide)

theorem braces?_one (r : Reading) {n : Nat} (hn : n ≤ noBound) (rest : Text) :
    r.braces? (decimal n ++ '\x7d' :: rest) = some (n, upperBound n, rest) := by
  have hbrace := skip_of_sign (r := r) (c := '\x7d') (by decide) rest
  have hread := readNumber?_decimal hn (c := '\x7d') (by decide) rest
  simp only [Reading.braces?, skip_decimal, head_decimal_ne_comma, Bool.false_eq_true, if_false,
    hread, hbrace, Except.toOption, bind, Option.bind]

theorem readUpper {max : Option Nat} (hmax : ∀ n ∈ max, n ≤ noBound) (rest : Text) :
    (readNumber? (Quantifier.boundText max ++ '\x7d' :: rest)).getD
        (noBound, Quantifier.boundText max ++ '\x7d' :: rest) =
      (max.getD noBound, '\x7d' :: rest) := by
  cases max with
  | none => simp [Quantifier.boundText, readNumber?]
  | some n =>
    have hread := readNumber?_decimal (hmax n rfl) (c := '\x7d') (by decide) rest
    simp [Quantifier.boundText, hread]

theorem skip_bound (r : Reading) (n : Option Nat) {c : Char} (hc : c ∈ Quantifier.signs)
    (t : Text) :
    r.skip (Quantifier.boundText n ++ c :: t) = .ok (Quantifier.boundText n ++ c :: t) := by
  cases n with
  | none => exact skip_of_sign hc t
  | some n => exact skip_decimal r n _

theorem braces?_two (r : Reading) {min max : Option Nat} (hmin : ∀ n ∈ min, n ≤ noBound)
    (hmax : ∀ n ∈ max, n ≤ noBound) (rest : Text) :
    r.braces? (Quantifier.boundText min ++ ',' :: (Quantifier.boundText max ++ '\x7d' :: rest)) =
      some (min.getD 0, upperBound (max.getD noBound), rest) := by
  have hupper := skip_bound r max (c := '\x7d') (by decide) rest
  have hread := readUpper hmax rest
  have hcomma := skip_of_sign (r := r) (c := ',') (by decide)
    (Quantifier.boundText max ++ '\x7d' :: rest)
  have hbrace := skip_of_sign (r := r) (c := '\x7d') (by decide) rest
  cases min with
  | none =>
    change r.braces? (',' :: (Quantifier.boundText max ++ '\x7d' :: rest)) = _
    simp only [Reading.braces?, hcomma, hupper, hread, hbrace, Except.toOption, bind, Option.bind]
    rfl
  | some n =>
    have hn := readNumber?_decimal (hmin n rfl) (c := ',') (by decide)
      (Quantifier.boundText max ++ '\x7d' :: rest)
    change r.braces? (decimal n ++ ',' :: (Quantifier.boundText max ++ '\x7d' :: rest)) = _
    simp only [Reading.braces?, skip_decimal, head_decimal_ne_comma, Bool.false_eq_true, if_false,
      hn, hcomma, hupper, hread, hbrace, Except.toOption, bind, Option.bind]
    rfl

theorem bracesText_bounds (r : Reading) {q : Quantifier} (hq : q.Fits) (hne : q.bracesText ≠ []) :
    ∃ t, q.bracesText = '\x7b' :: t ∧
      ∀ rest, r.braces? (t ++ rest) = some (q.lower, q.upper.bind upperBound, rest) := by
  cases q with
  | exactly n =>
    refine ⟨decimal n ++ ['\x7d'], rfl, fun rest => ?_⟩
    rw [List.append_assoc]
    exact braces?_one r hq.1 rest
  | range min max =>
    have hmin : ∀ n ∈ min, n ≤ noBound := fun n hn => by
      cases hn
      exact hq.1
    have hmax : ∀ n ∈ max, n ≤ noBound := hq.2
    refine ⟨Quantifier.boundText min ++ ',' :: (Quantifier.boundText max ++ ['\x7d']), ?_,
      fun rest => ?_⟩
    · simp [Quantifier.bracesText]
    · rw [List.append_assoc, List.cons_append, List.append_assoc, List.singleton_append,
        braces?_two r hmin hmax rest]
      cases max <;> rfl
  | _ => exact absurd rfl hne

theorem bounds?_text (r : Reading) {q : Quantifier} (hq : q.Fits) (hne : q.text ≠ []) :
    ∃ c t, q.text = c :: t ∧ c ∈ Quantifier.signs ∧
      ∀ rest, r.bounds? c (t ++ rest) = some (q.lower, q.upper.bind upperBound, rest) := by
  unfold Quantifier.text at *
  split at hne
  next => exact absurd rfl hne
  next hlower hupper => exact ⟨'+', [], rfl, by decide, fun rest => by rw [hlower, hupper]; rfl⟩
  next hlower hupper => exact ⟨'*', [], rfl, by decide, fun rest => by rw [hlower, hupper]; rfl⟩
  next hlower hupper => exact ⟨'?', [], rfl, by decide, fun rest => by rw [hlower, hupper]; rfl⟩
  next =>
    obtain ⟨t, htext, hbounds⟩ := bracesText_bounds r hq hne
    exact ⟨'\x7b', t, htext, by decide, hbounds⟩

theorem quantifier_eq {r : Reading} {t u : Text} (hu : r.skip t = .ok u)
    (hhead : ∀ c ∈ u.head?, c ∉ Phrase.repeating) (min : Nat) (max : Option Nat) :
    r.quantifier min max t =
      .ok ⟨[.quantifier min max (!r.modes.reluctant) false], { r with afterItem := false }, u⟩ := by
  have hmark : (u.head? == some '?') = false := by
    rw [beq_eq_false_iff_ne]
    exact fun he => hhead '?' he (by decide)
  have hplus : (u.head? == some '+') = false := by
    rw [beq_eq_false_iff_ne]
    exact fun he => hhead '+' he (by decide)
  simp only [Reading.quantifier, hu, bind, Except.bind, hmark, hplus, Bool.false_eq_true, if_false,
    Bool.false_beq]
  rfl

theorem lexemesFrom_quantifier {r : Reading} (hr : r.afterItem = true) {q : Quantifier}
    (hq : q.Fits) (hne : q.text ≠ []) {rest : Text} (hrest : CannotRepeat r.modes rest) :
    lexemesFrom r 0 (q.text ++ rest) =
      after [.quantifier q.lower (q.upper.bind upperBound) (!r.modes.reluctant) false]
        (lexemesFrom { r with afterItem := false } 0 rest) := by
  obtain ⟨c, t, htext, hc, hbounds⟩ := bounds?_text r hq hne
  obtain ⟨u, hu, hhead⟩ := hrest
  have hcut := quantifier_eq (r := r) hu hhead q.lower (q.upper.bind upperBound)
  have hsuffix : u <:+ t ++ rest := (skipGap_suffix hu).trans (List.suffix_append t rest)
  have hnext := lexemesFrom_skip (r := { r with afterItem := false }) hu
  have hfirst : r.cut c (t ++ rest) = r.quantifier q.lower (q.upper.bind upperBound) rest := by
    rw [Reading.cut, if_pos hr, hbounds]
  rw [htext, List.cons_append, hnext]
  exact lexemesFrom_cut (skip_of_sign hc _) (hfirst.trans hcut) hsuffix

namespace Phrase

/-- Whether something to repeat comes last, when `before` says so of what stands before. -/
def endsInItem (m : Modes) (before : Bool) : Phrase → Bool
  | .empty => before
  | .sign s => before || (s.lexeme? m).isSome
  | .paren _ _ => true
  | .times _ _ => false
  | .seq a b => b.endsInItem m (a.endsInItem m before)
  | .alt _ b => b.endsInItem m false

theorem endsInItem_of_isSingle {m : Modes} {p : Phrase} (h : p.IsSingle) (hl : p.lexemes m ≠ [])
    (before : Bool) : p.endsInItem m before = true := by
  cases p with
  | sign s =>
    cases hs : s.lexeme? m with
    | none => simp [lexemes, hs] at hl
    | some l => simp [endsInItem, hs]
  | paren p body => rfl
  | _ => exact h.elim

/-- The text of a phrase is cut into its lexemes. Only what stands alone may be followed by a
quantifier. -/
theorem lexemesFrom_text {r : Reading} {p : Phrase} (h : p.Proper r.modes)
    (hhash : r.modes.extended = true → p.Hashless) {rest : Text}
    (hrest : ¬p.IsSingle → CannotRepeat r.modes rest) :
    lexemesFrom r 0 (p.text ++ rest) =
      after (p.lexemes r.modes)
        (lexemesFrom { r with afterItem := p.endsInItem r.modes r.afterItem } 0 rest) := by
  induction p generalizing r rest with
  | empty => exact (after_nil _).symm
  | sign s => exact lexemesFrom_sign h hhash rest
  | paren p body ih =>
    obtain ⟨outside, houtside, hopening⟩ := lexemesFrom_opening (p := p) h.1 h.2 hhash rest
    have hcannot : CannotRepeat r.modes (')' :: rest) :=
      cannotRepeat_cons (by decide) (by decide) (by decide) rest
    have hbody := ih (r := r.opened outside r.modes) h.2 hhash fun _ => hcannot
    rw [hopening, hbody, lexemesFrom_closing, closed_opened houtside]
    simp [lexemes, endsInItem, Reading.opened]
  | times body q ih =>
    obtain ⟨hbody, hsingle, hl, hfits, hq⟩ := h
    have hquantifier := lexemesFrom_quantifier (r := { r with afterItem := true }) rfl hfits hq
      (hrest id)
    rw [text, List.append_assoc, ih hbody hhash fun hn => absurd hsingle hn,
      endsInItem_of_isSingle hsingle hl, hquantifier, after_after]
    rfl
  | seq a b iha ihb =>
    have hfollow : CannotRepeat r.modes (b.text ++ rest) :=
      cannotRepeat_text h.2.1 (fun hm => (hhash hm).2) (hrest id)
    have hb := ihb (r := { r with afterItem := a.endsInItem r.modes r.afterItem }) h.2.1
      (fun hm => (hhash hm).2) fun _ => hrest id
    rw [text, List.append_assoc, iha h.1.1 (fun hm => (hhash hm).1) fun _ => hfollow, hb,
      after_after]
    rfl
  | alt a b iha ihb =>
    have hfollow : CannotRepeat r.modes ('|' :: (b.text ++ rest)) :=
      cannotRepeat_cons (by decide) (by decide) (by decide) _
    have hb := ihb (r := { r with afterItem := false }) h.2 (fun hm => (hhash hm).2)
      fun _ => hrest id
    rw [text, List.append_assoc, List.cons_append,
      iha h.1 (fun hm => (hhash hm).1) fun _ => hfollow, lexemesFrom_bar, hb, after_after,
      after_after]
    simp [lexemes, endsInItem]

theorem lexemesFrom_whole {r : Reading} {p : Phrase} (h : p.Proper r.modes)
    (hhash : r.modes.extended = true → p.Hashless) :
    lexemesFrom r 0 p.text = .ok (p.lexemes r.modes) := by
  have hcut := lexemesFrom_text h hhash fun _ => cannotRepeat_nil r.modes
  rw [List.append_nil] at hcut
  rw [hcut, lexemesFrom]
  simp [after, Except.map]

end Phrase
end PatternBuilder.Dialect
