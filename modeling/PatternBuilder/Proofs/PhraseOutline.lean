import PatternBuilder.Proofs.Phrase

/-!
# Outlines of phrases

What a scan of the text finds out about bars and groups is what the phrase says about them.
-/

namespace PatternBuilder

open Dialect

namespace Mark

def structural : List Char := ['\\', '[', '(', ')', '|']

theorem ofText_cons_of_plain {c : Char} (h : c ∉ structural) (t : Text) :
    ofText (c :: t) = .plain :: ofText t := by
  simp only [structural, List.mem_cons, not_or] at h
  rw [ofText] <;> simp [h]

theorem ofText_append_of_plain {s : Text} (h : ∀ c ∈ s, c ∉ structural) (t : Text) :
    ofText (s ++ t) = s.map (fun _ => .plain) ++ ofText t := by
  induction s with
  | nil => rfl
  | cons c s ih =>
    have hs : ∀ d ∈ s, d ∉ structural := fun d hd => h d (List.mem_cons_of_mem c hd)
    rw [List.cons_append, ofText_cons_of_plain (h c List.mem_cons_self), ih hs]
    rfl

theorem ofText_ne_nil {t : Text} (h : t ≠ []) : ofText t ≠ [] := by
  unfold ofText
  split
  · exact absurd rfl h
  all_goals simp

theorem afterBracket_escapeChar (c : Char) (t : Text) :
    afterBracket (Escape.escapeChar Escape.classSpecial c ++ t) = afterBracket t := by
  by_cases h : c ∈ Escape.classSpecial
  · rw [Escape.escapeChar, if_pos h]
    simp [afterBracket, afterBracketEscape]
  · rw [Escape.escapeChar, if_neg h]
    simp only [Escape.classSpecial, List.mem_cons, not_or] at h
    exact afterBracket.eq_4 c t h.2.2.1 h.2.1

theorem afterBracket_inClass (c : Char) (t : Text) :
    afterBracket (Escape.inClass [c] ++ t) = afterBracket t := by
  simpa [Escape.inClass, Escape.escapeAll] using afterBracket_escapeChar c t

theorem afterBracket_member {a : Atom} (h : a.IsMember) (t : Text) :
    afterBracket (a.memberText ++ t) = afterBracket t := by
  cases a with
  | range r =>
    rw [Atom.memberText, List.append_assoc, afterBracket_inClass, List.cons_append]
    rw [afterBracket.eq_4 '-' _ (by decide) (by decide), afterBracket_inClass]
  | char c => exact afterBracket_inClass c t
  | literal s => rw [Atom.memberText, show s = [] from h, List.nil_append]
  | token s =>
    obtain ⟨c, rfl, _⟩ := h
    simp [Atom.memberText, afterBracket, afterBracketEscape]

theorem afterBracket_members {as : List Atom} (h : ∀ a ∈ as, a.IsMember) (t : Text) :
    afterBracket (as.flatMap Atom.memberText ++ ']' :: t) = ofText t := by
  induction as with
  | nil => rfl
  | cons a as ih =>
    rw [List.flatMap_cons, List.append_assoc, afterBracket_member (h a List.mem_cons_self)]
    exact ih fun b hb => h b (List.mem_cons_of_mem a hb)

theorem ofText_sign {s : Sign} (h : s.Proper) (t : Text) :
    ofText (s.text ++ t) = s.mark :: ofText t := by
  cases s with
  | bare c =>
    refine ofText_cons_of_plain ?_ t
    intro hc
    have hspecial : ∀ d ∈ structural, d ∈ Escape.special := by decide
    have hsigns : ∀ d ∈ structural, d ∉ ['.', '^', '$'] := by decide
    rcases h with h | h
    · exact h (hspecial c hc)
    · exact hsigns c hc h
  | escape c => simp [Sign.text, ofText, afterEscape, Sign.mark]
  | bracket as =>
    have hm := afterBracket_members h.1 t
    simp [Sign.text, ofText, Sign.mark, hm]

end Mark

theorem not_structural_of_isNameChar {c : Char} (h : isNameChar c = true) :
    c ∉ Mark.structural := by
  intro hc
  simp only [Mark.structural, List.mem_cons, List.not_mem_nil, or_false] at hc
  rcases hc with rfl | rfl | rfl | rfl | rfl <;> revert h <;> decide

namespace Dialect.Paren

theorem not_structural_of_mem_opening {p : Paren} (h : p.Proper) :
    ∀ c ∈ p.opening.tail, c ∉ Mark.structural := by
  rcases p with _ | _ | name | _ | ⟨behind, negated⟩
  case named =>
    intro c hc
    simp only [opening, List.tail_cons, List.cons_append, List.mem_cons, List.mem_append,
      List.not_mem_nil, or_false] at hc
    rcases hc with rfl | rfl | hc | rfl
    · decide
    · decide
    · exact not_structural_of_isNameChar (h.2 c hc)
    · decide
  case look => cases behind <;> cases negated <;> decide
  all_goals decide

end Dialect.Paren

namespace Quantifier

def signs : List Char := ['*', '+', '?', '\x7b', '\x7d', ',']

theorem isDigit_of_mem_boundText {n : Option Nat} {c : Char} (h : c ∈ boundText n) :
    c.isDigit = true := by
  cases n with
  | none => cases h
  | some n => exact isDigit_of_mem_decimal h

theorem mem_bracesText {q : Quantifier} {c : Char} (h : c ∈ q.bracesText) :
    c ∈ signs ∨ c.isDigit = true := by
  cases q with
  | exactly n =>
    simp only [bracesText, List.cons_append, List.mem_cons, List.mem_append, List.not_mem_nil,
      or_false] at h
    rcases h with rfl | h | rfl
    · exact .inl (by decide)
    · exact .inr (isDigit_of_mem_decimal h)
    · exact .inl (by decide)
  | range min max =>
    simp only [bracesText, List.cons_append, List.mem_cons, List.mem_append, List.not_mem_nil,
      or_false] at h
    rcases h with rfl | (h | rfl | h) | rfl
    · exact .inl (by decide)
    · exact .inr (isDigit_of_mem_boundText h)
    · exact .inl (by decide)
    · exact .inr (isDigit_of_mem_boundText h)
    · exact .inl (by decide)
  | _ => cases h

theorem mem_text {q : Quantifier} {c : Char} (h : c ∈ q.text) : c ∈ signs ∨ c.isDigit = true := by
  rw [text] at h
  split at h
  case h_5 => exact mem_bracesText h
  case h_1 => cases h
  all_goals
    rw [List.mem_singleton] at h
    subst h
    exact .inl (by decide)

theorem not_structural_of_mem_text {q : Quantifier} {c : Char} (h : c ∈ q.text) :
    c ∉ Mark.structural := by
  intro hc
  have hd := mem_text h
  simp only [Mark.structural, List.mem_cons, List.not_mem_nil, or_false] at hc
  rcases hc with rfl | rfl | rfl | rfl | rfl <;> revert hd <;> decide

end Quantifier

namespace Dialect.Phrase

def marks : Phrase → List Mark
  | .empty => []
  | .sign s => [s.mark]
  | .paren p body => .opening :: p.opening.tail.map (fun _ => .plain) ++ body.marks ++ [.closing]
  | .times body q => body.marks ++ q.text.map fun _ => .plain
  | .seq a b => a.marks ++ b.marks
  | .alt a b => a.marks ++ .bar :: b.marks

theorem ofText_text {m : Modes} {p : Phrase} (h : p.Proper m) (t : Text) :
    Mark.ofText (p.text ++ t) = p.marks ++ Mark.ofText t := by
  induction p generalizing t with
  | empty => rfl
  | sign s => exact Mark.ofText_sign h t
  | paren p body ih =>
    rw [paren_text_append, Mark.ofText,
      Mark.ofText_append_of_plain (Paren.not_structural_of_mem_opening h.1),
      ih h.2, Mark.ofText]
    simp [marks]
  | times body q ih =>
    rw [text, List.append_assoc, ih h.1,
      Mark.ofText_append_of_plain fun _ => Quantifier.not_structural_of_mem_text]
    simp [marks]
  | seq a b iha ihb => simp [text, marks, iha h.1.1, ihb h.2.1]
  | alt a b iha ihb =>
    have hbar : Mark.ofText ('|' :: (b.text ++ t)) = .bar :: Mark.ofText (b.text ++ t) := by
      rw [Mark.ofText]
    simp [text, marks, iha h.1, ihb h.2, hbar]

theorem marks_eq_nil {p : Phrase} {m : Modes} (h : p.Proper m) : p.marks = [] ↔ p = .empty := by
  induction p with
  | empty => simp [marks]
  | sign s => simp [marks]
  | paren p body => simp [marks]
  | times body q => simp [marks, h.2.2.2.2]
  | seq a b iha ihb => simp [marks, iha h.1.1, h.1.2.1]
  | alt a b => simp [marks]

end Dialect.Phrase

namespace Mark

theorem skip_plains {α : Type} {scan : List Mark → α}
    (h : ∀ ms, scan (.plain :: ms) = scan ms) (t : Text) (ms : List Mark) :
    scan (t.map (fun _ => .plain) ++ ms) = scan ms := by
  induction t with
  | nil => rfl
  | cons c t ih => rw [List.map_cons, List.cons_append, h, ih]

theorem closesLast_plains (depth : Nat) (t : Text) (ms : List Mark) :
    closesLast depth (t.map (fun _ => .plain) ++ ms) = closesLast depth ms :=
  skip_plains (fun _ => by rw [closesLast]) t ms

theorem barOutside_plains (depth : Nat) (t : Text) (ms : List Mark) :
    barOutside depth (t.map (fun _ => .plain) ++ ms) = barOutside depth ms :=
  skip_plains (fun _ => by rw [barOutside]) t ms

/-- A scan that looks for nothing else than parentheses on its way, and counts them. -/
structure CountsGroups (scan : Nat → List Mark → Bool) : Prop where
  opening (depth : Nat) (ms : List Mark) : scan depth (.opening :: ms) = scan (depth + 1) ms
  closing (depth : Nat) (ms : List Mark) : scan (depth + 1) (.closing :: ms) = scan depth ms
  bar (depth : Nat) (ms : List Mark) : scan depth (.bar :: ms) = scan depth ms
  bracket (depth : Nat) (ms : List Mark) : scan depth (.bracket :: ms) = scan depth ms
  plain (depth : Nat) (ms : List Mark) : scan depth (.plain :: ms) = scan depth ms

theorem countsGroups_closesLast : CountsGroups closesLast where
  opening _ _ := by rw [closesLast]
  closing _ _ := by rw [closesLast]
  bar _ _ := by rw [closesLast]
  bracket _ _ := by rw [closesLast]
  plain _ _ := by rw [closesLast]

/-- Inside of a group no bar is outside of all groups. -/
theorem countsGroups_barOutside : CountsGroups fun depth => barOutside (depth + 1) where
  opening _ _ := by rw [barOutside]
  closing _ _ := by rw [barOutside, Nat.add_sub_cancel]
  bar _ _ := by rw [barOutside]
  bracket _ _ := by rw [barOutside]
  plain _ _ := by rw [barOutside]

end Mark

namespace Dialect.Phrase

/-- A phrase closes what it opens, and nothing around it. -/
theorem skip_marks {scan : Nat → List Mark → Bool} (h : Mark.CountsGroups scan) (p : Phrase)
    (depth : Nat) (ms : List Mark) : scan depth (p.marks ++ ms) = scan depth ms := by
  induction p generalizing depth ms with
  | empty => rfl
  | sign s =>
    cases s with
    | bracket as => exact h.bracket depth ms
    | _ => exact h.plain depth ms
  | paren p body ih =>
    simp only [marks, List.cons_append, List.append_assoc, h.opening,
      Mark.skip_plains (h.plain _), ih, List.nil_append, h.closing]
  | times body q ih => simp only [marks, List.append_assoc, ih, Mark.skip_plains (h.plain _)]
  | seq a b iha ihb => simp only [marks, List.append_assoc, iha, ihb]
  | alt a b iha ihb => simp only [marks, List.append_assoc, iha, List.cons_append, h.bar, ihb]

theorem closesLast_marks (p : Phrase) (depth : Nat) (ms : List Mark) :
    Mark.closesLast depth (p.marks ++ ms) = Mark.closesLast depth ms :=
  skip_marks Mark.countsGroups_closesLast p depth ms

theorem barOutside_marks_inside (p : Phrase) (depth : Nat) (ms : List Mark) :
    Mark.barOutside (depth + 1) (p.marks ++ ms) = Mark.barOutside (depth + 1) ms :=
  skip_marks Mark.countsGroups_barOutside p depth ms

theorem hasBar_of_isSingle {p : Phrase} (h : p.IsSingle) : p.hasBar = false := by
  cases p <;> first | rfl | exact h.elim

theorem barOutside_marks {m : Modes} {p : Phrase} (h : p.Proper m) (ms : List Mark) :
    Mark.barOutside 0 (p.marks ++ ms) = (p.hasBar || Mark.barOutside 0 ms) := by
  induction p generalizing ms with
  | empty => rfl
  | sign s => cases s <;> simp [marks, Sign.mark, Mark.barOutside, hasBar]
  | paren p body ih =>
    simp only [marks, List.cons_append, List.append_assoc, Mark.barOutside,
      Mark.barOutside_plains, barOutside_marks_inside, List.nil_append, Nat.sub_self, hasBar,
      Nat.zero_add, Bool.false_or]
  | times body q ih =>
    rw [marks, List.append_assoc, ih h.1, hasBar_of_isSingle h.2.1, Mark.barOutside_plains]
    rfl
  | seq a b iha ihb =>
    rw [marks, List.append_assoc, iha h.1.1, ihb h.2.1, h.1.2.2, h.2.2.2]
    rfl
  | alt a b iha ihb =>
    simp only [marks, List.append_assoc, iha h.1, List.cons_append, Mark.barOutside, hasBar,
      Bool.or_true, Bool.true_or]

theorem hasOuterBar_text {m : Modes} {p : Phrase} (h : p.Proper m) :
    p.text.hasOuterBar = p.hasBar := by
  have htext : Mark.ofText p.text = p.marks ++ [] := by
    simpa [Mark.ofText] using ofText_text h []
  rw [Text.hasOuterBar, htext, barOutside_marks h]
  simp [Mark.barOutside]

theorem areOneGroup_marks_append {m : Modes} {p : Phrase} (h : p.Proper m) (hp : p ≠ .empty)
    {ms : List Mark} (hm : ms ≠ []) : Mark.areOneGroup (p.marks ++ ms) = false := by
  induction p generalizing ms with
  | empty => exact absurd rfl hp
  | sign s => cases s <;> rfl
  | paren p body =>
    simp only [marks, List.cons_append, List.append_assoc, Mark.areOneGroup,
      Mark.closesLast_plains, closesLast_marks, List.nil_append, Mark.closesLast]
    simpa using hm
  | times body q ih =>
    have hbody : body ≠ .empty := fun he => by rw [he] at h; exact h.2.1
    rw [marks, List.append_assoc]
    exact ih h.1 hbody (by simp [hm])
  | seq a b iha =>
    rw [marks, List.append_assoc]
    exact iha h.1.1 h.1.2.1 (by simp [hm])
  | alt a b iha =>
    by_cases ha : a = .empty
    · subst ha
      rfl
    · rw [marks, List.append_assoc]
      exact iha h.1 ha (by simp)

theorem ofText_text_eq {m : Modes} {p : Phrase} (h : p.Proper m) :
    Mark.ofText p.text = p.marks := by
  simpa [Mark.ofText] using ofText_text h []

theorem areOneGroup_marks {m : Modes} {p : Phrase} (h : p.Proper m) :
    Mark.areOneGroup p.marks = true ↔ ∃ q body, p = .paren q body := by
  constructor
  · intro hg
    cases p with
    | paren q body => exact ⟨q, body, rfl⟩
    | empty => cases hg
    | sign s => cases s <;> cases hg
    | times body q =>
      have hbody : body ≠ .empty := fun he => by rw [he] at h; exact h.2.1
      have hmarks : q.text.map (fun _ => Mark.plain) ≠ [] := by simp [h.2.2.2.2]
      have hone := areOneGroup_marks_append h.1 hbody hmarks
      exact absurd (hg.symm.trans hone) (by decide)
    | seq a b =>
      have hb : b.marks ≠ [] := fun hn => h.2.2.1 ((marks_eq_nil h.2.1).mp hn)
      exact absurd (hg.symm.trans (areOneGroup_marks_append h.1.1 h.1.2.1 hb)) (by decide)
    | alt a b =>
      by_cases ha : a = .empty
      · subst ha
        cases hg
      · have hone := areOneGroup_marks_append h.1 ha (List.cons_ne_nil Mark.bar b.marks)
        exact absurd (hg.symm.trans hone) (by decide)
  · rintro ⟨q, body, rfl⟩
    have hlast : Mark.closesLast 0 (body.marks ++ [.closing]) = true := by
      rw [closesLast_marks]
      rfl
    rw [marks, List.cons_append, List.cons_append, Mark.areOneGroup, List.append_assoc,
      Mark.closesLast_plains]
    exact hlast

theorem isUnit_eq_areOneGroup {t : Text} (hbracket : Mark.ofText t ≠ [.bracket])
    (hplain : Mark.ofText t ≠ [.plain]) (hnil : Mark.ofText t ≠ []) :
    t.isUnit = Mark.areOneGroup (Mark.ofText t) := by
  rw [Text.isUnit]
  split
  · contradiction
  · contradiction
  · contradiction
  · rfl

theorem marks_ne_singleton {m : Modes} {p : Phrase} (h : p.Proper m) (hs : ∀ s, p ≠ .sign s)
    {k : Mark} (hk : k ≠ .bar) : p.marks ≠ [k] := by
  cases p with
  | empty => simp [marks]
  | sign s => exact absurd rfl (hs s)
  | paren q body => simp [marks]
  | times body q =>
    have hbody : body.marks ≠ [] := fun hn => by
      rw [(marks_eq_nil h.1).mp hn] at h
      exact h.2.1
    simp [marks, List.append_eq_singleton_iff, hbody, h.2.2.2.2]
  | seq a b =>
    have ha : a.marks ≠ [] := fun hn => h.1.2.1 ((marks_eq_nil h.1.1).mp hn)
    have hb : b.marks ≠ [] := fun hn => h.2.2.1 ((marks_eq_nil h.2.1).mp hn)
    simp [marks, List.append_eq_singleton_iff, ha, hb]
  | alt a b => simp [marks, List.append_eq_singleton_iff, Ne.symm hk]

/-- A written quantifier repeats a unit as a whole: nothing, one sign or one pair of parentheses. -/
theorem isUnit_text {m : Modes} {p : Phrase} (h : p.Proper m) :
    p.text.isUnit = true ↔ p = .empty ∨ p.IsSingle := by
  have hmarks := ofText_text_eq h
  have hgroup : p ≠ .empty → (∀ s, p ≠ .sign s) →
      (p.text.isUnit = true ↔ ∃ q body, p = .paren q body) := by
    intro hp hs
    rw [isUnit_eq_areOneGroup, hmarks]
    · exact areOneGroup_marks h
    · rw [hmarks]
      exact marks_ne_singleton h hs (by decide)
    · rw [hmarks]
      exact marks_ne_singleton h hs (by decide)
    · rw [hmarks]
      exact fun hn => hp ((marks_eq_nil h).mp hn)
  cases p with
  | empty => simp [Text.isUnit, hmarks, marks]
  | sign s => cases s <;> simp [Text.isUnit, hmarks, marks, Sign.mark, IsSingle]
  | paren q body => simpa [IsSingle] using hgroup
  | times body q => simpa [IsSingle] using hgroup
  | seq a b => simpa [IsSingle] using hgroup
  | alt a b => simpa [IsSingle] using hgroup

theorem isOneGroup_text {m : Modes} {p : Phrase} (h : p.Proper m) :
    p.text.isOneGroup = true ↔ ∃ q body, p = .paren q body := by
  rw [Text.isOneGroup, ofText_text_eq h]
  exact areOneGroup_marks h

theorem stripGroup_plain {m : Modes} {body : Phrase} (h : body.Proper m) :
    (Phrase.paren .plain body).text.stripGroup = body.text := by
  have hproper : (Phrase.paren .plain body).Proper m := ⟨trivial, h⟩
  have hone := (isOneGroup_text hproper).mpr ⟨_, _, rfl⟩
  simp only [text, Paren.opening, List.cons_append, List.nil_append] at hone ⊢
  rw [Text.stripGroup, if_pos hone, List.dropLast_concat]

/-- Among the groups only a plain one begins like a plain one. -/
theorem plain_of_text_eq {m : Modes} {q : Paren} {body : Phrase} (h : body.Proper m) {rest : Text}
    (htext : (Phrase.paren q body).text = '(' :: '?' :: ':' :: rest) : q = .plain := by
  rcases q with _ | _ | name | _ | ⟨behind, negated⟩
  case plain => rfl
  case capture =>
    have hhead := head_not_repeating h
    simp only [text, Paren.opening, List.cons_append, List.nil_append, List.cons.injEq,
      true_and] at htext
    cases hbody : body.text with
    | nil => simp [hbody] at htext
    | cons c t =>
      rw [hbody] at htext hhead
      have hc : c = '?' := (List.cons.inj htext).1
      exact absurd (by simp [hc, repeating]) (hhead c rfl)
  case look => cases behind <;> cases negated <;> simp [text, Paren.opening] at htext
  all_goals simp [text, Paren.opening] at htext

theorem stripGroup_other {m : Modes} {p : Phrase} (h : p.Proper m)
    (hp : ∀ body, p ≠ .paren .plain body) : p.text.stripGroup = p.text := by
  unfold Text.stripGroup
  split
  next rest htext =>
    split
    next hone =>
      obtain ⟨q, body, rfl⟩ := (isOneGroup_text h).mp hone
      exact absurd (by rw [plain_of_text_eq h.2 htext]) (hp body)
    next => rfl
  next => rfl

end Dialect.Phrase
end PatternBuilder
