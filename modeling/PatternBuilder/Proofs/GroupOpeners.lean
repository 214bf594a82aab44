import PatternBuilder.Proofs.DialectText
import PatternBuilder.Proofs.FoldedAtoms
import PatternBuilder.Proofs.WritingAtoms

/-!
# Openers of groups

The parentheses of a text that open a group which captures, read from left to right. A text that is
complete in itself has the same openers whatever comes behind it, so the openers of a longer text
are put together from those of its parts.
-/

namespace PatternBuilder

open Dialect

namespace Text

def opener? : Text → Option (Option Text)
  | '?' :: '<' :: t =>
    match t.takeWhile isNameChar, t.dropWhile isNameChar with
    | c :: name, '>' :: _ => some (some (c :: name))
    | _, _ => none
  | '?' :: _ => none
  | _ => some none

/-- The openers outside of escape sequences and bracket expressions; `inClass` says whether the text
begins in a bracket expression. -/
def openers (inClass : Bool) : Text → List (Option Text)
  | [] => []
  | ['\\'] => []
  | '\\' :: _ :: t => openers inClass t
  | '[' :: t => openers true t
  | ']' :: t => openers false t
  | '(' :: t => (if inClass then [] else (opener? t).toList) ++ openers inClass t
  | _ :: t => openers inClass t

/-- Whatever comes behind the text, its own openers are `os`. -/
def Opens (t : Text) (os : List (Option Text)) : Prop :=
  ∀ u, openers false (t ++ u) = os ++ openers false u

theorem exists_nameEnd {s : Text} (h : ')' ∈ s) : ∃ name d rest, s = name ++ d :: rest ∧
    (∀ c ∈ name, isNameChar c = true) ∧ isNameChar d = false := by
  induction s with
  | nil => cases h
  | cons c s ih =>
    by_cases hc : isNameChar c = true
    · have hs : ')' ∈ s := by
        rcases List.mem_cons.mp h with rfl | hs
        · exact absurd hc (by decide)
        · exact hs
      obtain ⟨name, d, rest, rfl, hname, hd⟩ := ih hs
      refine ⟨c :: name, d, rest, rfl, fun e he => ?_, hd⟩
      rcases List.mem_cons.mp he with rfl | he
      · exact hc
      · exact hname e he
    · exact ⟨[], c, s, rfl, by simp, by simpa using hc⟩

theorem opener?_of_ne {c : Char} (h : c ≠ '?') (t : Text) : opener? (c :: t) = some none := by
  rw [opener?] <;> simp [h]

theorem opener?_question {c : Char} (h : c ≠ '<') (t : Text) : opener? ('?' :: c :: t) = none := by
  rw [opener?]
  simp [h]

/-- Behind a question mark no group without a name captures. -/
theorem opener?_question_ne (t : Text) : opener? ('?' :: t) ≠ some none := by
  cases t with
  | nil => exact nofun
  | cons c t =>
    by_cases hc : c = '<'
    · subst hc
      rw [opener?]
      split <;> exact nofun
    · rw [opener?_question hc]
      exact nofun

theorem namedOpener_append {s : Text} (h : ')' ∈ s) (u : Text) :
    opener? ('?' :: '<' :: (s ++ u)) = opener? ('?' :: '<' :: s) := by
  obtain ⟨name, d, rest, rfl, hname, hd⟩ := exists_nameEnd h
  have htake : ∀ v, (name ++ d :: v).takeWhile isNameChar = name := fun v => by
    rw [List.takeWhile_append_of_pos hname, List.takeWhile_cons_of_neg (by simp [hd]),
      List.append_nil]
  have hdrop : ∀ v, (name ++ d :: v).dropWhile isNameChar = d :: v := fun v => by
    rw [List.dropWhile_append_of_pos hname, List.dropWhile_cons_of_neg (by simp [hd])]
  rw [List.append_assoc, List.cons_append, opener?, opener?, htake, hdrop, htake, hdrop]
  cases name with
  | nil => rfl
  | cons c name =>
    by_cases hclose : d = '>'
    · subst hclose
      rfl
    · simp [hclose]

/-- What an opening says is decided before the group ends. -/
theorem opener?_append {s : Text} (h : ')' ∈ s) (u : Text) : opener? (s ++ u) = opener? s := by
  cases s with
  | nil => cases h
  | cons c s =>
    by_cases hc : c = '?'
    · subst hc
      cases s with
      | nil => simp at h
      | cons d s =>
        by_cases hd : d = '<'
        · subst hd
          exact namedOpener_append (by simpa using h) u
        · exact (opener?_question hd _).trans (opener?_question hd _).symm
    · exact (opener?_of_ne hc _).trans (opener?_of_ne hc _).symm

theorem openers_plain {inClass : Bool} {c : Char} (h : c ∉ ['\\', '[', ']', '(']) (t : Text) :
    openers inClass (c :: t) = openers inClass t := by
  simp only [List.mem_cons, not_or] at h
  rw [openers] <;> simp [h]

namespace Opens

variable {s t : Text} {os ps : List (Option Text)}

theorem nil : Opens [] [] := fun _ => rfl

theorem append (hs : Opens s os) (ht : Opens t ps) : Opens (s ++ t) (os ++ ps) := by
  intro u
  rw [List.append_assoc, hs, ht, List.append_assoc]

theorem eq (h : Opens t os) : openers false t = os := by
  have ht := h []
  rwa [List.append_nil, openers, List.append_nil] at ht

theorem flatMap {α : Type} {f : α → Text} {g : α → List (Option Text)} {l : List α}
    (h : ∀ x ∈ l, Opens (f x) (g x)) : Opens (l.flatMap f) (l.flatMap g) := by
  induction l with
  | nil => exact nil
  | cons x l ih =>
    have hl := ih fun y hy => h y (List.mem_cons_of_mem x hy)
    rw [List.flatMap_cons, List.flatMap_cons]
    exact (h x List.mem_cons_self).append hl

theorem cons {c : Char} (hc : c ∉ ['\\', '[', ']', '(']) (h : Opens t os) : Opens (c :: t) os := by
  intro u
  rw [List.cons_append, openers_plain hc, h]

theorem of_plain (h : ∀ c ∈ t, c ∉ ['\\', '[', ']', '(']) : Opens t [] := by
  induction t with
  | nil => exact nil
  | cons c t ih =>
    exact cons (h c List.mem_cons_self) (ih fun d hd => h d (List.mem_cons_of_mem c hd))

theorem escaped (c : Char) (h : Opens t os) : Opens ('\\' :: c :: t) os := h

/-- A pair of parentheses adds what it opens to the openers inside. -/
theorem group (h : Opens t os) :
    Opens ('(' :: t ++ [')']) ((opener? (t ++ [')'])).toList ++ os) := by
  intro u
  have hopener : opener? (t ++ ')' :: u) = opener? (t ++ [')']) := by
    rw [← opener?_append (s := t ++ [')']) (by simp) u, List.append_assoc, List.singleton_append]
  have hrest : openers false (t ++ ')' :: u) = os ++ openers false u := by
    rw [h, openers_plain (by decide)]
  rw [List.append_assoc, List.cons_append, List.singleton_append, openers, hopener, hrest]
  simp

end Opens

def marksFrom (inClass : Bool) (t : Text) : List Mark :=
  if inClass then Mark.afterBracket t else Mark.ofText t

/-- The text ends with a parenthesis, before which it closes what is open around it, and all its
openers are before that. -/
def ClosesWith (depth : Nat) (inClass : Bool) (t : Text) : Prop :=
  ∃ s, t = s ++ [')'] ∧ (depth ≠ 0 → ')' ∈ s) ∧
    ∀ u, openers inClass (s ++ u) = openers inClass t ++ openers false u

theorem ClosesWith.behind {inClass within : Bool} {t : Text} {depth : Nat} (s : Text)
    (hs : ∀ u, openers inClass (s ++ u) = openers within u) (h : ClosesWith depth within t) :
    ClosesWith depth inClass (s ++ t) := by
  obtain ⟨r, rfl, hr, hu⟩ := h
  refine ⟨s ++ r, (List.append_assoc _ _ _).symm, ?_, fun u => ?_⟩
  · intro hdepth
    exact List.mem_append_right s (hr hdepth)
  · rw [List.append_assoc, hs, hs, hu]

theorem ClosesWith.opening {t : Text} {depth : Nat} (h : ClosesWith (depth + 1) false t) :
    ClosesWith depth false ('(' :: t) := by
  obtain ⟨s, rfl, hs, hu⟩ := h
  have hinside : ')' ∈ s := hs (Nat.succ_ne_zero depth)
  refine ⟨'(' :: s, rfl, fun _ => List.mem_cons_of_mem _ hinside, fun u => ?_⟩
  rw [List.cons_append, openers, openers, hu, opener?_append hinside, opener?_append hinside]
  simp

theorem ClosesWith.closing {t : Text} {depth : Nat} (h : ClosesWith depth false t) :
    ClosesWith (depth + 1) false (')' :: t) := by
  obtain ⟨s, rfl, -, hu⟩ := h
  exact ⟨')' :: s, rfl, fun _ => List.mem_cons_self, hu⟩

theorem closesLast_cons_plain {c : Char} (h : c ∉ ['\\', '[', '(', ')']) (depth : Nat) (t : Text) :
    Mark.closesLast depth (marksFrom false (c :: t)) =
      Mark.closesLast depth (marksFrom false t) := by
  by_cases hbar : c = '|'
  · subst hbar
    simp [marksFrom, Mark.ofText, Mark.closesLast]
  · have hstructural : c ∉ Mark.structural := by
      simpa [Mark.structural, hbar] using h
    rw [marksFrom, if_neg (by decide), Mark.ofText_cons_of_plain hstructural]
    simp [marksFrom, Mark.closesLast]

/-- A scan of the text that begins inside of `depth` groups and one more, or in a bracket expression
there, leaves the outermost of them with the last character. -/
inductive Closing : Nat → Bool → Text → Prop where
  | last : Closing 0 false [')']
  | escape {depth : Nat} {inClass : Bool} {t : Text} (c : Char) (h : Closing depth inClass t) :
      Closing depth inClass ('\\' :: c :: t)
  | bracket {depth : Nat} {t : Text} (h : Closing depth true t) : Closing depth false ('[' :: t)
  | unbracket {depth : Nat} {inClass : Bool} {t : Text} (h : Closing depth false t) :
      Closing depth inClass (']' :: t)
  | opening {depth : Nat} {t : Text} (h : Closing (depth + 1) false t) :
      Closing depth false ('(' :: t)
  | closing {depth : Nat} {t : Text} (h : Closing depth false t) :
      Closing (depth + 1) false (')' :: t)
  | member {depth : Nat} {c : Char} {t : Text} (hc : c ∉ ['\\', ']']) (h : Closing depth true t) :
      Closing depth true (c :: t)
  | plain {depth : Nat} {c : Char} {t : Text} (hc : c ∉ ['\\', '[', ']', '(', ')'])
      (h : Closing depth false t) : Closing depth false (c :: t)

/-- The induction is on the openers of the text, which are read in the same way as it is scanned. -/
theorem closing_of_closesLast {inClass : Bool} {t : Text} {depth : Nat}
    (h : Mark.closesLast depth (marksFrom inClass t) = true) : Closing depth inClass t := by
  fun_induction openers inClass t generalizing depth with
  | case1 inClass => cases inClass <;> cases depth <;> cases h
  | case2 inClass => cases inClass <;> cases depth <;> cases h
  | case3 inClass c t ih =>
    have ht : Mark.closesLast depth (marksFrom inClass t) = true := by
      cases inClass with
      | false => simpa [marksFrom, Mark.ofText, Mark.afterEscape, Mark.closesLast] using h
      | true => exact h
    exact .escape c (ih ht)
  | case4 inClass t ih =>
    cases inClass with
    | false =>
      have ht : Mark.closesLast depth (marksFrom true t) = true := by
        simpa [marksFrom, Mark.ofText, Mark.closesLast] using h
      exact .bracket (ih ht)
    | true => exact .member (by decide) (ih h)
  | case5 inClass t ih =>
    have ht : Mark.closesLast depth (marksFrom false t) = true := by
      cases inClass with
      | false => simpa [marksFrom, Mark.ofText, Mark.closesLast] using h
      | true => exact h
    exact .unbracket (ih ht)
  | case6 inClass t ih =>
    cases inClass with
    | true => exact .member (by decide) (ih h)
    | false =>
      have ht : Mark.closesLast (depth + 1) (marksFrom false t) = true := by
        simpa [marksFrom, Mark.ofText, Mark.closesLast] using h
      exact .opening (ih ht)
  | case7 inClass c t hlast hescape hopen hclose hparen ih =>
    have hslash : c ≠ '\\' := by
      rintro rfl
      cases t with
      | nil => exact hlast rfl rfl
      | cons d t => exact hescape d t rfl rfl
    cases inClass with
    | true =>
      rw [marksFrom, if_pos rfl, Mark.afterBracket] at h
      · exact .member (by simpa [hslash] using hclose) (ih h)
      · exact hslash
      · exact hclose
    | false =>
      by_cases hend : c = ')'
      · subst hend
        have hmarks : marksFrom false (')' :: t) = .closing :: marksFrom false t := rfl
        rw [hmarks] at h
        cases depth with
        | zero =>
          have ht : t = [] := by
            by_contra hne
            exact Mark.ofText_ne_nil hne (List.isEmpty_iff.mp h)
          exact ht ▸ .last
        | succ depth =>
          have ht : Mark.closesLast depth (marksFrom false t) = true := h
          exact .closing (ih ht)
      · rw [closesLast_cons_plain (by simpa [hslash, hend] using ⟨hopen, hparen⟩)] at h
        exact .plain (by simpa [hslash, hend] using ⟨hopen, hclose, hparen⟩) (ih h)

theorem Closing.closesWith {inClass : Bool} {t : Text} {depth : Nat} (h : Closing depth inClass t) :
    ClosesWith depth inClass t := by
  induction h with
  | last => exact ⟨[], rfl, by simp, fun _ => rfl⟩
  | escape c _ ih => exact ih.behind ['\\', c] fun _ => rfl
  | bracket _ ih => exact ih.behind ['['] fun _ => rfl
  | unbracket _ ih => exact ih.behind [']'] fun _ => rfl
  | opening _ ih => exact ih.opening
  | closing _ ih => exact ih.closing
  | @member depth c t hc _ ih =>
    refine ih.behind [c] fun u => ?_
    by_cases hopen : c = '[' ∨ c = '('
    · rcases hopen with rfl | rfl <;> rfl
    · rw [List.singleton_append, openers_plain (by simp_all)]
  | @plain depth c t hc _ ih =>
    exact ih.behind [c] fun u => openers_plain (by simp_all) u

theorem Opens.strip {t : Text} {os : List (Option Text)} (h : Opens t os) :
    Opens t.stripGroup os := by
  unfold stripGroup
  split
  next rest =>
    split
    next hone =>
      have hrest : Mark.closesLast 0 (marksFrom false rest) = true := hone
      obtain ⟨s, rfl, -, hs⟩ := (closing_of_closesLast hrest).closesWith
      have hos : openers false (s ++ [')']) = os := h.eq
      intro u
      rw [List.dropLast_concat, hs, hos]
    next => exact h
  next => exact h

theorem openers_inClass (c : Char) (t : Text) :
    openers true (Escape.inClass [c] ++ t) = openers true t := by
  rcases escapeChar_classSpecial c with hc | ⟨hc, hplain⟩
  · rw [hc]
    rfl
  · rw [hc, List.singleton_append]
    by_cases hparen : c = '('
    · subst hparen
      rfl
    · exact openers_plain (by simp_all) t

theorem openers_memberText {a : Atom} (h : a.IsMember) (t : Text) :
    openers true (a.memberText ++ t) = openers true t := by
  cases a with
  | range r =>
    rw [Atom.memberText, List.append_assoc, List.cons_append, openers_inClass,
      openers_plain (by decide), openers_inClass]
  | char c => exact openers_inClass c t
  | literal s =>
    rw [show s = [] from h]
    rfl
  | token s =>
    obtain ⟨c, rfl, -⟩ := h
    rfl

theorem opens_bracket {as : List Atom} (h : ∀ a ∈ as, a.IsMember) :
    Opens ('[' :: as.flatMap Atom.memberText ++ [']']) [] := by
  have hmembers : ∀ u, openers true (as.flatMap Atom.memberText ++ u) = openers true u := by
    induction as with
    | nil => exact fun _ => rfl
    | cons a as ih =>
      intro u
      rw [List.flatMap_cons, List.append_assoc, openers_memberText (h a List.mem_cons_self),
        ih fun b hb => h b (List.mem_cons_of_mem a hb)]
  intro u
  rw [List.append_assoc, List.cons_append, openers, hmembers]
  rfl

theorem composes_opens : Atom.Composes fun t => Opens t [] where
  nil := .nil
  char {c} hc := by
    have hspecial : ∀ d ∈ ['\\', '[', ']', '('], d ∈ Escape.special := by decide
    exact Opens.nil.cons fun hd => hc (hspecial c hd)
  escape c := Opens.nil.escaped c
  dot := .of_plain (by decide)
  bar := .of_plain (by decide)
  bracket := opens_bracket
  append hs ht := hs.append ht

end Text
end PatternBuilder
