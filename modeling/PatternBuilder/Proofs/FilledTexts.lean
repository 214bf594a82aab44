import Mathlib.Data.List.TakeWhile
import PatternBuilder.Proofs.DialectText

/-!
# Filled texts

A text and the text with lower bounds filled in are read side by side. A marked text stands for
both: a mark at a character puts a zero in front of it.
-/

namespace PatternBuilder.Dialect

theorem head?_fillBounds (inClass : Bool) (t : Text) : (fillBounds inClass t).head? = t.head? := by
  fun_cases fillBounds inClass t <;> rfl

theorem fillBounds_idem (inClass : Bool) (t : Text) :
    fillBounds inClass (fillBounds inClass t) = fillBounds inClass t := by
  fun_induction fillBounds inClass t with
  | case1 => rfl
  | case2 => rfl
  | case3 inClass c t ih => rw [fillBounds, ih]
  | case4 inClass t ih => rw [fillBounds, ih]
  | case5 inClass t ih => rw [fillBounds, ih]
  | case6 inClass t hopen ih =>
    have hzero : fillBounds inClass ('0' :: fillBounds inClass t) =
        '0' :: fillBounds inClass t := by rw [fillBounds, ih] <;> simp
    rw [fillBounds, hzero]
    simp
  | case7 inClass t hopen ih => rw [fillBounds, head?_fillBounds, if_neg hopen, ih]
  | case8 inClass c t hsingle hpair hopen hclose hbrace ih =>
    have hslash : c ≠ '\\' := by
      intro hc
      cases t with
      | nil => exact hsingle hc rfl
      | cons d t => exact hpair d t hc rfl
    rw [fillBounds, ih] <;> simp_all

theorem withLowerBounds_idem (t : Text) :
    withLowerBounds (withLowerBounds t) = withLowerBounds t := by
  simp only [withLowerBounds_eq, fillBounds_idem]

/-- A text with marks: a zero is written in front of the characters that are marked. -/
abbrev Marked := List (Char × Bool)

namespace Marked

def text (m : Marked) : Text := m.map Prod.fst

def filled : Marked → Text
  | [] => []
  | (c, zero) :: m => (if zero then ['0'] else []) ++ c :: filled m

@[simp] theorem text_nil : text [] = [] := rfl

@[simp] theorem text_cons (c : Char) (zero : Bool) (m : Marked) :
    text ((c, zero) :: m) = c :: text m := rfl

@[simp] theorem filled_nil : filled [] = [] := rfl

@[simp] theorem filled_false (c : Char) (m : Marked) : filled ((c, false) :: m) = c :: filled m :=
  rfl

@[simp] theorem filled_true (c : Char) (m : Marked) :
    filled ((c, true) :: m) = '0' :: c :: filled m := rfl

theorem text_length (m : Marked) : (text m).length = m.length := List.length_map _

theorem text_suffix {m n : Marked} (h : n <:+ m) : text n <:+ text m := h.map Prod.fst

theorem filled_append (m n : Marked) : filled (m ++ n) = filled m ++ filled n := by
  induction m with
  | nil => rfl
  | cons p m ih => simp [filled, ih]

theorem filled_suffix {m n : Marked} (h : n <:+ m) : filled n <:+ filled m := by
  obtain ⟨k, rfl⟩ := h
  exact ⟨filled k, (filled_append k n).symm⟩

/-- The marks are where they can be behind the character `before`: a zero comes between an opening
brace and a comma. -/
def Fits (before : Char) : Marked → Prop
  | [] => True
  | (c, zero) :: m => (zero = true → before = '\x7b' ∧ c = ',') ∧ Fits c m

def IsFree (m : Marked) : Prop := ∀ before, Fits before m

theorem isFree_nil : IsFree [] := fun _ => trivial

theorem Fits.isFree {before : Char} {m : Marked} (h : Fits before m) (hb : before ≠ '\x7b') :
    IsFree m := by
  intro d
  cases m with
  | nil => trivial
  | cons p m => exact ⟨fun hzero => absurd (h.1 hzero).1 hb, h.2⟩

theorem Fits.isFree_or_comma {before : Char} {m : Marked} (h : Fits before m) :
    IsFree m ∨ before = '\x7b' ∧ ∃ n, m = (',', true) :: n ∧ IsFree n := by
  rcases m with _ | ⟨⟨c, _ | _⟩, m⟩
  · exact .inl isFree_nil
  · exact .inl fun d => ⟨nofun, h.2⟩
  · obtain ⟨hb, rfl⟩ := h.1 rfl
    exact .inr ⟨hb, m, rfl, h.2.isFree (by decide)⟩

theorem IsFree.cases {m : Marked} (h : IsFree m) :
    m = [] ∨ ∃ c n, m = (c, false) :: n ∧ Fits c n := by
  rcases m with _ | ⟨⟨c, _ | _⟩, m⟩
  · exact .inl rfl
  · exact .inr ⟨c, m, rfl, (h c).2⟩
  · exact absurd ((h 'x').1 rfl).1 (by decide)

theorem IsFree.tail {c : Char} {m : Marked} (h : IsFree ((c, false) :: m)) : Fits c m := (h c).2

theorem IsFree.head? {m : Marked} (h : IsFree m) : (filled m).head? = (text m).head? := by
  obtain rfl | ⟨c, n, rfl, _⟩ := h.cases <;> rfl

/-- As far as there are no braces, both texts are the same. -/
theorem IsFree.takeWhile {p : Char → Bool} (hp : p '\x7b' = false) {m : Marked} (h : IsFree m) :
    ∃ n, n <:+ m ∧ IsFree n ∧ (filled m).takeWhile p = (text m).takeWhile p ∧
      (text m).dropWhile p = text n ∧ (filled m).dropWhile p = filled n := by
  induction m with
  | nil => exact ⟨[], List.suffix_refl _, h, rfl, rfl, rfl⟩
  | cons q m ih =>
    obtain ⟨c, n, heq, hfits⟩ := h.cases.resolve_left (List.cons_ne_nil q m)
    obtain ⟨rfl, rfl⟩ := List.cons.inj heq
    by_cases hc : p c = true
    · have hne : c ≠ '\x7b' := by
        rintro rfl
        exact absurd hc (by simp [hp])
      obtain ⟨k, hk, hfree, htake, hdrop, hdrop'⟩ := ih (hfits.isFree hne)
      refine ⟨k, hk.trans (List.suffix_cons _ m), hfree, ?_, ?_, ?_⟩
      · simp [hc, htake]
      · simp [hc, hdrop]
      · simp [hc, hdrop']
    · exact ⟨(c, false) :: m, List.suffix_refl _, h, by simp [hc], by simp [hc], by simp [hc]⟩

end Marked

/-- The text with the marks that filling in bounds would put; `brace` says that bounds can begin
with the first character. -/
def zeros (inClass brace : Bool) : Text → Marked
  | [] => []
  | ['\\'] => [('\\', false)]
  | '\\' :: c :: t => ('\\', false) :: (c, false) :: zeros inClass false t
  | '[' :: t => ('[', false) :: zeros true false t
  | ']' :: t => (']', false) :: zeros false false t
  | '\x7b' :: t => ('\x7b', false) :: zeros inClass (!inClass) t
  | c :: t => (c, brace && c == ',') :: zeros inClass false t

theorem text_zeros (inClass brace : Bool) (t : Text) :
    Marked.text (zeros inClass brace t) = t := by
  fun_induction zeros inClass brace t <;> simp_all

theorem filled_zeros (inClass brace : Bool) (t : Text) :
    Marked.filled (zeros inClass brace t) =
      (if brace && t.head? == some ',' then ['0'] else []) ++ fillBounds inClass t := by
  fun_induction zeros inClass brace t with
  | case1 => simp [fillBounds]
  | case2 => simp [fillBounds]
  | case3 inClass brace c t ih => simp [fillBounds, ih]
  | case4 inClass brace t ih => simp [fillBounds, ih]
  | case5 inClass brace t ih => simp [fillBounds, ih]
  | case6 inClass brace t ih =>
    rw [fillBounds]
    cases hopen : !inClass && t.head? == some ',' <;> simp [ih, hopen]
  | case7 inClass brace c t _ _ _ _ _ ih =>
    rw [fillBounds] <;> simp_all [Marked.filled]

theorem fits_zeros (inClass brace : Bool) (t : Text) {before : Char}
    (hb : brace = true → before = '\x7b') : Marked.Fits before (zeros inClass brace t) := by
  fun_induction zeros inClass brace t generalizing before with
  | case1 => trivial
  | case2 => exact ⟨nofun, trivial⟩
  | case3 inClass brace c t ih => exact ⟨nofun, nofun, ih nofun⟩
  | case4 inClass brace t ih => exact ⟨nofun, ih nofun⟩
  | case5 inClass brace t ih => exact ⟨nofun, ih nofun⟩
  | case6 inClass brace t ih => exact ⟨nofun, ih fun _ => rfl⟩
  | case7 inClass brace c t _ _ _ _ _ ih =>
    refine ⟨fun hzero => ?_, ih nofun⟩
    simp only [Bool.and_eq_true, beq_iff_eq] at hzero
    exact ⟨hb hzero.1, hzero.2⟩

inductive Likewise {ε α β : Type} (R : α → β → Prop) : Except ε α → Except ε β → Prop where
  | error (e : ε) : Likewise R (.error e) (.error e)
  | ok {a : α} {b : β} (h : R a b) : Likewise R (.ok a) (.ok b)

namespace Likewise

variable {ε α β γ δ : Type} {R : α → β → Prop} {S : γ → δ → Prop} {x : Except ε α} {y : Except ε β}

theorem bind {f : α → Except ε γ} {g : β → Except ε δ} (h : Likewise R x y)
    (hfg : ∀ a b, R a b → Likewise S (f a) (g b)) : Likewise S (x >>= f) (y >>= g) := by
  cases h with
  | error e => exact .error e
  | ok h => exact hfg _ _ h

theorem mono {R' : α → β → Prop} (h : Likewise R x y) (hR : ∀ a b, R a b → R' a b) :
    Likewise R' x y := by
  cases h with
  | error e => exact .error e
  | ok h => exact .ok (hR _ _ h)

theorem cases (h : Likewise R x y) :
    (∃ e, x = .error e ∧ y = .error e) ∨ ∃ a b, x = .ok a ∧ y = .ok b ∧ R a b := by
  cases h with
  | error e => exact .inl ⟨e, rfl, rfl⟩
  | ok h => exact .inr ⟨_, _, rfl, rfl, h⟩

theorem error_iff (h : Likewise R x y) (e : ε) : y = .error e ↔ x = .error e := by
  cases h with
  | error d => simp
  | ok h => simp

end Likewise

section Option

variable {α β γ δ : Type} {R : α → β → Prop} {x : Option α} {y : Option β}

theorem rel_mono {S : α → β → Prop} (h : Option.Rel R x y) (hRS : ∀ a b, R a b → S a b) :
    Option.Rel S x y := by
  cases h with
  | some h => exact .some (hRS _ _ h)
  | none => exact .none

theorem rel_cases (h : Option.Rel R x y) :
    x = none ∧ y = none ∨ ∃ a b, x = some a ∧ y = some b ∧ R a b := by
  cases h with
  | some h => exact .inr ⟨_, _, rfl, rfl, h⟩
  | none => exact .inl ⟨rfl, rfl⟩

theorem rel_bind {S : γ → δ → Prop} {f : α → Option γ} {g : β → Option δ} (h : Option.Rel R x y)
    (hfg : ∀ a b, R a b → Option.Rel S (f a) (g b)) : Option.Rel S (x.bind f) (y.bind g) := by
  cases h with
  | some h => exact hfg _ _ h
  | none => exact .none

end Option

def Marked.Leaves (m : Marked) (rest rest' : Text) : Prop :=
  ∃ n, n <:+ m ∧ IsFree n ∧ rest = text n ∧ rest' = filled n

namespace Marked.Leaves

variable {m n : Marked} {rest rest' : Text}

theorem refl (h : IsFree m) : Leaves m (text m) (filled m) := ⟨m, List.suffix_refl m, h, rfl, rfl⟩

theorem text_suffix (h : Leaves m rest rest') : rest <:+ text m := by
  obtain ⟨n, hn, -, rfl, -⟩ := h
  exact Marked.text_suffix hn

theorem filled_suffix (h : Leaves m rest rest') : rest' <:+ filled m := by
  obtain ⟨n, hn, -, -, rfl⟩ := h
  exact Marked.filled_suffix hn

theorem of_suffix (h : Leaves n rest rest') (hn : n <:+ m) : Leaves m rest rest' := by
  obtain ⟨k, hk, hrest⟩ := h
  exact ⟨k, hk.trans hn, hrest⟩

theorem cons {p : Char × Bool} (h : Leaves m rest rest') : Leaves (p :: m) rest rest' :=
  h.of_suffix (List.suffix_cons p m)

end Marked.Leaves

theorem Marked.IsFree.take {p : Char → Bool} (hp : p '\x7b' = false) {m : Marked} (h : IsFree m)
    {count : Nat} (hcount : count ≤ ((text m).takeWhile p).length) :
    (filled m).take count = (text m).take count ∧
      m.Leaves ((text m).drop count) ((filled m).drop count) := by
  induction m generalizing count with
  | nil => exact ⟨rfl, by simpa using Leaves.refl h⟩
  | cons q m ih =>
    obtain ⟨c, n, heq, hfits⟩ := h.cases.resolve_left (List.cons_ne_nil q m)
    obtain ⟨rfl, rfl⟩ := List.cons.inj heq
    cases count with
    | zero => exact ⟨rfl, .refl h⟩
    | succ count =>
      by_cases hc : p c = true
      · have hne : c ≠ '\x7b' := by
          rintro rfl
          exact absurd hc (by simp [hp])
        have hcount : count ≤ ((text m).takeWhile p).length := by simpa [hc] using hcount
        obtain ⟨htake, hdrop⟩ := ih (hfits.isFree hne) hcount
        exact ⟨by simp [htake], hdrop.cons⟩
      · simp [hc] at hcount

end PatternBuilder.Dialect
