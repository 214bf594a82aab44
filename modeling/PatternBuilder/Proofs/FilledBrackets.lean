import PatternBuilder.Proofs.FilledTexts

/-!
# Bracket expressions of filled texts

A zero in front of a comma between brackets is one more member. Whether the expression can be read,
and where it ends, stays the same.
-/

namespace PatternBuilder.Dialect

namespace Marked

def Reads {α : Type} (m : Marked) (a b : α × Text) : Prop := a.1 = b.1 ∧ m.Leaves a.2 b.2

theorem Reads.of_suffix {α : Type} {m n : Marked} {a b : α × Text} (h : n.Reads a b)
    (hn : n <:+ m) : m.Reads a b := ⟨h.1, h.2.of_suffix hn⟩

theorem IsFree.dropSign {m : Marked} (h : IsFree m) {c : Char} (hc : c ≠ '\x7b') :
    m.Leaves (if (text m).head? == some c then (text m).tail else text m)
      (if (text m).head? == some c then (filled m).tail else filled m) := by
  obtain rfl | ⟨d, n, rfl, hfits⟩ := h.cases
  · exact .refl h
  · by_cases hd : d = c
    · subst hd
      simpa using (Leaves.refl (hfits.isFree hc)).cons
    · simpa [hd] using Leaves.refl h

end Marked

open Marked

theorem takeWhile_of_forall {p q : Char → Bool} (hqp : ∀ c, q c = true → p c = true) {t : Text}
    (h : ∀ c ∈ t.takeWhile p, q c = true) :
    t.takeWhile q = t.takeWhile p ∧ t.dropWhile q = t.dropWhile p := by
  induction t with
  | nil => exact ⟨rfl, rfl⟩
  | cons c t ih =>
    by_cases hc : p c = true
    · simp only [List.takeWhile_cons_of_pos hc, List.forall_mem_cons] at h
      obtain ⟨htake, hdrop⟩ := ih h.2
      simp [hc, h.1, htake, hdrop]
    · have hq : ¬q c = true := fun hq => hc (hqp c hq)
      simp [hc, hq]

theorem forall_of_dropWhile {p q : Char → Bool} (hqp : ∀ c, q c = true → p c = true) {stop : Char}
    (hstop : p stop = false) {t rest : Text} (h : t.dropWhile q = stop :: rest) :
    ∀ c ∈ t.takeWhile p, q c = true := by
  induction t with
  | nil => simp
  | cons c t ih =>
    by_cases hc : q c = true
    · rw [List.dropWhile_cons_of_pos hc] at h
      rw [List.takeWhile_cons_of_pos (hqp c hc)]
      exact List.forall_mem_cons.mpr ⟨hc, ih h⟩
    · rw [List.dropWhile_cons_of_neg hc] at h
      rw [(List.cons.inj h).1, List.takeWhile_cons_of_neg (by simp [hstop])]
      simp

def isHex (c : Char) : Bool := (hexDigit? c).isSome

theorem charOfHex_of_not_isHex {digits : Text} (h : ∃ c ∈ digits, ¬isHex c = true) :
    charOfHex digits = .error .invalidCode := by
  have hnone : digits.mapM hexDigit? = none := by
    obtain ⟨c, hc, hhex⟩ := h
    induction digits with
    | nil => cases hc
    | cons d ds ih =>
      rw [List.mapM_cons]
      rcases List.mem_cons.mp hc with rfl | hc
      · rw [Option.not_isSome_iff_eq_none.mp hhex]
        rfl
      · rw [ih hc]
        cases hexDigit? d <;> rfl
  rw [charOfHex, hnone]

def bracedCode (t : Text) : Except SyntaxError (Char × Text) :=
  match t.takeWhile isHex, t.dropWhile isHex with
  | d :: ds, '\x7d' :: rest =>
    if ds.length < 8 then return (← charOfHex (d :: ds), rest) else .error .invalidCode
  | _, _ => .error .invalidCode

theorem ne_brace_of_isHex {c : Char} (h : isHex c = true) : (c != '\x7d') = true := by
  refine bne_iff_ne.mpr fun hc => ?_
  rw [hc] at h
  exact absurd h (by decide)

theorem bracedCode_eq (t : Text) :
    bracedCode t =
      match t.takeWhile (· != '\x7d'), t.dropWhile (· != '\x7d') with
      | d :: ds, _ :: rest =>
        if ds.length < 8 then return (← charOfHex (d :: ds), rest) else .error .invalidCode
      | _, _ => .error .invalidCode := by
  by_cases h : ∀ c ∈ t.takeWhile (· != '\x7d'), isHex c = true
  · obtain ⟨htake, hdrop⟩ := takeWhile_of_forall (fun _ => ne_brace_of_isHex) h
    have hstop := List.head?_dropWhile_not (· != '\x7d') t
    rw [bracedCode, htake, hdrop]
    cases hrest : t.dropWhile (· != '\x7d') with
    | nil => cases t.takeWhile (· != '\x7d') <;> rfl
    | cons e rest =>
      obtain rfl : e = '\x7d' := by simpa [hrest] using hstop
      cases t.takeWhile (· != '\x7d') <;> rfl
  · have hleft : bracedCode t = .error .invalidCode := by
      unfold bracedCode
      split
      next hrest =>
        exact absurd (forall_of_dropWhile (fun _ => ne_brace_of_isHex) (by decide) hrest) h
      next => rfl
    rw [hleft]
    split
    next d ds _ rest htake _ =>
      have hcode : charOfHex (d :: ds) = .error .invalidCode :=
        charOfHex_of_not_isHex (by simpa only [htake, not_forall, exists_prop] using h)
      split <;> simp [hcode, bind, Except.bind]
    next => rfl

theorem le_length_takeWhile {p : Char → Bool} {n : Nat} {t : Text} :
    n ≤ (t.takeWhile p).length ↔ (t.take n).length = n ∧ ∀ c ∈ t.take n, p c = true := by
  induction t generalizing n with
  | nil => cases n <;> simp
  | cons c t ih =>
    cases n with
    | zero => simp
    | succ n =>
      by_cases hc : p c = true
      · simp [hc, ih]
      · simp [hc]

theorem readCode_eq (count : Nat) (t : Text) :
    readCode count t =
      if count ≤ (t.takeWhile isHex).length then
        (charOfHex (t.take count)).map fun c => (c, t.drop count)
      else if t.head? = some '\x7b' then bracedCode t.tail
      else .error .invalidCode := by
  have hdigits : (decide ((t.take count).length = count) && (t.take count).all isHex) = true ↔
      count ≤ (t.takeWhile isHex).length := by
    rw [le_length_takeWhile, Bool.and_eq_true, decide_eq_true_eq, List.all_eq_true]
  by_cases hcount : count ≤ (t.takeWhile isHex).length
  · rw [if_pos hcount, readCode.eq_def]
    refine (if_pos (hdigits.mpr hcount)).trans ?_
    cases charOfHex (t.take count) <;> rfl
  · rw [if_neg hcount, readCode.eq_def]
    refine (if_neg (mt hdigits.mp hcount)).trans ?_
    split
    next u => exact (bracedCode_eq u).symm
    next hbrace =>
      refine (if_neg fun hhead => ?_).symm
      obtain ⟨u, rfl⟩ := List.head?_eq_some_iff.mp hhead
      exact hbrace u rfl

theorem Likewise.refl {ε α : Type} {R : α → α → Prop} (hR : ∀ a, R a a) (x : Except ε α) :
    Likewise R x x := by
  cases x with
  | error e => exact .error e
  | ok a => exact .ok (hR a)

theorem bracedCode_likewise {m : Marked} {before : Char} (h : Fits before m) :
    Likewise m.Reads (bracedCode (text m)) (bracedCode (filled m)) := by
  rcases h.isFree_or_comma with h | ⟨-, n, rfl, -⟩
  · obtain ⟨n, hn, hfree, htake, hdrop, hdrop'⟩ := h.takeWhile (p := isHex) (by decide)
    unfold bracedCode
    rw [htake, hdrop, hdrop']
    obtain rfl | ⟨c, k, rfl, hfits⟩ := hfree.cases
    · cases (text m).takeWhile isHex <;> exact .error _
    by_cases hc : c = '\x7d'
    · subst hc
      have hrest : m.Leaves (text k) (filled k) :=
        (Leaves.refl (hfits.isFree (by decide))).cons.of_suffix hn
      cases (text m).takeWhile isHex with
      | nil => exact .error _
      | cons d ds =>
        simp only [text_cons, filled_false]
        split
        · exact (Likewise.refl (fun _ => rfl) _).bind fun a b hab => .ok ⟨hab, hrest⟩
        · exact .error _
    · cases (text m).takeWhile isHex <;> simp [hc] <;> exact .error _
  · exact .error SyntaxError.invalidCode

theorem readCode_likewise (count : Nat) {m : Marked} (h : IsFree m) :
    Likewise m.Reads (readCode count (text m)) (readCode count (filled m)) := by
  obtain ⟨-, -, -, htake, -⟩ := h.takeWhile (p := isHex) (by decide)
  rw [readCode_eq, readCode_eq, htake]
  split
  next hdigits =>
    obtain ⟨htake, hdrop⟩ := h.take (p := isHex) (by decide) hdigits
    rw [htake]
    cases charOfHex ((text m).take count) with
    | error e => exact .error e
    | ok c => exact .ok ⟨rfl, hdrop⟩
  next =>
    obtain rfl | ⟨c, n, rfl, hfits⟩ := h.cases
    · exact .error _
    simp only [text_cons, filled_false, List.head?_cons, Option.some.injEq, List.tail_cons]
    split
    · exact (bracedCode_likewise hfits).mono fun a b hab => hab.of_suffix (List.suffix_cons _ n)
    · exact .error _

theorem escapedChar_likewise (c : Char) {m : Marked} (h : IsFree m) :
    Likewise m.Reads (escapedChar c (text m)) (escapedChar c (filled m)) := by
  unfold escapedChar
  split
  · exact .ok ⟨rfl, .refl h⟩
  split
  · exact readCode_likewise 2 h
  · exact readCode_likewise 4 h
  · exact readCode_likewise 8 h
  split
  · exact .error _
  · exact .ok ⟨rfl, .refl h⟩

theorem escapedChar_brace (t : Text) : escapedChar '\x7b' t = .ok ('\x7b', t) := rfl

theorem classEscape_likewise (c : Char) {m : Marked} (h : IsFree m) :
    Likewise m.Reads (classEscape c (text m)) (classEscape c (filled m)) := by
  unfold classEscape
  split
  · exact .ok ⟨rfl, .refl h⟩
  · exact .ok ⟨rfl, .refl h⟩
  · exact .ok ⟨rfl, .refl h⟩
  · exact .ok ⟨rfl, .refl h⟩
  split
  · exact .ok ⟨rfl, .refl h⟩
  · exact (escapedChar_likewise _ h).bind fun _ _ hab =>
      .ok ⟨congrArg BracketToken.escaped hab.1, hab.2⟩

theorem classEscape_brace (t : Text) : classEscape '\x7b' t = .ok (.escaped '\x7b', t) := by
  simp [classEscape, shorthand?, outsideLetters_eq, escapedChar_brace, bind, Except.bind]
  rfl

theorem isLower_of_named : ∀ p ∈ namedClasses, ∀ c ∈ p.1, c.isLower = true := by
  decide

theorem ne_colon_of_isLower {c : Char} (h : c.isLower = true) : (c != ':') = true := by
  refine bne_iff_ne.mpr fun hc => ?_
  rw [hc] at h
  exact absurd h (by decide)

theorem isLower_of_lookup {name : Text} {s : CharSet} (h : namedClasses.lookup name = some s) :
    ∀ c ∈ name, c.isLower = true := by
  obtain ⟨_, _, hsplit, _⟩ := List.lookup_eq_some_iff.mp h
  exact isLower_of_named (name, s) (by simp [hsplit])

def closeNamedClass? (ignoreCase negated : Bool) (t : Text) : Option (CharSet × Text) := do
  let s ← namedClasses.lookup (t.takeWhile Char.isLower)
  match t.dropWhile Char.isLower with
  | ':' :: ']' :: rest =>
    let s := closed ignoreCase s
    some (if negated then s.complement else s, rest)
  | _ => none

theorem readNamedClass?_colon (ignoreCase : Bool) (t : Text) :
    readNamedClass? ignoreCase (':' :: t) =
      closeNamedClass? ignoreCase (t.head? == some '^')
        (if t.head? == some '^' then t.tail else t) := by
  rw [readNamedClass?, closeNamedClass?]
  generalize (if t.head? == some '^' then t.tail else t) = u
  by_cases h : ∀ c ∈ u.takeWhile (· != ':'), c.isLower = true
  · obtain ⟨htake, hdrop⟩ := takeWhile_of_forall (fun _ => ne_colon_of_isLower) h
    rewrite [htake, hdrop]
    rfl
  · have hnone : namedClasses.lookup (u.takeWhile (· != ':')) = none := by
      rw [← Option.not_isSome_iff_eq_none, Option.isSome_iff_exists]
      exact fun ⟨s, hs⟩ => h (isLower_of_lookup hs)
    rw [hnone]
    cases namedClasses.lookup (u.takeWhile Char.isLower) with
    | none => rfl
    | some s =>
      symm
      simp only [Option.bind_eq_bind, Option.bind_some, Option.bind_none]
      split
      next hrest =>
        exact absurd (forall_of_dropWhile (fun _ => ne_colon_of_isLower) (by decide) hrest) h
      next => rfl

theorem closeNamedClass?_rel (ignoreCase negated : Bool) {m : Marked} (h : IsFree m) :
    Option.Rel m.Reads (closeNamedClass? ignoreCase negated (text m))
      (closeNamedClass? ignoreCase negated (filled m)) := by
  obtain ⟨n, hn, hfree, htake, hdrop, hdrop'⟩ := h.takeWhile (p := Char.isLower) (by decide)
  unfold closeNamedClass?
  rw [htake, hdrop, hdrop']
  cases namedClasses.lookup ((text m).takeWhile Char.isLower) with
  | none => exact .none
  | some s =>
    simp only [Option.bind_eq_bind, Option.bind_some]
    obtain rfl | ⟨c, k, rfl, hfits⟩ := hfree.cases
    · exact .none
    by_cases hc : c = ':'
    · subst hc
      obtain rfl | ⟨d, j, rfl, hlast⟩ := (hfits.isFree (by decide)).cases
      · exact .none
      by_cases hd : d = ']'
      · subst hd
        have hrest := (Leaves.refl (hlast.isFree (by decide))).cons.cons.of_suffix hn
        exact .some ⟨rfl, hrest⟩
      · simp [hd]
    · simp [hc]

theorem readNamedClass?_rel (ignoreCase : Bool) {m : Marked} (h : IsFree m) :
    Option.Rel m.Reads (readNamedClass? ignoreCase (text m))
      (readNamedClass? ignoreCase (filled m)) := by
  obtain rfl | ⟨c, n, rfl, hfits⟩ := h.cases
  · exact .none
  by_cases hc : c = ':'
  · subst hc
    have hfree := hfits.isFree (by decide)
    obtain ⟨k, hk, hkfree, htext, hfilled⟩ := hfree.dropSign (c := '^') (by decide)
    rw [text_cons, filled_false, readNamedClass?_colon, readNamedClass?_colon, hfree.head?, htext,
      hfilled]
    have hrest : k <:+ (':', false) :: n := hk.trans (List.suffix_cons _ n)
    exact rel_mono (closeNamedClass?_rel _ _ hkfree) fun a b hab => hab.of_suffix hrest
  · simp [readNamedClass?, hc]

/-- The second tokens are the first ones with a zero in front of some commas that come behind an
opening brace. -/
inductive Zeroed : List BracketToken → List BracketToken → Prop where
  | nil : Zeroed [] []
  | cons (token : BracketToken) {ts us : List BracketToken} (h : Zeroed ts us) :
      Zeroed (token :: ts) (token :: us)
  | zero {token : BracketToken} (hbrace : token.char? = some '\x7b') {ts us : List BracketToken}
      (h : Zeroed ts us) :
      Zeroed (token :: .plain ',' :: ts) (token :: .plain '0' :: .plain ',' :: us)

def ZeroFirst (ts us : List BracketToken) : Prop :=
  ∃ ts' us', ts = .plain ',' :: ts' ∧ us = .plain '0' :: .plain ',' :: us' ∧ Zeroed ts' us'

def Marked.ReadsZeroed (m : Marked) (a b : List BracketToken × Text) : Prop :=
  Zeroed a.1 b.1 ∧ m.Leaves a.2 b.2

theorem Likewise.of_prepend {m n : Marked} (hn : n <:+ m)
    {x y : Except SyntaxError (List BracketToken × Text)} (h : Likewise n.ReadsZeroed x y)
    {ts us : List BracketToken} (hts : ∀ ks ls, Zeroed ks ls → Zeroed (ts ++ ks) (us ++ ls)) :
    Likewise m.ReadsZeroed (x.map (prepend ts)) (y.map (prepend us)) := by
  cases h with
  | error e => exact .error e
  | ok h => exact .ok ⟨hts _ _ h.1, h.2.of_suffix hn⟩

theorem bracketTokens_named {ignoreCase : Bool} {nested : Nat} {t rest : Text} {s : CharSet}
    (h : readNamedClass? ignoreCase t = some (s, rest)) (hrest : rest <:+ t) :
    bracketTokens ignoreCase 0 nested ('[' :: t) =
      (bracketTokens ignoreCase 0 nested rest).map (prepend [.named s]) := by
  rw [bracketTokens, h]
  simp only [bind, Except.bind, (skips_bracketTokens ignoreCase nested).of_suffix hrest]
  cases bracketTokens ignoreCase 0 nested rest <;> rfl

theorem bracketTokens_open {ignoreCase : Bool} {nested : Nat} {t : Text}
    (h : readNamedClass? ignoreCase t = none) :
    bracketTokens ignoreCase 0 nested ('[' :: t) =
      if greatestNesting < nested + 2 then .error .nestedTooDeep
      else (bracketTokens ignoreCase 0 (nested + 1) t).map (prepend [.plain '[']) := by
  rw [bracketTokens]
  simp only [h]
  cases bracketTokens ignoreCase 0 (nested + 1) t <;> rfl

theorem bracketTokens_close (ignoreCase : Bool) (nested : Nat) (t : Text) :
    bracketTokens ignoreCase 0 (nested + 1) (']' :: t) =
      (bracketTokens ignoreCase 0 nested t).map (prepend [.plain ']']) := by
  rw [bracketTokens]
  cases bracketTokens ignoreCase 0 nested t <;> rfl

theorem bracketTokens_refused {ignoreCase : Bool} {nested : Nat} {c : Char} {t : Text}
    {e : SyntaxError} (h : classEscape c t = .error e) :
    bracketTokens ignoreCase 0 nested ('\\' :: c :: t) = .error e := by
  rw [bracketTokens, h]
  rfl

def Marked.TokensAlike (ignoreCase : Bool) (m : Marked) : Prop :=
  ∀ nested : Nat, IsFree m → Likewise m.ReadsZeroed (bracketTokens ignoreCase 0 nested (text m))
    (bracketTokens ignoreCase 0 nested (filled m))

section

variable {ignoreCase : Bool} {n : Marked}

/-- An escape sequence may be several characters long. A brace that is escaped leaves the zero
behind it as a token. -/
theorem bracketTokens_backslash_likewise (nested : Nat) (hfits : Fits '\\' n)
    (hshorter : ∀ k : Marked, k.length ≤ n.length → k.TokensAlike ignoreCase) :
    Likewise (ReadsZeroed (('\\', false) :: n)) (bracketTokens ignoreCase 0 nested ('\\' :: text n))
      (bracketTokens ignoreCase 0 nested ('\\' :: filled n)) := by
  obtain rfl | ⟨e, k, rfl, hescaped⟩ := (hfits.isFree (by decide)).cases
  · exact .error _
  rw [text_cons, filled_false]
  obtain hk | ⟨rfl, j, rfl, hj⟩ := hescaped.isFree_or_comma
  · obtain ⟨e, htext, hfilled⟩ | ⟨⟨token, rest⟩, ⟨_, rest'⟩, htext, hfilled, rfl, hrest⟩ :=
      (classEscape_likewise e hk).cases
    · rw [bracketTokens_refused htext, bracketTokens_refused hfilled]
      exact .error e
    · rw [bracketTokens_escape htext hrest.text_suffix,
        bracketTokens_escape hfilled hrest.filled_suffix]
      obtain ⟨j, hj, hfree, rfl, rfl⟩ := hrest
      have hlength := hj.length_le
      exact .of_prepend (hj.trans ⟨[_, _], rfl⟩)
        (hshorter j (by simp only [List.length_cons]; omega) nested hfree) fun _ _ => .cons token
  · rw [text_cons, filled_true, bracketTokens_escape (classEscape_brace _) (List.suffix_refl _),
      bracketTokens_escape (classEscape_brace _) (List.suffix_refl _),
      bracketTokens_plain (by decide), bracketTokens_plain (by decide),
      bracketTokens_plain (by decide), map_prepend, map_prepend, map_prepend]
    exact .of_prepend ⟨[_, _, _], rfl⟩
      (hshorter j (by simp only [List.length_cons]; omega) nested hj) fun _ _ => .zero rfl

/-- A bracket opens a class with a name, or a nested one. -/
theorem bracketTokens_opening_likewise (nested : Nat) (hn : IsFree n)
    (hshorter : ∀ k : Marked, k.length ≤ n.length → k.TokensAlike ignoreCase) :
    Likewise (ReadsZeroed (('[', false) :: n)) (bracketTokens ignoreCase 0 nested ('[' :: text n))
      (bracketTokens ignoreCase 0 nested ('[' :: filled n)) := by
  obtain ⟨htext, hfilled⟩ | ⟨⟨s, rest⟩, ⟨_, rest'⟩, htext, hfilled, rfl, hrest⟩ :=
    rel_cases (readNamedClass?_rel ignoreCase hn)
  · rw [bracketTokens_open htext, bracketTokens_open hfilled]
    split
    · exact .error _
    · exact .of_prepend (List.suffix_cons _ n) (hshorter n (Nat.le_refl _) (nested + 1) hn)
        fun _ _ => .cons _
  · rw [bracketTokens_named htext hrest.text_suffix,
      bracketTokens_named hfilled hrest.filled_suffix]
    obtain ⟨j, hj, hfree, rfl, rfl⟩ := hrest
    exact .of_prepend (hj.trans (List.suffix_cons _ n)) (hshorter j hj.length_le nested hfree)
      fun _ _ => .cons _

/-- A bare brace leaves the zero behind it as a token. -/
theorem bracketTokens_plain_likewise {c : Char} (hplain : c ∉ ['\\', '[', ']']) (nested : Nat)
    (hfits : Fits c n) (hshorter : ∀ k : Marked, k.length ≤ n.length → k.TokensAlike ignoreCase) :
    Likewise (ReadsZeroed ((c, false) :: n)) (bracketTokens ignoreCase 0 nested (c :: text n))
      (bracketTokens ignoreCase 0 nested (c :: filled n)) := by
  rw [bracketTokens_plain hplain, bracketTokens_plain hplain]
  obtain hn | ⟨rfl, k, rfl, hk⟩ := hfits.isFree_or_comma
  · exact .of_prepend (List.suffix_cons _ n) (hshorter n (Nat.le_refl _) nested hn)
      fun _ _ => .cons _
  · rw [text_cons, filled_true, bracketTokens_plain (by decide), bracketTokens_plain (by decide),
      bracketTokens_plain (by decide), map_prepend, map_prepend, map_prepend]
    exact .of_prepend ⟨[_, _], rfl⟩ (hshorter k (by simp) nested hk) fun _ _ => .zero rfl

end

theorem Marked.tokensAlike (ignoreCase : Bool) (m : Marked) : m.TokensAlike ignoreCase := by
  induction hlen : m.length using Nat.strongRecOn generalizing m with
  | ind k ih =>
    subst hlen
    intro nested h
    obtain rfl | ⟨c, n, rfl, hfits⟩ := h.cases
    · exact .error _
    have hshorter : ∀ k : Marked, k.length ≤ n.length → k.TokensAlike ignoreCase := fun k hk =>
      ih k.length (Nat.lt_succ_of_le hk) k rfl
    rw [text_cons, filled_false]
    by_cases hslash : c = '\\'
    · subst hslash
      exact bracketTokens_backslash_likewise nested hfits hshorter
    by_cases hopen : c = '['
    · subst hopen
      exact bracketTokens_opening_likewise nested (hfits.isFree (by decide)) hshorter
    by_cases hclose : c = ']'
    · subst hclose
      have hn := hfits.isFree (by decide)
      cases nested with
      | zero => exact .ok ⟨.cons _ .nil, (Leaves.refl hn).cons⟩
      | succ nested =>
        rw [bracketTokens_close, bracketTokens_close]
        exact .of_prepend (List.suffix_cons _ n) (hshorter n (Nat.le_refl _) nested hn)
          fun _ _ => .cons _
    exact bracketTokens_plain_likewise (by simp [hslash, hopen, hclose]) nested hfits hshorter

def BracketToken.operator? : BracketToken → Option BracketToken → Option SetOperator
  | .plain '&', some (.plain '&') => some .both
  | .plain '-', some (.plain '-') => some .without
  | .plain '~', some (.plain '~') => some .oneOfBoth
  | _, _ => none

def BracketToken.rangeEnd? : BracketToken → List BracketToken → Option BracketToken
  | .named _, _ => none
  | _, .plain '-' :: hi :: _ => if hi = .plain ']' ∨ hi = .plain '-' then none else some hi
  | _, _ => none

theorem BracketToken.operator?_dash {token : BracketToken} (h : token ≠ .plain '-') :
    token.operator? (some (.plain '-')) = none := by
  unfold operator?
  split <;> simp_all

theorem BracketToken.rangeEnd?_dash {token : BracketToken} (h : ∀ s, token ≠ .named s)
    (hi : BracketToken) (tokens : List BracketToken) :
    token.rangeEnd? (.plain '-' :: hi :: tokens) =
      if hi = .plain ']' ∨ hi = .plain '-' then none else some hi := by
  unfold rangeEnd?
  split <;> simp_all

theorem readSet_cons (ignoreCase : Bool) (phase : BracketPhase) (level : BracketLevel)
    (outer : List BracketLevel) (token : BracketToken) (tokens : List BracketToken) :
    readSet ignoreCase phase level outer (token :: tokens) =
      if phase = .opened ∧ token = .plain '^' then
        readSet ignoreCase .signed { level with negated := true } outer tokens
      else if phase ≠ .inside ∧ token = .plain '-' then
        readSet ignoreCase .dashed (level.add (.single '-')) outer tokens
      else if (phase = .opened ∨ phase = .signed) ∧ token = .plain ']' then
        readSet ignoreCase .inside (level.add (.single ']')) outer tokens
      else if token = .plain '[' then
        readSet ignoreCase .opened (.start false) (level :: outer) tokens
      else if token = .plain ']' then
        match outer with
        | [] => if tokens.isEmpty then .ok (level.value ignoreCase) else .error .unclosedClass
        | around :: outer =>
          readSet ignoreCase .inside (around.add (level.value ignoreCase)) outer tokens
      else
        match token.operator? tokens.head? with
        | some op => readSet ignoreCase .inside (level.operate ignoreCase op) outer tokens.tail
        | none =>
          match token.rangeEnd? tokens with
          | some hi => do
            readSet ignoreCase .inside (level.add (← tokenRange token hi)) outer (tokens.drop 2)
          | none => readSet ignoreCase .inside (level.add token.set) outer tokens := by
  rw [readSet.eq_def]
  dsimp only
  split
  · rfl
  split
  · rfl
  split
  · rfl
  split
  · simp
  · have hopen : BracketToken.plain ']' ≠ .plain '[' := by simp
    rewrite [if_neg hopen, if_pos rfl]
    rfl
  · simp [BracketToken.operator?]
  · simp [BracketToken.operator?]
  · simp [BracketToken.operator?]
  · simp [BracketToken.operator?, BracketToken.rangeEnd?, BracketToken.set]
  next hi tokens hopen hclose hdash hnamed =>
    rw [if_neg hopen, if_neg hclose, List.head?_cons,
      BracketToken.operator?_dash hdash, BracketToken.rangeEnd?_dash hnamed]
    by_cases hend : hi = .plain ']' ∨ hi = .plain '-'
    · simp only [if_pos hend]
    · simp only [if_neg hend]
      rfl
  next hopen hclose hnamed hrange hboth hwithout hone =>
    have hoperator : token.operator? tokens.head? = none := by
      unfold BracketToken.operator?
      split
      · obtain ⟨us, hus⟩ := List.head?_eq_some_iff.mp ‹tokens.head? = _›
        exact (hboth us rfl hus).elim
      · obtain ⟨us, hus⟩ := List.head?_eq_some_iff.mp ‹tokens.head? = _›
        exact (hwithout us rfl hus).elim
      · obtain ⟨us, hus⟩ := List.head?_eq_some_iff.mp ‹tokens.head? = _›
        exact (hone us rfl hus).elim
      · rfl
    have hnone : token.rangeEnd? tokens = none := by
      unfold BracketToken.rangeEnd?
      split
      next => rfl
      next hi us _ => exact (hrange hi us rfl).elim
      next => rfl
    rw [if_neg hopen, if_neg hclose, hoperator]
    simp only [hnone]

namespace Zeroed

variable {token : BracketToken} {ts us : List BracketToken}

theorem of_cons (h : Zeroed (token :: ts) us) :
    ∃ ks, us = token :: ks ∧ (Zeroed ts ks ∨ token.char? = some '\x7b' ∧ ZeroFirst ts ks) := by
  cases h with
  | cons _ h => exact ⟨_, rfl, .inl h⟩
  | zero hbrace h => exact ⟨_, rfl, .inr ⟨hbrace, _, _, rfl, rfl, h⟩⟩

theorem head? (h : Zeroed ts us) : us.head? = ts.head? := by
  cases h <;> rfl

theorem isEmpty (h : Zeroed ts us) : us.isEmpty = ts.isEmpty := by
  cases h <;> rfl

/-- Nothing comes in front of what follows an operator. -/
theorem tail {op : SetOperator} (h : Zeroed ts us) (hop : token.operator? ts.head? = some op) :
    Zeroed ts.tail us.tail := by
  cases h with
  | nil => exact .nil
  | cons _ h => exact h
  | zero hbrace h =>
    unfold BracketToken.operator? at hop
    split at hop <;> simp_all [BracketToken.char?]

theorem rangeEnd? (h : Zeroed ts us) (token : BracketToken) :
    token.rangeEnd? us = token.rangeEnd? ts := by
  have hbehind : ∀ (next last : BracketToken) (ks ls : List BracketToken),
      token.rangeEnd? (next :: last :: ks) = token.rangeEnd? (next :: last :: ls) := by
    intro next last ks ls
    unfold BracketToken.rangeEnd?
    split <;> simp_all
  cases h with
  | nil => rfl
  | cons next h =>
    cases h with
    | nil => rfl
    | cons last => exact hbehind next last _ _
    | zero => exact hbehind next _ _ _
  | @zero next hbrace =>
    have hnone : ∀ ks, token.rangeEnd? (next :: ks) = none := by
      intro ks
      unfold BracketToken.rangeEnd?
      split <;> simp_all [BracketToken.char?]
    rw [hnone, hnone]

theorem drop {hi : BracketToken} (h : Zeroed ts us) (hrange : token.rangeEnd? ts = some hi) :
    Zeroed (ts.drop 2) (us.drop 2) ∨ ZeroFirst (ts.drop 2) (us.drop 2) := by
  cases h with
  | nil => exact .inl .nil
  | cons next h =>
    cases h with
    | nil => exact .inl .nil
    | cons last h => exact .inl h
    | zero hbrace h => exact .inr ⟨_, _, rfl, rfl, h⟩
  | zero hbrace h =>
    unfold BracketToken.rangeEnd? at hrange
    split at hrange <;> simp_all [BracketToken.char?]

end Zeroed

/-- A brace is a member by itself, unless a range begins with it. -/
theorem readSet_brace {token : BracketToken} (hbrace : token.char? = some '\x7b') {c : Char}
    (hc : c ≠ '-') (ignoreCase : Bool) (phase : BracketPhase) (level : BracketLevel)
    (outer : List BracketLevel) (ts : List BracketToken) :
    readSet ignoreCase phase level outer (token :: .plain c :: ts) =
      readSet ignoreCase .inside (level.add token.set) outer (.plain c :: ts) := by
  have htoken : token = .plain '\x7b' ∨ token = .escaped '\x7b' := by
    cases token <;> simp_all [BracketToken.char?]
  rcases htoken with rfl | rfl <;> rw [readSet_cons] <;>
    simp [BracketToken.operator?, BracketToken.rangeEnd?, hc]

theorem readSet_zero (ignoreCase : Bool) (level : BracketLevel) (outer : List BracketLevel)
    (ts : List BracketToken) :
    readSet ignoreCase .inside level outer (.plain '0' :: .plain ',' :: ts) =
      readSet ignoreCase .inside (level.add (.single '0')) outer (.plain ',' :: ts) := by
  rw [readSet_cons]
  simp [BracketToken.operator?, BracketToken.rangeEnd?, BracketToken.set]

/-- More members make no difference to whether a set can be read. The induction is on the length,
since an operator and a range are several tokens long. -/
theorem readSet_likewise (ignoreCase : Bool) (phase : BracketPhase) (level level' : BracketLevel)
    {outer outer' : List BracketLevel} (houter : outer'.length = outer.length)
    {ts us : List BracketToken} (h : Zeroed ts us) :
    Likewise (fun _ _ => True) (readSet ignoreCase phase level outer ts)
      (readSet ignoreCase phase level' outer' us) := by
  induction hlen : ts.length using Nat.strongRecOn
    generalizing phase level level' outer outer' ts us with
  | ind n ih =>
    subst hlen
    cases ts with
    | nil =>
      cases h
      exact .error _
    | cons token ts =>
      have hnext : ∀ {ks ls} (phase level level') {outer outer' : List BracketLevel},
          outer'.length = outer.length → Zeroed ks ls → ks.length ≤ ts.length →
          Likewise (fun _ _ => True) (readSet ignoreCase phase level outer ks)
            (readSet ignoreCase phase level' outer' ls) := by
        intro ks ls phase level level' outer outer' houter h hle
        exact ih ks.length (Nat.lt_succ_of_le hle) phase level level' houter h rfl
      -- a zero that comes next is a member, and the comma comes behind it
      have hcomma : ∀ {ks ls} (level level') {outer outer' : List BracketLevel},
          outer'.length = outer.length → Zeroed ks ls → ks.length < ts.length →
          Likewise (fun _ _ => True) (readSet ignoreCase .inside level outer (.plain ',' :: ks))
            (readSet ignoreCase .inside level' outer' (.plain '0' :: .plain ',' :: ls)) := by
        intro ks ls level level' outer outer' houter h hlt
        rw [readSet_zero]
        exact hnext .inside level _ houter (.cons _ h) hlt
      obtain ⟨us, rfl, h | ⟨hbrace, ts, us, rfl, rfl, hrest⟩⟩ := h.of_cons
      · rw [readSet_cons, readSet_cons, h.head?, h.rangeEnd?, h.isEmpty]
        split
        · exact hnext _ _ _ houter h (Nat.le_refl _)
        split
        · exact hnext _ _ _ houter h (Nat.le_refl _)
        split
        · exact hnext _ _ _ houter h (Nat.le_refl _)
        split
        · exact hnext _ _ _ (by simp [houter]) h (Nat.le_refl _)
        split
        · cases outer with
          | nil =>
            obtain rfl := List.length_eq_zero_iff.mp houter
            dsimp only
            split
            · exact .ok trivial
            · exact .error _
          | cons around outer =>
            obtain ⟨around', outer', rfl⟩ := List.exists_cons_of_length_eq_add_one houter
            exact hnext _ _ _ (Nat.succ.inj houter) h (Nat.le_refl _)
        split
        next op hop => exact hnext _ _ _ houter (h.tail hop) (by simp)
        next =>
          split
          next hi hrange =>
            have hrange' : Likewise (fun _ _ => True) (tokenRange token hi) (tokenRange token hi) :=
              .refl (fun _ => trivial) _
            refine hrange'.bind fun _ _ _ => ?_
            have hlength := List.length_drop (l := ts) (i := 2)
            obtain hdrop | ⟨ks, ls, hks, hls, hdrop⟩ := h.drop hrange
            · exact hnext _ _ _ houter hdrop (by omega)
            · rw [hks, List.length_cons] at hlength
              rw [hks, hls]
              exact hcomma _ _ houter hdrop (by omega)
          next => exact hnext _ _ _ houter h (Nat.le_refl _)
      · rw [readSet_brace hbrace (by decide), readSet_brace hbrace (by decide)]
        exact hcomma _ _ houter hrest (by simp)

theorem readBracket_likewise (ignoreCase : Bool) {m : Marked} (h : IsFree m) :
    Likewise (fun a b => m.Leaves a.2 b.2) (readBracket ignoreCase (text m))
      (readBracket ignoreCase (filled m)) := by
  obtain ⟨n, hn, hfree, htext, hfilled⟩ := h.dropSign (c := '^') (by decide)
  obtain ⟨k, hk, hkfree, htext', hfilled'⟩ := hfree.dropSign (c := ']') (by decide)
  unfold readBracket
  simp only [h.head?, htext, hfilled, hfree.head?, htext', hfilled']
  refine (Marked.tokensAlike ignoreCase _ 0 hkfree).bind fun a b hab => ?_
  have hset : Zeroed (if (text n).head? == some ']' then .plain ']' :: a.1 else a.1)
      (if (text n).head? == some ']' then .plain ']' :: b.1 else b.1) := by
    split
    · exact .cons _ hab.1
    · exact hab.1
  exact (readSet_likewise ignoreCase _ _ _ rfl hset).bind fun _ _ _ =>
    .ok (hab.2.of_suffix (hk.trans hn))

end PatternBuilder.Dialect
