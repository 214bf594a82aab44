import PatternBuilder.Proofs.Phrase
import PatternBuilder.Proofs.Scans

/-!
# Reading of generated classes

The members that are written between brackets are read as the set of their characters. Escaping
keeps the signs of the bracket syntax apart from the members; the operators of sets consist of one
character twice, which no class contains.
-/

namespace PatternBuilder

open Dialect

namespace Dialect

def BracketToken.ofChar (c : Char) : BracketToken :=
  if c ∈ Escape.classSpecial then .escaped c else .plain c

end Dialect

def Atom.tokens : Atom → List BracketToken
  | .range r => [.ofChar r.lo, .plain '-', .ofChar r.hi]
  | .char c => [.ofChar c]
  | .token ['\\', c] => [((shorthand? c).map .shorthand).getD (.escaped ((control? c).getD c))]
  | _ => []

namespace Dialect

theorem skips_bracketTokens (ignoreCase : Bool) (nested : Nat) :
    Skips fun skip => bracketTokens ignoreCase skip nested where
  nil _ := by simp only [bracketTokens]
  cons _ _ _ := by rw [bracketTokens]

def prepend (tokens : List BracketToken) (r : List BracketToken × Text) :
    List BracketToken × Text := (tokens ++ r.1, r.2)

theorem bracketTokens_escape {ignoreCase : Bool} {nested : Nat} {e : Char} {t rest : Text}
    {token : BracketToken} (h : classEscape e t = .ok (token, rest)) (hrest : rest <:+ t) :
    bracketTokens ignoreCase 0 nested ('\\' :: e :: t) =
      (bracketTokens ignoreCase 0 nested rest).map (prepend [token]) := by
  have hskips := skips_bracketTokens ignoreCase nested
  rw [bracketTokens, h]
  simp only [bind, Except.bind, hskips.of_suffix (hrest.trans (List.suffix_cons e t))]
  cases bracketTokens ignoreCase 0 nested rest <;> rfl

theorem bracketTokens_plain {ignoreCase : Bool} {nested : Nat} {c : Char} {t : Text}
    (h : c ∉ ['\\', '[', ']']) :
    bracketTokens ignoreCase 0 nested (c :: t) =
      (bracketTokens ignoreCase 0 nested t).map (prepend [.plain c]) := by
  simp only [List.mem_cons, not_or] at h
  rw [bracketTokens]
  · cases bracketTokens ignoreCase 0 nested t <;> rfl
  · simp [h]
  · simp [h]
  · simp [h]

theorem outsideLetters_eq : outsideLetters = ['A', 'B', 'G', 'K', 'k', 'z'] := by
  decide

theorem classEscape_of_special {c : Char} (h : c ∈ Escape.classSpecial) (t : Text) :
    classEscape c t = .ok (.escaped c, t) := by
  simp only [Escape.classSpecial, List.mem_cons, List.not_mem_nil, or_false] at h
  rcases h with rfl | rfl | rfl | rfl | rfl <;>
    simp [classEscape, shorthand?, outsideLetters_eq, escapedChar, control?, bind, Except.bind] <;>
      rfl

theorem classEscape_of_token {c : Char} (h : (shorthand? c).isSome = true ∨ c = 't') (t : Text) :
    classEscape c t =
      .ok (((shorthand? c).map .shorthand).getD (.escaped ((control? c).getD c)), t) := by
  cases hs : shorthand? c with
  | some s => simp [classEscape, hs]
  | none =>
    have hc : c = 't' := h.resolve_left (by simp [hs])
    subst hc
    simp [classEscape, shorthand?, outsideLetters_eq, escapedChar, control?, bind, Except.bind]
    rfl

theorem bracketTokens_char (ignoreCase : Bool) (c : Char) (t : Text) :
    bracketTokens ignoreCase 0 0 (Escape.inClass [c] ++ t) =
      (bracketTokens ignoreCase 0 0 t).map (prepend [.ofChar c]) := by
  by_cases h : c ∈ Escape.classSpecial
  · have htext : Escape.inClass [c] ++ t = '\\' :: c :: t := by
      simp [Escape.inClass, Escape.escapeAll, Escape.escapeChar, h]
    rw [htext, bracketTokens_escape (classEscape_of_special h t) (List.suffix_refl t),
      BracketToken.ofChar, if_pos h]
  · have htext : Escape.inClass [c] ++ t = c :: t := by
      simp [Escape.inClass, Escape.escapeAll, Escape.escapeChar, h]
    have hsub : ∀ d ∈ ['\\', '[', ']'], d ∈ Escape.classSpecial := by decide
    rw [htext, bracketTokens_plain fun hc => h (hsub c hc), BracketToken.ofChar, if_neg h]

theorem map_prepend (r : Except SyntaxError (List BracketToken × Text))
    (ts us : List BracketToken) :
    (r.map (prepend ts)).map (prepend us) = r.map (prepend (us ++ ts)) := by
  cases r <;> simp [Except.map, prepend]

theorem map_prepend_nil (r : Except SyntaxError (List BracketToken × Text)) :
    r.map (prepend []) = r := by
  cases r <;> simp [Except.map, prepend]

theorem bracketTokens_member (ignoreCase : Bool) {a : Atom} (h : a.IsMember) (t : Text) :
    bracketTokens ignoreCase 0 0 (a.memberText ++ t) =
      (bracketTokens ignoreCase 0 0 t).map (prepend a.tokens) := by
  cases a with
  | range r =>
    rw [Atom.memberText, List.append_assoc, bracketTokens_char, List.cons_append,
      bracketTokens_plain (by decide), bracketTokens_char, map_prepend, map_prepend]
    rfl
  | char c => exact bracketTokens_char ignoreCase c t
  | literal s =>
    rw [show s = [] from h]
    exact (map_prepend_nil _).symm
  | token s =>
    obtain ⟨c, rfl, hc⟩ := h
    exact bracketTokens_escape (classEscape_of_token hc t) (List.suffix_refl t)

theorem bracketTokens_members (ignoreCase : Bool) {as : List Atom} (h : ∀ a ∈ as, a.IsMember)
    (t : Text) :
    bracketTokens ignoreCase 0 0 (as.flatMap Atom.memberText ++ ']' :: t) =
      .ok (as.flatMap Atom.tokens ++ [.plain ']'], t) := by
  induction as with
  | nil => rw [List.flatMap_nil, List.nil_append, bracketTokens]; rfl
  | cons a as ih =>
    have has : ∀ b ∈ as, b.IsMember := fun b hb => h b (List.mem_cons_of_mem a hb)
    rw [List.flatMap_cons, List.append_assoc, bracketTokens_member _ (h a List.mem_cons_self),
      ih has]
    simp [Except.map, prepend]

theorem BracketToken.set_ofChar (c : Char) : (BracketToken.ofChar c).set = .single c := by
  by_cases h : c ∈ Escape.classSpecial <;> simp [BracketToken.ofChar, h, BracketToken.set]

theorem BracketToken.char?_ofChar (c : Char) : (BracketToken.ofChar c).char? = some c := by
  by_cases h : c ∈ Escape.classSpecial <;> simp [BracketToken.ofChar, h, BracketToken.char?]

/-- A character of the bracket syntax is never written as it is. -/
theorem BracketToken.ofChar_ne_plain (c : Char) {d : Char} (h : d ∈ Escape.classSpecial) :
    BracketToken.ofChar c ≠ .plain d := by
  by_cases hc : c ∈ Escape.classSpecial
  · simp [BracketToken.ofChar, hc]
  · simp only [BracketToken.ofChar, if_neg hc, ne_eq, BracketToken.plain.injEq]
    exact fun he => hc (he ▸ h)

/-- The token is a member by itself, not a sign of the bracket syntax. -/
def BracketToken.IsMember (token : BracketToken) : Prop :=
  (∀ d ∈ Escape.classSpecial, token ≠ .plain d) ∧ ∀ s, token ≠ .named s

theorem BracketToken.isMember_ofChar (c : Char) : (BracketToken.ofChar c).IsMember := by
  refine ⟨fun d hd => ofChar_ne_plain c hd, fun s hs => ?_⟩
  have hc := char?_ofChar c
  rw [hs] at hc
  cases hc

/-- The tokens go on with something other than a range from `token` or an operator. -/
def BracketToken.EndsBefore (token : BracketToken) (ts : List BracketToken) : Prop :=
  ts.head? ≠ some (.plain '-') ∧ ∀ d, token = .plain d → ts.head? ≠ some (.plain d)

theorem readSet_token (ignoreCase : Bool) {phase : BracketPhase} (hphase : phase ≠ .opened)
    (level : BracketLevel) {token : BracketToken} (h : token.IsMember) {ts : List BracketToken}
    (hend : token.EndsBefore ts) :
    readSet ignoreCase phase level [] (token :: ts) =
      readSet ignoreCase .inside (level.add token.set) [] ts := by
  have hdash := h.1 '-' (by decide)
  have hbracket := h.1 ']' (by decide)
  rw [readSet.eq_def]
  simp only [hphase, hdash, hbracket, h.1 '^' (by decide), and_false, if_false]
  split
  · exact absurd rfl (h.1 '[' (by decide))
  · exact absurd rfl hbracket
  · exact absurd rfl (hend.2 '&' rfl)
  · exact absurd rfl hdash
  · exact absurd rfl (hend.2 '~' rfl)
  · exact absurd rfl (h.2 _)
  · exact absurd rfl hend.1
  · rfl

theorem readSet_range {ignoreCase : Bool} {phase : BracketPhase} (hphase : phase ≠ .opened)
    (level : BracketLevel) {lo hi : Char} (hle : lo ≤ hi) (ts : List BracketToken) :
    readSet ignoreCase phase level [] (.ofChar lo :: .plain '-' :: .ofChar hi :: ts) =
      readSet ignoreCase .inside (level.add (.range lo hi)) [] ts := by
  have h := BracketToken.isMember_ofChar lo
  have hrange : tokenRange (.ofChar lo) (.ofChar hi) = .ok (.range lo hi) := by
    simp [tokenRange, BracketToken.char?_ofChar, hle]
  have hdash := h.1 '-' (by decide)
  have hbracket := h.1 ']' (by decide)
  have hlast : ¬(BracketToken.ofChar hi = .plain ']' ∨ BracketToken.ofChar hi = .plain '-') := by
    simp [BracketToken.ofChar_ne_plain hi (d := ']') (by decide),
      BracketToken.ofChar_ne_plain hi (d := '-') (by decide)]
  generalize BracketToken.ofChar lo = token at *
  rw [readSet.eq_def]
  simp only [hphase, hdash, hbracket, h.1 '^' (by decide), and_false, if_false]
  split
  · exact absurd rfl (h.1 '[' (by decide))
  · exact absurd rfl hbracket
  next heq => simp at heq
  · exact absurd rfl hdash
  next heq => simp at heq
  · exact absurd rfl (h.2 _)
  next heq =>
    simp only [List.cons.injEq, true_and] at heq
    obtain ⟨rfl, rfl⟩ := heq
    rw [if_neg hlast, hrange]
    rfl
  next hnone _ _ _ => exact absurd rfl (hnone _ _)

theorem BracketToken.ofChar_eq_plain {c d : Char} (h : BracketToken.ofChar c = .plain d) :
    c = d ∧ d ∉ Escape.classSpecial := by
  by_cases hc : c ∈ Escape.classSpecial
  · simp [ofChar, hc] at h
  · simp only [ofChar, if_neg hc, plain.injEq] at h
    exact ⟨h, h ▸ hc⟩

/-- A character that stands first among the members as it is belongs to one of them. -/
theorem head_tokens {as : List Atom} (h : ∀ a ∈ as, a.IsMember) {d : Char}
    (hd : (as.flatMap Atom.tokens ++ [BracketToken.plain ']']).head? = some (.plain d)) :
    d = ']' ∨ d ∉ Escape.classSpecial ∧ (.char d ∈ as ∨ ∃ r, r.lo = d ∧ .range r ∈ as) := by
  induction as with
  | nil =>
    simp only [List.flatMap_nil, List.nil_append, List.head?_cons, Option.some.injEq,
      BracketToken.plain.injEq] at hd
    exact .inl hd.symm
  | cons a as ih =>
    have has : ∀ b ∈ as, b.IsMember := fun b hb => h b (List.mem_cons_of_mem a hb)
    have ha := h a List.mem_cons_self
    cases a with
    | range r =>
      have hlo : BracketToken.ofChar r.lo = .plain d := by simpa [Atom.tokens] using hd
      obtain ⟨he, hs⟩ := BracketToken.ofChar_eq_plain hlo
      exact .inr ⟨hs, .inr ⟨r, he, List.mem_cons_self⟩⟩
    | char c =>
      have hc : BracketToken.ofChar c = .plain d := by simpa [Atom.tokens] using hd
      obtain ⟨rfl, hs⟩ := BracketToken.ofChar_eq_plain hc
      exact .inr ⟨hs, .inl List.mem_cons_self⟩
    | literal s =>
      rcases ih has hd with hd | ⟨hs, hd | ⟨r, he, hr⟩⟩
      · exact .inl hd
      · exact .inr ⟨hs, .inl (List.mem_cons_of_mem _ hd)⟩
      · exact .inr ⟨hs, .inr ⟨r, he, List.mem_cons_of_mem _ hr⟩⟩
    | token s =>
      obtain ⟨c, rfl, _⟩ := ha
      cases hshort : shorthand? c <;> simp [Atom.tokens, hshort] at hd

/-- What follows an atom in a class is neither a dash nor one of its own characters again. -/
theorem endsBefore_members {a : Atom} {as : List Atom} (h : ∀ b ∈ a :: as, b.IsMember)
    (hapart : Atom.AreApart (a :: as)) (token : BracketToken)
    (htoken : ∀ d, token = .plain d → a = .char d ∧ d ∉ Escape.classSpecial) :
    token.EndsBefore (as.flatMap Atom.tokens ++ [.plain ']']) := by
  have has : ∀ b ∈ as, b.IsMember := fun b hb => h b (List.mem_cons_of_mem a hb)
  constructor
  · intro hd
    rcases head_tokens has hd with hd | ⟨hs, _⟩
    · exact absurd hd (by decide)
    · exact hs (by decide)
  · intro d hplain hd
    obtain ⟨rfl, hspecial⟩ := htoken d hplain
    rcases head_tokens has hd with rfl | ⟨_, hmem | ⟨r, rfl, hmem⟩⟩
    · exact hspecial (by decide)
    · have hcount := hapart.1 (.char d) rfl
      have hpos := List.count_pos_iff.mpr hmem
      rw [List.count_cons_self] at hcount
      omega
    · have hforward : r.lo ≤ r.hi := by simpa [Atom.IsMember, CharRange.isForward] using has _ hmem
      have hout := hapart.2 r.lo r List.mem_cons_self (List.mem_cons_of_mem _ hmem)
      simp [CharRange.contains, hforward] at hout

theorem readSet_member {ignoreCase : Bool} {phase : BracketPhase} (hphase : phase ≠ .opened)
    (level : BracketLevel) {a : Atom} {as : List Atom} (h : ∀ b ∈ a :: as, b.IsMember)
    (hapart : Atom.AreApart (a :: as)) (ha : a.memberText ≠ []) :
    readSet ignoreCase phase level [] (a.tokens ++ (as.flatMap Atom.tokens ++ [.plain ']'])) =
      readSet ignoreCase .inside (level.add a.set) [] (as.flatMap Atom.tokens ++ [.plain ']']) := by
  have hmember := h a List.mem_cons_self
  cases a with
  | range r =>
    have hforward : r.lo ≤ r.hi := by simpa [Atom.IsMember, CharRange.isForward] using hmember
    exact readSet_range hphase level hforward _
  | char c =>
    have hend := endsBefore_members h hapart (.ofChar c) fun d hd => by
      obtain ⟨rfl, hs⟩ := BracketToken.ofChar_eq_plain hd
      exact ⟨rfl, hs⟩
    rw [show (Atom.char c).set = (BracketToken.ofChar c).set from
      (BracketToken.set_ofChar c).symm]
    exact readSet_token ignoreCase hphase level (BracketToken.isMember_ofChar c) hend
  | literal s => exact absurd hmember ha
  | token s =>
    obtain ⟨c, rfl, hc⟩ := hmember
    cases hshort : shorthand? c with
    | some x =>
      have hend := endsBefore_members h hapart (.shorthand x) (by simp)
      simpa [Atom.tokens, Atom.set, hshort, BracketToken.set] using
        readSet_token ignoreCase hphase level (by simp [BracketToken.IsMember]) hend
    | none =>
      have ht : c = 't' := hc.resolve_left (by simp [hshort])
      subst ht
      have hend := endsBefore_members h hapart (.escaped '\t') (by simp)
      simpa [Atom.tokens, Atom.set, hshort, control?, BracketToken.set] using
        readSet_token ignoreCase hphase level (by simp [BracketToken.IsMember]) hend

theorem set_of_memberText_eq_nil {a : Atom} (h : a.IsMember) (ha : a.memberText = []) :
    a.tokens = [] ∧ a.set = .empty := by
  cases a with
  | range r => simp [Atom.memberText] at ha
  | char c =>
    by_cases hc : c ∈ Escape.classSpecial <;>
      simp [Atom.memberText, Escape.inClass, Escape.escapeAll, Escape.escapeChar, hc] at ha
  | literal s => exact ⟨rfl, rfl⟩
  | token s =>
    obtain ⟨c, rfl, _⟩ := h
    cases ha

theorem areApart_of_cons {a : Atom} {as : List Atom} (h : Atom.AreApart (a :: as)) :
    Atom.AreApart as :=
  ⟨fun b hb => Nat.le_trans List.count_le_count_cons (h.1 b hb), fun c r hc hr =>
    h.2 c r (List.mem_cons_of_mem a hc) (List.mem_cons_of_mem a hr)⟩

/-- A closing bracket in the first place would be a member, so there has to be one before it. -/
theorem readSet_members (ignoreCase : Bool) {phase : BracketPhase} {as : List Atom}
    (h : ∀ a ∈ as, a.IsMember) (hapart : Atom.AreApart as)
    (hphase : phase = .inside ∨ phase = .signed ∧ as.flatMap Atom.memberText ≠ [])
    (level : BracketLevel) :
    readSet ignoreCase phase level [] (as.flatMap Atom.tokens ++ [.plain ']']) =
      .ok (BracketLevel.value ignoreCase
        { level with members := as.foldl (fun s a => a.set.union s) level.members }) := by
  induction as generalizing phase level with
  | nil =>
    rcases hphase with rfl | ⟨-, hne⟩
    · rfl
    · exact absurd rfl hne
  | cons a as ih =>
    have has : ∀ b ∈ as, b.IsMember := fun b hb => h b (List.mem_cons_of_mem a hb)
    have hrest := areApart_of_cons hapart
    rw [List.flatMap_cons, List.append_assoc]
    by_cases ha : a.memberText = []
    · obtain ⟨htokens, hset⟩ := set_of_memberText_eq_nil (h a List.mem_cons_self) ha
      rw [List.flatMap_cons, ha, List.nil_append] at hphase
      rw [htokens, List.nil_append, ih has hrest hphase, List.foldl_cons, hset]
      rfl
    · have hopened : phase ≠ .opened := by rcases hphase with rfl | ⟨rfl, -⟩ <;> decide
      rw [readSet_member hopened level h hapart ha, ih has hrest (.inl rfl)]
      rfl

theorem head_inClass (c : Char) (t : Text) :
    ∀ d ∈ (Escape.inClass [c] ++ t).head?, d ≠ '^' ∧ d ≠ ']' := by
  by_cases hc : c ∈ Escape.classSpecial
  · simp [Escape.inClass, Escape.escapeAll, Escape.escapeChar, hc]
  · have hsub : '^' ∈ Escape.classSpecial ∧ ']' ∈ Escape.classSpecial := by decide
    simp only [Escape.inClass, Escape.escapeAll, Escape.escapeChar, List.flatMap_cons, hc,
      if_false, List.flatMap_nil, List.cons_append, List.nil_append, List.head?_cons,
      Option.mem_some, forall_eq']
    exact ⟨fun he => hc (he ▸ hsub.1), fun he => hc (he ▸ hsub.2)⟩

theorem head_members {as : List Atom} (h : ∀ a ∈ as, a.IsMember)
    (hne : as.flatMap Atom.memberText ≠ []) (t : Text) :
    ∀ d ∈ (as.flatMap Atom.memberText ++ t).head?, d ≠ '^' ∧ d ≠ ']' := by
  induction as with
  | nil => exact absurd rfl hne
  | cons a as ih =>
    have has : ∀ b ∈ as, b.IsMember := fun b hb => h b (List.mem_cons_of_mem a hb)
    rw [List.flatMap_cons, List.append_assoc]
    cases a with
    | range r =>
      rw [Atom.memberText, List.append_assoc]
      exact head_inClass r.lo _
    | char c => exact head_inClass c _
    | literal s =>
      have hs : (Atom.literal s).memberText = [] := h _ List.mem_cons_self
      rw [List.flatMap_cons, hs, List.nil_append] at hne
      rw [hs]
      exact ih has hne
    | token s =>
      obtain ⟨c, rfl, _⟩ := h _ List.mem_cons_self
      simp [Atom.memberText]

theorem readBracket_members (ignoreCase : Bool) {as : List Atom} (h : ∀ a ∈ as, a.IsMember)
    (hapart : Atom.AreApart as) (hne : as.flatMap Atom.memberText ≠ []) (t : Text) :
    readBracket ignoreCase (as.flatMap Atom.memberText ++ ']' :: t) =
      .ok (closed ignoreCase (Atom.setOf as), t) := by
  have hhead := head_members h hne (']' :: t)
  have hcaret : ((as.flatMap Atom.memberText ++ ']' :: t).head? == some '^') = false := by
    rw [beq_eq_false_iff_ne]
    exact fun he => (hhead '^' he).1 rfl
  have hbracket : ((as.flatMap Atom.memberText ++ ']' :: t).head? == some ']') = false := by
    rw [beq_eq_false_iff_ne]
    exact fun he => (hhead ']' he).2 rfl
  have hset := readSet_members ignoreCase h hapart (.inr ⟨rfl, hne⟩) (.start false)
  simp only [readBracket, hcaret, hbracket, Bool.false_eq_true, if_false,
    bracketTokens_members ignoreCase h, hset, bind, Except.bind]
  rfl

end Dialect
end PatternBuilder
