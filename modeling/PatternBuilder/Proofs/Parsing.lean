import PatternBuilder.Proofs.Lexing

/-!
# Building trees from lexemes

The lexemes of a phrase are accepted exactly if everything repeated can be repeated, and then they
give the tree of the phrase up to its shape.
-/

namespace PatternBuilder

open Dialect

namespace Dialect

namespace Level

theorem node_eq (l : Level) : l.node = Node.ofAlternatives (l.branches.reverse ++ [l.branch]) := by
  rw [node, List.reverse_cons]
  cases l.branches.reverse <;> rfl

theorem branch_push (l : Level) (n : Node) : Node.Alike (l.push n).branch (.seq l.branch n) := by
  have h := Node.ofItems_append_alike l.items.reverse [n]
  rw [branch, push, List.reverse_cons]
  exact h

def Extends (l l' : Level) (n : Node) : Prop :=
  l'.branches = l.branches ∧ Node.Alike l'.branch (.seq l.branch n)

theorem Extends.refl (l : Level) {n : Node} (h : Node.Alike n .empty) : l.Extends l n :=
  ⟨rfl, (Node.Alike.seqEmpty l.branch).symm.trans ((Node.Alike.refl _).seq h.symm)⟩

theorem Extends.push (l : Level) {m n : Node} (h : Node.Alike m n) : l.Extends (l.push m) n :=
  ⟨rfl, (branch_push l m).trans ((Node.Alike.refl _).seq h)⟩

theorem Extends.trans {l l' l'' : Level} {m n : Node} (h : l.Extends l' m) (h' : l'.Extends l'' n) :
    l.Extends l'' (.seq m n) := by
  refine ⟨h'.1.trans h.1, h'.2.trans ?_⟩
  exact (h.2.seq (.refl n)).trans (Node.Alike.seqAssoc l.branch m n)

theorem Extends.node_alike {l l' : Level} {n : Node} (h : l.Extends l' n)
    (hl : Node.Alike l.branch .empty) :
    Node.Alike l'.node (Node.ofAlternatives (l.branches.reverse ++ [n])) := by
  have hn : Node.Alike l'.branch n := h.2.trans ((hl.seq (.refl n)).trans (.emptySeq n))
  rw [node_eq, h.1]
  exact Node.ofAlternatives_concat_alike _ hn

theorem split_node (l : Level) (n : Node) :
    Node.Alike (Node.ofAlternatives (l.split.branches.reverse ++ [n])) (.alt l.node n) := by
  rw [node_eq, split, List.reverse_cons]
  exact Node.ofAlternatives_append_alike (by simp) (by simp)

end Level

structure Level.Takes (m : Modes) (l l' : Level) (p : Phrase) : Prop where
  behind : p.hasBar = false → l.Extends l' (p.node m)
  single : p.IsSingle → p.lexemes m ≠ [] → ∃ n, l' = l.push n ∧ Node.Alike n (p.node m)
  node : Node.Alike l.branch .empty →
    Node.Alike l'.node (Node.ofAlternatives (l.branches.reverse ++ [p.node m]))

theorem Level.Takes.ofExtends {m : Modes} {l l' : Level} {p : Phrase} (h : l.Extends l' (p.node m))
    (hp : p.IsSingle → p.lexemes m = []) : l.Takes m l' p :=
  ⟨fun _ => h, fun hs hl => absurd (hp hs) hl, h.node_alike⟩

theorem Level.Takes.ofPush {m : Modes} (l : Level) {p : Phrase} {n : Node}
    (h : Node.Alike n (p.node m)) : l.Takes m (l.push n) p :=
  ⟨fun _ => .push l h, fun _ _ => ⟨n, rfl, h⟩, (Extends.push l h).node_alike⟩

theorem Sign.lexeme_cases {m : Modes} {s : Sign} {x : Lexeme} (h : s.lexeme? m = some x) :
    (∃ y, x = .single y) ∨ ∃ a, x = .anchor a := by
  cases s with
  | bare c =>
    simp only [lexeme?] at h
    split at h
    · exact .inl ⟨_, (Option.some.inj h).symm⟩
    split at h
    · exact .inr ⟨_, (Option.some.inj h).symm⟩
    split at h
    · exact .inr ⟨_, (Option.some.inj h).symm⟩
    split at h
    · cases h
    · exact .inl ⟨_, (Option.some.inj h).symm⟩
  | escape c =>
    simp only [lexeme?] at h
    split at h
    · exact .inr ⟨_, (Option.some.inj h).symm⟩
    · exact .inl ⟨_, (Option.some.inj h).symm⟩
    · exact .inl ⟨_, (Option.some.inj h).symm⟩
  | bracket as => exact .inl ⟨_, (Option.some.inj h).symm⟩

theorem Sign.feed_lexeme {m : Modes} {s : Sign} {x : Lexeme} (h : s.lexeme? m = some x)
    (st : Stack) : st.feed x = .ok { st with current := st.current.push (s.node m) } := by
  rcases lexeme_cases h with ⟨y, rfl⟩ | ⟨a, rfl⟩ <;> simp [Sign.node, h, Stack.feed]

namespace Phrase

theorem foldlM_sign {m : Modes} (s : Sign) (l : Level) (opened : List (Paren × Level)) :
    ∃ l', ((Phrase.sign s).lexemes m).foldlM Stack.feed ⟨l, opened⟩ = .ok ⟨l', opened⟩ ∧
      l.Takes m l' (.sign s) := by
  cases hs : s.lexeme? m with
  | none =>
    have hnode : s.node m = .empty := by simp [Sign.node, hs]
    refine ⟨l, by simp [lexemes, hs]; rfl, .ofExtends (.refl l (.of_eq hnode)) fun _ => ?_⟩
    simp [lexemes, hs]
  | some x =>
    refine ⟨l.push (s.node m), ?_, .ofPush l (.refl _)⟩
    simp [lexemes, hs, Sign.feed_lexeme hs]

theorem foldlM_append {ks ls : List Lexeme} {s t : Stack}
    (h : ks.foldlM Stack.feed s = .ok t) :
    (ks ++ ls).foldlM Stack.feed s = ls.foldlM Stack.feed t := by
  rw [List.foldlM_append, h]
  rfl

/-- A phrase that repeats soundly is read onto the level where it begins. -/
theorem foldlM_lexemes {m : Modes} {p : Phrase} (h : p.Proper m)
    (hs : (p.node m).repeatsSoundly = true) (l : Level) (opened : List (Paren × Level)) :
    ∃ l', (p.lexemes m).foldlM Stack.feed ⟨l, opened⟩ = .ok ⟨l', opened⟩ ∧ l.Takes m l' p := by
  induction p generalizing l opened with
  | empty => exact ⟨l, rfl, .ofExtends (.refl l (.refl _)) fun _ => rfl⟩
  | sign s => exact foldlM_sign s l opened
  | paren p body ih =>
    obtain ⟨l', hl', htakes⟩ := ih h.2 hs .start ((p, l) :: opened)
    have hbody : Node.Alike (.paren p l'.node) (.paren p (body.node m)) :=
      (htakes.node (.refl _)).paren p
    refine ⟨l.push (.paren p l'.node), ?_, .ofPush l hbody⟩
    rw [lexemes, List.cons_append, List.foldlM_cons]
    exact foldlM_append hl'
  | times body q ih =>
    obtain ⟨hbody, hsingle, hlexemes, hfits, hq⟩ := h
    rw [node, Quantifier.node_of_text_ne_nil hq, Node.repeatsSoundly, Bool.and_eq_true] at hs
    obtain ⟨l', hl', htakes⟩ := ih hbody hs.1 l opened
    obtain ⟨n, rfl, hn⟩ := htakes.single hsingle hlexemes
    have hrepeat : n.isRepeatable = true := hn.isRepeatable.trans hs.2
    have hnode : Node.Alike (.times n q.lower (q.upper.bind upperBound) (!m.reluctant))
        ((Phrase.times body q).node m) := by
      rw [node, Quantifier.node_of_text_ne_nil hq]
      exact hn.times _ _ _
    refine ⟨_, ?_, .ofPush l hnode⟩
    rw [lexemes, foldlM_append hl']
    simp [Stack.feed, Level.repeatLast, Level.push, hrepeat]
  | seq a b iha ihb =>
    rw [node, Node.repeatsSoundly, Bool.and_eq_true] at hs
    obtain ⟨l', hl', htakes⟩ := iha h.1.1 hs.1 l opened
    obtain ⟨l'', hl'', htakes'⟩ := ihb h.2.1 hs.2 l' opened
    have hextends := (htakes.behind h.1.2.2).trans (htakes'.behind h.2.2.2)
    exact ⟨l'', (foldlM_append hl').trans hl'', .ofExtends hextends fun hn => hn.elim⟩
  | alt a b iha ihb =>
    rw [node, Node.repeatsSoundly, Bool.and_eq_true] at hs
    obtain ⟨l', hl', htakes⟩ := iha h.1 hs.1 l opened
    obtain ⟨l'', hl'', htakes'⟩ := ihb h.2 hs.2 l'.split opened
    refine ⟨l'', ?_, fun hbar => (by cases hbar), fun hn => hn.elim, fun hl => ?_⟩
    · rw [lexemes, foldlM_append hl', List.foldlM_cons]
      exact hl''
    · have hsplit := (htakes'.node (.refl _)).trans (l'.split_node (b.node m))
      have hboth := (htakes.node hl).alt (.refl (b.node m))
      exact (hsplit.trans hboth).trans (Node.ofAlternatives_alt_alike _ _ _)

theorem repeatsSoundly_sign (m : Modes) (s : Sign) : (s.node m).repeatsSoundly = true := by
  unfold Sign.node
  split <;> rfl

theorem foldlM_error {ks : List Lexeme} (ls : List Lexeme) {s : Stack} {e : SyntaxError}
    (h : ks.foldlM Stack.feed s = .error e) : (ks ++ ls).foldlM Stack.feed s = .error e := by
  rw [List.foldlM_append, h]
  rfl

/-- Any other phrase is refused. -/
theorem foldlM_unsound {m : Modes} {p : Phrase} (h : p.Proper m)
    (hs : (p.node m).repeatsSoundly = false) (l : Level) (opened : List (Paren × Level)) :
    (p.lexemes m).foldlM Stack.feed ⟨l, opened⟩ = .error .nothingToRepeat := by
  induction p generalizing l opened with
  | empty => cases hs
  | sign s =>
    rw [node, repeatsSoundly_sign] at hs
    cases hs
  | paren p body ih =>
    rw [lexemes, List.cons_append, List.foldlM_cons]
    exact foldlM_error [.closing] (ih h.2 hs .start ((p, l) :: opened))
  | times body q ih =>
    obtain ⟨hbody, hsingle, hlexemes, hfits, hq⟩ := h
    rw [node, Quantifier.node_of_text_ne_nil hq, Node.repeatsSoundly] at hs
    by_cases hinner : (body.node m).repeatsSoundly = true
    · obtain ⟨l', hl', htakes⟩ := foldlM_lexemes hbody hinner l opened
      obtain ⟨n, rfl, hn⟩ := htakes.single hsingle hlexemes
      have hrepeat : n.isRepeatable = false := by
        rw [hn.isRepeatable]
        simpa [hinner] using hs
      rw [lexemes, foldlM_append hl']
      simp [Stack.feed, Level.repeatLast, Level.push, hrepeat]
    · exact foldlM_error _ (ih hbody (Bool.not_eq_true _ ▸ hinner) l opened)
  | seq a b iha ihb =>
    rw [node, Node.repeatsSoundly] at hs
    by_cases ha : (a.node m).repeatsSoundly = true
    · obtain ⟨l', hl', _⟩ := foldlM_lexemes h.1.1 ha l opened
      rw [lexemes, foldlM_append hl']
      exact ihb h.2.1 (by simpa [ha] using hs) l' opened
    · exact foldlM_error _ (iha h.1.1 (Bool.not_eq_true _ ▸ ha) l opened)
  | alt a b iha ihb =>
    rw [node, Node.repeatsSoundly] at hs
    by_cases ha : (a.node m).repeatsSoundly = true
    · obtain ⟨l', hl', _⟩ := foldlM_lexemes h.1 ha l opened
      rw [lexemes, foldlM_append hl', List.foldlM_cons]
      exact ihb h.2 (by simpa [ha] using hs) l'.split opened
    · exact foldlM_error _ (iha h.1 (Bool.not_eq_true _ ▸ ha) l opened)

end Phrase

/-- The tree of a pattern whose modes are set from outside. -/
def Node.parseIn (m : Modes) (t : Text) : Except SyntaxError Node := do
  Node.ofLexemes (← lexemesFrom ⟨m, [], false⟩ 0 t)

namespace Phrase

variable {m : Modes} {p : Phrase}

theorem parseIn_text (h : p.Proper m) (hhash : m.extended = true → p.Hashless) :
    Node.parseIn m p.text = Node.ofLexemes (p.lexemes m) := by
  have hcut := lexemesFrom_whole (r := ⟨m, [], false⟩) h hhash
  rw [Node.parseIn, hcut]
  rfl

theorem parseIn_sound (h : p.Proper m) (hhash : m.extended = true → p.Hashless)
    (hs : (p.node m).repeatsSoundly = true) :
    ∃ n, Node.parseIn m p.text = .ok n ∧ Node.Alike n (p.node m) := by
  obtain ⟨l, hl, htakes⟩ := foldlM_lexemes h hs .start []
  refine ⟨l.node, ?_, htakes.node (.refl _)⟩
  rw [parseIn_text h hhash, Node.ofLexemes, Stack.start, hl]
  rfl

end Phrase

def Level.IsSound (l : Level) : Prop :=
  (∀ n ∈ l.branches, n.repeatsSoundly = true) ∧ ∀ n ∈ l.items, n.repeatsSoundly = true

theorem Level.IsSound.push {l : Level} (h : l.IsSound) {n : Node} (hn : n.repeatsSoundly = true) :
    (l.push n).IsSound := by
  refine ⟨h.1, fun k hk => ?_⟩
  rcases List.mem_cons.mp hk with rfl | hk
  · exact hn
  · exact h.2 k hk

theorem Level.IsSound.branch {l : Level} (h : l.IsSound) : l.branch.repeatsSoundly = true :=
  Node.isHereditary_repeatsSoundly.ofItems fun n hn => h.2 n (List.mem_reverse.mp hn)

theorem Level.IsSound.node {l : Level} (h : l.IsSound) : l.node.repeatsSoundly = true := by
  rw [node_eq]
  apply Node.isHereditary_repeatsSoundly.ofAlternatives
  intro n hn
  rcases List.mem_append.mp hn with hn | hn
  · exact h.1 n (List.mem_reverse.mp hn)
  · rw [List.mem_singleton.mp hn]
    exact h.branch

def Stack.IsSound (s : Stack) : Prop := s.current.IsSound ∧ ∀ o ∈ s.opened, o.2.IsSound

theorem Level.IsSound.repeatLast {l l' : Level} (h : l.IsSound) {min : Nat} {max : Option Nat}
    {greedy atomic : Bool} (hl : l.repeatLast min max greedy atomic = .ok l') : l'.IsSound := by
  unfold Level.repeatLast at hl
  split at hl
  next => cases hl
  next n ns hitems =>
    split at hl
    next hrepeat =>
      cases hl
      have hitem := h.2
      rw [hitems] at hitem
      refine ⟨h.1, fun k hk => ?_⟩
      rcases List.mem_cons.mp hk with rfl | hk
      · have hn := hitem n List.mem_cons_self
        cases atomic <;> simp [Node.repeatsSoundly, hn, hrepeat]
      · exact hitem k (List.mem_cons_of_mem n hk)
    next => cases hl

theorem Stack.IsSound.feed {s t : Stack} (h : s.IsSound) {x : Lexeme} (ht : s.feed x = .ok t) :
    t.IsSound := by
  cases x with
  | single y =>
    cases ht
    exact ⟨h.1.push rfl, h.2⟩
  | anchor a =>
    cases ht
    exact ⟨h.1.push rfl, h.2⟩
  | opening p =>
    cases ht
    refine ⟨⟨by simp [Level.start], by simp [Level.start]⟩, fun o ho => ?_⟩
    rcases List.mem_cons.mp ho with rfl | ho
    · exact h.1
    · exact h.2 o ho
  | closing =>
    rw [Stack.feed] at ht
    split at ht
    next => cases ht
    next p outer opened hopened =>
      cases ht
      have houter := h.2
      rw [hopened] at houter
      have hgroup : (Node.paren p s.current.node).repeatsSoundly = true := h.1.node
      exact ⟨(houter _ List.mem_cons_self).push hgroup,
        fun o ho => houter o (List.mem_cons_of_mem _ ho)⟩
  | bar =>
    cases ht
    refine ⟨⟨fun n hn => ?_, by simp [Level.split]⟩, h.2⟩
    rcases List.mem_cons.mp hn with rfl | hn
    · exact h.1.branch
    · exact h.1.1 n hn
  | quantifier min max greedy atomic =>
    obtain ⟨l, hl, ht⟩ := exists_of_bind_eq_ok ht
    cases ht
    exact ⟨h.1.repeatLast hl, h.2⟩

theorem Stack.IsSound.foldlM {ls : List Lexeme} {s t : Stack} (h : s.IsSound)
    (ht : ls.foldlM Stack.feed s = .ok t) : t.IsSound :=
  foldlM_keeps (fun hs hx => hs.feed hx) h ht

/-- In a tree that is read everything repeated can be repeated. -/
theorem Node.repeatsSoundly_of_parseIn {m : Modes} {t : Text} {n : Node}
    (h : Node.parseIn m t = .ok n) : n.repeatsSoundly = true := by
  have hstart : Stack.start.IsSound :=
    ⟨⟨by simp [Stack.start, Level.start], by simp [Stack.start, Level.start]⟩,
      by simp [Stack.start]⟩
  obtain ⟨ls, -, hn⟩ := exists_of_bind_eq_ok h
  obtain ⟨s, hs, hfinish⟩ := exists_of_bind_eq_ok hn
  unfold Stack.finish at hfinish
  split at hfinish
  · cases hfinish
    exact (hstart.foldlM hs).1.node
  · cases hfinish

end Dialect
end PatternBuilder
