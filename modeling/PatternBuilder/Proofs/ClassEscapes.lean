import PatternBuilder.Proofs.FoldedAtoms
import PatternBuilder.Proofs.Parsing

/-!
# Class escapes outside of a class

A text that is all backslashes but for one character at most is escaped for a class, and yet it is
written as it is. What the dialect reads there: a character that means nothing in a class was left
without its backslash, so that it is read for what it means outside of one.
-/

namespace PatternBuilder

open Dialect

namespace Dialect

/-- The lexemes of a character that is escaped for a class, where it stands behind an item and
before an escape sequence. Braces bound nothing there. -/
def misread : Char → List Lexeme
  | '(' => [.opening .capture]
  | ')' => [.closing]
  | '|' => [.bar]
  | '?' => [.quantifier 0 (some 1) true false]
  | '*' => [.quantifier 0 none true false]
  | '+' => [.quantifier 1 none true false]
  | '.' => [.single (CharSet.single '\n').complement]
  | '$' => [.anchor .textEnd]
  | c => [.single (.single c)]

/-- The characters that mean something outside of a class, where they stand alone, and nothing in
one. -/
def outsiders : List Char := ['(', ')', '|', '?', '*', '+', '.', '$']

theorem misread_of_not_mem {c : Char} (h : c ∉ outsiders) : misread c = [.single (.single c)] := by
  simp only [outsiders, List.mem_cons, not_or] at h
  rw [misread] <;> simp [h]

def Reading.behind : Reading := ⟨{}, [], true⟩

theorem lexemesFrom_backslash {r : Reading} (hr : r.modes = {}) (rest : Text) :
    lexemesFrom r 0 ('\\' :: '\\' :: rest) =
      after (misread '\\') (lexemesFrom { r with afterItem := true } 0 rest) := by
  have hproper : (Sign.escape '\\').Proper := .inl (by decide)
  have hcut := lexemesFrom_sign (r := r) hproper (by simp [hr]) rest
  have hlexeme : (Sign.escape '\\').lexeme? r.modes = some (.single (.single '\\')) := by
    rw [hr]
    rfl
  rw [hlexeme, Option.isSome_some, Bool.or_true] at hcut
  exact hcut

theorem cut_misread {c : Char} (hc : c ≠ '\\') (u : Text) :
    ∃ next d t, Escape.inClass [c] = d :: t ∧ next.modes = {} ∧
      Reading.behind.skip (d :: (t ++ '\\' :: u)) = .ok (d :: (t ++ '\\' :: u)) ∧
      Reading.behind.cut d (t ++ '\\' :: u) = .ok ⟨misread c, next, '\\' :: u⟩ := by
  by_cases hspecial : c ∈ '-' :: Escape.special
  · simp only [Escape.special, List.mem_cons, List.not_mem_nil, or_false] at hspecial
    rcases hspecial with rfl | rfl | rfl | rfl | rfl | rfl | rfl | rfl | rfl | rfl | rfl | rfl |
      rfl | rfl | rfl
    all_goals first
      | exact absurd rfl hc
      | exact ⟨_, _, _, rfl, rfl, rfl, rfl⟩
  · have hbare : ∀ d ∈ Escape.classSpecial ++ Phrase.repeating ++ outsiders,
        d ∈ '-' :: Escape.special := by
      decide
    simp only [List.append_assoc, List.mem_append] at hbare
    have hclass : c ∉ Escape.classSpecial := fun h => hspecial (hbare c (.inl h))
    have hrepeating : c ∉ Phrase.repeating := fun h => hspecial (hbare c (.inr (.inl h)))
    have houtsider : c ∉ outsiders := fun h => hspecial (hbare c (.inr (.inr h)))
    have hordinary : c ∉ Escape.special := fun h => hspecial (List.mem_cons_of_mem '-' h)
    refine ⟨.behind, c, [], ?_, rfl, ?_, ?_⟩
    · simp [Escape.inClass, Escape.escapeAll, Escape.escapeChar, hclass]
    · exact skipGap_cons Bool.noConfusion fun h => absurd (h ▸ by decide) hordinary
    · rw [cut_eq_itemAt hrepeating, misread_of_not_mem houtsider, List.nil_append,
        itemAt_plain hordinary]
      rfl

/-- Any other character, before an escape sequence. -/
theorem lexemesFrom_misread {c : Char} (hc : c ≠ '\\') (u : Text) :
    ∃ r : Reading, r.modes = {} ∧
      lexemesFrom .behind 0 (Escape.inClass [c] ++ '\\' :: u) =
        after (misread c) (lexemesFrom r 0 ('\\' :: u)) := by
  obtain ⟨next, d, t, htext, hmodes, hskip, hcut⟩ := cut_misread hc u
  refine ⟨next, hmodes, ?_⟩
  rw [htext, List.cons_append]
  exact lexemesFrom_cut hskip hcut (List.suffix_append t _)

/-- What is left of such a text begins with an escape sequence, be it that of the anchor behind. -/
theorem exists_escape {s : Text} (hs : s.plainCount = 0) :
    ∃ u, Escape.inClass s ++ ['\\', 'z'] = '\\' :: u := by
  cases s with
  | nil => exact ⟨['z'], rfl⟩
  | cons c s =>
    have hc : c = '\\' := by
      by_contra hne
      simp [Text.plainCount, hne] at hs
    subst hc
    exact ⟨'\\' :: (Escape.inClass s ++ ['\\', 'z']), rfl⟩

theorem lexemesFrom_textEnd {r : Reading} (hr : r.modes = {}) :
    lexemesFrom r 0 ['\\', 'z'] = .ok [.anchor .textEnd] := by
  have hproper : (Sign.escape 'z').Proper := .inr (.inr (by decide))
  have hcut := lexemesFrom_sign (r := r) hproper (by simp [hr]) []
  rw [hr] at hcut
  exact hcut

theorem lexemes_textStart (t : Text) :
    lexemes ('\\' :: 'A' :: t) = after [.anchor .textStart] (lexemesFrom .behind 0 t) := by
  have hproper : (Sign.escape 'A').Proper := .inr (.inr (by decide))
  have hlexeme : (Sign.escape 'A').lexeme? Reading.start.modes = some (.anchor .textStart) := rfl
  have hcut := lexemesFrom_sign (r := .start) hproper nofun t
  rw [hlexeme] at hcut
  exact hcut

/-- The induction is on the text. Once the other character has been read only backslashes follow,
which are read the same wherever they stand. -/
theorem lexemesFrom_inClass {s : Text} {r : Reading} (hr : r.modes = {}) (hs : s.plainCount ≤ 1)
    (hbehind : s.plainCount ≠ 0 → r = .behind) :
    lexemesFrom r 0 (Escape.inClass s ++ ['\\', 'z']) =
      .ok (s.flatMap misread ++ [.anchor .textEnd]) := by
  induction s generalizing r with
  | nil => exact lexemesFrom_textEnd hr
  | cons c s ih =>
    have hcount : Text.plainCount (c :: s) = Text.plainCount [c] + Text.plainCount s :=
      Escape.plainCount_cons c s
    by_cases hc : c = '\\'
    · subst hc
      have hzero : Text.plainCount ['\\'] = 0 := rfl
      have hrest := ih (r := { r with afterItem := true }) hr (by omega) fun hne => by
        rw [hbehind (by omega)]
        rfl
      have htext : Escape.inClass ('\\' :: s) ++ ['\\', 'z'] =
          '\\' :: '\\' :: (Escape.inClass s ++ ['\\', 'z']) := rfl
      rw [htext, lexemesFrom_backslash hr, hrest]
      simp [after, Except.map]
    · have hone : Text.plainCount [c] = 1 := by simp [Text.plainCount, hc]
      obtain rfl := hbehind (by omega)
      obtain ⟨u, hu⟩ := exists_escape (s := s) (by omega)
      obtain ⟨next, hmodes, hcut⟩ := lexemesFrom_misread hc u
      have hrest := ih hmodes (by omega) fun hne => by omega
      have htext : Escape.inClass (c :: s) = Escape.inClass [c] ++ Escape.inClass s :=
        Escape.escapeAll_append _ [c] s
      rw [htext, List.append_assoc, hu, hcut, ← hu, hrest]
      simp [after, Except.map]

theorem lexemes_inClass {s : Text} (hs : s.plainCount ≤ 1) :
    lexemes ('\\' :: 'A' :: (Escape.inClass s ++ ['\\', 'z'])) =
      .ok ([.anchor .textStart] ++ s.flatMap misread ++ [.anchor .textEnd]) := by
  rw [lexemes_textStart, lexemesFrom_inClass (r := .behind) rfl hs fun _ => rfl]
  rfl

def Reads (ks : List Lexeme) (ns : List Node) : Prop :=
  ∀ (l : Level) (opened : List (Paren × Level)), ks.foldlM Stack.feed ⟨l, opened⟩ =
    .ok ⟨{ l with items := ns.reverse ++ l.items }, opened⟩

namespace Reads

variable {ks ls : List Lexeme} {ms ns : List Node}

theorem nil : Reads [] [] := fun _ _ => rfl

theorem single (x : CharSet) : Reads [.single x] [.single x] := fun _ _ => rfl

theorem anchor (a : Anchor) : Reads [.anchor a] [.anchor a] := fun _ _ => rfl

theorem repeated (x : CharSet) (min : Nat) (max : Option Nat) (greedy : Bool) :
    Reads [.single x, .quantifier min max greedy false] [.times (.single x) min max greedy] :=
  fun _ _ => rfl

theorem append (hk : Reads ks ms) (hl : Reads ls ns) : Reads (ks ++ ls) (ms ++ ns) := by
  intro l opened
  rw [Phrase.foldlM_append (hk l opened), hl, List.reverse_append, List.append_assoc]

theorem flatMap {α : Type} {f : α → List Lexeme} {g : α → Node} {xs : List α}
    (h : ∀ x ∈ xs, Reads (f x) [g x]) : Reads (xs.flatMap f) (xs.map g) := by
  induction xs with
  | nil => exact nil
  | cons x xs ih =>
    have hxs := ih fun y hy => h y (List.mem_cons_of_mem x hy)
    exact (h x List.mem_cons_self).append hxs

theorem ofLexemes (h : Reads ks ns) : Node.ofLexemes ks = .ok (Node.ofItems ns) := by
  rw [Node.ofLexemes, Stack.start, h]
  simp [bind, Except.bind, Stack.finish, Level.start, Level.node, Level.branch, Node.ofBranches]

theorem ofLexemes_bar (hk : Reads ks ms) (hl : Reads ls ns) :
    Node.ofLexemes (ks ++ .bar :: ls) = .ok (.alt (Node.ofItems ms) (Node.ofItems ns)) := by
  rw [Node.ofLexemes, Stack.start, Phrase.foldlM_append (hk .start []), List.foldlM_cons]
  change (Except.bind (ls.foldlM Stack.feed ⟨Level.split ⟨[], ms.reverse ++ []⟩, []⟩) _) = _
  rw [hl]
  simp [Except.bind, Stack.finish, Level.split, Level.node, Level.branch, Node.ofBranches]

theorem ofLexemes_opening (hk : Reads ks ms) (hl : Reads ls ns) (p : Paren) :
    Node.ofLexemes (ks ++ .opening p :: ls) = .error .unclosedGroup := by
  rw [Node.ofLexemes, Stack.start, Phrase.foldlM_append (hk .start []), List.foldlM_cons]
  change (Except.bind (ls.foldlM Stack.feed ⟨.start, [(p, ⟨[], ms.reverse ++ []⟩)]⟩) _) = _
  rw [hl]
  rfl

theorem ofLexemes_closing (hk : Reads ks ms) (ls : List Lexeme) :
    Node.ofLexemes (ks ++ .closing :: ls) = .error .unopenedGroup := by
  rw [Node.ofLexemes, Stack.start, Phrase.foldlM_append (hk .start [])]
  rfl

theorem text {s : Text} (h : ∀ c ∈ s, c ∉ outsiders) :
    Reads (s.flatMap misread) (s.map ({} : Modes).charNode) := by
  refine flatMap fun c hc => ?_
  rw [misread_of_not_mem (h c hc)]
  exact single _

theorem backslashes {s : Text} (h : ∀ c ∈ s, c = '\\') :
    Reads (s.flatMap misread) (s.map ({} : Modes).charNode) := by
  refine text fun c hc => ?_
  rw [h c hc]
  decide

end Reads

theorem ofLexemes_anchor (a : Anchor) (min : Nat) (max : Option Nat) (greedy atomic : Bool)
    (ls : List Lexeme) :
    Node.ofLexemes (.anchor a :: .quantifier min max greedy atomic :: ls) =
      .error .nothingToRepeat := rfl

end Dialect
end PatternBuilder
