import Mathlib.Data.List.Basic
import PatternBuilder.Clause.Text
import PatternBuilder.Proofs.Alike

/-!
# Phrases

The concrete syntax of the pattern text that is generated: which characters stand alone, which are
escaped, which parentheses belong together. Text and tree are both read off a phrase.
-/

namespace PatternBuilder

open Dialect

def Atom.IsMember : Atom → Prop
  | .range r => r.isForward = true
  | .char _ => True
  | .literal t => t = []
  | .token t => ∃ c, t = ['\\', c] ∧ ((shorthand? c).isSome = true ∨ c = 't')

namespace Atom

def isLoose : Atom → Bool
  | .range _ => false
  | _ => true

/-- Nothing loose is there twice, and no loose character is inside a range. -/
def AreApart (as : List Atom) : Prop :=
  (∀ a, a.isLoose = true → as.count a ≤ 1) ∧
    ∀ c r, .char c ∈ as → .range r ∈ as → r.contains c = false

end Atom

namespace Dialect

inductive Sign where
  /-- A character as it is: one without a meaning of its own, a wildcard or an anchor. -/
  | bare (c : Char)
  | escape (c : Char)
  | bracket (as : List Atom)

namespace Sign

def text : Sign → Text
  | .bare c => [c]
  | .escape c => ['\\', c]
  | .bracket as => '[' :: as.flatMap Atom.memberText ++ [']']

/-- A blank stands for no lexeme in extended mode. -/
def lexeme? (m : Modes) : Sign → Option Lexeme
  | .bare c =>
    if c = '.' then some (.single (if m.dotAll then CharSet.empty else .single '\n').complement)
    else if c = '^' then some (.anchor (if m.multiLine then .lineStart else .textStart))
    else if c = '$' then some (.anchor (if m.multiLine then .lineEnd else .textEnd))
    else if m.extended && isBlank c then none
    else some (m.single c)
  | .escape c =>
    match anchor? c, shorthand? c with
    | some a, _ => some (.anchor a)
    | none, some s => some (.single s)
    | none, none => some (m.single ((control? c).getD c))
  | .bracket as => some (.single (closed m.ignoreCase (Atom.setOf as)))

def node (m : Modes) (s : Sign) : Node :=
  match s.lexeme? m with
  | some (.single x) => .single x
  | some (.anchor a) => .anchor a
  | _ => .empty

def Proper : Sign → Prop
  | .bare c => c ∉ Escape.special ∨ c ∈ ['.', '^', '$']
  | .escape c => c ∈ Escape.special ∨ (shorthand? c).isSome = true ∨ c ∈ ['t', 'A', 'z']
  | .bracket as => (∀ a ∈ as, a.IsMember) ∧ Atom.AreApart as ∧ as.flatMap Atom.memberText ≠ []

def Hashless : Sign → Prop
  | .bare c => c ≠ '#'
  | _ => True

def mark : Sign → Mark
  | .bare _ => .plain
  | .escape _ => .plain
  | .bracket _ => .bracket

theorem text_ne_nil (s : Sign) : s.text ≠ [] := by
  cases s <;> simp [text]

end Sign

def Paren.opening : Paren → Text
  | .plain => ['(', '?', ':']
  | .capture => ['(']
  | .named name => '(' :: '?' :: '<' :: name ++ ['>']
  | .atomic => ['(', '?', '>']
  | .look false false => ['(', '?', '=']
  | .look false true => ['(', '?', '!']
  | .look true false => ['(', '?', '<', '=']
  | .look true true => ['(', '?', '<', '!']

theorem Paren.opening_eq_cons (p : Paren) : p.opening = '(' :: p.opening.tail := by
  rcases p with _ | _ | name | _ | ⟨behind, negated⟩
  case look => cases behind <;> cases negated <;> rfl
  all_goals rfl

def IsGroupName (name : Text) : Prop := name ≠ [] ∧ ∀ c ∈ name, isNameChar c = true

instance (name : Text) : Decidable (IsGroupName name) := inferInstanceAs (Decidable (_ ∧ _))

def Paren.Proper : Paren → Prop
  | .named name => IsGroupName name
  | _ => True

end Dialect

/-- The numbers of the quantifier are words of 64 bits. -/
def Quantifier.Fits (q : Quantifier) : Prop := q.lower ≤ noBound ∧ ∀ n ∈ q.upper, n ≤ noBound

instance (q : Quantifier) : Decidable q.Fits := inferInstanceAs (Decidable (_ ∧ _))

theorem Quantifier.text_eq_nil {q : Quantifier} :
    q.text = [] ↔ q.lower = 1 ∧ q.upper = some 1 := by
  constructor
  · intro h
    unfold text at h
    split at h
    next hl hu => exact ⟨hl, hu⟩
    next => cases h
    next => cases h
    next => cases h
    next hone hplus hstar hmaybe =>
      cases q with
      | exactly n => cases h
      | range min max => cases h
      | zeroOrMore => exact absurd rfl (hstar rfl)
      | oneOrMore => exact absurd rfl (hplus rfl)
      | zeroOrOne => exact absurd rfl (hmaybe rfl)
  · rintro ⟨hl, hu⟩
    rw [text, hl, hu]
    rfl

theorem Quantifier.node_of_text_ne_nil {q : Quantifier} (h : q.text ≠ []) (m : Modes) (n : Node) :
    q.node m n = .times n q.lower (q.upper.bind upperBound) (!m.reluctant) :=
  if_neg fun ho => h (text_eq_nil.mpr ho)

namespace Dialect

inductive Phrase where
  | empty
  | sign (s : Sign)
  | paren (p : Paren) (body : Phrase)
  | times (body : Phrase) (q : Quantifier)
  | seq (first second : Phrase)
  | alt (first second : Phrase)

namespace Phrase

def text : Phrase → Text
  | .empty => []
  | .sign s => s.text
  | .paren p body => p.opening ++ body.text ++ [')']
  | .times body q => body.text ++ q.text
  | .seq a b => a.text ++ b.text
  | .alt a b => a.text ++ '|' :: b.text

def node (m : Modes) : Phrase → Node
  | .empty => .empty
  | .sign s => s.node m
  | .paren p body => .paren p (body.node m)
  | .times body q => q.node m (body.node m)
  | .seq a b => .seq (a.node m) (b.node m)
  | .alt a b => .alt (a.node m) (b.node m)

def lexemes (m : Modes) : Phrase → List Lexeme
  | .empty => []
  | .sign s => (s.lexeme? m).toList
  | .paren p body => .opening p :: body.lexemes m ++ [.closing]
  | .times body q =>
    body.lexemes m ++ [.quantifier q.lower (q.upper.bind upperBound) (!m.reluctant) false]
  | .seq a b => a.lexemes m ++ b.lexemes m
  | .alt a b => a.lexemes m ++ .bar :: b.lexemes m

def IsSingle : Phrase → Prop
  | .sign _ => True
  | .paren _ _ => True
  | _ => False

def hasBar : Phrase → Bool
  | .alt _ _ => true
  | _ => false

/-- What is written reads back as it is meant: alternatives lie in parentheses or on the outside,
and each quantifier has something before it to which it belongs. -/
def Proper (m : Modes) : Phrase → Prop
  | .empty => True
  | .sign s => s.Proper
  | .paren p body => p.Proper ∧ body.Proper m
  | .times body q =>
    body.Proper m ∧ body.IsSingle ∧ body.lexemes m ≠ [] ∧ q.Fits ∧ q.text ≠ []
  | .seq a b =>
    (a.Proper m ∧ a ≠ .empty ∧ a.hasBar = false) ∧ b.Proper m ∧ b ≠ .empty ∧ b.hasBar = false
  | .alt a b => a.Proper m ∧ b.Proper m

/-- No hash is written as it is. In extended mode that would begin a comment. -/
def Hashless : Phrase → Prop
  | .empty => True
  | .sign s => s.Hashless
  | .paren _ body => body.Hashless
  | .times body _ => body.Hashless
  | .seq a b => a.Hashless ∧ b.Hashless
  | .alt a b => a.Hashless ∧ b.Hashless

theorem paren_text_append (p : Paren) (body : Phrase) (rest : Text) :
    (Phrase.paren p body).text ++ rest =
      '(' :: (p.opening.tail ++ (body.text ++ ')' :: rest)) := by
  rw [text, p.opening_eq_cons]
  simp

theorem text_eq_nil {m : Modes} {p : Phrase} (h : p.Proper m) : p.text = [] ↔ p = .empty := by
  induction p with
  | empty => simp [text]
  | sign s => simp [text, s.text_ne_nil]
  | paren p body => simp [text]
  | times body q =>
    have hq : q.text ≠ [] := h.2.2.2.2
    simp [text, hq]
  | seq a b iha ihb =>
    have ha : a.text ≠ [] := fun hn => h.1.2.1 ((iha h.1.1).mp hn)
    simp [text, ha]
  | alt a b => simp [text]

theorem text_ne_nil_of_isSingle {p : Phrase} (h : p.IsSingle) : p.text ≠ [] := by
  cases p with
  | sign s => exact s.text_ne_nil
  | paren p body => simp [text]
  | _ => exact h.elim

/-- The characters that would be read as a quantifier, or as a mark of one, behind an item. -/
def repeating : List Char := ['?', '*', '+', '\x7b']

/-- No phrase can be taken for the quantifier of what stands before it. -/
theorem head_not_repeating {m : Modes} {p : Phrase} (h : p.Proper m) :
    ∀ c ∈ p.text.head?, c ∉ repeating := by
  induction p with
  | empty => simp [text]
  | sign s =>
    cases s with
    | bare c =>
      have hspecial : ∀ d ∈ repeating, d ∈ Escape.special := by decide
      have hsigns : ∀ d ∈ repeating, d ∉ ['.', '^', '$'] := by decide
      simp only [text, Sign.text, List.head?_cons, Option.mem_some, forall_eq']
      intro hc
      rcases h with h | h
      · exact h (hspecial c hc)
      · exact hsigns c hc h
    | escape c => simp [text, Sign.text, repeating]
    | bracket as => simp [text, Sign.text, repeating]
  | paren p body =>
    rcases p with _ | _ | name | _ | ⟨behind, negated⟩
    case look => cases behind <;> cases negated <;> simp [text, Paren.opening, repeating]
    all_goals simp [text, Paren.opening, repeating]
  | times body q ih =>
    rw [text, List.head?_append_of_ne_nil _ (text_ne_nil_of_isSingle h.2.1)]
    exact ih h.1
  | seq a b iha =>
    rw [text, List.head?_append_of_ne_nil _ fun hn => h.1.2.1 ((text_eq_nil h.1.1).mp hn)]
    exact iha h.1.1
  | alt a b iha =>
    by_cases ha : a.text = []
    · simp [text, ha, repeating]
    · rw [text, List.head?_append_of_ne_nil _ ha]
      exact iha h.1

end Phrase
end Dialect
end PatternBuilder
