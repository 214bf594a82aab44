import PatternBuilder.Dialect.Grammar
import PatternBuilder.Proofs.Meaning

/-!
# Trees that mean the same by their shape

Plain groups, the bracketing of sequences and of alternatives, and empty members of a sequence do
not matter. What decides whether a quantifier can follow is the same for trees that are alike.
-/

namespace PatternBuilder

open Dialect

namespace Dialect.Node

inductive Alike : Node → Node → Prop where
  | refl (n : Node) : Alike n n
  | symm {m n : Node} : Alike m n → Alike n m
  | trans {l m n : Node} : Alike l m → Alike m n → Alike l n
  | plain (n : Node) : Alike (.paren .plain n) n
  | emptySeq (n : Node) : Alike (.seq .empty n) n
  | seqEmpty (n : Node) : Alike (.seq n .empty) n
  | seqAssoc (l m n : Node) : Alike (.seq (.seq l m) n) (.seq l (.seq m n))
  | altAssoc (l m n : Node) : Alike (.alt (.alt l m) n) (.alt l (.alt m n))
  | paren (p : Paren) {m n : Node} : Alike m n → Alike (.paren p m) (.paren p n)
  | times (min : Nat) (max : Option Nat) (greedy : Bool) {m n : Node} :
      Alike m n → Alike (.times m min max greedy) (.times n min max greedy)
  | seq {a b c d : Node} : Alike a c → Alike b d → Alike (.seq a b) (.seq c d)
  | alt {a b c d : Node} : Alike a c → Alike b d → Alike (.alt a b) (.alt c d)

theorem Alike.of_eq {m n : Node} (h : m = n) : Alike m n := h ▸ .refl m

/-- Everything repeated can be repeated. -/
def repeatsSoundly : Node → Bool
  | .empty => true
  | .single _ => true
  | .anchor _ => true
  | .paren _ body => body.repeatsSoundly
  | .times body _ _ _ => body.repeatsSoundly && body.isRepeatable
  | .seq a b => a.repeatsSoundly && b.repeatsSoundly
  | .alt a b => a.repeatsSoundly && b.repeatsSoundly

theorem Alike.vanishes {m n : Node} (h : Alike m n) : m.vanishes = n.vanishes := by
  induction h with
  | refl n => rfl
  | symm _ ih => exact ih.symm
  | trans _ _ ih₁ ih₂ => exact ih₁.trans ih₂
  | plain n => simp [Node.vanishes]
  | emptySeq n => simp [Node.vanishes]
  | seqEmpty n => simp [Node.vanishes]
  | seqAssoc l m n => simp [Node.vanishes, Bool.and_assoc]
  | altAssoc l m n => rfl
  | paren p _ ih => cases p <;> simp [Node.vanishes, ih]
  | times => rfl
  | seq _ _ ih₁ ih₂ => simp [Node.vanishes, ih₁, ih₂]
  | alt => rfl

theorem isRepeatable_of_vanishes {n : Node} (h : n.vanishes = true) : n.isRepeatable = false := by
  induction n with
  | empty => rfl
  | single s => cases h
  | anchor a => rfl
  | paren p body ih =>
    cases p with
    | plain => exact ih h
    | look behind negated => rfl
    | _ => cases h
  | times => cases h
  | seq a b iha ihb =>
    simp only [Node.vanishes, Bool.and_eq_true] at h
    rw [Node.isRepeatable, if_pos h.1]
    exact ihb h.2
  | alt => cases h

theorem Alike.isRepeatable {m n : Node} (h : Alike m n) : m.isRepeatable = n.isRepeatable := by
  induction h with
  | refl n => rfl
  | symm _ ih => exact ih.symm
  | trans _ _ ih₁ ih₂ => exact ih₁.trans ih₂
  | plain n => rfl
  | emptySeq n => simp [Node.isRepeatable, Node.vanishes]
  | seqEmpty n =>
    by_cases hv : n.vanishes = true
    · simp [Node.isRepeatable, hv, isRepeatable_of_vanishes hv]
    · simp [Node.isRepeatable, Node.vanishes, hv]
  | seqAssoc l m n =>
    cases hl : l.vanishes <;> cases hm : m.vanishes <;> cases hn : n.vanishes <;>
      simp [Node.isRepeatable, Node.vanishes, hl, hm, hn]
  | altAssoc l m n => rfl
  | paren p _ ih => cases p <;> simp [Node.isRepeatable, ih]
  | times => rfl
  | seq h₁ h₂ ih₁ ih₂ => simp [Node.isRepeatable, ih₁, ih₂, h₁.vanishes, h₂.vanishes]
  | alt => rfl

theorem Alike.captureCount {m n : Node} (h : Alike m n) : m.captureCount = n.captureCount := by
  induction h with
  | refl n => rfl
  | symm _ ih => exact ih.symm
  | trans _ _ ih₁ ih₂ => exact ih₁.trans ih₂
  | plain n => simp [Node.captureCount, Paren.captures]
  | emptySeq n => simp [Node.captureCount]
  | seqEmpty n => rfl
  | seqAssoc l m n => simp [Node.captureCount, Nat.add_assoc]
  | altAssoc l m n => simp [Node.captureCount, Nat.add_assoc]
  | paren p _ ih => simp [Node.captureCount, ih]
  | times min max greedy _ ih => exact ih
  | seq _ _ ih₁ ih₂ => simp [Node.captureCount, ih₁, ih₂]
  | alt _ _ ih₁ ih₂ => simp [Node.captureCount, ih₁, ih₂]

theorem Alike.names {m n : Node} (h : Alike m n) (base : Nat) : m.names base = n.names base := by
  induction h generalizing base with
  | refl n => rfl
  | symm _ ih => exact (ih base).symm
  | trans _ _ ih₁ ih₂ => exact (ih₁ base).trans (ih₂ base)
  | plain n => rfl
  | emptySeq n => simp [Node.names, Node.captureCount]
  | seqEmpty n => simp [Node.names]
  | seqAssoc l m n => simp [Node.names, Node.captureCount, Nat.add_assoc]
  | altAssoc l m n => simp [Node.names, Node.captureCount, Nat.add_assoc]
  | paren p _ ih => cases p <;> simp [Node.names, ih]
  | times min max greedy _ ih => exact ih base
  | seq h₁ _ ih₁ ih₂ => simp [Node.names, ih₁, ih₂, h₁.captureCount]
  | alt h₁ _ ih₁ ih₂ => simp [Node.names, ih₁, ih₂, h₁.captureCount]

def repeatsContent : Node → Bool
  | .empty => true
  | .single _ => true
  | .anchor _ => true
  | .paren _ body => body.repeatsContent
  | .times body _ _ _ => body.repeatsContent && !body.vanishes
  | .seq a b => a.repeatsContent && b.repeatsContent
  | .alt a b => a.repeatsContent && b.repeatsContent

theorem repeatsContent_of_repeatsSoundly {n : Node} (h : n.repeatsSoundly = true) :
    n.repeatsContent = true := by
  induction n with
  | empty => rfl
  | single s => rfl
  | anchor a => rfl
  | paren p body ih => exact ih h
  | times body min max greedy ih =>
    simp only [repeatsSoundly, Bool.and_eq_true] at h
    have hv : body.vanishes = false := by
      rw [Bool.eq_false_iff]
      intro hv
      have hr := isRepeatable_of_vanishes hv
      exact absurd (h.2.symm.trans hr) (by decide)
    simp [repeatsContent, ih h.1, hv]
  | seq a b iha ihb =>
    simp only [repeatsSoundly, Bool.and_eq_true] at h
    simp [repeatsContent, iha h.1, ihb h.2]
  | alt a b iha ihb =>
    simp only [repeatsSoundly, Bool.and_eq_true] at h
    simp [repeatsContent, iha h.1, ihb h.2]

theorem append_alike (a b : Node) : Alike (a.append b) (.seq a b) := by
  cases a with
  | empty => exact (Alike.emptySeq b).symm
  | _ =>
    cases b with
    | empty => exact (Alike.seqEmpty _).symm
    | _ => exact .refl _

theorem append_eq_empty {a b : Node} : a.append b = .empty ↔ a = .empty ∧ b = .empty := by
  cases a <;> cases b <;> simp [append]

theorem ofItems_cons_alike (n : Node) (ns : List Node) :
    Alike (ofItems (n :: ns)) (.seq n (ofItems ns)) := by
  cases ns with
  | nil => exact (Alike.seqEmpty n).symm
  | cons m ms => exact .refl _

theorem ofItems_append_alike (ms ns : List Node) :
    Alike (ofItems (ms ++ ns)) (.seq (ofItems ms) (ofItems ns)) := by
  induction ms with
  | nil => exact (Alike.emptySeq _).symm
  | cons m ms ih =>
    have hsplit : Alike (.seq m (ofItems (ms ++ ns))) (.seq m (.seq (ofItems ms) (ofItems ns))) :=
      (Alike.refl m).seq ih
    have hfold : Alike (.seq (.seq m (ofItems ms)) (ofItems ns))
        (.seq (ofItems (m :: ms)) (ofItems ns)) :=
      (ofItems_cons_alike m ms).symm.seq (.refl _)
    exact (ofItems_cons_alike m _).trans (hsplit.trans ((Alike.seqAssoc _ _ _).symm.trans hfold))

theorem ofAlternatives_cons {ns : List Node} (n : Node) (h : ns ≠ []) :
    ofAlternatives (n :: ns) = .alt n (ofAlternatives ns) := by
  cases ns with
  | nil => exact absurd rfl h
  | cons m ms => rfl

theorem ofAlternatives_append_alike {ms ns : List Node} (hm : ms ≠ []) (hn : ns ≠ []) :
    Alike (ofAlternatives (ms ++ ns)) (.alt (ofAlternatives ms) (ofAlternatives ns)) := by
  induction ms with
  | nil => exact absurd rfl hm
  | cons m ms ih =>
    cases ms with
    | nil => exact .of_eq (ofAlternatives_cons m hn)
    | cons l ls =>
      have hrest := ih (List.cons_ne_nil l ls)
      exact ((Alike.refl m).alt hrest).trans (Alike.altAssoc m _ _).symm

theorem ofAlternatives_concat_alike (ms : List Node) {m n : Node} (h : Alike m n) :
    Alike (ofAlternatives (ms ++ [m])) (ofAlternatives (ms ++ [n])) := by
  by_cases hms : ms = []
  · subst hms
    exact h
  · have hm := ofAlternatives_append_alike hms (List.cons_ne_nil m [])
    have hn := ofAlternatives_append_alike hms (List.cons_ne_nil n [])
    exact hm.trans (((Alike.refl _).alt h).trans hn.symm)

theorem ofAlternatives_alt_alike (ms : List Node) (a b : Node) :
    Alike (.alt (ofAlternatives (ms ++ [a])) b) (ofAlternatives (ms ++ [.alt a b])) := by
  by_cases hms : ms = []
  · subst hms
    exact .refl _
  · have ha := ofAlternatives_append_alike hms (List.cons_ne_nil a [])
    have hab := ofAlternatives_append_alike hms (List.cons_ne_nil (Node.alt a b) [])
    exact (ha.alt (.refl b)).trans ((Alike.altAssoc _ a b).trans hab.symm)

/-- A property that a tree has exactly if all parts of its sequences and all of its alternatives
have it. Plain groups do not matter to it, and neither does the shape of what is inside of other
parentheses or repeated. -/
structure IsHereditary (f : Node → Bool) : Prop where
  empty : f .empty = true
  plain : ∀ n, f (.paren .plain n) = f n
  paren : ∀ p {m n}, f m = f n → f (.paren p m) = f (.paren p n)
  times : ∀ min max greedy {m n}, Alike m n → f m = f n →
    f (.times m min max greedy) = f (.times n min max greedy)
  seq : ∀ a b, f (.seq a b) = (f a && f b)
  alt : ∀ a b, f (.alt a b) = (f a && f b)

namespace IsHereditary

variable {f : Node → Bool}

theorem alike (hf : IsHereditary f) {m n : Node} (h : Alike m n) : f m = f n := by
  induction h with
  | refl n => rfl
  | symm _ ih => exact ih.symm
  | trans _ _ ih₁ ih₂ => exact ih₁.trans ih₂
  | plain n => exact hf.plain n
  | emptySeq n => simp [hf.seq, hf.empty]
  | seqEmpty n => simp [hf.seq, hf.empty]
  | seqAssoc l m n => simp [hf.seq, Bool.and_assoc]
  | altAssoc l m n => simp [hf.alt, Bool.and_assoc]
  | paren p _ ih => exact hf.paren p ih
  | times min max greedy h ih => exact hf.times min max greedy h ih
  | seq _ _ ih₁ ih₂ => simp [hf.seq, ih₁, ih₂]
  | alt _ _ ih₁ ih₂ => simp [hf.alt, ih₁, ih₂]

theorem append (hf : IsHereditary f) (a b : Node) : f (a.append b) = (f a && f b) :=
  (hf.alike (append_alike a b)).trans (hf.seq a b)

theorem ofItems (hf : IsHereditary f) {ns : List Node} (h : ∀ n ∈ ns, f n = true) :
    f (ofItems ns) = true := by
  induction ns with
  | nil => exact hf.empty
  | cons n ns ih =>
    have hns := ih fun k hk => h k (List.mem_cons_of_mem n hk)
    rw [hf.alike (ofItems_cons_alike n ns), hf.seq, h n List.mem_cons_self, hns]
    rfl

theorem ofAlternatives (hf : IsHereditary f) {ns : List Node} (h : ∀ n ∈ ns, f n = true) :
    f (ofAlternatives ns) = true := by
  induction ns with
  | nil => exact hf.empty
  | cons n ns ih =>
    have hn := h n List.mem_cons_self
    have hns := ih fun k hk => h k (List.mem_cons_of_mem n hk)
    by_cases hnil : ns = []
    · rw [hnil]
      exact hn
    · rw [ofAlternatives_cons n hnil, hf.alt, hn, hns]
      rfl

end IsHereditary

theorem isHereditary_repeatsSoundly : IsHereditary repeatsSoundly where
  empty := rfl
  plain _ := rfl
  paren _ _ _ h := h
  times _ _ _ _ _ halike h := by simp [repeatsSoundly, h, halike.isRepeatable]
  seq _ _ := rfl
  alt _ _ := rfl

theorem isHereditary_repeatsContent : IsHereditary repeatsContent where
  empty := rfl
  plain _ := rfl
  paren _ _ _ h := h
  times _ _ _ _ _ halike h := by simp [repeatsContent, h, halike.vanishes]
  seq _ _ := rfl
  alt _ _ := rfl

theorem Alike.repeatsSoundly {m n : Node} (h : Alike m n) : m.repeatsSoundly = n.repeatsSoundly :=
  isHereditary_repeatsSoundly.alike h

end Dialect.Node

namespace Layout

variable {α : Type} {f : Node → Bool} {g : Item α → Node}

theorem hereditary_nodeFrom (hf : Node.IsHereditary f) (n : Node) (us : List (Part α)) :
    f (nodeFrom g n us) = true ↔ f n = true ∧ ∀ u ∈ us, f (g u.item) = true := by
  induction us generalizing n with
  | nil => simp [nodeFrom]
  | cons u us ih =>
    rw [nodeFrom, List.forall_mem_cons]
    split
    · rw [ih, hf.alt, Bool.and_eq_true, and_assoc]
    · rw [hf.append, Bool.and_eq_true, ih]

theorem hereditary_nodeOfParts (hf : Node.IsHereditary f) {us : List (Part α)} :
    f (nodeOfParts g us) = true ↔ ∀ u ∈ us, f (g u.item) = true := by
  cases us with
  | nil => simp [nodeOfParts, hf.empty]
  | cons u us => rw [nodeOfParts, hereditary_nodeFrom hf, List.forall_mem_cons]

end Layout
end PatternBuilder
