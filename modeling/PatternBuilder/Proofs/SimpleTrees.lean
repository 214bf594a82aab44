import PatternBuilder.Proofs.Alike

/-!
# Simple trees

Trees without repetitions, lookarounds and atomic groups. The trees of atoms are of this kind.
-/

namespace PatternBuilder

open Dialect

namespace Dialect

/-- The parentheses do nothing but keep the inside together and remember its text. -/
def Paren.isGroup : Paren → Bool
  | .plain => true
  | .capture => true
  | .named _ => true
  | _ => false

namespace Node

/-- Nothing in the tree repeats, looks around or is kept from being tried again. -/
def isSimple : Node → Bool
  | .empty => true
  | .single _ => true
  | .anchor _ => true
  | .paren p body => p.isGroup && body.isSimple
  | .times _ _ _ _ => false
  | .seq a b => a.isSimple && b.isSimple
  | .alt a b => a.isSimple && b.isSimple

theorem isHereditary_isSimple : IsHereditary isSimple where
  empty := rfl
  plain _ := rfl
  paren _ _ _ h := by simp [isSimple, h]
  times _ _ _ _ _ _ _ := rfl
  seq _ _ := rfl
  alt _ _ := rfl

theorem Alike.isSimple {m n : Node} (h : Alike m n) : m.isSimple = n.isSimple :=
  isHereditary_isSimple.alike h

/-- A hereditary property of single characters and anchors that groups do not matter to is one of
all simple trees. -/
theorem IsHereditary.of_isSimple {f : Node → Bool} (hf : IsHereditary f)
    (hsingle : ∀ s, f (.single s) = true) (hanchor : ∀ a, f (.anchor a) = true)
    (hgroup : ∀ p n, p.isGroup = true → f (.paren p n) = f n) {n : Node}
    (h : n.isSimple = true) : f n = true := by
  induction n with
  | empty => exact hf.empty
  | single s => exact hsingle s
  | anchor a => exact hanchor a
  | paren p body ih =>
    rw [isSimple, Bool.and_eq_true] at h
    rw [hgroup p body h.1]
    exact ih h.2
  | times => cases h
  | seq a b iha ihb =>
    rw [isSimple, Bool.and_eq_true] at h
    rw [hf.seq, iha h.1, ihb h.2]
    rfl
  | alt a b iha ihb =>
    rw [isSimple, Bool.and_eq_true] at h
    rw [hf.alt, iha h.1, ihb h.2]
    rfl

theorem repeatsSoundly_of_isSimple {n : Node} (h : n.isSimple = true) :
    n.repeatsSoundly = true :=
  isHereditary_repeatsSoundly.of_isSimple (fun _ => rfl) (fun _ => rfl) (fun _ _ _ => rfl) h

end Node

variable {m : Modes}

theorem Modes.isSimple_charNode (c : Char) : (m.charNode c).isSimple = true := by
  unfold charNode
  split <;> rfl

theorem Modes.isSimple_text (t : Text) : ∀ n ∈ t.map m.charNode, n.isSimple = true := by
  intro n hn
  obtain ⟨c, _, rfl⟩ := List.mem_map.mp hn
  exact isSimple_charNode c

theorem Modes.isSimple_escapeNode (c : Char) : (m.escapeNode c).isSimple = true := by
  unfold escapeNode
  split
  · rfl
  · rfl
  · exact isSimple_charNode c

end Dialect

namespace Atom

variable {m : Modes}

theorem isSimple_literalNode (t : Text) : (literalNode m t).isSimple = true := by
  exact Node.isHereditary_isSimple.ofItems (Modes.isSimple_text _)

theorem isSimple_classNode {bareDot : Bool} {as : List Atom} {n : Node}
    (h : classNode? m bareDot as = some n) : n.isSimple = true := by
  unfold classNode? at h
  split at h
  · cases h
  · cases h
    split
    · rfl
    · exact Modes.isSimple_charNode _
  · cases h
    exact Modes.isSimple_escapeNode _
  · cases h
    exact isSimple_literalNode _
  · cases h
    rfl

theorem isSimple_node (bareDot : Bool) (as : List Atom) :
    (Atom.node m bareDot as).isSimple = true := by
  apply Node.isHereditary_isSimple.ofAlternatives
  intro n hn
  rcases List.mem_append.mp hn with hn | hn
  · exact isSimple_classNode (Option.mem_toList.mp hn)
  · obtain ⟨a, _, rfl⟩ := List.mem_map.mp hn
    cases a with
    | literal t => exact isSimple_literalNode t
    | token t => exact isSimple_literalNode t
    | _ => rfl

end Atom
end PatternBuilder
