import PatternBuilder.Proofs.CharSetMembers
import PatternBuilder.Proofs.GatheredAtoms
import PatternBuilder.Proofs.Reaching

/-!
# Accepted texts

The texts that a tree without anchors leads across. For the tree of the atoms of a clause they are
the texts of the atoms.
-/

namespace PatternBuilder

open Dialect

namespace Dialect

def Cursor.Passes (c : Cursor) (t : Text) (d : Cursor) : Prop :=
  c.rest = t ++ d.rest ∧ d.passed = t.reverse ++ c.passed ∧ d.offset = c.offset + Text.utf8Length t

namespace Cursor

variable {c d : Cursor}

theorem passes_nil : c.Passes [] d ↔ d = c := by
  constructor
  · rintro ⟨hrest, hpassed, hoffset⟩
    cases c
    cases d
    simp_all [Text.utf8Length]
  · rintro rfl
    exact ⟨rfl, rfl, rfl⟩

theorem passes_append {s t : Text} : c.Passes (s ++ t) d ↔ ∃ e, c.Passes s e ∧ e.Passes t d := by
  have hlength : Text.utf8Length (s ++ t) = Text.utf8Length s + Text.utf8Length t := by
    induction s with
    | nil => simp [Text.utf8Length]
    | cons x s ih => simp [Text.utf8Length, ih, Nat.add_assoc]
  constructor
  · rintro ⟨hrest, hpassed, hoffset⟩
    refine ⟨⟨s.reverse ++ c.passed, t ++ d.rest, c.offset + Text.utf8Length s⟩,
      ⟨?_, rfl, rfl⟩, rfl, ?_, ?_⟩
    · rw [hrest, List.append_assoc]
    · rw [hpassed, List.reverse_append, List.append_assoc]
    · rw [hoffset, hlength, Nat.add_assoc]
  · rintro ⟨e, ⟨hrest, hpassed, hoffset⟩, hrest', hpassed', hoffset'⟩
    refine ⟨?_, ?_, ?_⟩
    · rw [hrest, hrest', List.append_assoc]
    · rw [hpassed', hpassed, List.reverse_append, List.append_assoc]
    · rw [hoffset', hoffset, hlength, Nat.add_assoc]

theorem read?_eq_some {s : CharSet} :
    c.read? s = some d ↔ ∃ x, s.contains x = true ∧ c.Passes [x] d := by
  obtain ⟨passed, rest, offset⟩ := c
  cases rest with
  | nil => simp [read?, Passes]
  | cons y rest =>
    constructor
    · intro h
      simp only [read?] at h
      split at h
      next hy =>
        cases h
        exact ⟨y, hy, rfl, rfl, rfl⟩
      next => cases h
    · rintro ⟨x, hx, hrest, hpassed, hoffset⟩
      obtain ⟨rfl, htail⟩ := List.cons.inj hrest
      cases d
      simp_all [read?, Text.utf8Length]

end Cursor

namespace Node

/-- The tree leads exactly across the texts with the property. -/
def Accepts (n : Node) (L : Text → Prop) : Prop :=
  ∀ c d : Cursor, n.Reaches c d ↔ ∃ t, L t ∧ c.Passes t d

variable {a b : Node} {L M : Text → Prop}

theorem Accepts.congr (h : a.Accepts L) (hiff : ∀ t, L t ↔ M t) : a.Accepts M :=
  fun c d => (h c d).trans (exists_congr fun t => and_congr_left' (hiff t))

theorem Accepts.alike (h : a.Accepts L) (halike : Alike a b) : b.Accepts L :=
  fun c d => (halike.reaches c d).symm.trans (h c d)

theorem accepts_empty : Node.empty.Accepts (· = []) := by
  intro c d
  simp only [exists_eq_left]
  exact Cursor.passes_nil.symm

theorem accepts_single (s : CharSet) :
    (Node.single s).Accepts fun t => ∃ x, t = [x] ∧ s.contains x = true := by
  intro c d
  rw [Reaches, Cursor.read?_eq_some]
  constructor
  · rintro ⟨x, hx, hpasses⟩
    exact ⟨[x], ⟨x, rfl, hx⟩, hpasses⟩
  · rintro ⟨_, ⟨x, rfl, hx⟩, hpasses⟩
    exact ⟨x, hx, hpasses⟩

theorem Accepts.seq (ha : a.Accepts L) (hb : b.Accepts M) :
    (Node.seq a b).Accepts fun t => ∃ u v, t = u ++ v ∧ L u ∧ M v := by
  intro c d
  simp only [Reaches, ha c, hb _ d]
  constructor
  · rintro ⟨e, ⟨u, hu, hcu⟩, v, hv, hvd⟩
    exact ⟨u ++ v, ⟨u, v, rfl, hu, hv⟩, Cursor.passes_append.mpr ⟨e, hcu, hvd⟩⟩
  · rintro ⟨_, ⟨u, v, rfl, hu, hv⟩, hpasses⟩
    obtain ⟨e, hcu, hvd⟩ := Cursor.passes_append.mp hpasses
    exact ⟨e, ⟨u, hu, hcu⟩, v, hv, hvd⟩

theorem Accepts.alt (ha : a.Accepts L) (hb : b.Accepts M) :
    (Node.alt a b).Accepts fun t => L t ∨ M t := by
  intro c d
  simp only [Reaches, ha c d, hb c d, or_and_right, exists_or]

theorem accepts_ofAlternatives {α : Type} {f : α → Node} {L : α → Text → Prop} {xs : List α}
    (hne : xs ≠ []) (h : ∀ x ∈ xs, (f x).Accepts (L x)) :
    (ofAlternatives (xs.map f)).Accepts fun t => ∃ x ∈ xs, L x t := by
  induction xs with
  | nil => exact absurd rfl hne
  | cons x xs ih =>
    have hx := h x List.mem_cons_self
    by_cases hnil : xs = []
    · subst hnil
      exact hx.congr fun t => by simp
    · have hxs := ih hnil fun y hy => h y (List.mem_cons_of_mem x hy)
      rw [List.map_cons, ofAlternatives_cons _ (by simpa using hnil)]
      exact (hx.alt hxs).congr fun t => by simp

end Node

theorem Modes.accepts_text (t : Text) :
    (Node.ofItems (t.map ({} : Modes).charNode)).Accepts (· = t) := by
  induction t with
  | nil => exact Node.accepts_empty
  | cons x t ih =>
    have hx : (({} : Modes).charNode x).Accepts
        fun u => ∃ y, u = [y] ∧ (CharSet.single x).contains y :=
      Node.accepts_single _
    apply ((hx.seq ih).alike (Node.ofItems_cons_alike _ _).symm).congr
    intro u
    constructor
    · rintro ⟨_, v, rfl, ⟨y, rfl, hy⟩, rfl⟩
      rw [CharSet.contains_single.mp hy]
      rfl
    · rintro rfl
      exact ⟨[x], t, rfl, ⟨x, rfl, CharSet.contains_single.mpr rfl⟩, rfl⟩

end Dialect

namespace Atom

def Accepts : Atom → Text → Prop
  | .literal s, t => t = Escape.unescape s
  | a, t => ∃ x, t = [x] ∧ a.set.contains x = true

theorem accepts_literalNode (s : Text) :
    (literalNode {} s).Accepts (Accepts (.literal s)) :=
  Modes.accepts_text (Escape.unescape s)

theorem contains_setOf {as : List Atom} {x : Char} :
    (setOf as).contains x = true ↔ ∃ a ∈ as, a.set.contains x = true := by
  have hfold : ∀ s : CharSet, (as.foldl (fun s a => a.set.union s) s).contains x = true ↔
      (∃ a ∈ as, a.set.contains x = true) ∨ s.contains x = true := by
    induction as with
    | nil => simp
    | cons a as ih =>
      intro s
      rw [List.foldl_cons, ih, CharSet.contains_union, List.exists_mem_cons_iff]
      exact or_left_comm.trans or_assoc.symm
  rw [setOf, hfold, CharSet.contains_empty]
  simp

theorem accepts_escapeNode {c : Char} (h : (shorthand? c).isSome = true ∨ c = 't') :
    (({} : Modes).escapeNode c).Accepts (Accepts (.token ['\\', c])) := by
  rcases h with h | rfl
  · obtain ⟨s, hs⟩ := Option.isSome_iff_exists.mp h
    have hset : set (.token ['\\', c]) = s := by simp [set, hs]
    have hnode : ({} : Modes).escapeNode c = .single s := by simp [Modes.escapeNode, hs]
    rw [hnode]
    exact (Node.accepts_single s).congr fun t => by simp [Accepts, hset]
  · exact (Node.accepts_single (.single '\t')).congr fun t => by
      simp [Accepts, set, shorthand?, control?]

theorem exists_classNode (m : Modes) (bareDot : Bool) {as : List Atom} (h : as ≠ []) :
    ∃ n, classNode? m bareDot as = some n := by
  unfold classNode?
  split
  · exact absurd rfl h
  all_goals exact ⟨_, rfl⟩

theorem accepts_classNode {as : List Atom} {n : Node} (hmember : ∀ a ∈ as, a.IsMember)
    (hnil : .literal [] ∉ as) (h : classNode? {} false as = some n) :
    n.Accepts fun t => ∃ a ∈ as, a.Accepts t := by
  have hsets : (Node.single (setOf as)).Accepts fun t => ∃ a ∈ as, a.Accepts t := by
    apply (Node.accepts_single _).congr
    intro t
    have hset : ∀ a ∈ as, a.Accepts t ↔ ∃ x, t = [x] ∧ a.set.contains x = true := by
      intro a ha
      cases a with
      | literal s =>
        have hs : s = [] := hmember _ ha
        exact absurd (hs ▸ ha) hnil
      | _ => rfl
    constructor
    · rintro ⟨x, rfl, hx⟩
      obtain ⟨a, ha, hax⟩ := contains_setOf.mp hx
      exact ⟨a, ha, (hset a ha).mpr ⟨x, rfl, hax⟩⟩
    · rintro ⟨a, ha, hat⟩
      obtain ⟨x, rfl, hax⟩ := (hset a ha).mp hat
      exact ⟨x, rfl, contains_setOf.mpr ⟨a, ha, hax⟩⟩
  unfold classNode? at h
  split at h
  · cases h
  next c =>
    obtain rfl : n = .single (.single c) := by simpa [Modes.charNode, closed] using h.symm
    exact (Node.accepts_single _).congr fun t => by simp [Accepts, set]
  next c =>
    cases h
    obtain ⟨d, hd, hletter⟩ := hmember _ List.mem_cons_self
    obtain rfl : c = d := by simpa using hd
    exact (accepts_escapeNode hletter).congr fun t => by simp
  next s =>
    have hs : s = [] := hmember (.literal s) List.mem_cons_self
    exact absurd (hs ▸ List.mem_cons_self) hnil
  · cases h
    exact hsets

theorem accepts_textNode {as : List Atom} (h : AreSound as) :
    ∀ a ∈ as.filter (fun a => !a.fitsClass), (textNode {} a).Accepts a.Accepts := by
  intro a ha
  obtain ⟨hmem, hfits⟩ := List.mem_filter.mp ha
  obtain ⟨s, rfl, _⟩ := eq_literal_of_not_fitsClass (h.sound a hmem) (by simpa using hfits)
  exact accepts_literalNode _

theorem exists_accepts_iff (as : List Atom) {t : Text} :
    (∃ a ∈ as, a.Accepts t) ↔ (∃ a ∈ as.filter fitsClass, a.Accepts t) ∨
      ∃ a ∈ as.filter (fun a => !a.fitsClass), a.Accepts t := by
  constructor
  · rintro ⟨a, ha, hat⟩
    cases hfits : a.fitsClass with
    | true => exact .inl ⟨a, List.mem_filter.mpr ⟨ha, hfits⟩, hat⟩
    | false => exact .inr ⟨a, List.mem_filter.mpr ⟨ha, by simp [hfits]⟩, hat⟩
  · rintro (⟨a, ha, hat⟩ | ⟨a, ha, hat⟩) <;> exact ⟨a, List.mem_of_mem_filter ha, hat⟩

theorem accepts_classBefore {as : List Atom} (h : AreSound as) {n : Node} {L : Text → Prop}
    (hn : n.Accepts L) :
    (Node.ofAlternatives (n :: (as.filter fun a => !a.fitsClass).map (textNode {}))).Accepts
      fun t => L t ∨ ∃ a ∈ as.filter (fun a => !a.fitsClass), a.Accepts t := by
  by_cases htexts : as.filter (fun a => !a.fitsClass) = []
  · rw [htexts]
    exact hn.congr fun t => by simp
  · rw [Node.ofAlternatives_cons _ (by simpa using htexts)]
    exact hn.alt (Node.accepts_ofAlternatives htexts (accepts_textNode h))

/-- The tree of the atoms of a clause accepts what one of the atoms accepts. -/
theorem accepts_node {as : List Atom} (h : AreSound as) (hne : as ≠ []) (hnil : .literal [] ∉ as) :
    (Atom.node {} false as).Accepts fun t => ∃ a ∈ as, a.Accepts t := by
  refine Node.Accepts.congr ?_ fun t => (exists_accepts_iff as).symm
  by_cases hclass : as.filter fitsClass = []
  · have htexts : as.filter (fun a => !a.fitsClass) ≠ [] := by
      intro hempty
      obtain ⟨a, ha⟩ := List.exists_mem_of_ne_nil as hne
      have hfits := List.filter_eq_nil_iff.mp hclass a ha
      exact List.filter_eq_nil_iff.mp hempty a ha (by simp [hfits])
    rw [Atom.node, hclass]
    apply (Node.accepts_ofAlternatives htexts (accepts_textNode h)).congr
    intro t
    simp
  · have hmember : ∀ a ∈ as.filter fitsClass, a.IsMember := fun a ha =>
      isMember_of_fitsClass (h.sound a (List.mem_of_mem_filter ha)) (List.mem_filter.mp ha).2
    obtain ⟨n, hn⟩ := exists_classNode {} false hclass
    rw [Atom.node, hn]
    exact accepts_classBefore h
      (accepts_classNode hmember (fun hmem => hnil (List.mem_of_mem_filter hmem)) hn)

end Atom
end PatternBuilder
