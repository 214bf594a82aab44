import PatternBuilder.Proofs.FilledLexemes

/-!
# Trees of filled texts

A text and the text with lower bounds filled in are refused alike. They have the same tree, unless a
zero goes astray: it adds a set to the tree or changes one, and the tree keeps its sets in the order
of the text.
-/

namespace PatternBuilder.Dialect

namespace Node

theorem vanishes_eq_false {n : Node} (h : n.isRepeatable = true) : n.vanishes = false := by
  rw [Bool.eq_false_iff]
  intro hv
  rw [isRepeatable_of_vanishes hv] at h
  cases h

theorem isRepeatable_seq (m : Node) {n : Node} (h : n.isRepeatable = true) :
    (Node.seq m n).isRepeatable = true := by
  simp [Node.isRepeatable, h, vanishes_eq_false h]

structure RepeatsAs (m n : Node) : Prop where
  vanishes : m.vanishes = n.vanishes
  isRepeatable : m.isRepeatable = n.isRepeatable

namespace RepeatsAs

variable {m n : Node}

theorem paren (h : RepeatsAs m n) (p : Paren) : RepeatsAs (.paren p m) (.paren p n) := by
  obtain ⟨hvanishes, hrepeat⟩ := h
  constructor <;> cases p <;> simp [Node.vanishes, Node.isRepeatable, hvanishes, hrepeat]

theorem of_isRepeatable (hm : m.isRepeatable = true) (hn : n.isRepeatable = true) :
    RepeatsAs m n :=
  ⟨(vanishes_eq_false hm).trans (vanishes_eq_false hn).symm, hm.trans hn.symm⟩

theorem seq {k l : Node} (h : RepeatsAs m n) (h' : RepeatsAs k l) :
    RepeatsAs (.seq m k) (.seq n l) := by
  obtain ⟨hvanishes, hrepeat⟩ := h
  obtain ⟨hvanishes', hrepeat'⟩ := h'
  constructor <;> simp [Node.vanishes, Node.isRepeatable, hvanishes, hrepeat, hvanishes', hrepeat']

theorem of_alike {k l : Node} (h : RepeatsAs m n) (hm : Alike k m) (hn : Alike l n) :
    RepeatsAs k l :=
  ⟨hm.vanishes.trans (h.vanishes.trans hn.vanishes.symm),
    hm.isRepeatable.trans (h.isRepeatable.trans hn.isRepeatable.symm)⟩

end RepeatsAs

/-- The second items repeat as the first do, with one more in front of some that can be repeated.
The last item comes first. -/
inductive Grown : List Node → List Node → Prop where
  | nil : Grown [] []
  | cons {m n : Node} {ms ns : List Node} (h : RepeatsAs m n) (hs : Grown ms ns) :
      Grown (m :: ms) (n :: ns)
  | more {k m n : Node} {ms ns : List Node} (hm : m.isRepeatable = true)
      (hn : n.isRepeatable = true) (hs : Grown ms ns) :
      Grown (m :: ms) (n :: k :: ns)

end Node

open Node

namespace Level

structure Grown (l l' : Level) : Prop where
  branches : l.branches.isEmpty = l'.branches.isEmpty
  items : Node.Grown l.items l'.items

theorem Grown.start : Grown start start := ⟨rfl, .nil⟩

theorem branch_repeatsAs {l l' : Level} (h : Node.Grown l.items l'.items) :
    RepeatsAs l.branch l'.branch := by
  obtain ⟨bs, ms⟩ := l
  obtain ⟨bs', ns⟩ := l'
  dsimp only at h
  induction h with
  | nil => exact ⟨rfl, rfl⟩
  | @cons m n ms ns h hs ih =>
    exact (ih.seq h).of_alike (branch_push ⟨bs, ms⟩ m) (branch_push ⟨bs', ns⟩ n)
  | @more k m n ms ns hm hn hs =>
    exact (RepeatsAs.of_isRepeatable (isRepeatable_seq _ hm) (isRepeatable_seq _ hn)).of_alike
      (branch_push ⟨bs, ms⟩ m) (branch_push ⟨bs', k :: ns⟩ n)

theorem isRepeatable_node {l : Level} (h : l.branches ≠ []) : l.node.isRepeatable = true := by
  rw [node_eq]
  obtain ⟨n, ns, hns⟩ := List.exists_cons_of_ne_nil (List.reverse_ne_nil_iff.mpr h)
  rw [hns, List.cons_append, ofAlternatives_cons n (by simp)]
  rfl

namespace Grown

variable {l l' : Level}

theorem node (h : l.Grown l') : RepeatsAs l.node l'.node := by
  obtain ⟨hbranches, hitems⟩ := h
  by_cases hl : l.branches = []
  · have hl' : l'.branches = [] := by simpa [hl] using hbranches.symm
    have hbranch := branch_repeatsAs hitems
    rw [node_eq, node_eq, hl, hl']
    exact hbranch
  · have hl' : l'.branches ≠ [] := by
      intro hnil
      simp [hnil] at hbranches
      exact hl hbranches
    exact .of_isRepeatable (isRepeatable_node hl) (isRepeatable_node hl')

theorem push (h : l.Grown l') {m n : Node} (hn : RepeatsAs m n) : (l.push m).Grown (l'.push n) :=
  ⟨h.branches, .cons hn h.items⟩

theorem pushMore (h : l.Grown l') (k : Node) {m n : Node} (hm : m.isRepeatable = true)
    (hn : n.isRepeatable = true) : (l.push m).Grown ((l'.push k).push n) :=
  ⟨h.branches, .more hm hn h.items⟩

theorem split (l l' : Level) : l.split.Grown l'.split := ⟨rfl, .nil⟩

theorem repeatLast (h : l.Grown l') (min : Nat) (max : Option Nat) (greedy atomic : Bool) :
    Likewise Level.Grown (l.repeatLast min max greedy atomic)
      (l'.repeatLast min max greedy atomic) := by
  obtain ⟨bs, ms⟩ := l
  obtain ⟨bs', ns⟩ := l'
  obtain ⟨hbranches, hitems⟩ := h
  have hrepeated : ∀ m n : Node, RepeatsAs
      (if atomic then .paren .atomic (.times m min max greedy) else .times m min max greedy)
      (if atomic then .paren .atomic (.times n min max greedy) else .times n min max greedy) := by
    intro m n
    cases atomic <;> exact ⟨rfl, rfl⟩
  unfold Level.repeatLast
  cases hitems with
  | nil => exact .error _
  | @cons m n ms ns h hs =>
    simp only [h.isRepeatable]
    split
    · exact .ok ⟨hbranches, .cons (hrepeated m n) hs⟩
    · exact .error _
  | @more k m n ms ns hm hn hs =>
    simp only [hm, hn, if_true]
    refine .ok ⟨hbranches, .more ?_ ?_ hs⟩ <;> cases atomic <;> rfl

end Grown
end Level

namespace Stack

structure Grown (s s' : Stack) : Prop where
  current : s.current.Grown s'.current
  opened : List.Forall₂ (fun o o' => o.1 = o'.1 ∧ o.2.Grown o'.2) s.opened s'.opened

theorem Grown.start : Grown start start := ⟨.start, .nil⟩

variable {s s' : Stack}

theorem Grown.feed (h : s.Grown s') (x : Lexeme) : Likewise Stack.Grown (s.feed x) (s'.feed x) := by
  obtain ⟨current, opened⟩ := s
  obtain ⟨current', opened'⟩ := s'
  obtain ⟨hcurrent, hopened⟩ := h
  cases x with
  | single y => exact .ok ⟨hcurrent.push ⟨rfl, rfl⟩, hopened⟩
  | anchor a => exact .ok ⟨hcurrent.push ⟨rfl, rfl⟩, hopened⟩
  | bar => exact .ok ⟨.split _ _, hopened⟩
  | opening p => exact .ok ⟨.start, .cons ⟨rfl, hcurrent⟩ hopened⟩
  | closing =>
    cases hopened with
    | nil => exact .error _
    | @cons o o' opened opened' ho hopened =>
      obtain ⟨p, outer⟩ := o
      obtain ⟨p', outer'⟩ := o'
      obtain ⟨rfl, houter⟩ := ho
      exact .ok ⟨houter.push (hcurrent.node.paren p), hopened⟩
  | quantifier min max greedy atomic =>
    exact (hcurrent.repeatLast min max greedy atomic).bind fun _ _ hlevel => .ok ⟨hlevel, hopened⟩

theorem Grown.finish (h : s.Grown s') : Likewise (fun _ _ => True) s.finish s'.finish := by
  obtain ⟨current, opened⟩ := s
  obtain ⟨current', opened'⟩ := s'
  obtain ⟨hcurrent, hopened⟩ := h
  cases hopened with
  | nil => exact .ok trivial
  | cons => exact .error _

/-- Lexemes with a zero more are refused where the others are. -/
theorem Grown.foldlM (h : s.Grown s') {astray : Bool} {ls ls' : List Lexeme}
    (hls : Lexeme.Filled astray ls ls') :
    Likewise Stack.Grown (ls.foldlM Stack.feed s) (ls'.foldlM Stack.feed s') := by
  induction hls generalizing s s' with
  | nil => exact .ok h
  | cons x _ ih =>
    rw [List.foldlM_cons, List.foldlM_cons]
    exact (h.feed x).bind fun _ _ hnext => ih hnext
  | bracket x y _ ih =>
    have hnext : Grown ⟨s.current.push (.single x), s.opened⟩
        ⟨s'.current.push (.single y), s'.opened⟩ := ⟨h.current.push ⟨rfl, rfl⟩, h.opened⟩
    exact ih hnext
  | zero x y _ ih =>
    have hnext : Grown ⟨s.current.push (.single x), s.opened⟩
        ⟨(s'.current.push (.single x)).push (.single y), s'.opened⟩ :=
      ⟨h.current.pushMore _ rfl rfl, h.opened⟩
    exact ih hnext

end Stack

def Node.sets : Node → List CharSet
  | .empty => []
  | .single s => [s]
  | .anchor _ => []
  | .paren _ body => body.sets
  | .times body _ _ _ => body.sets
  | .seq a b => a.sets ++ b.sets
  | .alt a b => a.sets ++ b.sets

def Lexeme.sets : Lexeme → List CharSet
  | .single s => [s]
  | _ => []

def Level.sets (l : Level) : List CharSet :=
  l.branches.reverse.flatMap Node.sets ++ l.items.reverse.flatMap Node.sets

theorem Level.sets_branch (l : Level) : l.branch.sets = l.items.reverse.flatMap Node.sets :=
  Node.joins_ofItems.flatMap (fun _ _ => rfl) fun _ => rfl

theorem Level.sets_node (l : Level) : l.node.sets = l.sets := by
  have hnodes (ns : List Node) : (Node.ofAlternatives ns).sets = ns.flatMap Node.sets :=
    Node.joins_ofAlternatives.flatMap (fun _ _ => rfl) fun _ => rfl
  rw [node_eq, hnodes, List.flatMap_append, List.flatMap_singleton, sets_branch,
    sets]

theorem Level.sets_push (l : Level) (n : Node) : (l.push n).sets = l.sets ++ n.sets := by
  simp [sets, push]

theorem Level.sets_split (l : Level) : l.split.sets = l.sets := by
  simp [sets, split, sets_branch]

theorem Level.sets_repeatLast {l l' : Level} {min : Nat} {max : Option Nat} {greedy atomic : Bool}
    (h : l.repeatLast min max greedy atomic = .ok l') : l'.sets = l.sets := by
  unfold repeatLast at h
  split at h
  · cases h
  next n ns hitems =>
    split at h
    · cases h
      cases atomic <;> simp [sets, hitems, Node.sets]
    · cases h

def Stack.sets (s : Stack) : List CharSet :=
  s.opened.reverse.flatMap (fun o => o.2.sets) ++ s.current.sets

theorem Stack.sets_feed {s s' : Stack} {x : Lexeme} (h : s.feed x = .ok s') :
    s'.sets = s.sets ++ x.sets := by
  cases x with
  | single y =>
    cases h
    simp [sets, Level.sets_push, Lexeme.sets, Node.sets]
  | anchor a =>
    cases h
    simp [sets, Level.sets_push, Lexeme.sets, Node.sets]
  | bar =>
    cases h
    simp [sets, Level.sets_split, Lexeme.sets]
  | opening p =>
    cases h
    simp [sets, Level.start, Level.sets, Lexeme.sets]
  | closing =>
    rw [feed] at h
    split at h
    · cases h
    next p outer opened hopened =>
      cases h
      simp [sets, hopened, Level.sets_push, Node.sets, Level.sets_node, Lexeme.sets]
  | quantifier min max greedy atomic =>
    obtain ⟨l, hl, h⟩ := exists_of_bind_eq_ok h
    cases h
    simp [sets, Level.sets_repeatLast hl, Lexeme.sets]

theorem Stack.sets_foldlM {ls : List Lexeme} {s s' : Stack} (h : ls.foldlM feed s = .ok s') :
    s'.sets = s.sets ++ ls.flatMap Lexeme.sets := by
  induction ls generalizing s with
  | nil =>
    cases h
    simp
  | cons x ls ih =>
    obtain ⟨t, hx, h⟩ := exists_of_foldlM_cons h
    rw [ih h, sets_feed hx, List.flatMap_cons, List.append_assoc]

theorem Node.sets_of_ofLexemes {ls : List Lexeme} {n : Node} (h : ofLexemes ls = .ok n) :
    n.sets = ls.flatMap Lexeme.sets := by
  obtain ⟨s, hs, h⟩ := exists_of_bind_eq_ok h
  unfold Stack.finish at h
  split at h
  next hopened =>
    cases h
    have hsets := Stack.sets_foldlM hs
    rw [List.isEmpty_iff] at hopened
    simpa [Stack.sets, hopened, Level.sets_node, Stack.start, Level.start, Level.sets] using hsets
  next => cases h

namespace Lexeme.Filled

variable {astray : Bool} {ls ls' : List Lexeme}

theorem eq (h : Filled astray ls ls') (hastray : astray = false) : ls = ls' := by
  induction h with
  | nil => rfl
  | cons x _ ih => rw [ih hastray]
  | bracket x y _ ih => simp_all
  | zero => cases hastray

theorem length_le (h : Filled astray ls ls') :
    (ls.flatMap Lexeme.sets).length ≤ (ls'.flatMap Lexeme.sets).length := by
  induction h with
  | nil => exact Nat.le_refl _
  | cons x _ ih => simpa using ih
  | bracket x y _ ih => simpa [sets] using ih
  | zero x y _ ih =>
    simp only [List.flatMap_cons, sets, List.length_append]
    omega

theorem astray_eq_false (h : Filled astray ls ls')
    (hsets : ls.flatMap Lexeme.sets = ls'.flatMap Lexeme.sets) : astray = false := by
  induction h with
  | nil => rfl
  | cons x _ ih => exact ih (List.append_cancel_left hsets)
  | bracket x y _ ih =>
    simp only [List.flatMap_cons, sets, List.singleton_append, List.cons.injEq] at hsets
    simp [hsets.1, ih hsets.2]
  | zero x y hls ih =>
    have hlength := congrArg List.length hsets
    have hle := hls.length_le
    simp only [List.flatMap_cons, sets, List.length_append, List.length_singleton] at hlength
    omega

end Lexeme.Filled

theorem Node.ofLexemes_likewise {astray : Bool} {ls ls' : List Lexeme}
    (h : Lexeme.Filled astray ls ls') :
    Likewise (fun n n' => n' = n ↔ astray = false) (ofLexemes ls) (ofLexemes ls') := by
  have hread : Likewise (fun _ _ => True) (ofLexemes ls) (ofLexemes ls') :=
    (Stack.Grown.start.foldlM h).bind fun _ _ hs => hs.finish
  obtain ⟨e, hls, hls'⟩ | ⟨n, n', hls, hls', -⟩ := hread.cases
  · rw [hls, hls']
    exact .error e
  · rw [hls, hls']
    refine .ok ⟨fun heq => ?_, fun hastray => ?_⟩
    · apply h.astray_eq_false
      rw [← sets_of_ofLexemes hls, ← sets_of_ofLexemes hls', heq]
    · rw [h.eq hastray, hls'] at hls
      exact Except.ok.inj hls

/-- In filling in lower bounds, a zero goes astray: it stands in front of a plain comma, or in
brackets whose set it changes. -/
def hasStrayBound (t : Text) : Bool := strays .start 0 (zeros false false t)

theorem parse_likewise (t : Text) :
    Likewise (fun n n' => n' = n ↔ hasStrayBound t = false) (Node.parse t)
      (Node.parse (withLowerBounds t)) := by
  have hfree : Marked.IsFree (zeros false false t) := fun before => fits_zeros false false t nofun
  have hfilled : Marked.filled (zeros false false t) = withLowerBounds t := by
    rw [filled_zeros, withLowerBounds_eq]
    rfl
  have hlexemes := lexemesFrom_likewise .start hfree
  rw [text_zeros, hfilled] at hlexemes
  exact hlexemes.bind fun _ _ => Node.ofLexemes_likewise

/-- Filling in lower bounds refuses no text that is read, and no other; it keeps the tree exactly if
no zero goes astray. It changes nothing the second time, and where there is nothing to fill in it
need not run. -/
theorem parse_withLowerBounds (t : Text) :
    (∀ e, Node.parse (withLowerBounds t) = .error e ↔ Node.parse t = .error e) ∧
      (Node.parse (withLowerBounds t) = Node.parse t ↔
        (∃ e, Node.parse t = .error e) ∨ hasStrayBound t = false) ∧
      withLowerBounds (withLowerBounds t) = withLowerBounds t ∧
      withLowerBounds t = fillBounds false t := by
  have hparse := parse_likewise t
  refine ⟨hparse.error_iff, ?_, withLowerBounds_idem t, withLowerBounds_eq t⟩
  obtain ⟨e, htext, hfilled⟩ | ⟨n, n', htext, hfilled, hsame⟩ := hparse.cases
  · simp [htext, hfilled]
  · simp [htext, hfilled, hsame]

/-- A bracket in the first place of brackets does not end them, and braces that follow nothing are
plain. -/
theorem parse_withLowerBounds_astray :
    Node.parse (withLowerBounds "[]\x7b,3\x7d]".toList) ≠ Node.parse "[]\x7b,3\x7d]".toList ∧
      Node.parse (withLowerBounds "\x7b,3\x7d".toList) ≠ Node.parse "\x7b,3\x7d".toList := by
  decide +kernel

end PatternBuilder.Dialect
