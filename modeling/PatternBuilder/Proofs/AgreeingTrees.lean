import PatternBuilder.Proofs.StraightTrees

/-!
# Trees that agree

Trees of phrases that are refused alike, or whose cores agree once they have been read.
-/

namespace PatternBuilder.Dialect

namespace Node

/-- A number that is put together from those of the parts of sequences and alternatives, in
whatever way they are bracketed. -/
structure IsMeasure (f : Node → Nat) (op : Nat → Nat → Nat) : Prop where
  assoc : ∀ a b c, op (op a b) c = op a (op b c)
  zero_left : ∀ a, op 0 a = a
  zero_right : ∀ a, op a 0 = a
  empty : f .empty = 0
  paren : ∀ p {n k}, f n = f k → f (.paren p n) = f (.paren p k)
  times : ∀ min max greedy {n k}, f n = f k →
    f (.times n min max greedy) = f (.times k min max greedy)
  seq : ∀ a b, f (.seq a b) = op (f a) (f b)
  alt : ∀ a b, f (.alt a b) = op (f a) (f b)

namespace IsMeasure

variable {f : Node → Nat} {op : Nat → Nat → Nat}

def all (f : Node → Nat) (op : Nat → Nat → Nat) (ns : List Node) : Nat := (ns.map f).foldr op 0

theorem ofItems (h : IsMeasure f op) (ns : List Node) : f (Node.ofItems ns) = all f op ns := by
  induction ns with
  | nil => exact h.empty
  | cons n ns ih =>
    cases ns with
    | nil => exact (h.zero_right _).symm
    | cons k ks =>
      have hcons : Node.ofItems (n :: k :: ks) = .seq n (Node.ofItems (k :: ks)) := rfl
      rw [hcons, h.seq, ih]
      rfl

theorem ofLay (h : IsMeasure f op) (ws : List (List Node)) :
    f (Node.ofLay ws) = (ws.map (all f op)).foldr op 0 := by
  induction ws with
  | nil => exact h.empty
  | cons u ws ih =>
    cases ws with
    | nil =>
      have hone : Node.ofLay [u] = Node.ofItems u := rfl
      rw [hone, h.ofItems]
      exact (h.zero_right _).symm
    | cons v ws =>
      have hcons : Node.ofLay (u :: v :: ws) = .alt (Node.ofItems u) (Node.ofLay (v :: ws)) := rfl
      rw [hcons, h.alt, ih, h.ofItems]
      rfl

theorem foldr_append (h : IsMeasure f op) (as bs : List Nat) :
    (as ++ bs).foldr op 0 = op (as.foldr op 0) (bs.foldr op 0) := by
  induction as with
  | nil => exact (h.zero_left _).symm
  | cons a as ih => rw [List.cons_append, List.foldr_cons, ih, List.foldr_cons, h.assoc]

theorem all_append (h : IsMeasure f op) (us vs : List Node) :
    all f op (us ++ vs) = op (all f op us) (all f op vs) := by
  rw [all, List.map_append, h.foldr_append]
  rfl

theorem glue (h : IsMeasure f op) (us vs : List (List Node)) :
    ((glue us vs).map (all f op)).foldr op 0 =
      op ((us.map (all f op)).foldr op 0) ((vs.map (all f op)).foldr op 0) := by
  match us, vs with
  | [], vs => exact (h.zero_left _).symm
  | [u], [] => exact (h.zero_right _).symm
  | [u], v :: vs =>
    simp only [Dialect.glue, List.map_cons, List.map_nil, List.foldr_cons, List.foldr_nil,
      h.all_append, h.zero_right, h.assoc]
  | u :: w :: us, vs =>
    rw [Dialect.glue, List.map_cons, List.foldr_cons, h.glue (w :: us) vs, ← h.assoc]
    rfl

theorem lay (h : IsMeasure f op) (n : Node) : (n.lay.map (all f op)).foldr op 0 = f n := by
  have hone : ∀ k : Node, ([[k]].map (all f op)).foldr op 0 = f k := fun k =>
    (h.zero_right _).trans (h.zero_right _)
  induction n with
  | empty => exact (h.zero_right _).trans h.empty.symm
  | single s => exact hone _
  | anchor a => exact hone _
  | paren p body ih => exact (hone _).trans (h.paren p ((h.ofLay _).trans ih))
  | times body min max greedy ih =>
    exact (hone _).trans (h.times min max greedy ((h.ofLay _).trans ih))
  | seq a b iha ihb => rw [Node.lay, h.glue, iha, ihb, h.seq]
  | alt a b iha ihb => rw [Node.lay, List.map_append, h.foldr_append, iha, ihb, h.alt]

theorem straight (h : IsMeasure f op) (n : Node) : f n.straight = f n :=
  (h.ofLay n.lay).trans (h.lay n)

end IsMeasure

theorem isMeasure_captureCount : IsMeasure captureCount (· + ·) where
  assoc := Nat.add_assoc
  zero_left := Nat.zero_add
  zero_right := Nat.add_zero
  empty := rfl
  paren p n k h := by rw [captureCount, captureCount, h]
  times _ _ _ _ _ h := h
  seq _ _ := rfl
  alt _ _ := rfl

theorem isMeasure_depth : IsMeasure depth max where
  assoc := Nat.max_assoc
  zero_left := Nat.zero_max
  zero_right := Nat.max_zero
  empty := rfl
  paren p n k h := by rw [depth, depth, h]
  times _ _ _ _ _ h := h
  seq _ _ := rfl
  alt _ _ := rfl

/-- The members of a sequence of items, when `base` groups have been opened before. -/
def membersAll (base : Nat) : List Node → List Core
  | [] => []
  | n :: ns => n.members base ++ membersAll (base + n.captureCount) ns

def countAll : List Node → Nat := IsMeasure.all captureCount (· + ·)

theorem countAll_cons (n : Node) (ns : List Node) :
    countAll (n :: ns) = n.captureCount + countAll ns := rfl

def waysAll (base : Nat) : List (List Node) → List (List Core)
  | [] => []
  | u :: us => membersAll base u :: waysAll (base + countAll u) us

theorem membersAll_append (base : Nat) (us vs : List Node) :
    membersAll base (us ++ vs) = membersAll base us ++ membersAll (base + countAll us) vs := by
  induction us generalizing base with
  | nil => rfl
  | cons u us ih =>
    rw [List.cons_append, membersAll, ih, membersAll, List.append_assoc, countAll_cons,
      Nat.add_assoc]

theorem waysAll_append (base : Nat) (us vs : List (List Node)) :
    waysAll base (us ++ vs) =
      waysAll base us ++ waysAll (base + (us.map countAll).foldr (· + ·) 0) vs := by
  induction us generalizing base with
  | nil => rfl
  | cons u us ih =>
    rw [List.cons_append, waysAll, ih, waysAll, List.cons_append, List.map_cons, List.foldr_cons,
      Nat.add_assoc]

theorem members_ofItems (base : Nat) (ns : List Node) :
    (ofItems ns).members base = membersAll base ns := by
  induction ns generalizing base with
  | nil => rfl
  | cons n ns ih =>
    cases ns with
    | nil => simp [ofItems, membersAll]
    | cons k ks =>
      have hcons : ofItems (n :: k :: ks) = .seq n (ofItems (k :: ks)) := rfl
      rw [hcons, members, ih]
      rfl

theorem captureCount_ofItems (ns : List Node) : (ofItems ns).captureCount = countAll ns :=
  isMeasure_captureCount.ofItems ns

theorem countAll_lay (n : Node) : (n.lay.map countAll).foldr (· + ·) 0 = n.captureCount :=
  isMeasure_captureCount.lay n

def isOneWay : Node → Bool
  | .alt _ _ => false
  | _ => true

theorem isOneWay_of_mem_glue {us vs : List (List Node)}
    (hus : ∀ u ∈ us, ∀ n ∈ u, n.isOneWay = true) (hvs : ∀ v ∈ vs, ∀ n ∈ v, n.isOneWay = true) :
    ∀ w ∈ glue us vs, ∀ n ∈ w, n.isOneWay = true := by
  match us, vs with
  | [], vs => exact hvs
  | [u], [] => exact hus
  | [u], v :: vs =>
    intro w hw n hn
    rcases List.mem_cons.mp hw with rfl | hw
    · rcases List.mem_append.mp hn with hn | hn
      · exact hus u List.mem_cons_self n hn
      · exact hvs v List.mem_cons_self n hn
    · exact hvs w (List.mem_cons_of_mem v hw) n hn
  | u :: w :: us, vs =>
    obtain ⟨hu, hrest⟩ := List.forall_mem_cons.mp hus
    exact List.forall_mem_cons.mpr ⟨hu, isOneWay_of_mem_glue hrest hvs⟩

theorem isOneWay_of_mem_lay (n : Node) : ∀ u ∈ n.lay, ∀ k ∈ u, k.isOneWay = true := by
  induction n with
  | seq a b iha ihb => exact isOneWay_of_mem_glue iha ihb
  | alt a b iha ihb =>
    intro u hu
    exact (List.mem_append.mp hu).elim (iha u) (ihb u)
  | _ => simp [lay, isOneWay]

theorem isOneWay_ofItems {ns : List Node} (h : ∀ n ∈ ns, n.isOneWay = true) :
    (ofItems ns).isOneWay = true :=
  joins_ofItems.of_forall (P := (isOneWay · = true)) rfl (fun _ _ => rfl) h

theorem members_alt_oneWay {a b : Node} {base : Nat} (h : b.isOneWay = true) :
    (Node.alt a b).members base = [.choice
      [.ofItems (a.members base), .ofItems (b.members (base + a.captureCount))]] := by
  cases b with
  | alt c d => exact absurd h Bool.false_ne_true
  | _ => simp [members]

theorem members_alt_choice {a c d : Node} {base : Nat} {branches : List Core}
    (h : (Node.alt c d).members (base + a.captureCount) = [.choice branches]) :
    (Node.alt a (.alt c d)).members base = [.choice (.ofItems (a.members base) :: branches)] := by
  rw [members]
  simp only [h]

/-- Alternatives that are read one by one are the branches of one choice. -/
theorem members_ofLay (base : Nat) {ws : List (List Node)} (hne : ws ≠ [])
    (h : ∀ u ∈ ws, ∀ n ∈ u, n.isOneWay = true) :
    (ofLay ws).members base = Core.ofWays (waysAll base ws) := by
  induction ws generalizing base with
  | nil => exact absurd rfl hne
  | cons u ws ih =>
    obtain ⟨hu, hws⟩ := List.forall_mem_cons.mp h
    cases ws with
    | nil => exact members_ofItems base u
    | cons v ws =>
      have hrest := ih (base + countAll u) (List.cons_ne_nil v ws) hws
      have hcons : ofLay (u :: v :: ws) = .alt (ofItems u) (ofLay (v :: ws)) := rfl
      cases ws with
      | nil =>
        have hone : (ofLay [v]).isOneWay = true := isOneWay_ofItems (hws v List.mem_cons_self)
        rw [hcons, members_alt_oneWay hone, members_ofItems, captureCount_ofItems, hrest]
        rfl
      | cons w ws =>
        have htwo : ofLay (v :: w :: ws) = .alt (ofItems v) (ofLay (w :: ws)) := rfl
        rw [htwo] at hcons hrest
        rw [← captureCount_ofItems] at hrest
        rw [hcons, members_alt_choice hrest, members_ofItems, captureCount_ofItems]
        rfl

theorem members_straight (n : Node) (base : Nat) :
    n.straight.members base = Core.ofWays (waysAll base n.lay) :=
  members_ofLay base n.lay_ne_nil n.isOneWay_of_mem_lay

structure Agree (n k : Node) : Prop where
  vanishes : n.vanishes = k.vanishes
  isRepeatable : n.isRepeatable = k.isRepeatable
  repeatsSoundly : n.repeatsSoundly = k.repeatsSoundly
  captureCount : n.captureCount = k.captureCount
  depth : n.depth = k.depth
  names : ∀ base, n.names base = k.names base
  ways : ∀ base, Core.WaysAgree (waysAll base n.lay) (waysAll base k.lay)

theorem agree_empty : Agree .empty .empty :=
  ⟨rfl, rfl, rfl, rfl, rfl, fun _ => rfl, fun _ => Core.seqAgree_nil.waysAgree⟩

theorem agree_single {s t : CharSet} (h : s.Agree t) : Agree (.single s) (.single t) :=
  ⟨rfl, rfl, rfl, rfl, rfl, fun _ => rfl, fun _ => (Core.agree_set h).seqAgree.waysAgree⟩

theorem agree_anchor (a : Anchor) : Agree (.anchor a) (.anchor a) :=
  ⟨rfl, rfl, rfl, rfl, rfl, fun _ => rfl, fun _ => (Core.agree_anchor a).seqAgree.waysAgree⟩

namespace Agree

variable {n k n' k' : Node}

theorem members (h : n.Agree k) (base : Nat) :
    Core.SeqAgree (n.straight.members base) (k.straight.members base) := by
  rw [members_straight, members_straight]
  exact (h.ways base).whole

theorem members_paren (h : n.Agree k) (p : Paren) (base : Nat) :
    Core.SeqAgree ((Node.paren p n.straight).members base)
      ((Node.paren p k.straight).members base) := by
  have hwhole := (h.members base).whole
  cases p with
  | plain =>
    rw [Node.members, Node.members]
    by_cases hn : n.straight.members base = []
    · rw [hn, (h.members base).nil.mp hn]
      exact Core.seqAgree_nil
    · have hk : k.straight.members base ≠ [] := fun hk => hn ((h.members base).nil.mpr hk)
      obtain ⟨c, cs, hcs⟩ := List.exists_cons_of_ne_nil hn
      obtain ⟨d, ds, hds⟩ := List.exists_cons_of_ne_nil hk
      rw [hcs, hds] at hwhole ⊢
      exact hwhole.seqAgree
  | capture => exact ((h.members (base + 1)).whole.capture (base + 1)).seqAgree
  | named name => exact ((h.members (base + 1)).whole.capture (base + 1)).seqAgree
  | atomic => exact hwhole.atomic.seqAgree
  | look behind negated => exact (hwhole.look behind negated).seqAgree

theorem waysAgree_item (h : ∀ base, Core.SeqAgree (n.members base) (k.members base)) (base : Nat) :
    Core.WaysAgree (waysAll base [[n]]) (waysAll base [[k]]) := by
  have hone : ∀ j : Node, waysAll base [[j]] = [j.members base] := fun j => by
    simp [waysAll, membersAll]
  rw [hone, hone]
  exact (h base).waysAgree

theorem paren (h : n.Agree k) (p : Paren) : (Node.paren p n).Agree (.paren p k) where
  vanishes := by cases p <;> simp [Node.vanishes, h.vanishes]
  isRepeatable := by cases p <;> simp [Node.isRepeatable, h.isRepeatable]
  repeatsSoundly := h.repeatsSoundly
  captureCount := by rw [Node.captureCount, Node.captureCount, h.captureCount]
  depth := by rw [Node.depth, Node.depth, h.depth]
  names base := by cases p <;> simp [Node.names, h.names]
  ways := waysAgree_item (h.members_paren p)

theorem times (h : n.Agree k) (min : Nat) (max : Option Nat) (greedy : Bool) :
    (Node.times n min max greedy).Agree (.times k min max greedy) where
  vanishes := rfl
  isRepeatable := rfl
  repeatsSoundly := by
    rw [Node.repeatsSoundly, Node.repeatsSoundly, h.repeatsSoundly, h.isRepeatable]
  captureCount := h.captureCount
  depth := h.depth
  names := h.names
  ways := waysAgree_item fun base => ((h.members base).whole.times min max greedy).seqAgree

theorem alt (h : n.Agree k) (h' : n'.Agree k') : (Node.alt n n').Agree (.alt k k') where
  vanishes := rfl
  isRepeatable := rfl
  repeatsSoundly := by
    rw [Node.repeatsSoundly, Node.repeatsSoundly, h.repeatsSoundly, h'.repeatsSoundly]
  captureCount := by rw [Node.captureCount, Node.captureCount, h.captureCount, h'.captureCount]
  depth := by rw [Node.depth, Node.depth, h.depth, h'.depth]
  names base := by rw [Node.names, Node.names, h.names, h'.names, h.captureCount]
  ways base := by
    rw [lay, lay, waysAll_append, waysAll_append, countAll_lay, countAll_lay,
      h.captureCount]
    exact (h.ways base).append (h'.ways _)

/-- One behind the other, where neither has alternatives on the outside. -/
theorem seq (h : n.Agree k) (h' : n'.Agree k') {us us' vs vs' : List Node} (hn : n.lay = [us])
    (hn' : n'.lay = [us']) (hk : k.lay = [vs]) (hk' : k'.lay = [vs']) :
    (Node.seq n n').Agree (.seq k k') where
  vanishes := by rw [Node.vanishes, Node.vanishes, h.vanishes, h'.vanishes]
  isRepeatable := by
    rw [Node.isRepeatable, Node.isRepeatable, h.vanishes, h'.vanishes, h.isRepeatable,
      h'.isRepeatable]
  repeatsSoundly := by
    rw [Node.repeatsSoundly, Node.repeatsSoundly, h.repeatsSoundly, h'.repeatsSoundly]
  captureCount := by rw [Node.captureCount, Node.captureCount, h.captureCount, h'.captureCount]
  depth := by rw [Node.depth, Node.depth, h.depth, h'.depth]
  names base := by rw [Node.names, Node.names, h.names, h'.names, h.captureCount]
  ways base := by
    have hcount : countAll us = countAll vs := by
      have hus := n.countAll_lay
      have hvs := k.countAll_lay
      rw [hn] at hus
      rw [hk] at hvs
      simpa using hus.trans (h.captureCount.trans hvs.symm)
    have hfirst := (h.ways base).whole
    have hsecond := (h'.ways (base + countAll us)).whole
    rw [hn, hk] at hfirst
    rw [hn', hk', hcount] at hsecond
    have hboth := hfirst.append hsecond
    have hways : ∀ ws zs : List Node, waysAll base (glue [ws] [zs]) =
        [membersAll base ws ++ membersAll (base + countAll ws) zs] := fun ws zs => by
      rw [← membersAll_append]
      rfl
    rw [lay, lay, hn, hn', hk, hk', hways, hways, hcount]
    exact hboth.waysAgree

end Agree
end Node
end PatternBuilder.Dialect
