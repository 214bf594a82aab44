import PatternBuilder.Proofs.BasicText
import PatternBuilder.Proofs.Parsing

/-!
# The outline of a text and its tree

A scan of the text alone finds out what the root of its tree is: one group, one item or several
branches. It is enough to follow what is read outside of all groups.
-/

namespace PatternBuilder.Dialect

namespace Node

def isAlternation : Node → Bool
  | .alt _ _ => true
  | _ => false

/-- One group or lookaround, without a quantifier: in the basic dialect atomic groups come from
quantifiers only. -/
def isGroup : Node → Bool
  | .paren p _ => p != .atomic
  | _ => false

def isItem : Node → Bool
  | .single _ => true
  | .anchor _ => true
  | n => n.isGroup

def isQuantified : Node → Bool
  | .times _ _ _ _ => true
  | .paren .atomic _ => true
  | _ => false

theorem isItem_of_isGroup {n : Node} (h : n.isGroup = true) : n.isItem = true := by
  cases n with
  | paren p body => exact h
  | _ => cases h

theorem isGroup_eq_false {n : Node} (h : n.isItem = false) : n.isGroup = false := by
  rw [Bool.eq_false_iff]
  intro hgroup
  rw [isItem_of_isGroup hgroup] at h
  cases h

theorem isAlternation_of_isQuantified {n : Node} (h : n.isQuantified = true) :
    n.isAlternation = false := by
  cases n with
  | alt a b => cases h
  | _ => rfl

theorem isItem_of_isQuantified {n : Node} (h : n.isQuantified = true) : n.isItem = false := by
  cases n with
  | paren p body =>
    cases p with
    | atomic => rfl
    | _ => cases h
  | times body min max greedy => rfl
  | _ => cases h

end Node

namespace Level

/-- There is more on the level than one item without a quantifier. -/
def IsMixed (l : Level) : Prop :=
  l.branches ≠ [] ∨ 2 ≤ l.items.length ∨ ∃ n ∈ l.items, n.isQuantified = true

theorem node_of_branches {l : Level} (h : l.branches ≠ []) : ∃ a b, l.node = .alt a b := by
  obtain ⟨init, b, hbranches⟩ := (List.eq_nil_or_concat' l.branches).resolve_left h
  rw [node_eq, hbranches, List.reverse_append]
  cases init.reverse <;> exact ⟨_, _, rfl⟩

theorem node_of_items {l : Level} (h : l.branches = []) :
    l.node = Node.ofItems l.items.reverse := by
  rw [node_eq, h]
  rfl

theorem seq_of_items {l : Level} (h : l.branches = []) (hitems : 2 ≤ l.items.length) :
    ∃ a b, l.node = .seq a b := by
  rw [node_of_items h]
  match hreverse : l.items.reverse with
  | [] | [n] =>
    have hlength := congrArg List.length hreverse
    simp only [List.length_reverse, List.length_nil, List.length_singleton] at hlength
    omega
  | n :: k :: ns => exact ⟨_, _, rfl⟩

theorem isAlternation_node {l : Level} (h : ∀ n ∈ l.items, n.isAlternation = false) :
    l.node.isAlternation = !l.branches.isEmpty := by
  by_cases hbranches : l.branches = []
  · rw [hbranches]
    match hitems : l.items with
    | [] => simp [node_of_items hbranches, hitems, Node.ofItems, Node.isAlternation]
    | [n] => simp [node_of_items hbranches, hitems, Node.ofItems, h n (by simp [hitems])]
    | n :: k :: ns =>
      obtain ⟨a, b, hnode⟩ := seq_of_items hbranches (by simp [hitems])
      rw [hnode]
      rfl
  · obtain ⟨a, b, hnode⟩ := node_of_branches hbranches
    simp [hnode, Node.isAlternation, hbranches]

theorem IsMixed.isItem_node {l : Level} (h : l.IsMixed) : l.node.isItem = false := by
  by_cases hbranches : l.branches = []
  · rcases h with h | h | ⟨n, hn, hquantified⟩
    · exact absurd hbranches h
    · obtain ⟨a, b, hnode⟩ := seq_of_items hbranches h
      rw [hnode]
      rfl
    · match hitems : l.items with
      | [] => simp [hitems] at hn
      | [k] =>
        obtain rfl : n = k := by simpa [hitems] using hn
        rw [node_of_items hbranches, hitems]
        exact Node.isItem_of_isQuantified hquantified
      | i :: k :: ns =>
        obtain ⟨a, b, hnode⟩ := seq_of_items hbranches (by simp [hitems])
        rw [hnode]
        rfl
  · obtain ⟨a, b, hnode⟩ := node_of_branches hbranches
    rw [hnode]
    rfl

theorem repeatLast_eq_ok {l l' : Level} {min : Nat} {max : Option Nat} {greedy atomic : Bool}
    (h : l.repeatLast min max greedy atomic = .ok l') :
    ∃ n ns k, l.items = n :: ns ∧ k.isQuantified = true ∧ l' = { l with items := k :: ns } := by
  unfold repeatLast at h
  split at h
  next => cases h
  next n ns hitems =>
    split at h
    next =>
      cases h
      refine ⟨n, ns, _, hitems, ?_, rfl⟩
      cases atomic <;> rfl
    next => cases h

theorem IsMixed.push {l : Level} (h : l.IsMixed) (n : Node) : (l.push n).IsMixed := by
  rcases h with h | h | ⟨k, hk, hquantified⟩
  · exact .inl h
  · refine .inr (.inl ?_)
    simp only [Level.push, List.length_cons]
    omega
  · exact .inr (.inr ⟨k, List.mem_cons_of_mem n hk, hquantified⟩)

theorem isMixed_push {l : Level} (h : l.items ≠ []) (n : Node) : (l.push n).IsMixed := by
  have hlength := List.length_pos_of_ne_nil h
  refine .inr (.inl ?_)
  simp only [Level.push, List.length_cons]
  omega

end Level

namespace Stack

def outermost (current : Level) : List (Paren × Level) → Level
  | [] => current
  | o :: opened => outermost o.2 opened

def base (s : Stack) : Level := outermost s.current s.opened

def IsMixed (s : Stack) : Prop :=
  s.base.IsMixed ∨ (s.opened ≠ [] ∧ s.base.items ≠ [])

theorem base_nil (l : Level) : base ⟨l, []⟩ = l := rfl

theorem base_cons (l : Level) (o : Paren × Level) (opened : List (Paren × Level)) :
    base ⟨l, o :: opened⟩ = base ⟨o.2, opened⟩ := rfl

theorem base_congr {opened : List (Paren × Level)} (h : opened ≠ []) (l l' : Level) :
    base ⟨l, opened⟩ = base ⟨l', opened⟩ := by
  cases opened with
  | nil => exact absurd rfl h
  | cons o opened => rfl

inductive Moves (s s' : Stack) : Prop where
  | inside (hbase : s'.base = s.base) (hopened : s'.opened ≠ [])
  | push (n : Node) (hn : n.isAlternation = false) (hbase : s'.base = s.base.push n)
  | split (hbase : s'.base = s.base.split)
  | repeated (n : Node) (ns : List Node) (hn : n.isQuantified = true)
      (hitems : s'.base.items = n :: ns) (hns : ∀ k ∈ ns, k ∈ s.base.items)

theorem moves_push {s : Stack} {l : Level} {opened : List (Paren × Level)}
    (hs : s.base = base ⟨l, opened⟩) {n : Node} (hn : n.isAlternation = false) :
    Moves s ⟨l.push n, opened⟩ := by
  by_cases h : opened = []
  · subst h
    exact .push n hn (congrArg (Level.push · n) hs.symm)
  · exact .inside ((base_congr h _ _).trans hs.symm) h

theorem moves_of_feed {s s' : Stack} {x : Lexeme} (h : s.feed x = .ok s') : Moves s s' := by
  obtain ⟨l, opened⟩ := s
  cases x with
  | single y =>
    cases h
    exact moves_push rfl rfl
  | anchor a =>
    cases h
    exact moves_push rfl rfl
  | bar =>
    cases h
    by_cases hopened : opened = []
    · subst hopened
      exact .split rfl
    · exact .inside (base_congr hopened _ _) hopened
  | opening p =>
    cases h
    exact .inside rfl (by simp)
  | closing =>
    cases opened with
    | nil => cases h
    | cons o opened =>
      cases h
      have hbase : base ⟨l, o :: opened⟩ = base ⟨o.2, opened⟩ := rfl
      exact moves_push hbase rfl
  | quantifier min max greedy atomic =>
    obtain ⟨l', hl, h⟩ := exists_of_bind_eq_ok h
    cases h
    by_cases hopened : opened = []
    · subst hopened
      obtain ⟨n, ns, k, hitems, hk, rfl⟩ := Level.repeatLast_eq_ok hl
      refine .repeated k ns hk rfl fun i hi => ?_
      rw [base_nil, hitems]
      exact List.mem_cons_of_mem n hi
    · exact .inside (base_congr hopened _ _) hopened

theorem IsMixed.of_moves {s s' : Stack} (h : Moves s s') (hs : s.IsMixed ∨ s.base.items ≠ []) :
    s'.IsMixed := by
  cases h with
  | inside hbase hopened =>
    rcases hs with (hs | ⟨-, hs⟩) | hs
    · exact .inl (hbase ▸ hs)
    · exact .inr ⟨hopened, hbase ▸ hs⟩
    · exact .inr ⟨hopened, hbase ▸ hs⟩
  | push n hn hbase =>
    left
    rw [hbase]
    rcases hs with (hs | ⟨-, hs⟩) | hs
    · exact hs.push n
    · exact Level.isMixed_push hs n
    · exact Level.isMixed_push hs n
  | split hbase =>
    left
    rw [hbase]
    exact .inl (by simp [Level.split])
  | repeated n ns hn hitems hns => exact .inl (.inr (.inr ⟨n, by simp [hitems], hn⟩))

theorem isAlternation_of_moves {s s' : Stack} (h : Moves s s')
    (hs : ∀ n ∈ s.base.items, n.isAlternation = false) :
    ∀ n ∈ s'.base.items, n.isAlternation = false := by
  cases h with
  | inside hbase hopened => rwa [hbase]
  | push n hn hbase =>
    rw [hbase]
    intro k hk
    rcases List.mem_cons.mp hk with rfl | hk
    · exact hn
    · exact hs k hk
  | split hbase => simp [hbase, Level.split]
  | repeated n ns hn hitems hns =>
    rw [hitems]
    intro k hk
    rcases List.mem_cons.mp hk with rfl | hk
    · exact Node.isAlternation_of_isQuantified hn
    · exact hs k (hns k hk)

variable {s s' : Stack} {ls : List Lexeme} {ms : List Mark}

theorem IsMixed.foldlM (hs : s.IsMixed) (h : ls.foldlM feed s = .ok s') : s'.IsMixed :=
  foldlM_keeps (fun ht hx => .of_moves (moves_of_feed hx) (.inl ht)) hs h

theorem isAlternation_foldlM (hs : ∀ n ∈ s.base.items, n.isAlternation = false)
    (h : ls.foldlM feed s = .ok s') : ∀ n ∈ s'.base.items, n.isAlternation = false :=
  foldlM_keeps (P := fun s => ∀ n ∈ s.base.items, n.isAlternation = false)
    (fun ht hx => isAlternation_of_moves (moves_of_feed hx) ht) hs h

/-- With an item behind the groups, whatever follows does not leave it alone. -/
theorem isMixed_of_more {x : Lexeme} (hs : s.base.items ≠ [])
    (h : (x :: ls).foldlM feed s = .ok s') : s'.IsMixed := by
  obtain ⟨u, hu, h⟩ := exists_of_foldlM_cons h
  exact IsMixed.foldlM (.of_moves (moves_of_feed hu) (.inr hs)) h

theorem base_eq_current (h : s.opened = []) : s.base = s.current := by
  rw [base, h, outermost]

theorem IsMixed.isItem_current (hs : s.IsMixed) (h : s.opened = []) :
    s.current.node.isItem = false := by
  rcases hs with hs | ⟨hopened, -⟩
  · rw [base_eq_current h] at hs
    exact hs.isItem_node
  · exact absurd h hopened

theorem base_branches_congr (l l' : Level) (h : l.branches = l'.branches)
    (opened : List (Paren × Level)) :
    (base ⟨l, opened⟩).branches = (base ⟨l', opened⟩).branches := by
  cases opened with
  | nil => exact h
  | cons o opened => rfl

/-- A lexeme moves as deep as its marks do, and splits the outermost level where they show a bar
outside of all groups. -/
theorem branches_feed {x : Lexeme} (hx : x.Shows ms) (h : s.feed x = .ok s') (ns : List Mark) :
    (s'.base.branches ≠ [] ∨ Mark.barOutside s'.opened.length ns = true) ↔
      s.base.branches ≠ [] ∨ Mark.barOutside s.opened.length (ms ++ ns) = true := by
  obtain ⟨l, opened⟩ := s
  have hstay : ∀ l' : Level, l'.branches = l.branches →
      (base ⟨l', opened⟩).branches = (base ⟨l, opened⟩).branches :=
    fun l' hl => base_branches_congr l' l hl opened
  cases hx with
  | single y =>
    cases h
    simp [hstay, Level.push, Mark.barOutside]
  | bracket y =>
    cases h
    simp [hstay, Level.push, Mark.barOutside]
  | anchor a =>
    cases h
    simp [hstay, Level.push, Mark.barOutside]
  | opening hp t =>
    cases h
    rw [List.cons_append, Mark.barOutside, Mark.barOutside_plains]
    rfl
  | closing =>
    cases opened with
    | nil => cases h
    | cons o opened =>
      cases h
      have hpush := base_branches_congr (o.2.push (.paren o.1 l.node)) o.2 rfl opened
      simp [base_cons, hpush, Mark.barOutside]
  | bar =>
    cases h
    cases opened with
    | nil => simp [base_nil, Level.split, Mark.barOutside]
    | cons o opened => simp [base_cons, Mark.barOutside]
  | quantifier min max greedy atomic c t =>
    obtain ⟨l', hl, h⟩ := exists_of_bind_eq_ok h
    obtain ⟨n, ns, k, -, -, rfl⟩ := Level.repeatLast_eq_ok hl
    cases h
    have hrepeated := hstay ⟨l.branches, k :: ns⟩ rfl
    rw [Mark.barOutside_plains]
    simp [hrepeated]

theorem branches_foldlM (hm : Lexeme.Outlines ls ms) (h : ls.foldlM feed s = .ok s')
    : s'.base.branches ≠ [] ∨ Mark.barOutside s'.opened.length [] = true ↔
      s.base.branches ≠ [] ∨ Mark.barOutside s.opened.length ms = true := by
  induction hm generalizing s with
  | nil =>
    cases h
    simp [Mark.barOutside]
  | cons hx hms ih =>
    obtain ⟨u, hu, h⟩ := exists_of_foldlM_cons h
    rw [ih h]
    exact branches_feed hx hu _

/-- A group that has closed is all that there is, or it is not alone. -/
theorem closesLast_of_closed {p : Paren} (hp : p ≠ .atomic) {body : Node}
    (hm : Lexeme.Outlines ls ms)
    (h : ls.foldlM feed ⟨Level.start.push (.paren p body), []⟩ = .ok s')
    (hclosed : s'.opened = []) :
    Mark.closesLast 0 (.closing :: ms) = s'.current.node.isGroup ∧
      s'.current.node.isItem = s'.current.node.isGroup := by
  rw [Mark.closesLast]
  cases hm with
  | nil =>
    cases h
    have hnode : (Level.start.push (.paren p body)).node = .paren p body := rfl
    rw [hnode]
    exact ⟨by simpa [Node.isGroup] using hp, rfl⟩
  | cons hx hms =>
    have hmixed := isMixed_of_more (by simp [base_nil, Level.push]) h
    have hitem := hmixed.isItem_current hclosed
    rw [hitem, Node.isGroup_eq_false hitem]
    cases hx <;> exact ⟨rfl, rfl⟩

/-- The group at the bottom of the stack closes last, or it is not alone. -/
theorem closesLast_foldlM {depth : Nat} (hm : Lexeme.Outlines ls ms) (h : ls.foldlM feed s = .ok s')
    (hclosed : s'.opened = []) (hdepth : s.opened.length = depth + 1) (hbase : s.base = .start)
    (hparens : ∀ o ∈ s.opened, o.1 ≠ .atomic) :
    Mark.closesLast depth ms = s'.current.node.isGroup ∧
      s'.current.node.isItem = s'.current.node.isGroup := by
  induction hm generalizing s depth with
  | nil =>
    cases h
    rw [hclosed] at hdepth
    cases hdepth
  | @cons x ls mx ns hx hms ih =>
    obtain ⟨u, hu, h⟩ := exists_of_foldlM_cons h
    obtain ⟨l, opened⟩ := s
    have hne : opened ≠ [] := List.ne_nil_of_length_eq_add_one hdepth
    have hstay : ∀ l' : Level, base ⟨l', opened⟩ = .start :=
      fun l' => (base_congr hne l' l).trans hbase
    cases hx with
    | single y =>
      cases hu
      simpa [Mark.closesLast] using ih h hdepth (hstay _) hparens
    | bracket y =>
      cases hu
      simpa [Mark.closesLast] using ih h hdepth (hstay _) hparens
    | anchor a =>
      cases hu
      simpa [Mark.closesLast] using ih h hdepth (hstay _) hparens
    | bar =>
      cases hu
      simpa [Mark.closesLast] using ih h hdepth (hstay _) hparens
    | quantifier min max greedy atomic c t =>
      obtain ⟨l', hl, hu⟩ := exists_of_bind_eq_ok hu
      cases hu
      rw [Mark.closesLast_plains]
      exact ih h hdepth (hstay _) hparens
    | @opening p hp t =>
      cases hu
      rw [List.cons_append, Mark.closesLast, Mark.closesLast_plains]
      refine ih h (by simpa using hdepth) hbase fun o ho => ?_
      rcases List.mem_cons.mp ho with rfl | ho
      · exact hp
      · exact hparens o ho
    | closing =>
      cases opened with
      | nil => exact absurd rfl hne
      | cons o opened =>
        obtain ⟨p, outer⟩ := o
        cases hu
        have hp : p ≠ .atomic := hparens _ List.mem_cons_self
        have hinner : ∀ o ∈ opened, o.1 ≠ .atomic :=
          fun o ho => hparens o (List.mem_cons_of_mem _ ho)
        simp only [List.length_cons, Nat.add_right_cancel_iff] at hdepth
        cases opened with
        | cons o opened =>
          obtain ⟨k, rfl⟩ : ∃ k, depth = k + 1 := ⟨opened.length, by simpa using hdepth.symm⟩
          rw [List.singleton_append, Mark.closesLast]
          exact ih h hdepth hbase hinner
        | nil =>
          obtain rfl : depth = 0 := by simpa using hdepth.symm
          obtain rfl : outer = .start := hbase
          exact closesLast_of_closed hp hms h hclosed

end Stack

section

variable {t : Text} {ls : List Lexeme} {ms : List Mark} {s : Stack}

theorem Lexeme.Shows.ne_nil {x : Lexeme} (h : x.Shows ms) : ms ≠ [] := by
  cases h <;> simp

theorem outline_of_item {k : Mark} (hk : k = .plain ∨ k = .bracket) {n : Node}
    (hn : n.isItem = true ∧ n.isGroup = false) (hm : Lexeme.Outlines ls ms)
    (ht : Mark.ofText t = k :: ms) (h : ls.foldlM Stack.feed ⟨Level.start.push n, []⟩ = .ok s)
    (hclosed : s.opened = []) :
    t.isOneGroup = s.current.node.isGroup ∧ t.isUnit = s.current.node.isItem := by
  have hgroup : Mark.areOneGroup (Mark.ofText t) = false := by
    rw [ht]
    rcases hk with rfl | rfl <;> rfl
  cases hm with
  | nil =>
    cases h
    have hunit : t.isUnit = true := by
      rw [Text.isUnit, ht]
      rcases hk with rfl | rfl <;> rfl
    exact ⟨hgroup.trans hn.2.symm, hunit.trans hn.1.symm⟩
  | cons hx hms =>
    have hmixed := (Stack.isMixed_of_more (by simp [Stack.base_nil, Level.push]) h).isItem_current
      hclosed
    have hmore : ∀ j : Mark, Mark.ofText t ≠ [j] := by
      intro j hj
      rw [ht] at hj
      exact hx.ne_nil (List.append_eq_nil_iff.mp (List.cons.inj hj).2).1
    rw [Text.isOneGroup, Phrase.isUnit_eq_areOneGroup (hmore _) (hmore _) (by simp [ht]), hgroup,
      hmixed, Node.isGroup_eq_false hmixed]
    exact ⟨rfl, rfl⟩

theorem hasOuterBar_eq_isAlternation (hm : Lexeme.Outlines ls (Mark.ofText t))
    (h : ls.foldlM Stack.feed .start = .ok s) (hclosed : s.opened = []) :
    t.hasOuterBar = s.current.node.isAlternation := by
  have hitems := Stack.isAlternation_foldlM (s := .start) (by simp [Stack.start, Stack.base_nil,
    Level.start]) h
  have hbranches := Stack.branches_foldlM hm h
  rw [Stack.base_eq_current hclosed] at hitems hbranches
  rw [Level.isAlternation_node hitems, Bool.eq_iff_iff]
  simpa [hclosed, Mark.barOutside, Stack.start, Stack.base_nil, Level.start, Text.hasOuterBar]
    using hbranches.symm

theorem isUnit_eq_isItem (hm : Lexeme.Outlines ls (Mark.ofText t)) (hne : t ≠ [])
    (h : ls.foldlM Stack.feed .start = .ok s) (hclosed : s.opened = []) :
    t.isOneGroup = s.current.node.isGroup ∧ t.isUnit = s.current.node.isItem := by
  generalize hmarks : Mark.ofText t = marks at hm
  cases hm with
  | nil => exact absurd hmarks (Mark.ofText_ne_nil hne)
  | cons hx hms =>
    obtain ⟨u, hu, hrest⟩ := exists_of_foldlM_cons h
    cases hx with
    | single y =>
      cases hu
      exact outline_of_item (.inl rfl) ⟨rfl, rfl⟩ hms hmarks hrest hclosed
    | bracket y =>
      cases hu
      exact outline_of_item (.inr rfl) ⟨rfl, rfl⟩ hms hmarks hrest hclosed
    | anchor a =>
      cases hu
      exact outline_of_item (.inl rfl) ⟨rfl, rfl⟩ hms hmarks hrest hclosed
    | @opening p hp name =>
      cases hu
      have hunit : t.isUnit = Mark.areOneGroup (Mark.ofText t) := by
        apply Phrase.isUnit_eq_areOneGroup <;> simp [hmarks]
      have hparens : ∀ o ∈ [(p, Level.start)], o.1 ≠ .atomic := by
        intro o ho
        rw [List.mem_singleton.mp ho]
        exact hp
      have hcloses : Mark.closesLast 0 _ = _ ∧ _ :=
        Stack.closesLast_foldlM hms hrest hclosed rfl rfl hparens
      rw [Text.isOneGroup, hunit, hmarks, List.cons_append, Mark.areOneGroup,
        Mark.closesLast_plains, hcloses.1, hcloses.2]
      exact ⟨rfl, rfl⟩
    | closing => cases hu
    | bar =>
      cases hu
      have hsplit : Stack.IsMixed ⟨Level.start.split, []⟩ :=
        .inl (.inl (by simp [Stack.base_nil, Level.split]))
      have hitem := (hsplit.foldlM hrest).isItem_current hclosed
      have hunit : t.isUnit = Mark.areOneGroup (Mark.ofText t) := by
        apply Phrase.isUnit_eq_areOneGroup <;> simp [hmarks]
      rw [Text.isOneGroup, hunit, hmarks, hitem, Node.isGroup_eq_false hitem]
      exact ⟨rfl, rfl⟩
    | quantifier min max greedy atomic c name => cases hu

end

/-- What a scan of a basic text finds out is what the root of its tree says, for every text that is
accepted outside of extended mode. -/
theorem outline_of_parseIn {m : Modes} (hm : m.extended = false) {t : Text} (hne : t ≠ [])
    (ht : t.isBasic false = true) {n : Node} (hn : Node.parseIn m t = .ok n) :
    t.isOneGroup = n.isGroup ∧ t.hasOuterBar = n.isAlternation ∧ t.isUnit = n.isItem := by
  obtain ⟨ls, hls, hn⟩ := exists_of_bind_eq_ok hn
  obtain ⟨s, hs, hfinish⟩ := exists_of_bind_eq_ok hn
  have hm' : (⟨m, [], false⟩ : Reading).IsBasic := ⟨hm, by simp⟩
  have houtline := outlines_of_lexemesFrom hm' ht hls
  unfold Stack.finish at hfinish
  split at hfinish
  next hclosed =>
    cases hfinish
    have hclosed : s.opened = [] := List.isEmpty_iff.mp hclosed
    obtain ⟨hgroup, hunit⟩ := isUnit_eq_isItem houtline hne hs hclosed
    exact ⟨hgroup, hasOuterBar_eq_isAlternation houtline hs hclosed, hunit⟩
  next => cases hfinish

def groupOrLetters : Text :=
  ['(', '?', ':', 'a', '|', '[', '^', '\\', ']', '|', ')', ']', ')', '|', 'b', '+']

theorem outline_of_parseIn_groupOrLetters :
    ({} : Modes).extended = false ∧ groupOrLetters ≠ [] ∧ groupOrLetters.isBasic false = true ∧
      ∃ n, Node.parseIn {} groupOrLetters = .ok n ∧ groupOrLetters.isOneGroup = n.isGroup ∧
        groupOrLetters.hasOuterBar = n.isAlternation ∧ groupOrLetters.isUnit = n.isItem := by
  have hne : groupOrLetters ≠ [] := by decide
  have ht : groupOrLetters.isBasic false = true := by decide
  have hok : (Node.parseIn {} groupOrLetters).isOk = true := by decide +kernel
  cases hn : Node.parseIn {} groupOrLetters with
  | error e =>
    rw [hn] at hok
    cases hok
  | ok n => exact ⟨rfl, hne, ht, n, rfl, outline_of_parseIn rfl hne ht hn⟩

end PatternBuilder.Dialect
