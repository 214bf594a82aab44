import PatternBuilder.Proofs.AgreeingTrees
import PatternBuilder.Proofs.DialectText

/-!
# Patterns that agree

Pattern texts whose trees agree are refused alike, or compiled to patterns that find the same in
ASCII text, if nothing but the depth of groups is limited.
-/

namespace PatternBuilder

open Dialect

namespace Dialect

theorem Core.groups_ofItems (cs : List Core) : (Core.ofItems cs).groups = groupsOfAll cs := by
  match cs with
  | [] => rfl
  | [c] => exact (List.append_nil _).symm
  | c :: d :: cs => rfl

theorem groupsOfAll_append (cs ds : List Core) :
    groupsOfAll (cs ++ ds) = groupsOfAll cs ++ groupsOfAll ds := by
  induction cs with
  | nil => rfl
  | cons c cs ih => rw [List.cons_append, groupsOfAll, ih, groupsOfAll, List.append_assoc]

namespace Node

theorem length_groups_members (n : Node) (base : Nat) :
    (groupsOfAll (n.members base)).length = n.captureCount := by
  induction n generalizing base with
  | empty => rfl
  | single s => rfl
  | anchor a => rfl
  | paren p body ih =>
    cases p with
    | plain =>
      have hbody := ih base
      rw [members]
      cases hcs : body.members base with
      | nil =>
        rw [hcs] at hbody
        simpa [captureCount, Paren.captures] using hbody
      | cons c cs =>
        rw [hcs] at hbody
        simpa [captureCount, Paren.captures, groupsOfAll, Core.groups_ofItems] using hbody
    | capture => simp [members, groupsOfAll, Core.groups, Core.groups_ofItems, ih, captureCount,
        Paren.captures, Nat.add_comm]
    | named name => simp [members, groupsOfAll, Core.groups, Core.groups_ofItems, ih, captureCount,
        Paren.captures, Nat.add_comm]
    | atomic => simp [members, groupsOfAll, Core.groups, Core.groups_ofItems, ih, captureCount,
        Paren.captures]
    | look behind negated => simp [members, groupsOfAll, Core.groups, Core.groups_ofItems, ih,
        captureCount, Paren.captures]
  | times body min max greedy ih =>
    simp [members, groupsOfAll, Core.groups, Core.groups_ofItems, ih, captureCount]
  | seq a b iha ihb => simp [members, groupsOfAll_append, iha, ihb, captureCount]
  | alt a b iha ihb =>
    have hb := ihb (base + a.captureCount)
    unfold members
    split
    next c d branches hchoice =>
      rw [hchoice] at hb
      simp only [groupsOfAll, Core.groups, List.append_nil] at hb
      simp [groupsOfAll, Core.groups, Core.groups_ofItems, iha, hb, captureCount]
    next => simp [groupsOfAll, Core.groups, Core.groups_ofItems, iha, hb, captureCount]

def behindModes (n : Node) : Node := straight (.seq (.paren .plain .empty) n)

theorem members_behindModes (n : Node) (base : Nat) :
    n.behindModes.members base = Core.ofWays (waysAll base n.lay) := by
  have hways : ∀ ws : List (List Node), ws ≠ [] →
      waysAll base (glue [[.paren .plain .empty]] ws) = waysAll base ws := by
    intro ws hws
    obtain ⟨w, ws, rfl⟩ := List.exists_cons_of_ne_nil hws
    have hcount : countAll ([.paren .plain .empty] ++ w) = countAll w := by
      simp [countAll_cons, captureCount, Paren.captures]
    rw [glue, waysAll, hcount]
    rfl
  rw [behindModes, members_straight]
  exact congrArg Core.ofWays (hways n.lay n.lay_ne_nil)

theorem captureCount_behindModes (n : Node) : n.behindModes.captureCount = n.captureCount :=
  (isMeasure_captureCount.straight _).trans (Nat.zero_add _)

theorem depth_behindModes (n : Node) : n.behindModes.depth = max 1 n.depth :=
  isMeasure_depth.straight _

end Node

namespace Phrase

variable {flags : Flags} {p q : Phrase}

theorem parse_behindModes (h : p.Proper flags.modes) (hhash : flags.extended = true → p.Hashless)
    (hflags : flags.isEmpty = false) (hs : (p.node flags.modes).repeatsSoundly = true) :
    Node.parse (Pattern.dialectText p.text flags) = .ok (p.node flags.modes).behindModes ∧
      (p.node flags.modes).behindModes.names 0 = (p.node flags.modes).names 0 := by
  obtain ⟨l, hl, htakes⟩ := foldlM_lexemes h hs (.behindModes flags) []
  have hexact := (Stack.mk.inj (stack_of_foldlM h hl)).1
  have hnode : l.node = (p.node flags.modes).behindModes := by
    obtain ⟨u, us, hus⟩ := List.exists_cons_of_ne_nil (p.node flags.modes).lay_ne_nil
    have hlevel : l = Level.start.extend (glue [[.paren .plain .empty]] (u :: us)) := by
      rw [hexact, hus, Level.behindModes, hflags]
      cases us <;> simp [glue, Level.extend, Level.start, Level.push]
    rw [hlevel, Level.node_extend rfl (glue_ne_nil (List.cons_ne_nil _ []))]
    rw [Node.behindModes, Node.straight, Node.lay, hus]
    rfl
  obtain ⟨hmodes, hbranches⟩ := Level.alike_behindModes flags
  have halike := htakes.node hmodes
  rw [hbranches, hnode] at halike
  refine ⟨?_, halike.names 0⟩
  rw [Spells.parse_dialectText h hhash, hl, ← hnode]
  rfl

end Phrase
end Dialect

def Dialect.Limits.ofDepth (depth : Option Nat) : Limits := ⟨depth, none, none⟩

namespace Pattern

/-- The patterns find the same in ASCII text. -/
def FindAlike (x y : Pattern) : Prop :=
  ∀ t : Text, (∀ c ∈ t, Unicode.isAscii c = true) → x.find t = y.find t

variable {flags : Flags} {p q : Phrase} {depth : Option Nat}

/-- The pattern of a tree by backtracking. -/
theorem ofText_of_parse {source : Text} {n : Node}
    (h : Node.parse (dialectText source flags) = .ok n)
    (hdepth : depth.any (· < n.depth) = false) : ofText (.ofDepth depth) source flags =
      (n.core.strategy none true).map fun s =>
        ⟨source, flags, .backtracking s none, n.captureCount + 1, n.names 0⟩ := by
  have hgroups : n.core.groups.length = n.captureCount := by
    rw [Node.core, Core.groups_ofItems, n.length_groups_members]
  have hsearcher : searcherOf (.ofDepth depth) n.core =
      (n.core.strategy none true).map fun s => (.backtracking s none, n.captureCount) := by
    simp only [searcherOf, Limits.ofDepth, ite_self, hgroups]
    cases n.core.strategy none true <;> rfl
  have hshallow : (Limits.ofDepth depth).depth.any (· < n.depth) = false := hdepth
  simp only [ofText, h, hsearcher, hshallow, bind, Except.bind, Bool.false_eq_true, if_false]
  cases n.core.strategy none true <;> rfl

theorem ofText_too_deep {source : Text} {n : Node}
    (h : Node.parse (dialectText source flags) = .ok n) (hdepth : depth.any (· < n.depth) = true) :
    ofText (.ofDepth depth) source flags = .error .nestedTooDeep := by
  have hdeep : (Limits.ofDepth depth).depth.any (· < n.depth) = true := hdepth
  simp only [ofText, h, hdeep, bind, Except.bind, if_true]
  rfl

theorem findAlike_backtracking {s t : Strategy} (h : Action.Agree s.run t.run)
    (source source' : Text) (count : Nat) (names : List (Text × Nat)) :
    FindAlike ⟨source, flags, .backtracking s none, count, names⟩
      ⟨source', flags, .backtracking t none, count, names⟩ := by
  intro u hu
  have hnone : ∀ c ∈ ([] : Text), Unicode.isAscii c = true := fun c hc => absurd hc List.not_mem_nil
  have hsame := Strategy.searchFrom_agree h 0 hnone hu
  simp only [find, searchFrom, Strategy.search, Cursor.start, hsame]

/-- Texts whose trees agree are refused alike, or make patterns that find the same. -/
theorem both_ofText (hp : p.Proper flags.modes) (hq : q.Proper flags.modes)
    (hflags : flags.isEmpty = false) (hextended : flags.extended = false)
    (h : (p.node flags.modes).Agree (q.node flags.modes)) (depth : Option Nat) :
    Both FindAlike (ofText (.ofDepth depth) p.text flags)
      (ofText (.ofDepth depth) q.text flags) := by
  have hhash : ∀ r : Phrase, flags.extended = true → r.Hashless := fun r hx =>
    absurd (hx.symm.trans hextended) (by decide)
  by_cases hs : (p.node flags.modes).repeatsSoundly = true
  · obtain ⟨hparse, hnames⟩ := Phrase.parse_behindModes hp (hhash p) hflags hs
    obtain ⟨hparse', hnames'⟩ :=
      Phrase.parse_behindModes hq (hhash q) hflags (h.repeatsSoundly ▸ hs)
    have hdepth : (p.node flags.modes).behindModes.depth =
        (q.node flags.modes).behindModes.depth := by
      rw [Node.depth_behindModes, Node.depth_behindModes, h.depth]
    cases hdeep : depth.any (· < (p.node flags.modes).behindModes.depth) with
    | true =>
      rw [ofText_too_deep hparse hdeep, ofText_too_deep hparse' (hdepth ▸ hdeep)]
      exact .error _ _
    | false =>
      have hcore : (p.node flags.modes).behindModes.core.Agree
          (q.node flags.modes).behindModes.core := by
        rw [Node.core, Node.core, Node.members_behindModes, Node.members_behindModes]
        exact (h.ways 0).whole.whole
      have hcount : (p.node flags.modes).behindModes.captureCount =
          (q.node flags.modes).behindModes.captureCount := by
        rw [Node.captureCount_behindModes, Node.captureCount_behindModes, h.captureCount]
      rw [ofText_of_parse hparse hdeep, ofText_of_parse hparse' (hdepth ▸ hdeep), hnames, hnames',
        h.names, hcount]
      exact (hcore.strategy true true).map fun s t hst => findAlike_backtracking hst _ _ _ _
  · have hunsound : (p.node flags.modes).repeatsSoundly = false := by simpa using hs
    have herror : ∀ {r : Phrase}, r.Proper flags.modes →
        (r.node flags.modes).repeatsSoundly = false →
        ofText (.ofDepth depth) r.text flags = .error .nothingToRepeat := by
      intro r hr hrs
      have hspells : Spells flags.modes r.text (r.node flags.modes) := ⟨r, hr, rfl, .refl _⟩
      have hparse := hspells.parse_unsound
        (fun hx => absurd (hx.symm.trans hextended) (by decide)) hrs
      simp only [ofText, hparse, bind, Except.bind]
    rw [herror hp hunsound, herror hq (h.repeatsSoundly ▸ hunsound)]
    exact .error _ _

end Pattern
end PatternBuilder
