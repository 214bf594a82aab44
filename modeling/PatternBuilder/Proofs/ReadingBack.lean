import PatternBuilder.Proofs.Runs
import PatternBuilder.Proofs.WritingBuilders

/-!
# Reading back what is written

The source of a builder, read by the grammar of the dialect, gives the tree of its clauses. Nothing
else than a quantifier behind something that cannot be repeated keeps it from being read.
-/

namespace PatternBuilder

open Dialect

namespace Builder

/-- Put together step by step, on what is not yet a pattern, with fair values and options that
satisfy `P`. -/
inductive BuiltWith (P : Options → Prop) : Builder → Prop where
  | start {b : Builder} (h : b.clauses = []) : BuiltWith P b
  | append {b : Builder} {v : Value} {o : Options} (hb : BuiltWith P b) (hv : v.IsFair b.catalog)
      (ho : P o) : BuiltWith P (b.append v o)
  | embed {b inner : Builder} {o : Options} (hb : BuiltWith P b) (hinner : BuiltWith P inner)
      (ho : P o) : BuiltWith P (b.embed inner o)
  | separate {b : Builder} (hb : BuiltWith P b) : BuiltWith P b.separate
  | setFlag {b : Builder} (hb : BuiltWith P b) (f : Flag) (on : Bool) : BuiltWith P (b.setFlag f on)
  | write {b : Builder} (hb : BuiltWith P b) : BuiltWith P b.write.2

abbrev Built : Builder → Prop := BuiltWith Options.IsPlain

/-- `P` does not look at what a builder sets in the options of a clause, and or-markers satisfy
it. -/
structure AllowsClauses (P : Options → Prop) : Prop where
  gathered : ∀ {o : Options}, P o → ∀ g, P (gatheredOptions g o)
  nested : ∀ {o : Options}, P o → P { o with isSeparator := false }
  separator : P { isSeparator := true }

structure IsBuiltClause (P : Options → Prop) (c : Clause Builder) : Prop where
  options : P c.options
  separator : c.isSeparator = true → c.hasContent = false
  atoms : ∀ as, c.body = .atoms as → Atom.AreSound as ∧ c.options.AreFor as
  nested : ∀ k, c.body = .nested k → k.BuiltWith P

theorem BuiltWith.isBuiltClause {P : Options → Prop} (hP : AllowsClauses P) {b : Builder}
    (h : b.BuiltWith P) : ∀ c ∈ b.clauses, IsBuiltClause P c := by
  induction h with
  | start h => simp [h]
  | @append b v o hb hv ho ih =>
    refine forall_mem_push ih ⟨hP.gathered ho _, nofun, fun as has => ?_, nofun⟩
    cases has
    exact ⟨b.catalog.areSound_gather hv, Options.areFor_gatheredOptions _ _⟩
  | @embed b inner o hb hinner ho ih _ =>
    refine forall_mem_push ih ⟨hP.nested ho, nofun, nofun, fun k hk => ?_⟩
    cases hk
    exact hinner
  | separate hb ih =>
    refine forall_mem_push ih ⟨hP.separator, fun _ => rfl, fun as has => ?_, nofun⟩
    cases has
    exact ⟨⟨nofun, by simp [Atom.AreApart]⟩, nofun⟩
  | setFlag hb f on ih => exact ih
  | write hb ih => rwa [clauses_write]

/-- What a builder has if its clauses are as it builds them and all that is nested in them has it,
every builder has that is put together so. -/
@[elab_as_elim]
theorem BuiltWith.induct {P : Options → Prop} (hP : AllowsClauses P) {Q : Builder → Prop}
    (hstep : ∀ b : Builder,
      (∀ c ∈ b.clauses, IsBuiltClause P c ∧ ∀ k, c.body = .nested k → Q k) → Q b)
    {b : Builder} (h : b.BuiltWith P) : Q b := by
  induction b using induct_nested with
  | h b ih =>
    refine hstep b fun c hc => ?_
    have hclause := h.isBuiltClause hP c hc
    exact ⟨hclause, fun k hk => ih c hc k hk (hclause.nested k hk)⟩

theorem allowsClauses_isPlain : AllowsClauses Options.IsPlain where
  gathered h _ := ⟨h.decoration, h.name, h.quantifier⟩
  nested h := ⟨h.decoration, h.name, h.quantifier⟩
  separator := by decide

theorem Built.isSpelled {b : Builder} (h : b.Built) : b.IsSpelled := by
  refine h.induct allowsClauses_isPlain fun b hclauses => ?_
  refine isSpelled_of_clauses fun c hc => ?_
  obtain ⟨hclause, hnested⟩ := hclauses c hc
  exact ⟨hclause.options, hclause.separator, hclause.atoms, hnested⟩

/-- The source reads back as the tree of the clauses, up to its shape, exactly when everything that
is repeated in the tree can be repeated. -/
theorem parseIn_render_iff {b : Builder} (h : b.Built) (flags : Flags) {m : Modes}
    (hm : m.extended = false) :
    (∃ n, Node.parseIn m (b.render flags) = .ok n ∧ Node.Alike n (b.node m flags)) ↔
      (b.node m flags).repeatsSoundly = true := by
  constructor
  · rintro ⟨n, hn, halike⟩
    rw [← halike.repeatsSoundly]
    exact Node.repeatsSoundly_of_parseIn hn
  · intro hsound
    have hwritten := h.isSpelled m flags (Node.repeatsContent_of_repeatsSoundly hsound)
    obtain ⟨p, hp, htext, hnode⟩ := hwritten.spells
    rw [← hnode.repeatsSoundly] at hsound
    obtain ⟨n, hn, halike⟩ := p.parseIn_sound hp (by simp [hm]) hsound
    exact ⟨n, htext ▸ hn, halike.trans hnode⟩

def labelled : Builder :=
  let characters : Value :=
    .list [.ofSymbol ['l', 'o', 'w', 'e', 'r'], .ofSymbol ['d', 'i', 'g', 'i', 't']]
  let label := empty.append characters { quantifier := some .oneOrMore, name := some ['i', 'd'] }
  (empty.embed label { before := some ['^'] }).separate.append (.ofText ['n', '/', 'a']) {}

theorem parseIn_render_labelled :
    labelled.Built ∧ ({} : Modes).extended = false ∧
      ∃ n, Node.parseIn {} (labelled.render .empty) = .ok n ∧
        Node.Alike n (labelled.node {} .empty) := by
  have hlabel : Built (empty.append
      (.list [.ofSymbol ['l', 'o', 'w', 'e', 'r'], .ofSymbol ['d', 'i', 'g', 'i', 't']])
      { quantifier := some .oneOrMore, name := some ['i', 'd'] }) :=
    .append (.start rfl) (by decide +kernel) (by decide)
  have hbuilt : labelled.Built :=
    .append (.separate (.embed (.start rfl) hlabel (by decide))) (by decide +kernel) (by decide)
  exact ⟨hbuilt, rfl, (parseIn_render_iff hbuilt .empty rfl).mpr (by decide +kernel)⟩

def repeatedGroups : Builder :=
  let group : Options := { nonCapture := true }
  empty.embed ((empty.append .empty group).append .empty group) { quantifier := some .oneOrMore }

/-- The body is neither without text nor a lone group without content, and yet there is nothing in
it to repeat. -/
theorem parseIn_render_repeatedGroups :
    repeatedGroups.Built ∧
      repeatedGroups.render .empty =
        Grouping.nonCapture.wrap ['(', '?', ':', ')', '(', '?', ':', ')'] ++ ['+'] ∧
      Node.parseIn {} (repeatedGroups.render .empty) = .error .nothingToRepeat := by
  have hgroups : Built ((empty.append .empty { nonCapture := true }).append .empty
      { nonCapture := true }) :=
    .append (.append (.start rfl) (by decide) (by decide)) (by decide) (by decide)
  exact ⟨.embed (.start rfl) hgroups (by decide), by decide +kernel, by decide +kernel⟩

end Builder
end PatternBuilder
