import PatternBuilder.Proofs.Runs

/-!
# Histories

Builders in use side by side: they are made, copied, changed, asked for their patterns and reset.
Each of them is at any time what the steps make of it that were played since it was made or last
reset.
-/

namespace PatternBuilder

inductive Origin where
  | empty
  | catalog (catalog : Catalog)
  | recipe (steps : List (Step Builder))

namespace Origin

def builder : Origin → Builder
  | .empty => .empty
  | .catalog c => .ofCatalog c
  | .recipe steps => .ofRecipe steps

def steps : Origin → List (Step Builder)
  | .recipe steps => steps
  | _ => []

end Origin

def Step.adds {β : Type} : Step β → Bool
  | .append _ _ => true
  | .embed _ _ => true
  | .separate => true
  | _ => false

namespace Builder

variable {b c : Builder} {steps : List (Step Builder)}

theorem recipe_play (b : Builder) (s : Step Builder) : (b.play s).recipe = b.recipe := by
  cases s with
  | write =>
    unfold play Builder.write
    cases b.written <;> rfl
  | _ => rfl

theorem recipe_playAll (b : Builder) (steps : List (Step Builder)) :
    (b.playAll steps).recipe = b.recipe := by
  induction steps generalizing b with
  | nil => rfl
  | cons s steps ih => exact (ih (b.play s)).trans (b.recipe_play s)

/-- Of the builder, only the catalog and the recipe matter to what a reset makes of it. -/
theorem reset_eq (hcatalog : b.catalog = c.catalog) (hrecipe : b.recipe = c.recipe) :
    b.reset = c.reset := by
  rw [reset, reset, clear, clear, hcatalog, hrecipe]

theorem reset_playAll (b : Builder) (steps : List (Step Builder)) :
    (b.playAll steps).reset = b.reset :=
  reset_eq (b.catalog_playAll steps) (b.recipe_playAll steps)

theorem reset_origin (o : Origin) : o.builder.reset = o.builder := by
  cases o with
  | empty => rfl
  | catalog c => rfl
  | recipe steps => exact reset_playAll _ steps

/-- The clauses are those of the steps, one of each, and are numbered from zero. Only the step for
a separator has made a separator. -/
structure AddedBy (b : Builder) (steps : List (Step Builder)) : Prop where
  size : b.size = steps.length
  clause : ∀ (i : Nat) (d : Clause Builder), b.clauses[i]? = some d →
    d.index = i ∧ (d.isSeparator = true ↔ steps[i]? = some .separate)

theorem AddedBy.push (h : b.AddedBy steps) {s : Step Builder} {body : Body Builder} {o : Options}
    (hs : o.isSeparator = true ↔ s = .separate) : (b.push body o).AddedBy (steps ++ [s]) where
  size := by
    have hsize := h.size
    simp only [Builder.size, Builder.push, List.length_append] at hsize ⊢
    simp [hsize]
  clause := by
    intro i d hd
    have hsize : b.clauses.length = steps.length := h.size
    rcases Nat.lt_trichotomy i b.clauses.length with hi | rfl | hi
    · rw [Builder.push, List.getElem?_append_left hi] at hd
      rw [List.getElem?_append_left (hsize ▸ hi)]
      exact h.clause i d hd
    · rw [Builder.push, List.getElem?_concat_length] at hd
      cases hd
      rw [hsize, List.getElem?_concat_length, Option.some_inj]
      exact ⟨h.size, hs⟩
    · have hnone : (b.clauses ++ [⟨body, o, b.size⟩])[i]? = none := by
        apply List.getElem?_eq_none
        simp only [List.length_append, List.length_singleton]
        omega
      rw [Builder.push, hnone] at hd
      cases hd

theorem AddedBy.congr (h : b.AddedBy steps) {steps' : List (Step Builder)}
    (hclauses : c.clauses = b.clauses) (hsteps : steps' = steps) : c.AddedBy steps' where
  size := by
    rw [Builder.size, hclauses, hsteps]
    exact h.size
  clause := by
    rw [hclauses, hsteps]
    exact h.clause

theorem AddedBy.play (h : b.AddedBy steps) (s : Step Builder) :
    (b.play s).AddedBy (steps ++ [s].filter Step.adds) := by
  cases s with
  | append v o => exact h.push (s := .append v o) (by simp [gatheredOptions])
  | embed inner o => exact h.push (s := .embed inner o) (by simp)
  | separate => exact h.push (s := .separate) (by simp)
  | addFlag f => exact h.congr rfl (List.append_nil steps)
  | removeFlag f => exact h.congr rfl (List.append_nil steps)
  | write => exact h.congr b.clauses_write (List.append_nil steps)

theorem AddedBy.playAll (h : b.AddedBy steps) (later : List (Step Builder)) :
    (b.playAll later).AddedBy (steps ++ later.filter Step.adds) := by
  induction later generalizing b steps with
  | nil => exact h.congr rfl (List.append_nil steps)
  | cons s later ih =>
    have hrest := ih (h.play s)
    rw [List.append_assoc, ← List.filter_append] at hrest
    exact hrest

theorem addedBy_origin (o : Origin) : o.builder.AddedBy (o.steps.filter Step.adds) := by
  cases o with
  | recipe steps =>
    have hclear : (clear { empty with recipe := some steps }).AddedBy [] := by
      constructor
      · rfl
      · intro i d hd
        cases hd
    exact hclear.playAll steps
  | _ =>
    constructor
    · rfl
    · intro i d hd
      cases hd

theorem isCurrent_origin (o : Origin) : o.builder.IsCurrent := by
  cases o with
  | recipe steps =>
    have hclear : (clear { empty with recipe := some steps }).IsCurrent := nofun
    exact hclear.playAll steps
  | _ => exact nofun

theorem prefix_play (b : Builder) (s : Step Builder) : b.clauses <+: (b.play s).clauses := by
  cases s with
  | append v o => exact List.prefix_append _ _
  | embed inner o => exact List.prefix_append _ _
  | separate => exact List.prefix_append _ _
  | write =>
    have hclauses : (b.play .write).clauses = b.clauses := b.clauses_write
    exact hclauses ▸ List.prefix_rfl
  | _ => exact List.prefix_rfl

end Builder

structure Account where
  origin : Origin
  /-- What was played since the builder was made or last reset. -/
  since : List (Step Builder)
  builder : Builder

namespace Account

def make (o : Origin) : Account := ⟨o, [], o.builder⟩

def play (t : Account) (s : Step Builder) : Account :=
  { t with since := t.since ++ [s], builder := t.builder.play s }

def reset (t : Account) : Account := { t with since := [], builder := t.builder.reset }

def adding (t : Account) : List (Step Builder) := (t.origin.steps ++ t.since).filter Step.adds

def Replays (t : Account) : Prop := t.builder = t.origin.builder.playAll t.since

variable {t : Account}

theorem Replays.make (o : Origin) : (make o).Replays := rfl

theorem Replays.play (h : t.Replays) (s : Step Builder) : (t.play s).Replays := by
  have hs : t.origin.builder.playAll (t.since ++ [s]) = (t.origin.builder.playAll t.since).play s :=
    List.foldl_append
  rw [Replays] at h ⊢
  exact (congrArg (Builder.play · s) h).trans hs.symm

theorem Replays.reset_builder (h : t.Replays) : t.reset.builder = t.origin.builder := by
  have hreset : t.builder.reset = t.origin.builder.reset := by
    rw [h, Builder.reset_playAll]
  exact hreset.trans (Builder.reset_origin t.origin)

theorem Replays.reset (h : t.Replays) : t.reset.Replays := h.reset_builder

theorem Replays.addedBy (h : t.Replays) : t.builder.AddedBy t.adding := by
  rw [h, adding, List.filter_append]
  exact (Builder.addedBy_origin t.origin).playAll t.since

theorem Replays.isCurrent (h : t.Replays) : t.builder.IsCurrent := by
  rw [h]
  exact (Builder.isCurrent_origin t.origin).playAll t.since

end Account

/-- What can be done with builders. Each is known by its place in the order in which they came into
use. -/
inductive Action where
  | make (o : Origin)
  | copy (k : Nat)
  | play (k : Nat) (s : Step Builder)
  | reset (k : Nat)

namespace Action

def act (ts : List Account) : Action → List Account
  | .make o => ts ++ [.make o]
  | .copy k => ts ++ ts[k]?.toList
  | .play k s => ts.modify k (·.play s)
  | .reset k => ts.modify k .reset

def run (actions : List Action) : List Account := actions.foldl act []

/-- The action is one on the builder at this place. To be copied leaves a builder as it is. -/
def IsOn (k : Nat) : Action → Prop
  | .play j _ => j = k
  | .reset j => j = k
  | _ => False

variable {ts : List Account} {t : Account} {k : Nat}

theorem forall_mem_modify {P : Account → Prop} {f : Account → Account} (hts : ∀ t ∈ ts, P t)
    (hf : ∀ t, P t → P (f t)) (k : Nat) : ∀ t ∈ ts.modify k f, P t := by
  intro t ht
  obtain ⟨i, hi⟩ := List.mem_iff_getElem?.mp ht
  rw [List.getElem?_modify] at hi
  obtain ⟨u, hu, rfl⟩ := Option.map_eq_some_iff.mp hi
  have hu := hts u (List.mem_of_getElem? hu)
  split
  · exact hf u hu
  · exact hu

theorem replays_act (hts : ∀ t ∈ ts, t.Replays) (a : Action) : ∀ t ∈ act ts a, t.Replays := by
  intro t ht
  cases a with
  | make o =>
    rcases List.mem_append.mp ht with ht | ht
    · exact hts t ht
    · exact List.mem_singleton.mp ht ▸ .make o
  | copy k =>
    rcases List.mem_append.mp ht with ht | ht
    · exact hts t ht
    · exact hts t (List.mem_of_getElem? (Option.mem_toList.mp ht))
  | play k s => exact forall_mem_modify hts (fun _ hu => hu.play s) k t ht
  | reset k => exact forall_mem_modify hts (fun _ hu => hu.reset) k t ht

theorem act_of_not_isOn {a : Action} (ha : ¬ a.IsOn k) (h : ts[k]? = some t) :
    (act ts a)[k]? = some t := by
  have hk : k < ts.length := (List.getElem?_eq_some_iff.mp h).1
  cases a with
  | make o => rwa [act, List.getElem?_append_left hk]
  | copy j => rwa [act, List.getElem?_append_left hk]
  | play j s =>
    have hj : j ≠ k := ha
    rwa [act, List.getElem?_modify_ne _ _ hj]
  | reset j =>
    have hj : j ≠ k := ha
    rwa [act, List.getElem?_modify_ne _ _ hj]

theorem prefix_act {a : Action} (ha : a ≠ .reset k) (h : ts[k]? = some t) :
    ∃ u, (act ts a)[k]? = some u ∧ t.builder.clauses <+: u.builder.clauses := by
  by_cases hon : a.IsOn k
  · cases a with
    | play j s =>
      obtain rfl : j = k := hon
      refine ⟨t.play s, ?_, t.builder.prefix_play s⟩
      rw [act, List.getElem?_modify_eq, h]
      rfl
    | reset j => exact absurd (congrArg _ hon) ha
    | make o => cases hon
    | copy j => cases hon
  · exact ⟨t, act_of_not_isOn hon h, List.prefix_rfl⟩

theorem run_append (actions later : List Action) :
    run (actions ++ later) = later.foldl act (run actions) :=
  List.foldl_append

theorem replays_run (actions : List Action) : ∀ t ∈ run actions, t.Replays := by
  have hfold : ∀ (actions : List Action) (ts : List Account), (∀ t ∈ ts, t.Replays) →
      ∀ t ∈ actions.foldl act ts, t.Replays := by
    intro actions
    induction actions with
    | nil => exact fun ts hts => hts
    | cons a actions ih => exact fun ts hts => ih _ (replays_act hts a)
  exact hfold actions [] nofun

theorem foldl_of_not_isOn {later : List Action} (hlater : ∀ a ∈ later, ¬ a.IsOn k)
    (h : ts[k]? = some t) : (later.foldl act ts)[k]? = some t := by
  induction later generalizing ts with
  | nil => exact h
  | cons a later ih =>
    rw [List.forall_mem_cons] at hlater
    exact ih hlater.2 (act_of_not_isOn hlater.1 h)

theorem prefix_foldl {later : List Action} (hlater : .reset k ∉ later) (h : ts[k]? = some t) :
    ∃ u, (later.foldl act ts)[k]? = some u ∧ t.builder.clauses <+: u.builder.clauses := by
  induction later generalizing ts t with
  | nil => exact ⟨t, h, List.prefix_rfl⟩
  | cons a later ih =>
    rw [List.mem_cons, not_or] at hlater
    obtain ⟨u, hu, htu⟩ := prefix_act (Ne.symm hlater.1) h
    obtain ⟨v, hv, huv⟩ := ih hlater.2 hu
    exact ⟨v, hv, htu.trans huv⟩

/-- After any actions, a builder's pattern is that of its clauses and flags; its clauses stand in
the order of the steps that added them, and what a step added is a separator if the step was for
one; they stay until the next reset. Whatever becomes of a copy, the builder stays as it is, and a
reset gives the builder that was made at first. -/
theorem run_builder (actions : List Action) (k : Nat) (t : Account)
    (h : (run actions)[k]? = some t) :
    t.builder.pattern = ⟨t.builder.render t.builder.flags, t.builder.flags⟩ ∧
      t.builder.AddedBy t.adding ∧
      (∀ later, .reset k ∉ later → ∃ u, (run (actions ++ later))[k]? = some u ∧
        t.builder.clauses <+: u.builder.clauses) ∧
      (run (actions ++ [.copy k]))[(run actions).length]? = some t ∧
      (∀ later, (∀ a ∈ later, ¬ IsOn k a) → (run (actions ++ .copy k :: later))[k]? = some t) ∧
      ∃ u, (run (actions ++ [.reset k]))[k]? = some u ∧ u.origin = t.origin ∧
        u.builder = t.origin.builder := by
  have ht : t.Replays := replays_run actions t (List.mem_of_getElem? h)
  refine ⟨ht.isCurrent.pattern_eq, ht.addedBy, ?_, ?_, ?_, ?_⟩
  · intro later hlater
    rw [run_append]
    exact prefix_foldl hlater h
  · rw [run_append, List.foldl_cons, List.foldl_nil, act, h]
    exact List.getElem?_concat_length
  · intro later hlater
    rw [run_append, List.foldl_cons]
    exact foldl_of_not_isOn hlater (act_of_not_isOn id h)
  · refine ⟨t.reset, ?_, rfl, ht.reset_builder⟩
    rw [run_append, List.foldl_cons, List.foldl_nil, act, List.getElem?_modify_eq, h]
    rfl

def askingRecipe : List (Step Builder) :=
  [.append (.ofText ['a']) { isSeparator := true }, .write, .separate, .append (.ofText ['b']) {}]

theorem run_askingRecipe :
    ∃ t, (run [.make (.recipe askingRecipe), .play 0 .write, .copy 0, .play 0 .separate,
          .play 0 (.append (.ofText ['c']) {})])[0]? = some t ∧
      t.builder.pattern = ⟨"a|b|c".toList, .empty⟩ ∧
      t.builder.clauses.map Clause.isSeparator = [false, true, false, true, false] ∧
      ∃ u, (run [.make (.recipe askingRecipe), .play 0 .write, .copy 0, .play 0 .separate,
          .play 0 (.append (.ofText ['c']) {}), .reset 0])[0]? = some u ∧
        u.builder.pattern = ⟨"a|b".toList, .empty⟩ := by
  obtain ⟨hpattern, hadded, -, -, -, u, hu, horigin, hbuilder⟩ :=
    run_builder [.make (.recipe askingRecipe), .play 0 .write, .copy 0, .play 0 .separate,
      .play 0 (.append (.ofText ['c']) {})] 0 _ rfl
  refine ⟨_, rfl, hpattern.trans (by decide +kernel), by decide +kernel, u, hu, ?_⟩
  rw [hbuilder]
  decide +kernel

end Action
end PatternBuilder
