import PatternBuilder.Builder

/-!
# Runs of steps

What every step of a recipe keeps, and so every run of them.
-/

namespace PatternBuilder.Builder

variable {b : Builder}

theorem clauses_write (b : Builder) : b.write.2.clauses = b.clauses := by
  unfold write
  cases b.written <;> rfl

theorem flags_write (b : Builder) : b.write.2.flags = b.flags := by
  unfold write
  cases b.written <;> rfl

theorem render_write (b : Builder) (flags : Flags) : b.write.2.render flags = b.render flags := by
  rw [render_eq, render_eq, clauses_write]

theorem forall_mem_push {P : Clause Builder → Prop} {body : Body Builder} {o : Options}
    (hb : ∀ c ∈ b.clauses, P c) (hc : P ⟨body, o, b.size⟩) :
    ∀ c ∈ (b.push body o).clauses, P c := by
  intro c h
  rcases List.mem_append.mp h with h | h
  · exact hb c h
  · exact List.mem_singleton.mp h ▸ hc

def IsCurrent (b : Builder) : Prop := ∀ c ∈ b.written, c = ⟨b.render b.flags, b.flags⟩

theorem IsCurrent.write (h : b.IsCurrent) : b.write.2.IsCurrent := by
  intro c hc
  rw [flags_write, render_write]
  unfold Builder.write at hc
  cases hw : b.written with
  | none =>
    rw [hw] at hc
    exact (Option.some.inj hc).symm
  | some d =>
    rw [hw] at hc
    exact h c hc

theorem IsCurrent.play (h : b.IsCurrent) (s : Step Builder) : (b.play s).IsCurrent := by
  cases s with
  | write => exact h.write
  | _ => exact nofun

theorem IsCurrent.playAll (h : b.IsCurrent) (steps : List (Step Builder)) :
    (b.playAll steps).IsCurrent := by
  induction steps generalizing b with
  | nil => exact h
  | cons s steps ih => exact ih (h.play s)

theorem IsCurrent.pattern_eq (h : b.IsCurrent) : b.pattern = ⟨b.render b.flags, b.flags⟩ := by
  unfold pattern Builder.write
  cases hw : b.written with
  | none => rfl
  | some c => exact h c hw

theorem catalog_play (b : Builder) (s : Step Builder) : (b.play s).catalog = b.catalog := by
  cases s with
  | write =>
    unfold play Builder.write
    cases b.written <;> rfl
  | _ => rfl

theorem catalog_playAll (b : Builder) (steps : List (Step Builder)) :
    (b.playAll steps).catalog = b.catalog := by
  induction steps generalizing b with
  | nil => rfl
  | cons s steps ih => exact (ih (b.play s)).trans (b.catalog_play s)

def IsUnseparated (b : Builder) : Prop := ∀ c ∈ b.clauses, c.isSeparator = false

theorem IsUnseparated.play (h : b.IsUnseparated) {s : Step Builder} (hs : s ≠ .separate) :
    (b.play s).IsUnseparated := by
  cases s with
  | append v o => exact forall_mem_push h rfl
  | embed inner o => exact forall_mem_push h rfl
  | separate => exact absurd rfl hs
  | addFlag f => exact h
  | removeFlag f => exact h
  | write => exact fun c hc => h c (b.clauses_write ▸ hc)

theorem IsUnseparated.playAll (h : b.IsUnseparated) {steps : List (Step Builder)}
    (hs : .separate ∉ steps) : (b.playAll steps).IsUnseparated := by
  induction steps generalizing b with
  | nil => exact h
  | cons s steps ih =>
    rw [List.mem_cons, not_or] at hs
    exact ih (h.play (Ne.symm hs.1)) hs.2

end PatternBuilder.Builder
