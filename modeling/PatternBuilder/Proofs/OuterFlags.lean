import PatternBuilder.Proofs.Places

/-!
# Flags from outside

A nested builder is written with the flags of the outermost one, and not with its own. Of these only
the one that ignores case shows in the text, and what it does could as well be done to the atoms
before anything is written.
-/

namespace PatternBuilder

namespace Builder

mutual

def atomLists : Builder → List (List Atom)
  | ⟨clauses, _, _, _, _⟩ => atomListsOf clauses

def atomListsOf : List (Clause Builder) → List (List Atom)
  | [] => []
  | ⟨body, _, _⟩ :: cs => atomListsIn body ++ atomListsOf cs

def atomListsIn : Body Builder → List (List Atom)
  | .atoms as => [as]
  | .nested b => b.atomLists

end

theorem atomLists_eq (b : Builder) :
    b.atomLists = b.clauses.flatMap fun c => atomListsIn c.body := by
  have hclauses : ∀ cs, atomListsOf cs = cs.flatMap fun c => atomListsIn c.body := by
    intro cs
    induction cs with
    | nil => simp [atomListsOf]
    | cons c cs ih =>
      obtain ⟨body, o, index⟩ := c
      rw [atomListsOf, ih, List.flatMap_cons]
  cases b
  rw [atomLists]
  exact hclauses _

theorem mem_atomLists {b : Builder} {c : Clause Builder} (hc : c ∈ b.clauses) {as : List Atom}
    (h : as ∈ atomListsIn c.body) : as ∈ b.atomLists := by
  rw [atomLists_eq]
  exact List.mem_flatMap.mpr ⟨c, hc, h⟩

structure Settings where
  flags : Flags
  recipe : Option (List (Step Builder))
  written : Option Written

mutual

/-- Changes the atoms of the clauses by `g` and the settings by `s`, at every depth. -/
def revise (g : List Atom → List Atom) (s : Settings → Settings) : Builder → Builder
  | ⟨clauses, flags, catalog, recipe, written⟩ =>
    let t := s ⟨flags, recipe, written⟩
    ⟨reviseClauses g s clauses, t.flags, catalog, t.recipe, t.written⟩

def reviseClauses (g : List Atom → List Atom) (s : Settings → Settings) :
    List (Clause Builder) → List (Clause Builder)
  | [] => []
  | c :: cs => reviseClause g s c :: reviseClauses g s cs

def reviseClause (g : List Atom → List Atom) (s : Settings → Settings) :
    Clause Builder → Clause Builder
  | ⟨body, options, index⟩ => ⟨reviseBody g s body, options, index⟩

def reviseBody (g : List Atom → List Atom) (s : Settings → Settings) : Body Builder → Body Builder
  | .atoms as => .atoms (g as)
  | .nested b => .nested (revise g s b)

end

def unset : Builder → Builder := revise id fun _ => ⟨.empty, none, none⟩

/-- The builder with its atoms in lowercase, at every depth. It has not been written yet. -/
def lowered : Builder → Builder := revise Atom.foldCase fun s => { s with written := none }

variable {g : List Atom → List Atom} {s : Settings → Settings} {flags flags' : Flags}

theorem clauses_revise (g : List Atom → List Atom) (s : Settings → Settings) (b : Builder) :
    (b.revise g s).clauses = b.clauses.map (reviseClause g s) := by
  have hclauses : ∀ cs, reviseClauses g s cs = cs.map (reviseClause g s) := by
    intro cs
    induction cs with
    | nil => simp [reviseClauses]
    | cons c cs ih => rw [reviseClauses, ih, List.map_cons]
  cases b
  rw [revise]
  exact hclauses _

theorem options_revise (g : List Atom → List Atom) (s : Settings → Settings) (c : Clause Builder) :
    (reviseClause g s c).options = c.options := by
  cases c
  rw [reviseClause]

structure WritesAlike (g : List Atom → List Atom) (flags flags' : Flags) (as : List Atom) :
    Prop where
  nil_iff : g as = [] ↔ as = []
  folded : Atom.foldWhen flags'.ignoreCase (g as) = Atom.foldWhen flags.ignoreCase as

theorem sameKind_revise {c : Clause Builder}
    (h : ∀ as, c.body = .atoms as → WritesAlike g flags flags' as) :
    Layout.SameKind c (reviseClause g s c) := by
  obtain ⟨body, o, index⟩ := c
  have hcontent : (reviseBody g s body).hasContent = body.hasContent := by
    cases body with
    | atoms as =>
      have hnil := (h as rfl).nil_iff
      rw [reviseBody, Body.hasContent, Body.hasContent, Bool.eq_iff_iff]
      simp [hnil]
    | nested b => rw [reviseBody, Body.hasContent, Body.hasContent]
  rw [reviseClause]
  constructor
  · rfl
  · exact hcontent
  · simp [Clause.isRepeater, Clause.isSeparator, Clause.hasContent, hcontent]

theorem text_revise {c : Clause Builder}
    (hatoms : ∀ as, c.body = .atoms as → WritesAlike g flags flags' as)
    (hnested : ∀ k, c.body = .nested k → (k.revise g s).render flags' = k.render flags)
    (scope : Scope) :
    ((reviseClause g s c).map (render flags')).text flags' scope =
      (c.map (render flags)).text flags scope := by
  obtain ⟨body, o, index⟩ := c
  rw [reviseClause]
  cases body with
  | atoms as =>
    have hfolded := (hatoms as rfl).folded
    have htext : o.atomsText flags' scope.alternative (g as) =
        o.atomsText flags scope.alternative as := by
      rw [Options.atomsText, Options.atomsText, hfolded]
    rw [reviseBody]
    exact congrArg (if o.isSeparator then ['|'] else ·) htext
  | nested b =>
    have htext : o.nestedText scope.isBare ((b.revise g s).render flags') =
        o.nestedText scope.isBare (b.render flags) := by
      rw [hnested b rfl]
    rw [reviseBody]
    exact congrArg (if o.isSeparator then ['|'] else ·) htext

/-- If no atoms are written otherwise, then nothing is. The induction is on what is nested. -/
theorem render_revise (b : Builder) (h : ∀ as ∈ b.atomLists, WritesAlike g flags flags' as) :
    (b.revise g s).render flags' = b.render flags := by
  induction b using induct_nested with
  | h b ih =>
    have hatoms : ∀ c ∈ b.clauses, ∀ as, c.body = .atoms as → WritesAlike g flags flags' as := by
      intro c hc as has
      apply h as (mem_atomLists hc _)
      rw [has, atomListsIn]
      exact List.mem_singleton_self as
    have hnested : ∀ c ∈ b.clauses, ∀ k, c.body = .nested k →
        (k.revise g s).render flags' = k.render flags := by
      intro c hc k hk
      apply ih c hc k hk
      intro as has
      apply h as (mem_atomLists hc _)
      rw [hk, atomListsIn]
      exact has
    rw [render_eq, render_eq, clauses_revise, List.map_map]
    apply Layout.sequenceText_congr
    · intro c hc
      exact (sameKind_revise (hatoms c hc)).trans (Layout.sameKind_map _ _)
    · intro c _
      exact Layout.sameKind_map _ c
    · intro c hc _ scope
      exact text_revise (hatoms c hc) (hnested c hc) scope
    · intro c
      exact congrArg Options.quantifierText (options_revise g s c)

/-- The settings of nested builders do not show in the text, nor does any flag but the one that
ignores case. Under that flag the text is that of the atoms in lowercase, unless lowercase leaves
nothing of some of them. -/
theorem render_flags (b : Builder) (flags : Flags) :
    (∀ k : Builder, k.unset = b.unset → k.render flags = b.render flags) ∧
      (∀ flags' : Flags, flags'.ignoreCase = flags.ignoreCase → b.render flags' = b.render flags) ∧
      (flags.ignoreCase = true → (∀ as ∈ b.atomLists, as ≠ [] → Atom.foldCase as ≠ []) →
        b.render flags = b.lowered.render .empty) := by
  have hunset : ∀ k : Builder, k.unset.render flags = k.render flags := by
    intro k
    apply render_revise
    intro as _
    constructor <;> rfl
  refine ⟨?_, ?_, ?_⟩
  · intro k hk
    rw [← hunset k, hk, hunset b]
  · intro flags' hcase
    have hother : b.unset.render flags' = b.render flags := by
      apply render_revise
      intro as _
      constructor
      · rfl
      · rw [hcase]
        rfl
    have hsame : b.unset.render flags' = b.render flags' := by
      apply render_revise
      intro as _
      constructor <;> rfl
    rw [← hsame, hother]
  · intro hcase hleft
    symm
    apply render_revise
    intro as has
    constructor
    · constructor
      · intro hnil
        by_contra hne
        exact hleft as has hne hnil
      · rintro rfl
        rfl
    · rw [hcase]
      rfl

def lettersInside : Builder :=
  (empty.embed ((ofRecipe [.append (.ofText ['A', 'B']) {}, .addFlag .ignoreCase]).write.2)
    { capture := some true }).append (.ofCharRange 'C' 'E') {}

theorem render_flags_lettersInside :
    lettersInside.render ⟨false, true, false⟩ = lettersInside.lowered.render .empty ∧
      lettersInside.render ⟨true, true, true⟩ = "(ab)[c-e]".toList ∧
      lettersInside.unset.render ⟨false, true, false⟩ =
        lettersInside.render ⟨false, true, false⟩ := by
  obtain ⟨hunset, hflags, hlowered⟩ := render_flags lettersInside ⟨false, true, false⟩
  have hleft : ∀ as ∈ lettersInside.atomLists, as ≠ [] → Atom.foldCase as ≠ [] := by decide +kernel
  refine ⟨hlowered rfl hleft, ?_, hunset lettersInside.unset rfl⟩
  rw [hflags ⟨true, true, true⟩ rfl]
  decide +kernel

end Builder
end PatternBuilder
