import PatternBuilder.Proofs.CaseVariants
import PatternBuilder.Proofs.EscapedTexts
import PatternBuilder.Proofs.QuantifiedClauses

/-!
# Sources of case variants

Ignoring case, lists of texts that are case variants of each other are written with the same
alternatives. A group around them may differ: whether it is there also depends on how many different
long texts were listed, and case counts in that.
-/

namespace PatternBuilder

theorem Scope.enclose_injective (scope : Scope) : Function.Injective scope.enclose := by
  intro s t h
  exact List.append_cancel_left (List.append_cancel_right h)

namespace Builder

variable {b : Builder}

/-- What is written around an appended clause does not depend on the clause. -/
theorem exists_render_push (b : Builder) (flags : Flags) : ∃ (s : Text) (scope : Scope) (t : Text),
    scope.alternative = Layout.endsInSeparator b.clauses ∧
      ∀ (body : Body Builder) (o : Options), body.hasContent = true → o.isSeparator = false →
        (b.push body o).render flags =
          s ++ (scope.enclose
            ((Clause.map (render flags) ⟨body, o, b.size⟩).text flags scope) ++ t) := by
  have hnone : ∀ d ∈ ([] : List (Clause Builder)).head?, d.isRepeater = false := by simp
  obtain ⟨ss, scope, ts, halternative, hslots⟩ := Layout.exists_slots b.clauses hnone
  refine ⟨ss.flatMap fun s => (s.map (Clause.map (render flags))).text flags, scope,
    ts.flatMap fun s => (s.map (Clause.map (render flags))).text flags,
    halternative.trans (Bool.or_false _), ?_⟩
  intro body o hcontent hsep
  have hentry : Layout.IsEntry ⟨body, o, b.size⟩ none := by
    refine ⟨hsep, ?_, by simp⟩
    simp [Clause.isRepeater, Clause.hasContent, hcontent]
  have hplaces : Layout.slots (b.push body o).clauses =
      ss ++ .entry ⟨body, o, b.size⟩ none scope :: ts := hslots ⟨body, o, b.size⟩ none hentry
  rw [render_eq_slots, hplaces, List.flatMap_append, List.flatMap_cons]
  rfl

/-- Two clauses of atoms give the same text behind a builder if they do on their own, in the scope
that is there. -/
theorem render_push_inj (b : Builder) {as bs : List Atom} {o p : Options} (has : as ≠ [])
    (hbs : bs ≠ []) (ho : o.isSeparator = false) (hp : p.isSeparator = false) (flags : Flags) :
    (b.push (.atoms as) o).render flags = (b.push (.atoms bs) p).render flags ↔
      o.atomsText flags (Layout.endsInSeparator b.clauses) as =
        p.atomsText flags (Layout.endsInSeparator b.clauses) bs := by
  obtain ⟨s, scope, t, halternative, hrender⟩ := b.exists_render_push flags
  have htext : ∀ (cs : List Atom) (q : Options), q.isSeparator = false →
      (Clause.map (render flags) ⟨.atoms cs, q, b.size⟩).text flags scope =
        q.atomsText flags (Layout.endsInSeparator b.clauses) cs := by
    intro cs q hq
    rw [← halternative]
    exact if_neg (by simp [Clause.isSeparator, Clause.map, hq])
  have hcontent : ∀ cs : List Atom, cs ≠ [] →
      (Body.atoms cs : Body Builder).hasContent = true := by
    intro cs hcs
    simpa [Body.hasContent] using hcs
  rw [hrender _ o (hcontent as has) ho, hrender _ p (hcontent bs hbs) hp, htext as o ho,
    htext bs p hp,
    List.append_cancel_left_eq, List.append_cancel_right_eq, scope.enclose_injective.eq_iff]

end Builder

/-- A quantifier repeats a text of several characters only in a group. -/
theorem Text.isUnit_general {t : Text} (h : 2 ≤ t.plainCount) :
    Text.isUnit (Escape.general t) = false := by
  have hlength : 2 ≤ t.length := Nat.le_trans h (List.length_filter_le _ t)
  obtain ⟨n, hn⟩ := Nat.exists_eq_add_of_le' hlength
  rw [isUnit, Mark.ofText_general, hn]
  rfl

namespace Atom

variable {as : List Atom} {t : Text} {bareDot : Bool}

theorem alternatives_eq_singleton (ht : .literal t ∈ as) (hfits : fitsClass (.literal t) = false)
    (hone : ¬1 < (alternatives bareDot as).length) : alternatives bareDot as = [t] := by
  have hmem : t ∈ alternatives bareDot as :=
    List.mem_append_right _ (List.mem_map.mpr ⟨.literal t, by simpa [hfits] using ht, rfl⟩)
  have hpos := List.length_pos_of_mem hmem
  obtain ⟨u, hu⟩ := List.length_eq_one_iff.mp (by omega : (alternatives bareDot as).length = 1)
  rw [hu, List.mem_singleton] at hmem
  rw [hu, hmem]

end Atom

/-- A text that is no unit is written alike with a plain group and without one only where it is
repeated, which takes that group anyway, or where a group is asked for, which serves instead. -/
theorem Options.dress_alternatives_iff {o : Options} {t : Text} (ht : t.isUnit = false) :
    o.dress true t = o.dress false t ↔ o.quantifierText ≠ [] ∨ o.asksForGroup = true := by
  rw [dress, dress, ht]
  cases hquantifier : o.quantifierText.isEmpty with
  | false => simp_all
  | true =>
    have hnil : o.quantifierText = [] := List.isEmpty_iff.mp hquantifier
    cases hgroup : o.asksForGroup with
    | true => simp [hnil]
    | false =>
      have hnone : o.grouping = .none := asksForGroup_eq_false.mp hgroup
      have hlonger : o.surround (Grouping.nonCapture.wrap t) ≠ o.surround t := by
        intro heq
        have hlength := congrArg List.length heq
        simp only [surround, Grouping.wrap, List.length_append, List.length_cons] at hlength
        omega
      simpa [hnil, hnone, Grouping.wrap] using hlonger

/-- If there is a long text, the mark that there are several shows in the group around them. It does
not if a group is needed for other reasons, or none is needed in a run. -/
theorem Options.dress_longTexts_iff {as : List Atom} {long long' : Bool}
    (h : long ≠ long' → ∃ t : Text, 2 ≤ t.plainCount ∧ .literal (Escape.general t) ∈ as)
    (o : Options) (bareDot inRun : Bool) :
    let alternatives := Atom.alternatives bareDot as
    let dressed := fun long : Bool => o.dress
      ((decide (1 < alternatives.length) || long) && !inRun) (['|'].intercalate alternatives)
    dressed long = dressed long' ↔ long = long' ∨ 1 < alternatives.length ∨
      o.quantifierText ≠ [] ∨ o.asksForGroup = true ∨ inRun = true := by
  intro alternatives dressed
  by_cases hlong : long = long'
  · simp [hlong]
  rw [or_iff_right hlong]
  by_cases hseveral : 1 < alternatives.length
  · simp [dressed, hseveral]
  obtain ⟨t, ht, hmem⟩ := h hlong
  have hone : alternatives = [Escape.general t] :=
    Atom.alternatives_eq_singleton hmem (Atom.fitsClass_general ht) hseveral
  have hjoined : ['|'].intercalate alternatives = Escape.general t := by
    rw [hone]
    exact List.intercalate_singleton
  have hgroup := dress_alternatives_iff (o := o) (Text.isUnit_general ht)
  have hwritten : dressed true = dressed false ↔
      o.quantifierText ≠ [] ∨ o.asksForGroup = true ∨ inRun = true := by
    cases inRun with
    | true => simp [dressed]
    | false => simp [dressed, hseveral, hjoined, hgroup]
  rw [or_iff_right hseveral, ← hwritten]
  cases long <;> cases long'
  · exact absurd rfl hlong
  · exact eq_comm
  · exact Iff.rfl
  · exact absurd rfl hlong

variable {ss ts : List Text}

namespace Catalog

theorem gather_ofTexts_ne_nil (catalog : Catalog) :
    (catalog.gather (.ofTexts ss)).atoms ≠ [] ↔ ∃ s ∈ ss, s ≠ [] := by
  rw [gather_ofTexts]
  constructor
  · intro hne
    obtain ⟨a, ha⟩ := List.exists_mem_of_ne_nil _ hne
    obtain ⟨s, hs, hsa⟩ := List.mem_filterMap.mp (List.mem_eraseDups.mp ha)
    refine ⟨s, hs, ?_⟩
    rintro rfl
    cases hsa
  · rintro ⟨s, hs, hne⟩
    obtain ⟨a, ha⟩ := Option.ne_none_iff_exists'.mp (mt Atom.ofText_eq_none_iff.mp hne)
    exact eraseDups_ne_nil (List.ne_nil_of_mem (List.mem_filterMap.mpr ⟨s, hs, ha⟩))

theorem gather_ofTexts_of_empty (catalog : Catalog) (h : ¬∃ s ∈ ss, s ≠ []) :
    catalog.gather (.ofTexts ss) = ⟨[], false⟩ := by
  have hatoms := not_not.mp (mt catalog.gather_ofTexts_ne_nil.mp h)
  rw [gather_ofTexts] at hatoms ⊢
  exact congrArg (Gathered.mk · false) hatoms

theorem exists_literal_foldCase (catalog : Catalog) (h : AreSeveralLong ss) :
    ∃ t : Text, 2 ≤ t.plainCount ∧
      .literal (Escape.general t) ∈ Atom.foldCase (catalog.gather (.ofTexts ss)).atoms := by
  obtain ⟨s, hs, -, -, -, hcount, -⟩ := h
  have hlength : 2 ≤ s.length := Nat.le_trans hcount (List.length_filter_le _ s)
  have hseveral : Atom.atMostOnePlain s = false := decide_eq_false (Nat.not_le.mpr hcount)
  have hatom : Atom.ofText? s = some (.literal (Escape.general s)) := by
    rw [Atom.ofText?_of_length hlength, hseveral]
    rfl
  obtain ⟨t, htext, hlong, -⟩ := Escape.lowerFrom_general [] s
  refine ⟨t, Nat.le_trans hcount hlong, ?_⟩
  rw [gather_ofTexts, Atom.foldCase]
  have hmem : Atom.literal (Escape.general s) ∈ (ss.filterMap Atom.ofText?).eraseDups :=
    List.mem_eraseDups.mpr (List.mem_filterMap.mpr ⟨s, hs, hatom⟩)
  have hfolded : Atom.foldedLoose? (.literal (Escape.general s)) =
      some (.literal (Escape.general t)) := congrArg (some ∘ Atom.literal) htext
  exact Atom.mem_combine.mpr (.inl ⟨List.mem_filterMap.mpr ⟨_, hmem, hfolded⟩, rfl⟩)

end Catalog

theorem AreCaseVariants.exists_ne_nil (h : AreCaseVariants ss ts) :
    (∃ s ∈ ss, s ≠ []) ↔ ∃ t ∈ ts, t ≠ [] := by
  have hlowered : ∀ us : List Text, (∃ u ∈ us, u ≠ []) ↔
      ∃ u ∈ us.map (List.map Char.toLower), u ≠ [] := by simp
  rw [hlowered, h, ← hlowered]

namespace Builder

/-- It makes no difference for the source whether there are several long texts among the listed
ones: several alternatives are left in lowercase and have a group anyway, or the clause is repeated
or in a group that it asks for, or it needs no group as a member of a run. -/
def HidesLongTexts (b : Builder) (ss : List Text) (o : Options) : Prop :=
  1 < (Atom.alternatives false (Atom.foldCase (b.catalog.gather (.ofTexts ss)).atoms)).length ∨
    o.quantifierText ≠ [] ∨ o.asksForGroup = true ∨
    (Layout.endsInSeparator b.clauses = true ∧ o.isUndecorated = true)

instance (b : Builder) (ss : List Text) (o : Options) : Decidable (b.HidesLongTexts ss o) :=
  inferInstanceAs (Decidable (_ ∨ _ ∨ _ ∨ _))

theorem atomsText_gather (catalog : Catalog) {flags : Flags} (hcase : flags.ignoreCase = true)
    (ss : List Text) (o : Options) (inRun : Bool) :
    let alternatives := Atom.alternatives false
      (Atom.foldCase (catalog.gather (.ofTexts ss)).atoms)
    (gatheredOptions (catalog.gather (.ofTexts ss)) o).atomsText flags inRun
        (catalog.gather (.ofTexts ss)).atoms =
      o.dress ((decide (1 < alternatives.length) || decide (AreSeveralLong ss)) &&
        !(inRun && o.isUndecorated)) (['|'].intercalate alternatives) := by
  intro alternatives
  have hlong : (gatheredOptions (catalog.gather (.ofTexts ss)) o).longTexts =
      decide (AreSeveralLong ss) := by
    rw [Bool.eq_iff_iff, decide_eq_true_eq]
    exact catalog.longTexts_gather_iff ss o
  have hdot : (gatheredOptions (catalog.gather (.ofTexts ss)) o).bareDot = false := by
    rw [catalog.gather_ofTexts]
    rfl
  rw [Options.atomsText, hlong, hdot, hcase]
  rfl

/-- With case ignored, lists of texts that are case variants of each other give the same source
unless one of them has several different long texts, the other has not, and this shows. -/
theorem source_append_variants (b : Builder) (hcase : b.flags.ignoreCase = true)
    (h : AreCaseVariants ss ts) (o : Options) :
    (b.append (.ofTexts ss) o).source = (b.append (.ofTexts ts) o).source ↔
      (AreSeveralLong ss ↔ AreSeveralLong ts) ∨ b.HidesLongTexts ss o := by
  have hfolded := b.catalog.foldCase_gather_congr h
  by_cases hsome : ∃ s ∈ ss, s ≠ []
  · have hs := b.catalog.gather_ofTexts_ne_nil.mpr hsome
    have ht := b.catalog.gather_ofTexts_ne_nil.mpr (h.exists_ne_nil.mp hsome)
    have hrender : (b.append (.ofTexts ss) o).source = (b.append (.ofTexts ts) o).source ↔ _ :=
      b.render_push_inj hs ht rfl rfl b.flags
    rw [hrender, atomsText_gather b.catalog hcase, atomsText_gather b.catalog hcase, ← hfolded]
    have hlong : decide (AreSeveralLong ss) ≠ decide (AreSeveralLong ts) →
        ∃ t : Text, 2 ≤ t.plainCount ∧ .literal (Escape.general t) ∈
          Atom.foldCase (b.catalog.gather (.ofTexts ss)).atoms := by
      intro hdiffers
      by_cases hss : AreSeveralLong ss
      · exact b.catalog.exists_literal_foldCase hss
      · rw [hfolded]
        apply b.catalog.exists_literal_foldCase
        by_contra hts
        exact hdiffers (by rw [decide_eq_false hss, decide_eq_false hts])
    refine (Options.dress_longTexts_iff hlong o false _).trans ?_
    rw [decide_eq_decide, Bool.and_eq_true]
    rfl
  · have hgathered : b.catalog.gather (.ofTexts ss) = b.catalog.gather (.ofTexts ts) := by
      rw [b.catalog.gather_ofTexts_of_empty hsome,
        b.catalog.gather_ofTexts_of_empty (mt h.exists_ne_nil.mpr hsome)]
    have hlong : AreSeveralLong ss ↔ AreSeveralLong ts := by
      rw [← b.catalog.longTexts_gather_iff ss o, hgathered, b.catalog.longTexts_gather_iff]
    rw [append, append, hgathered]
    exact iff_of_true rfl (.inl hlong)

/-- A word with capitals and in lowercase: two long texts as they are listed, and one alternative as
they are written. The group is there for nothing, and it is not there for two equal words. -/
theorem source_append_capitals :
    let ignoring := empty.addFlag .ignoreCase
    AreCaseVariants [['A', 'B'], ['a', 'b']] [['a', 'b'], ['a', 'b']] ∧
      (ignoring.append (.ofTexts [['A', 'B'], ['a', 'b']]) {}).source = "(?:ab)".toList ∧
      (ignoring.append (.ofTexts [['a', 'b'], ['a', 'b']]) {}).source = "ab".toList := by
  decide +kernel

theorem source_append_variants_words :
    let ignoring := empty.addFlag .ignoreCase
    let capitals : List Text := [['A', 'B'], ['a', 'b']]
    let lowercase : List Text := [['a', 'b'], ['a', 'b']]
    ignoring.flags.ignoreCase = true ∧ AreCaseVariants capitals lowercase ∧
      (ignoring.append (.ofTexts capitals) (.quantified .oneOrMore)).source =
        (ignoring.append (.ofTexts lowercase) (.quantified .oneOrMore)).source ∧
      (ignoring.append (.ofTexts capitals) {}).source ≠
        (ignoring.append (.ofTexts lowercase) {}).source := by
  intro ignoring capitals lowercase
  have hvariants : AreCaseVariants capitals lowercase := by decide
  refine ⟨rfl, hvariants, ?_, ?_⟩
  · exact (source_append_variants ignoring rfl hvariants (.quantified .oneOrMore)).mpr
      (.inr (.inr (.inl (by decide))))
  · exact mt (source_append_variants ignoring rfl hvariants {}).mp (by decide +kernel)

end Builder
end PatternBuilder
