import PatternBuilder.Proofs.TwinPhrases
import PatternBuilder.Proofs.WritingParts

/-!
# Twin texts

The texts of twin phrases. Clauses are put together from them in the same way on both sides: where a
group is needed depends on what twins have in common.
-/

namespace PatternBuilder

open Dialect Options

def Twins (m : Modes) (s t : Text) : Prop :=
  ∃ p q : Phrase, (p.Proper m ∧ p.text = s) ∧ (q.Proper m ∧ q.text = t) ∧ Phrase.Twin m p q

theorem Dialect.Phrase.lexemes_ne_nil {m : Modes} {p : Phrase} (hextended : m.extended = false)
    (h : p.Proper m) (hp : p ≠ .empty) : p.lexemes m ≠ [] := by
  induction p with
  | empty => exact absurd rfl hp
  | sign s =>
    have hlexeme : s.lexeme? m ≠ none := by
      cases s with
      | bare c =>
        simp only [Sign.lexeme?, hextended, Bool.false_and, Bool.false_eq_true, if_false]
        split_ifs <;> simp
      | escape c =>
        unfold Sign.lexeme?
        dsimp only
        split <;> simp
      | bracket as => simp [Sign.lexeme?]
    simpa [Phrase.lexemes] using hlexeme
  | paren p body => simp [Phrase.lexemes]
  | times body q => simp [Phrase.lexemes]
  | seq a b iha =>
    intro hnil
    exact iha h.1.1 h.1.2.1 (List.append_eq_nil_iff.mp hnil).1
  | alt a b => simp [Phrase.lexemes]

namespace Twins

variable {m : Modes} {s s' t t' : Text}

theorem left (h : Twins m s t) : ∃ n, Spells m s n := by
  obtain ⟨p, -, ⟨hp, rfl⟩, -⟩ := h
  exact ⟨_, p, hp, rfl, .refl _⟩

theorem right (h : Twins m s t) : ∃ n, Spells m t n := by
  obtain ⟨-, q, -, ⟨hq, rfl⟩, -⟩ := h
  exact ⟨_, q, hq, rfl, .refl _⟩

theorem nil_iff (h : Twins m s t) : s = [] ↔ t = [] := by
  obtain ⟨p, q, ⟨hp, rfl⟩, ⟨hq, rfl⟩, htwin⟩ := h
  rw [Phrase.text_eq_nil hp, Phrase.text_eq_nil hq]
  exact htwin.shape.1

theorem isUnit_eq (h : Twins m s t) : s.isUnit = t.isUnit := by
  obtain ⟨p, q, ⟨hp, rfl⟩, ⟨hq, rfl⟩, htwin⟩ := h
  obtain ⟨hempty, hsingle⟩ := htwin.shape
  rw [Bool.eq_iff_iff, Phrase.isUnit_text hp, Phrase.isUnit_text hq, hempty, hsingle]

theorem nil : Twins m [] [] := ⟨.empty, .empty, ⟨trivial, rfl⟩, ⟨trivial, rfl⟩, .empty⟩

theorem sign {x y : Sign} (hx : x.Proper) (hy : y.Proper) (h : (x.node m).Agree (y.node m)) :
    Twins m x.text y.text :=
  ⟨.sign x, .sign y, ⟨hx, rfl⟩, ⟨hy, rfl⟩, .sign h⟩

theorem alt (h : Twins m s t) (h' : Twins m s' t') : Twins m (s ++ '|' :: s') (t ++ '|' :: t') := by
  obtain ⟨p, q, ⟨hp, rfl⟩, ⟨hq, rfl⟩, htwin⟩ := h
  obtain ⟨p', q', ⟨hp', rfl⟩, ⟨hq', rfl⟩, htwin'⟩ := h'
  exact ⟨.alt p p', .alt q q', ⟨⟨hp, hp'⟩, rfl⟩, ⟨⟨hq, hq'⟩, rfl⟩, htwin.alt htwin'⟩

theorem paren (h : Twins m s t) {p : Paren} (hp : p.Proper) :
    Twins m (p.opening ++ s ++ [')']) (p.opening ++ t ++ [')']) := by
  obtain ⟨a, b, ⟨ha, rfl⟩, ⟨hb, rfl⟩, htwin⟩ := h
  exact ⟨.paren p a, .paren p b, ⟨⟨hp, ha⟩, rfl⟩, ⟨⟨hp, hb⟩, rfl⟩, htwin.paren p⟩

theorem plain (h : Twins m s t) :
    Twins m (Grouping.nonCapture.wrap s) (Grouping.nonCapture.wrap t) :=
  h.paren (p := .plain) trivial

theorem append (h : Twins m s t) (h' : Twins m s' t')
    (hbar : s.hasOuterBar = false ∧ t.hasOuterBar = false)
    (hbar' : s'.hasOuterBar = false ∧ t'.hasOuterBar = false) :
    Twins m (s ++ s') (t ++ t') := by
  by_cases hs : s = []
  · rw [hs, h.nil_iff.mp hs]
    exact h'
  by_cases hs' : s' = []
  · rw [hs', h'.nil_iff.mp hs', List.append_nil, List.append_nil]
    exact h
  have ht : t ≠ [] := fun ht => hs (h.nil_iff.mpr ht)
  have ht' : t' ≠ [] := fun ht' => hs' (h'.nil_iff.mpr ht')
  obtain ⟨p, q, ⟨hp, rfl⟩, ⟨hq, rfl⟩, htwin⟩ := h
  obtain ⟨p', q', ⟨hp', rfl⟩, ⟨hq', rfl⟩, htwin'⟩ := h'
  rw [Phrase.hasOuterBar_text hp, Phrase.hasOuterBar_text hq] at hbar
  rw [Phrase.hasOuterBar_text hp', Phrase.hasOuterBar_text hq'] at hbar'
  have hsome : ∀ {r : Phrase}, r.text ≠ [] → r ≠ .empty := by
    rintro r hr rfl
    exact hr rfl
  exact ⟨.seq p p', .seq q q',
    ⟨⟨⟨hp, hsome hs, hbar.1⟩, hp', hsome hs', hbar'.1⟩, rfl⟩,
    ⟨⟨⟨hq, hsome ht, hbar.2⟩, hq', hsome ht', hbar'.2⟩, rfl⟩, htwin.seq htwin'⟩

theorem repeated (hextended : m.extended = false) (h : Twins m s t) (hunit : s.isUnit = true)
    (hs : s ≠ []) {q : Quantifier} (hfits : q.Fits) : Twins m (s ++ q.text) (t ++ q.text) := by
  by_cases hq : q.text = []
  · rw [hq, List.append_nil, List.append_nil]
    exact h
  have hunit' : t.isUnit = true := h.isUnit_eq ▸ hunit
  have ht : t ≠ [] := fun ht => hs (h.nil_iff.mpr ht)
  obtain ⟨a, b, ⟨ha, rfl⟩, ⟨hb, rfl⟩, htwin⟩ := h
  have htimes : ∀ {r : Phrase}, r.Proper m → r.text.isUnit = true → r.text ≠ [] →
      (Phrase.times r q).Proper m := by
    intro r hr hrunit hrtext
    have hrempty : r ≠ .empty := fun he => hrtext ((Phrase.text_eq_nil hr).mpr he)
    have hsingle := ((Phrase.isUnit_text hr).mp hrunit).resolve_left hrempty
    exact ⟨hr, hsingle, Phrase.lexemes_ne_nil hextended hr hrempty, hfits, hq⟩
  exact ⟨.times a q, .times b q, ⟨htimes ha hunit hs, rfl⟩, ⟨htimes hb hunit' ht, rfl⟩,
    htwin.times q⟩

/-- A plain group around everything is there on both sides or on neither. -/
theorem strip (h : Twins m s t) : Twins m s.stripGroup t.stripGroup := by
  obtain ⟨p, q, ⟨hp, rfl⟩, ⟨hq, rfl⟩, htwin⟩ := h
  rcases htwin.plain_cases with ⟨a, b, rfl, rfl, hbody⟩ | ⟨hp', hq'⟩
  · rw [Phrase.stripGroup_plain hp.2, Phrase.stripGroup_plain hq.2]
    exact ⟨a, b, ⟨hp.2, rfl⟩, ⟨hq.2, rfl⟩, hbody⟩
  · rw [Phrase.stripGroup_other hp hp', Phrase.stripGroup_other hq hq']
    exact ⟨p, q, ⟨hp, rfl⟩, ⟨hq, rfl⟩, htwin⟩

end Twins

namespace Options

variable {m : Modes} {o : Options} {a : Bool} {s t : Text}

theorem twins_core (hextended : m.extended = false) (ho : o.IsPlain) (h : Twins m s t)
    (hquantifier : o.quantifierText ≠ [] → s ≠ []) (a : Bool) :
    Twins m (o.core a s) (o.core a t) := by
  have hrepeated : ∀ {u v : Text}, Twins m u v →
      (o.quantifierText ≠ [] → u.isUnit = true ∧ u ≠ []) →
      Twins m (u ++ o.quantifierText) (v ++ o.quantifierText) := by
    intro u v huv hunit
    by_cases hq : o.quantifierText = []
    · rw [hq, List.append_nil, List.append_nil]
      exact huv
    · obtain ⟨q, hsome, htext, -⟩ := exists_quantifier hq
      rw [htext]
      exact huv.repeated hextended (hunit hq).1 (hunit hq).2 (ho.quantifier q hsome)
  unfold core
  rw [← h.isUnit_eq]
  split
  · split
    · exact h
    · obtain ⟨n, hn⟩ := h.left
      exact hrepeated h.plain fun _ =>
        ⟨hn.isUnit_paren (p := .plain) trivial, by simp [Grouping.wrap]⟩
  · next hcond =>
    refine hrepeated h fun hq => ⟨?_, hquantifier hq⟩
    have hempty : o.quantifierText.isEmpty = false := by simpa using hq
    simp only [hempty, Bool.not_false, Bool.true_and, Bool.or_eq_true, Bool.not_eq_true',
      not_or, Bool.not_eq_false] at hcond
    exact hcond.2

theorem twins_wrap (ho : o.IsPlain) (h : Twins m s t) :
    Twins m (o.grouping.wrap s) (o.grouping.wrap t) := by
  by_cases hne : o.grouping = .none
  · rw [hne]
    exact h
  · obtain ⟨p, hp, -, hwrap, -⟩ := Grouping.exists_paren ho.grouping hne
    rw [hwrap, hwrap]
    exact h.paren hp

theorem twins_beside {u : Option Text}
    (hu : u ∈ [none, some ['^'], some ['\\', 'A'], some ['$'], some ['\\', 'z']]) :
    Twins m (u.getD []) (u.getD []) ∧ (u.getD []).hasOuterBar = false := by
  have hanchor : ∀ {x : Sign} {b : Anchor}, x.Proper → x.node m = .anchor b →
      Twins m x.text x.text ∧ x.text.hasOuterBar = false := by
    intro x b hx hnode
    refine ⟨.sign hx hx ?_, hasOuterBar_sign hx⟩
    rw [hnode]
    exact Node.agree_anchor b
  simp only [List.mem_cons, List.not_mem_nil, or_false] at hu
  rcases hu with rfl | rfl | rfl | rfl | rfl
  · exact ⟨.nil, rfl⟩
  · exact hanchor (x := .bare '^') (.inr (by decide)) rfl
  · exact hanchor (x := .escape 'A') (.inr (.inr (by decide))) rfl
  · exact hanchor (x := .bare '$') (.inr (by decide)) rfl
  · exact hanchor (x := .escape 'z') (.inr (.inr (by decide))) rfl

theorem twins_surround (ho : o.IsPlain) (h : Twins m s t)
    (hbar : o.isUndecorated = true ∨ s.hasOuterBar = false ∧ t.hasOuterBar = false) :
    Twins m (o.surround s) (o.surround t) := by
  rw [surround, surround]
  rcases ho.decoration with ⟨hbefore, hafter⟩ | ⟨hlook, hafter⟩
  · rcases hbar with hplain | hno
    · simp only [isUndecorated, Bool.and_eq_true, Option.isNone_iff_eq_none] at hplain
      simpa [hplain] using h
    · obtain ⟨hb, hbbar⟩ := twins_beside (m := m) (u := o.before) (by
        simp only [List.mem_cons, List.not_mem_nil, or_false] at hbefore ⊢
        tauto)
      obtain ⟨ha, habar⟩ := twins_beside (m := m) (u := o.after) (by
        simp only [List.mem_cons, List.not_mem_nil, or_false] at hafter ⊢
        tauto)
      obtain ⟨n, hn⟩ := hb.left
      have hfirst : ∀ {u : Text}, u.hasOuterBar = false →
          (o.before.getD [] ++ u).hasOuterBar = false := by
        intro u hu
        rw [hn.hasOuterBar_append, hbbar, hu]
        rfl
      exact (hb.append h ⟨hbbar, hbbar⟩ hno).append ha ⟨hfirst hno.1, hfirst hno.2⟩ ⟨habar, habar⟩
  · obtain ⟨p, hp⟩ := Option.isSome_iff_exists.mp hlook
    obtain ⟨hbefore, hproper⟩ := before_of_lookaround hp
    rw [hbefore, hafter]
    exact h.paren hproper

/-- Twins that are dressed alike are twins. Bars may show only where nothing stands beside them. -/
theorem twins_dress (hextended : m.extended = false) (ho : o.IsPlain) (h : Twins m s t)
    (hquantifier : o.quantifierText ≠ [] → s ≠ [])
    (hbar : o.asksForGroup = false → s.hasOuterBar = true ∨ t.hasOuterBar = true →
      a = true ∨ o.isUndecorated = true) :
    Twins m (o.dress a s) (o.dress a t) := by
  have hcore := twins_core hextended ho h hquantifier a
  rw [dress_eq, dress_eq]
  refine twins_surround ho (twins_wrap ho hcore) ?_
  by_cases hplain : o.isUndecorated = true
  · exact .inl hplain
  · obtain ⟨n, hn⟩ := h.left
    obtain ⟨k, hk⟩ := h.right
    obtain ⟨n', hn'⟩ := hcore.left
    obtain ⟨k', hk'⟩ := hcore.right
    exact .inr ⟨hasOuterBar_wrap_core ho hn hn' fun hask hs =>
        (hbar hask (.inl hs)).resolve_right hplain,
      hasOuterBar_wrap_core ho hk hk' fun hask ht =>
        (hbar hask (.inr ht)).resolve_right hplain⟩

theorem hasOuterBar_dress_twins (hextended : m.extended = false) (ho : o.IsPlain)
    (h : Twins m s t) (hquantifier : o.quantifierText ≠ [] → s ≠ [])
    (hbar : o.asksForGroup = false → s.hasOuterBar = true ∨ t.hasOuterBar = true → a = true) :
    (o.dress a s).hasOuterBar = false ∧ (o.dress a t).hasOuterBar = false := by
  have hcore := twins_core hextended ho h hquantifier a
  have hwrap := twins_wrap ho hcore
  obtain ⟨n, hn⟩ := h.left
  obtain ⟨k, hk⟩ := h.right
  obtain ⟨n', hn'⟩ := hcore.left
  obtain ⟨k', hk'⟩ := hcore.right
  obtain ⟨n'', hn''⟩ := hwrap.left
  obtain ⟨k'', hk''⟩ := hwrap.right
  rw [dress_eq, dress_eq]
  exact ⟨hasOuterBar_surround ho hn'' (hasOuterBar_wrap_core ho hn hn' fun hask hs =>
      hbar hask (.inl hs)),
    hasOuterBar_surround ho hk'' (hasOuterBar_wrap_core ho hk hk' fun hask ht =>
      hbar hask (.inr ht))⟩

theorem dress_bare (hask : o.asksForGroup = false) (hplain : o.isUndecorated = true) :
    o.dress a s = o.core a s := by
  simp only [isUndecorated, Bool.and_eq_true, Option.isNone_iff_eq_none] at hplain
  simp [dress_eq, surround, hplain, asksForGroup_eq_false.mp hask, Grouping.wrap]

/-- Bars show on both sides of a repeated body or on neither. -/
theorem hasOuterBar_core_eq (h : Twins m s t) (hsame : s.hasOuterBar = t.hasOuterBar) (a : Bool) :
    (o.core a s).hasOuterBar = (o.core a t).hasOuterBar := by
  obtain ⟨n, hn⟩ := h.left
  obtain ⟨k, hk⟩ := h.right
  have hnplain : (Grouping.nonCapture.wrap s).hasOuterBar = false :=
    hn.hasOuterBar_paren (p := .plain) trivial
  have hkplain : (Grouping.nonCapture.wrap t).hasOuterBar = false :=
    hk.hasOuterBar_paren (p := .plain) trivial
  unfold core
  rw [← h.isUnit_eq]
  split
  · split
    · exact hsame
    · rw [hn.plain.hasOuterBar_append, hk.plain.hasOuterBar_append, hnplain, hkplain]
  · rw [hn.hasOuterBar_append, hk.hasOuterBar_append, hsame]

theorem dress_grouped (hask : o.asksForGroup = true) (ha : a = true → s.isUnit = false) :
    o.dress a s = o.dress false s := by
  have hcore : o.core a s = o.core false s := by
    cases a with
    | false => rfl
    | true =>
      unfold core
      by_cases hq : o.quantifierText = []
      · simp [hq, hask]
      · have hempty : o.quantifierText.isEmpty = false := by simpa using hq
        simp [hempty, ha rfl]
  rw [dress_eq, dress_eq, hcore]

/-- The nested text that a clause repeats: a plain group around it gives way to the group that is
asked for. -/
def bodyText (o : Options) (s : Text) : Text := if o.asksForGroup then s.stripGroup else s

theorem twins_bodyText (h : Twins m s t) (o : Options) :
    Twins m (o.bodyText s) (o.bodyText t) := by
  unfold Options.bodyText
  split
  · exact h.strip
  · exact h

end Options

/-- The texts of a clause on both sides. Where it cannot stand `bare`, no alternatives show. There
may be bars on one side only where the clause is `joined` with others, since there are bars beside
it. -/
structure Paired (m : Modes) (bare joined : Bool) (s t : Text) : Prop where
  twins : Twins m s t
  bars : bare = false → s.hasOuterBar = false ∧ t.hasOuterBar = false
  same : joined = false → s.hasOuterBar = t.hasOuterBar

namespace Paired

variable {m : Modes} {bare joined : Bool} {s s' t t' : Text} {o : Options}

theorem of_no_bars (h : Twins m s t) (hbar : s.hasOuterBar = false ∧ t.hasOuterBar = false) :
    Paired m bare joined s t :=
  ⟨h, fun _ => hbar, fun _ => hbar.1.trans hbar.2.symm⟩

theorem append (h : Paired m false joined s t) (h' : Paired m false joined s' t') :
    Paired m false joined (s ++ s') (t ++ t') := by
  obtain ⟨hs, ht⟩ := h.bars rfl
  obtain ⟨hs', ht'⟩ := h'.bars rfl
  obtain ⟨n, hn⟩ := h.twins.left
  obtain ⟨k, hk⟩ := h.twins.right
  refine .of_no_bars (h.twins.append h'.twins ⟨hs, ht⟩ ⟨hs', ht'⟩) ⟨?_, ?_⟩
  · rw [hn.hasOuterBar_append, hs, hs']
    rfl
  · rw [hk.hasOuterBar_append, ht, ht']
    rfl

theorem plain (h : Twins m s t) :
    Paired m bare joined (Grouping.nonCapture.wrap s) (Grouping.nonCapture.wrap t) := by
  obtain ⟨n, hn⟩ := h.left
  obtain ⟨k, hk⟩ := h.right
  exact .of_no_bars h.plain ⟨hn.hasOuterBar_paren (p := .plain) trivial,
    hk.hasOuterBar_paren (p := .plain) trivial⟩

theorem alt (h : Twins m s t) (h' : Twins m s' t') :
    Paired m true joined (s ++ '|' :: s') (t ++ '|' :: t') := by
  have hbar : ∀ {u v : Text}, (∃ n, Spells m u n) → (u ++ '|' :: v).hasOuterBar = true := by
    rintro u v ⟨n, hn⟩
    have hfirst : Text.hasOuterBar ('|' :: v) = true := by
      simp [Text.hasOuterBar, Mark.ofText, Mark.barOutside]
    rw [hn.hasOuterBar_append, hfirst, Bool.or_true]
  exact ⟨h.alt h', Bool.noConfusion, fun _ => (hbar h.left).trans (hbar h.right).symm⟩

/-- A clause of atoms: alternatives are grouped where the clause is not joined with others. -/
theorem dress (hextended : m.extended = false) (ho : o.IsPlain) (h : Twins m s t)
    (hquantifier : o.quantifierText ≠ [] → s ≠ []) {wide : Bool}
    (hwide : s.hasOuterBar = true ∨ t.hasOuterBar = true → wide = true) (scope : Scope) :
    Paired m scope.isBare scope.alternative
      (o.dress (wide && !(scope.alternative && o.isUndecorated)) s)
      (o.dress (wide && !(scope.alternative && o.isUndecorated)) t) := by
  have hclosed : scope.alternative = false →
      (o.dress (wide && !(scope.alternative && o.isUndecorated)) s).hasOuterBar = false ∧
        (o.dress (wide && !(scope.alternative && o.isUndecorated)) t).hasOuterBar = false :=
    fun hrun => hasOuterBar_dress_twins hextended ho h hquantifier fun _ hbar => by
      simp [hwide hbar, hrun]
  refine ⟨twins_dress hextended ho h hquantifier fun _ hbar => ?_, fun hbare => ?_, fun hrun => ?_⟩
  · cases hplain : o.isUndecorated <;> simp [hwide hbar]
  · exact hclosed (Bool.or_eq_false_iff.mp hbare).1
  · exact (hclosed hrun).1.trans (hclosed hrun).2.symm

theorem nested (hextended : m.extended = false) (ho : o.IsPlain) (h : Twins m s t)
    (hsame : s.hasOuterBar = t.hasOuterBar)
    (hquantifier : o.quantifierText ≠ [] → o.bodyText s ≠ []) :
    Paired m bare joined (o.nestedText bare s) (o.nestedText bare t) := by
  unfold nestedText
  unfold bodyText at hquantifier
  by_cases hask : o.asksForGroup = true
  · rw [if_pos hask] at hquantifier
    have hunit : ∀ {u : Text}, (∃ n, Spells m u n) → u.hasOuterBar = true → u.isUnit = false := by
      rintro u ⟨n, hn⟩ hu
      rw [← Bool.not_eq_true]
      exact fun hunit => absurd (hu.symm.trans (hn.hasOuterBar_of_isUnit hunit)) (by decide)
    have hgrouped : o.asksForGroup = false → ∀ {P : Prop}, P := fun hno =>
      absurd (hask.symm.trans hno) (by decide)
    rw [if_pos hask, if_pos hask, dress_grouped hask (hunit h.strip.left),
      dress_grouped hask (hunit h.strip.right)]
    exact .of_no_bars (twins_dress hextended ho h.strip hquantifier fun hno => hgrouped hno)
      (hasOuterBar_dress_twins hextended ho h.strip hquantifier fun hno => hgrouped hno)
  · rw [if_neg hask] at hquantifier
    rw [if_neg hask, if_neg hask, ← hsame]
    have hno : o.asksForGroup = false := by simpa using hask
    refine ⟨twins_dress hextended ho h hquantifier fun _ hbar => ?_, fun hbare => ?_, fun _ => ?_⟩
    · rw [← hsame, or_self] at hbar
      cases hplain : o.isUndecorated <;> simp [hbar]
    · refine hasOuterBar_dress_twins hextended ho h hquantifier fun _ hbar => ?_
      rw [← hsame, or_self] at hbar
      simp [hbar, hbare]
    · cases hshow : bare && o.isUndecorated with
      | true =>
        have hplain := (Bool.and_eq_true_iff.mp hshow).2
        rw [dress_bare hno hplain, dress_bare hno hplain]
        exact hasOuterBar_core_eq h hsame _
      | false =>
        obtain ⟨hs, ht⟩ := hasOuterBar_dress_twins (a := s.hasOuterBar && !false) hextended ho h
          hquantifier fun _ hbar => by
            rw [← hsame, or_self] at hbar
            simp [hbar]
        exact hs.trans ht.symm

theorem repeatText (hextended : m.extended = false) (h : Paired m bare joined s t) {r : Options}
    (hr : r.IsPlain) :
    Paired m bare joined (Clause.repeatText s r.quantifierText)
      (Clause.repeatText t r.quantifierText) := by
  have hnil : s.isEmpty = t.isEmpty := by
    rw [Bool.eq_iff_iff, List.isEmpty_iff, List.isEmpty_iff]
    exact h.twins.nil_iff
  unfold Clause.repeatText
  rw [← hnil, ← h.twins.isUnit_eq]
  by_cases hs : s.isEmpty = true
  · rw [if_pos hs, if_pos hs]
    exact h
  rw [if_neg hs, if_neg hs]
  have hsome : s ≠ [] := by simpa using hs
  by_cases hq : r.quantifierText = []
  · simpa [hq] using h
  obtain ⟨q, hquantifier, htext, hne⟩ := exists_quantifier hq
  have hempty : q.text.isEmpty = false := by simpa using hne
  have hfits := hr.quantifier q hquantifier
  -- behind a unit, or a group that makes one, no bars show
  have hunits : ∀ {u v : Text}, Twins m u v → u.isUnit = true → u ≠ [] →
      Paired m bare joined (u ++ q.text) (v ++ q.text) := by
    intro u v huv hunit hu
    obtain ⟨n, hn⟩ := huv.left
    obtain ⟨k, hk⟩ := huv.right
    refine .of_no_bars (huv.repeated hextended hunit hu hfits) ⟨?_, ?_⟩
    · rw [hn.hasOuterBar_append, hn.hasOuterBar_of_isUnit hunit, q.hasOuterBar_text]
      rfl
    · rw [hk.hasOuterBar_append, hk.hasOuterBar_of_isUnit (huv.isUnit_eq ▸ hunit),
        q.hasOuterBar_text]
      rfl
  rw [htext, hempty, Bool.false_or]
  by_cases hunit : s.isUnit = true
  · rw [if_pos hunit, if_pos hunit]
    exact hunits h.twins hunit hsome
  · obtain ⟨n, hn⟩ := h.twins.left
    rw [if_neg hunit, if_neg hunit]
    exact hunits h.twins.plain (hn.isUnit_paren (p := .plain) trivial) (by simp [Grouping.wrap])

end Paired

namespace Layout

variable {α : Type} {m : Modes} {f f' : Scope → Item α → Text}

def ArePaired (m : Modes) (f f' : Scope → Item α → Text) (us : List (Part α)) : Prop :=
  ∀ u ∈ us, ∀ scope : Scope,
    Paired m scope.isBare scope.alternative (f scope u.item) (f' scope u.item)

/-- Where not all parts are one run: `s` and `t` are what is written of the run up to here. The
induction is on the parts behind. -/
theorem paired_run {us : List (Part α)} (h : ArePaired m f f' us) (multi : Bool) {s t : Text}
    (hst : Twins m s t)
    (hsingle : multi = false → Paired m false false s t ∧ us.head?.any Part.isJoined = false) :
    Paired m false false (runText multi s us ++ partsText f false false us)
      (runText multi t us ++ partsText f' false false us) := by
  induction us generalizing s t multi with
  | nil =>
    cases multi with
    | true =>
      have hplain : Paired m false false (Grouping.nonCapture.wrap s)
          (Grouping.nonCapture.wrap t) := .plain hst
      simpa [runText, partsText, Grouping.wrap] using hplain
    | false => simpa [runText, partsText] using (hsingle rfl).1
  | cons u us ih =>
    have hu := h u List.mem_cons_self (u.scope false false us)
    have hus : ArePaired m f f' us := fun v hv => h v (List.mem_cons_of_mem u hv)
    by_cases hjoined : u.isJoined = true
    · cases multi with
      | false =>
        have hahead := (hsingle rfl).2
        simp [hjoined] at hahead
      | true =>
        have hrun := ih hus true (hst.alt hu.twins) Bool.noConfusion
        simpa [runText, partsText, hjoined, Part.scope, Scope.enclose] using hrun
    · have hfirst : u.isJoined = false := by simpa using hjoined
      have hleft : Paired m false false (runText multi s (u :: us))
          (runText multi t (u :: us)) := by
        cases multi with
        | true =>
          have hplain : Paired m false false (Grouping.nonCapture.wrap s)
              (Grouping.nonCapture.wrap t) := .plain hst
          simpa [runText, hjoined, Grouping.wrap] using hplain
        | false => simpa [runText] using (hsingle rfl).1
      have hright := ih hus (us.head?.any Part.isJoined) hu.twins fun ha =>
        ⟨.of_no_bars hu.twins (hu.bars (isBare_scope_alone hfirst ha)), ha⟩
      rw [partsText_cons_run f hfirst, partsText_cons_run f' hfirst]
      exact hleft.append hright

/-- Where all parts are one run, bars stand between them on both sides. -/
theorem paired_flat {us : List (Part α)} (h : ArePaired m f f' us)
    (hjoined : us.all Part.isJoined = true) (solo : Bool) {s t : Text}
    (hst : Paired m true (us.head?.any Part.isJoined) s t) :
    Paired m true false (s ++ partsText f true solo us) (t ++ partsText f' true solo us) := by
  induction us generalizing s t with
  | nil => simpa [partsText] using hst
  | cons u us ih =>
    have hu := h u List.mem_cons_self (u.scope true solo us)
    have hus : ArePaired m f f' us := fun v hv => h v (List.mem_cons_of_mem u hv)
    rw [List.all_cons, Bool.and_eq_true] at hjoined
    have hrun := ih hus hjoined.2 (.alt hst.twins hu.twins)
    simpa [partsText, hjoined.1, Part.scope, Scope.enclose] using hrun

theorem paired_parts {us : List (Part α)} (h : ArePaired m f f' us)
    (hhead : ∀ u ∈ us.head?, u.separator = none) :
    Paired m true false (partsText f (us.tail.all Part.isJoined) (us.length == 1) us)
      (partsText f' (us.tail.all Part.isJoined) (us.length == 1) us) := by
  cases us with
  | nil => exact .of_no_bars .nil ⟨rfl, rfl⟩
  | cons u us =>
    have hu := h u List.mem_cons_self
    have hus : ArePaired m f f' us := fun v hv => h v (List.mem_cons_of_mem u hv)
    have hfirst : u.isJoined = false := by simp [Part.isJoined, hhead u rfl]
    rw [List.tail_cons]
    cases hflat : us.all Part.isJoined with
    | true =>
      have hstart := hu (u.scope true ((u :: us).length == 1) us)
      have halternative : (u.scope true ((u :: us).length == 1) us).alternative =
          us.head?.any Part.isJoined := by
        simp [Part.scope, hfirst]
      rw [halternative] at hstart
      have hrun := paired_flat hus hflat ((u :: us).length == 1)
        ⟨hstart.twins, Bool.noConfusion, hstart.same⟩
      simpa [partsText, hfirst, Part.scope, Scope.enclose] using hrun
    | false =>
      have hstart := hu (u.scope false false us)
      have hrun := paired_run hus (us.head?.any Part.isJoined) hstart.twins fun ha =>
        ⟨.of_no_bars hstart.twins (hstart.bars (isBare_scope_alone hfirst ha)), ha⟩
      rw [length_cons_of_split u hflat, partsText_cons_run f hfirst, partsText_cons_run f' hfirst]
      exact ⟨hrun.twins, Bool.noConfusion, hrun.same⟩

end Layout
end PatternBuilder
