import PatternBuilder.Proofs.Agreement

/-!
# Cores that agree

Cores that backtracking without limits refuses alike, or matches alike in ASCII text. A choice is
compared branch by branch, since a lookbehind sees the width of each.
-/

namespace PatternBuilder.Dialect

/-- Both are refused, or neither is and the results are related. -/
inductive Both {ε δ α β : Type} (R : α → β → Prop) : Except ε α → Except δ β → Prop where
  | error (e : ε) (d : δ) : Both R (.error e) (.error d)
  | ok {a : α} {b : β} (h : R a b) : Both R (.ok a) (.ok b)

namespace Both

variable {ε δ α β γ ζ : Type} {R : α → β → Prop} {S : γ → ζ → Prop}
variable {x : Except ε α} {y : Except δ β}

theorem bind {f : α → Except ε γ} {g : β → Except δ ζ} (h : Both R x y)
    (hfg : ∀ a b, R a b → Both S (f a) (g b)) : Both S (x >>= f) (y >>= g) := by
  cases h with
  | error e d => exact .error e d
  | ok h => exact hfg _ _ h

theorem map {f : α → γ} {g : β → ζ} (h : Both R x y) (hfg : ∀ a b, R a b → S (f a) (g b)) :
    Both S (x.map f) (y.map g) := by
  cases h with
  | error e d => exact .error e d
  | ok h => exact .ok (hfg _ _ h)

theorem of_map {f : α → γ} {g : β → ζ} (h : Both S (x.map f) (y.map g)) :
    Both (fun a b => S (f a) (g b)) x y := by
  cases x with
  | error e =>
    cases y with
    | error d => exact .error e d
    | ok b => cases h
  | ok a =>
    cases y with
    | error d => cases h
    | ok b =>
      cases h with
      | ok h => exact .ok h

theorem mapError {η θ : Type} {f : ε → η} {g : δ → θ} (h : Both R x y) :
    Both R (x.mapError f) (y.mapError g) := by
  cases h with
  | error e d => exact .error (f e) (g d)
  | ok h => exact .ok h

end Both

theorem traitsOfAll_eq (cs : List Core) : traitsOfAll cs = cs.map Core.traits := by
  induction cs with
  | nil => rfl
  | cons c cs ih => rw [traitsOfAll, ih, List.map_cons]

/-- The traits of a choice do not depend on the order of the branches or on repetitions. -/
theorem Traits.choice_congr {ts us : List Traits} (h : ∀ t, t ∈ ts ↔ t ∈ us) :
    Traits.choice ts = Traits.choice us := by
  have hleast : (ts.map least).min? = (us.map least).min? := by
    have hmem : ∀ n, n ∈ ts.map least ↔ n ∈ us.map least := fun n => by
      simp only [List.mem_map, h]
    cases hmin : (us.map least).min? with
    | none =>
      rw [List.min?_eq_none_iff, List.map_eq_nil_iff] at hmin
      have hnil : ts = [] := List.eq_nil_iff_forall_not_mem.mpr fun t ht => by
        simpa [hmin] using (h t).mp ht
      simp [hnil]
    | some n =>
      rw [List.min?_eq_some_iff] at hmin ⊢
      exact ⟨(hmem n).mpr hmin.1, fun m hm => hmin.2 m ((hmem m).mp hm)⟩
  have hall : ∀ f : Traits → Bool, ts.all f = us.all f := fun f => by
    rw [Bool.eq_iff_iff, List.all_eq_true, List.all_eq_true]
    simp only [h]
  simp only [choice, hleast, hall]

theorem Traits.concat_append (ts us : List Traits) :
    Traits.concat (ts ++ us) = Traits.concat [Traits.concat ts, Traits.concat us] := by
  have hsum : ∀ ts : List Traits, ∀ n, ts.foldr (fun t n => t.least + n) n =
      ts.foldr (fun t n => t.least + n) 0 + n := by
    intro ts n
    induction ts with
    | nil => simp
    | cons t ts ih => simp only [List.foldr_cons, ih, Nat.add_assoc]
  simp only [concat, List.foldr_append, List.all_append, List.foldr_cons, List.foldr_nil,
    List.all_cons, List.all_nil, Bool.and_true, Nat.add_zero]
  rw [hsum]

namespace Core

theorem traits_ofItems (cs : List Core) :
    (ofItems cs).traits = Traits.concat (cs.map traits) := by
  by_cases hone : ∃ c, cs = [c]
  · obtain ⟨c, rfl⟩ := hone
    simp [ofItems, Traits.concat]
  · have hconcat : ofItems cs = .concat cs := by
      rw [ofItems]
      exact fun c hc => hone ⟨c, hc⟩
    rw [hconcat, traits, traitsOfAll_eq]

end Core

mutual

/-- Without automata it makes no difference whether something comes behind. -/
theorem Core.strategy_goesOn (c : Core) (goesOn : Bool) :
    c.strategy none goesOn = c.strategy none true := by
  match c with
  | .set s => simp [Core.strategy]
  | .anchor a => simp [Core.strategy]
  | .capture number body => simp [Core.strategy, body.strategy_goesOn goesOn]
  | .atomic body => simp [Core.strategy]
  | .look behind negated body =>
    cases behind with
    | false => simp [Core.strategy]
    | true => cases body <;> simp [Core.strategy]
  | .times body min max greedy => simp [Core.strategy, body.strategy_goesOn goesOn]
  | .concat items => simp [Core.strategy, Strategy.sequence]
  | .choice branches =>
    simp [Core.strategy, strategiesOfAll_goesOn branches goesOn,
      strategiesOfAll_goesOn branches true]

theorem strategiesOfAll_goesOn (cs : List Core) (goesOn : Bool) :
    strategiesOfAll none goesOn cs = cs.map fun c => c.strategy none true := by
  match cs with
  | [] => rfl
  | c :: cs =>
    rw [strategiesOfAll, c.strategy_goesOn goesOn, strategiesOfAll_goesOn cs goesOn, List.map_cons]

end

namespace Core

def branch? (c : Core) : Except SyntaxError Branch := do
  return (c.traits.least, ← c.strategy none true)

def branches : Core → List Core
  | .choice cs => cs
  | c => [c]

theorem mapM_strategies (goesOn : Bool) (cs : List Core) :
    (strategiesOfAll none goesOn cs).mapM id = (cs.mapM branch?).map (List.map Prod.snd) := by
  rw [strategiesOfAll_goesOn]
  induction cs with
  | nil => rfl
  | cons c cs ih =>
    simp only [List.map_cons, List.mapM_cons, ih, branch?, id]
    cases c.strategy none true with
    | error e => rfl
    | ok p => cases cs.mapM branch? <;> rfl

theorem traits_branches (c : Core) : c.traits = Traits.choice (c.branches.map traits) := by
  cases c with
  | choice cs => rw [branches, traits, traitsOfAll_eq]
  | _ => simp [branches, Traits.choice]

theorem mapM_branch_single (c : Core) :
    [c].mapM branch? = (c.strategy none true).map fun p => [(c.traits.least, p)] := by
  simp only [List.mapM_cons, List.mapM_nil, branch?]
  cases c.strategy none true <;> rfl

theorem strategy_branches (c : Core) (goesOn : Bool) : c.strategy none goesOn =
    (c.branches.mapM branch?).map fun xs => Strategy.ofBranches (xs.map Prod.snd) := by
  rw [strategy_goesOn]
  have hsingle : ∀ d : Core, d.strategy none true =
      ([d].mapM branch?).map fun xs => Strategy.ofBranches (xs.map Prod.snd) := by
    intro d
    rw [mapM_branch_single]
    cases d.strategy none true <;> rfl
  cases c with
  | choice cs =>
    rw [strategy]
    simp only [ite_self, mapM_strategies, branches]
    cases cs.mapM branch? <;> rfl
  | _ => exact hsingle _

/-- What the strategies of a lookbehind for each branch are put together to. -/
def looksBehind (negated : Bool) (xs : List Branch) : Strategy :=
  if negated then .ofItems (xs.map fun x => .look x.1 true x.2)
  else .ofBranches (xs.map fun x => .look x.1 false x.2)

theorem mapM_lookBehind (negated : Bool) {cs : List Core} (h : ∀ c ∈ cs, c.traits.fixed = true) :
    (((traitsOfAll cs).zip (strategiesOfAll none false cs)).mapM fun (t, body) =>
        Strategy.lookBehind negated t body) =
      (cs.mapM branch?).map (List.map fun x => .look x.1 negated x.2) := by
  induction cs with
  | nil => rfl
  | cons c cs ih =>
    obtain ⟨hc, hcs⟩ := List.forall_mem_cons.mp h
    rw [traitsOfAll, strategiesOfAll, List.zip_cons_cons, List.mapM_cons, List.mapM_cons, ih hcs]
    simp only [branch?, Strategy.lookBehind, hc, if_true, c.strategy_goesOn false]
    cases c.strategy none true with
    | error e => rfl
    | ok p => cases cs.mapM branch? <;> rfl

theorem lookBehindEach_fixed (negated : Bool) {cs : List Core}
    (h : ∀ c ∈ cs, c.traits.fixed = true) :
    Strategy.lookBehindEach negated (traitsOfAll cs) (strategiesOfAll none false cs) =
      (cs.mapM branch?).map (looksBehind negated) := by
  rw [Strategy.lookBehindEach, mapM_lookBehind negated h]
  cases negated <;> cases cs.mapM branch? <;> rfl

theorem lookBehindEach_not_fixed (negated : Bool) {cs : List Core}
    (h : ∃ c ∈ cs, c.traits.fixed = false) :
    ∃ e, Strategy.lookBehindEach negated (traitsOfAll cs) (strategiesOfAll none false cs) =
      .error e := by
  have hlooks : ∃ e, (((traitsOfAll cs).zip (strategiesOfAll none false cs)).mapM
      fun (t, body) => Strategy.lookBehind negated t body) = .error e := by
    induction cs with
    | nil => simp at h
    | cons c cs ih =>
      simp only [traitsOfAll, strategiesOfAll, List.zip_cons_cons, List.mapM_cons]
      cases hlook : Strategy.lookBehind negated c.traits (c.strategy none false) with
      | error e => exact ⟨e, rfl⟩
      | ok p =>
        have hcs : ∃ d ∈ cs, d.traits.fixed = false := by
          obtain ⟨d, hd, hfixed⟩ := h
          rcases List.mem_cons.mp hd with rfl | hd
          · simp [Strategy.lookBehind, hfixed] at hlook
          · exact ⟨d, hd, hfixed⟩
        obtain ⟨e, he⟩ := ih hcs
        exact ⟨e, by rw [he]; rfl⟩
  obtain ⟨e, he⟩ := hlooks
  exact ⟨e, by rw [Strategy.lookBehindEach, he]; rfl⟩

/-- A lookbehind whose alternatives differ in width looks for each by itself. -/
theorem strategy_lookBehind (negated : Bool) (c : Core) (goesOn : Bool) :
    (Core.look true negated c).strategy none goesOn =
      if c.traits.fixed then
        (c.strategy none true).map fun p => .look c.traits.least negated p
      else Strategy.lookBehindEach negated (traitsOfAll c.branches)
        (strategiesOfAll none false c.branches) := by
  have hsingle : ∀ d : Core, Strategy.lookBehind negated d.traits (d.strategy none false) =
      if d.traits.fixed then (d.strategy none true).map fun p => .look d.traits.least negated p
      else Strategy.lookBehindEach negated (traitsOfAll [d]) (strategiesOfAll none false [d]) := by
    intro d
    rw [Strategy.lookBehind, d.strategy_goesOn false]
    split
    · cases d.strategy none true <;> rfl
    next hfixed =>
      simp [traitsOfAll, strategiesOfAll, Strategy.lookBehindEach, Strategy.lookBehind, hfixed]
  have hother : (∀ cs, c ≠ .choice cs) → (Core.look true negated c).strategy none goesOn =
      Strategy.lookBehind negated c.traits (c.strategy none false) := by
    intro hc
    cases c with
    | choice cs => exact absurd rfl (hc cs)
    | _ => simp [Core.strategy]
  cases c with
  | choice cs =>
    rw [strategy]
    simp only [ite_self]
    split
    next hfixed =>
      rw [Strategy.lookBehind, if_pos hfixed, (choice cs).strategy_goesOn false]
      cases (choice cs).strategy none true <;> rfl
    next => rfl
  | _ => exact (hother fun _ hc => Core.noConfusion hc).trans (hsingle _)

structure BranchesAgree (cs ds : List Core) : Prop where
  traits : ∀ t, t ∈ cs.map Core.traits ↔ t ∈ ds.map Core.traits
  branches : Both Branch.AreAgreed (cs.mapM branch?) (ds.mapM branch?)

def Agree (c d : Core) : Prop := BranchesAgree c.branches d.branches

def StrategiesAgree : Except SyntaxError Strategy → Except SyntaxError Strategy → Prop :=
  Both fun p q => Action.Agree p.run q.run

namespace Agree

variable {c d : Core}

theorem traits (h : c.Agree d) : c.traits = d.traits := by
  rw [c.traits_branches, d.traits_branches]
  exact Traits.choice_congr (BranchesAgree.traits h)

theorem strategy (h : c.Agree d) (goesOn goesOn' : Bool) :
    StrategiesAgree (c.strategy none goesOn) (d.strategy none goesOn') := by
  rw [strategy_branches, strategy_branches]
  exact h.branches.map fun xs ys hxs => hxs.ofBranches false fun _ => rfl

/-- Cores that are no choices agree if they do as a whole. -/
theorem of_single (hc : c.branches = [c]) (hd : d.branches = [d]) (htraits : c.traits = d.traits)
    (h : StrategiesAgree (c.strategy none true) (d.strategy none true)) : c.Agree d where
  traits t := by rw [hc, hd, List.map_singleton, List.map_singleton, htraits]
  branches := by
    rw [hc, hd, mapM_branch_single, mapM_branch_single, htraits]
    exact h.map fun p q hpq => Branch.areAgreed_single rfl hpq

theorem single (h : c.Agree d) : BranchesAgree [c] [d] where
  traits t := by rw [List.map_singleton, List.map_singleton, h.traits]
  branches := by
    rw [mapM_branch_single, mapM_branch_single, h.traits]
    exact (h.strategy true true).map fun p q hpq => Branch.areAgreed_single rfl hpq

end Agree

theorem agree_set {s t : CharSet} (h : s.Agree t) : (set s).Agree (set t) := by
  refine .of_single rfl rfl rfl ?_
  simp only [strategy, ite_self]
  exact .ok (Strategy.agree_set h)

theorem agree_anchor (a : Anchor) : (anchor a).Agree (anchor a) := by
  refine .of_single rfl rfl rfl ?_
  simp only [strategy, ite_self]
  exact .ok (Strategy.agree_anchor a)

namespace Agree

variable {c d : Core}

theorem capture (number : Nat) (h : c.Agree d) : (capture number c).Agree (capture number d) := by
  refine .of_single rfl rfl h.traits ?_
  simp only [Core.strategy, ite_self]
  exact (h.strategy true true).bind fun p q hpq => .ok (Strategy.agree_capture number hpq)

theorem atomic (h : c.Agree d) : (atomic c).Agree (atomic d) := by
  refine .of_single rfl rfl (by rw [Core.traits, Core.traits, h.traits]) ?_
  simp only [Core.strategy, ite_self]
  exact (h.strategy false false).bind fun p q hpq => .ok (Strategy.agree_atomic hpq)

theorem lookBehind (negated : Bool) (h : c.Agree d) :
    StrategiesAgree ((look true negated c).strategy none true)
      ((look true negated d).strategy none true) := by
  rw [strategy_lookBehind, strategy_lookBehind, h.traits]
  split
  · exact (h.strategy true true).map fun p q hpq => Strategy.agree_look _ negated hpq
  · have hfixed : (∀ x ∈ c.branches, x.traits.fixed = true) ↔
        ∀ y ∈ d.branches, y.traits.fixed = true := by
      have hall := fun t => BranchesAgree.traits h t
      simp only [List.mem_map] at hall
      constructor
      · intro hc y hy
        obtain ⟨x, hx, hxy⟩ := (hall y.traits).mpr ⟨y, hy, rfl⟩
        exact hxy ▸ hc x hx
      · intro hd x hx
        obtain ⟨y, hy, hxy⟩ := (hall x.traits).mp ⟨x, hx, rfl⟩
        exact hxy ▸ hd y hy
    by_cases hc : ∀ x ∈ c.branches, x.traits.fixed = true
    · rw [lookBehindEach_fixed negated hc, lookBehindEach_fixed negated (hfixed.mp hc)]
      refine h.branches.map fun xs ys hxs => ?_
      cases negated with
      | false => exact hxs.ofBranches true fun _ => rfl
      | true => exact hxs.lookNot
    · have hd : ¬∀ y ∈ d.branches, y.traits.fixed = true := fun hd => hc (hfixed.mpr hd)
      simp only [Classical.not_forall, Bool.not_eq_true, exists_prop] at hc hd
      obtain ⟨e, he⟩ := lookBehindEach_not_fixed negated hc
      obtain ⟨e', he'⟩ := lookBehindEach_not_fixed negated hd
      rw [he, he']
      exact .error e e'

theorem look (behind negated : Bool) (h : c.Agree d) :
    (look behind negated c).Agree (look behind negated d) := by
  refine .of_single rfl rfl rfl ?_
  cases behind with
  | true => exact h.lookBehind negated
  | false =>
    simp only [Core.strategy, ite_self]
    exact (h.strategy false false).bind fun p q hpq => .ok (Strategy.agree_look 0 negated hpq)

theorem times (min : Nat) (max : Option Nat) (greedy : Bool) (h : c.Agree d) :
    (times c min max greedy).Agree (times d min max greedy) := by
  refine .of_single rfl rfl (by rw [Core.traits, Core.traits, h.traits]) ?_
  simp only [Core.strategy, ite_self, h.traits]
  split
  · exact (h.strategy true true).bind fun p q hpq => .ok (Strategy.agree_optional greedy hpq)
  · exact (h.strategy true true).bind fun p q hpq =>
      .ok (Strategy.agree_times min max greedy _ hpq)

end Agree

structure SeqAgree (cs ds : List Core) : Prop where
  nil : cs = [] ↔ ds = []
  whole : (ofItems cs).Agree (ofItems ds)

theorem strategy_ofItems (cs : List Core) : (ofItems cs).strategy none true =
    ((strategiesOfAll none true cs).mapM id).map Strategy.ofItems := by
  by_cases hone : ∃ c, cs = [c]
  · obtain ⟨c, rfl⟩ := hone
    rw [ofItems, strategiesOfAll, strategiesOfAll]
    cases c.strategy none true <;> rfl
  · have hconcat : ofItems cs = .concat cs := by
      rw [ofItems]
      exact fun c hc => hone ⟨c, hc⟩
    rw [hconcat]
    simp only [strategy, ite_self, Strategy.sequence]
    cases (strategiesOfAll none true cs).mapM id <;> rfl

theorem seqAgree_nil : SeqAgree [] [] where
  nil := Iff.rfl
  whole := .of_single rfl rfl rfl (by
    rw [strategy_ofItems]
    exact .ok Strategy.agree_done)

theorem Agree.seqAgree {c d : Core} (h : c.Agree d) : SeqAgree [c] [d] :=
  ⟨by simp, h⟩

theorem SeqAgree.append {cs ds cs' ds' : List Core} (h : SeqAgree cs ds) (h' : SeqAgree cs' ds') :
    SeqAgree (cs ++ cs') (ds ++ ds') := by
  by_cases hcs : cs = []
  · rw [hcs, h.nil.mp hcs]
    exact h'
  by_cases hcs' : cs' = []
  · rw [hcs', h'.nil.mp hcs', List.append_nil, List.append_nil]
    exact h
  have hds : ds ≠ [] := fun hnil => hcs (h.nil.mpr hnil)
  have hds' : ds' ≠ [] := fun hnil => hcs' (h'.nil.mpr hnil)
  have hbranches : ∀ {us vs : List Core}, us ≠ [] → vs ≠ [] →
      (ofItems (us ++ vs)).branches = [ofItems (us ++ vs)] := by
    intro us vs hus hvs
    obtain ⟨u, us, rfl⟩ := List.exists_cons_of_ne_nil hus
    obtain ⟨v, vs, rfl⟩ := List.exists_cons_of_ne_nil hvs
    cases us <;> rfl
  refine ⟨by simp [hcs, hds], .of_single (hbranches hcs hcs') (hbranches hds hds') ?_ ?_⟩
  · rw [traits_ofItems, traits_ofItems, List.map_append, List.map_append, Traits.concat_append,
      Traits.concat_append]
    simp only [← traits_ofItems, h.whole.traits, h'.whole.traits]
  · have hfirst := h.whole.strategy true true
    have hsecond := h'.whole.strategy true true
    rw [strategy_ofItems, strategy_ofItems] at hfirst hsecond
    rw [strategy_ofItems, strategy_ofItems, strategiesOfAll_append, strategiesOfAll_append,
      List.mapM_append, List.mapM_append]
    refine Both.map (R := fun ps qs =>
      Action.Agree (Strategy.ofItems ps).run (Strategy.ofItems qs).run) ?_ fun _ _ h => h
    refine (Both.of_map hfirst).bind fun ps qs hps => ?_
    refine (Both.of_map hsecond).bind fun ps' qs' hps' => ?_
    have hboth := Strategy.agree_seq hps hps'
    rw [← Strategy.run_ofItems_append, ← Strategy.run_ofItems_append] at hboth
    exact .ok hboth

theorem BranchesAgree.ne_nil {cs ds : List Core} (h : BranchesAgree cs ds) : cs ≠ [] ∧ ds ≠ [] := by
  have hboth := h.branches
  constructor
  · rintro rfl
    cases hds : ds.mapM branch? with
    | error e =>
      rw [hds] at hboth
      cases hboth
    | ok ys =>
      rw [hds] at hboth
      cases hboth with
      | ok hboth => exact hboth.nonempty.1 rfl
  · rintro rfl
    cases hcs : cs.mapM branch? with
    | error e =>
      rw [hcs] at hboth
      cases hboth
    | ok xs =>
      rw [hcs] at hboth
      cases hboth with
      | ok hboth => exact hboth.nonempty.2 rfl

theorem BranchesAgree.append {cs ds cs' ds' : List Core} (h : BranchesAgree cs ds)
    (h' : BranchesAgree cs' ds') : BranchesAgree (cs ++ cs') (ds ++ ds') where
  traits t := by
    rw [List.map_append, List.map_append, List.mem_append, List.mem_append, h.traits, h'.traits]
  branches := by
    rw [List.mapM_append, List.mapM_append]
    exact h.branches.bind fun xs ys hxs => h'.branches.bind fun zs ws hzs =>
      .ok (hxs.append hzs)

def ofWays : List (List Core) → List Core
  | [cs] => cs
  | ws => [.choice (ws.map ofItems)]

structure WaysAgree (ws vs : List (List Core)) : Prop where
  whole : SeqAgree (ofWays ws) (ofWays vs)
  branches : BranchesAgree (ws.map ofItems) (vs.map ofItems)

theorem SeqAgree.waysAgree {cs ds : List Core} (h : SeqAgree cs ds) : WaysAgree [cs] [ds] :=
  ⟨h, h.whole.single⟩

theorem ofWays_of_two {ws : List (List Core)} (h : 2 ≤ ws.length) :
    ofWays ws = [.choice (ws.map ofItems)] := by
  match ws with
  | [] => simp at h
  | [w] => simp at h
  | w :: v :: ws => rfl

theorem WaysAgree.append {ws vs ws' vs' : List (List Core)} (h : WaysAgree ws vs)
    (h' : WaysAgree ws' vs') : WaysAgree (ws ++ ws') (vs ++ vs') := by
  have hbranches := h.branches.append h'.branches
  rw [← List.map_append, ← List.map_append] at hbranches
  have hpos : ∀ {us : List (List Core)}, us.map ofItems ≠ [] → 1 ≤ us.length := by
    intro us hus
    exact List.length_pos_iff.mpr fun hnil => hus (by rw [hnil]; rfl)
  have hws := hpos h.branches.ne_nil.1
  have hvs := hpos h.branches.ne_nil.2
  have hws' := hpos h'.branches.ne_nil.1
  have hvs' := hpos h'.branches.ne_nil.2
  refine ⟨?_, hbranches⟩
  rw [ofWays_of_two (by rw [List.length_append]; omega),
    ofWays_of_two (by rw [List.length_append]; omega)]
  exact Agree.seqAgree hbranches

def letters (f : Char → CharSet) (w : Text) : List Core := w.map fun c => set (f c)

variable {f : Char → CharSet} {g : Char → Char}

theorem traits_letters (f : Char → CharSet) (w : Text) :
    (ofItems (letters f w)).traits = Traits.concat (List.replicate w.length ⟨1, true, true⟩) := by
  have hall : (letters f w).map traits = List.replicate w.length ⟨1, true, true⟩ := by
    rw [letters, List.map_map, ← List.map_const']
    rfl
  rw [traits_ofItems, hall]

theorem strategy_letters (f : Char → CharSet) (w : Text) :
    (ofItems (letters f w)).strategy none true =
      .ok (Strategy.ofItems (w.map fun c => .set (f c))) := by
  have hall : (strategiesOfAll none true (letters f w)).mapM id =
      .ok (w.map fun c => Strategy.set (f c)) := by
    induction w with
    | nil => rfl
    | cons c w ih =>
      rw [letters] at ih
      rw [letters, List.map_cons, strategiesOfAll, List.mapM_cons, ih]
      rfl
  rw [strategy_ofItems, hall]
  rfl

theorem agree_letters {w : Text} (h : ∀ c ∈ w, (f (g c)).Agree (f c)) :
    Action.Agree (Strategy.ofItems ((w.map g).map fun c => .set (f c))).run
      (Strategy.ofItems (w.map fun c => .set (f c))).run := by
  induction w with
  | nil => exact Strategy.agree_done
  | cons c w ih =>
    obtain ⟨hc, hw⟩ := List.forall_mem_cons.mp h
    rw [List.map_cons, List.map_cons, List.map_cons, Strategy.run_ofItems_cons,
      Strategy.run_ofItems_cons]
    exact Strategy.agree_seq (Strategy.agree_set hc) (ih hw)

def wordBranch (f : Char → CharSet) (w : Text) : Branch :=
  ((ofItems (letters f w)).traits.least, Strategy.ofItems (w.map fun c => .set (f c)))

theorem mapM_branch_words (f : Char → CharSet) (ws : List Text) :
    (ws.map fun w => ofItems (letters f w)).mapM branch? = .ok (ws.map (wordBranch f)) := by
  induction ws with
  | nil => rfl
  | cons w ws ih =>
    rw [List.map_cons, List.mapM_cons, ih, branch?, strategy_letters]
    rfl

/-- Words whose letters are changed to such as they agree with, each left once. -/
theorem branchesAgree_words {ws : List Text} (hne : ws ≠ [])
    (h : ∀ w ∈ ws, ∀ c ∈ w, (f (g c)).Agree (f c)) :
    BranchesAgree ((ws.map (List.map g)).eraseDups.map fun w => ofItems (letters f w))
      (ws.map fun w => ofItems (letters f w)) where
  traits t := by
    simp only [List.map_map, List.mem_map, List.mem_eraseDups, Function.comp_def, traits_letters]
    constructor
    · rintro ⟨_, ⟨w, hw, rfl⟩, rfl⟩
      exact ⟨w, hw, by rw [List.length_map]⟩
    · rintro ⟨w, hw, rfl⟩
      exact ⟨_, ⟨w, hw, rfl⟩, by rw [List.length_map]⟩
  branches := by
    rw [mapM_branch_words, mapM_branch_words]
    refine .ok (Branch.areAgreed_eraseDups (f := wordBranch f) hne fun w hw =>
      ⟨?_, agree_letters (h w hw)⟩)
    rw [wordBranch, wordBranch, traits_letters, traits_letters, List.length_map]

theorem branches_ofWays {ws : List (List Core)} (h : ∀ w ∈ ws, (ofItems w).branches = [ofItems w])
    (hne : ws ≠ []) : (ofItems (ofWays ws)).branches = ws.map ofItems := by
  match ws with
  | [] => exact absurd rfl hne
  | [w] => exact h w List.mem_cons_self
  | w :: v :: ws => rfl

theorem branches_letters (f : Char → CharSet) {w : Text} (h : w ≠ []) :
    (ofItems (letters f w)).branches = [ofItems (letters f w)] := by
  match w with
  | [] => exact absurd rfl h
  | [c] => rfl
  | c :: d :: w => rfl

theorem waysAgree_words {ws : List Text} (hne : ws ≠ []) (hwords : ∀ w ∈ ws, w ≠ [])
    (h : ∀ w ∈ ws, ∀ c ∈ w, (f (g c)).Agree (f c)) :
    WaysAgree ((ws.map (List.map g)).eraseDups.map (letters f)) (ws.map (letters f)) := by
  have hbranches := branchesAgree_words hne h
  obtain ⟨hsome, hlowered⟩ := eraseDups_words_ne_nil g hne hwords
  have hways : ∀ vs : List Text, (∀ w ∈ vs, w ≠ []) → vs ≠ [] →
      (ofItems (ofWays (vs.map (letters f)))).branches = vs.map fun w => ofItems (letters f w) := by
    intro vs hvs hvsne
    rw [branches_ofWays, List.map_map]
    · rfl
    · intro cs hcs
      obtain ⟨w, hw, rfl⟩ := List.mem_map.mp hcs
      exact branches_letters f (hvs w hw)
    · simpa using hvsne
  have hnil : ∀ vs : List Text, (∀ w ∈ vs, w ≠ []) → vs ≠ [] →
      ofWays (vs.map (letters f)) ≠ [] := by
    intro vs hvs hvsne
    match vs with
    | [] => exact absurd rfl hvsne
    | [w] => simpa [ofWays, letters] using hvs w List.mem_cons_self
    | w :: v :: vs => exact List.cons_ne_nil _ _
  refine ⟨⟨?_, ?_⟩, ?_⟩
  · exact iff_of_false (hnil _ hlowered hsome) (hnil ws hwords hne)
  · rw [Agree, hways _ hlowered hsome, hways ws hwords hne]
    exact hbranches
  · rw [List.map_map, List.map_map]
    exact hbranches

end Core

end PatternBuilder.Dialect
