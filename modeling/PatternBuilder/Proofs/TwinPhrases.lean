import PatternBuilder.Proofs.AgreeingTrees
import PatternBuilder.Proofs.CaseSets
import PatternBuilder.Proofs.DialectText
import PatternBuilder.Proofs.WritingAtoms

/-!
# Twin phrases

Phrases of the same shape, written in lowercase and as it comes. Words that differ in case alone are
one word in lowercase, so that alternatives may be fewer there. Where case is ignored twins are
refused alike or match alike in ASCII text.
-/

namespace PatternBuilder.Dialect

namespace Phrase

def ofChars : Text → Phrase
  | [] => .empty
  | [c] => .sign (.ofChar c)
  | c :: d :: s => .seq (.sign (.ofChar c)) (ofChars (d :: s))

def ofAlternatives : List Phrase → Phrase
  | [] => .empty
  | [p] => p
  | p :: q :: ps => .alt p (ofAlternatives (q :: ps))

def ofWords (ws : List Text) : Phrase := ofAlternatives (ws.map ofChars)

variable {m : Modes}

theorem ofChars_shape {s : Text} (h : s ≠ []) :
    ofChars s ≠ .empty ∧ (ofChars s).hasBar = false := by
  match s with
  | [] => exact absurd rfl h
  | [c] => exact ⟨Phrase.noConfusion, rfl⟩
  | c :: d :: s => exact ⟨Phrase.noConfusion, rfl⟩

theorem proper_ofChars (m : Modes) (s : Text) : (ofChars s).Proper m := by
  match s with
  | [] => trivial
  | [c] => exact Sign.proper_ofChar c
  | c :: d :: s =>
    obtain ⟨hne, hbar⟩ := ofChars_shape (List.cons_ne_nil d s)
    exact ⟨⟨Sign.proper_ofChar c, Phrase.noConfusion, rfl⟩, proper_ofChars m (d :: s), hne, hbar⟩

theorem text_ofChars (s : Text) : (ofChars s).text = Escape.general s := by
  match s with
  | [] => rfl
  | [c] => exact Sign.text_ofChar c
  | c :: d :: s =>
    have hcons : Escape.general (c :: d :: s) = Escape.general [c] ++ Escape.general (d :: s) :=
      Escape.general_append [c] (d :: s)
    rw [ofChars, text, text_ofChars (d :: s), hcons, ← Sign.text_ofChar]
    rfl

theorem node_ofChars (m : Modes) (s : Text) :
    (ofChars s).node m = Node.ofItems (s.map fun c => (Sign.ofChar c).node m) := by
  match s with
  | [] => rfl
  | [c] => rfl
  | c :: d :: s =>
    rw [ofChars, node, node_ofChars m (d :: s)]
    rfl

theorem proper_ofAlternatives {ps : List Phrase} (h : ∀ p ∈ ps, p.Proper m) :
    (ofAlternatives ps).Proper m := by
  match ps with
  | [] => trivial
  | [p] => exact h p List.mem_cons_self
  | p :: q :: ps =>
    obtain ⟨hp, hps⟩ := List.forall_mem_cons.mp h
    exact ⟨hp, proper_ofAlternatives hps⟩

theorem text_ofAlternatives (ps : List Phrase) :
    (ofAlternatives ps).text = ['|'].intercalate (ps.map text) := by
  match ps with
  | [] => rfl
  | [p] => simp [ofAlternatives, List.intercalate]
  | p :: q :: ps =>
    rw [ofAlternatives, text, text_ofAlternatives (q :: ps), List.map_cons, List.map_cons,
      List.map_cons, intercalate_cons]

theorem node_ofAlternatives (m : Modes) (ps : List Phrase) :
    (ofAlternatives ps).node m = Node.ofAlternatives (ps.map (node m)) := by
  match ps with
  | [] => rfl
  | [p] => rfl
  | p :: q :: ps =>
    rw [ofAlternatives, node, node_ofAlternatives m (q :: ps)]
    rfl

end Phrase

namespace Node

/-- Nothing in the tree is in parentheses or repeated. -/
def isFlat : Node → Bool
  | .paren _ _ => false
  | .times _ _ _ _ => false
  | .seq a b => a.isFlat && b.isFlat
  | .alt a b => a.isFlat && b.isFlat
  | _ => true

theorem of_isFlat {n : Node} (h : n.isFlat = true) :
    n.captureCount = 0 ∧ n.depth = 0 ∧ (∀ base, n.names base = []) ∧ n.repeatsSoundly = true := by
  have hboth : ∀ {a b : Node}, (a.isFlat && b.isFlat) = true → a.isFlat = true ∧ b.isFlat = true :=
    Bool.and_eq_true_iff.mp
  induction n with
  | paren p body => cases h
  | times body min max greedy => cases h
  | seq a b iha ihb =>
    obtain ⟨ha, hda, hna, hsa⟩ := iha (hboth h).1
    obtain ⟨hb, hdb, hnb, hsb⟩ := ihb (hboth h).2
    simp [captureCount, depth, names, repeatsSoundly, ha, hda, hna, hsa, hb, hdb, hnb, hsb]
  | alt a b iha ihb =>
    obtain ⟨ha, hda, hna, hsa⟩ := iha (hboth h).1
    obtain ⟨hb, hdb, hnb, hsb⟩ := ihb (hboth h).2
    simp [captureCount, depth, names, repeatsSoundly, ha, hda, hna, hsa, hb, hdb, hnb, hsb]
  | _ => exact ⟨rfl, rfl, fun _ => rfl, rfl⟩

theorem isFlat_joined {op : Node → Node → Node} {f : List Node → Node} (h : Joins op f)
    (hop : ∀ a b, (op a b).isFlat = (a.isFlat && b.isFlat)) {ns : List Node}
    (hns : ∀ n ∈ ns, n.isFlat = true) : (f ns).isFlat = true :=
  h.of_forall (P := (isFlat · = true)) rfl
    (fun {a b} ha hb => (hop a b).trans (Bool.and_eq_true_iff.mpr ⟨ha, hb⟩)) hns

theorem lay_ofItems {ns : List Node} (h : ∀ n ∈ ns, n.lay = [[n]]) : (ofItems ns).lay = [ns] := by
  match ns with
  | [] => rfl
  | [n] => exact h n List.mem_cons_self
  | n :: k :: ns =>
    obtain ⟨hn, hns⟩ := List.forall_mem_cons.mp h
    have hcons : ofItems (n :: k :: ns) = .seq n (ofItems (k :: ns)) := rfl
    rw [hcons, lay, hn, lay_ofItems hns]
    rfl

theorem lay_ofAlternatives {ns : List Node} (hne : ns ≠ []) :
    (ofAlternatives ns).lay = ns.flatMap lay :=
  joins_ofAlternatives.flatMap (fun _ _ => rfl) (absurd · hne)

def ofWords (f : Char → CharSet) (ws : List Text) : Node :=
  ofAlternatives (ws.map fun w => ofItems (w.map fun c => .single (f c)))

variable {f : Char → CharSet} {ws : List Text}

theorem isFlat_ofWords (f : Char → CharSet) (ws : List Text) : (ofWords f ws).isFlat = true := by
  refine isFlat_joined joins_ofAlternatives (fun _ _ => rfl) fun n hn => ?_
  obtain ⟨w, -, rfl⟩ := List.mem_map.mp hn
  refine isFlat_joined joins_ofItems (fun _ _ => rfl) fun k hk => ?_
  obtain ⟨c, -, rfl⟩ := List.mem_map.mp hk
  rfl

theorem shows_ofWords (hne : ws ≠ []) (hwords : ∀ w ∈ ws, w ≠ []) :
    (ofWords f ws).vanishes = false ∧ (ofWords f ws).isRepeatable = true := by
  have hword : ∀ w : Text, w ≠ [] →
      (ofItems (w.map fun c => .single (f c))).vanishes = false ∧
        (ofItems (w.map fun c => .single (f c))).isRepeatable = true := by
    intro w hw
    obtain ⟨c, w, rfl⟩ := List.exists_cons_of_ne_nil hw
    cases w with
    | nil => exact ⟨rfl, rfl⟩
    | cons d w =>
      have hcons : ofItems ((c :: d :: w).map fun c => .single (f c)) =
          .seq (.single (f c)) (ofItems ((d :: w).map fun c => .single (f c))) := rfl
      rw [hcons]
      exact ⟨rfl, by simp [isRepeatable, vanishes]⟩
  obtain ⟨w, ws, rfl⟩ := List.exists_cons_of_ne_nil hne
  cases ws with
  | nil => exact hword w (hwords w List.mem_cons_self)
  | cons v ws => exact ⟨rfl, rfl⟩

theorem lay_ofWords (f : Char → CharSet) (hne : ws ≠ []) :
    (ofWords f ws).lay = ws.map fun w => w.map fun c => .single (f c) := by
  have hword : ∀ w : Text, (ofItems (w.map fun c => .single (f c))).lay =
      [w.map fun c => .single (f c)] := fun w => by
    refine lay_ofItems fun n hn => ?_
    obtain ⟨c, -, rfl⟩ := List.mem_map.mp hn
    rfl
  rw [ofWords, lay_ofAlternatives (by simpa using hne), List.flatMap_map]
  simp only [hword]
  exact List.flatMap_pure_eq_map _ _

theorem waysAll_words (f : Char → CharSet) (base : Nat) (ws : List Text) :
    waysAll base (ws.map fun w => w.map fun c => .single (f c)) =
      ws.map (Core.letters f) := by
  have hword : ∀ (w : Text) (base : Nat),
      membersAll base (w.map fun c => .single (f c)) = Core.letters f w ∧
        countAll (w.map fun c => .single (f c)) = 0 := by
    intro w
    induction w with
    | nil => exact fun _ => ⟨rfl, rfl⟩
    | cons c w ih =>
      intro base
      refine ⟨?_, ?_⟩
      · rw [List.map_cons, membersAll, (ih _).1]
        rfl
      · rw [List.map_cons, countAll_cons, (ih 0).2]
        rfl
  induction ws generalizing base with
  | nil => rfl
  | cons w ws ih => rw [List.map_cons, waysAll, (hword w base).1, ih, List.map_cons]

theorem agree_words {g : Char → Char} (hne : ws ≠ []) (hwords : ∀ w ∈ ws, w ≠ [])
    (h : ∀ w ∈ ws, ∀ c ∈ w, (f (g c)).Agree (f c)) :
    (ofWords f (ws.map (List.map g)).eraseDups).Agree (ofWords f ws) := by
  obtain ⟨hsome, hlowered⟩ := eraseDups_words_ne_nil g hne hwords
  obtain ⟨hvanishes, hrepeatable⟩ := shows_ofWords (f := f) hne hwords
  obtain ⟨hvanishes', hrepeatable'⟩ := shows_ofWords (f := f) hsome hlowered
  obtain ⟨hcount, hdepth, hnames, hsound⟩ := of_isFlat (isFlat_ofWords f ws)
  obtain ⟨hcount', hdepth', hnames', hsound'⟩ :=
    of_isFlat (isFlat_ofWords f (ws.map (List.map g)).eraseDups)
  refine ⟨hvanishes'.trans hvanishes.symm, hrepeatable'.trans hrepeatable.symm,
    hsound'.trans hsound.symm, hcount'.trans hcount.symm, hdepth'.trans hdepth.symm,
    fun base => (hnames' base).trans (hnames base).symm, fun base => ?_⟩
  rw [lay_ofWords f hsome, lay_ofWords f hne, waysAll_words, waysAll_words]
  exact Core.waysAgree_words hne hwords h

end Node

namespace Phrase

structure IsAsciiWord (w : Text) : Prop where
  ascii : ∀ c ∈ w, Unicode.isAscii c = true
  long : 2 ≤ w.length

def loweredWords (ws : List Text) : List Text := (ws.map (List.map Unicode.toLower)).eraseDups

/-- Phrases that are alike but for signs whose trees agree, and for words, which are in lowercase on
the left and as they come on the right. -/
inductive Twin (m : Modes) : Phrase → Phrase → Prop where
  | empty : Twin m .empty .empty
  | sign {s t : Sign} (h : (s.node m).Agree (t.node m)) : Twin m (.sign s) (.sign t)
  | paren {a b : Phrase} (p : Paren) (h : Twin m a b) : Twin m (.paren p a) (.paren p b)
  | times {a b : Phrase} (q : Quantifier) (h : Twin m a b) : Twin m (.times a q) (.times b q)
  | seq {a b c d : Phrase} (h : Twin m a c) (h' : Twin m b d) : Twin m (.seq a b) (.seq c d)
  | alt {a b c d : Phrase} (h : Twin m a c) (h' : Twin m b d) : Twin m (.alt a b) (.alt c d)
  | words {ws : List Text} (hne : ws ≠ []) (h : ∀ w ∈ ws, IsAsciiWord w) :
    Twin m (ofWords (loweredWords ws)) (ofWords ws)

variable {m : Modes} {p q : Phrase}

theorem lay_of_not_hasBar (h : p.Proper m) (hbar : p.hasBar = false) :
    ∃ u, (p.node m).lay = [u] := by
  induction p with
  | empty => exact ⟨[], rfl⟩
  | sign s =>
    cases hs : s.lexeme? m with
    | none =>
      have hnode : s.node m = .empty := by simp [Sign.node, hs]
      exact ⟨[], by rw [node, hnode]; rfl⟩
    | some x => exact ⟨_, Sign.lay_node hs⟩
  | paren p body => exact ⟨_, rfl⟩
  | times body q =>
    rw [node, Quantifier.node_of_text_ne_nil h.2.2.2.2]
    exact ⟨_, rfl⟩
  | seq a b iha ihb =>
    obtain ⟨u, hu⟩ := iha h.1.1 h.1.2.2
    obtain ⟨v, hv⟩ := ihb h.2.1 h.2.2.2
    exact ⟨u ++ v, by rw [node, Node.lay, hu, hv]; rfl⟩
  | alt a b => cases hbar

theorem node_ofWords (hextended : m.extended = false) (ws : List Text) : (ofWords ws).node m =
    Node.ofWords (fun c => closed m.ignoreCase (.single c)) ws := by
  rw [ofWords, node_ofAlternatives, List.map_map, Node.ofWords]
  refine congrArg Node.ofAlternatives (List.map_congr_left fun w _ => ?_)
  simp only [Function.comp_def, node_ofChars, Sign.node_ofChar, hextended, Bool.false_and,
    Bool.false_eq_true, if_false]

namespace Twin

theorem agree (h : Twin m p q) (hcase : m.ignoreCase = true) (hextended : m.extended = false)
    (hp : p.Proper m) (hq : q.Proper m) : (p.node m).Agree (q.node m) := by
  induction h with
  | empty => exact Node.agree_empty
  | sign h => exact h
  | paren p h ih => exact (ih hp.2 hq.2).paren p
  | times q h ih =>
    have hne : q.text ≠ [] := hp.2.2.2.2
    rw [node, node, Quantifier.node_of_text_ne_nil hne, Quantifier.node_of_text_ne_nil hne]
    exact (ih hp.1 hq.1).times _ _ _
  | seq h h' ih ih' =>
    obtain ⟨us, hus⟩ := lay_of_not_hasBar hp.1.1 hp.1.2.2
    obtain ⟨us', hus'⟩ := lay_of_not_hasBar hp.2.1 hp.2.2.2
    obtain ⟨vs, hvs⟩ := lay_of_not_hasBar hq.1.1 hq.1.2.2
    obtain ⟨vs', hvs'⟩ := lay_of_not_hasBar hq.2.1 hq.2.2.2
    exact (ih hp.1.1 hq.1.1).seq (ih' hp.2.1 hq.2.1) hus hus' hvs hvs'
  | alt h h' ih ih' => exact (ih hp.1 hq.1).alt (ih' hp.2 hq.2)
  | @words ws hne h =>
    rw [node_ofWords hextended, node_ofWords hextended]
    refine Node.agree_words hne (fun w hw hnil => ?_) fun w hw c hc => ?_
    · have hlong := (h w hw).long
      rw [hnil] at hlong
      exact absurd hlong (by decide)
    · have hascii := (h w hw).ascii c hc
      rw [hcase]
      exact CharSet.agree_foldCase_single (Atom.isAscii_toLower hascii) hascii
        (Unicode.toLower_toLower c)

theorem ofWords_shape {ws : List Text} (hne : ws ≠ []) (h : ∀ w ∈ ws, 2 ≤ w.length) :
    ofWords ws ≠ .empty ∧ ¬(ofWords ws).IsSingle := by
  match ws with
  | [] => exact absurd rfl hne
  | [w] =>
    match w, h w List.mem_cons_self with
    | c :: d :: w, _ => exact ⟨Phrase.noConfusion, id⟩
  | w :: v :: ws => exact ⟨Phrase.noConfusion, id⟩

theorem loweredWords_shape {ws : List Text} (hne : ws ≠ []) (h : ∀ w ∈ ws, IsAsciiWord w) :
    loweredWords ws ≠ [] ∧ ∀ w ∈ loweredWords ws, 2 ≤ w.length := by
  refine ⟨eraseDups_ne_nil (mt List.map_eq_nil_iff.mp hne), forall_mem_eraseDups_map fun w hw => ?_⟩
  rw [List.length_map]
  exact (h w hw).long

/-- Twins are empty together, and a quantifier repeats all of both or of neither. -/
theorem shape (h : Twin m p q) : (p = .empty ↔ q = .empty) ∧ (p.IsSingle ↔ q.IsSingle) := by
  cases h with
  | @words ws hne h =>
    obtain ⟨hne', h'⟩ := loweredWords_shape hne h
    obtain ⟨hempty, hsingle⟩ := ofWords_shape hne fun w hw => (h w hw).long
    obtain ⟨hempty', hsingle'⟩ := ofWords_shape hne' h'
    exact ⟨iff_of_false hempty' hempty, iff_of_false hsingle' hsingle⟩
  | empty => exact ⟨Iff.rfl, Iff.rfl⟩
  | sign h => exact ⟨iff_of_false Phrase.noConfusion Phrase.noConfusion, Iff.rfl⟩
  | paren p h => exact ⟨iff_of_false Phrase.noConfusion Phrase.noConfusion, Iff.rfl⟩
  | times q h => exact ⟨iff_of_false Phrase.noConfusion Phrase.noConfusion, Iff.rfl⟩
  | seq h h' => exact ⟨iff_of_false Phrase.noConfusion Phrase.noConfusion, Iff.rfl⟩
  | alt h h' => exact ⟨iff_of_false Phrase.noConfusion Phrase.noConfusion, Iff.rfl⟩

theorem plain_cases (h : Twin m p q) :
    (∃ a b, p = .paren .plain a ∧ q = .paren .plain b ∧ Twin m a b) ∨
      (∀ a, p ≠ .paren .plain a) ∧ ∀ b, q ≠ .paren .plain b := by
  cases h with
  | @words ws hne h =>
    obtain ⟨hne', h'⟩ := loweredWords_shape hne h
    have hno : ∀ vs : List Text, ¬(ofWords vs).IsSingle → ∀ a, ofWords vs ≠ .paren .plain a := by
      intro vs hvs a ha
      exact hvs (ha ▸ trivial)
    obtain ⟨-, hsingle⟩ := ofWords_shape hne fun w hw => (h w hw).long
    exact .inr ⟨hno _ (ofWords_shape hne' h').2, hno ws hsingle⟩
  | @paren a b p h =>
    by_cases hp : p = .plain
    · subst hp
      exact .inl ⟨a, b, rfl, rfl, h⟩
    · exact .inr ⟨fun c hc => hp (Phrase.paren.inj hc).1, fun c hc => hp (Phrase.paren.inj hc).1⟩
  | empty => exact .inr ⟨fun _ => Phrase.noConfusion, fun _ => Phrase.noConfusion⟩
  | sign h => exact .inr ⟨fun _ => Phrase.noConfusion, fun _ => Phrase.noConfusion⟩
  | times q h => exact .inr ⟨fun _ => Phrase.noConfusion, fun _ => Phrase.noConfusion⟩
  | seq h h' => exact .inr ⟨fun _ => Phrase.noConfusion, fun _ => Phrase.noConfusion⟩
  | alt h h' => exact .inr ⟨fun _ => Phrase.noConfusion, fun _ => Phrase.noConfusion⟩

end Twin
end Phrase
end PatternBuilder.Dialect
