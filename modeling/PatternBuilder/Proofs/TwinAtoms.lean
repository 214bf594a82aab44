import PatternBuilder.Proofs.AsciiAtoms
import PatternBuilder.Proofs.TwinTexts

/-!
# Twin atoms

ASCII atoms, in lowercase and as they come, are written as twins: what they have in a class is the
same up to case, and what does not fit one are words.
-/

namespace PatternBuilder

open Dialect Options

namespace Atom

variable {as bs : List Atom} {a b : Atom}

structure AreLegible (as : List Atom) : Prop where
  sound : AreSound as
  ascii : ∀ a ∈ as, a.IsAscii
  nil : .literal [] ∉ as

theorem areLegible_nil : AreLegible [] :=
  ⟨⟨fun _ ha => absurd ha List.not_mem_nil, by simp [AreApart]⟩,
    fun _ ha => absurd ha List.not_mem_nil, List.not_mem_nil⟩

theorem areLegible_gather {catalog : Catalog} {v : Value} (hfair : v.IsFair catalog)
    (hascii : v.IsAscii) : AreLegible (catalog.gather v).atoms :=
  ⟨Catalog.areSound_gather hfair, catalog.isAscii_gather hascii,
    Catalog.literal_nil_not_mem_gather hfair⟩

def ofWord (w : Text) : Atom := .literal (Escape.general w)

theorem ofWord_injective : Function.Injective ofWord := by
  intro v w h
  have htext := congrArg Escape.unescape (Atom.literal.inj h)
  rwa [Escape.unescape_general, Escape.unescape_general] at htext

namespace AreLegible

theorem fitsClass_iff (h : AreLegible as) (ha : a ∈ as) :
    a.fitsClass = true ↔ ∀ t, a ≠ .literal t := by
  constructor
  · rintro hfits t rfl
    have hnil : t = [] := isMember_of_fitsClass (h.sound.sound _ ha) hfits
    exact h.nil (hnil ▸ ha)
  · intro hno
    rw [← Bool.not_eq_false]
    intro hfits
    obtain ⟨s, rfl, -⟩ := eq_literal_of_not_fitsClass (h.sound.sound a ha) hfits
    exact hno _ rfl

theorem fitsClass_of_covers (h : AreLegible as) (ha : a ∈ as) {c : Char} (hc : a.Covers c) :
    a.fitsClass = true := by
  apply (h.fitsClass_iff ha).mpr
  rintro t rfl
  exact hc

theorem token_mem_class (h : AreLegible as) {t : Text} :
    .token t ∈ as.filter fitsClass ↔ .token t ∈ as := by
  refine ⟨List.mem_of_mem_filter, fun ht => List.mem_filter.mpr ⟨ht, ?_⟩⟩
  exact (h.fitsClass_iff ht).mpr fun _ => Atom.noConfusion

theorem coverCase_class (h : AreLegible as) {c : Char} :
    CoverCase (as.filter fitsClass) c ↔ CoverCase as c := by
  constructor
  · rintro ⟨a, ha, d, hd, hcase⟩
    exact ⟨a, List.mem_of_mem_filter ha, d, hd, hcase⟩
  · rintro ⟨a, ha, d, hd, hcase⟩
    exact ⟨a, List.mem_filter.mpr ⟨ha, h.fitsClass_of_covers ha hd⟩, d, hd, hcase⟩

theorem exists_words (h : AreLegible as) : ∃ ws : List Text,
    (as.filter fun a => !a.fitsClass) = ws.map ofWord ∧ ∀ w ∈ ws, Phrase.IsAsciiWord w := by
  have hword : ∀ a ∈ as.filter fun a => !a.fitsClass,
      ∃ w, Phrase.IsAsciiWord w ∧ ofWord w = a := by
    intro a ha
    obtain ⟨ha, hfits⟩ := List.mem_filter.mp ha
    obtain ⟨s, rfl, hs⟩ :=
      eq_literal_of_not_fitsClass (h.sound.sound a ha) (by simpa using hfits)
    have hmem : ∀ c ∈ s, c ∈ Escape.general s := by
      intro c hc
      refine List.mem_flatMap.mpr ⟨c, hc, ?_⟩
      unfold Escape.escapeChar
      split <;> simp
    have hascii : ∀ c ∈ Escape.general s, Unicode.isAscii c = true := h.ascii _ ha
    have hlength : s.plainCount ≤ s.length := List.length_filter_le _ s
    exact ⟨s, ⟨fun c hc => hascii c (hmem c hc), Nat.le_trans hs hlength⟩, rfl⟩
  generalize (as.filter fun a => !a.fitsClass) = ts at hword
  induction ts with
  | nil => exact ⟨[], rfl, fun _ hw => absurd hw List.not_mem_nil⟩
  | cons t ts ih =>
    obtain ⟨⟨w, hw, rfl⟩, hts⟩ := List.forall_mem_cons.mp hword
    obtain ⟨ws, rfl, hws⟩ := ih hts
    exact ⟨w :: ws, rfl, List.forall_mem_cons.mpr ⟨hw, hws⟩⟩

theorem foldCase (h : AreLegible as) : AreLegible (foldCase as) := by
  refine ⟨h.sound.foldCase, isAscii_foldCase h.ascii, fun hmem => ?_⟩
  rcases mem_combine.mp hmem with ⟨hloose, -⟩ | ⟨r, -, he⟩
  · obtain ⟨a, ha, hfold⟩ := List.mem_filterMap.mp hloose
    cases a with
    | literal t =>
      have hascii : ∀ c ∈ t, Unicode.isAscii c = true := h.ascii _ ha
      have hlower : t.map Unicode.toLower = [] := by
        rw [← Unicode.lowerFrom_ascii hascii []]
        exact Atom.literal.inj (Option.some.inj hfold)
      obtain rfl := List.map_eq_nil_iff.mp hlower
      exact h.nil ha
    | range r => cases hfold
    | char c => cases hfold
    | token t => cases hfold
  · cases he

end AreLegible

structure SameClass (as bs : List Atom) : Prop where
  tokens : ∀ t, .token t ∈ as ↔ .token t ∈ bs
  ranges : (∃ r, .range r ∈ as) ↔ ∃ r, .range r ∈ bs
  covers : ∀ c, CoverCase as c ↔ CoverCase bs c

/-- What each member of a class, the second atom, has in a class that is the same up to case. -/
inductive Counterpart : Atom → Atom → Prop where
  | token (t : Text) : Counterpart (.token t) (.token t)
  | range (r s : CharRange) : Counterpart (.range r) (.range s)
  | char {a : Atom} {c d : Char} (hcovers : a.Covers d)
      (hcase : Unicode.toLower d = Unicode.toLower c) : Counterpart a (.char c)

namespace SameClass

theorem symm (h : SameClass as bs) : SameClass bs as :=
  ⟨fun t => (h.tokens t).symm, h.ranges.symm, fun c => (h.covers c).symm⟩

theorem counterpart (h : SameClass as bs) (has : AreLegible as) (hbs : AreLegible bs)
    (hb : b ∈ bs) (hfits : b.fitsClass = true) :
    ∃ a ∈ as, a.fitsClass = true ∧ Counterpart a b := by
  cases b with
  | token t =>
    have ha := (h.tokens t).mpr hb
    exact ⟨_, ha, (has.fitsClass_iff ha).mpr fun _ => Atom.noConfusion, .token t⟩
  | range s =>
    obtain ⟨r, hr⟩ := h.ranges.mpr ⟨s, hb⟩
    exact ⟨_, hr, rfl, .range r s⟩
  | char c =>
    obtain ⟨a, ha, d, hd, hcase⟩ := (h.covers c).mpr (coverCase_of_char hb rfl)
    exact ⟨a, ha, has.fitsClass_of_covers ha hd, .char hd hcase⟩
  | literal t => exact absurd rfl ((hbs.fitsClass_iff hb).mp hfits t)

theorem filter_eq_nil (h : SameClass as bs) (has : AreLegible as) (hbs : AreLegible bs)
    (hnil : as.filter fitsClass = []) : bs.filter fitsClass = [] := by
  rw [List.filter_eq_nil_iff] at hnil ⊢
  intro b hb hfits
  obtain ⟨a, ha, hafits, -⟩ := h.counterpart has hbs hb hfits
  exact hnil a ha hafits

/-- An atom that only itself comes from is alone in both classes or in neither. -/
theorem filter_eq_singleton (h : SameClass as bs) (has : AreLegible as) (hbs : AreLegible bs)
    (ha : a.isLoose = true) (hself : ∀ b, Counterpart a b → b = a)
    (hone : as.filter fitsClass = [a]) : bs.filter fitsClass = [a] := by
  obtain ⟨⟨hmem, hfits⟩, honly⟩ := (Atom.filter_eq_singleton has.sound.apart ha).mp hone
  have hall : ∀ b ∈ bs, b.fitsClass = true → b = a := by
    intro b hb hbfits
    obtain ⟨e, he, hefits, hkind⟩ := h.counterpart has hbs hb hbfits
    obtain rfl := honly e he hefits
    exact hself b hkind
  obtain ⟨b, hb, hbfits, -⟩ := h.symm.counterpart hbs has hmem hfits
  obtain rfl := hall b hb hbfits
  exact (Atom.filter_eq_singleton hbs.sound.apart ha).mpr ⟨⟨hb, hbfits⟩, hall⟩

theorem lone_token (h : SameClass as bs) (has : AreLegible as) (hbs : AreLegible bs) {t : Text}
    (hone : as.filter fitsClass = [.token t]) : bs.filter fitsClass = [.token t] := by
  refine h.filter_eq_singleton has hbs rfl (fun b hkind => ?_) hone
  cases hkind with
  | token => rfl
  | char hcovers => exact hcovers.elim

theorem lone_dot (h : SameClass as bs) (has : AreLegible as) (hbs : AreLegible bs)
    (hone : as.filter fitsClass = [.char '.']) : bs.filter fitsClass = [.char '.'] := by
  refine h.filter_eq_singleton has hbs rfl (fun b hkind => ?_) hone
  cases hkind with
  | @char _ c d hcovers hcase =>
    obtain rfl : d = '.' := hcovers
    have hdot : Unicode.toLower '.' = '.' := Unicode.toLower_special (by decide)
    have hc : c ∈ Escape.special := by
      by_contra hc
      apply Unicode.toLower_not_special hc
      rw [← hcase, hdot]
      decide
    rw [← Unicode.toLower_special hc, ← hcase, hdot]

end SameClass

theorem token_mem_foldCase {t : Text} : .token t ∈ foldCase as ↔ .token t ∈ as := by
  constructor
  · intro hmem
    rcases mem_combine.mp hmem with ⟨hloose, -⟩ | ⟨r, -, he⟩
    · obtain ⟨a, ha, hfold⟩ := List.mem_filterMap.mp hloose
      cases a with
      | token u =>
        cases hfold
        exact ha
      | range r => cases hfold
      | char c => cases hfold
      | literal u => cases hfold
    · cases he
  · intro hmem
    exact mem_combine.mpr (.inl ⟨List.mem_filterMap.mpr ⟨_, hmem, rfl⟩, rfl⟩)

/-- Ranges are joined and dropped only where others cover them, so that some are left. -/
theorem exists_range_foldCase (h : AreLegible as) :
    (∃ r, .range r ∈ foldCase as) ↔ ∃ r, .range r ∈ as := by
  have hlow : ∀ r : CharRange, r.isForward = true → r.contains r.lo = true := fun r hr =>
    CharRange.contains_iff.mpr ⟨Nat.le_refl _, CharRange.isForward_iff.mp hr⟩
  constructor
  · rintro ⟨r, hr⟩
    rcases mem_combine.mp hr with ⟨hloose, -⟩ | ⟨s, hs, -⟩
    · obtain ⟨a, -, hfold⟩ := List.mem_filterMap.mp hloose
      cases a <;> cases hfold
    · obtain ⟨x, hx, -⟩ := CharRange.covered_canonical.mp
        ⟨s, hs, hlow s (CharRange.isForward_of_mem_canonical hs)⟩
      obtain ⟨a, ha, hfold⟩ := List.mem_filterMap.mp hx
      cases a with
      | range y => exact ⟨y, ha⟩
      | token u => cases hfold
      | char c => cases hfold
      | literal u => cases hfold
  · rintro ⟨r, hr⟩
    have hfolded : ∃ c, r.foldCase.contains c = true := by
      have hforward : r.contains r.lo = true := hlow r (h.sound.sound _ hr)
      unfold CharRange.foldCase
      split
      next hupper =>
        obtain ⟨hlo, hhi⟩ := Bool.and_eq_true_iff.mp hupper
        exact ⟨_, (contains_lowered hlo hhi (h.ascii _ hr)).1 r.lo hforward⟩
      next => exact ⟨r.lo, hforward⟩
    obtain ⟨c, hc⟩ := hfolded
    have hgiven : r.foldCase ∈ as.filterMap foldedRange? :=
      List.mem_filterMap.mpr ⟨_, hr, rfl⟩
    obtain ⟨s, hs, -⟩ := CharRange.covered_canonical.mpr ⟨_, hgiven, hc⟩
    exact ⟨s, mem_combine.mpr (.inr ⟨s, hs, rfl⟩)⟩

/-- Folding ASCII atoms leaves their class the same up to case. -/
theorem sameClass_foldCase (h : AreLegible as) : SameClass (foldCase as) as where
  tokens _ := token_mem_foldCase
  ranges := exists_range_foldCase h
  covers _ := coverCase_foldCase_ascii h.ascii

theorem fitsClass_folded (ha : a.IsSound) (hb : foldedLoose? a = some b) :
    b.fitsClass = a.fitsClass := by
  cases a with
  | range r => cases hb
  | char c =>
    cases hb
    rfl
  | token t =>
    cases hb
    rfl
  | literal t =>
    cases hb
    obtain ⟨s, rfl, hs⟩ := ha
    obtain ⟨t, htext, hcount, hnil⟩ := Escape.lowerFrom_general [] s
    rw [Unicode.lowerText, htext]
    rcases hs with rfl | hs
    · rw [hnil rfl]
    · rw [fitsClass_general hs, fitsClass_general (Nat.le_trans hs hcount)]

theorem foldedLoose_ofWord {w : Text} (hw : ∀ c ∈ w, Unicode.isAscii c = true) :
    foldedLoose? (ofWord w) = some (ofWord (w.map Unicode.toLower)) := by
  have hascii : ∀ c ∈ Escape.general w, Unicode.isAscii c = true := Escape.isAscii_escapeAll hw
  rw [ofWord, foldedLoose?, Unicode.lowerText, Unicode.lowerFrom_ascii hascii,
    Escape.map_toLower_general]
  rfl

theorem filter_foldCase {ws : List Text} (h : AreLegible as)
    (hws : (as.filter fun a => !a.fitsClass) = ws.map ofWord)
    (hascii : ∀ w ∈ ws, ∀ c ∈ w, Unicode.isAscii c = true) :
    ((foldCase as).filter fun a => !a.fitsClass) = (Phrase.loweredWords ws).map ofWord := by
  have hranges : ∀ rs : List CharRange,
      ((rs.map Atom.range).filter fun a => !a.fitsClass) = [] := by
    intro rs
    rw [List.filter_eq_nil_iff]
    intro a ha
    obtain ⟨r, -, rfl⟩ := List.mem_map.mp ha
    simp [fitsClass]
  have hloose : ((as.filterMap foldedLoose?).filter fun a => !a.fitsClass) =
      (as.filter fun a => !a.fitsClass).filterMap foldedLoose? := by
    rw [List.filter_filterMap, List.filterMap_filter]
    refine List.filterMap_congr fun a ha => ?_
    cases hb : foldedLoose? a with
    | none => simp
    | some b => simp [Option.filter_some, fitsClass_folded (h.sound.sound a ha) hb]
  have hkept : ∀ (loose : List Atom) (rs : List CharRange),
      ((loose.filter fun a => !a.isCharIn rs).filter fun a => !a.fitsClass) =
        loose.filter fun a => !a.fitsClass := by
    intro loose rs
    rw [List.filter_filter]
    refine List.filter_congr fun a _ => ?_
    cases a <;> simp [fitsClass, isCharIn]
  have hwords : (ws.map ofWord).filterMap foldedLoose? =
      (ws.map (List.map Unicode.toLower)).map ofWord := by
    rw [List.filterMap_map, List.map_map, ← List.filterMap_eq_map]
    exact List.filterMap_congr fun w hw => foldedLoose_ofWord (hascii w hw)
  rw [foldCase, combine, List.filter_append, hranges, List.append_nil, filter_eraseDups, hkept,
    hloose, hws, hwords, eraseDups_map ofWord_injective]
  rfl

end Atom

namespace Dialect.Sign

def ofClass (bareDot : Bool) : List Atom → Sign
  | [.char c] => if c = '.' ∧ bareDot then .bare '.' else .ofChar c
  | [.token ['\\', c]] => .escape c
  | as => .bracket as

variable {m : Modes} {as : List Atom} {bareDot : Bool}

theorem agree_self (m : Modes) (s : Sign) : (s.node m).Agree (s.node m) := by
  unfold node
  split
  · exact Node.agree_single fun _ _ => rfl
  · exact Node.agree_anchor _
  · exact Node.agree_empty

theorem ofClass_bracket (hchar : ∀ c, as ≠ [.char c]) (htoken : ∀ t, as ≠ [.token t]) :
    ofClass bareDot as = .bracket as := by
  rw [ofClass]
  · exact hchar
  · exact fun c => htoken _

theorem text_ofClass (h : ∀ a ∈ as, a.IsMember) (hapart : Atom.AreApart as) (hne : as ≠ [])
    (hnil : .literal [] ∉ as) : (ofClass bareDot as).Proper ∧
      Atom.classText? bareDot as = some (ofClass bareDot as).text := by
  match as with
  | [] => exact absurd rfl hne
  | [.char c] =>
    rw [ofClass, Atom.classText?, Atom.charText]
    by_cases hdot : c = '.' ∧ bareDot = true
    · rw [if_pos hdot, if_pos hdot]
      exact ⟨.inr (by decide), rfl⟩
    · rw [if_neg hdot, if_neg hdot, text_ofChar]
      exact ⟨proper_ofChar c, rfl⟩
  | [.literal t] =>
    obtain rfl : t = [] := h (.literal t) List.mem_cons_self
    exact absurd List.mem_cons_self hnil
  | [.token t] =>
    obtain ⟨c, rfl, hc⟩ := h (.token t) List.mem_cons_self
    refine ⟨?_, rfl⟩
    rcases hc with hc | rfl
    · exact .inr (.inl hc)
    · exact .inr (.inr (by decide))
  | [.range r] => exact ⟨⟨h, hapart, by simp [Atom.memberText]⟩, rfl⟩
  | a :: b :: as =>
    have hbracket : ofClass bareDot (a :: b :: as) = .bracket (a :: b :: as) :=
      ofClass_bracket (by simp) (by simp)
    have htext : Atom.classText? bareDot (a :: b :: as) =
        some ('[' :: (a :: b :: as).flatMap Atom.memberText ++ [']']) := by
      rw [Atom.classText?] <;> simp
    rw [hbracket, htext]
    exact ⟨⟨h, hapart, memberText_of_two h hapart⟩, rfl⟩

/-- Unless it is a lone escape sequence or a lone dot, a class is the set of its members. -/
theorem node_ofClass (hcase : m.ignoreCase = true) (hextended : m.extended = false)
    (hdot : as ≠ [.char '.']) (htoken : ∀ t, as ≠ [.token t]) :
    (ofClass bareDot as).node m = .single (Atom.setOf as).foldCase := by
  by_cases hchar : ∃ c, as = [.char c]
  · obtain ⟨c, rfl⟩ := hchar
    have hc : ¬(c = '.' ∧ bareDot = true) := fun h => hdot (by rw [h.1])
    rw [ofClass, if_neg hc, node_ofChar, hextended, Bool.false_and, if_neg (by decide), closed,
      if_pos hcase]
    rfl
  · rw [ofClass_bracket (fun c hc => hchar ⟨c, hc⟩) htoken, node, lexeme?, closed, if_pos hcase]

theorem agree_ofClass {bs : List Atom} (hcase : m.ignoreCase = true)
    (hextended : m.extended = false) (h : Atom.SameClass as bs) (has : Atom.AreLegible as)
    (hbs : Atom.AreLegible bs) :
    ((ofClass bareDot (as.filter Atom.fitsClass)).node m).Agree
      ((ofClass bareDot (bs.filter Atom.fitsClass)).node m) := by
  by_cases htoken : ∃ t, as.filter Atom.fitsClass = [.token t]
  · obtain ⟨t, ht⟩ := htoken
    rw [ht, h.lone_token has hbs ht]
    exact agree_self m _
  by_cases hdot : as.filter Atom.fitsClass = [.char '.']
  · rw [hdot, h.lone_dot has hbs hdot]
    exact agree_self m _
  rw [node_ofClass hcase hextended hdot fun t ht => htoken ⟨t, ht⟩,
    node_ofClass hcase hextended (fun hb => hdot (h.symm.lone_dot hbs has hb))
      fun t ht => htoken ⟨t, h.symm.lone_token hbs has ht⟩]
  refine Node.agree_single (Atom.agree_setOf (fun a ha => has.ascii a (List.mem_of_mem_filter ha))
    (fun b hb => hbs.ascii b (List.mem_of_mem_filter hb)) (fun t => ?_) fun c _ => ?_)
  · rw [has.token_mem_class, hbs.token_mem_class]
    exact h.tokens t
  · rw [has.coverCase_class, hbs.coverCase_class]
    exact h.covers c

end Dialect.Sign

namespace Atom

variable {m : Modes} {as : List Atom} {bareDot : Bool}

theorem AreLegible.ofClass (h : AreLegible as) (hne : as.filter fitsClass ≠ []) :
    (Sign.ofClass bareDot (as.filter fitsClass)).Proper ∧
      classText? bareDot (as.filter fitsClass) =
        some (Sign.ofClass bareDot (as.filter fitsClass)).text := by
  refine Sign.text_ofClass (fun a ha => ?_) (h.sound.apart.filter fitsClass) hne fun hnil =>
    h.nil (List.mem_of_mem_filter hnil)
  obtain ⟨hmem, hfits⟩ := List.mem_filter.mp ha
  exact isMember_of_fitsClass (h.sound.sound a hmem) hfits

/-- The alternatives of atoms are those of their class and of their words. -/
theorem alternatives_eq (h : AreLegible as) {ws : List Text}
    (hws : (as.filter fun a => !a.fitsClass) = ws.map ofWord) : alternatives bareDot as =
      (if as.filter fitsClass = [] then []
        else [(Sign.ofClass bareDot (as.filter fitsClass)).text]) ++ ws.map Escape.general := by
  have hwords : (ws.map ofWord).map memberText = ws.map Escape.general := by
    rw [List.map_map]
    rfl
  rw [alternatives, hws, hwords]
  split
  next hnil =>
    rw [hnil]
    rfl
  next hne =>
    rw [(h.ofClass hne).2]
    rfl

theorem twins_words {ws : List Text} (hne : ws ≠ []) (h : ∀ w ∈ ws, Phrase.IsAsciiWord w) :
    Twins m (['|'].intercalate ((Phrase.loweredWords ws).map Escape.general))
      (['|'].intercalate (ws.map Escape.general)) := by
  have hphrase : ∀ vs : List Text, (Phrase.ofWords vs).Proper m ∧
      (Phrase.ofWords vs).text = ['|'].intercalate (vs.map Escape.general) := by
    intro vs
    constructor
    · apply Phrase.proper_ofAlternatives
      intro p hp
      obtain ⟨v, -, rfl⟩ := List.mem_map.mp hp
      exact Phrase.proper_ofChars m v
    · rw [Phrase.ofWords, Phrase.text_ofAlternatives, List.map_map]
      exact congrArg _ (List.map_congr_left fun v _ => Phrase.text_ofChars v)
  exact ⟨_, _, hphrase _, hphrase _, .words hne h⟩

theorem intercalate_bar (t : Text) {ts : List Text} (hne : ts ≠ []) :
    ['|'].intercalate (t :: ts) = t ++ '|' :: ['|'].intercalate ts := by
  obtain ⟨u, us, rfl⟩ := List.exists_cons_of_ne_nil hne
  exact intercalate_cons t u us

/-- The alternatives of atoms are twins. There may be fewer words in lowercase. -/
theorem twins_alternatives (hcase : m.ignoreCase = true) (hextended : m.extended = false)
    (h : AreLegible as) (bareDot : Bool) :
    Twins m (['|'].intercalate (alternatives bareDot (foldCase as)))
      (['|'].intercalate (alternatives bareDot as)) := by
  obtain ⟨ws, hws, hwords⟩ := h.exists_words
  have hfolded := filter_foldCase h hws fun w hw => (hwords w hw).ascii
  have hsame := sameClass_foldCase h
  rw [alternatives_eq h hws, alternatives_eq h.foldCase hfolded]
  by_cases hclass : as.filter fitsClass = []
  · rw [if_pos hclass, if_pos (hsame.symm.filter_eq_nil h h.foldCase hclass)]
    by_cases hnone : ws = []
    · subst hnone
      exact .nil
    · exact twins_words hnone hwords
  · have hclass' : (foldCase as).filter fitsClass ≠ [] := fun hnil =>
      hclass (hsame.filter_eq_nil h.foldCase h hnil)
    have hlowered : (Sign.ofClass bareDot ((foldCase as).filter fitsClass)).Proper :=
      (h.foldCase.ofClass hclass').1
    have hsign := Twins.sign hlowered (h.ofClass hclass).1
      (Sign.agree_ofClass hcase hextended hsame h.foldCase h)
    rw [if_neg hclass, if_neg hclass']
    by_cases hnone : ws = []
    · subst hnone
      simpa [Phrase.loweredWords, List.intercalate] using hsign
    · obtain ⟨hnone', -⟩ := Phrase.Twin.loweredWords_shape hnone hwords
      rw [List.singleton_append, List.singleton_append, intercalate_bar _ (by simpa using hnone'),
        intercalate_bar _ (by simpa using hnone)]
      exact hsign.alt (twins_words hnone hwords)

theorem intercalate_alternatives_ne_nil (h : AreLegible as) (hne : as ≠ []) :
    ['|'].intercalate (alternatives bareDot as) ≠ [] := by
  obtain ⟨ws, hws, hwords⟩ := h.exists_words
  rw [alternatives_eq h hws]
  apply intercalate_ne_nil
  right
  by_cases hclass : as.filter fitsClass = []
  · obtain ⟨a, ha⟩ := List.exists_mem_of_ne_nil as hne
    have hnot : a ∈ as.filter fun a => !a.fitsClass := by
      refine List.mem_filter.mpr ⟨ha, ?_⟩
      rw [List.filter_eq_nil_iff] at hclass
      simpa using hclass a ha
    rw [hws] at hnot
    obtain ⟨w, hw, -⟩ := List.mem_map.mp hnot
    refine ⟨Escape.general w, List.mem_append_right _ (List.mem_map.mpr ⟨w, hw, rfl⟩), ?_⟩
    intro hnil
    have hlong := (hwords w hw).long
    rw [← Escape.unescape_general w, hnil] at hlong
    exact absurd hlong (by decide)
  · rw [if_neg hclass]
    exact ⟨_, List.mem_append_left _ List.mem_cons_self, Sign.text_ne_nil _⟩

/-- A group is needed for the alternatives on both sides or on neither, since words are counted
before they are in lowercase. -/
theorem wide_foldCase (h : AreLegible as) (bareDot : Bool) :
    (decide (1 < (alternatives bareDot (foldCase as)).length) ||
        decide (1 < (as.filter fun a => !a.fitsClass).length)) =
      (decide (1 < (alternatives bareDot as).length) ||
        decide (1 < (as.filter fun a => !a.fitsClass).length)) := by
  obtain ⟨ws, hws, hwords⟩ := h.exists_words
  have hfolded := filter_foldCase h hws fun w hw => (hwords w hw).ascii
  have hsame := sameClass_foldCase h
  have hclass : (foldCase as).filter fitsClass = [] ↔ as.filter fitsClass = [] :=
    ⟨hsame.filter_eq_nil h.foldCase h, hsame.symm.filter_eq_nil h h.foldCase⟩
  rw [hws, List.length_map]
  by_cases hmany : 1 < ws.length
  · simp [hmany]
  · have hlength : (Phrase.loweredWords ws).length = ws.length := by
      match ws with
      | [] => rfl
      | [w] => simp [Phrase.loweredWords, List.eraseDups_cons]
      | _ :: _ :: _ => exact absurd (by simp) hmany
    rw [alternatives_eq h hws, alternatives_eq h.foldCase hfolded]
    by_cases hnil : as.filter fitsClass = []
    · simp [hnil, hclass.mpr hnil, hlength]
    · simp [hnil, mt hclass.mp hnil, hlength]

end Atom

namespace Options

variable {m : Modes} {o : Options} {as : List Atom} {flags flags' : Flags}

theorem paired_atomsText (hcase : m.ignoreCase = true) (hextended : m.extended = false)
    (ho : o.IsPlain) (h : Atom.AreLegible as)
    (hlong : o.longTexts = decide (1 < (as.filter fun a => !a.fitsClass).length))
    (hquantifier : o.quantifierText ≠ [] → as ≠ []) (hflags : flags.ignoreCase = true)
    (hflags' : flags'.ignoreCase = false) (scope : Scope) :
    Paired m scope.isBare scope.alternative (o.atomsText flags scope.alternative as)
      (o.atomsText flags' scope.alternative as) := by
  have htwins := Atom.twins_alternatives hcase hextended h o.bareDot
  have hwide := Atom.wide_foldCase h o.bareDot
  have hbar : ∀ {bs : List Atom}, Atom.AreLegible bs →
      Text.hasOuterBar (['|'].intercalate (Atom.alternatives o.bareDot bs)) = true →
        1 < (Atom.alternatives o.bareDot bs).length := by
    intro bs hbs
    obtain ⟨ns, -, hwritten⟩ := Atom.areAlternatives m o.bareDot hbs.sound
    exact hwritten.isWritten.2.2
  rw [← hlong] at hwide
  unfold atomsText Atom.foldWhen
  simp only [hflags, hflags', if_true, Bool.false_eq_true, if_false, hwide]
  refine Paired.dress hextended ho htwins (fun hq hnil => ?_) ?_ scope
  · exact Atom.intercalate_alternatives_ne_nil h (hquantifier hq) (htwins.nil_iff.mp hnil)
  · rintro (hb | hb)
    · rw [← hwide]
      simp [hbar h.foldCase hb]
    · simp [hbar h hb]

end Options
end PatternBuilder
