import PatternBuilder.Atom.Gather
import PatternBuilder.Builder
import PatternBuilder.Proofs.CanonicalRanges
import PatternBuilder.Proofs.Distinct
import PatternBuilder.Proofs.Phrase

/-!
# Atoms gathered from values

What the atoms of a value have in common, wherever the values come from.
-/

namespace PatternBuilder

open Dialect

def Text.plainCount (t : Text) : Nat := (t.filter (· != '\\')).length

namespace Escape

theorem plainCount_escapeAll (chars : List Char) (t : Text) :
    (escapeAll chars t).plainCount = t.plainCount := by
  induction t with
  | nil => rfl
  | cons c t ih =>
    rw [escapeAll_cons, escapeChar]
    unfold Text.plainCount at ih ⊢
    split
    · by_cases hc : c = '\\' <;> simp [hc, ih]
    · by_cases hc : c = '\\' <;> simp [hc, ih]

theorem unescape_escapeAll {chars : List Char} (h : '\\' ∈ chars) (t : Text) :
    unescape (escapeAll chars t) = t := by
  induction t with
  | nil => rfl
  | cons c t ih =>
    rw [escapeAll_cons, escapeChar]
    split
    · rw [List.cons_append, List.cons_append, List.nil_append, unescape]
      exact congrArg (c :: ·) ih
    · next hc =>
      have hne : c ≠ '\\' := fun he => hc (he ▸ h)
      rw [List.singleton_append, unescape]
      · exact congrArg (c :: ·) ih
      · exact fun he => absurd he hne
      · exact fun _ _ he => absurd he hne

theorem general_cons_special {c : Char} (h : c ∈ special) (t : Text) :
    general (c :: t) = '\\' :: c :: general t := by
  rw [general, escapeAll_cons, escapeChar, if_pos h]
  rfl

theorem general_cons_plain {c : Char} (h : c ∉ special) (t : Text) :
    general (c :: t) = c :: general t := by
  rw [general, escapeAll_cons, escapeChar, if_neg h]
  rfl

theorem unescape_general (t : Text) : unescape (general t) = t :=
  unescape_escapeAll (by decide) t

end Escape

namespace Atom

/-- The atom is as the values of a clause make it. A text that is a single character, or all but one
of whose characters are backslashes, is no literal. -/
def IsSound : Atom → Prop
  | .range r => r.isForward = true
  | .char _ => True
  | .literal t => ∃ s : Text, t = Escape.general s ∧ (s = [] ∨ 2 ≤ s.plainCount)
  | .token t => ∃ c, t = ['\\', c] ∧ ((shorthand? c).isSome = true ∨ c = 't')

theorem isMember_of_fitsClass {a : Atom} (h : a.IsSound) (hfits : a.fitsClass = true) :
    a.IsMember := by
  cases a with
  | literal t =>
    obtain ⟨s, rfl, rfl | hs⟩ := h
    · rfl
    · have hcount : (Escape.general s).plainCount = s.plainCount := Escape.plainCount_escapeAll _ s
      have hone : (Escape.general s).plainCount ≤ 1 := of_decide_eq_true hfits
      omega
  | _ => exact h

/-- What does not fit a class is a text of several characters. -/
theorem eq_literal_of_not_fitsClass {a : Atom} (h : a.IsSound) (hfits : a.fitsClass = false) :
    ∃ s, a = .literal (Escape.general s) ∧ 2 ≤ s.plainCount := by
  cases a with
  | range r => cases hfits
  | char c => cases hfits
  | literal t =>
    obtain ⟨s, rfl, rfl | hs⟩ := h
    · cases hfits
    · exact ⟨s, rfl, hs⟩
  | token t =>
    obtain ⟨c, rfl, _⟩ := h
    have hshort : atMostOnePlain ['\\', c] = true := by
      by_cases hc : c = '\\' <;> simp [atMostOnePlain, hc]
    exact absurd (hfits.symm.trans hshort) (by decide)

theorem fitsClass_general {s : Text} (hs : 2 ≤ s.plainCount) :
    fitsClass (.literal (Escape.general s)) = false := by
  have hcount := Escape.plainCount_escapeAll Escape.special s
  refine decide_eq_false ?_
  change ¬(Escape.general s).plainCount ≤ 1
  rw [Escape.general, hcount]
  omega

variable {as : List Atom}

structure AreSound (as : List Atom) : Prop where
  sound : ∀ a ∈ as, a.IsSound
  apart : AreApart as

theorem AreApart.filter (h : AreApart as) (p : Atom → Bool) : AreApart (as.filter p) :=
  ⟨fun a ha => Nat.le_trans (List.filter_sublist.count_le a) (h.1 a ha),
    fun c r hc hr => h.2 c r (List.mem_of_mem_filter hc) (List.mem_of_mem_filter hr)⟩

theorem mem_combine {loose : List Atom} {rs : List CharRange} {a : Atom} :
    a ∈ combine loose rs ↔ (a ∈ loose ∧ a.isCharIn rs = false) ∨ ∃ r ∈ rs, a = .range r := by
  have hranges : a ∈ rs.map Atom.range ↔ ∃ r ∈ rs, a = .range r := by
    simp only [List.mem_map, eq_comm]
  rw [combine, List.mem_append, List.mem_eraseDups, List.mem_filter, hranges, Bool.not_eq_true']

/-- Combining keeps what is sound, and sets it apart. -/
theorem areSound_combine {loose : List Atom} {rs : List CharRange}
    (hloose : ∀ a ∈ loose, a.IsSound ∧ a.isLoose = true) (hrs : ∀ r ∈ rs, r.isForward = true) :
    AreSound (combine loose rs) := by
  refine ⟨fun a ha => ?_, fun a ha => ?_, fun c r hc hr => ?_⟩
  · rcases mem_combine.mp ha with ⟨ha, _⟩ | ⟨r, hr, rfl⟩
    · exact (hloose a ha).1
    · exact hrs r hr
  · have hranges : (rs.map Atom.range).count a = 0 := by
      apply List.count_eq_zero_of_not_mem
      intro hmem
      obtain ⟨r, _, rfl⟩ := List.mem_map.mp hmem
      cases ha
    rw [combine, List.count_append, hranges]
    exact count_eraseDups_le _ a
  · rcases mem_combine.mp hr with ⟨hr, _⟩ | ⟨s, hs, he⟩
    · cases (hloose _ hr).2
    · rcases mem_combine.mp hc with ⟨_, hc⟩ | ⟨_, _, he⟩
      · cases he
        rw [isCharIn, List.any_eq_false] at hc
        simpa using hc r hs
      · cases he

end Atom

/-- A text of several characters has at least two that are no backslashes. -/
def Text.IsFair (t : Text) : Prop := t.length ≤ 1 ∨ 2 ≤ t.plainCount

/-- The texts of the leaf are fair. A symbol is one when its name is unknown. -/
def Leaf.IsFair (catalog : Catalog) : Leaf → Prop
  | .text t => t.IsFair
  | .symbol name => catalog.find? name = none → name.IsFair
  | _ => True

def Value.IsFair (catalog : Catalog) (v : Value) : Prop := ∀ l ∈ v.leaves, l.IsFair catalog

instance (t : Text) : Decidable t.IsFair := inferInstanceAs (Decidable (_ ∨ _))

instance (catalog : Catalog) : DecidablePred (Leaf.IsFair catalog)
  | .text t => inferInstanceAs (Decidable t.IsFair)
  | .symbol name => inferInstanceAs (Decidable (catalog.find? name = none → name.IsFair))
  | .int _ => .isTrue trivial
  | .float _ => .isTrue trivial
  | .bool _ => .isTrue trivial
  | .range _ _ => .isTrue trivial

instance (catalog : Catalog) (v : Value) : Decidable (v.IsFair catalog) :=
  inferInstanceAs (Decidable (∀ l ∈ v.leaves, l.IsFair catalog))

theorem Value.isFair_empty (catalog : Catalog) : Value.empty.IsFair catalog := by
  simp [empty, IsFair]

theorem Text.single?_eq_some {t : Text} {c : Char} : t.single? = some c ↔ t = [c] := by
  match t with
  | [] => simp [single?]
  | [d] => simp [single?]
  | _ :: _ :: _ => simp [single?]

theorem Text.plainCount_of_no_backslash {t : Text} (h : '\\' ∉ t) : t.plainCount = t.length := by
  have hall : t.filter (· != '\\') = t := List.filter_eq_self.mpr fun c hc => by
    simpa using fun he : c = '\\' => h (he ▸ hc)
  rw [plainCount, hall]

namespace Atom

def IsSoundLoose (a : Atom) : Prop := a.IsSound ∧ a.isLoose = true

theorem isSoundLoose_ofText {t : Text} (h : t.IsFair) : ∀ a ∈ ofText? t, a.IsSoundLoose := by
  intro a ha
  unfold ofText? at ha
  split at ha
  · cases ha
  next hnil =>
    split at ha
    next c hc =>
      cases ha
      exact ⟨trivial, rfl⟩
    next hsingle =>
      have htwo : 2 ≤ t.plainCount := by
        apply h.resolve_left
        intro hlength
        match t with
        | [] => exact hnil rfl
        | [c] => cases hsingle
        | _ :: _ :: _ => simp at hlength
      have hplain : atMostOnePlain t = false :=
        decide_eq_false (by unfold Text.plainCount at htwo; omega)
      rw [hplain, if_neg (by decide)] at ha
      cases ha
      exact ⟨⟨t, rfl, .inr htwo⟩, rfl⟩

theorem isSoundLoose_ofNumber {t : Text} (h : '\\' ∉ t) : (ofNumber t).IsSoundLoose := by
  unfold ofNumber
  split
  next c hc => exact ⟨trivial, rfl⟩
  next hsingle =>
    refine ⟨⟨t, rfl, ?_⟩, rfl⟩
    rw [Text.plainCount_of_no_backslash h]
    match t with
    | [] => exact .inl rfl
    | [c] => cases hsingle
    | _ :: _ :: _ => exact .inr (by simp)

end Atom

def isNumeral (c : Char) : Bool := c.isDigit || ['-', '.', 'i', 'n', 'f', 'N', 'a'].contains c

theorem isNumeral_of_mem_decimal {n : Nat} {c : Char} (h : c ∈ decimal n) : isNumeral c = true := by
  rw [isNumeral, isDigit_of_mem_decimal h, Bool.true_or]

theorem isNumeral_of_mem_signedDecimal {n : Int} {c : Char} (h : c ∈ signedDecimal n) :
    isNumeral c = true := by
  unfold signedDecimal at h
  split at h
  · rcases List.mem_cons.mp h with rfl | h
    · rfl
    · exact isNumeral_of_mem_decimal h
  · exact isNumeral_of_mem_decimal h

theorem Scientific.isNumeral_of_mem_positional {s : Scientific} {c : Char} (h : c ∈ s.positional) :
    isNumeral c = true := by
  have hzeros : ∀ n, c ∈ List.replicate n '0' → isNumeral c = true := by
    intro n hc
    rw [List.eq_of_mem_replicate hc]
    rfl
  simp only [positional] at h
  split at h
  · rcases List.mem_append.mp h with h | h
    · exact isNumeral_of_mem_decimal h
    · exact hzeros _ h
  · split at h
    · rcases List.mem_append.mp h with h | h
      · exact isNumeral_of_mem_decimal (List.mem_of_mem_take h)
      · rcases List.mem_cons.mp h with rfl | h
        · rfl
        · exact isNumeral_of_mem_decimal (List.mem_of_mem_drop h)
    · simp only [List.cons_append, List.mem_cons, List.mem_append] at h
      rcases h with rfl | rfl | h | h
      · rfl
      · rfl
      · exact hzeros _ h
      · exact isNumeral_of_mem_decimal h

theorem Binary64.isNumeral_of_mem_text {x : Binary64} {c : Char} (h : c ∈ x.text) :
    isNumeral c = true := by
  have hmagnitude : ∀ d ∈ x.magnitudeText, isNumeral d = true := by
    unfold magnitudeText
    split
    · decide
    · cases x.tolerance.shortest? 309 634 with
      | none => simp
      | some s => exact fun d hd => s.isNumeral_of_mem_positional hd
  have hsign : ∀ d ∈ (if x.negative then ['-'] else []), isNumeral d = true := by
    split <;> decide
  have hlast : ∀ d ∈ ['i', 'n', 'f'] ++ ['N', 'a', 'N'], isNumeral d = true := by decide
  simp only [text] at h
  split at h
  · split at h
    · rcases List.mem_append.mp h with h | h
      · exact hsign c h
      · exact hlast c (List.mem_append_left _ h)
    · exact hlast c (List.mem_append_right _ h)
  · rcases List.mem_append.mp h with h | h
    · exact hsign c h
    · exact hmagnitude c h

theorem backslash_not_mem_of_numerals {t : Text} (h : ∀ c ∈ t, isNumeral c = true) : '\\' ∉ t :=
  fun hmem => absurd (h _ hmem) (by decide)

theorem Leaf.isSoundLoose_of_mem_atom {catalog : Catalog} {l : Leaf} (h : l.IsFair catalog) :
    ∀ a ∈ l.atom? catalog, a.IsSoundLoose := by
  intro a ha
  cases l with
  | text t => exact Atom.isSoundLoose_ofText h a ha
  | int n =>
    cases ha
    exact Atom.isSoundLoose_ofNumber
      (backslash_not_mem_of_numerals fun _ => isNumeral_of_mem_signedDecimal)
  | float x =>
    cases ha
    exact Atom.isSoundLoose_ofNumber
      (backslash_not_mem_of_numerals fun _ => Binary64.isNumeral_of_mem_text)
  | bool b =>
    cases b with
    | true =>
      cases ha
      exact ⟨⟨['t', 'r', 'u', 'e'], rfl, .inr (by decide)⟩, rfl⟩
    | false =>
      cases ha
      exact ⟨⟨['f', 'a', 'l', 's', 'e'], rfl, .inr (by decide)⟩, rfl⟩
  | symbol name =>
    rw [Leaf.atom?] at ha
    split at ha
    · cases ha
    next hfind => exact Atom.isSoundLoose_ofText (h (by simpa using hfind)) a ha
  | range low high => cases ha

theorem Preset.isSoundLoose_of_mem_pieces (p : Preset) :
    ∀ a ∈ p.pieces.filterMap Preset.Piece.atom?, a.IsSoundLoose := by
  have htoken : ∀ c ∈ ['w', 'W', 'D', 's', 'S', 't'], Atom.IsSoundLoose (.token ['\\', c]) := by
    intro c hc
    have hletter : (shorthand? c).isSome = true ∨ c = 't' := by
      revert c
      decide
    exact ⟨⟨c, rfl, hletter⟩, rfl⟩
  have hchar : ∀ c, Atom.IsSoundLoose (.char c) := fun c => ⟨trivial, rfl⟩
  cases p <;>
    simp [pieces, definition, Definition.piece?, Member.piece?, Piece.atom?, htoken, hchar]

namespace Catalog

variable {catalog : Catalog}

theorem mem_presets {ls : List Leaf} {p : Preset} :
    p ∈ catalog.presets ls ↔ ∃ l ∈ ls, p ∈ l.preset? catalog := by
  simp [presets, List.mem_eraseDups]

theorem isSoundLoose_of_mem_looseAtoms {ls : List Leaf} (h : ∀ l ∈ ls, l.IsFair catalog) :
    ∀ a ∈ catalog.looseAtoms ls, a.IsSoundLoose := by
  intro a ha
  rcases List.mem_append.mp ha with ha | ha
  · obtain ⟨l, hl, hatom⟩ := List.mem_filterMap.mp ha
    exact Leaf.isSoundLoose_of_mem_atom (h l hl) a hatom
  · obtain ⟨q, hq, hatom⟩ := List.mem_filterMap.mp ha
    obtain ⟨p, _, hpiece⟩ := List.mem_flatMap.mp hq
    exact p.isSoundLoose_of_mem_pieces a (List.mem_filterMap.mpr ⟨q, hpiece, hatom⟩)

theorem areSound_gather {v : Value} (h : v.IsFair catalog) :
    Atom.AreSound (catalog.gather v).atoms :=
  Atom.areSound_combine (isSoundLoose_of_mem_looseAtoms h) fun _ =>
    CharRange.isForward_of_mem_canonical

end Catalog

namespace Options

/-- What is known of the options of a clause of atoms: only where some atom is a text of several
characters, a group for such texts is asked for. -/
def AreFor (o : Options) (as : List Atom) : Prop :=
  o.longTexts = true → ∃ a ∈ as, a.fitsClass = false

theorem areFor_gatheredOptions (g : Gathered) (o : Options) :
    (Builder.gatheredOptions g o).AreFor g.atoms := by
  intro hlong
  have hlength := of_decide_eq_true hlong
  obtain ⟨a, ha⟩ := List.exists_mem_of_length_pos (Nat.lt_trans Nat.zero_lt_one hlength)
  obtain ⟨hmem, hfits⟩ := List.mem_filter.mp ha
  exact ⟨a, hmem, by simpa using hfits⟩

end Options
end PatternBuilder
