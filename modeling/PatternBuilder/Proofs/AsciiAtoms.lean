import PatternBuilder.Proofs.CaseSets
import PatternBuilder.Proofs.Wildcard

/-!
# ASCII atoms

Values of ASCII text are gathered into ASCII atoms, and these stay so in lowercase, which for ASCII
text is the lowercase of each of its characters.
-/

namespace PatternBuilder

open CharRange

namespace Unicode

theorem toUpper_ascii : ∀ n, n < 0x80 → (Char.ofNat n).toUpper.toNat < 0x80 := by
  decide +kernel

theorem isAscii_toUpper {c : Char} (h : isAscii c = true) : isAscii (toUpper c) = true := by
  have hsmall := toUpper_ascii c.toNat (of_decide_eq_true h)
  rw [Char.ofNat_toNat] at hsmall
  rw [toUpper, if_pos h]
  exact decide_eq_true hsmall

theorem isAscii_of_isNumeral {c : Char} (h : isNumeral c = true) : isAscii c = true := by
  rcases Bool.or_eq_true_iff.mp h with hdigit | hsign
  · simp only [Char.isDigit, Bool.and_eq_true, decide_eq_true_eq, ge_iff_le] at hdigit
    have hle : c.toNat ≤ 57 := hdigit.2
    exact decide_eq_true (by omega)
  · have hsigns : ∀ d ∈ ['-', '.', 'i', 'n', 'f', 'N', 'a'], isAscii d = true := by decide
    exact hsigns c (List.contains_iff_mem.mp hsign)

theorem lowerFrom_ascii {t : Text} (h : ∀ c ∈ t, isAscii c = true) (before : Text) :
    lowerFrom before t = t.map toLower := by
  induction t generalizing before with
  | nil => rfl
  | cons c t ih =>
    obtain ⟨hc, ht⟩ := List.forall_mem_cons.mp h
    have hsigma : c ≠ 'Σ' := by
      rintro rfl
      exact absurd hc (by decide)
    have hdotted : c ≠ 'İ' := by
      rintro rfl
      exact absurd hc (by decide)
    rw [lowerFrom, ih ht, lowerBetween, if_neg hsigma, lowerAll, if_neg hdotted]
    rfl

end Unicode

namespace Escape

theorem isAscii_escapeAll {chars : List Char} {t : Text} (h : ∀ c ∈ t, Unicode.isAscii c = true) :
    ∀ c ∈ escapeAll chars t, Unicode.isAscii c = true := by
  intro c hc
  obtain ⟨d, hd, hcd⟩ := List.mem_flatMap.mp hc
  unfold escapeChar at hcd
  split at hcd
  · rcases List.mem_cons.mp hcd with rfl | hcd
    · decide
    · obtain rfl := List.mem_singleton.mp hcd
      exact h c hd
  · obtain rfl := List.mem_singleton.mp hcd
    exact h c hd

theorem map_toLower_general (s : Text) :
    (general s).map Unicode.toLower = general (s.map Unicode.toLower) := by
  induction s with
  | nil => rfl
  | cons c s ih =>
    by_cases hc : c ∈ special
    · have hsame := Unicode.toLower_special hc
      have hbackslash : Unicode.toLower '\\' = '\\' := Unicode.toLower_special (by decide)
      rw [general_cons_special hc, List.map_cons, List.map_cons, List.map_cons, hbackslash, hsame,
        ih, general_cons_special hc]
    · rw [general_cons_plain hc, List.map_cons, List.map_cons, ih,
        general_cons_plain (Unicode.toLower_not_special hc)]

end Escape

namespace CharRange

variable {r : CharRange} {rs : List CharRange}

theorem isAscii_of_contains (h : (Atom.range r).IsAscii) {c : Char} (hc : r.contains c = true) :
    Unicode.isAscii c = true := by
  have hhi : r.hi.toNat < 0x80 := of_decide_eq_true h.2
  have hle := (contains_iff.mp hc).2
  exact decide_eq_true (by omega)

/-- The bounds of canonical ranges are in ranges that were given. -/
theorem isAscii_canonical (h : ∀ r ∈ rs, (Atom.range r).IsAscii) :
    ∀ r ∈ canonical rs, (Atom.range r).IsAscii := by
  intro r hr
  have hforward := isForward_iff.mp (isForward_of_mem_canonical hr)
  have hbound : ∀ c, r.contains c = true → Unicode.isAscii c = true := by
    intro c hc
    obtain ⟨s, hs, hsc⟩ := covered_canonical.mp ⟨r, hr, hc⟩
    exact isAscii_of_contains (h s hs) hsc
  constructor
  · exact hbound r.lo (contains_iff.mpr ⟨Nat.le_refl _, hforward⟩)
  · exact hbound r.hi (contains_iff.mpr ⟨hforward, Nat.le_refl _⟩)

theorem isAscii_lowered (h : (Atom.range r).IsAscii) : (Atom.range r.lowered).IsAscii :=
  ⟨Atom.isAscii_toLower h.1, Atom.isAscii_toLower h.2⟩

theorem isAscii_splitCase (h : (Atom.range r).IsAscii) :
    ∀ s ∈ r.splitCase, (Atom.range s).IsAscii := by
  intro s hs
  unfold splitCase at hs
  split at hs
  · rcases List.mem_cons.mp hs with rfl | hs
    · exact isAscii_lowered h
    · obtain rfl := List.mem_singleton.mp hs
      exact ⟨Unicode.isAscii_toUpper h.1, Unicode.isAscii_toUpper h.2⟩
  · obtain rfl := List.mem_singleton.mp hs
    exact h

end CharRange

namespace Atom

instance : DecidablePred IsAscii
  | .range _ => inferInstanceAs (Decidable (_ ∧ _))
  | .char _ => inferInstanceAs (Decidable (_ = _))
  | .literal t => inferInstanceAs (Decidable (∀ c ∈ t, Unicode.isAscii c = true))
  | .token _ => .isTrue trivial

theorem isAscii_combine {loose : List Atom} {rs : List CharRange}
    (hloose : ∀ a ∈ loose, a.IsAscii) (hrs : ∀ r ∈ rs, (Atom.range r).IsAscii) :
    ∀ a ∈ combine loose (canonical rs), a.IsAscii := by
  intro a ha
  rcases mem_combine.mp ha with ⟨ha, -⟩ | ⟨r, hr, rfl⟩
  · exact hloose a ha
  · exact isAscii_canonical hrs r hr

theorem isAscii_ofText {t : Text} (h : ∀ c ∈ t, Unicode.isAscii c = true) :
    ∀ a ∈ ofText? t, a.IsAscii := by
  intro a ha
  unfold ofText? at ha
  split at ha
  · cases ha
  · split at ha
    next c hc =>
      cases ha
      exact h c (by simp [Text.single?_eq_some.mp hc])
    next =>
      split at ha
      · cases ha
        exact Escape.isAscii_escapeAll h
      · cases ha
        exact Escape.isAscii_escapeAll h

theorem isAscii_ofNumber {t : Text} (h : ∀ c ∈ t, isNumeral c = true) : (ofNumber t).IsAscii := by
  have hascii : ∀ c ∈ t, Unicode.isAscii c = true := fun c hc =>
    Unicode.isAscii_of_isNumeral (h c hc)
  unfold ofNumber
  split
  next c hc => exact hascii c (by simp [Text.single?_eq_some.mp hc])
  next => exact Escape.isAscii_escapeAll hascii

variable {as : List Atom}

theorem isAscii_foldCase (h : ∀ a ∈ as, a.IsAscii) : ∀ b ∈ foldCase as, b.IsAscii := by
  refine isAscii_combine (fun b hb => ?_) fun r hr => ?_
  · obtain ⟨a, ha, hfold⟩ := List.mem_filterMap.mp hb
    have hascii := h a ha
    cases a with
    | range r => cases hfold
    | char c =>
      cases hfold
      have hc : Unicode.isAscii c = true := hascii
      have hlower : Unicode.isAscii (Unicode.lowerFirst c) = true := by
        rw [lowerFirst_ascii hc]
        exact isAscii_toLower hc
      exact hlower
    | literal t =>
      cases hfold
      have hlower : ∀ c ∈ Unicode.lowerText t, Unicode.isAscii c = true := by
        intro c hc
        rw [Unicode.lowerText, Unicode.lowerFrom_ascii hascii] at hc
        obtain ⟨d, hd, rfl⟩ := List.mem_map.mp hc
        exact isAscii_toLower (hascii d hd)
      exact hlower
    | token t =>
      cases hfold
      trivial
  · obtain ⟨a, ha, hfold⟩ := List.mem_filterMap.mp hr
    cases a with
    | range s =>
      cases hfold
      unfold CharRange.foldCase
      split
      · exact isAscii_lowered (h _ ha)
      · exact h _ ha
    | char c => cases hfold
    | literal t => cases hfold
    | token t => cases hfold

end Atom

def Leaf.IsAscii : Leaf → Prop
  | .text t => ∀ c ∈ t, Unicode.isAscii c = true
  | .symbol name => ∀ c ∈ name, Unicode.isAscii c = true
  | .range low high =>
    (∀ c ∈ low, Unicode.isAscii c = true) ∧ ∀ c ∈ high, Unicode.isAscii c = true
  | _ => True

instance : DecidablePred Leaf.IsAscii
  | .text t => inferInstanceAs (Decidable (∀ c ∈ t, Unicode.isAscii c = true))
  | .symbol name => inferInstanceAs (Decidable (∀ c ∈ name, Unicode.isAscii c = true))
  | .range low high => inferInstanceAs (Decidable
      ((∀ c ∈ low, Unicode.isAscii c = true) ∧ ∀ c ∈ high, Unicode.isAscii c = true))
  | .int _ => .isTrue trivial
  | .float _ => .isTrue trivial
  | .bool _ => .isTrue trivial

def Value.IsAscii (v : Value) : Prop := ∀ l ∈ v.leaves, l.IsAscii

instance (v : Value) : Decidable v.IsAscii :=
  inferInstanceAs (Decidable (∀ l ∈ v.leaves, l.IsAscii))

namespace Leaf

variable {l : Leaf}

theorem isAscii_atom (h : l.IsAscii) (catalog : Catalog) : ∀ a ∈ l.atom? catalog, a.IsAscii := by
  intro a ha
  cases l with
  | text t => exact Atom.isAscii_ofText h a ha
  | int n =>
    cases ha
    exact Atom.isAscii_ofNumber fun _ => isNumeral_of_mem_signedDecimal
  | float x =>
    cases ha
    exact Atom.isAscii_ofNumber fun _ => Binary64.isNumeral_of_mem_text
  | bool b =>
    cases b with
    | true =>
      cases ha
      decide
    | false =>
      cases ha
      decide
  | symbol name =>
    rw [atom?] at ha
    split at ha
    · cases ha
    · exact Atom.isAscii_ofText h a ha
  | range low high => cases ha

theorem isAscii_range (h : l.IsAscii) : ∀ r ∈ l.range?, (Atom.range r).IsAscii := by
  intro r hr
  cases l with
  | range low high =>
    simp only [range?, Option.mem_def, Option.bind_eq_bind, Option.bind_eq_some_iff] at hr
    obtain ⟨lo, hlo, hi, hhi, hsome⟩ := hr
    cases hsome
    obtain rfl := Text.single?_eq_some.mp hlo
    obtain rfl := Text.single?_eq_some.mp hhi
    exact ⟨h.1 lo List.mem_cons_self, h.2 hi List.mem_cons_self⟩
  | _ => cases hr

end Leaf

theorem Preset.isAscii_pieces (p : Preset) :
    (∀ q ∈ p.pieces, ∀ a ∈ q.atom?, a.IsAscii) ∧
      ∀ q ∈ p.pieces, ∀ r ∈ q.range?, (Atom.range r).IsAscii := by
  cases p <;> decide

theorem Catalog.isAscii_gather (catalog : Catalog) {v : Value} (h : v.IsAscii) :
    ∀ a ∈ (catalog.gather v).atoms, a.IsAscii := by
  apply Atom.isAscii_combine
  · exact forall_looseAtoms.mpr ⟨fun l hl => l.isAscii_atom (h l hl) catalog,
      fun p _ => p.isAscii_pieces.1⟩
  · refine forall_ranges.mpr ⟨fun l hl r hr => ?_, fun p _ q hq r hr => ?_⟩
    · exact isAscii_splitCase (l.isAscii_range (h l hl) r hr)
    · exact isAscii_splitCase (p.isAscii_pieces.2 q hq r hr)

end PatternBuilder
