import PatternBuilder.Proofs.NumberTexts
import PatternBuilder.Proofs.WholeText

/-!
# Texts of values

What the leaves of a value and the presets stand for, told without atoms. Gathering them into atoms
neither loses nor adds a text.
-/

namespace PatternBuilder

open CharRange

namespace Preset

/-- The characters of a preset. Numbers are the digits of ASCII, non-numerics are what is no digit
in any script. -/
def contains : Preset → Char → Bool
  | .word, c => Unicode.wordSet.contains c
  | .nonWord, c => !Unicode.wordSet.contains c
  | .number, c => c.isDigit
  | .nonNumeric, c => !Unicode.digitSet.contains c
  | .letter, c => c.isAlpha
  | .upper, c => c.isUpper
  | .lower, c => c.isLower
  | .whitespace, c => Unicode.spaceSet.contains c
  | .nonWhitespace, c => !Unicode.spaceSet.contains c
  | .space, c => c == ' '
  | .tab, c => c == '\t'
  | .dot, c => c != '\n'
  | .blank, c => c == ' ' || c == '\t'
  | .hex, c => c.isDigit || decide ('a' ≤ c ∧ c ≤ 'f') || decide ('A' ≤ c ∧ c ≤ 'F')
  | .alphanum, c => c.isAlphanum

/-- The characters of a piece. A range of mixed case means both cases. -/
def Piece.Contains : Piece → Char → Prop
  | .token t, c => (Atom.set (.token t)).contains c = true
  | .char d, c => c = d
  | .range r, c => Covered r.splitCase c
  | .wildcard, c => c = '.'

theorem covered_unsplit {r : CharRange} (h : r.splitCase = [r]) {c : Char} :
    Covered r.splitCase c ↔ r.lo.toNat ≤ c.toNat ∧ c.toNat ≤ r.hi.toNat := by
  rw [h, covered_cons, or_iff_left covered_nil, contains_iff]

theorem covered_digits {c : Char} : Covered (splitCase ⟨'0', '9'⟩) c ↔ c.isDigit = true := by
  rw [covered_unsplit (by decide)]
  simp [Char.isDigit, UInt32.le_iff_toNat_le]

theorem covered_upper {c : Char} : Covered (splitCase ⟨'A', 'Z'⟩) c ↔ c.isUpper = true := by
  have hupper : c.isUpper = decide ('A'.val ≤ c.val ∧ c.val ≤ 'Z'.val) := rfl
  rw [covered_unsplit (by decide), hupper]
  simp [UInt32.le_iff_toNat_le]

theorem covered_lower {c : Char} : Covered (splitCase ⟨'a', 'z'⟩) c ↔ c.isLower = true := by
  have hlower : c.isLower = (decide ('a'.val ≤ c.val) && decide (c.val ≤ 'z'.val)) := rfl
  rw [covered_unsplit (by decide), hlower]
  simp [UInt32.le_iff_toNat_le]

theorem covered_letters {c : Char} : Covered (splitCase ⟨'a', 'Z'⟩) c ↔ c.isAlpha = true := by
  have hsplit : splitCase ⟨'a', 'Z'⟩ = splitCase ⟨'a', 'z'⟩ ++ splitCase ⟨'A', 'Z'⟩ := by decide
  have halpha : c.isAlpha = (c.isUpper || c.isLower) := rfl
  rw [hsplit, covered_append, covered_lower, covered_upper, halpha, Bool.or_eq_true]
  exact or_comm

theorem covered_hexLetters {c : Char} :
    Covered (splitCase ⟨'a', 'F'⟩) c ↔ ('a' ≤ c ∧ c ≤ 'f') ∨ ('A' ≤ c ∧ c ≤ 'F') := by
  have hsplit : splitCase ⟨'a', 'F'⟩ = [⟨'a', 'f'⟩, ⟨'A', 'F'⟩] := by decide
  simp [hsplit, Covered, CharRange.contains]

theorem contains_pieces {p : Preset} (hp : p ≠ .dot) {c : Char} :
    (∃ q ∈ p.pieces, q.Contains c) ↔ p.contains c = true := by
  obtain ⟨hword, hdigit, hspace⟩ := CharSet.ascendFrom_shorthands
  cases p with
  | dot => exact absurd rfl hp
  | _ =>
    simp [pieces, definition, Definition.piece?, Member.piece?, Piece.Contains, Preset.contains,
      Atom.set, Dialect.shorthand?, Dialect.control?, CharSet.contains_complement hword,
      CharSet.contains_complement hdigit, CharSet.contains_complement hspace,
      CharSet.contains_single, covered_digits, covered_upper, covered_lower, covered_letters,
      covered_hexLetters, Char.isAlphanum, or_assoc]

end Preset

namespace Atom

def StandsFor (a : Atom) (s : Text) : Prop := a ≠ .literal [] ∧ ∀ t, a.Accepts t ↔ t = s

theorem accepts_char {c : Char} {t : Text} : (char c).Accepts t ↔ t = [c] := by
  simp [Accepts, set, CharSet.contains_single]

theorem accepts_range {r : CharRange} {t : Text} :
    (range r).Accepts t ↔ ∃ c, t = [c] ∧ r.contains c = true := by
  simp only [Accepts, set, CharSet.contains_range, CharRange.contains_iff]

theorem standsFor_char (c : Char) : (char c).StandsFor [c] := ⟨nofun, fun _ => accepts_char⟩

theorem standsFor_literal {s : Text} (h : s ≠ []) : (literal (Escape.general s)).StandsFor s := by
  refine ⟨fun he => h ?_, fun t => ?_⟩
  · rw [← Escape.unescape_general s, literal.inj he]
    rfl
  · rw [Accepts, Escape.unescape_general]

theorem standsFor_ofNumber {s : Text} (h : s ≠ []) : (ofNumber s).StandsFor s := by
  unfold ofNumber
  split
  next c hc =>
    rw [Text.single?_eq_some.mp hc]
    exact standsFor_char c
  next => exact standsFor_literal h

theorem ofText?_of_length {s : Text} (h : 2 ≤ s.length) : ofText? s =
    some (.literal (if atMostOnePlain s then Escape.inClass s else Escape.general s)) := by
  have hne : s ≠ [] := by
    rintro rfl
    simp at h
  have hsingle : s.single? = none := by
    rw [Option.eq_none_iff_forall_not_mem]
    intro c hc
    rw [Text.single?_eq_some.mp hc] at h
    simp at h
  simp only [ofText?, hne, hsingle, if_false]
  split <;> rfl

theorem standsFor_ofText {s : Text} (h : s.length = 1 ∨ 2 ≤ s.plainCount) :
    ∃ a, ofText? s = some a ∧ a.StandsFor s := by
  rcases h with h | h
  · obtain ⟨c, rfl⟩ := List.length_eq_one_iff.mp h
    exact ⟨_, rfl, standsFor_char c⟩
  · have hlength : 2 ≤ s.length := Nat.le_trans h (List.length_filter_le _ s)
    have hne : s ≠ [] := by
      rintro rfl
      simp at hlength
    have hplain : atMostOnePlain s = false :=
      decide_eq_false (by unfold Text.plainCount at h; omega)
    rw [ofText?_of_length hlength, hplain, if_neg (by decide)]
    exact ⟨_, rfl, standsFor_literal hne⟩

/-- A character that a range has already is dropped, and its text stays. -/
theorem accepts_combine {loose : List Atom} {rs : List CharRange} {t : Text} :
    (∃ a ∈ combine loose rs, a.Accepts t) ↔
      (∃ a ∈ loose, a.Accepts t) ∨ ∃ c, t = [c] ∧ Covered rs c := by
  have hrange : ∀ r ∈ rs, range r ∈ combine loose rs :=
    fun r hr => mem_combine.mpr (.inr ⟨r, hr, rfl⟩)
  constructor
  · rintro ⟨a, ha, hat⟩
    rcases mem_combine.mp ha with ⟨ha, _⟩ | ⟨r, hr, rfl⟩
    · exact .inl ⟨a, ha, hat⟩
    · obtain ⟨c, ht, hc⟩ := accepts_range.mp hat
      exact .inr ⟨c, ht, r, hr, hc⟩
  · rintro (⟨a, ha, hat⟩ | ⟨c, ht, r, hr, hc⟩)
    · cases hcovered : a.isCharIn rs with
      | false => exact ⟨a, mem_combine.mpr (.inl ⟨ha, hcovered⟩), hat⟩
      | true =>
        cases a with
        | char c =>
          obtain ⟨r, hr, hc⟩ := List.any_eq_true.mp hcovered
          exact ⟨_, hrange r hr, accepts_range.mpr ⟨c, accepts_char.mp hat, hc⟩⟩
        | _ => cases hcovered
    · exact ⟨_, hrange r hr, accepts_range.mpr ⟨c, ht, hc⟩⟩

end Atom

theorem signedDecimal_eq (n : Int) : signedDecimal n = (toString n).toList := by
  cases n with
  | ofNat n =>
    have h : ¬Int.ofNat n < 0 := by simp
    rw [signedDecimal, if_neg h]
    change decimal n = (Nat.repr n).toList
    simp [decimal, Nat.repr]
  | negSucc n =>
    have h : Int.negSucc n < 0 := by simp
    rw [signedDecimal, if_pos h]
    change '-' :: decimal (n + 1) = ("-" ++ Nat.repr (n + 1)).toList
    simp [decimal, Nat.repr]

namespace Leaf

/-- A leaf that is written with all it stands for: a text of one character or of two at least that
are no backslashes, a range of characters with no case to split, or a preset that is a set. -/
def IsExact (catalog : Catalog) : Leaf → Prop
  | .text t => t.length = 1 ∨ 2 ≤ t.plainCount
  | .int _ => True
  | .float _ => False
  | .bool _ => True
  | .symbol name => ∃ p ∈ catalog.find? name, p ≠ .dot
  | .range low high =>
    ∃ lo ∈ low.single?, ∃ hi ∈ high.single?, splitCase ⟨lo, hi⟩ = [⟨lo, hi⟩]

/-- The text is what the leaf says, or one character of its range or preset. -/
def Accepts (catalog : Catalog) : Leaf → Text → Prop
  | .text s, t => t = s
  | .int n, t => t = (toString n.toInt).toList
  | .float x, t => t = x.text
  | .bool b, t => t = (toString b).toList
  | .symbol name, t => ∃ p ∈ catalog.find? name, ∃ c, t = [c] ∧ p.contains c = true
  | .range low high, t =>
    ∃ lo ∈ low.single?, ∃ hi ∈ high.single?, ∃ c, t = [c] ∧ lo ≤ c ∧ c ≤ hi

instance (catalog : Catalog) : DecidablePred (IsExact catalog)
  | .text t => inferInstanceAs (Decidable (t.length = 1 ∨ 2 ≤ t.plainCount))
  | .int _ => .isTrue trivial
  | .float _ => .isFalse id
  | .bool _ => .isTrue trivial
  | .symbol name => inferInstanceAs (Decidable (∃ p ∈ catalog.find? name, p ≠ .dot))
  | .range low high => inferInstanceAs (Decidable
      (∃ lo ∈ low.single?, ∃ hi ∈ high.single?, splitCase ⟨lo, hi⟩ = [⟨lo, hi⟩]))

variable {catalog : Catalog} {l : Leaf} {t : Text}

theorem IsExact.isFair (h : l.IsExact catalog) : l.IsFair catalog := by
  cases l with
  | text t => exact h.imp_left Nat.le_of_eq
  | symbol name =>
    obtain ⟨p, hp, _⟩ := h
    exact fun hnone => by simp [hnone] at hp
  | _ => trivial

theorem accepts_parts (h : l.IsExact catalog) :
    l.Accepts catalog t ↔ (∃ a ∈ l.atom? catalog, a.Accepts t) ∨
      (∃ r ∈ l.range?, ∃ c, t = [c] ∧ Covered r.splitCase c) ∨
      ∃ p ∈ l.preset? catalog, ∃ c, t = [c] ∧ p.contains c = true := by
  cases l with
  | text s =>
    obtain ⟨a, ha, _, hacc⟩ := Atom.standsFor_ofText h
    simp [Accepts, atom?, range?, preset?, ha, hacc]
  | int n =>
    have hnumber := (Atom.standsFor_ofNumber (signedDecimal_ne_nil n.toInt)).2 t
    rw [Accepts, ← signedDecimal_eq]
    simp [atom?, range?, preset?, hnumber]
  | float x => exact h.elim
  | bool b =>
    have htrue : (toString true).toList = ['t', 'r', 'u', 'e'] := rfl
    have hfalse : (toString false).toList = ['f', 'a', 'l', 's', 'e'] := rfl
    cases b <;>
      simp [Accepts, atom?, range?, preset?, Atom.Accepts, Escape.unescape, htrue, hfalse]
  | symbol name =>
    obtain ⟨p, hp, _⟩ := h
    rw [Option.mem_def] at hp
    simp [Accepts, atom?, range?, preset?, hp]
  | range low high =>
    obtain ⟨lo, hlo, hi, hhi, hsplit⟩ := h
    obtain rfl := Text.single?_eq_some.mp hlo
    obtain rfl := Text.single?_eq_some.mp hhi
    have hrange : range? (.range [lo] [hi]) = some ⟨lo, hi⟩ := rfl
    simp [Accepts, atom?, preset?, hrange, hsplit, Text.single?, Covered, CharRange.contains]

theorem atom_ne_nil (h : l.IsFair catalog) : ∀ a ∈ l.atom? catalog, a ≠ .literal [] := by
  have htext : ∀ {s : Text}, s.IsFair → ∀ a ∈ Atom.ofText? s, a ≠ .literal [] := by
    intro s hs a ha
    by_cases hnil : s = []
    · rw [hnil] at ha
      cases ha
    · have hlength := List.length_pos_of_ne_nil hnil
      obtain ⟨b, hb, hstands⟩ := Atom.standsFor_ofText (hs.imp_left fun hle => by omega)
      obtain rfl : b = a := Option.some.inj (hb.symm.trans ha)
      exact hstands.1
  intro a ha
  cases l with
  | text s => exact htext h a ha
  | int n =>
    cases ha
    exact (Atom.standsFor_ofNumber (signedDecimal_ne_nil n.toInt)).1
  | float x =>
    cases ha
    exact (Atom.standsFor_ofNumber x.text_ne_nil).1
  | bool b => cases b <;> cases ha <;> simp
  | symbol name =>
    rw [atom?] at ha
    split at ha
    · cases ha
    next hfind => exact htext (h (by simpa using hfind)) a ha
  | range low high => cases ha

end Leaf

theorem Preset.Piece.accepts_parts {q : Piece} {t : Text} :
    ((∃ a ∈ q.atom?, a.Accepts t) ∨ ∃ r ∈ q.range?, ∃ c, t = [c] ∧ Covered r.splitCase c) ↔
      ∃ c, t = [c] ∧ q.Contains c := by
  cases q with
  | token s => simp [atom?, range?, Contains, Atom.Accepts]
  | char d => simp [atom?, range?, Contains, Atom.accepts_char]
  | range r => simp [atom?, range?, Contains]
  | wildcard => simp [atom?, range?, Contains, Atom.accepts_char]

namespace Catalog

variable {catalog : Catalog} {ls : List Leaf} {t : Text}

theorem accepts_looseAtoms : (∃ a ∈ catalog.looseAtoms ls, a.Accepts t) ↔
    (∃ l ∈ ls, ∃ a ∈ l.atom? catalog, a.Accepts t) ∨
      ∃ p ∈ catalog.presets ls, ∃ q ∈ p.pieces, ∃ a ∈ q.atom?, a.Accepts t := by
  simp only [looseAtoms, List.mem_append, List.mem_filterMap, List.mem_flatMap, Option.mem_def]
  constructor
  · rintro ⟨a, ⟨l, hl, ha⟩ | ⟨q, ⟨p, hp, hq⟩, ha⟩, hat⟩
    · exact .inl ⟨l, hl, a, ha, hat⟩
    · exact .inr ⟨p, hp, q, hq, a, ha, hat⟩
  · rintro (⟨l, hl, a, ha, hat⟩ | ⟨p, hp, q, hq, a, ha, hat⟩)
    · exact ⟨a, .inl ⟨l, hl, ha⟩, hat⟩
    · exact ⟨a, .inr ⟨q, ⟨p, hp, hq⟩, ha⟩, hat⟩

theorem covered_ranges : (∃ c, t = [c] ∧ Covered (catalog.ranges ls) c) ↔
    (∃ l ∈ ls, ∃ r ∈ l.range?, ∃ c, t = [c] ∧ Covered r.splitCase c) ∨
      ∃ p ∈ catalog.presets ls, ∃ q ∈ p.pieces, ∃ r ∈ q.range?, ∃ c, t = [c] ∧
        Covered r.splitCase c := by
  simp only [ranges, Covered, List.mem_append, List.mem_filterMap, List.mem_flatMap, Option.mem_def]
  constructor
  · rintro ⟨c, ht, s, ⟨r, ⟨l, hl, hr⟩ | ⟨q, ⟨p, hp, hq⟩, hr⟩, hs⟩, hc⟩
    · exact .inl ⟨l, hl, r, hr, c, ht, s, hs, hc⟩
    · exact .inr ⟨p, hp, q, hq, r, hr, c, ht, s, hs, hc⟩
  · rintro (⟨l, hl, r, hr, c, ht, s, hs, hc⟩ | ⟨p, hp, q, hq, r, hr, c, ht, s, hs, hc⟩)
    · exact ⟨c, ht, s, ⟨r, .inl ⟨l, hl, hr⟩, hs⟩, hc⟩
    · exact ⟨c, ht, s, ⟨r, .inr ⟨q, ⟨p, hp, hq⟩, hr⟩, hs⟩, hc⟩

variable {v : Value}

theorem ne_dot_of_mem_presets (h : ∀ l ∈ ls, l.IsExact catalog) :
    ∀ p ∈ catalog.presets ls, p ≠ .dot := by
  intro p hp
  obtain ⟨l, hl, hpreset⟩ := mem_presets.mp hp
  cases l with
  | symbol name =>
    obtain ⟨q, hq, hne⟩ := h _ hl
    exact Option.some.inj (hq.symm.trans hpreset) ▸ hne
  | _ => cases hpreset

theorem accepts_gather_parts : (∃ a ∈ (catalog.gather v).atoms, a.Accepts t) ↔ ∃ l ∈ v.leaves,
    (∃ a ∈ l.atom? catalog, a.Accepts t) ∨ (∃ r ∈ l.range?, ∃ c, t = [c] ∧ Covered r.splitCase c) ∨
      ∃ p ∈ l.preset? catalog, ∃ q ∈ p.pieces, ∃ c, t = [c] ∧ q.Contains c := by
  -- A preset counts once, however many leaves name it.
  have hpresets : (∃ l ∈ v.leaves, ∃ p ∈ l.preset? catalog, ∃ q ∈ p.pieces, ∃ c, t = [c] ∧
      q.Contains c) ↔ ∃ p ∈ catalog.presets v.leaves, ∃ q ∈ p.pieces, ∃ c, t = [c] ∧
        q.Contains c := by
    constructor
    · rintro ⟨l, hl, p, hp, hc⟩
      exact ⟨p, mem_presets.mpr ⟨l, hl, hp⟩, hc⟩
    · rintro ⟨p, hp, hc⟩
      obtain ⟨l, hl, hpreset⟩ := mem_presets.mp hp
      exact ⟨l, hl, p, hpreset, hc⟩
  -- Its pieces part ways: some join the loose atoms, the others the ranges.
  have hpieces : (∃ p ∈ catalog.presets v.leaves, ∃ q ∈ p.pieces, ∃ c, t = [c] ∧ q.Contains c) ↔
      (∃ p ∈ catalog.presets v.leaves, ∃ q ∈ p.pieces, ∃ a ∈ q.atom?, a.Accepts t) ∨
        ∃ p ∈ catalog.presets v.leaves, ∃ q ∈ p.pieces, ∃ r ∈ q.range?, ∃ c, t = [c] ∧
          Covered r.splitCase c := by
    simp only [← Preset.Piece.accepts_parts, and_or_left, exists_or]
  simp only [gather, gatherLeaves, Atom.accepts_combine, covered_canonical, accepts_looseAtoms,
    covered_ranges]
  simp only [and_or_left, exists_or]
  rw [hpresets, hpieces]
  exact or_or_or_comm.trans or_assoc

theorem accepts_gather (h : ∀ l ∈ v.leaves, l.IsExact catalog) :
    (∃ a ∈ (catalog.gather v).atoms, a.Accepts t) ↔ ∃ l ∈ v.leaves, l.Accepts catalog t := by
  have hpreset : ∀ l ∈ v.leaves, ∀ p ∈ l.preset? catalog,
      ((∃ q ∈ p.pieces, ∃ c, t = [c] ∧ q.Contains c) ↔ ∃ c, t = [c] ∧ p.contains c = true) := by
    intro l hl p hp
    have hpieces {c : Char} := Preset.contains_pieces (c := c)
      (ne_dot_of_mem_presets h p (mem_presets.mpr ⟨l, hl, hp⟩))
    constructor
    · rintro ⟨q, hq, c, ht, hc⟩
      exact ⟨c, ht, hpieces.mp ⟨q, hq, hc⟩⟩
    · rintro ⟨c, ht, hc⟩
      obtain ⟨q, hq, hcontains⟩ := hpieces.mpr hc
      exact ⟨q, hq, c, ht, hcontains⟩
  rw [accepts_gather_parts]
  refine exists_congr fun l => and_congr_right fun hl => ?_
  rw [Leaf.accepts_parts (h l hl)]
  exact or_congr_right (or_congr_right (exists_congr fun p =>
    and_congr_right fun hp => hpreset l hl p hp))

theorem wildcard_gather (h : ∀ l ∈ v.leaves, l.IsExact catalog) :
    (catalog.gather v).wildcard = false := by
  have hpieces : ∀ p : Preset, p ≠ .dot → .wildcard ∉ p.pieces := by
    intro p hp
    cases p <;> simp_all [Preset.pieces, Preset.definition, Preset.Definition.piece?,
      Preset.Member.piece?]
  simp only [gather, gatherLeaves, List.contains_eq_mem, decide_eq_false_iff_not, List.mem_flatMap]
  rintro ⟨p, hp, hwildcard⟩
  exact hpieces p (ne_dot_of_mem_presets h p hp) hwildcard

theorem literal_nil_not_mem_gather (h : v.IsFair catalog) :
    .literal [] ∉ (catalog.gather v).atoms := by
  intro hmem
  rcases Atom.mem_combine.mp hmem with ⟨hloose, _⟩ | ⟨_, _, he⟩
  · rcases List.mem_append.mp hloose with hleaf | hpiece
    · obtain ⟨l, hl, hatom⟩ := List.mem_filterMap.mp hleaf
      exact Leaf.atom_ne_nil (h l hl) _ hatom rfl
    · obtain ⟨q, _, hatom⟩ := List.mem_filterMap.mp hpiece
      cases q <;> cases hatom
  · cases he

end Catalog

namespace Builder

variable {catalog : Catalog} {v : Value}

/-- A pattern of whole texts matches exactly what the leaves of its value say: presets, ranges and
texts are neither lost nor mixed up on the way through atoms, classes and alternatives. -/
theorem isMatch_wholeText_iff (h : ∀ l ∈ v.leaves, l.IsExact catalog)
    (hne : (catalog.gather v).atoms ≠ []) :
    ∃ p, ((ofCatalog catalog).wholeText v).toPatternWithin .unlimited = .ok p ∧
      ∀ t, p.isMatch t = true ↔ ∃ l ∈ v.leaves, l.Accepts catalog t := by
  have hfair : v.IsFair catalog := fun l hl => (h l hl).isFair
  have hatoms := Atom.accepts_node (catalog.areSound_gather hfair) hne
    (Catalog.literal_nil_not_mem_gather hfair)
  refine isMatch_wholeText hfair ?_
  rw [Catalog.wildcard_gather h]
  exact hatoms.congr fun t => Catalog.accepts_gather h

def listed : Value :=
  .list [.ofSymbol ['d', 'i', 'g', 'i', 't', 's'], .ofCharRange 'a' 'f', .ofChar '-',
    .list [.leaf (.int (-12)), .list [.ofText ['n', '/', 'a'], .ofBool true]], .ofCharRange 'z' 'x']

theorem isMatch_wholeText_listed :
    (∀ l ∈ listed.leaves, l.IsExact .standard) ∧ (Catalog.standard.gather listed).atoms ≠ [] ∧
      ∃ p, (empty.wholeText listed).toPatternWithin .unlimited = .ok p ∧
        ∀ t, p.isMatch t = true ↔ ∃ l ∈ listed.leaves, l.Accepts .standard t := by
  have hexact : ∀ l ∈ listed.leaves, l.IsExact .standard := by decide +kernel
  have hne : (Catalog.standard.gather listed).atoms ≠ [] := by decide +kernel
  exact ⟨hexact, hne, isMatch_wholeText_iff hexact hne⟩

end Builder
end PatternBuilder
