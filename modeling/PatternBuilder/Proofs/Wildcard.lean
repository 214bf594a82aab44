import PatternBuilder.Proofs.Contributions
import PatternBuilder.Proofs.ValueTexts

/-!
# The wildcard among other values

The wildcard is kept as a dot. It stays a wildcard as long as that dot is the only member of the
character class of its clause; beside other members it is a dot like any other. Which characters a
pattern of whole texts then matches is told by the leaves of its value.
-/

namespace PatternBuilder

open CharRange Dialect

namespace Leaf

/-- What a leaf says literally: a text, a number, a truth value, a symbol that names no preset. -/
def text? (catalog : Catalog) : Leaf → Option Text
  | .text t => some t
  | .int n => some (signedDecimal n.toInt)
  | .float x => some x.text
  | .bool b => some (toString b).toList
  | .symbol name => if (catalog.find? name).isSome then none else some name
  | .range _ _ => none

/-- The leaf has no character for a class but a dot: it is a text that is empty or has several
characters, a range that has none once it is split by case, a dot or the wildcard itself. -/
def StandsAside (catalog : Catalog) (l : Leaf) : Prop :=
  (∀ t ∈ l.text? catalog, t.length = 1 → t = ['.']) ∧
    (∀ r ∈ l.range?, ∀ s ∈ r.splitCase, s.isForward = false) ∧ ∀ p ∈ l.preset? catalog, p = .dot

/-- The leaf is the character, or a range that has it once it is split by case, or a preset that has
it. The wildcard is no set of characters here. -/
def Offers (catalog : Catalog) (l : Leaf) (c : Char) : Prop :=
  l.text? catalog = some [c] ∨ (∃ r ∈ l.range?, Covered r.splitCase c) ∨
    ∃ p ∈ l.preset? catalog, p ≠ .dot ∧ p.contains c = true

instance (catalog : Catalog) : DecidablePred (StandsAside catalog) := fun l =>
  inferInstanceAs (Decidable ((∀ t ∈ l.text? catalog, t.length = 1 → t = ['.']) ∧
    (∀ r ∈ l.range?, ∀ s ∈ r.splitCase, s.isForward = false) ∧ ∀ p ∈ l.preset? catalog, p = .dot))

inductive IsWrittenAs : Option Text → Option Atom → Prop where
  | nothing : IsWrittenAs none none
  | empty : IsWrittenAs (some []) none
  | char (c : Char) : IsWrittenAs (some [c]) (some (.char c))
  | literal {s : Text} : 2 ≤ s.plainCount →
      IsWrittenAs (some s) (some (.literal (Escape.general s)))

theorem isWrittenAs_ofText {s : Text} (h : s.IsFair) : IsWrittenAs (some s) (Atom.ofText? s) := by
  match s with
  | [] => exact .empty
  | [c] => exact .char c
  | c :: d :: s =>
    have hcount := h.resolve_left (by simp)
    have hplain : Atom.atMostOnePlain (c :: d :: s) = false :=
      decide_eq_false (by unfold Text.plainCount at hcount; omega)
    rw [Atom.ofText?_of_length (by simp), hplain, if_neg (by decide)]
    exact .literal hcount

theorem isWrittenAs_ofNumber {s : Text} (h : '\\' ∉ s) (hne : s ≠ []) :
    IsWrittenAs (some s) (some (Atom.ofNumber s)) := by
  match s with
  | [] => exact absurd rfl hne
  | [c] => exact .char c
  | c :: d :: s =>
    refine .literal ?_
    rw [Text.plainCount_of_no_backslash h]
    simp

variable {catalog : Catalog} {l : Leaf} {c : Char}

theorem isWrittenAs_atom (h : l.IsFair catalog) :
    IsWrittenAs (l.text? catalog) (l.atom? catalog) := by
  cases l with
  | text t => exact isWrittenAs_ofText h
  | int n =>
    exact isWrittenAs_ofNumber
      (backslash_not_mem_of_numerals fun _ => isNumeral_of_mem_signedDecimal)
      (signedDecimal_ne_nil _)
  | float x =>
    exact isWrittenAs_ofNumber
      (backslash_not_mem_of_numerals fun _ => Binary64.isNumeral_of_mem_text) x.text_ne_nil
  | bool b =>
    cases b with
    | true => exact .literal (s := ['t', 'r', 'u', 'e']) (by decide)
    | false => exact .literal (s := ['f', 'a', 'l', 's', 'e']) (by decide)
  | symbol name =>
    rw [text?, atom?]
    split
    · exact .nothing
    next hfind => exact isWrittenAs_ofText (h (by simpa using hfind))
  | range low high => exact .nothing

end Leaf

namespace Leaf.IsWrittenAs

variable {text : Option Text} {atom : Option Atom} {c : Char}

theorem accepts (h : IsWrittenAs text atom) :
    (∃ a ∈ atom, a.Accepts [c]) ↔ text = some [c] := by
  cases h with
  | nothing => simp
  | empty => simp
  | char d => simp [Atom.accepts_char, eq_comm]
  | @literal s hs =>
    have hlength : s.plainCount ≤ s.length := List.length_filter_le _ s
    have hne : s ≠ [] := by
      rintro rfl
      exact absurd hs (by decide)
    have hsingle : s ≠ [c] := by
      rintro rfl
      simp at hlength
      omega
    simp [(Atom.standsFor_literal hne).2, hsingle, Ne.symm hsingle]

theorem fitsClass (h : IsWrittenAs text atom) :
    (∀ a ∈ atom, a.fitsClass = true → a = .char '.') ↔ ∀ t ∈ text, t.length = 1 → t = ['.'] := by
  cases h with
  | nothing => simp
  | empty => simp
  | char d => simp [Atom.fitsClass]
  | @literal s hs =>
    have hlength : s.plainCount ≤ s.length := List.length_filter_le _ s
    have hne : s.length ≠ 1 := by omega
    simp [Atom.fitsClass_general hs, hne]

end Leaf.IsWrittenAs

theorem Preset.pieces_dot {p : Preset} :
    ((∀ q ∈ p.pieces, ∀ a ∈ q.atom?, a.fitsClass = true → a = .char '.') ∧
      ∀ q ∈ p.pieces, ∀ r ∈ q.range?, ∀ s ∈ r.splitCase, s.isForward = false) ↔ p = .dot := by
  cases p <;> decide

namespace Atom

variable {as : List Atom}

/-- A loose atom is the only one of its kind just if there is no other one. -/
theorem filter_eq_singleton {p : Atom → Bool} {a : Atom} (h : AreApart as) (ha : a.isLoose = true) :
    as.filter p = [a] ↔ (a ∈ as ∧ p a = true) ∧ ∀ b ∈ as, p b = true → b = a := by
  constructor
  · intro heq
    have hmem (b : Atom) : (b ∈ as ∧ p b = true) ↔ b = a := by
      rw [← List.mem_filter, heq, List.mem_singleton]
    exact ⟨(hmem a).mpr rfl, fun b hb hp => (hmem b).mp ⟨hb, hp⟩⟩
  · rintro ⟨⟨hmem, hp⟩, hall⟩
    have hrep : as.filter p = List.replicate (as.filter p).length a := by
      rw [List.eq_replicate_iff]
      exact ⟨rfl, fun b hb => hall b (List.mem_of_mem_filter hb) (List.mem_filter.mp hb).2⟩
    have hcount := (h.filter p).1 a ha
    rw [hrep, List.count_replicate_self] at hcount
    have hpos := List.length_pos_of_mem (List.mem_filter.mpr ⟨hmem, hp⟩)
    have hone : (as.filter p).length = 1 := by omega
    rw [hrep, hone]
    rfl

theorem accepts_anyChar : (({} : Modes).anyChar).Accepts fun t => ∃ c, t = [c] ∧ c ≠ '\n' := by
  refine (Node.accepts_single _).congr fun t => exists_congr fun c => and_congr_right' ?_
  rw [CharSet.contains_complement rfl]
  exact not_congr CharSet.contains_single

/-- A lone dot that means any character accepts each but the newline, beside the other atoms. -/
theorem accepts_node_bareDot (h : AreSound as) (hne : as ≠ []) (hnil : .literal [] ∉ as) :
    (Atom.node {} true as).Accepts fun t => (∃ a ∈ as, a.Accepts t) ∨
      (as.filter fitsClass = [.char '.'] ∧ ∃ c, t = [c] ∧ c ≠ '\n') := by
  by_cases hdot : as.filter fitsClass = [.char '.']
  · rw [Atom.node, hdot]
    refine (accepts_classBefore h accepts_anyChar).congr fun t => ?_
    rw [exists_accepts_iff as, hdot]
    constructor
    · rintro (hany | htext)
      · exact .inr ⟨rfl, hany⟩
      · exact .inl (.inr htext)
    · rintro ((⟨a, ha, hat⟩ | htext) | ⟨-, hany⟩)
      · obtain rfl := List.mem_singleton.mp ha
        exact .inl ⟨'.', accepts_char.mp hat, by decide⟩
      · exact .inr htext
      · exact .inl hany
  · have hclass : classNode? {} true (as.filter fitsClass) =
        classNode? {} false (as.filter fitsClass) := by
      unfold classNode?
      split <;> simp_all
    rw [Atom.node, hclass]
    exact (accepts_node h hne hnil).congr fun t => by simp [hdot]

/-- Behind ranges without characters a class has what is loose. -/
theorem forall_combine {loose : List Atom} {rs : List CharRange} :
    (∀ a ∈ combine loose (canonical rs), a.fitsClass = true → a = .char '.') ↔
      (∀ a ∈ loose, a.fitsClass = true → a = .char '.') ∧ ∀ r ∈ rs, r.isForward = false := by
  have hforward {r : CharRange} : r.isForward = true ↔ r.contains r.lo = true := by
    rw [isForward_iff, contains_iff]
    omega
  constructor
  · intro h
    have hcovered : ∀ c, ¬Covered rs c := by
      rintro c hc
      obtain ⟨r, hr, -⟩ := covered_canonical.mpr hc
      cases h _ (mem_combine.mpr (.inr ⟨r, hr, rfl⟩)) rfl
    refine ⟨fun a ha => h a (mem_combine.mpr (.inl ⟨ha, ?_⟩)), fun r hr => ?_⟩
    · cases a with
      | char c =>
        rw [isCharIn, List.any_eq_false]
        intro r hr hc
        exact hcovered c (covered_canonical.mp ⟨r, hr, hc⟩)
      | _ => rfl
    · rw [← Bool.not_eq_true, hforward]
      exact fun hc => hcovered r.lo ⟨r, hr, hc⟩
  · rintro ⟨hloose, hrs⟩ a ha hfits
    rcases mem_combine.mp ha with ⟨ha, -⟩ | ⟨r, hr, rfl⟩
    · exact hloose a ha hfits
    · obtain ⟨s, hs, hc⟩ := covered_canonical.mp
        ⟨r, hr, hforward.mp (isForward_of_mem_canonical hr)⟩
      have hreversed := hrs s hs
      rw [contains_iff] at hc
      rw [← Bool.not_eq_true, isForward_iff] at hreversed
      omega

end Atom

namespace Catalog

variable {catalog : Catalog} {v : Value} {ls : List Leaf} {c : Char}

theorem forall_looseAtoms {P : Atom → Prop} : (∀ a ∈ catalog.looseAtoms ls, P a) ↔
    (∀ l ∈ ls, ∀ a ∈ l.atom? catalog, P a) ∧
      ∀ p ∈ catalog.presets ls, ∀ q ∈ p.pieces, ∀ a ∈ q.atom?, P a := by
  simp only [looseAtoms, List.forall_mem_append, List.mem_filterMap, List.mem_flatMap,
    forall_exists_index, and_imp, Option.mem_def]
  exact and_congr ⟨fun h l hl a ha => h a l hl ha, fun h a l hl ha => h l hl a ha⟩
    ⟨fun h p hp q hq a ha => h a q p hp hq ha, fun h a q p hp hq ha => h p hp q hq a ha⟩

theorem forall_ranges {P : CharRange → Prop} : (∀ r ∈ catalog.ranges ls, P r) ↔
    (∀ l ∈ ls, ∀ r ∈ l.range?, ∀ s ∈ r.splitCase, P s) ∧
      ∀ p ∈ catalog.presets ls, ∀ q ∈ p.pieces, ∀ r ∈ q.range?, ∀ s ∈ r.splitCase, P s := by
  simp only [ranges, List.mem_flatMap, List.mem_append, List.mem_filterMap, or_and_right, exists_or,
    or_imp, forall_and, forall_exists_index, and_imp, Option.mem_def]
  exact and_congr
    ⟨fun h l hl r hr s hs => h s r l hl hr hs, fun h s r l hl hr hs => h l hl r hr s hs⟩
    ⟨fun h p hp q hq r hr s hs => h s r q p hp hq hr hs,
      fun h s r q p hp hq hr hs => h p hp q hq r hr s hs⟩

/-- The dot of a wildcard has its class to itself as long as all leaves stand aside. -/
theorem filter_fitsClass_gather (hv : v.IsFair catalog)
    (hdot : ∃ l ∈ v.leaves, l.preset? catalog = some .dot) :
    (catalog.gather v).atoms.filter Atom.fitsClass = [.char '.'] ↔
      ∀ l ∈ v.leaves, l.StandsAside catalog := by
  have hpresets : (∀ p ∈ catalog.presets v.leaves, p = .dot) ↔
      ∀ l ∈ v.leaves, ∀ p ∈ l.preset? catalog, p = .dot :=
    ⟨fun h l hl p hp => h p (mem_presets.mpr ⟨l, hl, hp⟩), fun h p hp => by
      obtain ⟨l, hl, hpreset⟩ := mem_presets.mp hp
      exact h l hl p hpreset⟩
  have hatoms : (∀ l ∈ v.leaves, ∀ a ∈ l.atom? catalog, a.fitsClass = true → a = .char '.') ↔
      ∀ l ∈ v.leaves, ∀ t ∈ l.text? catalog, t.length = 1 → t = ['.'] :=
    forall₂_congr fun l hl => (Leaf.isWrittenAs_atom (hv l hl)).fitsClass
  have hall : (∀ a ∈ (catalog.gather v).atoms, a.fitsClass = true → a = .char '.') ↔
      ∀ l ∈ v.leaves, l.StandsAside catalog := by
    rw [gather, gatherLeaves, Atom.forall_combine, forall_looseAtoms, forall_ranges,
      and_and_and_comm, hatoms, ← forall₂_and (p := (· ∈ catalog.presets v.leaves))]
    simp only [Preset.pieces_dot, hpresets, Leaf.StandsAside, forall_and, and_assoc]
  rw [Atom.filter_eq_singleton (areSound_gather hv).apart rfl, hall, and_iff_right_iff_imp]
  intro h
  obtain ⟨l, hl, hpreset⟩ := hdot
  have hloose : .char '.' ∈ catalog.looseAtoms v.leaves :=
    List.mem_append_right _ (List.mem_filterMap.mpr ⟨.wildcard, List.mem_flatMap.mpr
      ⟨.dot, mem_presets.mpr ⟨l, hl, hpreset⟩, List.mem_singleton.mpr rfl⟩, rfl⟩)
  refine ⟨?_, rfl⟩
  cases hin : (Atom.char '.').isCharIn (canonical (catalog.ranges v.leaves)) with
  | false => exact Atom.mem_combine.mpr (.inl ⟨hloose, hin⟩)
  | true =>
    obtain ⟨r, hr, -⟩ := List.any_eq_true.mp hin
    cases hall.mpr h _ (Atom.mem_combine.mpr (.inr ⟨r, hr, rfl⟩)) rfl

theorem wildcard_gather_of_dot (hdot : ∃ l ∈ v.leaves, l.preset? catalog = some .dot) :
    (catalog.gather v).wildcard = true :=
  wildcard_gatherLeaves_iff.mpr hdot

theorem accepts_gather_single (hv : v.IsFair catalog)
    (hdot : ∃ l ∈ v.leaves, l.preset? catalog = some .dot) :
    (∃ a ∈ (catalog.gather v).atoms, a.Accepts [c]) ↔
      c = '.' ∨ ∃ l ∈ v.leaves, l.Offers catalog c := by
  have hsingle {P : Char → Prop} : (∃ d, [c] = [d] ∧ P d) ↔ P c := by simp
  rw [accepts_gather_parts]
  simp only [hsingle]
  constructor
  · rintro ⟨l, hl, hatom | hrange | ⟨p, hp, q, hq, hc⟩⟩
    · exact .inr ⟨l, hl, .inl ((Leaf.isWrittenAs_atom (hv l hl)).accepts.mp hatom)⟩
    · exact .inr ⟨l, hl, .inr (.inl hrange)⟩
    · by_cases hne : p = .dot
      · subst hne
        obtain rfl := List.mem_singleton.mp hq
        exact .inl hc
      · exact .inr ⟨l, hl, .inr (.inr ⟨p, hp, hne, (Preset.contains_pieces hne).mp ⟨q, hq, hc⟩⟩)⟩
  · rintro (rfl | ⟨l, hl, htext | hrange | ⟨p, hp, hne, hc⟩⟩)
    · obtain ⟨l, hl, hpreset⟩ := hdot
      exact ⟨l, hl, .inr (.inr ⟨.dot, hpreset, .wildcard, List.mem_singleton.mpr rfl, rfl⟩)⟩
    · exact ⟨l, hl, .inl ((Leaf.isWrittenAs_atom (hv l hl)).accepts.mpr htext)⟩
    · exact ⟨l, hl, .inr (.inl hrange)⟩
    · exact ⟨l, hl, .inr (.inr ⟨p, hp, (Preset.contains_pieces hne).mpr hc⟩)⟩

end Catalog

namespace Builder

variable {catalog : Catalog} {v : Value}

/-- With the wildcard in its value, a pattern of whole texts matches every text of one character
but the newline, as long as the other leaves stand aside. Else the wildcard is one dot among the
characters that they offer. -/
theorem isMatch_wholeText_wildcard (hv : v.IsFair catalog)
    (hdot : ∃ l ∈ v.leaves, l.preset? catalog = some .dot) :
    ∃ p, ((ofCatalog catalog).wholeText v).toPatternWithin .unlimited = .ok p ∧
      ∀ c, c ≠ '\n' → (p.isMatch [c] = true ↔ (∀ l ∈ v.leaves, l.StandsAside catalog) ∨
        c = '.' ∨ ∃ l ∈ v.leaves, l.Offers catalog c) := by
  have hne : (catalog.gather v).atoms ≠ [] := by
    intro hnil
    obtain ⟨a, ha, -⟩ := (Catalog.accepts_gather_single hv hdot).mpr (.inl rfl)
    rw [hnil] at ha
    cases ha
  have haccepts := Atom.accepts_node_bareDot (catalog.areSound_gather hv) hne
    (Catalog.literal_nil_not_mem_gather hv)
  rw [← Catalog.wildcard_gather_of_dot hdot] at haccepts
  obtain ⟨p, hp, hmatch⟩ := isMatch_wholeText hv haccepts
  refine ⟨p, hp, fun c hc => ?_⟩
  rw [hmatch, Catalog.accepts_gather_single hv hdot, Catalog.filter_fitsClass_gather hv hdot,
    or_comm]
  have hany : ∃ d, [c] = [d] ∧ d ≠ '\n' := ⟨c, rfl, hc⟩
  simp only [hany, and_true]

def wildcardAside : Value :=
  .list [.ofText ['a', 'b'], .list [.ofSymbol ['a', 'n', 'y'], .leaf (.int 12)],
    .ofCharRange 'z' 'x']

theorem isMatch_wholeText_wildcard_aside :
    (wildcardAside.IsFair .standard ∧ ∃ l ∈ wildcardAside.leaves, l.preset? .standard = some .dot) ∧
      ∃ p, (empty.wholeText wildcardAside).toPatternWithin .unlimited = .ok p ∧
        ∀ c, c ≠ '\n' → p.isMatch [c] = true := by
  have hfair : wildcardAside.IsFair .standard := by decide +kernel
  have hdot : ∃ l ∈ wildcardAside.leaves, l.preset? .standard = some .dot := by decide +kernel
  have haside : ∀ l ∈ wildcardAside.leaves, l.StandsAside .standard := by decide +kernel
  obtain ⟨p, hp, hmatch⟩ := isMatch_wholeText_wildcard hfair hdot
  exact ⟨⟨hfair, hdot⟩, p, hp, fun c hc => (hmatch c hc).mpr (.inl haside)⟩

/-- Beside a letter the wildcard is a dot, and another letter does not match. -/
theorem isMatch_wholeText_wildcard_letter :
    ¬∀ v : Value, v.IsFair .standard → (∃ l ∈ v.leaves, l.preset? .standard = some .dot) →
      ∃ p, (empty.wholeText v).toPatternWithin .unlimited = .ok p ∧
        ∀ c, c ≠ '\n' → p.isMatch [c] = true := by
  intro h
  have hresult : ((empty.wholeText (.list [.ofSymbol ['d', 'o', 't'], .ofChar 'a'])).toPatternWithin
      .unlimited).toOption.map (·.isMatch ['b']) = some false := by decide +kernel
  obtain ⟨p, hp, hmatch⟩ := h (.list [.ofSymbol ['d', 'o', 't'], .ofChar 'a']) (by decide +kernel)
    (by decide +kernel)
  rw [hp] at hresult
  have hfalse : p.isMatch ['b'] = false := Option.some.inj hresult
  rw [hmatch 'b' (by decide)] at hfalse
  cases hfalse

end Builder

end PatternBuilder
