import PatternBuilder.Proofs.ClassEscapes
import PatternBuilder.Proofs.Repeating
import PatternBuilder.Proofs.ValueTexts

/-!
# The round trip of a text

Whether the pattern of a whole text matches that text and no other. It does for every text except
those of several characters of which all but one are backslashes, and the one means something
outside of a class and nothing in one.
-/

namespace PatternBuilder

open Dialect

namespace Dialect

namespace Node

theorem members_ofItems_cons (n : Node) (ns : List Node) (base : Nat) :
    (ofItems (n :: ns)).members base =
      n.members base ++ (ofItems ns).members (base + n.captureCount) := by
  cases ns with
  | nil => simp [ofItems, members]
  | cons m ms => rfl

theorem captureCount_ofItems_cons (n : Node) (ns : List Node) :
    (ofItems (n :: ns)).captureCount = n.captureCount + (ofItems ns).captureCount := by
  cases ns <;> rfl

theorem members_ofItems_append (ms ns : List Node) (base : Nat) :
    (ofItems (ms ++ ns)).members base =
      (ofItems ms).members base ++ (ofItems ns).members (base + (ofItems ms).captureCount) := by
  induction ms generalizing base with
  | nil => rfl
  | cons m ms ih =>
    rw [List.cons_append, members_ofItems_cons, ih, members_ofItems_cons, List.append_assoc,
      captureCount_ofItems_cons, Nat.add_assoc]

variable {R S : Cursor → Cursor → Prop} {ms ns : List Node}

/-- Wherever the items stand, they are matched as the relation says. -/
def Carries (ns : List Node) (R : Cursor → Cursor → Prop) : Prop :=
  ∀ base, Carry ((ofItems ns).members base) R

theorem Carries.append (hm : Carries ms R) (hn : Carries ns S) :
    Carries (ms ++ ns) fun c d => ∃ e, R c e ∧ S e d := by
  intro base
  rw [members_ofItems_append]
  exact (hm base).append (hn _)

theorem Carries.congr (h : Carries ns R) (hiff : ∀ c d, R c d ↔ S c d) : Carries ns S :=
  fun base => (h base).congr hiff

theorem carries_anchor (a : Anchor) : Carries [.anchor a] fun c d => d = c ∧ a.holds c = true :=
  fun base => (anchor a).carry_members rfl base

theorem carries_single (x : CharSet) : Carries [.single x] fun c d => c.read? x = some d :=
  fun base => (single x).carry_members rfl base

theorem carries_text (t : Text) :
    Carries (t.map ({} : Modes).charNode) fun c d => c.Passes t d := by
  intro base
  have hsimple : (ofItems (t.map ({} : Modes).charNode)).isSimple = true :=
    isHereditary_isSimple.ofItems (Modes.isSimple_text t)
  refine (carry_members hsimple base).congr fun c d => ?_
  rw [Modes.accepts_text t c d]
  simp

theorem Carries.whole (h : Carries ns R) :
    Carries ([.anchor .textStart] ++ ns ++ [.anchor .textEnd]) fun c d =>
      c.passed = [] ∧ d.rest = [] ∧ R c d := by
  refine (((carries_anchor .textStart).append h).append (carries_anchor .textEnd)).congr ?_
  intro c d
  simp only [Anchor.holds, List.isEmpty_iff]
  constructor
  · rintro ⟨_, ⟨_, ⟨rfl, hpassed⟩, hR⟩, rfl, hrest⟩
    exact ⟨hpassed, hrest, hR⟩
  · rintro ⟨hpassed, hrest, hR⟩
    exact ⟨d, ⟨c, ⟨rfl, hpassed⟩, hR⟩, rfl, hrest⟩

end Node
end Dialect

namespace Text

variable {s : Text}

theorem eq_of_plainCount (hs : s.plainCount ≤ 1) {c d : Char} (hc : c ∈ s) (hd : d ∈ s)
    (hcs : c ≠ '\\') (hds : d ≠ '\\') : c = d := by
  have hcmem : c ∈ s.filter (· != '\\') := List.mem_filter.mpr ⟨hc, by simpa using hcs⟩
  have hdmem : d ∈ s.filter (· != '\\') := List.mem_filter.mpr ⟨hd, by simpa using hds⟩
  unfold plainCount at hs
  match hfilter : s.filter (· != '\\') with
  | [] => simp [hfilter] at hcmem
  | [e] =>
    rw [hfilter] at hcmem hdmem
    exact (List.mem_singleton.mp hcmem).trans (List.mem_singleton.mp hdmem).symm
  | _ :: _ :: _ => simp [hfilter] at hs

theorem mem_of_mem_inClass {d : Char} (h : d ∈ Escape.inClass s) : d = '\\' ∨ d ∈ s := by
  obtain ⟨c, hc, hd⟩ := List.mem_flatMap.mp h
  unfold Escape.escapeChar at hd
  split at hd
  · rcases List.mem_cons.mp hd with rfl | hd
    · exact .inl rfl
    · exact .inr (List.mem_singleton.mp hd ▸ hc)
  · exact .inr (List.mem_singleton.mp hd ▸ hc)

theorem mem_of_hasOpenBound {t : Text} (h : hasOpenBound t = true) : '\x7b' ∈ t ∧ ',' ∈ t := by
  induction t with
  | nil => cases h
  | cons c t ih =>
    rw [hasOpenBound, Bool.or_eq_true] at h
    rcases h with h | h
    · simp only [Bool.and_eq_true, beq_iff_eq] at h
      exact ⟨by simp [h.1], List.mem_cons_of_mem c (List.mem_of_mem_head? h.2)⟩
    · exact ⟨List.mem_cons_of_mem c (ih h).1, List.mem_cons_of_mem c (ih h).2⟩

/-- The text as it is written between the anchors of the whole text when it is escaped for a
class. -/
def anchored (s : Text) : Text := '\\' :: 'A' :: (Escape.inClass s ++ ['\\', 'z'])

theorem dialectText_anchored (hs : s.plainCount ≤ 1) :
    Pattern.dialectText s.anchored .empty = s.anchored := by
  have hopen : hasOpenBound s.anchored = false := by
    rw [Bool.eq_false_iff]
    intro hopen
    obtain ⟨hbrace, hcomma⟩ := mem_of_hasOpenBound hopen
    have hmem : ∀ d ∈ s.anchored, d ∉ ['\\', 'A', 'z'] → d ∈ s := by
      intro d hd hne
      simp only [anchored, List.mem_cons, List.mem_append, List.not_mem_nil, or_false, not_or]
        at hd hne
      rcases hd with hd | hd | hd | hd | hd
      · exact absurd hd hne.1
      · exact absurd hd hne.2.1
      · exact (mem_of_mem_inClass hd).resolve_left hne.1
      · exact absurd hd hne.1
      · exact absurd hd hne.2.2
    have hsame := eq_of_plainCount hs (hmem _ hbrace (by decide)) (hmem _ hcomma (by decide))
      (by decide) (by decide)
    exact absurd hsame (by decide)
  have hempty : Flags.empty.isEmpty = true := rfl
  rw [Pattern.dialectText, withLowerBounds, hopen]
  simp [hempty]

end Text

namespace Builder

variable {s : Text}

theorem gather_leaf {catalog : Catalog} {l : Leaf} {a : Atom} (hatom : l.atom? catalog = some a)
    (hpreset : l.preset? catalog = none) (hrange : l.range? = none) :
    catalog.gather (.leaf l) = ⟨[a], false⟩ := by
  have hpresets : catalog.presets [l] = [] := by
    simp [Catalog.presets, hpreset]
  have hloose : catalog.looseAtoms [l] = [a] := by
    simp [Catalog.looseAtoms, hatom, hpresets]
  have hranges : catalog.ranges [l] = [] := by
    simp [Catalog.ranges, hrange, hpresets]
  have hcombine : Atom.combine [a] [] = [a] := by
    cases a <;> rfl
  have hcanonical : CharRange.canonical [] = [] := rfl
  rw [Catalog.gather, Value.leaves_leaf, Catalog.gatherLeaves, hloose, hranges, hpresets,
    hcanonical, hcombine]
  rfl

theorem gather_ofText (catalog : Catalog) {a : Atom} (h : Atom.ofText? s = some a) :
    catalog.gather (.ofText s) = ⟨[a], false⟩ := gather_leaf h rfl rfl

/-- A text of several characters that is all backslashes but for one at most is escaped as if it
were to stand in a class. -/
theorem ofText?_of_plainCount (hlength : 2 ≤ s.length) (hs : s.plainCount ≤ 1) :
    Atom.ofText? s = some (.literal (Escape.inClass s)) := by
  have hplain : Atom.atMostOnePlain s = true := decide_eq_true hs
  rw [Atom.ofText?_of_length hlength, hplain, if_pos rfl]

theorem source_wholeText_single (catalog : Catalog) {v : Value} {a : Atom} {t : Text}
    (hgather : catalog.gather v = ⟨[a], false⟩)
    (halternatives : Atom.alternatives false [a] = [t]) :
    ((ofCatalog catalog).wholeText v).source = '\\' :: 'A' :: (t ++ ['\\', 'z']) := by
  let c : Clause Text := ⟨.atoms [a],
    gatheredOptions ⟨[a], false⟩ (.enclosedBy Anchor.textStart Anchor.textEnd), 0⟩
  have hclauses : ((ofCatalog catalog).wholeText v).clauses.map
      (Clause.map (render .empty)) = [c] := by
    simp [wholeText, append, push, ofCatalog, hgather, c, Clause.map, Body.map, size]
  have hslots : Layout.slots [c] = [.entry c none { solo := true }] :=
    Layout.slots_singleton rfl (by simp [c, Clause.isRepeater, Clause.hasContent, Body.hasContent])
  have hsource : ((ofCatalog catalog).wholeText v).source =
      ((ofCatalog catalog).wholeText v).render .empty := rfl
  have hlong : c.options.longTexts = false := by
    have hfew := List.length_filter_le (fun a : Atom => !a.fitsClass) [a]
    exact decide_eq_false (Nat.not_lt.mpr hfew)
  have htext : c.options.atomsText .empty false [a] = c.options.dress false t := by
    have hfold : Atom.foldWhen Flags.empty.ignoreCase [a] = [a] := rfl
    have hdot : c.options.bareDot = false := rfl
    rw [Options.atomsText, hfold, hdot, halternatives, hlong]
    simp [List.intercalate]
  rw [hsource, render_eq, hclauses, sequenceText, hslots]
  change Scope.enclose _ (c.options.atomsText .empty false [a]) ++ [] = _
  have hdress : c.options.dress false t = '\\' :: 'A' :: (t ++ []) ++ ['\\', 'z'] := rfl
  rw [htext, hdress]
  simp [Scope.enclose]

theorem source_wholeText_ofText (catalog : Catalog) (hlength : 2 ≤ s.length)
    (hs : s.plainCount ≤ 1) : ((ofCatalog catalog).wholeText (.ofText s)).source = s.anchored := by
  have hgather := gather_ofText catalog (ofText?_of_plainCount hlength hs)
  refine source_wholeText_single catalog hgather ?_
  have hfits : (Atom.literal (Escape.inClass s)).fitsClass = true := by
    have hcount : (Escape.inClass s).plainCount ≤ 1 := by
      rw [Escape.inClass, Escape.plainCount_escapeAll]
      exact hs
    exact decide_eq_true hcount
  simp [Atom.alternatives, hfits, Atom.classText?]

section

variable (catalog : Catalog) (hlength : 2 ≤ s.length) (hs : s.plainCount ≤ 1)
include hlength hs

theorem parse_wholeText_ofText :
    Node.parse (Pattern.dialectText ((ofCatalog catalog).wholeText (.ofText s)).source .empty) =
      Node.ofLexemes ([.anchor .textStart] ++ s.flatMap misread ++ [.anchor .textEnd]) := by
  rw [source_wholeText_ofText catalog hlength hs, Text.dialectText_anchored hs, Node.parse,
    Text.anchored, lexemes_inClass hs]
  rfl

theorem toPattern_of_reads {ns : List Node} {S : Cursor → Cursor → Prop}
    (hreads : Reads (s.flatMap misread) ns) (hns : Node.Carries ns S) :
    ∃ p, ((ofCatalog catalog).wholeText (.ofText s)).toPatternWithin .unlimited = .ok p ∧
      ∀ t, p.isMatch t = true ↔ ∃ d, d.rest = [] ∧ S (.start t) d := by
  have hparse := (parse_wholeText_ofText catalog hlength hs).trans
    (((Reads.anchor .textStart).append hreads).append (.anchor .textEnd)).ofLexemes
  obtain ⟨p, hp, hmatch⟩ := Pattern.isMatch_of_carry hparse (hns.whole 0)
  refine ⟨p, toPatternWithin_eq_ok.mpr hp, fun t => ?_⟩
  exact (hmatch t).trans (Cursor.exists_whole (fun _ _ => Iff.rfl) t)

theorem toPattern_of_error {e : SyntaxError}
    (h : Node.ofLexemes ([.anchor .textStart] ++ s.flatMap misread ++ [.anchor .textEnd]) =
      .error e) (p : Pattern) :
    ((ofCatalog catalog).wholeText (.ofText s)).toPatternWithin .unlimited ≠ .ok p := by
  intro hp
  have hparse := (parse_wholeText_ofText catalog hlength hs).trans h
  rw [toPatternWithin_eq_ok] at hp
  exact absurd ((Pattern.ofText_error hparse).symm.trans hp) nofun

end

/-- The pattern of the whole text compiles, and matches the text and no other. -/
def RoundTrips (catalog : Catalog) (s : Text) : Prop :=
  ∃ p, ((ofCatalog catalog).wholeText (.ofText s)).toPatternWithin .unlimited = .ok p ∧
    ∀ t, p.isMatch t = true ↔ t = s

section

variable {catalog : Catalog} (hlength : 2 ≤ s.length) (hs : s.plainCount ≤ 1)
include hlength hs

theorem roundTrips_of_text (h : ∀ c ∈ s, c ∉ outsiders) : RoundTrips catalog s := by
  obtain ⟨p, hp, hmatch⟩ := toPattern_of_reads catalog hlength hs (.text h) (Node.carries_text s)
  exact ⟨p, hp, fun t => (hmatch t).trans Cursor.exists_passes⟩

theorem not_roundTrips_of_error {e : SyntaxError}
    (h : Node.ofLexemes ([.anchor .textStart] ++ s.flatMap misread ++ [.anchor .textEnd]) =
      .error e) : ¬RoundTrips catalog s := by
  rintro ⟨p, hp, -⟩
  exact toPattern_of_error catalog hlength hs h p hp

/-- Where a match goes across backslashes only, the text is not matched. -/
theorem not_roundTrips_of_backslashes {ns : List Node} {S : Cursor → Cursor → Prop}
    (hreads : Reads (s.flatMap misread) ns) (hns : Node.Carries ns S)
    (hS : ∀ c d, S c d → ∃ t, (∀ y ∈ t, y = '\\') ∧ c.Passes t d) {c : Char} (hc : c ∈ s)
    (hne : c ≠ '\\') : ¬RoundTrips catalog s := by
  rintro ⟨p, hp, hmatch⟩
  obtain ⟨q, hq, hreaches⟩ := toPattern_of_reads catalog hlength hs hreads hns
  obtain rfl : p = q := Except.ok.inj (hp.symm.trans hq)
  obtain ⟨d, hrest, hd⟩ := (hreaches s).mp ((hmatch s).mpr rfl)
  obtain ⟨t, hall, hpasses⟩ := hS _ _ hd
  obtain rfl := Cursor.exists_passes.mp ⟨d, hrest, hpasses⟩
  exact hne (hall c hc)

theorem not_roundTrips_of_item {us vs : Text} {ks : List Lexeme} {x : Node}
    {Q : Cursor → Cursor → Prop} (hus : ∀ d ∈ us, d = '\\') (hvs : ∀ d ∈ vs, d = '\\')
    (hflat : s.flatMap misread = us.flatMap misread ++ ks ++ vs.flatMap misread)
    (hreads : Reads ks [x]) (hx : Node.Carries [x] Q)
    (hQ : ∀ c d, Q c d → ∃ t, (∀ y ∈ t, y = '\\') ∧ c.Passes t d) {c : Char} (hc : c ∈ s)
    (hne : c ≠ '\\') : ¬RoundTrips catalog s := by
  have hall : Reads (s.flatMap misread)
      (us.map ({} : Modes).charNode ++ [x] ++ vs.map ({} : Modes).charNode) := by
    rw [hflat]
    exact ((Reads.backslashes hus).append hreads).append (.backslashes hvs)
  have hcarries := ((Node.carries_text us).append hx).append (Node.carries_text vs)
  refine not_roundTrips_of_backslashes hlength hs hall hcarries ?_ hc hne
  rintro a d ⟨f, ⟨e, hue, hef⟩, hvd⟩
  obtain ⟨t, ht, hpasses⟩ := hQ e f hef
  refine ⟨us ++ t ++ vs, ?_, ?_⟩
  · intro y hy
    rcases List.mem_append.mp hy with hy | hy
    · rcases List.mem_append.mp hy with hy | hy
      · exact hus y hy
      · exact ht y hy
    · exact hvs y hy
  · exact Cursor.passes_append.mpr ⟨f, Cursor.passes_append.mpr ⟨e, hue, hpasses⟩, hvd⟩

end

section

variable {catalog : Catalog} {us vs : Text} (hus : ∀ d ∈ us, d = '\\') (hvs : ∀ d ∈ vs, d = '\\')

include hus hvs

theorem not_roundTrips_paren {c : Char} (hc : c ∈ ['(', ')'])
    (hlength : 2 ≤ (us ++ c :: vs).length) (hs : Text.plainCount (us ++ c :: vs) ≤ 1) :
    ¬RoundTrips catalog (us ++ c :: vs) := by
  have hbefore : Reads ([.anchor .textStart] ++ us.flatMap misread) _ :=
    (Reads.anchor .textStart).append (.backslashes hus)
  have hafter : Reads (vs.flatMap misread ++ [.anchor .textEnd]) _ :=
    (Reads.backslashes hvs).append (.anchor .textEnd)
  have hflat : ∀ k, misread c = [k] → [.anchor .textStart] ++ (us ++ c :: vs).flatMap misread ++
      [.anchor .textEnd] = ([.anchor .textStart] ++ us.flatMap misread) ++
        k :: (vs.flatMap misread ++ [.anchor .textEnd]) := by
    intro k hk
    simp [hk]
  simp only [List.mem_cons, List.not_mem_nil, or_false] at hc
  rcases hc with rfl | rfl
  · refine not_roundTrips_of_error hlength hs (e := .unclosedGroup) ?_
    rw [hflat _ rfl]
    exact hbefore.ofLexemes_opening hafter .capture
  · refine not_roundTrips_of_error hlength hs (e := .unopenedGroup) ?_
    rw [hflat _ rfl]
    exact hbefore.ofLexemes_closing _

/-- The backslashes before a bar are an alternative by themselves. -/
theorem not_roundTrips_bar (hlength : 2 ≤ (us ++ '|' :: vs).length)
    (hs : Text.plainCount (us ++ '|' :: vs) ≤ 1) : ¬RoundTrips catalog (us ++ '|' :: vs) := by
  have hbefore := (Reads.anchor .textStart).append (.backslashes hus)
  have hafter := (Reads.backslashes hvs).append (.anchor .textEnd)
  have hflat : [.anchor .textStart] ++ (us ++ '|' :: vs).flatMap misread ++ [.anchor .textEnd] =
      ([.anchor .textStart] ++ us.flatMap misread) ++
        .bar :: (vs.flatMap misread ++ [.anchor .textEnd]) := by
    simp [misread]
  have hparse := parse_wholeText_ofText catalog hlength hs
  rw [hflat, hbefore.ofLexemes_bar hafter] at hparse
  have hleft : (Node.ofItems ([.anchor .textStart] ++ us.map ({} : Modes).charNode)).isSimple =
      true := by
    apply Node.isHereditary_isSimple.ofItems
    simp only [List.singleton_append, List.forall_mem_cons]
    exact ⟨rfl, Modes.isSimple_text us⟩
  have hright : (Node.ofItems (vs.map ({} : Modes).charNode ++ [.anchor .textEnd])).isSimple =
      true := by
    apply Node.isHereditary_isSimple.ofItems
    simp only [List.forall_mem_append, List.forall_mem_singleton]
    exact ⟨Modes.isSimple_text vs, rfl⟩
  rintro ⟨p, hp, hmatch⟩
  obtain ⟨q, hq, hreaches⟩ := Pattern.isMatch_unlimited hparse (by
    rw [Node.isSimple, hleft, hright]
    rfl)
  obtain rfl : p = q := Except.ok.inj (hp.symm.trans (toPatternWithin_eq_ok.mpr hq))
  obtain ⟨d, -, hpasses⟩ := Cursor.exists_passes.mpr (Eq.refl us)
  have hreach : (Node.ofItems ([.anchor .textStart] ++ us.map ({} : Modes).charNode)).Reaches
      (.start us) d := by
    apply ((Node.ofItems_cons_alike _ _).reaches _ _).mpr
    exact ⟨.start us, ⟨rfl, rfl⟩, (Modes.accepts_text us _ _).mpr ⟨us, rfl, hpasses⟩⟩
  have hother := (hmatch us).mp ((hreaches us).mpr ⟨[], us, rfl, d, .inl hreach⟩)
  simp at hother

theorem not_roundTrips_dot (hlength : 2 ≤ (us ++ '.' :: vs).length)
    (hs : Text.plainCount (us ++ '.' :: vs) ≤ 1) : ¬RoundTrips catalog (us ++ '.' :: vs) := by
  have hflat : (us ++ '.' :: vs).flatMap misread =
      us.flatMap misread ++ [.single (CharSet.single '\n').complement] ++ vs.flatMap misread := by
    simp [misread]
  have hreads := ((Reads.backslashes hus).append
    (.single (CharSet.single '\n').complement)).append (.backslashes hvs)
  have hcarries := ((Node.carries_text us).append (Node.carries_single
    (CharSet.single '\n').complement)).append (Node.carries_text vs)
  rintro ⟨p, hp, hmatch⟩
  obtain ⟨q, hq, hreaches⟩ := toPattern_of_reads catalog hlength hs (hflat ▸ hreads) hcarries
  obtain rfl : p = q := Except.ok.inj (hp.symm.trans hq)
  obtain ⟨d, hrest, hpasses⟩ := Cursor.exists_passes.mpr (Eq.refl (us ++ ['a'] ++ vs))
  obtain ⟨f, hf, hvd⟩ := Cursor.passes_append.mp hpasses
  obtain ⟨e, hue, hef⟩ := Cursor.passes_append.mp hf
  have hread : e.read? (CharSet.single '\n').complement = some f :=
    Cursor.read?_eq_some.mpr ⟨'a', by decide, hef⟩
  have hother := (hmatch _).mp ((hreaches _).mpr ⟨d, hrest, f, ⟨e, hue, hread⟩, hvd⟩)
  simp at hother

theorem not_roundTrips_dollar (hlength : 2 ≤ (us ++ '$' :: vs).length)
    (hs : Text.plainCount (us ++ '$' :: vs) ≤ 1) : ¬RoundTrips catalog (us ++ '$' :: vs) := by
  have hflat : (us ++ '$' :: vs).flatMap misread =
      us.flatMap misread ++ [.anchor .textEnd] ++ vs.flatMap misread := by
    simp [misread]
  refine not_roundTrips_of_item hlength hs hus hvs hflat (.anchor .textEnd)
    (Node.carries_anchor .textEnd) ?_ (c := '$') (by simp) (by decide)
  rintro c _ ⟨rfl, -⟩
  exact ⟨[], by simp, Cursor.passes_nil.mpr rfl⟩

omit hus hvs in
theorem exists_carries_times {min : Nat} {max : Option Nat}
    (h : (min, max) ∈ [(0, some 1), (0, none), (1, none)]) :
    ∃ Q, Node.Carries [.times (.single (.single '\\')) min max true] Q ∧
      ∀ c d, Q c d → ∃ t, (∀ y ∈ t, y = '\\') ∧ c.Passes t d := by
  have hruns : ∀ min, ∃ Q, Node.Carries [.times (.single (.single '\\')) min none true] Q ∧
      ∀ c d, Q c d → ∃ t, (∀ y ∈ t, y = '\\') ∧ c.Passes t d := by
    intro min
    refine ⟨_, Node.carry_times (.single '\\') min, ?_⟩
    rintro c d ⟨t, -, hall, hpasses⟩
    exact ⟨t, fun y hy => CharSet.contains_single.mp (hall y hy), hpasses⟩
  simp only [List.mem_cons, Prod.mk.injEq, List.not_mem_nil, or_false] at h
  rcases h with ⟨rfl, rfl⟩ | ⟨rfl, rfl⟩ | ⟨rfl, rfl⟩
  · refine ⟨_, Node.carry_optional (.single '\\'), ?_⟩
    rintro c d (hread | rfl)
    · obtain ⟨x, hx, hpasses⟩ := Cursor.read?_eq_some.mp hread
      exact ⟨[x], by simpa using CharSet.contains_single.mp hx, hpasses⟩
    · exact ⟨[], by simp, Cursor.passes_nil.mpr rfl⟩
  · exact hruns 0
  · exact hruns 1

theorem not_roundTrips_quantifier {c : Char} (hc : c ∈ ['?', '*', '+'])
    (hlength : 2 ≤ (us ++ c :: vs).length) (hs : Text.plainCount (us ++ c :: vs) ≤ 1) :
    ¬RoundTrips catalog (us ++ c :: vs) := by
  obtain ⟨min, max, hmisread, hbounds⟩ : ∃ min max, misread c = [.quantifier min max true false] ∧
      (min, max) ∈ [(0, some 1), (0, none), (1, none)] := by
    simp only [List.mem_cons, List.not_mem_nil, or_false] at hc
    rcases hc with rfl | rfl | rfl
    · exact ⟨0, some 1, rfl, by decide⟩
    · exact ⟨0, none, rfl, by decide⟩
    · exact ⟨1, none, rfl, by decide⟩
  have hne : c ≠ '\\' := by
    rintro rfl
    exact absurd hc (by decide)
  rcases List.eq_nil_or_concat us with rfl | ⟨ws, d, rfl⟩
  · refine not_roundTrips_of_error hlength hs (e := .nothingToRepeat) ?_
    rw [List.nil_append, List.flatMap_cons, hmisread]
    exact ofLexemes_anchor _ _ _ _ _ _
  · obtain rfl : d = '\\' := hus d (by simp)
    obtain ⟨Q, hcarries, hQ⟩ := exists_carries_times hbounds
    have hws : ∀ e ∈ ws, e = '\\' := fun e he => hus e (by simp [he])
    have hslash : misread '\\' = [.single (.single '\\')] := rfl
    have hflat : (ws.concat '\\' ++ c :: vs).flatMap misread = ws.flatMap misread ++
        [.single (.single '\\'), .quantifier min max true false] ++ vs.flatMap misread := by
      simp [hmisread, hslash]
    exact not_roundTrips_of_item hlength hs hws hvs hflat
      (.repeated (.single '\\') min max true) hcarries hQ (c := c) (by simp) hne

end
end Builder

namespace Text

/-- Of several characters all but one are backslashes, and that one means something outside of a
class and nothing in one. -/
def IsMisread (s : Text) : Prop := 2 ≤ s.length ∧ s.plainCount ≤ 1 ∧ ∃ c ∈ s, c ∈ outsiders

-- The characters of the text are gone through, not all that there are.
instance (s : Text) : Decidable s.IsMisread :=
  @instDecidableAnd _ _ inferInstance (@instDecidableAnd _ _ inferInstance (List.decidableBEx _ s))

theorem exists_between {s : Text} (hs : s.plainCount ≤ 1) {c : Char} (hc : c ∈ s) (hne : c ≠ '\\') :
    ∃ us vs, s = us ++ c :: vs ∧ (∀ d ∈ us, d = '\\') ∧ ∀ d ∈ vs, d = '\\' := by
  obtain ⟨us, vs, rfl⟩ := List.append_of_mem hc
  have hone : Text.plainCount [c] = 1 := by simp [plainCount, hne]
  have hzero : ∀ t : Text, t.plainCount = 0 → ∀ d ∈ t, d = '\\' := by
    intro t ht d hd
    by_contra hplain
    have hmem : d ∈ t.filter (· != '\\') := List.mem_filter.mpr ⟨hd, by simpa using hplain⟩
    rw [List.length_eq_zero_iff.mp ht] at hmem
    cases hmem
  rw [Escape.plainCount_append, Escape.plainCount_cons] at hs
  exact ⟨us, vs, rfl, hzero us (by omega), hzero vs (by omega)⟩

end Text

namespace Builder

variable {catalog : Catalog} {s : Text}

theorem not_roundTrips_of_isMisread (h : s.IsMisread) : ¬RoundTrips catalog s := by
  obtain ⟨hlength, hs, c, hc, hmem⟩ := h
  have hne : c ≠ '\\' := by
    rintro rfl
    exact absurd hmem (by decide)
  obtain ⟨us, vs, rfl, hus, hvs⟩ := Text.exists_between hs hc hne
  simp only [outsiders, List.mem_cons, List.not_mem_nil, or_false] at hmem
  rcases hmem with rfl | rfl | rfl | rfl | rfl | rfl | rfl | rfl
  · exact not_roundTrips_paren hus hvs (by decide) hlength hs
  · exact not_roundTrips_paren hus hvs (by decide) hlength hs
  · exact not_roundTrips_bar hus hvs hlength hs
  · exact not_roundTrips_quantifier hus hvs (by decide) hlength hs
  · exact not_roundTrips_quantifier hus hvs (by decide) hlength hs
  · exact not_roundTrips_quantifier hus hvs (by decide) hlength hs
  · exact not_roundTrips_dot hus hvs hlength hs
  · exact not_roundTrips_dollar hus hvs hlength hs

theorem roundTrips_of_isExact (h : s.length = 1 ∨ 2 ≤ s.plainCount) : RoundTrips catalog s := by
  obtain ⟨a, ha, -⟩ := Atom.standsFor_ofText h
  have hleaves : (Value.ofText s).leaves = [.text s] := Value.leaves_leaf _
  have hexact : ∀ l ∈ (Value.ofText s).leaves, l.IsExact catalog := by
    simpa [hleaves, Leaf.IsExact] using h
  obtain ⟨p, hp, hmatch⟩ := isMatch_wholeText_iff hexact (by simp [gather_ofText catalog ha])
  refine ⟨p, hp, fun t => (hmatch t).trans ?_⟩
  simp [hleaves, Leaf.Accepts]

/-- The pattern of a whole text matches that text and nothing else, unless the text is misread. -/
theorem roundTrips_iff (hs : s ≠ []) : RoundTrips catalog s ↔ ¬s.IsMisread := by
  have hlength := List.length_pos_of_ne_nil hs
  by_cases hexact : s.length = 1 ∨ 2 ≤ s.plainCount
  · refine iff_of_true (roundTrips_of_isExact hexact) ?_
    rintro ⟨hlong, hplain, -⟩
    omega
  · constructor
    · intro h hmisread
      exact not_roundTrips_of_isMisread hmisread h
    · intro h
      refine roundTrips_of_text (by omega) (by omega) fun c hc hmem => ?_
      exact h ⟨by omega, by omega, c, hc, hmem⟩

theorem roundTrips_backslashHyphen :
    (['\\', '-'] : Text) ≠ [] ∧ RoundTrips .standard ['\\', '-'] := by
  have hne : (['\\', '-'] : Text) ≠ [] := List.cons_ne_nil _ _
  have hread : ¬Text.IsMisread ['\\', '-'] := by decide +kernel
  exact ⟨hne, (roundTrips_iff hne).mpr hread⟩

/-- A backslash and a parenthesis: nothing closes what the parenthesis opens. -/
theorem wholeText_backslashParen :
    (['\\', '('] : Text) ≠ [] ∧
      (empty.wholeText (.ofText ['\\', '('])).source = ['\\', 'A', '\\', '\\', '(', '\\', 'z'] ∧
      ∀ limits p, (empty.wholeText (.ofText ['\\', '('])).toPatternWithin limits ≠ .ok p := by
  have hparse : Node.parse (Pattern.dialectText (empty.wholeText (.ofText ['\\', '('])).source
      (empty.wholeText (.ofText ['\\', '('])).pattern.flags) = .error .unclosedGroup := by
    decide +kernel
  refine ⟨List.cons_ne_nil _ _, by decide +kernel, fun limits p hp => ?_⟩
  rw [toPatternWithin_eq_ok, Pattern.ofText_error hparse] at hp
  cases hp

end Builder
end PatternBuilder
