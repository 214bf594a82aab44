import PatternBuilder.Builder.Vocabulary
import PatternBuilder.Proofs.AgreeingPatterns
import PatternBuilder.Proofs.ReadingBack
import PatternBuilder.Proofs.TwinAtoms

/-!
# Matching without regard to case

Where case is ignored, the source of a builder that is written in lowercase matches what the source
that is written as it comes would match.
-/

namespace PatternBuilder

open Dialect Options

def Builder.IsTwinned (b : Builder) : Prop :=
  ∀ (m : Modes) (flags flags' : Flags), m.ignoreCase = true → m.extended = false →
    flags.ignoreCase = true → flags'.ignoreCase = false →
      Paired m true false (b.render flags) (b.render flags')

structure Clause.IsTwinnable (c : Clause Builder) : Prop where
  plain : c.options.IsPlain
  separator : c.isSeparator = true → c.hasContent = false
  atoms : ∀ as, c.body = .atoms as → Atom.AreLegible as ∧
    c.options.longTexts = decide (1 < (as.filter fun a => !a.fitsClass).length)
  repeated : c.hasContent = false → c.options.quantifierText = [] ∨ c.options.isUndecorated = true
  nested : ∀ b, c.body = .nested b → b.IsTwinned ∧
    (c.options.quantifierText ≠ [] → c.options.bodyText (b.render .empty) ≠ [])

variable {m : Modes} {flags flags' : Flags}

namespace Clause

variable {c : Clause Builder}

theorem IsTwinnable.paired_text (h : c.IsTwinnable) (hsep : c.isSeparator = false)
    (hrepeater : c.isRepeater = false) (hcase : m.ignoreCase = true)
    (hextended : m.extended = false) (hflags : flags.ignoreCase = true)
    (hflags' : flags'.ignoreCase = false) (scope : Scope) :
    Paired m scope.isBare scope.alternative ((c.map (Builder.render flags)).text flags scope)
      ((c.map (Builder.render flags')).text flags' scope) := by
  have hmap : ∀ f : Builder → Text, (c.map f).isSeparator = false := fun _ => hsep
  rw [Clause.text, Clause.text, hmap, hmap, if_neg (by decide), if_neg (by decide)]
  obtain ⟨body, o, index⟩ := c
  cases body with
  | atoms as =>
    obtain ⟨hlegible, hlong⟩ := h.atoms as rfl
    refine paired_atomsText hcase hextended h.plain hlegible hlong (fun hq hnil => ?_) hflags
      hflags' scope
    -- without atoms the clause is no more than a quantifier, so it would be a repeater
    subst hnil
    obtain ⟨q, hsome, -, -⟩ := exists_quantifier hq
    have hplain : o.isUndecorated = true := (h.repeated rfl).resolve_left hq
    have hsep' : o.isSeparator = false := hsep
    have hno : (!o.isSeparator && true && o.quantifier.isSome && o.isUndecorated) = false :=
      hrepeater
    rw [hsep', hsome, hplain] at hno
    cases hno
  | nested b =>
    obtain ⟨hb, hbody⟩ := h.nested b rfl
    have hpair := hb m flags flags' hcase hextended hflags hflags'
    have hwritten := twins_bodyText (hb m flags .empty hcase hextended hflags rfl).twins o
    exact .nested hextended h.plain hpair.twins (hpair.same rfl) fun hq hnil =>
      hbody hq (hwritten.nil_iff.mp hnil)

end Clause

theorem Layout.paired_item {i : Item (Clause Builder)} (hc : i.clause.IsTwinnable)
    (hsep : i.clause.isSeparator = false) (hrepeater : i.clause.isRepeater = false)
    (hr : ∀ r ∈ i.repeater, r.options.IsPlain) (hcase : m.ignoreCase = true)
    (hextended : m.extended = false) (hflags : flags.ignoreCase = true)
    (hflags' : flags'.ignoreCase = false) (scope : Scope) :
    Paired m scope.isBare scope.alternative
      ((i.map (Clause.map (Builder.render flags))).text flags scope)
      ((i.map (Clause.map (Builder.render flags'))).text flags' scope) := by
  have hclause := hc.paired_text hsep hrepeater hcase hextended hflags hflags' scope
  obtain ⟨c, repeater⟩ := i
  cases repeater with
  | none => exact hclause
  | some r => exact hclause.repeatText hextended (hr r rfl)

namespace Builder

/-- The clauses decide, since both sides lay them out alike. -/
theorem isTwinned_of_clauses {b : Builder} (h : ∀ c ∈ b.clauses, c.IsTwinnable) : b.IsTwinned := by
  intro m flags flags' hcase hextended hflags hflags'
  have hcs : ∀ c ∈ b.clauses, c.isSeparator = true → c.hasContent = false := fun c hc =>
    (h c hc).separator
  rw [render_eq, render_eq, Layout.sequenceText_map flags _ hcs,
    Layout.sequenceText_map flags' _ hcs]
  refine Layout.paired_parts (fun u hu scope => ?_) (Layout.head_parts hcs)
  obtain ⟨hclause, hrepeater⟩ := Layout.mem_of_mem_parts hcs hu
  obtain ⟨hsep, hrep⟩ := (Layout.isWellFormed_parts hcs u hu).clause
  exact Layout.paired_item (h _ hclause) hsep hrep (fun r hr => (h r (hrepeater r hr)).plain) hcase
    hextended hflags hflags' scope

/-- Put together step by step from fair values of ASCII text, with plain options. A quantifier
stands behind a body with text, or alone as a repeater. -/
inductive AsciiBuilt : Builder → Prop where
  | start {b : Builder} (h : b.clauses = []) : AsciiBuilt b
  | append {b : Builder} {v : Value} {o : Options} (hb : AsciiBuilt b) (hfair : v.IsFair b.catalog)
      (hascii : v.IsAscii) (ho : o.IsPlain) (hbody : (b.catalog.gather v).atoms = [] →
        o.quantifierText = [] ∨ o.isUndecorated = true) : AsciiBuilt (b.append v o)
  | embed {b inner : Builder} {o : Options} (hb : AsciiBuilt b) (hinner : AsciiBuilt inner)
      (ho : o.IsPlain) (hbody : o.quantifierText ≠ [] → o.bodyText (inner.render .empty) ≠ []) :
      AsciiBuilt (b.embed inner o)
  | separate {b : Builder} (hb : AsciiBuilt b) : AsciiBuilt b.separate
  | setFlag {b : Builder} (hb : AsciiBuilt b) (f : Flag) (on : Bool) : AsciiBuilt (b.setFlag f on)
  | write {b : Builder} (hb : AsciiBuilt b) : AsciiBuilt b.write.2

theorem AsciiBuilt.isTwinnable {b : Builder} (h : b.AsciiBuilt) :
    ∀ c ∈ b.clauses, c.IsTwinnable := by
  induction h with
  | start h => simp [h]
  | @append b v o hb hfair hascii ho hbody ih =>
    refine forall_mem_push ih ⟨allowsClauses_isPlain.gathered ho _, fun hsep => ?_,
      fun as has => ?_, fun hnone => ?_, fun k hk => ?_⟩
    · cases hsep
    · cases has
      exact ⟨Atom.areLegible_gather hfair hascii, rfl⟩
    · refine hbody ?_
      simpa [Clause.hasContent, Body.hasContent] using hnone
    · cases hk
  | @embed b inner o hb hinner ho hbody ih ihinner =>
    refine forall_mem_push ih ⟨allowsClauses_isPlain.nested ho, fun hsep => ?_,
      fun as has => ?_, fun hnone => ?_, fun k hk => ?_⟩
    · cases hsep
    · cases has
    · cases hnone
    · cases hk
      exact ⟨isTwinned_of_clauses ihinner, hbody⟩
  | separate hb ih =>
    refine forall_mem_push ih ⟨allowsClauses_isPlain.separator, fun _ => rfl, fun as has => ?_,
      fun _ => .inl rfl,
      fun k hk => ?_⟩
    · cases has
      exact ⟨Atom.areLegible_nil, rfl⟩
    · cases hk
  | setFlag hb f on ih => exact ih
  | write hb ih => rwa [clauses_write]

/-- Compiled without regard to case, the source in lowercase and the source as it comes are refused
alike, or find the same in all ASCII texts. -/
theorem findAlike_render_ignoreCase {b : Builder} (h : b.AsciiBuilt) {flags : Flags}
    (hextended : flags.extended = false) (depth : Option Nat) :
    Both Pattern.FindAlike
      (Pattern.compileWithin (.ofDepth depth) (b.render (flags.insert .ignoreCase))
        (flags.insert .ignoreCase))
      (Pattern.compileWithin (.ofDepth depth) (b.render (flags.erase .ignoreCase))
        (flags.insert .ignoreCase)) := by
  have hmodes : (flags.insert .ignoreCase).modes.ignoreCase = true ∧
      (flags.insert .ignoreCase).modes.extended = false := ⟨rfl, hextended⟩
  have hsome : (flags.insert .ignoreCase).isEmpty = false := by
    rw [← Bool.not_eq_true, Flags.isEmpty, beq_iff_eq]
    intro hempty
    cases congrArg Flags.ignoreCase hempty
  have hpaired := isTwinned_of_clauses h.isTwinnable (flags.insert .ignoreCase).modes
    (flags.insert .ignoreCase) (flags.erase .ignoreCase) hmodes.1 hmodes.2 rfl rfl
  obtain ⟨p, q, ⟨hp, hptext⟩, ⟨hq, hqtext⟩, htwin⟩ := hpaired.twins
  rw [← hptext, ← hqtext]
  exact (Pattern.both_ofText hp hq hsome hextended (htwin.agree hmodes.1 hmodes.2 hp hq)
    depth).mapError

def badge : Builder :=
  let words := empty.append (.ofTexts ["Red".toList, "RED".toList, "red".toList]) {}
  let colour := (words.separate.append (.ofCharRange 'K' 'Q') {}).append .empty
    (.quantified .zeroOrOne)
  let next := empty.append (.list [.ofChar 'Z', .ofSymbol "space".toList]) {}
  ((empty.embed colour { name := some "hue".toList, quantifier := some .oneOrMore }).append
    (.list [.ofTexts ["Ab".toList, "ab".toList], .ofSymbol "digit".toList, .ofChar 'X',
      .ofChar 'x']) .capturing).embed next (.lookaround Lookaround.ahead)

theorem findAlike_render_badge :
    (badge.AsciiBuilt ∧ Flags.empty.extended = false) ∧
      badge.render (Flags.empty.insert .ignoreCase) =
        "(?<hue>(?:red|[k-q]?)+)([x0-9]|ab)(?=[z ])".toList ∧
      badge.render (Flags.empty.erase .ignoreCase) =
        "(?<hue>(?:Red|RED|red|[K-Q]?)+)([Xx0-9]|Ab|ab)(?=[Z ])".toList ∧
      (Pattern.compileWithin (.ofDepth (some 63)) (badge.render (Flags.empty.insert .ignoreCase))
        (Flags.empty.insert .ignoreCase)).toOption.isSome = true ∧
      Both Pattern.FindAlike
        (Pattern.compileWithin (.ofDepth (some 63)) (badge.render (Flags.empty.insert .ignoreCase))
          (Flags.empty.insert .ignoreCase))
        (Pattern.compileWithin (.ofDepth (some 63)) (badge.render (Flags.empty.erase .ignoreCase))
          (Flags.empty.insert .ignoreCase)) := by
  have hcolour : AsciiBuilt (((empty.append (.ofTexts ["Red".toList, "RED".toList, "red".toList])
      {}).separate.append (.ofCharRange 'K' 'Q') {}).append .empty (.quantified .zeroOrOne)) :=
    .append (.append (.separate (.append (.start rfl) (by decide +kernel) (by decide +kernel)
      (by decide) fun _ => .inl rfl)) (by decide +kernel) (by decide +kernel) (by decide)
      fun _ => .inl rfl) (by decide +kernel) (by decide +kernel) (by decide) fun _ => .inr rfl
  have hnext : AsciiBuilt (empty.append (.list [.ofChar 'Z', .ofSymbol "space".toList]) {}) :=
    .append (.start rfl) (by decide +kernel) (by decide +kernel) (by decide) fun _ => .inl rfl
  have hbuilt : badge.AsciiBuilt :=
    .embed (.append (.embed (.start rfl) hcolour (by decide +kernel) (by decide +kernel))
      (by decide +kernel) (by decide +kernel) (by decide) fun _ => .inl rfl) hnext (by decide)
      (by decide +kernel)
  have hextended : Flags.empty.extended = false := rfl
  have hboth := @findAlike_render_ignoreCase badge hbuilt .empty hextended (some 63)
  exact ⟨⟨hbuilt, hextended⟩, by decide +kernel, by decide +kernel, by decide +kernel, hboth⟩

def openName : Builder :=
  empty.append (.ofText ['A', 'B']) (.namedCapture "a>x)(?-i:y".toList)

theorem not_findAlike_render_openName :
    ((Value.ofText ['A', 'B']).IsFair .standard ∧ (Value.ofText ['A', 'B']).IsAscii ∧
      ∀ c ∈ "a>x)(?-i:y".toList, Unicode.isAscii c = true) ∧
    ¬Both Pattern.FindAlike
      (Pattern.compileWithin .unlimited (openName.render (Flags.empty.insert .ignoreCase))
        (Flags.empty.insert .ignoreCase))
      (Pattern.compileWithin .unlimited (openName.render (Flags.empty.erase .ignoreCase))
        (Flags.empty.insert .ignoreCase)) := by
  refine ⟨⟨by decide +kernel, by decide +kernel, by decide +kernel⟩, fun hboth => ?_⟩
  have hlowered : (Pattern.compileWithin .unlimited
      (openName.render (Flags.empty.insert .ignoreCase))
      (Flags.empty.insert .ignoreCase)).toOption.map (fun p => (p.find "xy>AB".toList).isSome) =
        some false := by
    decide +kernel
  have hcoming : (Pattern.compileWithin .unlimited
      (openName.render (Flags.empty.erase .ignoreCase))
      (Flags.empty.insert .ignoreCase)).toOption.map (fun p => (p.find "xy>AB".toList).isSome) =
        some true := by
    decide +kernel
  revert hboth hlowered hcoming
  cases Pattern.compileWithin .unlimited (openName.render (Flags.empty.insert .ignoreCase))
    (Flags.empty.insert .ignoreCase) with
  | error e =>
    intro _ hlowered _
    cases hlowered
  | ok p =>
    cases Pattern.compileWithin .unlimited (openName.render (Flags.empty.erase .ignoreCase))
      (Flags.empty.insert .ignoreCase) with
    | error e =>
      intro hboth _ _
      cases hboth
    | ok q =>
      rintro (_ | halike) hlowered hcoming
      have hsame : p.find "xy>AB".toList = q.find "xy>AB".toList := halike _ (by decide +kernel)
      have hlow : (p.find "xy>AB".toList).isSome = false := Option.some.inj hlowered
      have hcome : (q.find "xy>AB".toList).isSome = true := Option.some.inj hcoming
      rw [hsame, hcome] at hlow
      cases hlow

end Builder
end PatternBuilder
