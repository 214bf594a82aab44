import PatternBuilder.Builder.Vocabulary
import PatternBuilder.Proofs.DialectText
import PatternBuilder.Proofs.LookingAhead
import PatternBuilder.Proofs.ReadingBack

/-!
# Patterns from the vocabulary

Generating a pattern has no way to fail, compiling it has. What is built from the words of the
vocabulary without lookbehinds compiles if everything that is repeated can be repeated.
-/

namespace PatternBuilder

open Dialect

namespace Options

/-- The options behind the words of the vocabulary, the lookbehinds left out. -/
inductive IsWord : Options → Prop where
  | plain : IsWord {}
  | quantified {q : Quantifier} (h : q.Fits) : IsWord (.quantified q)
  | grouped : IsWord .grouped
  | capturing : IsWord .capturing
  | namedCapture {name : Text} (h : IsGroupName name) : IsWord (.namedCapture name)
  | startingWith {t : Text} (h : t ∈ [Anchor.lineStart, Anchor.textStart]) :
    IsWord (.startingWith t)
  | endingWith {t : Text} (h : t ∈ [Anchor.lineEnd, Anchor.textEnd]) : IsWord (.endingWith t)
  | line : IsWord (.enclosedBy Anchor.lineStart Anchor.lineEnd)
  | text : IsWord (.enclosedBy Anchor.textStart Anchor.textEnd)
  | lookaround {t : Text} (h : t ∈ [Lookaround.ahead, Lookaround.notAhead]) : IsWord (.lookaround t)

theorem IsWord.isPlain {o : Options} (h : o.IsWord) : o.IsPlain := by
  cases h with
  | @quantified q h =>
    refine ⟨.inl ⟨List.mem_cons_self, List.mem_cons_self⟩, nofun, fun r hr => ?_⟩
    cases hr
    exact h
  | @namedCapture name h =>
    refine ⟨.inl ⟨List.mem_cons_self, List.mem_cons_self⟩, fun k hk => ?_, nofun⟩
    cases hk
    exact h
  | startingWith h =>
    simp only [List.mem_cons, List.not_mem_nil, or_false] at h
    rcases h with rfl | rfl <;> decide
  | endingWith h =>
    simp only [List.mem_cons, List.not_mem_nil, or_false] at h
    rcases h with rfl | rfl <;> decide
  | lookaround h =>
    simp only [List.mem_cons, List.not_mem_nil, or_false] at h
    rcases h with rfl | rfl <;> decide
  | _ => decide

theorem IsWord.looksAhead {o : Options} (h : o.IsWord) : o.LooksAhead := by
  intro negated
  cases h with
  | startingWith h =>
    simp only [List.mem_cons, List.not_mem_nil, or_false] at h
    rcases h with rfl | rfl <;> cases negated <;> decide
  | lookaround h =>
    simp only [List.mem_cons, List.not_mem_nil, or_false] at h
    rcases h with rfl | rfl <;> cases negated <;> decide
  | _ => nofun

end Options

namespace Builder

/-- Put together by words of the vocabulary, with fair values. -/
inductive Spoken : Builder → Prop where
  | start (catalog : Catalog) : Spoken (ofCatalog catalog)
  | say {b : Builder} {v : Value} {o : Options} (hb : Spoken b) (hv : v.IsFair b.catalog)
      (ho : o.IsWord) : Spoken (b.append v o)
  | sayWith {b : Builder} {o : Options} {build : Builder → Builder} (hb : Spoken b) (ho : o.IsWord)
      (hbuild : Spoken (build empty)) : Spoken (b.embedWith o build)
  | separate {b : Builder} (hb : Spoken b) : Spoken b.separate
  | setFlag {b : Builder} (hb : Spoken b) (f : Flag) (on : Bool) : Spoken (b.setFlag f on)
  | write {b : Builder} (hb : Spoken b) : Spoken b.write.2

section

variable {b : Builder} {v : Value} {build : Builder → Builder}

theorem Spoken.content (hb : b.Spoken) (hv : v.IsFair b.catalog) :
    ∀ k ∈ [b.find v, b.andThen v, b.oneOf v, b.anyOf v, b.orFind v], k.Spoken := by
  have hfind : (b.find v).Spoken := .say hb hv .plain
  have hor : (b.orFind v).Spoken := .say (.separate hb) hv .plain
  simpa using ⟨hfind, hfind, hfind, hfind, hor⟩

theorem Spoken.contentWith (hb : b.Spoken) (hbuild : (build empty).Spoken) :
    ∀ k ∈ [b.findWith build, b.andThenWith build, b.orFindWith build], k.Spoken := by
  have hfind : (b.findWith build).Spoken := .sayWith hb .plain hbuild
  have hor : (b.orFindWith build).Spoken := .sayWith (.separate hb) .plain hbuild
  simpa using ⟨hfind, hfind, hor⟩

theorem Spoken.groups {name : Text} (hname : IsGroupName name) (hb : b.Spoken)
    (hv : v.IsFair b.catalog) :
    ∀ k ∈ [b.group v, b.capture v, b.captureAs name v], k.Spoken := by
  have hgroup : (b.group v).Spoken := .say hb hv .grouped
  have hcapture : (b.capture v).Spoken := .say hb hv .capturing
  have hnamed : (b.captureAs name v).Spoken := .say hb hv (.namedCapture hname)
  simpa using ⟨hgroup, hcapture, hnamed⟩

theorem Spoken.groupsWith {name : Text} (hname : IsGroupName name) (hb : b.Spoken)
    (hbuild : (build empty).Spoken) :
    ∀ k ∈ [b.groupWith build, b.captureWith build, b.captureAsWith name build], k.Spoken := by
  have hgroup : (b.groupWith build).Spoken := .sayWith hb .grouped hbuild
  have hcapture : (b.captureWith build).Spoken := .sayWith hb .capturing hbuild
  have hnamed : (b.captureAsWith name build).Spoken := .sayWith hb (.namedCapture hname) hbuild
  simpa using ⟨hgroup, hcapture, hnamed⟩

def repeats (min max : Nat) : List Quantifier :=
  [.oneOrMore, .zeroOrMore, .zeroOrOne, .exactly min, .between min max, .atLeast min, .atMost max]

theorem fits_repeats {min max : Nat} (hmin : min ≤ noBound) (hmax : max ≤ noBound) :
    ∀ q ∈ repeats min max, q.Fits := by
  have hone : 1 ≤ noBound := by decide
  simp [repeats, Quantifier.Fits, Quantifier.lower, Quantifier.upper, Quantifier.between,
    Quantifier.atLeast, Quantifier.atMost, hmin, hmax, hone]

theorem Spoken.quantify {q : Quantifier} (hq : q.Fits) (hb : b.Spoken) : (b.quantify q).Spoken :=
  .say hb (Value.isFair_empty b.catalog) (.quantified hq)

/-- The numbers have to be such that the dialect can read them. -/
theorem Spoken.repetition {min max : Nat} (hmin : min ≤ noBound) (hmax : max ≤ noBound)
    (hb : b.Spoken) (hv : v.IsFair b.catalog) :
    ∀ k ∈ b.maybe v :: [b.oneOrMore v, b.zeroOrMore v, b.zeroOrOne v, b.exactly min v,
      b.between min max v, b.atLeast min v, b.atMost max v], k.Spoken := by
  have hrepeats : ∀ q ∈ repeats min max, (b.quantified q v).Spoken := fun q hq =>
    .say hb hv (.quantified (fits_repeats hmin hmax q hq))
  exact List.forall_mem_cons.mpr ⟨hrepeats .zeroOrOne (by simp [repeats]),
    List.forall_mem_map.mpr hrepeats⟩

theorem Spoken.repetitionWith {min max : Nat} (hmin : min ≤ noBound) (hmax : max ≤ noBound)
    (hb : b.Spoken) (hbuild : (build empty).Spoken) :
    ∀ k ∈ [b.oneOrMoreWith build, b.zeroOrMoreWith build, b.zeroOrOneWith build,
      b.exactlyWith min build, b.betweenWith min max build, b.atLeastWith min build,
      b.atMostWith max build], k.Spoken := by
  have hrepeats : ∀ q ∈ repeats min max, (b.quantifiedWith q build).Spoken := fun q hq =>
    .sayWith hb (.quantified (fits_repeats hmin hmax q hq)) hbuild
  exact List.forall_mem_map.mpr hrepeats

theorem Spoken.anchored (hb : b.Spoken) (hv : v.IsFair b.catalog) :
    ∀ k ∈ [b.lineStartsWith v, b.textStartsWith v, b.lineEndsWith v, b.textEndsWith v,
      b.wholeLine v, b.wholeText v], k.Spoken := by
  have hstart : ∀ t ∈ [Anchor.lineStart, Anchor.textStart],
      (b.append v (.startingWith t)).Spoken := fun t ht => .say hb hv (.startingWith ht)
  have hend : ∀ t ∈ [Anchor.lineEnd, Anchor.textEnd],
      (b.append v (.endingWith t)).Spoken := fun t ht => .say hb hv (.endingWith ht)
  have hline : (b.wholeLine v).Spoken := .say hb hv .line
  have htext : (b.wholeText v).Spoken := .say hb hv .text
  simp only [List.forall_mem_cons, List.not_mem_nil, false_imp_iff, implies_true, and_true]
    at hstart hend ⊢
  exact ⟨hstart.1, hstart.2, hend.1, hend.2, hline, htext⟩

theorem Spoken.positions (hb : b.Spoken) :
    ∀ k ∈ [b.startOfLine, b.startOfText, b.endOfLine, b.endOfText], k.Spoken := by
  intro k hk
  have hanchored := hb.anchored (Value.isFair_empty b.catalog) k
  simp only [List.mem_cons, List.not_mem_nil, or_false] at hk
  rcases hk with rfl | rfl | rfl | rfl <;>
    exact hanchored (by simp [startOfLine, startOfText, endOfLine, endOfText])

theorem Spoken.lookaheads (hb : b.Spoken) (hv : v.IsFair b.catalog) :
    ∀ k ∈ [b.followedBy v, b.notFollowedBy v], k.Spoken := by
  have hlooks : ∀ t ∈ [Lookaround.ahead, Lookaround.notAhead], (b.lookaround t v).Spoken :=
    fun t ht => .say hb hv (.lookaround ht)
  exact List.forall_mem_map.mpr hlooks

theorem Spoken.lookaheadsWith (hb : b.Spoken) (hbuild : (build empty).Spoken) :
    ∀ k ∈ [b.followedByWith build, b.notFollowedByWith build], k.Spoken := by
  have hlooks : ∀ t ∈ [Lookaround.ahead, Lookaround.notAhead], (b.lookaroundWith t build).Spoken :=
    fun t ht => .sayWith hb (.lookaround ht) hbuild
  exact List.forall_mem_map.mpr hlooks

theorem Spoken.flagged (hb : b.Spoken) :
    ∀ k ∈ [b.caseInsensitive, b.multiLine, b.blanksIgnored, b.caseSensitive, b.singleLine,
      b.blanksKept], k.Spoken := by
  simp only [List.forall_mem_cons, List.not_mem_nil, false_imp_iff, implies_true, and_true]
  exact ⟨.setFlag hb _ _, .setFlag hb _ _, .setFlag hb _ _, .setFlag hb _ _, .setFlag hb _ _,
    .setFlag hb _ _⟩

/-- Lookbehinds are no words here, since the dialect may refuse what they look for. They keep to
what reads back. -/
theorem Built.lookbehinds (hb : b.Built) (hv : v.IsFair b.catalog) (hbuild : (build empty).Built) :
    ∀ k ∈ [b.precededBy v, b.notPrecededBy v, b.precededByWith build, b.notPrecededByWith build],
      k.Built := by
  have hplain : ∀ t ∈ [Lookaround.behind, Lookaround.notBehind],
      (Options.lookaround t).IsPlain := by decide
  simp only [List.forall_mem_cons, List.not_mem_nil, false_imp_iff, implies_true, and_true]
    at hplain ⊢
  exact ⟨.append hb hv hplain.1, .append hb hv hplain.2, .embed hb hbuild hplain.1,
    .embed hb hbuild hplain.2⟩

end

theorem Spoken.built {b : Builder} (h : b.Spoken) : b.Built := by
  induction h with
  | start catalog => exact .start rfl
  | say hb hv ho ih => exact .append ih hv ho.isPlain
  | sayWith hb ho hbuild ih ihbuild => exact .embed ih ihbuild ho.isPlain
  | separate hb ih => exact .separate ih
  | setFlag hb f on ih => exact .setFlag ih f on
  | write hb ih => exact .write ih

theorem Spoken.separator {b : Builder} (h : b.Spoken) :
    ∀ c ∈ b.clauses, c.isSeparator = true → c.hasContent = false := by
  intro c hc
  exact (h.built.isBuiltClause allowsClauses_isPlain c hc).separator

theorem Spoken.looksAhead {b : Builder} (h : b.Spoken) :
    ∀ c ∈ b.clauses, c.options.LooksAhead ∧ ∀ k, c.body = .nested k → k.LooksAhead := by
  induction h with
  | start catalog => simp [ofCatalog]
  | say hb hv ho ih => exact forall_mem_push ih ⟨ho.looksAhead, nofun⟩
  | sayWith hb ho hbuild ih ihbuild =>
    refine forall_mem_push ih ⟨ho.looksAhead, fun k hk => ?_⟩
    cases hk
    exact looksAhead_of_clauses hbuild.separator ihbuild
  | separate hb ih => exact forall_mem_push ih ⟨nofun, nofun⟩
  | setFlag hb f on ih => exact ih
  | write hb ih => rwa [clauses_write]

theorem Spoken.isCurrent {b : Builder} (h : b.Spoken) : b.IsCurrent := by
  induction h with
  | write hb ih => exact ih.write
  | _ => exact nofun

def tree (b : Builder) : Node := b.node b.flags.modes b.flags

theorem toPatternWithin_eq_ok {b : Builder} {limits : Limits} {p : Pattern} :
    b.toPatternWithin limits = .ok p ↔ Pattern.ofText limits b.source b.pattern.flags = .ok p := by
  unfold toPatternWithin Pattern.compileWithin source
  cases Pattern.ofText limits b.pattern.source b.pattern.flags <;> simp [Except.mapError]

def compiledText (b : Builder) : Text := Pattern.dialectText b.source b.flags

theorem Spoken.flags_pattern {b : Builder} (h : b.Spoken) : b.pattern.flags = b.flags :=
  congrArg Written.flags h.isCurrent.pattern_eq

theorem Spoken.spells {b : Builder} (h : b.Spoken) (hcontent : b.tree.repeatsContent = true) :
    Spells b.flags.modes b.source b.tree := by
  have hsource : b.source = b.render b.flags := congrArg Written.source h.isCurrent.pattern_eq
  exact hsource ▸ (h.built.isSpelled _ _ hcontent).spells

theorem Spoken.parse_compiledText {b : Builder} (h : b.Spoken)
    (hhash : b.flags.extended = true → '#' ∉ Text.bare false b.source)
    (hs : b.tree.repeatsSoundly = true) :
    ∃ n, Node.parse b.compiledText = .ok n ∧ Node.Alike n b.tree :=
  (h.spells (Node.repeatsContent_of_repeatsSoundly hs)).parse_sound hhash hs

/-- A pattern from the vocabulary compiles to the tree that it stands for exactly if everything that
is repeated in the tree can be repeated. Where everything that is repeated has something in it, no
other pattern compiles at all. In extended mode a hash must not begin a comment. -/
theorem toPattern_iff {b : Builder} (h : b.Spoken)
    (hhash : b.flags.extended = true → '#' ∉ Text.bare false b.source) :
    ((∃ n p, Node.parse b.compiledText = .ok n ∧ Node.Alike n b.tree ∧
        b.toPatternWithin .unlimited = .ok p) ↔ b.tree.repeatsSoundly = true) ∧
      (b.tree.repeatsContent = true →
        ((∃ p, b.toPatternWithin .unlimited = .ok p) ↔ b.tree.repeatsSoundly = true)) := by
  have hahead : b.tree.looksAhead = true :=
    looksAhead_of_clauses h.separator h.looksAhead _ _
  have hsound : b.tree.repeatsSoundly = true → ∃ n p, Node.parse b.compiledText = .ok n ∧
      Node.Alike n b.tree ∧ b.toPatternWithin .unlimited = .ok p := by
    intro hs
    obtain ⟨n, hn, halike⟩ := h.parse_compiledText hhash hs
    obtain ⟨p, hp⟩ := Pattern.ofText_unlimited hn (halike.looksAhead.trans hahead)
    exact ⟨n, p, hn, halike, toPatternWithin_eq_ok.mpr (h.flags_pattern ▸ hp)⟩
  refine ⟨⟨?_, hsound⟩, fun hcontent => ⟨fun hcompiles => ?_, fun hs => ?_⟩⟩
  · rintro ⟨n, p, hn, halike, _⟩
    rw [← halike.repeatsSoundly]
    exact Node.repeatsSoundly_of_parseIn hn
  · by_contra hs
    have herror := (h.spells hcontent).parse_unsound hhash (by simpa using hs)
    obtain ⟨p, hp⟩ := hcompiles
    rw [toPatternWithin_eq_ok, h.flags_pattern, Pattern.ofText_error herror] at hp
    cases hp
  · obtain ⟨_, p, _, _, hp⟩ := hsound hs
    exact ⟨p, hp⟩

def numbered : Builder :=
  let number := fun b : Builder => b.oneOrMore (.ofSymbol ['d', 'i', 'g', 'i', 't'])
  let text : Value := .ofText ['n', '/', 'a']
  ((empty.captureAsWith ['i', 'd'] number).orFind text).caseInsensitive.blanksIgnored

theorem toPattern_numbered :
    numbered.Spoken ∧ (numbered.flags.extended = true → '#' ∉ Text.bare false numbered.source) ∧
      ∃ n p, Node.parse numbered.compiledText = .ok n ∧ Node.Alike n numbered.tree ∧
        numbered.toPatternWithin .unlimited = .ok p := by
  have hnumber : Spoken (empty.oneOrMore (.ofSymbol ['d', 'i', 'g', 'i', 't'])) :=
    .say (.start _) (by decide +kernel) (.quantified (by decide))
  have hspoken : numbered.Spoken := by
    refine .setFlag (.setFlag (.say (.separate (.sayWith (.start _) (.namedCapture (by decide)) ?_))
      (by decide +kernel) .plain) _ _) _ _
    exact hnumber
  have hhash : numbered.flags.extended = true → '#' ∉ Text.bare false numbered.source := by
    decide +kernel
  exact ⟨hspoken, hhash, (toPattern_iff hspoken hhash).1.mpr (by decide +kernel)⟩

/-- A quantifier behind nothing, and one behind a lookahead. Beside them, why texts have to be fair
and hashes matter: a backslash and a parenthesis, and a hash that begins a comment. -/
def refused : List Builder :=
  [empty.oneOrMoreWith id, (empty.followedBy (.ofChar 'x')).quantify .oneOrMore,
    empty.find (.ofText ['\\', '(']), (empty.group (.ofChar '#')).blanksIgnored]

theorem toPattern_refused :
    (empty.oneOrMoreWith id).Spoken ∧ (empty.oneOrMoreWith id).source = ['+'] ∧
      ((empty.followedBy (.ofChar 'x')).quantify .oneOrMore).Spoken ∧
      ∀ b ∈ refused, ∀ p, b.toPatternWithin .unlimited ≠ .ok p := by
  have hempty : (empty.oneOrMoreWith id).Spoken :=
    .sayWith (.start _) (.quantified (by decide)) (.start _)
  have hlookahead : ((empty.followedBy (.ofChar 'x')).quantify .oneOrMore).Spoken :=
    .say (.say (.start _) (by decide) (.lookaround (by decide))) (by decide)
      (.quantified (by decide))
  have hparse : ∀ b ∈ refused, ∃ e,
      Node.parse (Pattern.dialectText b.source b.pattern.flags) = .error e := by
    simp only [refused, List.mem_cons, List.not_mem_nil, or_false]
    rintro b (rfl | rfl | rfl | rfl)
    · exact ⟨.nothingToRepeat, by decide +kernel⟩
    · exact ⟨.nothingToRepeat, by decide +kernel⟩
    · exact ⟨.unclosedGroup, by decide +kernel⟩
    · exact ⟨.unclosedGroup, by decide +kernel⟩
  refine ⟨hempty, by decide +kernel, hlookahead, fun b hb p hp => ?_⟩
  obtain ⟨e, he⟩ := hparse b hb
  rw [toPatternWithin_eq_ok, Pattern.ofText_error he] at hp
  cases hp

end Builder
end PatternBuilder
