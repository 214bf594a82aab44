import PatternBuilder.Proofs.StraightAutomata
import PatternBuilder.Proofs.TextRoundTrip

/-!
# Plain texts between the anchors of the text

A text without characters of special meaning that stands for the whole text is compiled to a
straight automaton, which finds the text and no other.
-/

namespace PatternBuilder

open Dialect

namespace Dialect

theorem repeating_special : ∀ c ∈ Phrase.repeating, c ∈ Escape.special := by decide

theorem outsiders_special : ∀ c ∈ outsiders, c ∈ Escape.special := by decide

/-- Characters without a meaning of their own are read one by one, up to the end of the text. -/
theorem lexemesFrom_plain {s : Text} {r : Reading} (hr : r.modes = {})
    (hs : ∀ c ∈ s, c ∉ Escape.special) :
    lexemesFrom r 0 (s ++ ['\\', 'z']) = .ok (s.flatMap misread ++ [.anchor .textEnd]) := by
  induction s generalizing r with
  | nil => exact lexemesFrom_textEnd hr
  | cons c s ih =>
    have hc : c ∉ Escape.special := hs c List.mem_cons_self
    have hskip : r.skip (c :: (s ++ ['\\', 'z'])) = .ok (c :: (s ++ ['\\', 'z'])) := by
      refine skipGap_cons (by simp [hr]) fun hparen => ?_
      exact absurd (hparen ▸ by decide) hc
    have hcut : r.cut c (s ++ ['\\', 'z']) = .ok (r.item [r.modes.single c] (s ++ ['\\', 'z'])) :=
      (cut_eq_itemAt (mt (repeating_special c) hc) _).trans (itemAt_plain hc _)
    have hrest := ih (r := { r with afterItem := true }) hr fun d hd =>
      hs d (List.mem_cons_of_mem c hd)
    have hlexeme : misread c = [r.modes.single c] := by
      rw [misread_of_not_mem (mt (outsiders_special c) hc), hr]
      rfl
    rw [List.cons_append, lexemesFrom_cut hskip hcut (List.suffix_refl _)]
    simp only [Reading.item, hrest, after, Except.map, List.flatMap_cons, hlexeme,
      List.append_assoc]

theorem lexemes_plain {s : Text} (hs : ∀ c ∈ s, c ∉ Escape.special) :
    lexemes ('\\' :: 'A' :: (s ++ ['\\', 'z'])) =
      .ok ([.anchor .textStart] ++ s.flatMap misread ++ [.anchor .textEnd]) := by
  rw [lexemes_textStart, lexemesFrom_plain (r := .behind) rfl hs]
  rfl

def anchoredItems (s : Text) : List Node :=
  [.anchor .textStart] ++ s.map ({} : Modes).charNode ++ [.anchor .textEnd]

theorem parse_plain {s : Text} (hs : ∀ c ∈ s, c ∉ Escape.special) :
    Node.parse (Pattern.dialectText ('\\' :: 'A' :: (s ++ ['\\', 'z'])) .empty) =
      .ok (Node.ofItems (anchoredItems s)) := by
  have hopen : hasOpenBound ('\\' :: 'A' :: (s ++ ['\\', 'z'])) = false := by
    rw [Bool.eq_false_iff]
    intro hopen
    have hmem := (Text.mem_of_hasOpenBound hopen).1
    have hbrace : '\x7b' ∉ s := fun h => hs _ h (by simp [Escape.special])
    simp [hbrace] at hmem
  have htext : Pattern.dialectText ('\\' :: 'A' :: (s ++ ['\\', 'z'])) .empty =
      '\\' :: 'A' :: (s ++ ['\\', 'z']) := by
    rw [Pattern.dialectText, withLowerBounds, hopen]
    rfl
  have hreads := ((Reads.anchor .textStart).append
    (Reads.text fun c hc => mt (outsiders_special c) (hs c hc))).append (Reads.anchor .textEnd)
  rw [htext, Node.parse, lexemes_plain hs]
  exact hreads.ofLexemes

theorem depth_anchoredItems (s : Text) : (Node.ofItems (anchoredItems s)).depth = 0 := by
  refine Node.joins_ofItems.of_forall (P := (Node.depth · = 0)) rfl
    (fun ha hb => Nat.max_eq_zero_iff.mpr ⟨ha, hb⟩) fun n hn => ?_
  simp only [anchoredItems, List.mem_append, List.mem_singleton, List.mem_map] at hn
  rcases hn with (rfl | ⟨c, -, rfl⟩) | rfl <;> rfl

def anchoredMembers (s : Text) : List Core :=
  .anchor .textStart :: (s.map (fun c => .set (.single c)) ++ [.anchor .textEnd])

theorem core_anchoredItems (s : Text) :
    (Node.ofItems (anchoredItems s)).core = .concat (anchoredMembers s) := by
  have hmembers : ∀ base, (Node.ofItems (s.map ({} : Modes).charNode ++
      [.anchor .textEnd])).members base =
        s.map (fun c => .set (.single c)) ++ [.anchor .textEnd] := by
    induction s with
    | nil => exact fun base => rfl
    | cons c s ih =>
      intro base
      rw [List.map_cons, List.cons_append, Node.members_ofItems_cons, ih]
      rfl
  have hall : (Node.ofItems (anchoredItems s)).members 0 = anchoredMembers s := by
    rw [anchoredItems, List.append_assoc, List.singleton_append, Node.members_ofItems_cons,
      hmembers]
    rfl
  rw [Node.core, hall, anchoredMembers]
  cases s <;> rfl

theorem ofSet_single (c : Char) : Regular.ofSet (.single c) = .text [c] := by
  have honly : (CharSet.single c).only? = some c := by
    simp [CharSet.only?, CharSet.single, Char.ofNat_toNat]
  rw [Regular.ofSet, honly]

theorem regularAll_text (s : Text) :
    regularAll (s.map (fun c => Core.set (.single c)) ++ [.anchor .textEnd]) =
      .ok (s.map (fun c => Regular.text [c]) ++ [.anchor .textEnd]) := by
  induction s with
  | nil => rfl
  | cons c s ih =>
    rw [List.map_cons, List.cons_append, regularAll, Core.regular, ofSet_single, ih]
    rfl

/-- Neighbouring characters become one text. -/
theorem concat_text {s : Text} (hs : s ≠ []) :
    Regular.concat (s.map (fun c => Regular.text [c]) ++ [.anchor .textEnd]) =
      .seq (.text s) (.anchor .textEnd) := by
  induction s with
  | nil => exact absurd rfl hs
  | cons c s ih =>
    cases s with
    | nil => rfl
    | cons d s =>
      have hrest := ih (List.cons_ne_nil d s)
      rw [Regular.concat] at hrest ⊢
      rw [List.map_cons, List.cons_append, List.foldr_cons, hrest]
      rfl

theorem regular_anchoredMembers {s : Text} (hs : s ≠ []) :
    (Core.concat (anchoredMembers s)).regular =
      .ok (.seq (.anchor .textStart) (.seq (.text s) (.anchor .textEnd))) := by
  have hmembers : regularAll (anchoredMembers s) =
      .ok (.anchor .textStart :: (s.map (fun c => .text [c]) ++ [.anchor .textEnd])) := by
    rw [anchoredMembers, regularAll, regularAll_text]
    rfl
  have hconcat := concat_text hs
  rw [Regular.concat] at hconcat
  rw [Core.regular, hmembers]
  change Except.ok (Regular.append (.anchor .textStart) (List.foldr _ _ _)) = _
  rw [hconcat]
  rfl

theorem traits_anchoredMembers (s : Text) :
    (Core.concat (anchoredMembers s)).traits.regular = true := by
  have hall : (traitsOfAll (s.map (fun c => Core.set (.single c)) ++ [.anchor .textEnd])).all
      Traits.regular = true := by
    induction s with
    | nil => rfl
    | cons c s ih => simpa [traitsOfAll, Core.traits] using ih
  simpa [Core.traits, anchoredMembers, traitsOfAll, Traits.concat, Anchor.isRegular] using hall

theorem Automaton.isSome_search_ofRegular {r : Regular} (h : r.isStraight = true)
    (groups : List Nat) (t : Text) :
    ((ofRegular groups (.seq (.anchor .textStart) r)).search (.start t)).isSome = true ↔
      ∃ d, r.Leads (.start t) d := by
  let a := ofRegular groups (.seq (.anchor .textStart) r)
  have hfirst : a.code[a.start]? =
      some (.anchor .textStart (r.build 0 #[.accept]).1) := by
    simp [a, ofRegular, Regular.build, Code.add]
  have hstart : a.start < a.code.size := by
    simp [a, ofRegular, Regular.build, Code.add]
  have hstraight : (Regular.seq (.anchor .textStart) r).isStraight = true := by
    simpa [Regular.isStraight] using h
  refine (isSome_search hfirst hstart (Regular.decides_ofRegular hstraight groups) t).trans ?_
  constructor
  · rintro ⟨d, e, ⟨rfl, -⟩, hd⟩
    exact ⟨d, hd⟩
  · rintro ⟨d, hd⟩
    exact ⟨d, .start t, ⟨rfl, rfl⟩, hd⟩

end Dialect

/-- A text without characters of special meaning between the anchors of the text is compiled to an
automaton, unless that takes too many bytes, and matches itself only. -/
theorem Pattern.isMatch_plain {limits : Limits} {limit : Nat} {s : Text}
    (hlimit : limits.automaton = some limit) (hsize : 32 * s.utf8Length + 272 ≤ limit)
    (hs : ∀ c ∈ s, c ∉ Escape.special) (hne : s ≠ []) :
    ∃ p, Pattern.ofText limits ('\\' :: 'A' :: (s ++ ['\\', 'z'])) .empty = .ok p ∧
      ∀ t, p.isMatch t = true ↔ t = s := by
  let r : Regular := .seq (.text s) (.anchor .textEnd)
  let a := Automaton.ofRegular (groupsOfAll [.concat (anchoredMembers s)])
    (.seq (.anchor .textStart) r)
  have hregular : (Core.concat (anchoredMembers s)).regular =
      .ok (.seq (.anchor .textStart) r) := regular_anchoredMembers hne
  have hitems : (Core.concat [.concat (anchoredMembers s)]).regular =
      .ok (.seq (.anchor .textStart) r) := by
    rw [Core.regular, regularAll, hregular]
    rfl
  have hfootprint : (Regular.seq (.anchor .textStart) r).footprint ≤ limit := by
    have hempty : s.isEmpty = false := by simpa using hne
    simp only [r, Regular.footprint, Regular.size, hempty, stateSize, Bool.false_eq_true, if_false]
    exact Nat.max_le.mpr ⟨by omega, by omega⟩
  have hsearcher : searcherOf limits (.concat (anchoredMembers s)) = .ok (.automaton a, 0) := by
    simp [searcherOf, traits_anchoredMembers, hlimit, hregular, Automaton.ofItems, hitems,
      hfootprint, bind, Except.bind, pure, Except.pure, a, r, Regular.lastGroup]
  have hdepth : ¬limits.depth.any (· < (Node.ofItems (anchoredItems s)).depth) = true := by
    simp [depth_anchoredItems]
  refine ⟨⟨'\\' :: 'A' :: (s ++ ['\\', 'z']), .empty, .automaton a, 1,
    (Node.ofItems (anchoredItems s)).names 0⟩, ?_, fun t => ?_⟩
  · simp only [ofText, parse_plain hs, bind, Except.bind, if_neg hdepth, core_anchoredItems,
      hsearcher, pure, Except.pure]
  · have hsearch := Automaton.isSome_search_ofRegular (r := r) rfl
      (groupsOfAll [.concat (anchoredMembers s)]) t
    have hleads : (∃ d, r.Leads (.start t) d) ↔ t = s := by
      refine Iff.trans ?_ (Cursor.exists_passes (s := s) (t := t))
      constructor
      · rintro ⟨d, e, hpasses, rfl, hrest⟩
        exact ⟨d, by simpa [Anchor.holds] using hrest, hpasses⟩
      · rintro ⟨d, hrest, hpasses⟩
        exact ⟨d, d, hpasses, rfl, by simp [Anchor.holds, hrest]⟩
    refine Iff.trans ?_ (hsearch.trans hleads)
    simp only [isMatch, find, searchFrom]
    cases hfound : a.search (.start t) <;> simp

end PatternBuilder
