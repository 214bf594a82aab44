import PatternBuilder.Proofs.FoldedAtoms
import PatternBuilder.Proofs.PhraseOutline

/-!
# Escaped texts

An escaped text is a text again wherever it stands: none of its characters is taken for a group, a
bar or a bracket, outside of a class or in one, and the text can be read back.
-/

namespace PatternBuilder

open Escape

namespace Mark

variable {chars : List Char}

/-- A backslash and what is behind it count as one character. -/
theorem ofText_escapeChar (h : ∀ d ∈ structural, d ∈ chars) (c : Char) (u : Text) :
    ofText (escapeChar chars c ++ u) = .plain :: ofText u := by
  by_cases hc : c ∈ chars
  · rw [escapeChar, if_pos hc]
    rfl
  · rw [escapeChar, if_neg hc]
    exact ofText_cons_of_plain (fun hmem => hc (h c hmem)) u

theorem ofText_escapeAll (h : ∀ d ∈ structural, d ∈ chars) (s u : Text) :
    ofText (escapeAll chars s ++ u) = List.replicate s.length .plain ++ ofText u := by
  induction s with
  | nil => rfl
  | cons c s ih =>
    rw [escapeAll_cons, List.append_assoc, ofText_escapeChar h, ih]
    rfl

/-- A scan finds one plain mark for each character, and goes on behind the text. -/
theorem ofText_general_append (s u : Text) :
    ofText (general s ++ u) = List.replicate s.length .plain ++ ofText u :=
  ofText_escapeAll (by decide) s u

theorem ofText_general (s : Text) : ofText (general s) = List.replicate s.length .plain := by
  have hmarks := ofText_general_append s []
  rwa [List.append_nil, ofText, List.append_nil] at hmarks

theorem afterBracket_inClass_append (s u : Text) :
    afterBracket (inClass s ++ u) = afterBracket u := by
  induction s with
  | nil => rfl
  | cons c s ih =>
    rw [inClass, escapeAll_cons, List.append_assoc, afterBracket_escapeChar]
    exact ih

/-- The bracket that opens in front of the text closes behind it. -/
theorem ofText_bracket (s u : Text) :
    ofText ('[' :: (inClass s ++ ']' :: u)) = .bracket :: ofText u := by
  rw [ofText, afterBracket_inClass_append]
  rfl

end Mark

namespace Escape

structure IsReversible (escape : Text → Text) : Prop where
  injective : Function.Injective escape
  append : ∀ s t, escape (s ++ t) = escape s ++ escape t
  unescape_escape : ∀ s, unescape (escape s) = s

/-- Where backslashes are escaped too, each of those in the result belongs to what comes next. -/
theorem isReversible_escapeAll {chars : List Char} (h : '\\' ∈ chars) :
    IsReversible (escapeAll chars) where
  injective := Function.LeftInverse.injective (unescape_escapeAll h)
  append := escapeAll_append chars
  unescape_escape := unescape_escapeAll h

/-- Escaping contains its input. Outside of classes a scan takes each character for one plain mark,
between brackets it takes the text for the inside of one bracket expression; the text can be told
from its escaped form. -/
theorem marks_escaped :
    (∀ s : Text, Mark.ofText (general s) = List.replicate s.length .plain) ∧
      (∀ s : Text, Mark.ofText ('[' :: inClass s ++ [']']) = [.bracket]) ∧
      IsReversible general ∧ IsReversible inClass := by
  refine ⟨Mark.ofText_general, fun s => ?_, isReversible_escapeAll (by decide),
    isReversible_escapeAll (by decide)⟩
  have hmarks := Mark.ofText_bracket s []
  rwa [Mark.ofText] at hmarks

/-- Brackets, parentheses and backslashes in all kinds of neighbourhoods. -/
example : Mark.ofText (general ['\\', '[', '(', '\\', '\\', '|']) = List.replicate 6 .plain ∧
    Mark.ofText ('[' :: inClass ['\\', ']', '\\', '\\', '['] ++ [']']) = [.bracket] := by
  decide

end Escape
end PatternBuilder
