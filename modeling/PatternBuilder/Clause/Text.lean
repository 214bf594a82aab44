import PatternBuilder.Atom.CaseFold
import PatternBuilder.Clause
import PatternBuilder.Flag
import PatternBuilder.Layout

/-!
# Text of clauses

Writes single clauses, and laid out sequences of them, as pattern text.
-/

namespace PatternBuilder

namespace Atom

def memberText : Atom → Text
  | .range r => Escape.inClass [r.lo] ++ '-' :: Escape.inClass [r.hi]
  | .char c => Escape.inClass [c]
  | .literal t => t
  | .token t => t

def charText (bareDot : Bool) (c : Char) : Text :=
  if c = '.' ∧ bareDot then ['.'] else Escape.general [c]

/-- The text for all atoms that fit a class, if there are any. A lone character or text needs no
brackets. -/
def classText? (bareDot : Bool) : List Atom → Option Text
  | [] => none
  | [.char c] => some (charText bareDot c)
  | [.literal t] => some t
  | [.token t] => some t
  | as => some ('[' :: as.flatMap memberText ++ [']'])

/-- The alternatives that a list of atoms is written as: one for the class, then one for each text
that does not fit it. -/
def alternatives (bareDot : Bool) (as : List Atom) : List Text :=
  (classText? bareDot (as.filter fitsClass)).toList ++
    (as.filter fun a => !a.fitsClass).map memberText

def foldWhen (ignoreCase : Bool) (as : List Atom) : List Atom :=
  if ignoreCase then foldCase as else as

end Atom

namespace Options

/-- Writes a body of atoms. Alternatives need no group of their own inside a run of alternatives. -/
def atomsText (o : Options) (flags : Flags) (inRun : Bool) (as : List Atom) : Text :=
  let alternatives := Atom.alternatives o.bareDot (Atom.foldWhen flags.ignoreCase as)
  o.dress ((decide (1 < alternatives.length) || o.longTexts) && !(inRun && o.isUndecorated))
    (['|'].intercalate alternatives)

/-- Writes the text of a nested part. A plain group around all of it gives way to the group that is
asked for; `bare` says that its alternatives can stand without one. -/
def nestedText (o : Options) (bare : Bool) (inner : Text) : Text :=
  if o.asksForGroup then o.dress inner.stripGroup.hasOuterBar inner.stripGroup
  else o.dress (inner.hasOuterBar && !(bare && o.isUndecorated)) inner

end Options

namespace Clause

def text (flags : Flags) (scope : Scope) (c : Clause Text) : Text :=
  if c.isSeparator then ['|']
  else match c.body with
    | .atoms as => c.options.atomsText flags scope.alternative as
    | .nested inner => c.options.nestedText scope.isBare inner

/-- Repeats a written clause as a whole. A clause without text is not repeated. -/
def repeatText (text quantifier : Text) : Text :=
  if text.isEmpty then text
  else if quantifier.isEmpty || text.isUnit then text ++ quantifier
  else Grouping.nonCapture.wrap text ++ quantifier

def repeatedText (flags : Flags) (scope : Scope) (c : Clause Text) (r : Option (Clause Text)) :
    Text :=
  match r with
  | none => c.text flags scope
  | some r => repeatText (c.text flags scope) r.options.quantifierText

end Clause

def Slot.text (flags : Flags) : Slot (Clause Text) → Text
  | .separator _ => ['|']
  | .entry c r scope => scope.enclose (c.repeatedText flags scope r)

def sequenceText (flags : Flags) (cs : List (Clause Text)) : Text :=
  (Layout.slots cs).flatMap (Slot.text flags)

end PatternBuilder
