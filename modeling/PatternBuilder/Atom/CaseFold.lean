import PatternBuilder.Atom

/-!
# Case folding

Atoms in lowercase, for matching without regard to case. Atoms that differ in case alone collapse.
Escape sequences keep their case, in which their meaning lies.
-/

namespace PatternBuilder.Atom

def foldedRange? : Atom → Option CharRange
  | .range r => some r.foldCase
  | _ => none

def foldedLoose? : Atom → Option Atom
  | .range _ => none
  | .char c => some (.char (Unicode.lowerFirst c))
  | .literal t => some (.literal (Unicode.lowerText t))
  | .token t => some (.token t)

def foldCase (as : List Atom) : List Atom :=
  combine (as.filterMap foldedLoose?) (CharRange.canonical (as.filterMap foldedRange?))

end PatternBuilder.Atom
