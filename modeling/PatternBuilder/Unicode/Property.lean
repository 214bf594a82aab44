import PatternBuilder.Text
import PatternBuilder.Unicode.AlphanumericData

/-!
# Character properties

Case mappings, case properties and letters and digits. ASCII is answered directly and the rest by
the data modules.
-/

namespace PatternBuilder.Unicode

def mapThrough (runs : List MappedRun) (c : Char) : Char :=
  match runs.find? (·.contains c.toNat) with
  | some run => Char.ofNat (run.image c.toNat)
  | none => c

def inRuns (runs : List Run) (c : Char) : Bool := runs.any (·.contains c.toNat)

def isAscii (c : Char) : Bool := decide (c.toNat < 0x80)

/-- The lowercase mapping where it is one character, else the character itself. -/
def toLower (c : Char) : Char := if isAscii c then c.toLower else mapThrough lowerRuns c

/-- The uppercase mapping where it is one character, else the character itself. -/
def toUpper (c : Char) : Char := if isAscii c then c.toUpper else mapThrough upperRuns c

def isLower (c : Char) : Bool := if isAscii c then c.isLower else inRuns lowercaseRuns c

def isUpper (c : Char) : Bool := if isAscii c then c.isUpper else inRuns uppercaseRuns c

def isAlphanumeric (c : Char) : Bool :=
  if isAscii c then c.isAlphanum else inRuns alphanumericRuns c

def isCased (c : Char) : Bool := isLower c || isUpper c || inRuns titlecaseRuns c

def isCaseIgnorable (c : Char) : Bool := inRuns caseIgnorableRuns c

/-- The whole lowercase mapping; only `İ` has one of two characters. -/
def lowerAll (c : Char) : Text := if c = 'İ' then ['i', '\u0307'] else [toLower c]

def lowerFirst (c : Char) : Char := if c = 'İ' then 'i' else toLower c

/-- Past the case-ignorable characters comes a letter that has case. -/
def casedNext (t : Text) : Bool :=
  match t.dropWhile isCaseIgnorable with
  | [] => false
  | c :: _ => isCased c

/-- The lowercase of `c` between `before`, read backwards, and `after`. A capital sigma that ends a
word becomes the final sigma. -/
def lowerBetween (before : Text) (c : Char) (after : Text) : Text :=
  if c = 'Σ' then
    if casedNext before && !casedNext after then ['ς'] else ['σ']
  else lowerAll c

def lowerFrom (before : Text) : Text → Text
  | [] => []
  | c :: after => lowerBetween before c after ++ lowerFrom (c :: before) after

def lowerText (t : Text) : Text := lowerFrom [] t

end PatternBuilder.Unicode
