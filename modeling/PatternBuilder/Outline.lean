import PatternBuilder.Text

/-!
# Outline of pattern text

Pattern text reduced to what decides where groups are needed: parentheses, bars, bracket expressions
and everything else.
-/

namespace PatternBuilder

inductive Mark where
  | opening
  | closing
  | bar
  /-- A whole bracket expression. -/
  | bracket
  /-- A character, an escape sequence or a quantifier symbol. -/
  | plain
  deriving DecidableEq, Repr

namespace Mark

mutual

def ofText : Text → List Mark
  | [] => []
  | '\\' :: t => .plain :: afterEscape t
  | '[' :: t => .bracket :: afterBracket t
  | '(' :: t => .opening :: ofText t
  | ')' :: t => .closing :: ofText t
  | '|' :: t => .bar :: ofText t
  | _ :: t => .plain :: ofText t

def afterEscape : Text → List Mark
  | [] => []
  | _ :: t => ofText t

def afterBracket : Text → List Mark
  | [] => []
  | '\\' :: t => afterBracketEscape t
  | ']' :: t => ofText t
  | _ :: t => afterBracket t

def afterBracketEscape : Text → List Mark
  | [] => []
  | _ :: t => afterBracket t

end

/-- The group whose opening is `depth` levels above closes, and nothing follows it. -/
def closesLast : Nat → List Mark → Bool
  | _, [] => false
  | depth, .opening :: ms => closesLast (depth + 1) ms
  | 0, .closing :: ms => ms.isEmpty
  | depth + 1, .closing :: ms => closesLast depth ms
  | depth, .bar :: ms => closesLast depth ms
  | depth, .bracket :: ms => closesLast depth ms
  | depth, .plain :: ms => closesLast depth ms

/-- There is a bar outside of all groups. A closing mark too many is passed over. -/
def barOutside : Nat → List Mark → Bool
  | _, [] => false
  | depth, .opening :: ms => barOutside (depth + 1) ms
  | depth, .closing :: ms => barOutside (depth - 1) ms
  | 0, .bar :: _ => true
  | depth + 1, .bar :: ms => barOutside (depth + 1) ms
  | depth, .bracket :: ms => barOutside depth ms
  | depth, .plain :: ms => barOutside depth ms

def areOneGroup : List Mark → Bool
  | .opening :: ms => closesLast 0 ms
  | _ => false

end Mark

namespace Text

def isOneGroup (t : Text) : Bool := Mark.areOneGroup (Mark.ofText t)

def hasOuterBar (t : Text) : Bool := Mark.barOutside 0 (Mark.ofText t)

/-- A quantifier after the text repeats all of it. -/
def isUnit (t : Text) : Bool :=
  match Mark.ofText t with
  | [] => true
  | [.bracket] => true
  | [.plain] => true
  | ms => Mark.areOneGroup ms

/-- Removes a plain group around the whole text. Groups that capture or look around stay, since
they are part of the meaning. -/
def stripGroup (t : Text) : Text :=
  match t with
  | '(' :: '?' :: ':' :: rest => if t.isOneGroup then rest.dropLast else t
  | _ => t

end Text
end PatternBuilder
