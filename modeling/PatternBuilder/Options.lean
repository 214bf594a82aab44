import PatternBuilder.Outline
import PatternBuilder.Quantifier

/-!
# Clause options

What a clause asks for besides its content: repetition, grouping, and text around it.
-/

namespace PatternBuilder

inductive Grouping where
  | none
  | capture
  | nonCapture
  | named (name : Text)
  deriving DecidableEq, Repr

def Grouping.wrap : Grouping → Text → Text
  | .none, body => body
  | .capture, body => '(' :: body ++ [')']
  | .nonCapture, body => '(' :: '?' :: ':' :: body ++ [')']
  | .named name, body => '(' :: '?' :: '<' :: name ++ '>' :: body ++ [')']

structure Options where
  quantifier : Option Quantifier := none
  capture : Option Bool := none
  name : Option Text := none
  nonCapture : Bool := false
  before : Option Text := none
  after : Option Text := none
  isSeparator : Bool := false
  /-- A lone dot is the wildcard. -/
  bareDot : Bool := false
  /-- Several atoms do not fit a class, so a group is needed. -/
  longTexts : Bool := false
  deriving DecidableEq, Repr

namespace Options

instance : Inhabited Options := ⟨{}⟩

/-- The grouping asked for. A name means a capture, and a capture goes before a plain group. -/
def grouping (o : Options) : Grouping :=
  match o.name with
  | some name => .named name
  | none =>
    if o.capture = some true then .capture
    else if o.nonCapture then .nonCapture
    else .none

def asksForGroup (o : Options) : Bool := o.grouping != .none

def withoutGroups (o : Options) : Options :=
  { o with capture := some false, name := none, nonCapture := false }

/-- The clause has no text of its own before or after it. -/
def isUndecorated (o : Options) : Bool := o.before.isNone && o.after.isNone

def quantifierText (o : Options) : Text := Quantifier.optionText o.quantifier

def surround (o : Options) (body : Text) : Text := o.before.getD [] ++ body ++ o.after.getD []

/-- Puts group, quantifier and decoration around `body`. Alternatives, and a body that a quantifier
would not repeat as a whole, are grouped first; the group asked for serves when there is no
quantifier. -/
def dress (o : Options) (alternatives : Bool) (body : Text) : Text :=
  if alternatives || (!o.quantifierText.isEmpty && !body.isUnit) then
    if o.quantifierText.isEmpty && o.asksForGroup then
      o.surround (o.grouping.wrap body)
    else
      o.surround (o.grouping.wrap (Grouping.nonCapture.wrap body ++ o.quantifierText))
  else
    o.surround (o.grouping.wrap (body ++ o.quantifierText))

end Options
end PatternBuilder
