import PatternBuilder.Builder

/-!
# Vocabulary

Words for building patterns step by step. A word that takes a builder function writes what the
function makes of an empty builder as one clause.
-/

namespace PatternBuilder

namespace Options

def quantified (q : Quantifier) : Options := { quantifier := some q }

def capturing : Options := { capture := some true }

def grouped : Options := { nonCapture := true }

def namedCapture (name : Text) : Options := { name := some name }

def startingWith (text : Text) : Options := { before := some text }

def endingWith (text : Text) : Options := { after := some text }

def enclosedBy (before after : Text) : Options := { before := some before, after := some after }

def lookaround (opening : Text) : Options := (enclosedBy opening [')']).withoutGroups

end Options

namespace Anchor

def lineStart : Text := ['^']

def lineEnd : Text := ['$']

def textStart : Text := ['\\', 'A']

def textEnd : Text := ['\\', 'z']

end Anchor

namespace Lookaround

def ahead : Text := ['(', '?', '=']

def notAhead : Text := ['(', '?', '!']

def behind : Text := ['(', '?', '<', '=']

def notBehind : Text := ['(', '?', '<', '!']

end Lookaround

namespace Builder

def embedWith (b : Builder) (o : Options) (build : Builder → Builder) : Builder :=
  b.embed (build empty) o

/-- Repeats the clause before it. -/
def quantify (b : Builder) (q : Quantifier) : Builder := b.append .empty (.quantified q)

def find (b : Builder) (v : Value) : Builder := b.append v {}

def findWith (b : Builder) (build : Builder → Builder) : Builder := b.embedWith {} build

def andThen (b : Builder) (v : Value) : Builder := b.find v

def andThenWith (b : Builder) (build : Builder → Builder) : Builder := b.findWith build

def oneOf (b : Builder) (v : Value) : Builder := b.find v

def anyOf (b : Builder) (v : Value) : Builder := b.find v

def orFind (b : Builder) (v : Value) : Builder := b.separate.find v

def orFindWith (b : Builder) (build : Builder → Builder) : Builder := b.separate.findWith build

def group (b : Builder) (v : Value) : Builder := b.append v .grouped

def groupWith (b : Builder) (build : Builder → Builder) : Builder := b.embedWith .grouped build

def capture (b : Builder) (v : Value) : Builder := b.append v .capturing

def captureWith (b : Builder) (build : Builder → Builder) : Builder := b.embedWith .capturing build

def captureAs (b : Builder) (name : Text) (v : Value) : Builder := b.append v (.namedCapture name)

def captureAsWith (b : Builder) (name : Text) (build : Builder → Builder) : Builder :=
  b.embedWith (.namedCapture name) build

def quantified (b : Builder) (q : Quantifier) (v : Value) : Builder := b.append v (.quantified q)

def quantifiedWith (b : Builder) (q : Quantifier) (build : Builder → Builder) : Builder :=
  b.embedWith (.quantified q) build

def oneOrMore (b : Builder) (v : Value) : Builder := b.quantified .oneOrMore v

def oneOrMoreWith (b : Builder) (build : Builder → Builder) : Builder :=
  b.quantifiedWith .oneOrMore build

def zeroOrMore (b : Builder) (v : Value) : Builder := b.quantified .zeroOrMore v

def zeroOrMoreWith (b : Builder) (build : Builder → Builder) : Builder :=
  b.quantifiedWith .zeroOrMore build

def zeroOrOne (b : Builder) (v : Value) : Builder := b.quantified .zeroOrOne v

def zeroOrOneWith (b : Builder) (build : Builder → Builder) : Builder :=
  b.quantifiedWith .zeroOrOne build

def maybe (b : Builder) (v : Value) : Builder := b.zeroOrOne v

def exactly (b : Builder) (n : Nat) (v : Value) : Builder := b.quantified (.exactly n) v

def exactlyWith (b : Builder) (n : Nat) (build : Builder → Builder) : Builder :=
  b.quantifiedWith (.exactly n) build

def between (b : Builder) (min max : Nat) (v : Value) : Builder :=
  b.quantified (.between min max) v

def betweenWith (b : Builder) (min max : Nat) (build : Builder → Builder) : Builder :=
  b.quantifiedWith (.between min max) build

def atLeast (b : Builder) (min : Nat) (v : Value) : Builder := b.quantified (.atLeast min) v

def atLeastWith (b : Builder) (min : Nat) (build : Builder → Builder) : Builder :=
  b.quantifiedWith (.atLeast min) build

def atMost (b : Builder) (max : Nat) (v : Value) : Builder := b.quantified (.atMost max) v

def atMostWith (b : Builder) (max : Nat) (build : Builder → Builder) : Builder :=
  b.quantifiedWith (.atMost max) build

def lineStartsWith (b : Builder) (v : Value) : Builder :=
  b.append v (.startingWith Anchor.lineStart)

def textStartsWith (b : Builder) (v : Value) : Builder :=
  b.append v (.startingWith Anchor.textStart)

def lineEndsWith (b : Builder) (v : Value) : Builder := b.append v (.endingWith Anchor.lineEnd)

def textEndsWith (b : Builder) (v : Value) : Builder := b.append v (.endingWith Anchor.textEnd)

def wholeLine (b : Builder) (v : Value) : Builder :=
  b.append v (.enclosedBy Anchor.lineStart Anchor.lineEnd)

def wholeText (b : Builder) (v : Value) : Builder :=
  b.append v (.enclosedBy Anchor.textStart Anchor.textEnd)

def startOfLine (b : Builder) : Builder := b.lineStartsWith .empty

def startOfText (b : Builder) : Builder := b.textStartsWith .empty

def endOfLine (b : Builder) : Builder := b.lineEndsWith .empty

def endOfText (b : Builder) : Builder := b.textEndsWith .empty

def lookaround (b : Builder) (opening : Text) (v : Value) : Builder :=
  b.append v (.lookaround opening)

def lookaroundWith (b : Builder) (opening : Text) (build : Builder → Builder) : Builder :=
  b.embedWith (.lookaround opening) build

def followedBy (b : Builder) (v : Value) : Builder := b.lookaround Lookaround.ahead v

def followedByWith (b : Builder) (build : Builder → Builder) : Builder :=
  b.lookaroundWith Lookaround.ahead build

def notFollowedBy (b : Builder) (v : Value) : Builder := b.lookaround Lookaround.notAhead v

def notFollowedByWith (b : Builder) (build : Builder → Builder) : Builder :=
  b.lookaroundWith Lookaround.notAhead build

def precededBy (b : Builder) (v : Value) : Builder := b.lookaround Lookaround.behind v

def precededByWith (b : Builder) (build : Builder → Builder) : Builder :=
  b.lookaroundWith Lookaround.behind build

def notPrecededBy (b : Builder) (v : Value) : Builder := b.lookaround Lookaround.notBehind v

def notPrecededByWith (b : Builder) (build : Builder → Builder) : Builder :=
  b.lookaroundWith Lookaround.notBehind build

def caseInsensitive (b : Builder) : Builder := b.addFlag .ignoreCase

def caseSensitive (b : Builder) : Builder := b.removeFlag .ignoreCase

def multiLine (b : Builder) : Builder := b.addFlag .multiLine

def singleLine (b : Builder) : Builder := b.removeFlag .multiLine

def blanksIgnored (b : Builder) : Builder := b.addFlag .extended

def blanksKept (b : Builder) : Builder := b.removeFlag .extended

end Builder
end PatternBuilder
