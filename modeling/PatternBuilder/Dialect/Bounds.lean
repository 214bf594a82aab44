import PatternBuilder.Text

/-!
# Open lower bounds

Writes the lower bound zero into braces that leave it open, outside of escapes and classes.
-/

namespace PatternBuilder.Dialect

def hasOpenBound : Text → Bool
  | [] => false
  | c :: t => (c == '\x7b' && t.head? == some ',') || hasOpenBound t

def fillBounds (inClass : Bool) : Text → Text
  | [] => []
  | ['\\'] => ['\\']
  | '\\' :: c :: t => '\\' :: c :: fillBounds inClass t
  | '[' :: t => '[' :: fillBounds true t
  | ']' :: t => ']' :: fillBounds false t
  | '\x7b' :: t =>
    if !inClass && t.head? == some ',' then '\x7b' :: '0' :: fillBounds inClass t
    else '\x7b' :: fillBounds inClass t
  | c :: t => c :: fillBounds inClass t

def withLowerBounds (t : Text) : Text := if hasOpenBound t then fillBounds false t else t

end PatternBuilder.Dialect
