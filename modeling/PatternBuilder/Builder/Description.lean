import PatternBuilder.Builder

/-!
# Descriptions

A builder with all its parts on one line, for diagnosis.
-/

namespace PatternBuilder.Description

def call (name : String) (args : List String) : String :=
  name ++ "(" ++ ", ".intercalate args ++ ")"

def field (name value : String) : String := name ++ ": " ++ value

def record (name : String) (fields : List String) : String :=
  name ++ " \x7b " ++ ", ".intercalate fields ++ " \x7d"

def list (items : List String) : String := "[" ++ ", ".intercalate items ++ "]"

def option : Option String → String
  | none => "None"
  | some s => call "Some" [s]

def bool (b : Bool) : String := if b then "true" else "false"

def number (n : Nat) : String := String.ofList (decimal n)

/-- The character as it stands between quotes. Control characters are written as escapes. -/
def escaped (quote c : Char) : String :=
  if c = quote ∨ c = '\\' then "\\" ++ c.toString
  else if c = '\n' then "\\n"
  else if c = '\t' then "\\t"
  else if c = '\r' then "\\r"
  else if c = '\x00' then "\\0"
  else if c.toNat < 0x20 ∨ c.toNat = 0x7F then
    "\\u\x7b" ++ String.ofList (Nat.toDigits 16 c.toNat) ++ "\x7d"
  else c.toString

def char (c : Char) : String := "'" ++ escaped '\'' c ++ "'"

def text (t : Text) : String := "\"" ++ String.join (t.map (escaped '"')) ++ "\""

def atom : Atom → String
  | .range r => call "CharRange" [char r.lo, char r.hi]
  | .char c => call "Char" [char c]
  | .literal t => call "Literal" [text t]
  | .token t => call "RawToken" [text t]

def quantifier : Quantifier → String
  | .zeroOrMore => "ZeroOrMore"
  | .oneOrMore => "OneOrMore"
  | .zeroOrOne => "ZeroOrOne"
  | .exactly n => call "Exactly" [number n]
  | .range min max =>
    record "Range" [field "min" (option (min.map number)), field "max" (option (max.map number))]

def options (o : Options) : String :=
  record "ClauseOptions" [
    field "quantifier" (option (o.quantifier.map quantifier)),
    field "capture" (option (o.capture.map bool)),
    field "name" (option (o.name.map text)),
    field "non_capture" (bool o.nonCapture),
    field "prepend" (option (o.before.map text)),
    field "append" (option (o.after.map text)),
    field "is_or_marker" (bool o.isSeparator),
    field "unescape_dot" (bool o.bareDot),
    field "long_strings_present" (bool o.longTexts)]

mutual

def builder : Builder → String
  | ⟨clauses, flags, _, recipe, _⟩ =>
    record "Engine" [
      field "clauses" (list (clauseList clauses)),
      field "flags" (call "FlagSet" [number flags.number]),
      field "procedure" (bool recipe.isSome)]

def clauseList : List (Clause Builder) → List String
  | [] => []
  | c :: cs => clause c :: clauseList cs

def clause : Clause Builder → String
  | ⟨b, o, index⟩ =>
    record "Clause" [field "body" (body b), field "options" (options o),
      field "index" (number index)]

def body : Body Builder → String
  | .atoms as => call "Atoms" [list (as.map atom)]
  | .nested b => call "Engine" [builder b]

end

end PatternBuilder.Description
