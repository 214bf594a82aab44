import PatternBuilder.Dialect.Bracket
import PatternBuilder.Dialect.Node

/-!
# Lexemes of the pattern dialect

Pattern text cut into its lexemes. The modes that the text sets for itself are tracked on the way
and worked into the lexemes, so that the grammar knows nothing of them. A change of mode stands for
an empty group.
-/

namespace PatternBuilder.Dialect

structure Modes where
  ignoreCase : Bool := false
  /-- The line anchors hold at every line boundary. -/
  multiLine : Bool := false
  /-- The dot stands for line ends too. -/
  dotAll : Bool := false
  /-- Blanks and comments stand for nothing. -/
  extended : Bool := false
  /-- Quantifiers repeat as seldom as possible, unless they are marked. -/
  reluctant : Bool := false
  deriving DecidableEq, Repr

inductive Lexeme where
  | single (s : CharSet)
  | anchor (a : Anchor)
  | opening (p : Paren)
  | closing
  | bar
  | quantifier (min : Nat) (max : Option Nat) (greedy atomic : Bool)
  deriving DecidableEq, Repr

structure Reading where
  modes : Modes
  /-- For each open group the modes that come back behind it, if they do. -/
  outer : List (Option Modes)
  /-- The last lexeme is something to repeat. -/
  afterItem : Bool
  deriving DecidableEq, Repr

namespace Reading

def start : Reading := ⟨{}, [], false⟩

def opened (r : Reading) (outside : Option Modes) (inside : Modes) : Reading :=
  ⟨inside, outside :: r.outer, false⟩

def closed (r : Reading) : Reading :=
  match r.outer with
  | [] => { r with afterItem := true }
  | outside :: outer => ⟨outside.getD r.modes, outer, true⟩

end Reading

structure Cut where
  lexemes : List Lexeme
  next : Reading
  rest : Text
  deriving DecidableEq, Repr

def Reading.item (r : Reading) (lexemes : List Lexeme) (rest : Text) : Cut :=
  ⟨lexemes, { r with afterItem := true }, rest⟩

def isBlank (c : Char) : Bool := c == ' ' || c == '\t' || c == '\n' || c == '\r'

inductive Gap where
  | blanks
  | lineComment
  | groupComment
  deriving DecidableEq, Repr

/-- Skips what stands for nothing: comments in parentheses and, in extended mode, blanks and
comments up to the end of their line. -/
def skipGap (extended : Bool) : Gap → Text → Except SyntaxError Text
  | .groupComment, [] => .error .unclosedGroup
  | _, [] => .ok []
  | .lineComment, c :: t => skipGap extended (if c = '\n' then .blanks else .lineComment) t
  | .groupComment, ')' :: t => skipGap extended .blanks t
  | .groupComment, '\\' :: _ :: t => skipGap extended .groupComment t
  | .groupComment, _ :: t => skipGap extended .groupComment t
  | .blanks, '(' :: '?' :: '#' :: t => skipGap extended .groupComment t
  | .blanks, c :: t =>
    if extended && isBlank c then skipGap extended .blanks t
    else if extended && c == '#' then skipGap extended .lineComment t
    else .ok (c :: t)

def Reading.skip (r : Reading) (t : Text) : Except SyntaxError Text :=
  skipGap r.modes.extended .blanks t

def Modes.single (m : Modes) (c : Char) : Lexeme := .single (closed m.ignoreCase (.single c))

def anchor? : Char → Option Anchor
  | 'A' => some .textStart
  | 'z' => some .textEnd
  | 'b' => some .wordEdge
  | 'B' => some .noWordEdge
  | '<' => some .wordStart
  | '>' => some .wordEnd
  | 'Z' => some .lastLineEnds
  | _ => none

def Reading.escape (r : Reading) (c : Char) (t : Text) : Except SyntaxError Cut :=
  match c, anchor? c, shorthand? c with
  | 'h', _, _ => .ok (r.item [.single hexDigits] t)
  | 'H', _, _ => .ok (r.item [.single hexDigits.complement] t)
  | c, some a, _ =>
    if (a = .wordEdge ∨ a = .noWordEdge) ∧ t.head? = some '\x7b' then .error (.unknownEscape c)
    else .ok (r.item [.anchor a] t)
  | _, none, some s => .ok (r.item [.single s] t)
  | c, none, none => do
    let (d, rest) ← escapedChar c t
    return r.item [r.modes.single d] rest

def isNameChar (c : Char) : Bool := Unicode.isAlphanumeric c || c == '_'

def Reading.name (r : Reading) (t : Text) : Except SyntaxError Cut :=
  match t.takeWhile isNameChar, t.dropWhile isNameChar with
  | c :: name, '>' :: rest => .ok ⟨[.opening (.named (c :: name))], r.opened none r.modes, rest⟩
  | _, _ => .error .invalidName

def Modes.set? (m : Modes) (on : Bool) : Char → Option Modes
  | 'i' => some { m with ignoreCase := on }
  | 'm' => some { m with multiLine := on }
  | 's' => some { m with dotAll := on }
  | 'x' => some { m with extended := on }
  | 'U' => some { m with reluctant := on }
  | 'u' => if on then some m else none
  | _ => none

/-- Modes behind `(?`, up to a parenthesis, which makes them hold from here on, or to a colon, which
opens a group that they hold in. The modes behind a dash are switched off; `read` is what has been
read of them, backwards. A dash alone is an error. -/
def Reading.modeChange (r : Reading) (m : Modes) (on : Bool) (read : Text) :
    Text → Except SyntaxError Cut
  | [] => .error .unclosedGroup
  | ')' :: t =>
    if read = [] ∨ read = ['-'] then .error .unknownMode
    else .ok ⟨[.opening .plain, .closing], { r with modes := m, afterItem := true }, t⟩
  | ':' :: t =>
    if read = ['-'] then .error .unknownMode
    else .ok ⟨[.opening .plain], r.opened (some r.modes) m, t⟩
  | '-' :: t => if on then r.modeChange m false ('-' :: read) t else .error .unknownMode
  | c :: t =>
    if m.extended && isBlank c then r.modeChange m on (c :: read) t
    else
      match m.set? on c with
      | some m => r.modeChange m on (c :: read) t
      | none => .error .unknownMode

def Reading.group (r : Reading) (t : Text) : Except SyntaxError Cut :=
  let opening (p : Paren) (rest : Text) : Except SyntaxError Cut :=
    .ok ⟨[.opening p], r.opened none r.modes, rest⟩
  match t with
  | '?' :: '=' :: rest => opening (.look false false) rest
  | '?' :: '!' :: rest => opening (.look false true) rest
  | '?' :: '<' :: '=' :: rest => opening (.look true false) rest
  | '?' :: '<' :: '!' :: rest => opening (.look true true) rest
  | '?' :: '<' :: rest => r.name rest
  | '?' :: 'P' :: '<' :: rest => r.name rest
  | '?' :: '>' :: rest => opening .atomic rest
  | '?' :: rest => r.modeChange r.modes true [] rest
  | rest => opening .capture rest

/-- The numbers of quantifiers are words of 64 bits; the greatest stands for no bound. -/
def noBound : Nat := 18446744073709551615

def readNumber? (t : Text) : Option (Nat × Text) :=
  let digits := t.takeWhile Char.isDigit
  let n := Nat.ofDigitChars 10 digits 0
  if digits = [] ∨ noBound < n then none else some (n, t.dropWhile Char.isDigit)

def upperBound (n : Nat) : Option Nat := if n = noBound then none else some n

/-- Braces with one bound or two, from behind the opening brace on. Without a lower bound it is
zero, without an upper one there is none. -/
def Reading.braces? (r : Reading) (t : Text) : Option (Nat × Option Nat × Text) := do
  let t ← (r.skip t).toOption
  let (min, t) ← if t.head? == some ',' then some (0, t) else readNumber? t
  match ← (r.skip t).toOption with
  | '\x7d' :: rest => some (min, upperBound min, rest)
  | ',' :: t =>
    let t ← (r.skip t).toOption
    let (max, t) := (readNumber? t).getD (noBound, t)
    match ← (r.skip t).toOption with
    | '\x7d' :: rest => some (min, upperBound max, rest)
    | _ => none
  | _ => none

def Reading.bounds? (r : Reading) (c : Char) (t : Text) : Option (Nat × Option Nat × Text) :=
  match c with
  | '*' => some (0, none, t)
  | '+' => some (1, none, t)
  | '?' => some (0, some 1, t)
  | '\x7b' => r.braces? t
  | _ => none

/-- The marks behind the bounds: `?` for as seldom as possible, and then `+` for an atomic group. -/
def Reading.quantifier (r : Reading) (min : Nat) (max : Option Nat) (t : Text) :
    Except SyntaxError Cut := do
  let t ← r.skip t
  let marked := t.head? == some '?'
  let t := if marked then t.tail else t
  let atomic := t.head? == some '+'
  let t := if atomic then t.tail else t
  let greedy := marked == r.modes.reluctant
  return ⟨[.quantifier min max greedy atomic], { r with afterItem := false }, t⟩

def Reading.itemAt (r : Reading) (c : Char) (t : Text) : Except SyntaxError Cut :=
  match c with
  | '\\' =>
    match t with
    | [] => .error .danglingEscape
    | e :: rest => r.escape e rest
  | '[' => do
    let (s, rest) ← readBracket r.modes.ignoreCase t
    return r.item [.single s] rest
  | '(' => do r.group (← r.skip t)
  | ')' => .ok ⟨[.closing], r.closed, t⟩
  | '|' => .ok ⟨[.bar], { r with afterItem := false }, t⟩
  | '*' => .error .nothingToRepeat
  | '+' => .error .nothingToRepeat
  | '?' => .error .nothingToRepeat
  | '.' =>
    let ends := if r.modes.dotAll then CharSet.empty else .single '\n'
    .ok (r.item [.single ends.complement] t)
  | '^' => .ok (r.item [.anchor (if r.modes.multiLine then .lineStart else .textStart)] t)
  | '$' => .ok (r.item [.anchor (if r.modes.multiLine then .lineEnd else .textEnd)] t)
  | c => .ok (r.item [r.modes.single c] t)

/-- The lexemes at the start of a text. Braces that bound nothing are plain characters. -/
def Reading.cut (r : Reading) (c : Char) (t : Text) : Except SyntaxError Cut :=
  match if r.afterItem then r.bounds? c t else none with
  | some (min, max, rest) => r.quantifier min max rest
  | none => r.itemAt c t

def lexemesFrom (r : Reading) (skip : Nat) : Text → Except SyntaxError (List Lexeme)
  | [] => .ok []
  | c :: t =>
    match skip with
    | skip + 1 => lexemesFrom r skip t
    | 0 => do
      let rest ← r.skip (c :: t)
      if rest.length ≤ t.length then lexemesFrom r (t.length - rest.length) t
      else
        let cut ← r.cut c t
        return cut.lexemes ++ (← lexemesFrom cut.next (t.length - cut.rest.length) t)

def lexemes (t : Text) : Except SyntaxError (List Lexeme) := lexemesFrom .start 0 t

end PatternBuilder.Dialect
