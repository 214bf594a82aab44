import PatternBuilder.Dialect.EscapeSequence

/-!
# Bracket expressions

The sets of characters written in brackets: members, ranges, escape sequences, brackets in brackets,
and the operators `&&` (both), `--` (without) and `~~` (one of both), which all bind alike and to
the left.
-/

namespace PatternBuilder.Dialect

inductive BracketToken where
  /-- A character as it is written, which may be an operator. -/
  | plain (c : Char)
  | escaped (c : Char)
  | shorthand (s : CharSet)
  /-- A class with a name, complete in itself. -/
  | named (s : CharSet)
  deriving DecidableEq, Repr

def closed (ignoreCase : Bool) (s : CharSet) : CharSet := if ignoreCase then s.foldCase else s

def hexDigits : CharSet := ⟨[⟨0x30, 0x39⟩, ⟨0x41, 0x46⟩, ⟨0x61, 0x66⟩]⟩

def namedClasses : List (Text × CharSet) := [
  ("alnum".toList, ⟨[⟨0x30, 0x39⟩, ⟨0x41, 0x5A⟩, ⟨0x61, 0x7A⟩]⟩),
  ("alpha".toList, ⟨[⟨0x41, 0x5A⟩, ⟨0x61, 0x7A⟩]⟩),
  ("ascii".toList, ⟨[⟨0x00, 0x7F⟩]⟩),
  ("blank".toList, ⟨[⟨0x09, 0x09⟩, ⟨0x20, 0x20⟩]⟩),
  ("cntrl".toList, ⟨[⟨0x00, 0x1F⟩, ⟨0x7F, 0x7F⟩]⟩),
  ("digit".toList, ⟨[⟨0x30, 0x39⟩]⟩),
  ("graph".toList, ⟨[⟨0x21, 0x7E⟩]⟩),
  ("lower".toList, ⟨[⟨0x61, 0x7A⟩]⟩),
  ("print".toList, ⟨[⟨0x20, 0x7E⟩]⟩),
  ("punct".toList, ⟨[⟨0x21, 0x2F⟩, ⟨0x3A, 0x40⟩, ⟨0x5B, 0x60⟩, ⟨0x7B, 0x7E⟩]⟩),
  ("space".toList, ⟨[⟨0x09, 0x0D⟩, ⟨0x20, 0x20⟩]⟩),
  ("upper".toList, ⟨[⟨0x41, 0x5A⟩]⟩),
  ("word".toList, ⟨[⟨0x30, 0x39⟩, ⟨0x41, 0x5A⟩, ⟨0x5F, 0x5F⟩, ⟨0x61, 0x7A⟩]⟩),
  ("xdigit".toList, hexDigits)]

/-- A class such as `[:alpha:]` or `[:^alpha:]`, from behind the opening bracket on. -/
def readNamedClass? (ignoreCase : Bool) (t : Text) : Option (CharSet × Text) :=
  match t with
  | ':' :: t => do
    let negated := t.head? == some '^'
    let t := if negated then t.tail else t
    let s ← namedClasses.lookup (t.takeWhile (· != ':'))
    match t.dropWhile (· != ':') with
    | ':' :: ']' :: rest =>
      let s := closed ignoreCase s
      some (if negated then s.complement else s, rest)
    | _ => none
  | _ => none

/-- The letters whose escape sequences have a meaning outside of brackets only. Inside they stand
for themselves. -/
def outsideLetters : Text := "ABGKkz".toList

def classEscape (c : Char) (t : Text) : Except SyntaxError (BracketToken × Text) :=
  match shorthand? c, c with
  | some s, _ => .ok (.shorthand s, t)
  | none, 'h' => .ok (.named hexDigits, t)
  | none, 'H' => .ok (.named hexDigits.complement, t)
  | none, 'b' => .ok (.escaped '\x08', t)
  | none, c =>
    if outsideLetters.contains c then .ok (.escaped c, t)
    else do
      let (d, rest) ← escapedChar c t
      return (.escaped d, rest)

def greatestNesting : Nat := 250

/-- The tokens from behind the first `skip` characters on, up to the closing bracket, and the text
behind it; `nested` brackets have been opened inside. -/
def bracketTokens (ignoreCase : Bool) (skip nested : Nat) :
    Text → Except SyntaxError (List BracketToken × Text)
  | [] => .error .unclosedClass
  | c :: t =>
    match skip, c with
    | skip + 1, _ => bracketTokens ignoreCase skip nested t
    | 0, '\\' =>
      match t with
      | [] => .error .unclosedClass
      | e :: u => do
        let (token, rest) ← classEscape e u
        let (tokens, rest) ← bracketTokens ignoreCase (t.length - rest.length) nested t
        return (token :: tokens, rest)
    | 0, '[' =>
      match readNamedClass? ignoreCase t with
      | some (s, rest) => do
        let (tokens, rest) ← bracketTokens ignoreCase (t.length - rest.length) nested t
        return (.named s :: tokens, rest)
      | none =>
        if greatestNesting < nested + 2 then .error .nestedTooDeep
        else do
          let (tokens, rest) ← bracketTokens ignoreCase 0 (nested + 1) t
          return (.plain c :: tokens, rest)
    | 0, ']' =>
      match nested with
      | 0 => .ok ([.plain c], t)
      | nested + 1 => do
        let (tokens, rest) ← bracketTokens ignoreCase 0 nested t
        return (.plain c :: tokens, rest)
    | 0, c => do
      let (tokens, rest) ← bracketTokens ignoreCase 0 nested t
      return (.plain c :: tokens, rest)

inductive SetOperator where
  | both
  | without
  | oneOfBoth
  deriving DecidableEq, Repr

def SetOperator.apply : SetOperator → CharSet → CharSet → CharSet
  | .both => CharSet.inter
  | .without => CharSet.diff
  | .oneOfBoth => CharSet.symmDiff

structure BracketLevel where
  negated : Bool
  members : CharSet
  left : Option (SetOperator × CharSet)
  deriving DecidableEq, Repr

namespace BracketLevel

def start (negated : Bool) : BracketLevel := ⟨negated, .empty, none⟩

def add (l : BracketLevel) (s : CharSet) : BracketLevel := { l with members := s.union l.members }

def joined (ignoreCase : Bool) (l : BracketLevel) : CharSet :=
  match l.left with
  | none => l.members
  | some (op, left) => op.apply (closed ignoreCase left) (closed ignoreCase l.members)

def operate (ignoreCase : Bool) (l : BracketLevel) (op : SetOperator) : BracketLevel :=
  { l with members := .empty, left := some (op, l.joined ignoreCase) }

/-- The set of the bracket; it is negated after letter case is dealt with. -/
def value (ignoreCase : Bool) (l : BracketLevel) : CharSet :=
  let s := closed ignoreCase (l.joined ignoreCase)
  if l.negated then s.complement else s

end BracketLevel

inductive BracketPhase where
  | opened
  /-- The sign of negation is past. -/
  | signed
  | dashed
  | inside
  deriving DecidableEq, Repr

def BracketToken.char? : BracketToken → Option Char
  | .plain c => some c
  | .escaped c => some c
  | _ => none

def BracketToken.set : BracketToken → CharSet
  | .plain c => .single c
  | .escaped c => .single c
  | .shorthand s => s
  | .named s => s

def tokenRange (lo hi : BracketToken) : Except SyntaxError CharSet :=
  match lo.char?, hi.char? with
  | some lo, some hi => if lo ≤ hi then .ok (.range lo hi) else .error .invalidRange
  | _, _ => .error .invalidRange

def readSet (ignoreCase : Bool) (phase : BracketPhase) (level : BracketLevel)
    (outer : List BracketLevel) : List BracketToken → Except SyntaxError CharSet
  | [] => .error .unclosedClass
  | token :: tokens =>
    if phase = .opened ∧ token = .plain '^' then
      readSet ignoreCase .signed { level with negated := true } outer tokens
    else if phase ≠ .inside ∧ token = .plain '-' then
      readSet ignoreCase .dashed (level.add (.single '-')) outer tokens
    else if (phase = .opened ∨ phase = .signed) ∧ token = .plain ']' then
      readSet ignoreCase .inside (level.add (.single ']')) outer tokens
    else
      match token, tokens with
      | .plain '[', tokens => readSet ignoreCase .opened (.start false) (level :: outer) tokens
      | .plain ']', tokens =>
        match outer with
        | [] => if tokens.isEmpty then .ok (level.value ignoreCase) else .error .unclosedClass
        | around :: outer =>
          readSet ignoreCase .inside (around.add (level.value ignoreCase)) outer tokens
      | .plain '&', .plain '&' :: tokens =>
        readSet ignoreCase .inside (level.operate ignoreCase .both) outer tokens
      | .plain '-', .plain '-' :: tokens =>
        readSet ignoreCase .inside (level.operate ignoreCase .without) outer tokens
      | .plain '~', .plain '~' :: tokens =>
        readSet ignoreCase .inside (level.operate ignoreCase .oneOfBoth) outer tokens
      | .named s, tokens => readSet ignoreCase .inside (level.add s) outer tokens
      | lo, .plain '-' :: hi :: tokens =>
        if hi = .plain ']' ∨ hi = .plain '-' then
          readSet ignoreCase .inside (level.add lo.set) outer (.plain '-' :: hi :: tokens)
        else do
          readSet ignoreCase .inside (level.add (← tokenRange lo hi)) outer tokens
      | token, tokens => readSet ignoreCase .inside (level.add token.set) outer tokens

/-- The set that is written from behind the opening bracket on, and the text behind it. A closing
bracket in the first place is a member. -/
def readBracket (ignoreCase : Bool) (t : Text) : Except SyntaxError (CharSet × Text) := do
  let negated := t.head? == some '^'
  let t := if negated then t.tail else t
  let first := t.head? == some ']'
  let t := if first then t.tail else t
  let (tokens, rest) ← bracketTokens ignoreCase 0 0 t
  let tokens := if first then .plain ']' :: tokens else tokens
  return (← readSet ignoreCase .signed (.start negated) [] tokens, rest)

end PatternBuilder.Dialect
