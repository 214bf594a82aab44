import PatternBuilder.Unicode.WordData

/-!
# Escape sequences of the pattern dialect

What is written with a backslash, inside of brackets and outside: sets of characters, control
characters, characters by their code, and characters that would have a meaning of their own. The
causes for which a pattern is refused stand here too.
-/

namespace PatternBuilder.Dialect

inductive SyntaxError where
  | danglingEscape
  | unknownEscape (c : Char)
  | invalidCode
  | unclosedClass
  | invalidRange
  | unknownMode
  | invalidName
  | unopenedGroup
  | unclosedGroup
  | nothingToRepeat
  | reversedBounds
  | boundTooLarge
  | lookbehindWidth
  | nestedTooDeep
  | automatonTooLarge
  | notRegular
  deriving DecidableEq, Repr

def shorthand? : Char → Option CharSet
  | 'w' => some Unicode.wordSet
  | 'W' => some Unicode.wordSet.complement
  | 'd' => some Unicode.digitSet
  | 'D' => some Unicode.digitSet.complement
  | 's' => some Unicode.spaceSet
  | 'S' => some Unicode.spaceSet.complement
  | _ => none

def control? : Char → Option Char
  | 'a' => some '\x07'
  | 't' => some '\t'
  | 'n' => some '\n'
  | 'r' => some '\r'
  | 'f' => some '\x0c'
  | 'v' => some '\x0b'
  | 'e' => some '\x1b'
  | _ => none

def hexDigit? (c : Char) : Option Nat :=
  if c.isDigit then some (c.toNat - 48)
  else if 'a' ≤ c ∧ c ≤ 'f' then some (c.toNat - 87)
  else if 'A' ≤ c ∧ c ≤ 'F' then some (c.toNat - 55)
  else none

def charOfHex (digits : Text) : Except SyntaxError Char :=
  match digits.mapM hexDigit? with
  | none => .error .invalidCode
  | some ds =>
    let n := ds.foldl (fun n d => n * 16 + d) 0
    if n.isValidChar then .ok (Char.ofNat n) else .error .invalidCode

/-- A code of exactly `count` digits, or of one to eight in braces. -/
def readCode (count : Nat) (t : Text) : Except SyntaxError (Char × Text) :=
  let digits := t.take count
  if digits.length = count && digits.all fun c => (hexDigit? c).isSome then
    return (← charOfHex digits, t.drop count)
  else
    match t with
    | '\x7b' :: t =>
      match t.takeWhile (· != '\x7d'), t.dropWhile (· != '\x7d') with
      | d :: ds, _ :: rest =>
        if ds.length < 8 then return (← charOfHex (d :: ds), rest) else .error .invalidCode
      | _, _ => .error .invalidCode
    | _ => .error .invalidCode

/-- The character that the escape sequence of `c` and the text behind it stands for. Letters and
digits of ASCII do not stand for themselves. -/
def escapedChar (c : Char) (t : Text) : Except SyntaxError (Char × Text) :=
  match control? c with
  | some d => .ok (d, t)
  | none =>
    match c with
    | 'x' => readCode 2 t
    | 'u' => readCode 4 t
    | 'U' => readCode 8 t
    | c => if c.isAlphanum then .error (.unknownEscape c) else .ok (c, t)

end PatternBuilder.Dialect
