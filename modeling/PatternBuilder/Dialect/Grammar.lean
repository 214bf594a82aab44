import PatternBuilder.Dialect.Lexeme

/-!
# Grammar of the pattern dialect

Builds the tree of a pattern from its lexemes, one lexeme at a time. The unfinished groups lie on a
stack, the innermost first.
-/

namespace PatternBuilder.Dialect

/-- The unfinished inside of a group: the branches before the last bar and the items behind it, both
with the last one first. -/
structure Level where
  branches : List Node
  items : List Node
  deriving DecidableEq, Repr

namespace Level

def start : Level := ⟨[], []⟩

def push (l : Level) (n : Node) : Level := { l with items := n :: l.items }

def branch (l : Level) : Node := Node.ofItems l.items.reverse

def split (l : Level) : Level := ⟨l.branch :: l.branches, []⟩

def node (l : Level) : Node :=
  match (l.branch :: l.branches).reverse with
  | [] => .empty
  | n :: ns => Node.ofBranches n ns

def repeatLast (l : Level) (min : Nat) (max : Option Nat) (greedy atomic : Bool) :
    Except SyntaxError Level :=
  match l.items with
  | [] => .error .nothingToRepeat
  | n :: ns =>
    if n.isRepeatable then
      let repeated := Node.times n min max greedy
      .ok { l with items := (if atomic then .paren .atomic repeated else repeated) :: ns }
    else .error .nothingToRepeat

end Level

structure Stack where
  current : Level
  /-- The opened groups, each with the level around it. -/
  opened : List (Paren × Level)
  deriving DecidableEq, Repr

namespace Stack

def start : Stack := ⟨.start, []⟩

def feed (s : Stack) : Lexeme → Except SyntaxError Stack
  | .single x => .ok { s with current := s.current.push (.single x) }
  | .anchor a => .ok { s with current := s.current.push (.anchor a) }
  | .bar => .ok { s with current := s.current.split }
  | .opening p => .ok ⟨.start, (p, s.current) :: s.opened⟩
  | .closing =>
    match s.opened with
    | [] => .error .unopenedGroup
    | (p, outer) :: opened => .ok ⟨outer.push (.paren p s.current.node), opened⟩
  | .quantifier min max greedy atomic =>
    return { s with current := ← s.current.repeatLast min max greedy atomic }

def finish (s : Stack) : Except SyntaxError Node :=
  if s.opened.isEmpty then .ok s.current.node else .error .unclosedGroup

end Stack

def Node.ofLexemes (ls : List Lexeme) : Except SyntaxError Node := do
  (← ls.foldlM Stack.feed .start).finish

def Node.parse (t : Text) : Except SyntaxError Node := do Node.ofLexemes (← lexemes t)

end PatternBuilder.Dialect
