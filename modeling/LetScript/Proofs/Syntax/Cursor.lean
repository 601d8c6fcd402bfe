import LetScript.Proofs.Syntax.Sound

/-!
# Reading with a cursor

The readers take lists of tokens apart. Here the same language is read in place: the tokens stay as they are, and
a cursor moves over them, looks at the token on which it stands or at the one before, and steps on unless it
stands on an end of input. Nothing keeps it from a look past either end of the tokens, nor from going round for
ever: a walk that looks there, or does not come to its end in a given number of rounds, has no outcome. All that
is done with the cursor is written down with the places at which it stands.
-/

namespace LetScript

open Grammar

/-- What is done with a cursor. -/
inductive Cursor.Event where
  /-- The token at the cursor is looked at. -/
  | peek (index : Nat)
  /-- The token before the cursor is looked at. -/
  | previous (index : Nat)
  /-- A statement or an expression has been read. -/
  | parsed (start stop : Nat)

/-- Where the cursor stands when something is done with it. -/
def Cursor.Event.place : Cursor.Event → Nat
  | peek index => index
  | previous index => index + 1
  | parsed _ stop => stop

/-- A place among tokens, and all that has been done on the way there, the last first. -/
structure Cursor where
  position : Nat
  trace : List Cursor.Event

def Cursor.log (c : Cursor) (e : Cursor.Event) : Cursor := ⟨c.position, e :: c.trace⟩

/-- A computation that moves a cursor. It has no outcome if it looks past an end of the tokens or has not come to
its end. -/
abbrev Walk (α : Type) := ExceptT Diagnostic (StateT Cursor Option) α

namespace Walk

variable {α β : Type}

/-- The outcome of a walk from a cursor. -/
def start (w : Walk α) (c : Cursor) : Option (Except Diagnostic α × Cursor) := w.run.run c

/-- A walk that has not come to its end. -/
def unfinished : Walk α := fun _ => none

def position : Walk Nat := fun c => some (.ok c.position, c)

def forward : Walk Unit := fun c => some (.ok (), ⟨c.position + 1, c.trace⟩)

def log (e : Cursor.Event) : Walk Unit := fun c => some (.ok (), c.log e)

/-- A walk of which it is written down how far it gets. -/
def counted (w : Walk α) : Walk α := do
  let start ← position
  let a ← w
  let stop ← position
  log (.parsed start stop)
  return a

end Walk

open Walk

/-- Tokens to be read with a cursor. -/
structure Track where
  source : Text
  mode : Mode
  tokens : List Token

namespace Track

variable (k : Track)

/-! ## Steps of the cursor -/

def peek : Walk Token := fun c =>
  match k.tokens[c.position]? with
  | none => none
  | some t => some (.ok t, c.log (.peek c.position))

def previous : Walk Token := fun c =>
  match c.position with
  | 0 => none
  | i + 1 =>
    match k.tokens[i]? with
    | none => none
    | some t => some (.ok t, c.log (.previous i))

theorem start_peek {k : Track} {c : Cursor} {t : Token} (h : k.tokens[c.position]? = some t) :
    k.peek.start c = some (.ok t, c.log (.peek c.position)) := by
  simp only [start, ExceptT.run, StateT.run, peek, h]

theorem start_previous {k : Track} {c : Cursor} {i : Nat} {t : Token} (hposition : c.position = i + 1)
    (h : k.tokens[i]? = some t) : k.previous.start c = some (.ok t, c.log (.previous i)) := by
  simp only [start, ExceptT.run, StateT.run, previous, hposition, h]

def atEnd : Walk Bool := do
  let t ← k.peek
  return t.kind = .endOfInput

/-- Steps on unless at an end of input. Either way, the token before is given. -/
def advance : Walk Token := do
  if ← k.atEnd then k.previous
  else
    forward
    k.previous

def check (kind : Token.Kind) : Walk Bool := do
  if ← k.atEnd then return false
  else
    let t ← k.peek
    return t.kind = kind

/-- Steps over a token of one of the kinds, which are tried one after the other. -/
def accept : List Token.Kind → Walk Bool
  | [] => return false
  | kind :: more => do
    if ← k.check kind then
      let _ ← k.advance
      return true
    else accept more

def place (t : Token) : Context := .atLine k.source t.line

/-- The diagnostic for a token that is not what is wanted. -/
def refuse (wanted : Expectation) (t : Token) : Diagnostic :=
  if t.kind = .endOfInput then ⟨k.place t, .endedEarly wanted⟩ else ⟨k.place t, .misplaced wanted t.lexeme⟩

/-- Refuses the token at the cursor. -/
def fail {α : Type} (wanted : Expectation) : Walk α := do
  let t ← k.peek
  throw (k.refuse wanted t)

def expect (kind : Token.Kind) (wanted : Expectation) : Walk Token := do
  if ← k.check kind then k.advance else k.fail wanted

def terminator (wanted : Expectation) : Walk Unit := do
  if ← k.accept [.semicolon] then return ()
  else if k.mode = .prompt then return ()
  else k.fail wanted

/-! ## Expressions

The number is that of the rounds, of calls in calls and of loops, in which a walk has to come to its end.
-/

mutual

def expression (k : Track) : Nat → Walk Expr
  | 0 => unfinished
  | n + 1 => counted do
    let left ← k.layer n .equality
    if ← k.accept [.equal] then
      let sign ← k.previous
      let value ← k.expression n
      match left with
      | .reference context name => return .assign context name value
      | _ => throw (k.refuse .assignable sign)
    else return left

def layer (k : Track) : Nat → Layer → Walk Expr
  | 0, _ => unfinished
  | n + 1, l => counted do
    let left ← k.operand n l
    k.chain n l left

def operand (k : Track) : Nat → Layer → Walk Expr
  | 0, _ => unfinished
  | n + 1, .equality => k.layer n .comparison
  | n + 1, .comparison => k.layer n .sum
  | n + 1, .sum => k.layer n .product
  | n + 1, .product => k.unary n

def chain (k : Track) : Nat → Layer → Expr → Walk Expr
  | 0, _, _ => unfinished
  | n + 1, l, left => do
    if ← k.accept (operators l) then
      let op ← k.previous
      let right ← k.operand n l
      k.chain n l (.binary (k.place op) op left right)
    else return left

def unary (k : Track) : Nat → Walk Expr
  | 0 => unfinished
  | n + 1 => counted do
    if ← k.accept signs then
      let op ← k.previous
      let operand ← k.unary n
      return .unary (k.place op) op operand
    else k.primary n

def primary (k : Track) : Nat → Walk Expr
  | 0 => unfinished
  | n + 1 => counted do
    let t ← k.peek
    if t.kind.isLiteral then
      let _ ← k.advance
      return .literal (k.place t) t
    else if t.kind = .identifier then
      let _ ← k.advance
      return .reference (k.place t) t
    else if t.kind = .leftParen then
      let _ ← k.advance
      let inner ← k.expression n
      let _ ← k.expect .rightParen .closingParen
      return .group (k.place t) inner
    else throw (k.refuse .expression t)

end

/-! ## Statements -/

def declaration (n : Nat) : Walk Stmt := do
  let isMutable ← k.accept [.keyword .mutKw]
  let name ← k.expect .identifier .nameAfterLet
  let _ ← k.expect .equal .initializer
  let init ← k.expression n
  k.terminator .semicolonAfterExpression
  return .declare (k.place name) name isMutable init

def printing (n : Nat) : Walk Stmt := do
  let t ← k.previous
  let value ← k.expression n
  k.terminator .semicolonAfterStatement
  return .println (k.place t) value

def evaluation (n : Nat) : Walk Stmt := do
  let t ← k.peek
  let value ← k.expression n
  k.terminator .semicolonAfterExpression
  return .expr (k.place t) value

def closing : Walk (List Stmt) := do
  let _ ← k.expect .rightBrace .closingBrace
  return []

mutual

def statement (k : Track) : Nat → Walk Stmt
  | 0 => unfinished
  | n + 1 => counted do
    if ← k.accept [.keyword .letKw] then k.declaration n
    else if ← k.accept [.keyword .printlnKw] then k.printing n
    else if ← k.accept [.leftBrace] then
      let t ← k.previous
      let statements ← k.body n
      return .block (k.place t) statements
    else k.evaluation n

/-- The statements of a block, for as long as there is neither a closing brace nor an end of input, and then the
closing brace. -/
def body (k : Track) : Nat → Walk (List Stmt)
  | 0 => unfinished
  | n + 1 => do
    if ← k.check .rightBrace then k.closing
    else if ← k.atEnd then k.closing
    else
      let first ← k.statement n
      let others ← k.body n
      return first :: others

end

def program (k : Track) : Nat → Walk (List Stmt)
  | 0 => unfinished
  | n + 1 => do
    if ← k.atEnd then return []
    else
      let first ← k.statement n
      if k.mode = .prompt then return [first]
      else
        let others ← k.program n
        return first :: others

end Track

/-- Tokens with an end of input behind them, unless they have one there. -/
def Token.complete (tokens : List Token) : List Token :=
  match tokens.getLast? with
  | none => [.endOfInput 1]
  | some t => if t.kind = .endOfInput then tokens else tokens ++ [.endOfInput t.line]

/-- Reads tokens with a cursor, from the first token on, in a number of rounds. -/
def Cursor.parse (rounds : Nat) (source : Text) (mode : Mode) (tokens : List Token) :
    Option (Except Diagnostic (List Stmt) × Cursor) :=
  ((Track.mk (sourceOrDefault source) mode (Token.complete tokens)).program rounds).start ⟨0, []⟩

end LetScript
