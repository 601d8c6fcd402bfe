import LetScript.Diagnostic.Basic
import LetScript.Token.Lexer
import LetScript.Tree.Basic

/-!
# Reading programs

A recursive descent reader for the grammar

    program    = statement*
    statement  = "let" "mut"? name "=" expression ";" | "println" expression ";"
               | "{" statement* "}" | expression ";"
    expression = name "=" expression | equality
    equality   = comparison (("!=" | "==") comparison)*
    comparison = sum ((">" | ">=" | "<" | "<=") sum)*
    sum        = product (("-" | "+") product)*
    product    = unary (("/" | "*") unary)*
    unary      = ("!" | "-") unary | primary
    primary    = number | string | "true" | "false" | "nil" | name | "(" expression ")"

At a prompt the semicolons are optional and only one statement is read. Every reader returns what is left
of the tokens with the proof that it is shorter, which is why the readers end on every input. The
left side of an assignment is checked once its right side has been read.
-/

namespace LetScript

/-- How a source is read. -/
inductive Mode where
  /-- All statements, each with its terminator. -/
  | file
  /-- The first statement, terminators optional. -/
  | prompt
  deriving DecidableEq, Repr

/-- What stays the same while one source is read. -/
structure Reading where
  /-- The name of the source. -/
  source : Text
  /-- How it is read. -/
  mode : Mode
  /-- The line on which the input ends. -/
  lastLine : Int

/-- A tree read from the start of some tokens, and the tokens after it, fewer than a bound. -/
structure Phrase (α : Type) (bound : Nat) where
  /-- What has been read. -/
  tree : α
  /-- What has not been read. -/
  rest : List Token
  /-- Reading makes progress. -/
  within : rest.length < bound

/-- A layer of left-associative infix operators. -/
inductive Layer where
  | equality
  | comparison
  | sum
  | product
  deriving DecidableEq, Repr

namespace Layer

/-- Whether a token kind is an operator of the layer. -/
def admits : Layer → Token.Kind → Bool
  | equality, kind => kind = .bangEqual || kind = .equalEqual
  | comparison, kind =>
    kind = .greater || kind = .greaterEqual || kind = .less || kind = .lessEqual
  | sum, kind => kind = .minus || kind = .plus
  | product, kind => kind = .slash || kind = .star

/-- How many layers bind at least as tightly. -/
def rank : Layer → Nat
  | equality => 4
  | comparison => 3
  | sum => 2
  | product => 1

end Layer

/-- Whether a token kind is an operator that stands before its operand. -/
def Token.Kind.isSign (kind : Token.Kind) : Bool := kind = .bang || kind = .minus

/-- Whether a token kind is a literal. -/
def Token.Kind.isLiteral (kind : Token.Kind) : Bool :=
  kind = .keyword .falseKw || kind = .keyword .trueKw || kind = .keyword .nilKw || kind = .number ||
    kind = .string

namespace Reading

/-- The place of a token. -/
def place (r : Reading) (t : Token) : Context := .atLine r.source t.line

/-- The diagnostic for tokens that do not go on as wanted. -/
def refuse (r : Reading) (wanted : Expectation) : List Token → Diagnostic
  | [] => ⟨.atLine r.source r.lastLine, .endedEarly wanted⟩
  | t :: _ => ⟨r.place t, .misplaced wanted t.lexeme⟩

/-- A token of the given kind. -/
def expect (r : Reading) (kind : Token.Kind) (wanted : Expectation) :
    (ts : List Token) → Except Diagnostic (Phrase Token ts.length)
  | [] => .error (r.refuse wanted [])
  | t :: rest =>
    if t.kind = kind then .ok ⟨t, rest, by simp⟩ else .error (r.refuse wanted (t :: rest))

/-- The end of a statement: a semicolon, or nothing at a prompt. -/
def terminator (r : Reading) (wanted : Expectation) :
    (ts : List Token) → Except Diagnostic (Phrase Unit (ts.length + 1))
  | [] => if r.mode = .prompt then .ok ⟨(), [], by simp⟩ else .error (r.refuse wanted [])
  | t :: rest =>
    if t.kind = .semicolon then .ok ⟨(), rest, by simp only [List.length_cons]; omega⟩
    else if r.mode = .prompt then .ok ⟨(), t :: rest, by simp⟩
    else .error (r.refuse wanted (t :: rest))

mutual

/-- An expression: an assignment, or an operand of one. -/
def expression (r : Reading) (ts : List Token) : Except Diagnostic (Phrase Expr ts.length) :=
  match r.layer .equality ts with
  | .error d => .error d
  | .ok ⟨left, [], h⟩ => .ok ⟨left, [], h⟩
  | .ok ⟨left, sign :: more, h⟩ =>
    if sign.kind = .equal then
      match r.expression more with
      | .error d => .error d
      | .ok ⟨value, rest, h'⟩ =>
        match left with
        | .reference context name =>
          .ok ⟨.assign context name value, rest, by simp at h; omega⟩
        | _ => .error (r.refuse .assignable (sign :: more))
    else .ok ⟨left, sign :: more, h⟩
termination_by 16 * ts.length + 10
decreasing_by
  · simp [Layer.rank]
  · simp at h; omega

/-- Operands of a layer, joined by its operators. -/
def layer (r : Reading) (l : Layer) (ts : List Token) : Except Diagnostic (Phrase Expr ts.length) :=
  match r.operand l ts with
  | .error d => .error d
  | .ok ⟨left, rest, h⟩ =>
    match r.chain l left rest with
    | .error d => .error d
    | .ok ⟨tree, rest', h'⟩ => .ok ⟨tree, rest', by omega⟩
termination_by 16 * ts.length + 2 * l.rank + 1

/-- An operand of a layer: a phrase of the next tighter one. -/
def operand (r : Reading) (l : Layer) (ts : List Token) : Except Diagnostic (Phrase Expr ts.length) :=
  match l with
  | .equality => r.layer .comparison ts
  | .comparison => r.layer .sum ts
  | .sum => r.layer .product ts
  | .product => r.unary ts
termination_by 16 * ts.length + 2 * l.rank
decreasing_by all_goals simp [Layer.rank]

/-- The operators of a layer and their right operands, after what has been read of it. -/
def chain (r : Reading) (l : Layer) (left : Expr) (ts : List Token) :
    Except Diagnostic (Phrase Expr (ts.length + 1)) :=
  match ts with
  | [] => .ok ⟨left, [], by simp⟩
  | op :: more =>
    if l.admits op.kind then
      match r.operand l more with
      | .error d => .error d
      | .ok ⟨right, rest, h⟩ =>
        match r.chain l (.binary (r.place op) op left right) rest with
        | .error d => .error d
        | .ok ⟨tree, rest', h'⟩ => .ok ⟨tree, rest', by simp; omega⟩
    else .ok ⟨left, op :: more, by simp⟩
termination_by 16 * ts.length
decreasing_by
  · cases l <;> simp [Layer.rank] <;> omega
  · simp; omega

/-- Operators before their operand, and a primary expression. -/
def unary (r : Reading) (ts : List Token) : Except Diagnostic (Phrase Expr ts.length) :=
  match ts with
  | [] => .error (r.refuse .expression [])
  | t :: more =>
    if t.kind.isSign then
      match r.unary more with
      | .error d => .error d
      | .ok ⟨operand, rest, h⟩ => .ok ⟨.unary (r.place t) t operand, rest, by simp; omega⟩
    else r.primary t more
termination_by 16 * ts.length + 1
decreasing_by all_goals simp only [List.length_cons]; omega

/-- A primary expression that starts with the token `t`. -/
def primary (r : Reading) (t : Token) (more : List Token) :
    Except Diagnostic (Phrase Expr (more.length + 1)) :=
  if t.kind.isLiteral then .ok ⟨.literal (r.place t) t, more, by simp⟩
  else if t.kind = .identifier then .ok ⟨.reference (r.place t) t, more, by simp⟩
  else if t.kind = .leftParen then
    match r.expression more with
    | .error d => .error d
    | .ok ⟨inner, rest, h⟩ =>
      match r.expect .rightParen .closingParen rest with
      | .error d => .error d
      | .ok ⟨_, rest', h'⟩ => .ok ⟨.group (r.place t) inner, rest', by omega⟩
  else .error (r.refuse .expression (t :: more))
termination_by 16 * (more.length + 1)
decreasing_by omega

end

/-- The mark of a mutable declaration, which may be missing. -/
def mutableMark : (ts : List Token) → Phrase Bool (ts.length + 1)
  | [] => ⟨false, [], by simp⟩
  | t :: rest =>
    if t.kind = .keyword .mutKw then ⟨true, rest, by simp only [List.length_cons]; omega⟩
    else ⟨false, t :: rest, by simp⟩

/-- A declaration after its `let`. -/
def declaration (r : Reading) (ts : List Token) : Except Diagnostic (Phrase Stmt ts.length) :=
  match mutableMark ts with
  | ⟨isMutable, rest₁, h₁⟩ =>
    match r.expect .identifier .nameAfterLet rest₁ with
    | .error d => .error d
    | .ok ⟨name, rest₂, h₂⟩ =>
      match r.expect .equal .initializer rest₂ with
      | .error d => .error d
      | .ok ⟨_, rest₃, h₃⟩ =>
        match r.expression rest₃ with
        | .error d => .error d
        | .ok ⟨init, rest₄, h₄⟩ =>
          match r.terminator .semicolonAfterExpression rest₄ with
          | .error d => .error d
          | .ok ⟨_, rest₅, h₅⟩ => .ok ⟨.declare (r.place name) name isMutable init, rest₅, by omega⟩

/-- A print statement after its keyword, the token `t`. -/
def printing (r : Reading) (t : Token) (ts : List Token) : Except Diagnostic (Phrase Stmt ts.length) :=
  match r.expression ts with
  | .error d => .error d
  | .ok ⟨value, rest, h⟩ =>
    match r.terminator .semicolonAfterStatement rest with
    | .error d => .error d
    | .ok ⟨_, rest', h'⟩ => .ok ⟨.println (r.place t) value, rest', by omega⟩

/-- An expression statement that starts with the token `t`. -/
def evaluation (r : Reading) (t : Token) (more : List Token) :
    Except Diagnostic (Phrase Stmt (more.length + 1)) :=
  match r.expression (t :: more) with
  | .error d => .error d
  | .ok ⟨value, rest, h⟩ =>
    match r.terminator .semicolonAfterExpression rest with
    | .error d => .error d
    | .ok ⟨_, rest', h'⟩ => .ok ⟨.expr (r.place t) value, rest', by simp at h; omega⟩

mutual

/-- A statement that starts with the token `t`. -/
def statement (r : Reading) (t : Token) (more : List Token) :
    Except Diagnostic (Phrase Stmt (more.length + 1)) :=
  if t.kind = .keyword .letKw then
    match r.declaration more with
    | .error d => .error d
    | .ok ⟨tree, rest, h⟩ => .ok ⟨tree, rest, by omega⟩
  else if t.kind = .keyword .printlnKw then
    match r.printing t more with
    | .error d => .error d
    | .ok ⟨tree, rest, h⟩ => .ok ⟨tree, rest, by omega⟩
  else if t.kind = .leftBrace then
    match r.body more with
    | .error d => .error d
    | .ok ⟨statements, rest, h⟩ => .ok ⟨.block (r.place t) statements, rest, by omega⟩
  else r.evaluation t more
termination_by 2 * more.length + 1

/-- The statements of a block up to and with its closing brace. -/
def body (r : Reading) (ts : List Token) : Except Diagnostic (Phrase (List Stmt) ts.length) :=
  match ts with
  | [] => .error (r.refuse .closingBrace [])
  | t :: more =>
    if t.kind = .rightBrace then .ok ⟨[], more, by simp⟩
    else
      match r.statement t more with
      | .error d => .error d
      | .ok ⟨first, rest, h⟩ =>
        match r.body rest with
        | .error d => .error d
        | .ok ⟨others, rest', h'⟩ => .ok ⟨first :: others, rest', by simp; omega⟩
termination_by 2 * ts.length

end

/-- The statements of a source; at a prompt, the first. -/
def program (r : Reading) (ts : List Token) : Except Diagnostic (List Stmt) :=
  match ts with
  | [] => .ok []
  | t :: more =>
    match r.statement t more with
    | .error d => .error d
    | .ok ⟨first, rest, _⟩ =>
      if r.mode = .prompt then .ok [first]
      else
        match r.program rest with
        | .error d => .error d
        | .ok others => .ok (first :: others)
termination_by ts.length
decreasing_by simp; omega

end Reading

/-- The name by which a source without a name is known. -/
def defaultSource : Text := Text.ofString "input"

/-- The name of a source, or the default for an empty one. -/
def sourceOrDefault (source : Text) : Text := if source = [] then defaultSource else source

/-- The line on which tokens end: that of the first end of input or, if there is none, of the last
token; no tokens end on line one. -/
def Token.lastLine : List Token → Int
  | [] => 1
  | [t] => t.line
  | t :: rest => if t.kind = .endOfInput then t.line else Token.lastLine rest

/-- The statements that tokens spell, up to the first end of input. -/
def parseTokens (source : Text) (mode : Mode) (tokens : List Token) : Except Diagnostic (List Stmt) :=
  let reading : Reading := ⟨sourceOrDefault source, mode, Token.lastLine tokens⟩
  reading.program (tokens.takeWhile (·.kind ≠ .endOfInput))

/-- The statements that a source text spells. -/
def parse (source : Text) (mode : Mode) (text : Text) : Except Diagnostic (List Stmt) :=
  match Token.scan (sourceOrDefault source) text with
  | .error d => .error d
  | .ok tokens => parseTokens source mode tokens

end LetScript
