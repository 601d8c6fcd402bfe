import LetScript.Execution.Eval
import LetScript.Execution.Sink

/-!
# Execution

Running statements: the scope and the output after them, and the value of the last one. Execution stops
at the first failure. A block leaves the scope that it opened in either case.
-/

namespace LetScript

/-- What execution changes. -/
structure State where
  /-- The names. -/
  scope : Scope
  /-- The output. -/
  sink : Sink

namespace State

/-- The state before a program has run. -/
def initial (sink : Sink) : State := ⟨.initial, sink⟩

/-- The state with another scope. -/
def withScope (st : State) (s : Scope) : State := ⟨s, st.sink⟩

end State

mutual

/-- Runs a statement. An expression statement has the value of its expression, all others have none. An absent
statement, at which a program breaks off, is refused with no place, like an absent expression. -/
def Stmt.exec : Stmt → State → Except Diagnostic Value × State
  | .expr _ value, st =>
    match value.eval st.scope with
    | (result, s) => (result, st.withScope s)
  | .println c value, st =>
    match value.eval st.scope with
    | (.error d, s) => (.error d, st.withScope s)
    | (.ok v, s) =>
      match st.sink.offer v.display.line with
      | (none, sink) => (.ok .nil, ⟨s, sink⟩)
      | (some cause, sink) => (.error ⟨c, .writeFailed cause⟩, ⟨s, sink⟩)
  | .declare c name isMutable init, st =>
    if st.scope.frame.contains name.lexeme then (.error ⟨c, .alreadyDeclared name.lexeme⟩, st)
    else
      match init.eval st.scope with
      | (.error d, s) => (.error d, st.withScope s)
      | (.ok v, s) => (.ok .nil, st.withScope (s.define name.lexeme ⟨isMutable, v⟩))
  | .block _ body, st =>
    match Stmt.execFrom .nil body (st.withScope st.scope.enter) with
    | (.error d, st') => (.error d, st'.withScope st'.scope.leave)
    | (.ok _, st') => (.ok .nil, st'.withScope st'.scope.leave)
  | .absent, st => (.error ⟨.nowhere, .foreignStatement absentName⟩, st)
  | .foreign c typeName, st => (.error ⟨c, .foreignStatement typeName⟩, st)

/-- Runs statements in order up to the first failure; the value is that of the last statement, or the
given one if there are none. -/
def Stmt.execFrom (value : Value) : List Stmt → State → Except Diagnostic Value × State
  | [], st => (.ok value, st)
  | s :: rest, st =>
    match s.exec st with
    | (.error d, st') => (.error d, st')
    | (.ok v, st') => Stmt.execFrom v rest st'

end

/-- Runs statements in order up to the first failure. -/
def Stmt.execAll (program : List Stmt) (st : State) : Except Diagnostic Value × State :=
  Stmt.execFrom .nil program st

/-- The outcome of one statement of a trace, and the states around it. -/
structure Step where
  /-- The value or the failure of the statement. -/
  result : Except Diagnostic Value
  /-- The state before it. -/
  before : State
  /-- The state after it. -/
  after : State

/-- Runs all statements in order, going on after failures. -/
def Stmt.trace : List Stmt → State → List Step
  | [], _ => []
  | s :: rest, st =>
    match s.exec st with
    | (result, st') => ⟨result, st, st'⟩ :: Stmt.trace rest st'

end LetScript
