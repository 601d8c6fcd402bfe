import LetScript.Proofs.Execution.Replay
import LetScript.Proofs.Syntax.Relabelling

/-!
# Trees that differ in their places

Two trees that differ in their places only run alike. Together with what holds of reading: neither the lines of
the tokens nor the name of the source decide anything. They are seen in the headers of diagnostics, and nowhere
else.
-/

namespace LetScript

/-! ## Headers -/

/-- The line above the reason of a report. -/
def Context.header (c : Context) : Text :=
  Text.ofString "File \"<" ++ c.source ++ Text.ofString ">\", line " ++ Text.ofInt c.line ++
    Text.ofString ", in <" ++ (if c.part = [] then root else c.part) ++ Text.ofString ">\n"

/-- The diagnostics have the same class and the same reason, and read the same below their headers. -/
structure Diagnostic.SameBelowHeader (d d' : Diagnostic) : Prop where
  cls : d.fault.cls = d'.fault.cls
  incomplete : d.fault.incomplete = d'.fault.incomplete
  reason : d.fault.reason = d'.fault.reason
  text : ∃ below, d.message = d.context.header ++ below ∧ d'.message = d'.context.header ++ below

theorem Diagnostic.message_eq (d : Diagnostic) :
    d.message = d.context.header ++ (Text.ofString "    " ++ d.fault.reason) := by
  have hbreak : Text.ofString ">\n    " = Text.ofString ">\n" ++ Text.ofString "    " := by decide
  simp only [message, Context.report, Context.header, hbreak, List.append_assoc]

theorem Diagnostic.sameBelowHeader_of_fault {d d' : Diagnostic} (h : d.fault = d'.fault) :
    d.SameBelowHeader d' := by
  refine ⟨by rw [h], by rw [h], by rw [h], Text.ofString "    " ++ d.fault.reason, d.message_eq, ?_⟩
  rw [h, d'.message_eq]

/-- The outcomes are results of which so much is the same, or diagnostics that differ in their headers. -/
inductive SameButPlaces {α : Type} (same : α → α → Prop) : Except Diagnostic α → Except Diagnostic α → Prop
  | ok {a a' : α} : same a a' → SameButPlaces same (.ok a) (.ok a')
  | error {d d' : Diagnostic} : d.SameBelowHeader d' → SameButPlaces same (.error d) (.error d')

theorem sameButPlaces_of_erasing {α : Type} {f : α → α} {x x' : Except Diagnostic α}
    (h : Rereading.erasing.onOutcome f x = Rereading.erasing.onOutcome f x') :
    SameButPlaces (fun a a' => f a = f a') x x' := by
  cases x with
  | error d =>
      cases x' with
      | error d' =>
          simp only [Rereading.onOutcome, Rereading.erasing, Except.error.injEq, Diagnostic.mk.injEq] at h
          exact .error (Diagnostic.sameBelowHeader_of_fault h.2)
      | ok a' => cases h
  | ok a =>
      cases x' with
      | error d' => cases h
      | ok a' =>
          simp only [Rereading.onOutcome, Except.ok.injEq] at h
          exact .ok h

/-! ## Runs -/

/-- Two runs that end like a third one. -/
theorem EndAlike.sameButPlaces {P P' : Context → Context → Prop} {σ : Type}
    {x x' y : Except Diagnostic Value × σ} (h : EndAlike P x y) (h' : EndAlike P' x' y) :
    SameButPlaces Eq x.1 x'.1 ∧ x.2 = x'.2 := by
  cases h with
  | ok v s =>
      cases h' with
      | ok => exact ⟨.ok rfl, rfl⟩
  | error _ fault s =>
      cases h' with
      | error => exact ⟨.error (Diagnostic.sameBelowHeader_of_fault rfl), rfl⟩

/-- Trees that differ in their places only run alike. -/
theorem Stmt.execAll_sameButPlaces {program program' : List Stmt}
    (h : Stmt.unplacedAll program = Stmt.unplacedAll program') (st : State) :
    SameButPlaces Eq (Stmt.execAll program st).1 (Stmt.execAll program' st).1 ∧
      (Stmt.execAll program st).2 = (Stmt.execAll program' st).2 := by
  have hrun := Stmt.execFrom_relabel .erasing .nil program st
  rw [← Stmt.unplacedAll, h] at hrun
  exact hrun.sameButPlaces (Stmt.execFrom_relabel .erasing .nil program' st)

/-- Lines and source names decide nothing. Tokens that agree but for their lines are read alike, whatever the
sources are called, and trees that agree but for their places run alike. -/
theorem places_are_inert :
    (∀ (source source' : Text) (mode : Mode) (tokens tokens' : List Token),
      tokens.map Token.unplaced = tokens'.map Token.unplaced →
      SameButPlaces (fun program program' => Stmt.unplacedAll program = Stmt.unplacedAll program')
        (parseTokens source mode tokens) (parseTokens source' mode tokens')) ∧
    ∀ (program program' : List Stmt) (st : State), Stmt.unplacedAll program = Stmt.unplacedAll program' →
      SameButPlaces Eq (Stmt.execAll program st).1 (Stmt.execAll program' st).1 ∧
        (Stmt.execAll program st).2 = (Stmt.execAll program' st).2 := by
  refine ⟨fun source source' mode tokens tokens' h => ?_, fun program program' st h => ?_⟩
  · apply sameButPlaces_of_erasing
    rw [parseTokens_unplaced, parseTokens_unplaced, h]
  · exact Stmt.execAll_sameButPlaces h st

/-- The tokens of `println x +` on one line and on three, under two names, and a tree that reads `x` in two
places. -/
theorem places_are_inert_println :
    let tokens (l m n : Int) : List Token :=
      [⟨.keyword .printlnKw, Text.ofString "println", .none, l⟩, ⟨.identifier, Text.ofString "x", .none, m⟩,
        ⟨.plus, Text.ofString "+", .none, n⟩, .endOfInput n]
    let program (source : Text) (l : Int) : List Stmt :=
      [.println (.atLine source l)
        (.reference (.atLine source l) ⟨.identifier, Text.ofString "x", .none, l⟩)]
    (tokens 1 1 1).map Token.unplaced = (tokens 1 2 3).map Token.unplaced ∧
      SameButPlaces (fun program program' => Stmt.unplacedAll program = Stmt.unplacedAll program')
        (parseTokens [] .file (tokens 1 1 1)) (parseTokens (Text.ofString "b.ls") .file (tokens 1 2 3)) ∧
      Stmt.unplacedAll (program [] 1) = Stmt.unplacedAll (program (Text.ofString "b.ls") 9) ∧
      SameButPlaces Eq (Stmt.execAll (program [] 1) (.initial .unlimited)).1
        (Stmt.execAll (program (Text.ofString "b.ls") 9) (.initial .unlimited)).1 := by
  intro tokens program
  have htokens : (tokens 1 1 1).map Token.unplaced = (tokens 1 2 3).map Token.unplaced := rfl
  have hprogram : Stmt.unplacedAll (program [] 1) = Stmt.unplacedAll (program (Text.ofString "b.ls") 9) := rfl
  exact ⟨htokens, places_are_inert.1 _ _ _ _ _ htokens, hprogram, (places_are_inert.2 _ _ _ hprogram).1⟩

end LetScript
