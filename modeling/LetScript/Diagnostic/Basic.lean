import LetScript.Diagnostic.Context
import LetScript.Diagnostic.Fault

/-!
# Diagnostics and failures

A diagnostic is a fault at a place. What a caller may meet besides are failures of the outside world,
which have a text but no class; either may be wrapped in further labels, which change the text and
nothing else.
-/

namespace LetScript

/-- A fault at a place. -/
structure Diagnostic where
  /-- Where it arose. -/
  context : Context
  /-- What is wrong. -/
  fault : Fault

namespace Diagnostic

/-- The two-line report of a diagnostic. -/
def message (d : Diagnostic) : Text := d.context.report d.fault.reason

end Diagnostic

/-- Why an operation failed. -/
inductive Failure where
  /-- A fault of the program. -/
  | diagnostic (d : Diagnostic)
  /-- A failure of the outside world. -/
  | external (text : Text)
  /-- A failure under a label. -/
  | labelled (label : Text) (cause : Failure)

namespace Failure

/-- The text of a failure. -/
def message : Failure → Text
  | diagnostic d => d.message
  | external text => text
  | labelled label cause => label ++ Text.ofString ": " ++ cause.message

/-- The diagnostic inside a failure. -/
def diagnostic? : Failure → Option Diagnostic
  | diagnostic d => some d
  | external _ => none
  | labelled _ cause => cause.diagnostic?

/-- The class of a failure, if it is a fault of the program. -/
def class? (f : Failure) : Option FaultClass := f.diagnostic?.map (·.fault.cls)

/-- Whether a failure is a fault of the given class. -/
def isOfClass (f : Failure) (cls : FaultClass) : Bool := f.class? = some cls

/-- Whether more input could mend the failure. -/
def incomplete (f : Failure) : Bool :=
  match f.diagnostic? with
  | some d => d.fault.incomplete
  | none => false

end Failure

end LetScript
