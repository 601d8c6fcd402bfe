import LetScript.Settings.Basic
import LetScript.Text.Quoted
import LetScript.Yaml.Node

/-!
# Settings from documents

A settings document is a mapping from the names of settings to their values. What it does not mention, or
sets to null, stays as it is. Values of the wrong kind and names that are no settings are collected in
the order of the document; keys that are given twice are reported alone. A mapping can take over the pairs
of others, for names that it does not give itself. A document whose parts contradict their tags, or that takes
over something else than mappings, is malformed.
-/

namespace LetScript

namespace Settings

/-- The settings by name. -/
inductive Field where
  | prompt
  | continuationPrompt
  | history
  | historyFile
  | sourceName
  | maxEchoWidth
  deriving DecidableEq, Repr

namespace Field

/-- All settings. -/
def all : List Field := [prompt, continuationPrompt, history, historyFile, sourceName, maxEchoWidth]

/-- The name of a setting in a document. -/
def name : Field → Text
  | prompt => Text.ofString "prompt"
  | continuationPrompt => Text.ofString "continuation_prompt"
  | history => Text.ofString "history"
  | historyFile => Text.ofString "history_file"
  | sourceName => Text.ofString "source_name"
  | maxEchoWidth => Text.ofString "max_echo_width"

/-- The setting with a name. -/
def ofName? (name : Text) : Option Field := all.find? fun f => f.name = name

/-- The kind of value of a setting, in messages. -/
def target : Field → Text
  | history => Text.ofString "bool"
  | maxEchoWidth => Text.ofString "int"
  | _ => Text.ofString "string"

end Field

/-- The kind of a settings document, in messages. -/
def documentTarget : Text := Text.ofString "main.Config"

/-- How a document departs from what settings can be. -/
inductive Mismatch where
  /-- A key is given again. -/
  | duplicateKey (line : Nat) (key : Text) (firstLine : Nat)
  /-- A key names no setting. -/
  | unknownField (line : Nat) (name : Text)
  /-- A key names a setting that another key, spelt otherwise, has named before. -/
  | repeatedField (line : Nat) (name : Text)
  /-- A value is of another kind than the one wanted. -/
  | wrongKind (line : Nat) (tag text wanted : Text)

namespace Mismatch

/-- A value in a message: a long one is cut to its first bytes. -/
def excerpt (value : Text) : Text :=
  if 10 < value.length then value.take 7 ++ Text.ofString "..." else value

/-- A value after its tag in a message. -/
def shown (tag text : Text) : Text :=
  if tag = Yaml.Tag.sequence ∨ tag = Yaml.Tag.mapping then text
  else Text.ofString " \u0060" ++ excerpt text ++ Text.ofString "\u0060"

/-- The wording of a mismatch. -/
def message : Mismatch → Text
  | duplicateKey line key firstLine =>
    Text.ofString "line " ++ Text.ofNat line ++ Text.ofString ": mapping key " ++ key.quoted ++
      Text.ofString " already defined at line " ++ Text.ofNat firstLine
  | unknownField line name =>
    Text.ofString "line " ++ Text.ofNat line ++ Text.ofString ": field " ++ name ++
      Text.ofString " not found in type " ++ documentTarget
  | repeatedField line name =>
    Text.ofString "line " ++ Text.ofNat line ++ Text.ofString ": field " ++ name ++
      Text.ofString " already set in type " ++ documentTarget
  | wrongKind line tag text wanted =>
    Text.ofString "line " ++ Text.ofNat line ++ Text.ofString ": cannot unmarshal " ++ tag ++
      shown tag text ++ Text.ofString " into " ++ wanted

end Mismatch

/-! ## Values -/

/-- The words that mean yes where a truth value is wanted. -/
def yesWords : List String := ["y", "Y", "yes", "Yes", "YES", "on", "On", "ON"]

/-- The words that mean no where a truth value is wanted. -/
def noWords : List String := ["n", "N", "no", "No", "NO", "off", "Off", "OFF"]

/-- A value as a truth value. -/
def boolOf? : Yaml.Resolved → Option Bool
  | .bool b => some b
  | .text t =>
    if Yaml.isOneOf t yesWords then some true
    else if Yaml.isOneOf t noWords then some false
    else none
  | _ => none

/-- The whole part of a double as a 64-bit integer: doubles above the range are refused, and those at its
upper end or below it become the least integer. -/
def wholePart? (negative : Bool) (magnitude : Nat) : Option Int :=
  if Binary64.infinity < magnitude then none
  else
    let whole : Nat :=
      Binary64.significand magnitude * Nat.pow 2 (Binary64.binade magnitude) / Nat.pow 2 1074
    if negative then some (-((min whole Yaml.signedLimit : Nat) : Int))
    else if whole < Yaml.signedLimit then some whole
    else if whole = Yaml.signedLimit then some (-(Yaml.signedLimit : Int))
    else none

/-- A value as an integer. -/
def intOf? : Yaml.Resolved → Option Int
  | .integer n => if n < Yaml.signedLimit then some n else none
  | .float negative magnitude => wholePart? negative magnitude
  | _ => none

/-- A value as a text: any scalar can be taken as it is written. -/
def textOf (resolved : Yaml.Resolved) (written : Text) : Text :=
  match resolved with
  | .text t => t
  | _ => written

/-- A setting given by a scalar that is not null. -/
def setScalar? (s : Settings) (field : Field) (resolved : Yaml.Resolved) (written : Text) : Option Settings :=
  match field with
  | .prompt => some { s with prompt := textOf resolved written }
  | .continuationPrompt => some { s with continuationPrompt := textOf resolved written }
  | .history => (boolOf? resolved).map fun b => { s with history := b }
  | .historyFile => some { s with historyFile := textOf resolved written }
  | .sourceName => some { s with sourceName := textOf resolved written }
  | .maxEchoWidth => (intOf? resolved).map fun n => { s with maxEchoWidth := n }

/-! ## Keys -/

/-- What identifies a key: its kind, and the text of a scalar or the name of a reference. -/
def keyText : Yaml.Node → Nat × Text
  | .scalar _ _ text => (0, text)
  | .sequence _ _ _ => (1, [])
  | .mapping _ _ _ => (2, [])
  | .reference _ _ name _ => (3, name)

/-- The keys that repeat an earlier one, for each key in turn. -/
def duplicates : List (Yaml.Node × Yaml.Node) → List Mismatch
  | [] => []
  | (key, _) :: rest =>
    (rest.filter fun (other, _) => keyText other = keyText key).map (fun (other, _) =>
      Mismatch.duplicateKey other.line (keyText other).2 key.line) ++ duplicates rest

/-- Why a sequence or a mapping is not what is wanted; a mapping that repeats a key is reported for that. -/
def collectionMismatch (wanted : Text) : Yaml.Node → List Mismatch
  | .sequence line tag _ => [.wrongKind line tag [] wanted]
  | .mapping line tag pairs =>
    match duplicates pairs with
    | [] => [.wrongKind line tag [] wanted]
    | repeated => repeated
  | _ => []

/-- What a key says. -/
inductive KeyName where
  /-- It gives a name. -/
  | given (name : Text)
  /-- It gives none, for some reasons; a null key needs no reason. -/
  | missing (reasons : List Mismatch)

/-- The name that a key gives. -/
def keyName (d : Yaml.Document) (key : Yaml.Node) : Except Yaml.Malformed KeyName := do
  match d.follow key with
  | .scalar _ tag text =>
    match ← Yaml.resolveAs tag text with
    | .null => return .missing []
    | r => return .given (textOf r text)
  | part => return .missing (collectionMismatch (Text.ofString "string") part)

/-- The names among the keys of a mapping. -/
def givenNames (d : Yaml.Document) (pairs : List (Yaml.Node × Yaml.Node)) : List Text :=
  pairs.filterMap fun (key, _) =>
    match d.follow key with
    | .scalar _ tag text =>
      match Yaml.resolveAs tag text with
      | .ok (.text name) => some name
      | _ => none
    | _ => none

/-! ## Mappings -/

/-- Settings under way, and the mismatches found so far. -/
abbrev Progress := Settings × List Mismatch

/-- Adds mismatches. -/
def report (progress : Progress) (found : List Mismatch) : Progress := (progress.1, progress.2 ++ found)

/-- Gives a setting the value of a node. -/
def setField (d : Yaml.Document) (progress : Progress) (field : Field) (value : Yaml.Node) :
    Except Yaml.Malformed Progress := do
  match d.follow value with
  | .scalar line tag text =>
    match ← Yaml.resolveAs tag text with
    | .null => return progress
    | r =>
      match setScalar? progress.1 field r text with
      | some s => return (s, progress.2)
      | none => return report progress [.wrongKind line tag text field.target]
  | part => return report progress (collectionMismatch field.target part)

/-- A mapping under way. -/
structure Pass where
  /-- The settings and mismatches. -/
  progress : Progress
  /-- The settings that the mapping has given. -/
  given : List Field
  /-- The names that count as given, if the mapping is taken over into another. -/
  names : Option (List Text)

/-- Takes over a pair of a mapping. Names that count as given already are passed over. -/
def setPair (d : Yaml.Document) (pass : Pass) (pair : Yaml.Node × Yaml.Node) : Except Yaml.Malformed Pass := do
  if pair.1.isMerge then return pass
  match ← keyName d pair.1 with
  | .missing reasons => return { pass with progress := report pass.progress reasons }
  | .given name =>
    if pass.names.any (·.contains name) then return pass
    let pass := { pass with names := pass.names.map (name :: ·) }
    match Field.ofName? name with
    | none => return { pass with progress := report pass.progress [.unknownField pair.1.line name] }
    | some field =>
      if pass.given.contains field then
        return { pass with progress := report pass.progress [.repeatedField pair.1.line name] }
      let progress ← setField d pass.progress field pair.2
      return { pass with progress := progress, given := field :: pass.given }

/-- The parts that a mapping takes over pairs from. -/
def mergeParts (pairs : List (Yaml.Node × Yaml.Node)) : List Yaml.Node :=
  match (pairs.filter (·.1.isMerge)).getLast? with
  | none => []
  | some (_, .sequence _ _ items) => items
  | some (_, part) => [part]

/-- Settings and mismatches, and the names that count as given, if there are mappings to take over. -/
abbrev State := Progress × Option (List Text)

/-- The settings after the pairs of a mapping and those that it takes over. The first argument bounds the depth;
`active` are the references on the way, none of which may lead back to itself. -/
def setMapping (d : Yaml.Document) :
    Nat → List Nat → State → List (Yaml.Node × Yaml.Node) → Except Yaml.Malformed State
  | 0, _, state, _ => .ok state
  | n + 1, active, (progress, names), pairs => do
    let repeated := duplicates pairs
    if repeated ≠ [] then return (report progress repeated, names)
    let pass ← pairs.foldlM (setPair d) ⟨progress, [], names⟩
    let merge (state : State) (part : Yaml.Node) : Except Yaml.Malformed State :=
      match part, d.follow part with
      | .reference _ place name _, .mapping _ _ inner =>
        if active.contains place then .error ⟨none, .cycle name⟩
        else setMapping d n (place :: active) state inner
      | _, .mapping _ _ inner => setMapping d n active state inner
      | _, _ => .error ⟨none, .mergeKind⟩
    (mergeParts pairs).foldlM merge (pass.progress, pass.names.orElse fun _ => some (givenNames d pairs))

/-- The settings after a document, and its mismatches. -/
def decode (s : Settings) (d : Yaml.Document) : Except Yaml.Malformed Progress := do
  match d.follow d.root with
  | .scalar line tag text =>
    match ← Yaml.resolveAs tag text with
    | .null => return (s, [])
    | _ => return (s, [.wrongKind line tag text documentTarget])
  | .mapping _ _ pairs =>
    let (progress, _) ← setMapping d ((d.extent + 2) * (d.extent + 2)) [] ((s, []), none) pairs
    return progress
  | part => return (s, collectionMismatch documentTarget part)

end Settings

end LetScript
