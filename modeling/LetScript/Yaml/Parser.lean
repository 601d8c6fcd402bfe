import LetScript.Yaml.Lexer
import LetScript.Yaml.Node

/-!
# Reading documents

The tree of the first document of a file. What follows that document is looked at only as far as is needed to
see that it has ended. A reader gives a part of the tree and the state after it, or what is wrong with it; its
first argument bounds the number of steps and is never exhausted, since each step takes a token. With what is
wrong among tokens, lines are named as they are counted from zero.
-/

namespace LetScript

namespace Yaml

/-- A problem with a token on one line of something that starts on another. -/
def misfit (start place : Nat) (problem : Problem) : Malformed :=
  ⟨(Malformed.lineOf start place).map (· - 1), problem⟩

/-- The state of reading a document. -/
structure Reader where
  /-- The tokens that follow. -/
  lexer : Lexer
  /-- What tags with a handle start with. -/
  handles : List (Text × Text)
  /-- The names given so far with the numbers of the parts they stand for, latest first. -/
  names : List (Text × Nat)
  /-- The named parts that are complete. -/
  named : List (Nat × Node)

namespace Reader

/-- The next token. -/
def peek (r : Reader) : Except Malformed (Token × Reader) := do
  let (t, lexer) ← r.lexer.peek
  return (t, { r with lexer := lexer })

/-- Takes the next token. -/
def take (r : Reader) : Reader := { r with lexer := r.lexer.take }

/-- Gives the next part a name, if it has one. -/
def enter (name : Option Text) (r : Reader) : Reader :=
  match name with
  | none => r
  | some name => { r with names := (name, r.names.length) :: r.names }

/-- Records a part with the number that it had from its start. -/
def leave (name : Option Text) (number : Nat) (node : Node) (r : Reader) : Reader :=
  if name.isSome then { r with named := (number, node) :: r.named } else r

end Reader

/-! ## Properties -/

/-- What stands before a part. -/
structure Properties where
  /-- The line of the first property. -/
  line : Option Nat
  /-- The name. -/
  name : Option Text
  /-- The tag; empty if there is none. -/
  tag : Text

/-- The tag with a handle; `none` if the handle is not known or nothing is left of the tag. -/
def fullTag? (handles : List (Text × Text)) (handle suffix : Text) : Option Text :=
  if handle = [] then some suffix
  else
    match handles.lookup handle with
    | none => none
    | some beginning => if beginning ++ suffix = [] then none else some (beginning ++ suffix)

/-- A name, if one follows. -/
def nameProperty (r : Reader) : Except Malformed (Option Text × Reader) := do
  match ← r.peek with
  | (⟨.anchor name, _⟩, r) => return (some name, r.take)
  | (_, r) => return (none, r)

/-- A tag by line, handle and suffix, if one follows. -/
def tagProperties (r : Reader) : Except Malformed (Option (Nat × Text × Text) × Reader) := do
  match ← r.peek with
  | (⟨.tag handle suffix, line⟩, r) => return (some (line, handle, suffix), r.take)
  | (_, r) => return (none, r)

/-- A name and a tag in either order, as far as they follow. -/
def propertyPair (r : Reader) : Except Malformed ((Option Text × Option (Nat × Text × Text)) × Reader) := do
  match ← nameProperty r with
  | (some name, r) =>
    let (tag, r) ← tagProperties r
    return ((some name, tag), r)
  | (none, r) =>
    match ← tagProperties r with
    | (some tag, r) =>
      let (name, r) ← nameProperty r
      return ((name, some tag), r)
    | (none, r) => return ((none, none), r)

/-- The properties that follow. -/
def properties (r : Reader) : Except Malformed (Properties × Reader) := do
  let (first, r) ← r.peek
  let ((name, tag), r) ← propertyPair r
  let line := if name.isSome || tag.isSome then some first.line else none
  match tag with
  | none => return (⟨line, name, []⟩, r)
  | some (place, handle, suffix) =>
    -- the token after the properties is looked at before their handle is
    let (_, r) ← r.peek
    match fullTag? r.handles handle suffix with
    | some tag => return (⟨line, name, tag⟩, r)
    | none => .error (misfit first.line place .unknownHandle)

/-- Whether a tag asks for something. -/
def isSpecific (tag : Text) : Bool := tag ≠ [] && tag ≠ bang

/-- The tag of a collection. -/
def collectionTag (given usual : Text) : Text := if isSpecific given then Tag.short given else usual

/-- The tag of a scalar: what is not plain is text, and a plain scalar shows what it stands for. -/
def scalarTag (given : Text) (isPlain : Bool) (text : Text) : Text :=
  if isSpecific given then Tag.short given
  else if !isPlain then Tag.text
  else if text = Text.ofString "<<" then Tag.merge
  else (resolve true text).tag

/-! ## Parts -/

/-- Whether a token cannot start the key or the value of a pair in a block mapping. -/
def endsBlockPart : TokenKind → Bool
  | .key | .value | .blockEnd => true
  | _ => false

/-- Whether a token cannot start an item of a sequence in the column of the mapping around it. -/
def endsLevelItem : TokenKind → Bool
  | .blockEntry | .key | .value | .blockEnd => true
  | _ => false

/-- Whether a token cannot start an item of a block sequence. -/
def endsBlockItem : TokenKind → Bool
  | .blockEntry | .blockEnd => true
  | _ => false

/-- Whether a token cannot start a key between brackets that are closed by `closing`. -/
def endsFlowKey (closing : TokenKind) (kind : TokenKind) : Bool :=
  kind = .value || kind = .flowEntry || kind = closing

/-- Whether a token cannot start a value between brackets that are closed by `closing`. -/
def endsFlowValue (closing : TokenKind) (kind : TokenKind) : Bool := kind = .flowEntry || kind = closing

mutual

/-- A part. Block collections are looked for if `inBlock`, and sequences in the column of the mapping around
them if `atLevel`. -/
def node : Nat → Bool → Bool → Reader → Except Malformed (Node × Reader)
  | 0, _, _, _ => .error (misfit 1 1 .missingContent)
  | n + 1, inBlock, atLevel, r => do
    match ← r.peek with
    | (⟨.reference name place, line⟩, r) =>
      match r.names.lookup name with
      | some target => return (.reference line place name target, r.take)
      | none => .error ⟨none, .unknownName name⟩
    | (_, r) =>
      let (p, r) ← properties r
      let number := r.names.length
      let (part, r) ← content n inBlock atLevel p (r.enter p.name)
      return (part, r.leave p.name number part)

/-- A part after its properties. -/
def content : Nat → Bool → Bool → Properties → Reader → Except Malformed (Node × Reader)
  | 0, _, _, _, _ => .error (misfit 1 1 .missingContent)
  | n + 1, inBlock, atLevel, p, r => do
    let (t, r) ← r.peek
    let line := p.line.getD t.line
    let sequence := Node.sequence line (collectionTag p.tag Tag.sequence)
    let mapping := Node.mapping line (collectionTag p.tag Tag.mapping)
    match t.kind with
    | .scalar isPlain text => return (.scalar line (scalarTag p.tag isPlain text) text, r.take)
    | .flowSequenceStart =>
      let (items, r) ← flowItems n t.line true [] r.take
      return (sequence items, r)
    | .flowMappingStart =>
      let (pairs, r) ← flowPairs n t.line true [] r.take
      return (mapping pairs, r)
    | kind =>
      if atLevel ∧ kind = .blockEntry then
        let (items, r) ← levelItems n [] r
        return (sequence items, r)
      else if inBlock ∧ kind = .blockSequenceStart then
        let (items, r) ← blockItems n t.line [] r.take
        return (sequence items, r)
      else if inBlock ∧ kind = .blockMappingStart then
        let (pairs, r) ← blockPairs n t.line [] r.take
        return (mapping pairs, r)
      else if p.name.isSome ∨ p.tag ≠ [] then return (.scalar line (scalarTag p.tag true []) [], r)
      else .error (misfit line t.line .missingContent)

/-- The items of a block sequence that starts on a line, after those in `done`. -/
def blockItems : Nat → Nat → List Node → Reader → Except Malformed (List Node × Reader)
  | 0, start, _, _ => .error (misfit start start .missingDash)
  | n + 1, start, done, r => do
    match ← r.peek with
    | (⟨.blockEnd, _⟩, r) => return (done, r.take)
    | (⟨.blockEntry, line⟩, r) =>
      let (t, r) ← r.take.peek
      let (item, r) ← if endsBlockItem t.kind then pure (.omitted line, r) else node n true false r
      blockItems n start (done ++ [item]) r
    | (t, _) => .error (misfit start t.line .missingDash)

/-- The items of a sequence in the column of the mapping around it, after those in `done`. -/
def levelItems : Nat → List Node → Reader → Except Malformed (List Node × Reader)
  | 0, done, r => .ok (done, r)
  | n + 1, done, r => do
    match ← r.peek with
    | (⟨.blockEntry, line⟩, r) =>
      let (t, r) ← r.take.peek
      let (item, r) ← if endsLevelItem t.kind then pure (.omitted line, r) else node n true false r
      levelItems n (done ++ [item]) r
    | (_, r) => return (done, r)

/-- The pairs of a block mapping that starts on a line, after those in `done`. -/
def blockPairs : Nat → Nat → List (Node × Node) → Reader →
    Except Malformed (List (Node × Node) × Reader)
  | 0, start, _, _ => .error (misfit start start .missingKey)
  | n + 1, start, done, r => do
    match ← r.peek with
    | (⟨.blockEnd, _⟩, r) => return (done, r.take)
    | (⟨.key, line⟩, r) =>
      let (t, r) ← r.take.peek
      let (key, r) ← if endsBlockPart t.kind then pure (.omitted line, r) else node n true true r
      let (value, r) ← blockValue n r
      blockPairs n start (done ++ [(key, value)]) r
    | (t, _) => .error (misfit start t.line .missingKey)

/-- The value of a pair of a block mapping. -/
def blockValue : Nat → Reader → Except Malformed (Node × Reader)
  | 0, r => .ok (.omitted 1, r)
  | n + 1, r => do
    match ← r.peek with
    | (⟨.value, line⟩, r) =>
      let (t, r) ← r.take.peek
      if endsBlockPart t.kind then return (.omitted line, r) else node n true true r
    | (t, r) => return (.omitted t.line, r)

/-- The items of a sequence in brackets that starts on a line, after those in `done`. -/
def flowItems : Nat → Nat → Bool → List Node → Reader → Except Malformed (List Node × Reader)
  | 0, start, _, _, _ => .error (misfit start start (.missingComma ']'))
  | n + 1, start, isFirst, done, r => do
    let (t, r) ← r.peek
    if t.kind = .flowSequenceEnd then return (done, r.take)
    if !isFirst ∧ t.kind ≠ .flowEntry then .error (misfit start t.line (.missingComma ']'))
    let (t, r) ← if isFirst then pure (t, r) else r.take.peek
    match t.kind with
    | .flowSequenceEnd => return (done, r.take)
    | .key =>
      let (pair, r) ← flowSingle n r.take
      flowItems n start false (done ++ [.mapping t.line Tag.mapping [pair]]) r
    | _ =>
      let (item, r) ← node n false false r
      flowItems n start false (done ++ [item]) r

/-- A pair that is an item of a sequence in brackets, after the mark of its key. The token after a key that
is left out is passed over. -/
def flowSingle : Nat → Reader → Except Malformed ((Node × Node) × Reader)
  | 0, r => .ok ((.omitted 1, .omitted 1), r)
  | n + 1, r => do
    let (t, r) ← r.peek
    let (key, r) ←
      if endsFlowKey .flowSequenceEnd t.kind then pure (.omitted t.line, r.take) else node n false false r
    let (value, r) ← flowValue n .flowSequenceEnd r
    return ((key, value), r)

/-- The value of a pair between brackets, which may be left out. -/
def flowValue : Nat → TokenKind → Reader → Except Malformed (Node × Reader)
  | 0, _, r => .ok (.omitted 1, r)
  | n + 1, closing, r => do
    match ← r.peek with
    | (⟨.value, line⟩, r) =>
      let (t, r) ← r.take.peek
      if endsFlowValue closing t.kind then return (.omitted line, r) else node n false false r
    | (t, r) => return (.omitted t.line, r)

/-- The pairs of a mapping in braces that starts on a line, after those in `done`. -/
def flowPairs : Nat → Nat → Bool → List (Node × Node) → Reader →
    Except Malformed (List (Node × Node) × Reader)
  | 0, start, _, _, _ => .error (misfit start start (.missingComma '\x7d'))
  | n + 1, start, isFirst, done, r => do
    let (t, r) ← r.peek
    if t.kind = .flowMappingEnd then return (done, r.take)
    if !isFirst ∧ t.kind ≠ .flowEntry then .error (misfit start t.line (.missingComma '\x7d'))
    let (t, r) ← if isFirst then pure (t, r) else r.take.peek
    match t.kind with
    | .flowMappingEnd => return (done, r.take)
    | .key =>
      let (t, r) ← r.take.peek
      let (key, r) ←
        if endsFlowKey .flowMappingEnd t.kind then pure (.omitted t.line, r) else node n false false r
      let (value, r) ← flowValue n .flowMappingEnd r
      flowPairs n start false (done ++ [(key, value)]) r
    | _ =>
      let (key, r) ← node n false false r
      let (t, r) ← r.peek
      flowPairs n start false (done ++ [(key, .omitted t.line)]) r

end

/-! ## Documents -/

/-- The handles that every document has, after those that it gives itself. -/
def usualHandles : List (Text × Text) := [(bang, bang), (bang ++ bang, Tag.commonBeginning)]

/-- The directives before a document, in at most some steps: at most one version, which has to be the one that
is known, and no handle twice. -/
def directives : Nat → Bool → Reader → Except Malformed Reader
  | 0, _, r => .ok r
  | n + 1, hasVersion, r => do
    match ← r.peek with
    | (⟨.version major minor, line⟩, r) =>
      if hasVersion then .error (misfit 1 line .repeatedVersion)
      else if major ≠ 1 ∨ minor ≠ 1 then .error (misfit 1 line .unknownVersion)
      else directives n true r.take
    | (⟨.tagHandle handle beginning, line⟩, r) =>
      if (r.handles.lookup handle).isSome then .error (misfit 1 line .repeatedHandle)
      else directives n hasVersion { r.take with handles := r.handles ++ [(handle, beginning)] }
    | (_, r) => return { r with handles := r.handles ++ usualHandles }

/-- Whether a document that has been started has no content before a token. -/
def endsDocument : TokenKind → Bool
  | .version _ _ | .tagHandle _ _ | .documentStart | .documentEnd | .fileEnd => true
  | _ => false

/-- Whether a token starts a document without being part of it. -/
def startsDocument : TokenKind → Bool
  | .version _ _ | .tagHandle _ _ | .documentStart => true
  | _ => false

/-- The content of a document that has been started. -/
def startedRoot (fuel : Nat) (r : Reader) : Except Malformed (Node × Reader) := do
  match ← r.peek with
  | (⟨.documentStart, _⟩, r) =>
    let (t, r) ← r.take.peek
    if endsDocument t.kind then return (.omitted t.line, r) else node fuel true false r
  | (t, _) => .error (misfit 1 t.line .missingStart)

/-- The first document from some tokens on, if there is one. -/
def document (fuel : Nat) (r : Reader) : Except Malformed (Option Document) := do
  let (t, r) ← r.peek
  if t.kind = .fileEnd then return none
  let r ← directives fuel false r
  let (root, r) ← if startsDocument t.kind then startedRoot fuel r else node fuel true false r
  let (_, r) ← r.peek
  return some ⟨root, r.named, r.lexer.cursor.extent⟩

/-- Reads the first document of a file. There may be none in it. -/
def parse (data : Text) : Except Malformed (Option Document) :=
  let source := Source.ofText data
  document (16 * source.chars.length + 64) ⟨.start source, [], [], []⟩

end Yaml

end LetScript
