import TreeCheck.Yaml.Node
import TreeCheck.Yaml.Token.Stream

/-!
From tokens to a document. The grammar is read by descent; only the first document of a stream is
read, up to the token behind its root.
-/

namespace TreeCheck.Yaml

structure Reader where
  tokens : List Token
  /-- The fault that is met behind the last token. -/
  fault : Fault
  handles : List (Text × Text)
  /-- The anchors met so far with their numbers, newest first. -/
  names : List (Text × Nat)
  next : Nat
  anchored : Table Node

abbrev Read := StateT Reader (Except Fault)

namespace Read

def peek : Read Token := do
  let r ← get
  match r.tokens with
  | t :: _ => return t
  | [] => throw r.fault

def skip : Read PUnit :=
  modify fun r => { r with tokens := r.tokens.tail }

def fail {α : Type} (p : Problem) : Read α := do
  let t ← peek
  throw ⟨t.start.line, p⟩

def emptyAt (m : Mark) : Node :=
  .scalar ⟨m.line + 1, m.column + 1, text "!!null", [], .plain⟩

def register (name : Text) : Read Nat :=
  modifyGet fun r => (r.next, { r with names := (name, r.next) :: r.names, next := r.next + 1 })

def complete (number : Option Nat) (n : Node) : Read Node := do
  match number with
  | some k => modify fun r => { r with anchored := r.anchored.insert k n }
  | none => pure ()
  return n

def aliasNode (m : Mark) (name : Text) : Read Node := do
  match (← get).names.lookup name with
  | some k => return .alias m.place name k
  | none => throw ⟨m.line, .unknownAnchor name⟩

def properties : Read (Option Text × Option (Text × Text)) := do
  let t ← peek
  match t.kind with
  | .anchor name =>
    skip
    match (← peek).kind with
    | .tag handle suffix =>
      skip
      return (some name, some (handle, suffix))
    | _ => return (some name, none)
  | .tag handle suffix =>
    skip
    match (← peek).kind with
    | .anchor name =>
      skip
      return (some name, some (handle, suffix))
    | _ => return (none, some (handle, suffix))
  | _ => return (none, none)

def expand (handle suffix : Text) : Read Text := do
  if handle.isEmpty then return suffix
  match (← get).handles.lookup handle with
  | some lead => return lead ++ suffix
  | none => fail .undefinedHandle

/-- The tag in front of a node; empty if there is none. -/
def tagIn : Option (Text × Text) → Read Text
  | none => return []
  | some (handle, suffix) => expand handle suffix

mutual

/-- A node. `block` says whether indentation may make a collection here, `loose` whether dashes may
stand without further indentation. -/
def node (block loose : Bool) : Nat → Read Node
  | 0 => fail .tooDeep
  | fuel + 1 => do
    let first ← peek
    match first.kind with
    | .alias name =>
      let n ← aliasNode first.start name
      skip
      return n
    | _ =>
      let (anchor, tag) ← properties
      let tag ← tagIn tag
      let place := first.start.place
      let number ← match anchor with
        | some name => some <$> register name
        | none => pure none
      match (← peek).kind, block, loose with
      | .blockEntry, _, true => complete number (.sequence place (← looseItems fuel))
      | .scalar value style, _, _ =>
        skip
        complete number (.scalar ⟨place.line, place.column, tagOf tag value style, value, style⟩)
      | .flowSequenceStart, _, _ =>
        skip
        complete number (.sequence place (← flowItems true fuel))
      | .flowMappingStart, _, _ =>
        skip
        complete number (.mapping place (← flowPairs true fuel))
      | .blockSequenceStart, true, _ =>
        skip
        complete number (.sequence place (← blockItems fuel))
      | .blockMappingStart, true, _ =>
        skip
        complete number (.mapping place (← blockPairs fuel))
      | _, _, _ =>
        if anchor.isSome || !tag.isEmpty then
          complete number (.scalar ⟨place.line, place.column, tagOf tag [] .plain, [], .plain⟩)
        else fail .missingContent

def blockItems : Nat → Read (List Node)
  | 0 => fail .tooDeep
  | fuel + 1 => do
    let t ← peek
    match t.kind with
    | .blockEntry =>
      skip
      let item ← match (← peek).kind with
        | .blockEntry | .blockEnd => pure (emptyAt t.stop)
        | _ => node true false fuel
      return item :: (← blockItems fuel)
    | .blockEnd =>
      skip
      return []
    | _ => fail .unexpectedToken

def looseItems : Nat → Read (List Node)
  | 0 => fail .tooDeep
  | fuel + 1 => do
    let t ← peek
    match t.kind with
    | .blockEntry =>
      skip
      let item ← match (← peek).kind with
        | .blockEntry | .key | .value | .blockEnd => pure (emptyAt t.stop)
        | _ => node true false fuel
      return item :: (← looseItems fuel)
    | _ => return []

def blockPairs : Nat → Read (List (Node × Node))
  | 0 => fail .tooDeep
  | fuel + 1 => do
    let t ← peek
    match t.kind with
    | .key =>
      skip
      let key ← match (← peek).kind with
        | .key | .value | .blockEnd => pure (emptyAt t.stop)
        | _ => node true true fuel
      let v ← peek
      let value ← match v.kind with
        | .value =>
          skip
          match (← peek).kind with
          | .key | .value | .blockEnd => pure (emptyAt v.stop)
          | _ => node true true fuel
        | _ => pure (emptyAt v.start)
      return (key, value) :: (← blockPairs fuel)
    | .blockEnd =>
      skip
      return []
    | _ => fail .unexpectedToken

/-- The items of a bracketed sequence, up to its end. A key token makes an item a mapping of one
pair. -/
def flowItems (first : Bool) : Nat → Read (List Node)
  | 0 => fail .tooDeep
  | fuel + 1 => do
    if (← peek).kind == .flowSequenceEnd then
      skip
      return []
    if !first then
      if (← peek).kind != .flowEntry then fail .unexpectedToken
      skip
    let t ← peek
    match t.kind with
    | .flowSequenceEnd =>
      skip
      return []
    | .key =>
      skip
      let pair ← flowPair fuel
      return .mapping t.start.place [pair] :: (← flowItems false fuel)
    | _ =>
      let item ← node false false fuel
      return item :: (← flowItems false fuel)

/-- The pair behind a key token in a bracketed sequence. An absent key takes the place of the token
behind it, which is lost. -/
def flowPair : Nat → Read (Node × Node)
  | 0 => fail .tooDeep
  | fuel + 1 => do
    let t ← peek
    let key ← match t.kind with
      | .value | .flowEntry | .flowSequenceEnd =>
        skip
        pure (emptyAt t.stop)
      | _ => node false false fuel
    let v ← peek
    match v.kind with
    | .value =>
      skip
      match (← peek).kind with
      | .flowEntry | .flowSequenceEnd => return (key, emptyAt v.valueAt)
      | _ => return (key, ← node false false fuel)
    | _ => return (key, emptyAt v.start)

/-- The pairs of a bracketed mapping, up to its end. An entry without key token is a key without
value. -/
def flowPairs (first : Bool) : Nat → Read (List (Node × Node))
  | 0 => fail .tooDeep
  | fuel + 1 => do
    if (← peek).kind == .flowMappingEnd then
      skip
      return []
    if !first then
      if (← peek).kind != .flowEntry then fail .unexpectedToken
      skip
    match (← peek).kind with
    | .flowMappingEnd =>
      skip
      return []
    | .key =>
      skip
      let t ← peek
      let key ← match t.kind with
        | .value | .flowEntry | .flowMappingEnd => pure (emptyAt t.start)
        | _ => node false false fuel
      let v ← peek
      let value ← match v.kind with
        | .value =>
          skip
          let w ← peek
          match w.kind with
          | .flowEntry | .flowMappingEnd => pure (emptyAt w.start)
          | _ => node false false fuel
        | _ => pure (emptyAt v.start)
      return (key, value) :: (← flowPairs false fuel)
    | _ =>
      let key ← node false false fuel
      let v ← peek
      return (key, emptyAt v.start) :: (← flowPairs false fuel)

end

/-- The directives in front of a document. There is one version only, and no handle twice. -/
def directives (versioned : Bool) : Nat → Read PUnit
  | 0 => fail .badDirective
  | fuel + 1 => do
    match (← peek).kind with
    | .version major minor =>
      if versioned then fail .repeatedDirective
      if (major, minor) != (1, 1) then fail .otherVersion
      skip
      directives true fuel
    | .tagDirective handle lead =>
      if ((← get).handles.lookup handle).isSome then fail .repeatedDirective
      modify fun r => { r with handles := r.handles ++ [(handle, lead)] }
      skip
      directives versioned fuel
    | _ => return

def defaultHandles : List (Text × Text) :=
  [(text "!", text "!"), (text "!!", longTag)]

/-- The root of the first document; none if the stream is empty. The token behind the root has to
be readable. -/
def firstDocument (fuel : Nat) : Read (Option Node) := do
  let start ← peek
  if start.kind != .streamStart then fail .unexpectedToken
  skip
  let t ← peek
  let explicit := match t.kind with
    | .version .. | .tagDirective .. | .documentStart => true
    | _ => false
  if t.kind == .streamEnd then return none
  if explicit then directives false fuel
  modify fun r => { r with handles := r.handles ++ defaultHandles }
  if explicit then
    if (← peek).kind != .documentStart then fail .unexpectedToken
    skip
  let t ← peek
  let root ← match t.kind, explicit with
    | .version .., true | .tagDirective .., true | .documentStart, true | .documentEnd, true
    | .streamEnd, true => pure (emptyAt t.start)
    | _, _ => node true false fuel
  let _ ← peek
  return some root

end Read

/-- The first document of a stream of tokens; none if the stream is empty. -/
def Document.ofTokens (s : TokenStream) : Except Fault (Option Document) := do
  let reader : Reader := ⟨s.tokens, s.fault, [], [], 0, .empty⟩
  let (root, r) ← (Read.firstDocument (4 * s.tokens.length + 8)).run reader
  return root.map fun n => ⟨n, r.anchored⟩

/-- The first document of a text; none if there is none. An empty text is an empty line. -/
def Document.read (t : Text) : Except Fault (Option Document) :=
  Document.ofTokens (.ofSource (.read (if t.isEmpty then text "\n" else t)))

end TreeCheck.Yaml
