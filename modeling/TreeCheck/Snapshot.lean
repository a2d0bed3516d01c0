import TreeCheck.Session
import TreeCheck.Snapshot.Draft

/-!
Snapshots: the tables of a checked file on disk, together with the names that its handles stand for.
A snapshot is a map with a field for each part; fields that are absent are read as empty, a field
that is given again is read on top of what it held, and unknown fields are passed over.
-/

namespace TreeCheck

structure Snapshot where
  schema : Nat
  path : Text
  hash : Text
  strings : List Text
  tables : Tables

namespace Snapshot

def currentSchema : Nat := 1

def ofResult? (r : Session.Result) (s : Session.Shared) : Option Snapshot :=
  match r.context, r.aborted with
  | some ctx, none =>
    some
      { schema := currentSchema, path := r.path,
        hash := ((s.files.get? r.file).map SourceFile.hash).getD (List.replicate 32 0),
        strings := s.names.names, tables := ctx.tables }
  | _, _ => none

/-- The name of a handle; empty if the snapshot does not know it. -/
def name (s : Snapshot) (h : Handle) : Text :=
  s.strings.getD h []

/-! Writing. -/

open MessagePack (Value Update record number content cover contents)

def field (key : String) (v : Value) : Value × Value :=
  (.string (text key), v)

def word (n : Nat) : Value :=
  .unsigned .four n

mutual

/-- A type as a map; absent payloads are left out. -/
def tyValue : Ty → Value
  | .mk kind elem object signature =>
    .map ([field "k" (.unsigned .one kind.code.toNat)] ++ elemField elem ++ objectField object ++
      signatureField signature)

def elemField : Option Ty → List (Value × Value)
  | none => []
  | some t => [field "e" (tyValue t)]

def objectField : Option (ObjectOf Ty) → List (Value × Value)
  | none => []
  | some ⟨name, supers⟩ =>
    [field "o" (.map ([field "n" (word name)] ++ listField "s" supers))]

def signatureField : Option (SignatureOf Ty) → List (Value × Value)
  | none => []
  | some ⟨result, args⟩ =>
    [field "f" (.map ([field "r" (resultValue result)] ++ listField "a" args))]

def resultValue : Option Ty → Value
  | none => .nil
  | some t => tyValue t

def listField (key : String) : List Ty → List (Value × Value)
  | [] => []
  | t :: rest => [field key (.array (tyValue t :: tyValues rest))]

def tyValues : List Ty → List Value
  | [] => []
  | t :: rest => tyValue t :: tyValues rest

end

def symbolValue (s : Symbol) : Value :=
  .map [field "scope" (word s.scope), field "depth" (word s.depth), field "type" (tyValue s.ty)]

def tableValue {α : Type} (value : α → Value) (t : Table α) : Value :=
  .map (t.entries.map fun (k, a) => (word k, value a))

def toValue (s : Snapshot) : Value :=
  .map [field "Schema" (.unsigned .two s.schema), field "Path" (.string s.path),
    field "Hash" (.binary s.hash), field "Strings" (.array (s.strings.map .string)),
    field "Tables" (.map [field "globals" (tableValue symbolValue s.tables.globals),
      field "scopes" (tableValue (tableValue symbolValue) s.tables.scopes),
      field "types" (tableValue tyValue s.tables.types)])]

def bytes (s : Snapshot) : Text :=
  MessagePack.write s.toValue

/-! Reading. -/

def zero : Snapshot :=
  ⟨0, [], List.replicate 32 0, [], noTables⟩

def read (depth : Nat) : Update Snapshot :=
  record zero
    [("Schema", fun s t => do
        let (schema, t) ← number 2 s.schema t
        return ({ s with schema }, t)),
      ("Path", fun s t => do
        let (path, t) ← content s.path t
        return ({ s with path }, t)),
      ("Hash", fun s t => do
        let (hash, t) ← cover s.hash t
        return ({ s with hash }, t)),
      ("Strings", fun s t => do
        let (strings, t) ← contents s.strings t
        return ({ s with strings }, t)),
      ("Tables", fun s t => do
        let (tables, t) ← readTables depth s.tables t
        return ({ s with tables }, t))]

inductive Failure where
  | unreadable (error : FileError)
  | undecodable (path : Text)
  | otherSchema (path : Text) (schema : Nat)

def Failure.message : Failure → Text
  | .unreadable e => e.message
  | .undecodable path => text "driver: decode snapshot " ++ path ++ text ": malformed value"
  | .otherSchema path schema =>
    text "driver: " ++ path ++ text " has schema " ++ Text.ofNat schema ++ text ", want " ++
      Text.ofNat currentSchema ++ text ": snapshot schema mismatch"

/-- Reads the bytes of a snapshot; bytes behind its value are passed over. No value is nested deeper
than it has bytes. -/
def ofBytes (path bytes : Text) : Except Failure Snapshot :=
  match read (bytes.length + 1) zero bytes with
  | none => .error (.undecodable path)
  | some (s, _) => if s.schema = currentSchema then .ok s else .error (.otherSchema path s.schema)

def readFrom (disk : Disk) (path : Text) : Except Failure Snapshot :=
  match disk.read path with
  | .error e => .error (.unreadable e)
  | .ok bytes => ofBytes path bytes

def writeTo (disk : Disk) (path : Text) (s : Snapshot) : Except FileError Disk := do
  let disk ← disk.makeDirectories (Path.dir path)
  disk.write path s.bytes

/-- The name of the file that keeps the snapshot of a path. The path without its extension is
flattened, and the start of a digest keeps apart the paths that flatten alike. -/
def fileName (path : Text) : Text :=
  let clean := Path.clean path
  let flat := (Text.replace (text "../") [] (Path.dropExt clean)).dropWhile (· == Path.slash)
  Text.replace [Path.slash] (text "_") flat ++ text "-" ++ Text.hex ((digest clean).take 4) ++
    text ".lsnap"

end Snapshot

end TreeCheck
