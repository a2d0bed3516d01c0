import TreeCheck.Disk
import TreeCheck.Log
import TreeCheck.Text.Quoted
import TreeCheck.Toml.Document

/-!
The settings of a project: what its settings file says on top of the defaults, and which settings
file applies to a directory.
-/

namespace TreeCheck

structure Settings where
  /-- The largest number of diagnostics per file; zero is no limit. -/
  limit : Int := 100
  jobs : Int := 0
  shadowing : Bool := false
  redefinition : Bool := false
  color : Text := text "auto"
  format : Text := text "pretty"
  source : Bool := true
  level : Text := text "warn"
  /-- The settings file; empty if there is none. -/
  path : Text := []

namespace Settings

inductive Slot where
  | integer (set : Settings → Int → Settings)
  | boolean (set : Settings → Bool → Settings)
  | string (set : Settings → Text → Settings)

def sections : List (String × List (String × Slot)) :=
  [("check",
      [("max_diagnostics", .integer fun s n => { s with limit := n }),
        ("jobs", .integer fun s n => { s with jobs := n }),
        ("warn_shadowing", .boolean fun s b => { s with shadowing := b }),
        ("warn_global_redefinition", .boolean fun s b => { s with redefinition := b })]),
    ("output",
      [("color", .string fun s t => { s with color := t }),
        ("format", .string fun s t => { s with format := t }),
        ("source", .boolean fun s b => { s with source := b })]),
    ("log", [("level", .string fun s t => { s with level := t })])]

/-- What a name stands for: the member of exactly this name, or else the first one whose name is the
same up to case. -/
def named? {α : Type} (members : List (String × α)) (name : Text) : Option α :=
  match members.find? fun (n, _) => text n == name with
  | some (_, a) => some a
  | none => (members.find? fun (n, _) => Text.isWord n name).map (·.2)

def Slot.fill (s : Settings) : Slot → Toml.Value → Option Settings
  | .integer set, .integer n => some (set s n)
  | .boolean set, .boolean b => some (set s b)
  | .string set, .string t => some (set s t)
  | _, _ => none

def fillSection (slots : List (String × Slot)) (s : Settings) (entries : Toml.Entries) :
    Option Settings :=
  entries.foldlM (fun s (name, v) =>
    match named? slots name with
    | some slot => slot.fill s v
    | none => some s) s

/-- The settings of a document on top of the defaults; none if a known name has a value of another
kind. -/
def ofDocument? (d : Toml.Document) : Option Settings :=
  d.root.foldlM (fun s (name, v) =>
    match named? sections name, v with
    | some slots, .table entries => fillSection slots s entries
    | some _, _ => none
    | none, _ => some s) {}

def isKnown : Toml.Key → Bool
  | [name] => (named? sections name).isSome
  | [name, inner] => ((named? sections name).bind fun slots => named? slots inner).isSome
  | _ => false

inductive Fault where
  | unreadable (error : FileError)
  | malformed
  | unknownKeys (keys : List Toml.Key)
  | negativeLimit
  | negativeJobs
  | unknownColor
  | unknownFormat
  | unknownLevel (reason : Log.Level.Refusal)

def Fault.message : Fault → Text
  | .unreadable e => text "failed to parse TOML: " ++ e.message
  | .malformed => text "failed to parse TOML: malformed document"
  | .unknownKeys keys =>
    text "unknown keys: " ++ Text.join (text ", ") (keys.map Toml.keyText)
  | .negativeLimit => text "[check].max_diagnostics must not be negative"
  | .negativeJobs => text "[check].jobs must not be negative"
  | .unknownColor => text "[output].color must be auto, on or off"
  | .unknownFormat => text "[output].format must be pretty or json"
  | .unknownLevel reason => text "[log].level: " ++ reason.message

def colors : List Text :=
  [text "auto", text "on", text "off"]

def formats : List Text :=
  [text "pretty", text "json"]

/-- The settings that a text sets. The words for colour, format and level are only looked at where
their names are spelled exactly. -/
def ofText (t : Text) : Except Fault Settings := do
  let some d := Toml.Document.read t | throw .malformed
  let some s := ofDocument? d | throw .malformed
  let isDefined := fun (table name : String) => (d.root.lookup [text table, text name]).isSome
  let unknown := d.keys.filter fun key => !isKnown key
  if !unknown.isEmpty then throw (.unknownKeys unknown)
  if s.limit < 0 then throw .negativeLimit
  if s.jobs < 0 then throw .negativeJobs
  if isDefined "output" "color" && !colors.contains s.color then throw .unknownColor
  if isDefined "output" "format" && !formats.contains s.format then throw .unknownFormat
  if isDefined "log" "level" then
    match Log.Level.ofText s.level with
    | .ok _ => return s
    | .error reason => throw (.unknownLevel reason)
  else return s

inductive Failure where
  | refused (path : Text) (fault : Fault)
  | unfindable (error : FileError)

def Failure.message : Failure → Text
  | .refused path fault => path ++ text ": " ++ fault.message
  | .unfindable e => text "failed to stat " ++ Text.quoted e.path ++ text ": " ++ e.message

def load (disk : Disk) (path : Text) : Except Failure Settings :=
  match disk.read path with
  | .error e => .error (.refused path (.unreadable e))
  | .ok bytes =>
    match ofText bytes with
    | .ok s => .ok { s with path }
    | .error fault => .error (.refused path fault)

def fileName : Text := text "lumen.toml"

/-- A directory and the ones above it, up to the root, for a cleaned path from the root. -/
def ancestors (dir : Text) : List Text :=
  let steps := (Text.splitOn Path.slash dir).filter (!·.isEmpty)
  (List.range (steps.length + 1)).map fun n =>
    Path.slash :: Text.join [Path.slash] (steps.take (steps.length - n))

def search (disk : Disk) : List Text → Except Failure (Option Text)
  | [] => .ok none
  | dir :: rest =>
    let path := Path.join dir fileName
    match disk.stat path with
    | .ok _ => .ok (some path)
    | .error e => if e.reason = .notExist then search disk rest else .error (.unfindable e)

/-- The nearest settings file at or above a directory; the empty path is the working directory. -/
def find (disk : Disk) (start : Text) : Except Failure (Option Text) :=
  search disk (ancestors (Path.absolute disk.cwdPath start))

def discover (disk : Disk) (start : Text) : Except Failure Settings := do
  match ← find disk start with
  | some path => load disk path
  | none => return {}

end Settings

end TreeCheck
