import TreeCheck.Path

/-!
File systems as values: a finite set of files and directories below one root, and a working
directory. Paths are followed step by step, so that a missing or wrong intermediate step is an
error even where cleaning the path would remove it.
-/

namespace TreeCheck

inductive Entry where
  | file (content : Text)
  | directory

/-- A file system. A place is the list of names from the root to it; the root is always a
directory. -/
structure Disk where
  entries : List (List Text × Entry)
  cwd : List Text

inductive Reason where
  | notExist
  | isDirectory
  | notDirectory
  deriving DecidableEq

def Reason.message : Reason → Text
  | .notExist => text "no such file or directory"
  | .isDirectory => text "is a directory"
  | .notDirectory => text "not a directory"

/-- A failed access: what was tried on which path, and why it failed. -/
structure FileError where
  action : String
  path : Text
  reason : Reason

def FileError.message (e : FileError) : Text :=
  text e.action ++ text " " ++ e.path ++ text ": " ++ e.reason.message

namespace Disk

def empty (cwd : List Text) : Disk :=
  ⟨[], cwd⟩

/-- What stands at a place. A place with something below it is a directory. -/
def entryAt (disk : Disk) (place : List Text) : Option Entry :=
  if place.isEmpty || place.isPrefixOf disk.cwd then some .directory
  else
    match disk.entries.find? (·.1 == place) with
    | some (_, entry) => some entry
    | none => if disk.entries.any (fun e => place.isPrefixOf e.1) then some .directory else none

def follow (disk : Disk) : List Text → List Text → Except Reason (List Text)
  | place, [] => .ok place
  | place, c :: rest =>
    match disk.entryAt place with
    | none => .error .notExist
    | some (.file _) => .error .notDirectory
    | some .directory =>
      if c = [] ∨ c = [Path.dot] then disk.follow place rest
      else if c = [Path.dot, Path.dot] then disk.follow place.dropLast rest
      else disk.follow (place ++ [c]) rest

def placeOf (disk : Disk) (path : Text) : Except Reason (List Text) :=
  if path.isEmpty then .error .notExist
  else disk.follow (if Path.isAbsolute path then [] else disk.cwd) (Text.splitOn Path.slash path)

def lookup (disk : Disk) (path : Text) : Except Reason Entry :=
  match disk.placeOf path with
  | .error reason => .error reason
  | .ok place =>
    match disk.entryAt place with
    | some entry => .ok entry
    | none => .error .notExist

def stat (disk : Disk) (path : Text) : Except FileError Entry :=
  match disk.lookup path with
  | .ok entry => .ok entry
  | .error reason => .error ⟨"stat", path, reason⟩

def read (disk : Disk) (path : Text) : Except FileError Text :=
  match disk.lookup path with
  | .ok (.file content) => .ok content
  | .ok .directory => .error ⟨"read", path, .isDirectory⟩
  | .error reason => .error ⟨"open", path, reason⟩

def put (disk : Disk) (place : List Text) (entry : Entry) : Disk :=
  { disk with entries := disk.entries.filter (·.1 != place) ++ [(place, entry)] }

def cwdPath (disk : Disk) : Text :=
  Path.slash :: Text.join [Path.slash] disk.cwd

/-- Puts an entry where a path leads from the working directory, whatever stands on the way. -/
def putAt (disk : Disk) (path : Text) (entry : Entry) : Disk :=
  let steps := Text.splitOn Path.slash (Path.absolute disk.cwdPath path)
  disk.put (steps.filter (!·.isEmpty)) entry

def write (disk : Disk) (path content : Text) : Except FileError Disk :=
  match disk.placeOf path with
  | .error reason => .error ⟨"open", path, reason⟩
  | .ok place =>
    match disk.entryAt place with
    | some .directory => .error ⟨"open", path, .isDirectory⟩
    | some (.file _) => .ok (disk.put place (.file content))
    | none =>
      match disk.entryAt place.dropLast with
      | some .directory => .ok (disk.put place (.file content))
      | some (.file _) => .error ⟨"open", path, .notDirectory⟩
      | none => .error ⟨"open", path, .notExist⟩

/-- The paths that lead to a path: itself and its parents, the shortest first. -/
def parents (path : Text) : List Text :=
  let steps := Text.splitOn Path.slash path
  (List.range steps.length).filterMap fun n =>
    let p := Text.join [Path.slash] (steps.take (n + 1))
    if p.isEmpty then none else some p

/-- Creates one directory unless it is there. -/
def makeDirectory (disk : Disk) (path : Text) : Except FileError Disk :=
  match disk.lookup path with
  | .ok .directory => .ok disk
  | .ok (.file _) => .error ⟨"mkdir", path, .notDirectory⟩
  | .error .notExist =>
    match disk.placeOf path with
    | .ok place => .ok (disk.put place .directory)
    | .error reason => .error ⟨"mkdir", path, reason⟩
  | .error reason => .error ⟨"mkdir", path, reason⟩

def makeDirectories (disk : Disk) (path : Text) : Except FileError Disk :=
  (parents path).foldlM makeDirectory disk

def namesIn (disk : Disk) (place : List Text) : List Text :=
  let below := disk.entries.filterMap fun (other, _) =>
    if place.isPrefixOf other then other[place.length]? else none
  let toCwd := if place.isPrefixOf disk.cwd then disk.cwd[place.length]?.toList else []
  Text.sort ((below ++ toCwd).eraseDups)

/-- The files at a place and below it, in the order of a walk that takes the names of each
directory bytewise. The path shown for a file is the given one, extended by the names below it.
The first argument bounds the depth of the walk. -/
def filesBelow (disk : Disk) : Nat → List Text → Text → List Text
  | 0, _, _ => []
  | depth + 1, place, path =>
    match disk.entryAt place with
    | none => []
    | some (.file _) => [path]
    | some .directory =>
      (disk.namesIn place).flatMap fun name =>
        disk.filesBelow depth (place ++ [name]) (Path.join path name)

def height (disk : Disk) : Nat :=
  disk.entries.foldl (fun n (place, _) => max n place.length) disk.cwd.length + 1

def files (disk : Disk) (place : List Text) (path : Text) : List Text :=
  disk.filesBelow disk.height place path

end Disk

end TreeCheck
