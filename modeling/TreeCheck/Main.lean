import TreeCheck.Command

/-!
The program on real files. The files that the words of the command line may mean, and the settings
files above the working directory, are read into a file system value; the command runs on it; then
its output is printed and what it changed is written.
-/

namespace TreeCheck.Program

def bytes (t : Text) : ByteArray :=
  ⟨t.toArray⟩

/-- A text as a string for paths; stray bytes are shown as the replacement character. -/
def pathString (t : Text) : String :=
  String.ofList (Text.chars t)

/-- Adds what stands at a path, and everything below a directory. -/
partial def gather (disk : Disk) (path : Text) : IO Disk := do
  let place := (← IO.currentDir) / pathString path
  if ← place.isDir then
    let mut disk := disk.putAt path .directory
    for e in ← place.readDir do
      disk ← gather disk (Path.join path (text e.fileName))
    return disk
  else if ← place.pathExists then
    return disk.putAt path (.file (← IO.FS.readBinFile place).toList)
  else return disk

/-- The paths that the words of a command line may mean: each word, and what follows an equals sign
in it. -/
def candidates (words : List Text) : List Text :=
  (words.flatMap fun w => w :: ((Text.cut? 0x3D w).map (·.2)).toList).filter (!·.isEmpty)

def gatherAll (cwd : Text) (words : List Text) : IO Disk := do
  let steps := (Text.splitOn Path.slash cwd).filter (!·.isEmpty)
  let settings := (Settings.ancestors cwd).map fun dir => Path.join dir Settings.fileName
  (settings ++ candidates words).foldlM gather (Disk.empty steps)

def sameEntry : Entry → Entry → Bool
  | .directory, .directory => true
  | .file a, .file b => a == b
  | _, _ => false

def store (before after : Disk) : IO Unit := do
  for (place, entry) in after.entries do
    let old := (before.entries.find? (·.1 == place)).map (·.2)
    if !old.any (sameEntry entry) then
      let path := pathString (Path.slash :: Text.join [Path.slash] place)
      match entry with
      | .directory => IO.FS.createDirAll path
      | .file content => IO.FS.writeBinFile path (bytes content)

def run (words : List Text) : IO UInt32 := do
  let cwd := text (← IO.currentDir).toString
  let disk ← gatherAll cwd words
  let r := Command.run .default disk words
  store disk r.disk
  (← IO.getStdout).write (bytes r.output)
  (← IO.getStderr).write (bytes r.errors)
  match r.failure with
  | none => return 0
  | some .reported => return 1
  | some f =>
    (← IO.getStderr).write (bytes (Command.programName ++ text ": " ++ f.message ++ text "\n"))
    return 1

end TreeCheck.Program

def main (args : List String) : IO UInt32 :=
  TreeCheck.Program.run (args.map TreeCheck.text)
