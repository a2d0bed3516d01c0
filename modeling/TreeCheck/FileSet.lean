import TreeCheck.Digest
import TreeCheck.Path

/-!
The documents of one run. Every addition gets a new number, counted from one, even for a path that
was added before; a path refers to its latest addition, however it is spelled.
-/

namespace TreeCheck

/-- A document: its number, its cleaned path, its content and the marks of how it was read. -/
structure SourceFile where
  id : Nat
  path : Text
  content : Text
  flags : UInt8

namespace SourceFile

def inMemory : UInt8 := 1

def hadMark : UInt8 := 2

def hadReturns : UInt8 := 4

def hash (f : SourceFile) : Text :=
  digest f.content

def lineAfter : Nat → Text → Text
  | 0, t => t.takeWhile (· != 0x0A)
  | n + 1, t =>
    match Text.cut? 0x0A t with
    | some (_, rest) => lineAfter n rest
    | none => []

/-- The line with a number counted from one; empty outside the document. -/
def line (f : SourceFile) : Nat → Text
  | 0 => []
  | n + 1 => lineAfter n f.content

/-- The number of lines: one more than the line feeds. -/
def lineCount (f : SourceFile) : Nat :=
  f.content.count 0x0A + 1

end SourceFile

structure FileSet where
  files : List SourceFile

namespace FileSet

def empty : FileSet :=
  ⟨[]⟩

instance : Inhabited FileSet := ⟨empty⟩

/-- Adds a document under a new number. A number of more than 32 bits ends the program instead; here
there is no bound. -/
def add (fs : FileSet) (path content : Text) (flags : UInt8) : Nat × FileSet :=
  let id := fs.files.length + 1
  (id, ⟨fs.files ++ [⟨id, Path.clean path, content, flags⟩]⟩)

def addInMemory (fs : FileSet) (path content : Text) : Nat × FileSet :=
  fs.add path content SourceFile.inMemory

def byteOrderMark : Text :=
  [0xEF, 0xBB, 0xBF]

/-- Adds what was read from disk, without a byte order mark and with line feeds alone as line
ends. -/
def addRead (fs : FileSet) (path bytes : Text) : Nat × FileSet :=
  let (content, marked) :=
    match Text.dropLead? byteOrderMark bytes with
    | some rest => (rest, SourceFile.hadMark)
    | none => (bytes, 0)
  if Text.contains [0x0D, 0x0A] content then
    fs.add path (Text.replace [0x0D, 0x0A] [0x0A] content) (marked ||| SourceFile.hadReturns)
  else fs.add path content marked

def get? (fs : FileSet) : Nat → Option SourceFile
  | 0 => none
  | n + 1 => fs.files[n]?

def latest? (fs : FileSet) (path : Text) : Option Nat :=
  let key := Path.clean path
  (fs.files.reverse.find? (·.path == key)).map (·.id)

def pathOf (fs : FileSet) (id : Nat) : Text :=
  match fs.get? id with
  | some f => f.path
  | none => text "<unknown>"

end FileSet

end TreeCheck
