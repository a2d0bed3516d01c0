import TreeCheck.FileSet
import TreeCheck.Span

/-!
How positions are shown: the path of the file as it was given, as an absolute path or as its last
part, followed by line and column where they are known.
-/

namespace TreeCheck.Render

inductive PathMode where
  | given
  | absolute
  | base
  deriving DecidableEq

/-- The mode with a number; unknown numbers show paths as given. -/
def PathMode.numbered : Nat → PathMode
  | 1 => .absolute
  | 2 => .base
  | _ => .given

/-- Where shown paths come from: the files, if they are known, and the working directory. -/
structure Files where
  set : Option FileSet
  cwd : Text

def Files.show (f : Files) (mode : PathMode) (path : Text) : Text :=
  match mode with
  | .given => path
  | .absolute => Path.absolute f.cwd path
  | .base => Path.base path

def Files.pathOf (f : Files) (mode : PathMode) (file : Nat) : Text :=
  match f.set with
  | some fs => f.show mode (fs.pathOf file)
  | none => text "<unknown>"

/-- The shown position: the path, with line and column if the line is known. -/
def Files.location (f : Files) (mode : PathMode) (s : Span) : Text :=
  let path := f.pathOf mode s.file
  if s.isKnown then
    path ++ text ":" ++ Text.ofNat s.line ++ text ":" ++ Text.ofNat s.col
  else path

end TreeCheck.Render
