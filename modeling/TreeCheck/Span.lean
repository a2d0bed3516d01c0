import TreeCheck.Text

/-!
Positions in documents: a file, a line and a column, the last two counted from one. Line zero
means that the position is unknown.
-/

namespace TreeCheck

structure Span where
  file : Nat
  line : Nat
  col : Nat
  deriving DecidableEq, Inhabited

namespace Span

def zero : Span :=
  ⟨0, 0, 0⟩

def isKnown (s : Span) : Bool :=
  s.line != 0

def toText (s : Span) : Text :=
  Text.ofNat s.file ++ text ":" ++ Text.ofNat s.line ++ text ":" ++ Text.ofNat s.col

/-- The order of positions: by file, then line, then column. -/
def before (a b : Span) : Bool :=
  if a.file ≠ b.file then a.file < b.file
  else if a.line ≠ b.line then a.line < b.line
  else a.col < b.col

end Span

end TreeCheck
