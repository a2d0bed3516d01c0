import TreeCheck.Diagnostic.Bag
import TreeCheck.Paint
import TreeCheck.Render.Location
import TreeCheck.Text.Width

/-!
Diagnostics for people: a line for each, on demand the source line with a caret under the column
and the notes, and a summary at the end.
-/

namespace TreeCheck.Render

structure PrettyOptions where
  colors : Bool
  mode : PathMode
  notes : Bool
  source : Bool

def severityStyle (s : Severity) : Style :=
  if s = .error then .red else if s = .warning then .yellow else .cyan

/-- The source line of a position and a caret under its column; nothing where there is no such
line. A column outside the line is moved to its nearest end. -/
def sourceEcho (o : PrettyOptions) (files : Files) (s : Span) : Text :=
  match files.set.bind fun fs => fs.get? s.file with
  | none => []
  | some f =>
    let line := f.line s.line
    if line.isEmpty then []
    else
      let number := Text.ofNat s.line
      let gutter := Style.paint o.colors .blue
      let chars := Text.chars line
      let before := chars.take (min (max s.col 1) (chars.length + 1) - 1)
      text " " ++ gutter number ++ text " " ++ gutter (text "|") ++ text " " ++ line ++ text "\n" ++
        text " " ++ List.replicate number.length 0x20 ++ text " " ++ gutter (text "|") ++
        text " " ++ List.replicate (Text.charsWidth before) 0x20 ++
        Style.paint o.colors .green (text "^") ++ text "\n"

def noteLine (o : PrettyOptions) (files : Files) (n : Note) : Text :=
  text "  " ++ Style.paint o.colors .plainBlue (text "note:") ++ text " " ++
    (if n.place.isKnown then files.location o.mode n.place ++ text ": " else []) ++ n.message ++
    text "\n"

def diagnosticLines (o : PrettyOptions) (files : Files) (d : Diagnostic) : Text :=
  files.location o.mode d.primary ++ text ": " ++
    Style.paint o.colors (severityStyle d.severity) (text d.severity.name) ++ text " " ++
    Style.paint o.colors .bold d.code.id ++ text ": " ++ d.message ++ text "\n" ++
    (if o.source then sourceEcho o files d.primary else []) ++
    (if o.notes then d.notes.flatMap (noteLine o files) else [])

def plural (n : Nat) (word : String) : Text :=
  Text.ofNat n ++ text " " ++ text word ++ (if n = 1 then [] else text "s")

/-- How many errors and warnings there are and how many diagnostics were refused; nothing if there
are none of all three. -/
def summary (o : PrettyOptions) (b : Bag) : Text :=
  let errors := b.count .error
  let warnings := b.count .warning
  let parts :=
    (if errors = 0 then [] else [Style.paint o.colors .red (plural errors "error")]) ++
      (if warnings = 0 then [] else [Style.paint o.colors .yellow (plural warnings "warning")]) ++
      (if b.dropped = 0 then [] else [Text.ofNat b.dropped ++ text " more not shown"])
  if parts.isEmpty then [] else Text.join (text ", ") parts ++ text "\n"

def pretty (o : PrettyOptions) (files : Files) (b : Bag) : Text :=
  b.items.toList.flatMap (diagnosticLines o files) ++ summary o b

end TreeCheck.Render
