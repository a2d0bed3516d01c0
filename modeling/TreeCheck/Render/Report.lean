import TreeCheck.Diagnostic.Bag
import TreeCheck.JsonValue
import TreeCheck.Render.Location

/-!
Diagnostics for programs: the listing of a bag as a JSON object with the number of the diagnostics
shown and of those left out.
-/

namespace TreeCheck.Render

/-- What the report shows; a limit that is not positive is none. -/
structure ReportOptions where
  mode : PathMode
  limit : Int
  notes : Bool

def numberField (key : String) (n : Nat) : List (Text × JsonValue) :=
  if n = 0 then [] else [(text key, .int n)]

def locationValue (o : ReportOptions) (files : Files) (s : Span) : JsonValue :=
  .object ([(text "file", .string (files.pathOf o.mode s.file))] ++ numberField "line" s.line ++
    numberField "col" s.col)

def noteValue (o : ReportOptions) (files : Files) (n : Note) : JsonValue :=
  .object [(text "message", .string n.message), (text "location", locationValue o files n.place)]

/-- A diagnostic as an object; an empty list of notes is left out. -/
def diagnosticValue (o : ReportOptions) (files : Files) (d : Diagnostic) : JsonValue :=
  .object ([(text "severity", .string (text d.severity.word)), (text "code", .string d.code.id),
      (text "title", .string d.code.title), (text "message", .string d.message),
      (text "location", locationValue o files d.primary)] ++
    if o.notes && !d.notes.isEmpty then
      [(text "notes", .array (d.notes.map (noteValue o files)))]
    else [])

def admitted (o : ReportOptions) (b : Bag) : List Diagnostic :=
  if 0 < o.limit then b.items.toList.take o.limit.toNat else b.items.toList

/-- The report of a bag; there may be no bag at all. -/
def report (o : ReportOptions) (files : Files) (bag : Option Bag) : JsonValue :=
  let b := bag.getD (.empty 0)
  let shown := admitted o b
  .object ([(text "diagnostics", .array (shown.map (diagnosticValue o files))),
      (text "count", .int shown.length)] ++
    numberField "dropped" (b.dropped + (b.items.size - shown.length)))

end TreeCheck.Render
