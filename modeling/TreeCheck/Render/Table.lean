import TreeCheck.Interner
import TreeCheck.Paint
import TreeCheck.Symbol
import TreeCheck.Text.Width

/-!
The tables of a check as aligned columns: the registered types, the globals, and every scope that
has bindings.
-/

namespace TreeCheck.Render

/-- What the listing shows; no choice of scopes shows them all. -/
structure TableOptions where
  colors : Bool
  scopes : Option (List Nat)

/-- One row: two spaces, the cells two spaces apart, each but the last filled up to its width. -/
def tableRow (widths : List Nat) (cells : List Text) : Text :=
  let padded := (widths.zip cells).map fun (w, c) => Text.padTo w c
  text "  " ++ Text.join (text "  ") (padded.dropLast ++ (cells.getLast?).toList) ++ text "\n"

def columnWidths (rows : List (List Text)) : List Nat :=
  rows.foldl (fun widths row =>
    (List.range (max widths.length row.length)).map fun i =>
      max (widths.getD i 0) (Text.width (row.getD i []))) []

/-- A titled section; one without rows says so. -/
def tableSection (o : TableOptions) (title : Text) (head : List String) (rows : List (List Text)) :
    Text :=
  let title := Style.paint o.colors .bold title ++ text "\n"
  if rows.isEmpty then title ++ text "  (empty)\n"
  else
    let rows := head.map text :: rows
    title ++ rows.flatMap (tableRow (columnWidths rows))

def bindingRows (names : Interner) (b : Bindings) : List (List Text) :=
  b.entries.map fun (h, s) =>
    [names.display h, s.ty.label (some names), Text.ofNat s.scope, Text.ofNat s.depth]

def bindingHead : List String :=
  ["NAME", "TYPE", "SCOPE", "DEPTH"]

def table (o : TableOptions) (names : Interner) (t : Tables) : Text :=
  let types := t.types.entries.map fun (h, ty) => [names.display h, ty.label (some names)]
  let scopes := t.scopes.entries.filter fun (id, _) => o.scopes.all fun chosen => chosen.contains id
  tableSection o (text "types") ["NAME", "TYPE"] types ++
    tableSection o (text "globals") bindingHead (bindingRows names t.globals) ++
    scopes.flatMap fun (id, b) =>
      tableSection o (text "scope " ++ Text.ofNat id) bindingHead (bindingRows names b)

end TreeCheck.Render
