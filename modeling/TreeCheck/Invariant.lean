import TreeCheck.Context
import TreeCheck.FileSet
import TreeCheck.Tree.Walk

/-!
What holds of every tree and every context at rest, as checks that name the first violation.
-/

namespace TreeCheck

namespace Tree

/-- What is wrong with the position of a node of a document with a number of lines: it is in
another file, beyond the last line, or has a line but no column. -/
def spanFault? (file lines : Nat) (n : Node) : Option Text :=
  let span := n.span
  let kind := text n.kindName
  if span.file ≠ file then
    some (kind ++ text " span file mismatch: got=" ++ Text.ofNat span.file ++ text " want=" ++
      Text.ofNat file)
  else if lines < span.line then
    some (kind ++ text " span " ++ span.toText ++ text " beyond line " ++ Text.ofNat lines)
  else if span.isKnown && span.col = 0 then
    some (kind ++ text " span " ++ span.toText ++ text " has no column")
  else none

def faultIn? (t : Tree) (file : SourceFile) : Option Text :=
  if t.file ≠ file.id then
    some (text "file id mismatch: got=" ++ Text.ofNat t.file ++ text " want=" ++
      Text.ofNat file.id)
  else t.visits.findSome? (spanFault? file.id file.lineCount)

end Tree

namespace Context

def showNumbers (ns : List Nat) : Text :=
  text "[" ++ Text.join (text " ") (ns.map Text.ofNat) ++ text "]"

def globalFault? (entry : Nat × Symbol) : Option Text :=
  let (name, symbol) := entry
  if symbol.scope ≠ globalScope ∨ symbol.depth ≠ 0 then
    some (text "global " ++ Text.ofNat name ++ text " filed with scope " ++
      Text.ofNat symbol.scope ++ text " depth " ++ Text.ofNat symbol.depth)
  else none

def bindingFault? (scope : Nat) (entry : Nat × Symbol) : Option Text :=
  let (name, symbol) := entry
  if symbol.scope ≠ scope ∨ symbol.depth = 0 then
    some (text "binding " ++ Text.ofNat name ++ text " in scope " ++ Text.ofNat scope ++
      text " filed with scope " ++ Text.ofNat symbol.scope ++ text " depth " ++
      Text.ofNat symbol.depth)
  else none

def scopeFault? (last : Nat) (entry : Nat × Bindings) : Option Text :=
  let (scope, bindings) := entry
  if scope = globalScope ∨ last < scope then
    some (text "scope " ++ Text.ofNat scope ++ text " was never allocated (last " ++
      Text.ofNat last ++ text ")")
  else bindings.entries.findSome? (bindingFault? scope)

/-- The first fault of a context that should be back at depth zero with every binding filed where
it was declared. -/
def fault? (ctx : Context) : Option Text :=
  if ctx.depth ≠ 0 then some (text "depth " ++ Text.ofNat ctx.depth ++ text ", want 0")
  else if ctx.active ≠ [] then
    some (text "scopes still open: " ++ showNumbers ctx.active.reverse)
  else if ctx.current ≠ globalScope then
    some (text "current scope " ++ Text.ofNat ctx.current ++ text ", want global")
  else
    match ctx.globals.entries.findSome? globalFault? with
    | some fault => some fault
    | none => ctx.scopes.entries.findSome? (scopeFault? ctx.last)

end Context

end TreeCheck
