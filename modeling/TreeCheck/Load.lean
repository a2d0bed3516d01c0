import TreeCheck.FileSet
import TreeCheck.Load.Node
import TreeCheck.Yaml.Node.Parse

/-!
Reading a source file as a tree. The document is a sequence of nodes, or empty. Malformed nodes are
reported and counted, and the tree is complete all the same.
-/

namespace TreeCheck

namespace Yaml

mutual

def Node.height : Node → Nat
  | .scalar _ => 1
  | .sequence _ items => heightOf items + 1
  | .mapping _ pairs => heightOfPairs pairs + 1
  | .alias _ _ _ => 1

def heightOf : List Node → Nat
  | [] => 0
  | n :: rest => max n.height (heightOf rest)

def heightOfPairs : List (Node × Node) → Nat
  | [] => 0
  | (k, v) :: rest => max (max k.height v.height) (heightOfPairs rest)

end

end Yaml

namespace Load

inductive Failure where
  | noFile
  | syntaxFault (path : Text) (fault : Yaml.Fault)
  | malformed (path : Text) (count : Nat)

def Failure.message : Failure → Text
  | .noFile => text "astio: nil file"
  | .syntaxFault path fault => text "astio: parse " ++ path ++ text ": " ++ fault.message
  | .malformed path count =>
    text "astio: " ++ path ++ text ": " ++ Text.ofNat count ++
      text " invalid nodes: malformed syntax tree"

structure Outcome where
  tree : Tree
  names : Interner
  diagnostics : List Diagnostic
  failure : Option Failure

/-- The nodes of a document, read to a depth that nothing in it exceeds. -/
def rootOf {M : Type → Type} [Following M] (d : Yaml.Document) : M (List (Option Node)) := do
  match d.root with
  | .sequence _ items => nodesOf (node (d.root.height + maxAliased + 2)) items
  | n =>
    if !n.isNull then fail n (text "document must be a sequence of nodes")
    return []

def ofDocument (f : SourceFile) (names : Interner) (d : Yaml.Document) : Outcome :=
  let (nodes, s) := ((rootOf d : Load _).run ⟨f.id, d, false⟩).run ⟨names, #[], 0, 0⟩
  { tree := ⟨f.id, f.path, nodes⟩, names := s.names, diagnostics := s.emitted.toList,
    failure := if s.emitted.isEmpty then none else some (.malformed f.path s.emitted.size) }

/-- The tree of a source file. A document that cannot be read as YAML has no nodes. -/
def ofFile (f : SourceFile) (names : Interner) : Outcome :=
  match Yaml.Document.read f.content with
  | .error fault => ⟨⟨f.id, f.path, []⟩, names, [], some (.syntaxFault f.path fault)⟩
  | .ok none => ⟨⟨f.id, f.path, []⟩, names, [], none⟩
  | .ok (some d) => ofDocument f names d

end Load

end TreeCheck
