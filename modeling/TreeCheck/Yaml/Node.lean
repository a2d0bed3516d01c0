import TreeCheck.Table
import TreeCheck.Yaml.Value

/-!
Documents as trees. An alias keeps its name and the number of the anchored node it refers to, so a
document with cyclic references is still a finite tree beside a table of anchored nodes.
-/

namespace TreeCheck.Yaml

/-- Where a node starts, counted from 1. -/
structure Place where
  line : Nat
  column : Nat
  deriving DecidableEq, Inhabited

def Mark.place (m : Mark) : Place :=
  ⟨m.line + 1, m.column + 1⟩

def Scalar.place (s : Scalar) : Place :=
  ⟨s.line, s.column⟩

inductive Node where
  | scalar (s : Scalar)
  | sequence (place : Place) (items : List Node)
  | mapping (place : Place) (pairs : List (Node × Node))
  | alias (place : Place) (name : Text) (target : Nat)
  deriving Inhabited

namespace Node

def place : Node → Place
  | .scalar s => s.place
  | .sequence p _ => p
  | .mapping p _ => p
  | .alias p _ _ => p

/-- The text of the node: a scalar's, or an alias's name. -/
def text : Node → Text
  | .scalar s => s.value
  | .alias _ name _ => name
  | _ => []

def isNull : Node → Bool
  | .scalar s => s.isNull
  | _ => false

end Node

/-- A document: its root, and the anchored nodes by number. -/
structure Document where
  root : Node
  anchors : Table Node

def Document.target? (d : Document) (number : Nat) : Option Node :=
  d.anchors.find? number

end TreeCheck.Yaml
