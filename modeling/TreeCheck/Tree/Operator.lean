import TreeCheck.Text

/-!
The operators of operation nodes, the classes by which their results are typed, and the modifiers
of declarations.
-/

namespace TreeCheck

/-- An operator, by its number; zero is no operator. -/
structure Operator where
  code : Nat
  deriving DecidableEq, Inhabited

inductive OperatorClass where
  | invalid | arithmetic | comparison | logic | list
  deriving DecidableEq

namespace Operator

def symbols : List String :=
  ["+", "-", "*", "/", "%", "^", "=", "!=", "<", "<=", ">", ">=", "and", "or", "not", "list", "car",
    "cdr"]

def invalid : Operator := ⟨0⟩

def list : Operator := ⟨16⟩

def symbol (op : Operator) : Text :=
  if op.code = 0 then text "?" else text (symbols.getD (op.code - 1) "?")

def ofSymbol? (t : Text) : Option Operator :=
  (symbols.findIdx? fun s => text s == t).map fun n => ⟨n + 1⟩

def classOf (op : Operator) : OperatorClass :=
  if op.code = 0 then .invalid
  else if op.code ≤ 6 then .arithmetic
  else if op.code ≤ 12 then .comparison
  else if op.code ≤ 15 then .logic
  else if op.code ≤ 18 then .list
  else .invalid

end Operator

def OperatorClass.code : OperatorClass → Nat
  | .invalid => 0
  | .arithmetic => 1
  | .comparison => 2
  | .logic => 3
  | .list => 4

/-- A modifier of a declaration, by its number; zero is no modifier. -/
structure Modifier where
  code : Nat
  deriving DecidableEq, Inhabited

namespace Modifier

def names : List String :=
  ["mut", "const", "pub", "priv", "opt", "dyn", "static"]

def name (m : Modifier) : Text :=
  if m.code = 0 then text "invalid" else text (names.getD (m.code - 1) "invalid")

def ofName? (t : Text) : Option Modifier :=
  (names.findIdx? fun s => text s == t).map fun n => ⟨n + 1⟩

end Modifier

end TreeCheck
