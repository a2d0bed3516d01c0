import TreeCheck.Table
import TreeCheck.Ty.Label

/-!
Bindings and the tables that hold them.
-/

namespace TreeCheck

/-- A declared binding: the scope and the nesting depth it was declared at, and its type. It never
changes after its declaration. -/
structure Symbol where
  scope : Nat
  depth : Nat
  ty : Ty

abbrev Bindings := Table Symbol

/-- What a finished check hands on: the bindings at depth zero, those of every other scope that
has any, closed scopes included, and the registered types. -/
structure Tables where
  globals : Bindings
  scopes : Table Bindings
  types : Table Ty

end TreeCheck
