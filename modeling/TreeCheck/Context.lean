import TreeCheck.Symbol

/-!
The context of a check: a stack of open scopes over the bindings of every scope, the bindings at
depth zero, and a registry of type names.

Tables only grow. Closing a scope hides its bindings from look-up and keeps them in the tables; a
rejected operation changes nothing. `Op` and `step` give the operations one form, so that
histories of a context can be spoken about.
-/

namespace TreeCheck

/-- The scope at depth zero, which is never opened and never closed. -/
def globalScope : Nat := 0

/-- A stack of open scopes, innermost first, with the bindings and types recorded so far. -/
structure Context where
  /-- The scope opened last; scopes are numbered from one and never reused. -/
  last : Nat
  depth : Nat
  active : List Nat
  /-- The bindings of every scope but the global one. -/
  scopes : Table Bindings
  globals : Bindings
  types : Table Ty

namespace Context

inductive Rejection where
  | duplicate (name : Handle) (scope : Nat) (existing : Symbol)
  | underflow (last : Nat)
  | redefined (name : Handle) (existing : Ty)
  /-- Names of types of this kind cannot be resolved. -/
  | notImplemented (name : Handle) (kind : Kind)
  | unknownKind (name : Handle) (kind : Kind)

def Rejection.message (names : Interner) : Rejection → Text
  | .duplicate name _ _ => text "redefinition of existing binding: " ++ names.display name
  | .underflow last =>
    text "fatal: close of global scope (last allocated scope " ++ Text.ofNat last ++ text ")"
  | .redefined name _ => text "type " ++ names.display name ++ text " is already registered"
  | .notImplemented name kind =>
    text "resolving " ++ kind.toText ++ text " type name " ++ names.display name ++
      text " is not implemented"
  | .unknownKind name kind =>
    text "type " ++ names.display name ++ text ": unknown kind " ++ kind.toText

def builtins : Table Ty :=
  .ofList [(Handle.int, .integer), (Handle.float, .float), (Handle.bool, .boolean),
    (Handle.string, .string), (Handle.nil, .nil)]

def fresh : Context :=
  { last := 0, depth := 0, active := [], scopes := .empty, globals := .empty, types := builtins }

instance : Inhabited Context := ⟨fresh⟩

def current (ctx : Context) : Nat :=
  ctx.active.headD globalScope

/-- Enters a new scope. A number or a depth of more than 32 bits ends the program instead; here
there is no bound. -/
def openScope (ctx : Context) : Context :=
  { ctx with last := ctx.last + 1, depth := ctx.depth + 1, active := (ctx.last + 1) :: ctx.active }

def closeScope (ctx : Context) : Except Rejection (Nat × Context) :=
  match ctx.active with
  | [] => .error (.underflow ctx.last)
  | top :: rest => .ok (top, { ctx with depth := ctx.depth - 1, active := rest })

def bindingsOf (ctx : Context) (scope : Nat) : Bindings :=
  if scope = globalScope then ctx.globals else (ctx.scopes.find? scope).getD .empty

/-- Binds a name in the current scope. At depth zero a binding replaces an earlier one of the same
name; inside a scope a second binding of a name is rejected and the first one kept. -/
def declare (ctx : Context) (name : Handle) (ty : Ty) : Except Rejection Context :=
  let symbol : Symbol := ⟨ctx.current, ctx.depth, ty⟩
  if ctx.depth = 0 then .ok { ctx with globals := ctx.globals.insert name symbol }
  else
    let bindings := (ctx.scopes.find? ctx.current).getD .empty
    match bindings.find? name with
    | some existing => .error (.duplicate name ctx.current existing)
    | none =>
      .ok { ctx with scopes := ctx.scopes.insert ctx.current (bindings.insert name symbol) }

def lookupIn (scopes : Table Bindings) (name : Handle) : List Nat → Option Symbol
  | [] => none
  | scope :: rest =>
    match (scopes.find? scope).bind (·.find? name) with
    | some symbol => some symbol
    | none => lookupIn scopes name rest

/-- The binding a name refers to here: in the open scopes from the innermost to the outermost,
then at depth zero. -/
def lookup (ctx : Context) (name : Handle) : Option Symbol :=
  match lookupIn ctx.scopes name ctx.active with
  | some symbol => some symbol
  | none => ctx.globals.find? name

/-- The type of the binding a name refers to here; unresolved where there is none. -/
def lookupType (ctx : Context) (name : Handle) : Ty :=
  match ctx.lookup name with
  | some symbol => symbol.ty
  | none => .unresolved

def register (ctx : Context) (name : Handle) (ty : Ty) : Except Rejection Context :=
  match ctx.types.find? name with
  | some existing => .error (.redefined name existing)
  | none => .ok { ctx with types := ctx.types.insert name ty }

def typeNamed (ctx : Context) (name : Handle) : Option Ty :=
  ctx.types.find? name

/-- The type that a type name in a declaration stands for. Unknown names are unresolved; scalar,
vector, nil and pair types stand for themselves. For an object type only its direct super types
count: the first one of the same name is taken, and there is none otherwise. Names of quote and
lambda types cannot be resolved. -/
def resolve (ctx : Context) (name : Handle) : Except Rejection Ty :=
  match ctx.types.find? name with
  | none => .ok .unresolved
  | some found =>
    if found.kind = .object then
      .ok ((found.supers.find? fun s => s.kind = .object && s.objectName = name).getD .unresolved)
    else if found.kind = .quote || found.kind = .lambda then
      .error (.notImplemented name found.kind)
    else if found.kind.code.toNat ≤ Kind.lambda.code.toNat then .ok found
    else .error (.unknownKind name found.kind)

def tables (ctx : Context) : Tables :=
  ⟨ctx.globals, ctx.scopes, ctx.types⟩

inductive Op where
  | openScope
  | closeScope
  | declare (name : Handle) (ty : Ty)
  | register (name : Handle) (ty : Ty)

def step (ctx : Context) : Op → Except Rejection Context
  | .openScope => .ok ctx.openScope
  | .closeScope => ctx.closeScope.map (·.2)
  | .declare name ty => ctx.declare name ty
  | .register name ty => ctx.register name ty

def stepOrKeep (ctx : Context) (op : Op) : Context :=
  match ctx.step op with
  | .ok next => next
  | .error _ => ctx

def run (ctx : Context) (ops : List Op) : Context :=
  ops.foldl stepOrKeep ctx

end Context

end TreeCheck
