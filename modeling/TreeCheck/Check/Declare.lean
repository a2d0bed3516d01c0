import TreeCheck.Check.State

/-!
Declarations: binding names, registering types, resolving annotations and recording the members of
object types. A rejected declaration becomes a diagnostic, and the check goes on.
-/

namespace TreeCheck.Check

def State.declaredAt (s : State) (scope : Nat) (name : Handle) : Option Span :=
  s.declared.lookup (scope, name)

def noteAt (d : Diagnostic) (place : Option Span) (message : String) : Diagnostic :=
  match place with
  | some span => d.withNote span (text message)
  | none => d

def warningFor (env : Env) (s : State) (name : Handle) (span : Span) : Option Diagnostic :=
  if s.ctx.depth = 0 then
    if (s.ctx.globals.find? name).isSome && env.options.redefinition then
      some (noteAt
        (.warning .globalRedefined span (text "global " ++ env.name name ++ text " is redefined"))
        (s.declaredAt globalScope name) "previous definition here")
    else none
  else if env.options.shadowing then
    match s.ctx.lookup name with
    | some outer =>
      if outer.scope = s.ctx.current then none
      else
        some (noteAt
          (.warning .shadowing span
            (env.name name ++ text " shadows a binding from an outer scope"))
          (s.declaredAt outer.scope name) "outer binding here")
    | none => none
  else none

/-- Binds a name in the current scope; a rejected binding is reported. -/
def declare (env : Env) (name : Handle) (ty : Ty) (span : Span) : Check Unit := do
  let s ← get
  if let some warning := warningFor env s name span then emit warning
  let scope := s.ctx.current
  match s.ctx.declare name ty with
  | .ok ctx =>
    modify fun s => { s with ctx, declared := ((scope, name), span) :: s.declared }
  | .error rejection =>
    emit (noteAt (.error .duplicateBinding span (rejection.message env.names))
      (s.declaredAt scope name) "previous binding here")

/-- Registers an object type; a second registration of its name is reported. -/
def registerType (env : Env) (name : Handle) (ty : Ty) (span : Span) : Check Unit := do
  let s ← get
  match s.ctx.register name ty with
  | .ok ctx => modify fun s => { s with ctx, defined := s.defined.insert name span }
  | .error rejection =>
    let redefinition := Diagnostic.error .typeRedefined span (rejection.message env.names)
    match s.defined.find? name with
    | some first => emit (redefinition.withNote first (text "first definition here"))
    | none => emit (redefinition.withNote .zero (env.name name ++ text " is a built-in type"))

/-- The type a written type name stands for; unresolved without one and wherever the name does not
resolve, which is reported. -/
def writtenType (env : Env) (name : Handle) (span : Span) : Check Ty := do
  if !name.isValid then return .unresolved
  let s ← get
  match s.ctx.resolve name with
  | .error rejection =>
    match rejection with
    | .notImplemented .. => report .notImplemented span (rejection.message env.names)
    | _ => report .semantic span (rejection.message env.names)
    return .unresolved
  | .ok ty =>
    if ty.isResolved then return ty
    match (s.ctx.typeNamed name).filter (·.kind = .object) with
    | some _ =>
      emit ((Diagnostic.warning .unresolvedType span
          (text "object type " ++ env.name name ++
            text " does not resolve as an annotation")).withNote
        ((s.defined.find? name).getD .zero)
        (text "only a direct super type named " ++ env.name name ++ text " is accepted"))
    | none => report .unresolvedType span (text "unknown type " ++ env.name name)
    return .unresolved

/-- Records a member of an object type; a second member of a name is reported and not recorded. -/
def addMember (env : Env) (owner name : Handle) (ty : Ty) (span : Span) : Check Bool := do
  let s ← get
  let table := (s.members.find? owner).getD .empty
  match table.find? name with
  | some _ =>
    report .duplicateBinding span
      (env.name owner ++ text " already has a member named " ++ env.name name)
    return false
  | none =>
    set { s with members := s.members.insert owner (table.insert name ty) }
    return true

def State.memberOf (s : State) (owner name : Handle) : Option Ty :=
  (s.members.find? owner).bind (·.find? name)

/-- The member of an object type, or of the first of its direct super types that has it. -/
def State.member (s : State) (ty : Ty) (name : Handle) : Option Ty :=
  match s.memberOf ty.objectName name with
  | some found => some found
  | none => ty.supers.findSome? fun super => s.memberOf super.objectName name

def member (ty : Ty) (name : Handle) : Check (Option Ty) :=
  return (← get).member ty name

end TreeCheck.Check
