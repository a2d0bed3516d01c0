import TreeCheck.Check.Declare

/-!
The types of expressions. Every rule takes the function that checks the nodes below as an
argument, so that each rule is one definition without recursion; `expr` ties the knot, bounded by
the height of the tree.

An absent node has type nil. A type that is not resolved fits everything, so that one mistake is
reported once.
-/

namespace TreeCheck.Check

abbrev Below := Option Node → Check Ty

section

variable (env : Env) (below : Below)

/-- Checks a node in the current scope; the expressions of a block belong to it directly. -/
def body (n : Node) : Check Ty :=
  match n with
  | .block site exprs => do
    let ty ← exprs.foldlM (fun _ e => below e) Ty.nil
    record site.id ty
  | n => below (some n)

def block (n : Option Node) : Check Ty :=
  match n with
  | none => return .nil
  | some n => do
    openScope
    let ty ← body below n
    closeScope
    return ty

/-- The first element whose type is known and differs from that of the first, with its slot. -/
def conflict (first : Ty) : List (Option Node × Ty) → Option (Option Node × Ty)
  | [] => none
  | (n, ty) :: rest => if Ty.compatible first ty then conflict first rest else some (n, ty)

/-- The type of a vector literal. At most one conflict between elements is reported. -/
def vector (elems : List (Option Node)) : Check Ty := do
  let types ← elems.mapM below
  match elems.zip types with
  | [] => return .vector .unresolved
  | (_, first) :: rest =>
    let elem := Ty.join types
    if !elem.isResolved then
      if let some (n, ty) := conflict first rest then
        mismatch env (← spanOf n) (text "vector elements must share one type") first ty
    return .vector elem

/-- The type of a variable definition: the written type where it resolves, else the type of the
value. -/
def define (site : Site) (name : Handle) (value : Option Node) (declared : Handle) : Check Ty := do
  let valueTy ← below value
  let want ← writtenType env declared site.span
  if !Ty.compatible want valueTy then
    mismatch env (spanOr value site.span) (text "value of " ++ env.name name) want valueTy
  let ty := if want.isResolved then want else valueTy
  annotate (.own site.id) ty
  declare env name ty site.span
  return ty

def paramTypes (node : Nat) : Nat → List (Param Node) → Check (List Ty)
  | _, [] => return []
  | index, p :: rest => do
    let ty ← writtenType env p.declared p.span
    annotate (.param node index) ty
    return ty :: (← paramTypes node (index + 1) rest)

def signature (l : Lambda Node) : Check Ty := do
  let args ← paramTypes env l.site.id 0 l.params
  return .lambda (← writtenType env l.declared l.site.span) args

/-- The type of a parameter or field with a default: the written type where it resolves, else the
type of the default. A default that does not fit is reported. -/
def withDefault (what : Text) (written : Ty) (default : Option Node) : Check Ty :=
  match default with
  | none => return written
  | some n => do
    let ty ← below (some n)
    if !Ty.compatible written ty then mismatch env n.span what written ty
    return if written.isResolved then written else ty

def bindParams (node : Nat) : Nat → List (Param Node × Ty) → Check (List Ty)
  | _, [] => return []
  | index, (p, written) :: rest => do
    let ty ← withDefault env below (text "default of " ++ env.name p.name) written p.default
    annotate (.param node index) ty
    declare env p.name ty p.span
    return ty :: (← bindParams node (index + 1) rest)

def lambdaBody (l : Lambda Node) (sig : Ty) : Check Ty := do
  openScope
  let args ← bindParams env below l.site.id 0 (l.params.zip sig.params)
  let bodyTy ←
    match l.body with
    | some n => body below n
    | none => pure Ty.nil
  closeScope
  let result := sig.resultType
  if !Ty.compatible result bodyTy then mismatch env l.site.span (text "return value") result bodyTy
  let ty := Ty.lambda (if result.isResolved then result else bodyTy) args
  annotate (.own l.site.id) ty
  record l.site.id ty

def lambda (l : Lambda Node) : Check Ty := do
  lambdaBody env below l (← signature env l)

/-- Checks a named function. The name is bound to the written signature before the body is
checked, so that the function can call itself. -/
def function (f : Function Node) : Check Ty :=
  match f.lambda with
  | none => do
    report .semantic f.site.span (text "function " ++ env.name f.name ++ text " has no body")
    return .unresolved
  | some l => do
    let sig ← signature env l
    declare env f.name sig f.site.span
    lambdaBody env below l sig

def fields (node : Nat) (owner : Handle) : Nat → List (Field Node) → Check (List Ty)
  | _, [] => return []
  | index, f :: rest => do
    let written ← writtenType env f.declared f.span
    let ty ← withDefault env below (text "default of field " ++ env.name f.name) written f.default
    annotate (.field node index) ty
    let _ ← addMember env owner f.name ty f.span
    return ty :: (← fields node owner (index + 1) rest)

def struct (site : Site) (name : Handle) (parts : List (Field Node)) : Check Ty := do
  let ty := Ty.object name []
  annotate (.own site.id) ty
  registerType env name ty site.span
  let _ ← fields env below site.id name 0 parts
  return .nil

/-- The super types of a class; names that are no object types are reported and left out. -/
def superTypes (site : Site) (name : Handle) : List Handle → Check (List Ty)
  | [] => return []
  | super :: rest => do
    match ← objectNamed super with
    | some ty => return ty :: (← superTypes site name rest)
    | none =>
      report .unresolvedType site.span
        (text "unknown super type " ++ env.name super ++ text " of " ++ env.name name)
      superTypes site name rest

def bindFields (seen : List Handle) : List (Field Node × Ty) → Check Unit
  | [] => return
  | (f, ty) :: rest => do
    if seen.contains f.name then bindFields seen rest
    else
      declare env f.name ty f.span
      bindFields (f.name :: seen) rest

def bindMethods (owner : Handle) : List (Function Node) → Check (List (Lambda Node × Ty))
  | [] => return []
  | m :: rest => do
    match m.lambda with
    | none =>
      report .semantic m.site.span (text "method " ++ env.name m.name ++ text " has no body")
      bindMethods owner rest
    | some l =>
      let sig ← signature env l
      if ← addMember env owner m.name sig m.site.span then declare env m.name sig m.site.span
      return (l, sig) :: (← bindMethods owner rest)

/-- Checks a class definition: its fields, then in a scope of its own its methods, initial lambdas
and hooks. -/
def cls (site : Site) (c : Class Node) : Check Ty := do
  let supers ← superTypes env site c.name c.supers
  let ty := Ty.object c.name supers
  annotate (.own site.id) ty
  registerType env c.name ty site.span
  let types ← fields env below site.id c.name 0 c.fields
  openScope
  bindFields env [] (c.fields.zip types)
  let lambdas ← bindMethods env c.name c.methods
  c.init.forM fun l => discard (lambda env below l)
  lambdas.forM fun (l, sig) => discard (lambdaBody env below l sig)
  [c.preInit, c.postInit, c.final, c.validate].forM fun hook => discard (block below hook)
  closeScope
  return .nil

def ident (site : Site) (name : Handle) : Check Ty := do
  match ← lookup name with
  | some symbol => return symbol.ty
  | none =>
    report .unresolvedSymbol site.span (text "undefined identifier " ++ env.name name)
    return .unresolved

def assign (site : Site) (name : Handle) (value : Option Node) : Check Ty := do
  let valueTy ← below value
  match ← lookup name with
  | none =>
    report .unresolvedSymbol site.span
      (text "assignment to undefined identifier " ++ env.name name)
    return valueTy
  | some symbol =>
    if !Ty.compatible symbol.ty valueTy then
      mismatch env (spanOr value site.span) (text "assignment to " ++ env.name name) symbol.ty
        valueTy
    return symbol.ty

/-- Checks a guard; anything but a known type other than boolean is accepted. -/
def condition (n : Option Node) : Check Unit := do
  let ty ← below n
  if let some n := n then
    if !Ty.compatible .boolean ty then mismatch env n.span (text "condition") .boolean ty

def branch (node index : Nat) (b : Branch Node) : Check Ty := do
  condition env below b.guard
  let ty ← block below b.body
  annotate (.branch node index) ty
  return ty

def branches (node : Nat) : Nat → List (Branch Node) → Check (List Ty)
  | _, [] => return []
  | index, b :: rest => do
    let ty ← branch env below node index b
    return ty :: (← branches node (index + 1) rest)

/-- Checks branches with an alternative. Their type is the common one; an absent alternative does
not count. -/
def cond (site : Site) (parts : List (Branch Node)) (otherwise : Option Node) : Check Ty := do
  let types ← branches env below site.id 0 parts
  let last ← block below otherwise
  annotate (.otherwise site.id) last
  return Ty.join (if otherwise.isSome then types ++ [last] else types)

def access (site : Site) (index : Option Node) (target : Option Node) : Check Ty := do
  let ty ← below target
  if let some n := index then
    let indexTy ← below (some n)
    if !Ty.compatible .integer indexTy then mismatch env n.span (text "index") .integer indexTy
  if ty.kind = .vector then return ty.elemType
  else if ty.kind = .pair || ty.kind = .unresolved then return .unresolved
  else
    report .typeMismatch (spanOr target site.span)
      (text "cannot index a value of type " ++ env.label ty)
    return .unresolved

def matchArgs (span : Span) (what : Text) : List (Argument Node × Ty) → List Ty → Check Unit
  | (arg, ty) :: rest, param :: params => do
    if !arg.name.isValid && !Ty.compatible param ty then
      mismatch env (spanOr arg.value span) (text "argument to " ++ what) param ty
    matchArgs span what rest params
  | _, _ => return

/-- Checks a call of a value of type `callee` and gives the type of its result. -/
def apply (span : Span) (what : Text) (callee : Ty) (args : List (Argument Node)) : Check Ty := do
  let types ← args.mapM fun a => below a.value
  if callee.kind = .unresolved then return .unresolved
  else if callee.kind ≠ .lambda then
    report .notCallable span
      (what ++ text " of type " ++ env.label callee ++ text " is not callable")
    return .unresolved
  else
    let params := callee.params
    if params.length < args.length then
      report .argumentCount span
        (text "too many arguments to " ++ what ++ text ": have " ++ Text.ofNat args.length ++
          text ", want at most " ++ Text.ofNat params.length)
    matchArgs env span what (args.zip types) params
    return callee.resultType

def call (site : Site) (name : Handle) (args : List (Argument Node)) : Check Ty := do
  match ← lookup name with
  | some symbol => apply env below site.span (env.name name) symbol.ty args
  | none =>
    args.forM fun a => discard (below a.value)
    report .unresolvedSymbol site.span (text "undefined function " ++ env.name name)
    return .unresolved

/-- Follows member accesses from a type. What follows something unresolved is checked and stays
unresolved. -/
def follow (ty : Ty) : List (Accessor Node) → Check Ty
  | [] => return ty
  | a :: rest => do
    if ty.kind = .unresolved then
      a.args.forM fun arg => discard (below arg.value)
      follow ty rest
    else
      let found ← if ty.kind = .object then member ty a.name else pure none
      match found with
      | none =>
        report .unknownMember a.span (env.label ty ++ text " has no member " ++ env.name a.name)
        return .unresolved
      | some found =>
        if a.isField then follow found rest
        else follow (← apply env below a.span (env.name a.name) found a.args) rest

def invoke (site : Site) (callee : Option Node) (accessors : List (Accessor Node))
    (args : List (Argument Node)) : Check Ty := do
  let ty ← follow env below (← below callee) accessors
  apply env below site.span (text "expression") ty args

def chain (c : Chain Node) : Check Ty := do
  match ← lookup c.name with
  | some symbol => follow env below symbol.ty c.accessors
  | none =>
    report .unresolvedSymbol c.site.span (text "undefined identifier " ++ env.name c.name)
    return .unresolved

def assignMember (site : Site) (target : Option (Chain Node)) (value : Option Node) :
    Check Ty := do
  let valueTy ← below value
  match target with
  | none => return valueTy
  | some c =>
    let ty ← below (some (.member c))
    if !Ty.compatible ty valueTy then
      mismatch env (spanOr value site.span) (text "member assignment") ty valueTy
    return ty

def random (isFloat : Bool) (bounds : List (Option Node)) : Check Ty := do
  let want := if isFloat then Ty.float else Ty.integer
  bounds.forM fun bound => do
    if let some n := bound then
      let ty ← below (some n)
      if ty.isResolved && !ty.kind.isNumeric then mismatch env n.span (text "random bound") want ty
  return want

def unknownObject (site : Site) (name : Handle) : Check Ty := do
  report .unresolvedType site.span (text "unknown object type " ++ env.name name)
  return .unresolved

def create (site : Site) (name : Handle) (args : List (Initializer Node)) : Check Ty := do
  match ← objectNamed name with
  | none =>
    args.forM fun a => discard (below a.value)
    unknownObject env site name
  | some ty =>
    args.forM fun a => do
      let valueTy ← below a.value
      match ← member ty a.name with
      | none =>
        report .unknownMember (spanOr a.value site.span)
          (env.name name ++ text " has no field " ++ env.name a.name)
      | some fieldTy =>
        if !Ty.compatible fieldTy valueTy then
          mismatch env (spanOr a.value site.span) (text "field " ++ env.name a.name) fieldTy valueTy
    return ty

def construct (site : Site) (name : Handle) (args : List (Argument Node)) : Check Ty := do
  args.forM fun a => discard (below a.value)
  match ← objectNamed name with
  | none => unknownObject env site name
  | some ty => return ty

/-- The type of an arithmetic operation, from the operands on: integer until a float turns up,
unresolved once an operand is unresolved or not numeric, which is reported. -/
def arithmetic (op : Operator) (result : Ty) : List (Option Node × Ty) → Check Ty
  | [] => return result
  | (n, ty) :: rest => do
    if !ty.isResolved then arithmetic op .unresolved rest
    else if !ty.kind.isNumeric then
      report .typeMismatch (← spanOf n)
        (text "operand of " ++ op.symbol ++ text " must be numeric, found " ++ env.label ty)
      arithmetic op .unresolved rest
    else if ty.kind = .float && result.isResolved then arithmetic op .float rest
    else arithmetic op result rest

def operation (site : Site) (op : Operator) (operands : List (Option Node)) : Check Ty := do
  let types ← operands.mapM below
  match op.classOf with
  | .arithmetic => arithmetic env op .integer (operands.zip types)
  | .comparison => return .boolean
  | .logic =>
    (operands.zip types).forM fun (n, ty) => do
      if !Ty.compatible .boolean ty then
        mismatch env (← spanOf n) (text "operand of " ++ op.symbol) .boolean ty
    return .boolean
  | .list => return if op = .list then .pair else .unresolved
  | .invalid =>
    report .semantic site.span (text "unknown operator")
    return .unresolved

def node (n : Node) : Check Ty :=
  match n with
  | .integer site _ => record site.id .integer
  | .float site _ => record site.id .float
  | .boolean site _ => record site.id .boolean
  | .string site _ => record site.id .string
  | .nil site => record site.id .nil
  | .quote site => record site.id .quote
  | .pair site => record site.id .pair
  | .vector site elems => do record site.id (← vector env below elems)
  | .define site name _ value declared => do
    record site.id (← define env below site name value declared)
  | .lambda l => lambda env below l
  | .function f => do record f.site.id (← function env below f)
  | .struct site name parts => do record site.id (← struct env below site name parts)
  | .cls site c => do record site.id (← cls env below site c)
  | .ident site name => do record site.id (← ident env site name)
  | .assign site name value => do record site.id (← assign env below site name value)
  | .block .. => block below (some n)
  | .print site expr => do
    let _ ← below expr
    record site.id .nil
  | .cond site part otherwise => do record site.id (← cond env below site [part] otherwise)
  | .conds site parts otherwise => do record site.id (← cond env below site parts otherwise)
  | .loop site guard inner _ => do
    condition env below guard
    let _ ← block below inner
    record site.id .nil
  | .cons site car cdr => do
    let _ ← below car
    let _ ← below cdr
    record site.id .pair
  | .list site _ operands => do
    operands.forM fun operand => discard (below operand)
    annotate (.own site.id) .pair
    record site.id .pair
  | .access site index _ target => do record site.id (← access env below site index target)
  | .call site name args => do record site.id (← call env below site name args)
  | .invoke site callee accessors args => do
    record site.id (← invoke env below site callee accessors args)
  | .member c => do record c.site.id (← chain env below c)
  | .assignMember site target value => do
    record site.id (← assignMember env below site target value)
  | .random site isFloat lower upper => do
    record site.id (← random env below isFloat [lower, upper])
  | .create site name args => do record site.id (← create env below site name args)
  | .construct site name args => do record site.id (← construct env below site name args)
  | .operation site op operands => do
    let ty ← operation env below site op operands
    annotate (.own site.id) ty
    record site.id ty
  | .foreign site kind => do
    report .semantic site.span (text "unsupported node " ++ text kind)
    return .unresolved

end

def expr (env : Env) : Nat → Below
  | 0, _ => return .unresolved
  | _ + 1, none => return .nil
  | depth + 1, some n => node env (expr env depth) n

end TreeCheck.Check
