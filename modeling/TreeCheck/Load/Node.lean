import TreeCheck.Load.Mapping

/-!
Reading nodes. A scalar is a literal or an identifier, a sequence is a vector, and a mapping is of
the kind that one of its keys names. Each rule takes the reader of the nodes below as an argument;
`node` ties the knot, with a bound on the depth that aliases cannot exceed. The rules are written
for every monad that has the steps they are made of.
-/

namespace TreeCheck.Load

def kindKeys : List String :=
  ["int", "float", "bool", "string", "nil", "quote", "pair", "vector", "ref", "def", "lambda",
    "func", "struct", "class", "set", "do", "print", "if", "cond", "while", "cons", "list", "at",
    "call", "invoke", "get", "put", "rand", "new", "make", "op"]

section Rules

variable {M : Type → Type} [Reading M] (below : Yaml.Node → M Node)

def nodesOf (items : List Yaml.Node) : M (List (Option Node)) :=
  items.mapM fun n => some <$> below n

def bodyOf (n : Yaml.Node) : M Node := do
  match n with
  | .sequence _ items =>
    let site ← Reading.siteAt n
    return .block site (← nodesOf below items)
  | _ => below n

def Mapping.node (m : Mapping) (key : String) : M Node := do
  match ← m.require key with
  | some v => below v
  | none => placeholder m.origin

def Mapping.node? (m : Mapping) (key : String) : M (Option Node) := do
  match m.get? key with
  | some v => some <$> below v
  | none => return none

def Mapping.body (m : Mapping) (key : String) : M Node := do
  match ← m.require key with
  | some v => bodyOf below v
  | none => placeholder m.origin

def Mapping.body? (m : Mapping) (key : String) : M (Option Node) := do
  match m.get? key with
  | some v => some <$> bodyOf below v
  | none => return none

def paramOf (n : Yaml.Node) : M (Option (Param Node)) := do
  match n with
  | .scalar _ =>
    match ← nameOf n (text "parameter") with
    | some h => return some ⟨← Reading.spanOf n, h, false, none, false, false, .none⟩
    | none => return none
  | _ =>
    match ← mappingOf n (text "parameter") with
    | none => return none
    | some m =>
      let name ← m.name "name"
      let declared ← m.name? "type"
      let default ← m.node? below "default"
      let isOptional ← m.flag "optional"
      let isDynamic ← m.flag "dyn"
      let isMutable ← m.flag "mut"
      m.finish ["name", "type", "default", "optional", "dyn", "mut"]
      return some ⟨← Reading.spanOf n, name, isOptional, default, isDynamic, isMutable, declared⟩

def fieldOf (n : Yaml.Node) : M (Option (Field Node)) := do
  match n with
  | .scalar _ =>
    match ← nameOf n (text "field") with
    | some h => return some ⟨← Reading.spanOf n, h, [], .none, none⟩
    | none => return none
  | _ =>
    match ← mappingOf n (text "field") with
    | none => return none
    | some m =>
      let name ← m.name "name"
      let modifiers ← m.modifiers "mods"
      let declared ← m.name? "type"
      let default ← m.node? below "default"
      m.finish ["name", "mods", "type", "default"]
      return some ⟨← Reading.spanOf n, name, modifiers, declared, default⟩

/-- The fields that some document nodes write; malformed ones are left out. -/
def fieldsOf (items : List Yaml.Node) : M (List (Field Node)) :=
  return (← items.mapM (fieldOf below)).filterMap (·)

def lambdaOf (m : Mapping) (params : List Yaml.Node) : M (Lambda Node) := do
  let site ← Reading.siteAt m.origin
  let modifiers ← m.modifiers "mods"
  let declared ← m.name? "returns"
  let params := (← params.mapM (paramOf below)).filterMap (·)
  let body ← m.body? below "body"
  return ⟨site, modifiers, params, body, declared⟩

/-- An argument of a call: a node, or a mapping with a name and a value. -/
def argumentOf (n : Yaml.Node) : M (Option (Argument Node)) := do
  let named := match n with
    | .mapping _ pairs => pairs.any fun (k, _) => k.text == text "named"
    | _ => false
  if !named then return some ⟨some (← below n), .none⟩
  match ← mappingOf n (text "named argument") with
  | none => return none
  | some m =>
    let name ← m.name "named"
    let value ← m.node below "value"
    m.finish ["named", "value"]
    return some ⟨some value, name⟩

/-- The arguments that some document nodes write; malformed ones are left out. -/
def argumentsOf (items : List Yaml.Node) : M (List (Argument Node)) :=
  return (← items.mapM (argumentOf below)).filterMap (·)

def initializerOf (n : Yaml.Node) : M (Option (Initializer Node)) := do
  match ← mappingOf n (text "field initializer") with
  | none => return none
  | some m =>
    let name ← m.name "name"
    let value ← m.node below "value"
    m.finish ["name", "value"]
    return some ⟨name, some value⟩

def accessorOf (n : Yaml.Node) : M (Option (Accessor Node)) := do
  match ← mappingOf n (text "accessor") with
  | none => return none
  | some m =>
    if m.has "field" && !m.has "method" then
      let name ← m.name "field"
      m.finish ["field"]
      return some ⟨← Reading.spanOf n, name, true, []⟩
    else if m.has "method" && !m.has "field" then
      let name ← m.name "method"
      let args ← argumentsOf below (← m.items "args")
      m.finish ["method", "args"]
      return some ⟨← Reading.spanOf n, name, false, args⟩
    else
      fail n (text "accessor needs exactly one of field and method")
      return none

/-- The accessors that some document nodes write; malformed ones are left out. -/
def accessorsOf (items : List Yaml.Node) : M (List (Accessor Node)) :=
  return (← items.mapM (accessorOf below)).filterMap (·)

def branchOf (n : Yaml.Node) : M (Option (Branch Node)) := do
  match ← mappingOf n (text "cond branch") with
  | none => return none
  | some m =>
    let guard ← m.node below "when"
    let body ← m.body below "then"
    m.finish ["when", "then"]
    return some ⟨some guard, some body⟩

def initOf (n : Yaml.Node) : M (Option (Lambda Node)) := do
  match ← mappingOf n (text "init") with
  | none => return none
  | some m =>
    let l ← lambdaOf below m (← m.items "params")
    m.finish ["params", "mods", "returns", "body"]
    return some l

def superOf (n : Yaml.Node) : M (Option Handle) :=
  nameOf n (text "super type")

def methodOf (n : Yaml.Node) : M (Option (Function Node)) := do
  match ← below n with
  | .function f => return some f
  | _ =>
    fail n (text "methods must be func nodes")
    return none

def classOf (m : Mapping) : M Node := do
  let name ← m.name "class"
  let site ← Reading.siteAt m.origin
  let supers := (← (← m.items "supers").mapM superOf).filterMap (·)
  let params ← m.modifiers "params"
  let fields ← fieldsOf below (← m.items "fields")
  let init := (← (← m.items "init").mapM (initOf below)).filterMap (·)
  let methods := (← (← m.items "methods").mapM (methodOf below)).filterMap (·)
  let preInit ← m.body? below "pre"
  let postInit ← m.body? below "post"
  let final ← m.body? below "final"
  let validate ← m.body? below "validate"
  return .cls site ⟨name, supers, params, fields, init, methods, preInit, postInit, final, validate⟩

def chainOf (m : Mapping) (key : String) : M (Chain Node) := do
  let site ← Reading.siteAt m.origin
  let name ← m.name key
  return ⟨site, name, ← accessorsOf below (← m.items "access")⟩

def isLiteral (kind : String) : Node → Bool
  | .integer .. => kind == "int"
  | .float .. => kind == "float"
  | .boolean .. => kind == "bool"
  | _ => false

def literalOf (kind : String) (v : Yaml.Node) : M (Option Node) := do
  match v with
  | .scalar s =>
    let n ← scalarOf s
    if isLiteral kind n then return some n
    fail v (text kind ++ text " literal expected, found " ++ Text.quoted s.value)
    return none
  | _ =>
    fail v (text kind ++ text " literal expected")
    return none

def operationOf (m : Mapping) (v : Yaml.Node) : M (Option Node) := do
  match v, Operator.ofSymbol? v.text with
  | .scalar _, some op =>
    let operands ← nodesOf below (← m.items "args")
    let site ← Reading.siteAt m.origin
    return some (if op = .list then .list site op operands else .operation site op operands)
  | _, _ =>
    Reading.report .unknownOperator v (text "unknown operator " ++ Text.quoted v.text)
    let _ ← m.items "args"
    return none

/-- A random number. The bounds of a malformed one are not looked at. -/
def randomOf (m : Mapping) (v : Yaml.Node) : M (Option Node) := do
  let kind := match v with
    | .scalar s =>
      if s.value == text "int" then some false
      else if s.value == text "float" then some true
      else none
    | _ => none
  match kind with
  | none =>
    fail v (text "rand must be int or float")
    m.finish ["rand"]
    return none
  | some isFloat =>
    let lower ← m.node? below "lower"
    let upper ← m.node? below "upper"
    m.finish ["rand", "lower", "upper"]
    return some (.random (← Reading.siteAt m.origin) isFloat lower upper)

def accessOf (m : Mapping) (v : Yaml.Node) : M (Option Node) := do
  let target ← below v
  let index ← m.node? below "index"
  let pattern ← m.name? "pattern"
  if index.isSome == pattern.isValid then
    fail m.origin (text "at needs exactly one of index and pattern")
    return none
  return some (.access (← Reading.siteAt m.origin) index pattern (some target))

def consOf (m : Mapping) (v : Yaml.Node) : M (Option Node) := do
  match ← itemsOf v (text "cons") with
  | [a, b] =>
    let car ← below a
    let cdr ← below b
    return some (.cons (← Reading.siteAt m.origin) (some car) (some cdr))
  | items =>
    fail v (text "cons takes exactly two items, found " ++ Text.ofNat items.length)
    return none

/-- The node that a mapping describes, by the key of its kind and the value under it; none if it
is malformed. Unknown keys are reported after its parts. -/
def kindOf (m : Mapping) (kind : String) (v : Yaml.Node) : M (Option Node) := do
  let site := Reading.siteAt m.origin
  match kind with
  | "int" | "float" | "bool" =>
    let n ← literalOf kind v
    m.finish [kind]
    return n
  | "string" =>
    match v with
    | .scalar s =>
      m.finish ["string"]
      return some (.string (← site) s.value)
    | _ =>
      fail v (text "string literal expected")
      m.finish ["string"]
      return none
  | "nil" =>
    m.finish ["nil"]
    return some (.nil (← site))
  | "quote" =>
    m.finish ["quote"]
    return some (.quote (← site))
  | "pair" =>
    m.finish ["pair"]
    return some (.pair (← site))
  | "vector" =>
    let elems ← nodesOf below (← itemsOf v (text "vector"))
    m.finish ["vector"]
    return some (.vector (← site) elems)
  | "ref" =>
    let name ← nameOf v (text "ref")
    m.finish ["ref"]
    match name with
    | some h => return some (.ident (← site) h)
    | none => return none
  | "def" =>
    let name ← m.name "def"
    let modifiers ← m.modifiers "mods"
    let value ← m.node below "value"
    let declared ← m.name? "type"
    m.finish ["def", "mods", "value", "type"]
    return some (.define (← site) name modifiers (some value) declared)
  | "lambda" =>
    let l ← lambdaOf below m (← itemsOf v (text "lambda"))
    m.finish ["lambda", "mods", "returns", "body"]
    return some (.lambda l)
  | "func" =>
    let name ← m.name "func"
    let l ← lambdaOf below m (← m.items "params")
    m.finish ["func", "params", "mods", "returns", "body"]
    return some (.function ⟨← site, name, some l⟩)
  | "struct" =>
    let name ← m.name "struct"
    let fields ← fieldsOf below (← m.items "fields")
    m.finish ["struct", "fields"]
    return some (.struct (← site) name fields)
  | "class" =>
    let n ← classOf below m
    m.finish ["class", "supers", "params", "fields", "init", "methods", "pre", "post", "final",
      "validate"]
    return some n
  | "set" =>
    let name ← m.name "set"
    let value ← m.node below "value"
    m.finish ["set", "value"]
    return some (.assign (← site) name (some value))
  | "do" =>
    let exprs ← nodesOf below (← itemsOf v (text "do"))
    m.finish ["do"]
    return some (.block (← site) exprs)
  | "print" =>
    let expr ← below v
    m.finish ["print"]
    return some (.print (← site) (some expr))
  | "if" =>
    let guard ← below v
    let body ← m.body below "then"
    let otherwise ← m.body? below "else"
    m.finish ["if", "then", "else"]
    return some (.cond (← site) ⟨some guard, some body⟩ otherwise)
  | "cond" =>
    let branches := (← (← itemsOf v (text "cond")).mapM (branchOf below)).filterMap (·)
    let otherwise ← m.body? below "else"
    m.finish ["cond", "else"]
    return some (.conds (← site) branches otherwise)
  | "while" =>
    let guard ← below v
    let body ← m.body? below "body"
    let bodyFirst ← m.flag "dowhile"
    m.finish ["while", "body", "dowhile"]
    return some (.loop (← site) (some guard) body bodyFirst)
  | "cons" =>
    let n ← consOf below m v
    m.finish ["cons"]
    return n
  | "list" =>
    let operands ← nodesOf below (← itemsOf v (text "list"))
    m.finish ["list"]
    return some (.list (← site) .list operands)
  | "at" =>
    let n ← accessOf below m v
    m.finish ["at", "index", "pattern"]
    return n
  | "call" =>
    let name ← m.name "call"
    let args ← argumentsOf below (← m.items "args")
    m.finish ["call", "args"]
    return some (.call (← site) name args)
  | "invoke" =>
    let callee ← below v
    let accessors ← accessorsOf below (← m.items "access")
    let args ← argumentsOf below (← m.items "args")
    m.finish ["invoke", "access", "args"]
    return some (.invoke (← site) (some callee) accessors args)
  | "get" =>
    let chain ← chainOf below m "get"
    m.finish ["get", "access"]
    return some (.member chain)
  | "put" =>
    let chain ← chainOf below m "put"
    let value ← m.node below "value"
    m.finish ["put", "access", "value"]
    return some (.assignMember (← site) (some chain) (some value))
  | "rand" => randomOf below m v
  | "new" =>
    let name ← m.name "new"
    let args := (← (← m.items "args").mapM (initializerOf below)).filterMap (·)
    m.finish ["new", "args"]
    return some (.create (← site) name args)
  | "make" =>
    let name ← m.name "make"
    let args ← argumentsOf below (← m.items "args")
    m.finish ["make", "args"]
    return some (.construct (← site) name args)
  | _ =>
    let n ← operationOf below m v
    m.finish ["op", "args"]
    return n

def kindKey? : Yaml.Node → Option String
  | .scalar s => kindKeys.find? fun k => text k == s.value
  | _ => none

/-- The one key among the pairs that names a kind; a second one is reported. -/
def kindIn (n : Yaml.Node) : Option String → List (Yaml.Node × Yaml.Node) → M (Option String)
  | some kind, [] => return some kind
  | none, [] => do
    fail n (text "mapping has no node kind")
    return none
  | found, (k, _) :: rest => do
    match found, kindKey? k with
    | some kind, some other =>
      fail k (text "node has both " ++ Text.quoted (text kind) ++ text " and " ++
        Text.quoted (text other))
      return none
    | _, none => kindIn n found rest
    | none, some kind => kindIn n (some kind) rest

def compoundOf? (n : Yaml.Node) (pairs : List (Yaml.Node × Yaml.Node)) : M (Option Node) := do
  match ← kindIn n none pairs with
  | none => return none
  | some kind =>
    match ← mappingOf n (text kind) with
    | none => return none
    | some m =>
      match m.get? kind with
      | some v => kindOf below m kind v
      | none => return none

def compoundOf (n : Yaml.Node) (pairs : List (Yaml.Node × Yaml.Node)) : M Node := do
  match ← compoundOf? below n pairs with
  | some node => return node
  | none => placeholder n

/-- What a document node writes by itself; an alias writes nothing. -/
def writtenOf (n : Yaml.Node) : M Node := do
  match n with
  | .scalar s => scalarOf s
  | .sequence _ items =>
    let site ← Reading.siteAt n
    return .vector site (← nodesOf below items)
  | .mapping _ pairs => compoundOf below n pairs
  | .alias .. =>
    fail n (text "unsupported YAML node")
    placeholder n

end Rules

class Following (M : Type → Type) extends Reading M where
  /-- Counts a node that is reached through an alias, and says whether it is one too many. -/
  exceeds (n : Yaml.Node) : M Bool
  target? (number : Nat) : M (Option Yaml.Node)
  throughAlias (x : M Node) : M Node

/-- Counts a node that is reached through an alias, and says whether it is one too many. The first
one too many is reported. -/
def countAliased (n : Yaml.Node) : Load Bool := do
  if !(← read).throughAlias then return false
  let count ← modifyGet fun s => (s.aliased + 1, { s with aliased := s.aliased + 1 })
  if count ≤ maxAliased then return false
  if count = maxAliased + 1 then
    fail n (text "document expands more than " ++ Text.ofNat maxAliased ++
      text " nodes through aliases")
  return true

instance : Following Load where
  exceeds := countAliased
  target? number := return (← read).document.target? number
  throughAlias x := withReader (fun env => { env with throughAlias := true }) x

section

variable {M : Type → Type} [Following M]

def nodeStep (below : Yaml.Node → M Node) (n : Yaml.Node) : M Node := do
  if ← Following.exceeds n then placeholder n
  else
    match n with
    | .alias _ _ number =>
      match ← Following.target? number with
      | some target => Following.throughAlias (below target)
      | none => writtenOf below n
    | _ => writtenOf below n

def node : Nat → Yaml.Node → M Node
  | 0, n => placeholder n
  | depth + 1, n => nodeStep (node depth) n

end

end TreeCheck.Load
