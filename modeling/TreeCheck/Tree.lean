import TreeCheck.Interner
import TreeCheck.Span
import TreeCheck.Tree.Operator

/-!
Syntax trees. A node has a site: a number that tells it from every other node of its tree, and the
position it was read from. A child may be absent wherever a node may stand; parameters, fields,
branches and the other parts that are no nodes are always there.

Written type names are kept as handles, the absent name standing for no annotation.
-/

namespace TreeCheck

/-- Which node of its tree this is, and where it stands in its document. -/
structure Site where
  id : Nat
  span : Span
  deriving DecidableEq, Inhabited

/-- An argument of a call; the absent name makes it positional. -/
structure Argument (α : Type) where
  value : Option α
  name : Handle

/-- One step of a member access: a field, or a method with arguments. -/
structure Accessor (α : Type) where
  span : Span
  name : Handle
  isField : Bool
  args : List (Argument α)

structure Param (α : Type) where
  span : Span
  name : Handle
  isOptional : Bool
  default : Option α
  isDynamic : Bool
  isMutable : Bool
  declared : Handle

structure Field (α : Type) where
  span : Span
  name : Handle
  modifiers : List Modifier
  declared : Handle
  default : Option α

structure Branch (α : Type) where
  guard : Option α
  body : Option α

structure Initializer (α : Type) where
  name : Handle
  value : Option α

structure Lambda (α : Type) where
  site : Site
  modifiers : List Modifier
  params : List (Param α)
  body : Option α
  declared : Handle

structure Function (α : Type) where
  site : Site
  name : Handle
  lambda : Option (Lambda α)

structure Chain (α : Type) where
  site : Site
  name : Handle
  accessors : List (Accessor α)

structure Class (α : Type) where
  name : Handle
  supers : List Handle
  params : List Modifier
  fields : List (Field α)
  init : List (Lambda α)
  methods : List (Function α)
  preInit : Option α
  postInit : Option α
  final : Option α
  validate : Option α

inductive Node where
  | integer (site : Site) (value : Int)
  | float (site : Site) (bits : UInt64)
  | boolean (site : Site) (value : Bool)
  | string (site : Site) (value : Text)
  | quote (site : Site)
  | nil (site : Site)
  | pair (site : Site)
  | vector (site : Site) (elems : List (Option Node))
  | define (site : Site) (name : Handle) (modifiers : List Modifier) (value : Option Node)
      (declared : Handle)
  | lambda (lambda : Lambda Node)
  | function (function : Function Node)
  | struct (site : Site) (name : Handle) (fields : List (Field Node))
  | cls (site : Site) (cls : Class Node)
  | assign (site : Site) (name : Handle) (value : Option Node)
  | block (site : Site) (exprs : List (Option Node))
  | print (site : Site) (expr : Option Node)
  | cond (site : Site) (branch : Branch Node) (otherwise : Option Node)
  | conds (site : Site) (branches : List (Branch Node)) (otherwise : Option Node)
  | loop (site : Site) (guard : Option Node) (body : Option Node) (bodyFirst : Bool)
  | cons (site : Site) (car : Option Node) (cdr : Option Node)
  | list (site : Site) (op : Operator) (operands : List (Option Node))
  | access (site : Site) (index : Option Node) (pattern : Handle) (target : Option Node)
  | call (site : Site) (name : Handle) (args : List (Argument Node))
  | invoke (site : Site) (callee : Option Node) (accessors : List (Accessor Node))
      (args : List (Argument Node))
  | member (chain : Chain Node)
  | assignMember (site : Site) (target : Option (Chain Node)) (value : Option Node)
  | ident (site : Site) (name : Handle)
  | random (site : Site) (isFloat : Bool) (lower : Option Node) (upper : Option Node)
  | create (site : Site) (name : Handle) (args : List (Initializer Node))
  | construct (site : Site) (name : Handle) (args : List (Argument Node))
  | operation (site : Site) (op : Operator) (operands : List (Option Node))
  /-- A node of a kind outside the language, with the name of that kind. -/
  | foreign (site : Site) (kind : String)

namespace Node

def site : Node → Site
  | integer s _ | float s _ | boolean s _ | string s _ | quote s | nil s | pair s | vector s _
  | define s _ _ _ _ | struct s _ _ | cls s _ | assign s _ _ | block s _ | print s _
  | cond s _ _ | conds s _ _ | loop s _ _ _ | cons s _ _ | list s _ _ | access s _ _ _
  | call s _ _ | invoke s _ _ _ | assignMember s _ _ | ident s _ | random s _ _ _
  | create s _ _ | construct s _ _ | operation s _ _ | foreign s _ => s
  | lambda l => l.site
  | function f => f.site
  | member c => c.site

def id (n : Node) : Nat :=
  n.site.id

def span (n : Node) : Span :=
  n.site.span

def kindName : Node → String
  | integer .. => "*ast.Integer"
  | float .. => "*ast.Float"
  | boolean .. => "*ast.Boolean"
  | string .. => "*ast.String"
  | quote .. => "*ast.Quote"
  | nil .. => "*ast.Nil"
  | pair .. => "*ast.Pair"
  | vector .. => "*ast.Vector"
  | define .. => "*ast.DefVariable"
  | lambda .. => "*ast.DefLambda"
  | function .. => "*ast.DefFunction"
  | struct .. => "*ast.DefStruct"
  | cls .. => "*ast.DefClass"
  | assign .. => "*ast.Assignment"
  | block .. => "*ast.Multi"
  | print .. => "*ast.Print"
  | cond .. => "*ast.If"
  | conds .. => "*ast.Cond"
  | loop .. => "*ast.While"
  | cons .. => "*ast.Cons"
  | list .. => "*ast.PairList"
  | access .. => "*ast.ListAccess"
  | call .. => "*ast.FuncCall"
  | invoke .. => "*ast.InnerFuncCall"
  | member .. => "*ast.ObjectCall"
  | assignMember .. => "*ast.ObjectAssign"
  | ident .. => "*ast.LiteralCall"
  | random .. => "*ast.GenRand"
  | create .. => "*ast.DirectInst"
  | construct .. => "*ast.InitInst"
  | operation .. => "*ast.Operation"
  | foreign _ kind => kind

def ofArguments (args : List (Argument Node)) : List Node :=
  args.filterMap (·.value)

def ofAccessors (accessors : List (Accessor Node)) : List Node :=
  accessors.flatMap fun a => ofArguments a.args

def ofBranches (branches : List (Branch Node)) : List Node :=
  branches.flatMap fun b => b.guard.toList ++ b.body.toList

/-- The nodes directly below a node, in the order of the source; absent ones are left out. -/
def children : Node → List Node
  | integer .. | float .. | boolean .. | string .. | quote .. | nil .. | pair .. | ident ..
  | foreign .. => []
  | vector _ elems | block _ elems | list _ _ elems | operation _ _ elems => elems.filterMap (·)
  | define _ _ _ value _ | assign _ _ value | print _ value => value.toList
  | lambda l => l.params.filterMap (·.default) ++ l.body.toList
  | function f => (f.lambda.map lambda).toList
  | struct _ _ fields => fields.filterMap (·.default)
  | cls _ c =>
    c.fields.filterMap (·.default) ++ c.init.map lambda ++ c.methods.map function ++
      (c.preInit.toList ++ c.postInit.toList ++ c.final.toList ++ c.validate.toList)
  | cond _ branch otherwise => branch.guard.toList ++ branch.body.toList ++ otherwise.toList
  | conds _ branches otherwise => ofBranches branches ++ otherwise.toList
  | loop _ first second _ | cons _ first second | random _ _ first second =>
    first.toList ++ second.toList
  | access _ index _ target => index.toList ++ target.toList
  | call _ _ args | construct _ _ args => ofArguments args
  | invoke _ callee accessors args => callee.toList ++ ofAccessors accessors ++ ofArguments args
  | member c => ofAccessors c.accessors
  | assignMember _ target value => (target.map member).toList ++ value.toList
  | create _ _ args => args.filterMap (·.value)

end Node

/-- The tree of one document: its file, its path, and the nodes at the top. -/
structure Tree where
  file : Nat
  path : Text
  nodes : List (Option Node)

end TreeCheck
