import TreeCheck.Interner

/-!
Static types. A type has a kind and, for the composite kinds, a payload: the element type of a
vector, the name and direct super types of an object, the result and argument types of a lambda.
Types are also read from snapshots, where a payload may be missing, may stand beside a kind that
has none, and a kind may have any number; the type therefore keeps all three payloads as optional
parts, and equality looks only at those that belong to the kind.
-/

namespace TreeCheck

structure Kind where
  code : UInt8
  deriving DecidableEq, Inhabited

namespace Kind

def unresolved : Kind := ⟨0⟩
def integer : Kind := ⟨1⟩
def float : Kind := ⟨2⟩
def boolean : Kind := ⟨3⟩
def string : Kind := ⟨4⟩
def nil : Kind := ⟨5⟩
def pair : Kind := ⟨6⟩
def quote : Kind := ⟨7⟩
def vector : Kind := ⟨8⟩
def object : Kind := ⟨9⟩
def lambda : Kind := ⟨10⟩

def names : List String :=
  ["unresolved", "int", "float", "bool", "string", "nil", "pair", "quote", "vector", "object",
    "lambda"]

/-- The name of a kind; a number outside the known kinds is shown as such. -/
def toText (k : Kind) : Text :=
  match names[k.code.toNat]? with
  | some name => text name
  | none => text "Kind(" ++ Text.ofNat k.code.toNat ++ text ")"

def isComposite (k : Kind) : Bool :=
  k = vector || k = object || k = lambda

def isNumeric (k : Kind) : Bool :=
  k = integer || k = float

end Kind

/-- The payload of an object type: its name and its direct super types. -/
structure ObjectOf (α : Type) where
  name : Handle
  supers : List α

/-- The payload of a lambda type: its result and its arguments. -/
structure SignatureOf (α : Type) where
  result : Option α
  args : List α

/-- A static type: a kind and the payloads of the composite kinds. -/
inductive Ty where
  | mk (kind : Kind) (elem : Option Ty) (object : Option (ObjectOf Ty))
      (signature : Option (SignatureOf Ty))

namespace Ty

def kind : Ty → Kind
  | mk k _ _ _ => k

def elem? : Ty → Option Ty
  | mk _ e _ _ => e

def object? : Ty → Option (ObjectOf Ty)
  | mk _ _ o _ => o

def signature? : Ty → Option (SignatureOf Ty)
  | mk _ _ _ s => s

def ofKind (k : Kind) : Ty :=
  mk k none none none

def unresolved : Ty := ofKind .unresolved
def integer : Ty := ofKind .integer
def float : Ty := ofKind .float
def boolean : Ty := ofKind .boolean
def string : Ty := ofKind .string
def nil : Ty := ofKind .nil
def pair : Ty := ofKind .pair
def quote : Ty := ofKind .quote

instance : Inhabited Ty := ⟨unresolved⟩

def vector (elem : Ty) : Ty :=
  mk .vector (some elem) none none

def object (name : Handle) (supers : List Ty) : Ty :=
  mk .object none (some ⟨name, supers⟩) none

def lambda (result : Ty) (args : List Ty) : Ty :=
  mk .lambda none none (some ⟨some result, args⟩)

def isResolved (t : Ty) : Bool :=
  t.kind != .unresolved

/-- The name of an object type; the absent name for all other types. -/
def objectName (t : Ty) : Handle :=
  if t.kind = .object then
    match t.object? with
    | some o => o.name
    | none => Handle.none
  else Handle.none

/-- The element type of a vector; unresolved for all other types. -/
def elemType (t : Ty) : Ty :=
  if t.kind = .vector then t.elem?.getD unresolved else unresolved

/-- The result type of a lambda; unresolved for all other types. -/
def resultType (t : Ty) : Ty :=
  if t.kind = .lambda then (t.signature?.bind (·.result)).getD unresolved else unresolved

/-- The argument types of the signature payload; none without one. -/
def params (t : Ty) : List Ty :=
  match t.signature? with
  | some s => s.args
  | none => []

/-- The direct super types of the object payload; none without one. -/
def supers (t : Ty) : List Ty :=
  match t.object? with
  | some o => o.supers
  | none => []

mutual

/-- Structural identity: same kind, and same payload where the kind has one. -/
def equal : Ty → Ty → Bool
  | mk k e o s, mk k' e' o' s' =>
    k = k' &&
      (if k = .vector then equalPart e e'
      else if k = .object then equalObject o o'
      else if k = .lambda then equalSignature s s'
      else true)

def equalPart : Option Ty → Option Ty → Bool
  | none, none => true
  | none, some b => b.kind = .unresolved
  | some a, none => a.kind = .unresolved
  | some a, some b => equal a b

def equalObject : Option (ObjectOf Ty) → Option (ObjectOf Ty) → Bool
  | none, none => true
  | some ⟨name, supers⟩, some ⟨name', supers'⟩ => name = name' && equalAll supers supers'
  | _, _ => false

def equalSignature : Option (SignatureOf Ty) → Option (SignatureOf Ty) → Bool
  | none, none => true
  | some ⟨result, args⟩, some ⟨result', args'⟩ => equalPart result result' && equalAll args args'
  | _, _ => false

def equalAll : List Ty → List Ty → Bool
  | [], [] => true
  | a :: as, b :: bs => equal a b && equalAll as bs
  | _, _ => false

end

mutual

/-- A copy that shares no payload with the type; every payload is copied, whatever the kind. -/
def clone : Ty → Ty
  | mk k e o s => mk k (clonePart e) (cloneObject o) (cloneSignature s)

def clonePart : Option Ty → Option Ty
  | none => none
  | some t => some (clone t)

def cloneObject : Option (ObjectOf Ty) → Option (ObjectOf Ty)
  | none => none
  | some ⟨name, supers⟩ => some ⟨name, cloneAll supers⟩

def cloneSignature : Option (SignatureOf Ty) → Option (SignatureOf Ty)
  | none => none
  | some ⟨result, args⟩ => some ⟨clonePart result, cloneAll args⟩

def cloneAll : List Ty → List Ty
  | [] => []
  | t :: rest => clone t :: cloneAll rest

end

def compatible (want got : Ty) : Bool :=
  !want.isResolved || !got.isResolved || equal want got

/-- The type of a value that comes from one of several branches: their common type, unresolved if
they differ, nil if there is none. -/
def join : List Ty → Ty
  | [] => nil
  | t :: rest => if rest.all fun other => equal other t then t else unresolved

end Ty

end TreeCheck
