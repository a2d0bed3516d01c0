import TreeCheck.Load.State

/-!
Mappings as records. A mapping that describes something has distinct scalar keys; each reader takes
the value under one key, and the keys that no reader knows are reported at the end.
-/

namespace TreeCheck.Load

variable {M : Type → Type} [Reading M]

structure Entry where
  key : Text
  keyNode : Yaml.Node
  value : Yaml.Node

structure Mapping where
  origin : Yaml.Node
  kind : Text
  entries : List Entry

def entriesFrom (kind : Text) : List Entry → List (Yaml.Node × Yaml.Node) → M (List Entry × Bool)
  | entries, [] => return (entries.reverse, true)
  | entries, (k, v) :: rest => do
    match k with
    | .scalar s =>
      if entries.any fun e => e.key == s.value then
        fail k (text "duplicate key " ++ Text.quoted s.value ++ text " in " ++ kind)
        return ((← entriesFrom kind entries rest).1, false)
      else entriesFrom kind (⟨s.value, k, v⟩ :: entries) rest
    | _ =>
      fail k (text "keys of " ++ kind ++ text " must be scalars")
      return ((← entriesFrom kind entries rest).1, false)

def mappingOf (n : Yaml.Node) (kind : Text) : M (Option Mapping) := do
  match n with
  | .mapping _ pairs =>
    let (entries, sound) ← entriesFrom kind [] pairs
    return if sound then some ⟨n, kind, entries⟩ else none
  | _ =>
    fail n (kind ++ text " must be a mapping")
    return none

namespace Mapping

def get? (m : Mapping) (key : String) : Option Yaml.Node :=
  (m.entries.find? fun e => e.key == text key).map Entry.value

def has (m : Mapping) (key : String) : Bool :=
  (m.get? key).isSome

def path (m : Mapping) (key : String) : Text :=
  m.kind ++ text "." ++ text key

def require (m : Mapping) (key : String) : M (Option Yaml.Node) := do
  match m.get? key with
  | some v => return some v
  | none =>
    fail m.origin (m.kind ++ text " is missing " ++ Text.quoted (text key))
    return none

def name (m : Mapping) (key : String) : M Handle := do
  match ← m.require key with
  | some v => return (← nameOf v (m.path key)).getD .none
  | none => return .none

def name? (m : Mapping) (key : String) : M Handle := do
  match m.get? key with
  | some v => if v.isNull then return .none else return (← nameOf v (m.path key)).getD .none
  | none => return .none

/-- The flag under a key; an absent one is false. -/
def flag (m : Mapping) (key : String) : M Bool := do
  match m.get? key with
  | none => return false
  | some v =>
    match v with
    | .scalar s =>
      if let some b := s.toBool? then return b
    | _ => pure ()
    fail v (m.path key ++ text " must be a boolean")
    return false

def items (m : Mapping) (key : String) : M (List Yaml.Node) := do
  match m.get? key with
  | some v => itemsOf v (m.path key)
  | none => return []

def modifiers (m : Mapping) (key : String) : M (List Modifier) := do
  return (← (← m.items key).mapM modifierOf).filterMap (·)

def finish (m : Mapping) (known : List String) : M Unit :=
  m.entries.forM fun e => do
    if !known.any fun k => text k == e.key then
      fail e.keyNode (text "unknown key " ++ Text.quoted e.key ++ text " in " ++ m.kind)

end Mapping

end TreeCheck.Load
