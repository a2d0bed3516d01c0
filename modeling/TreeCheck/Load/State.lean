import TreeCheck.Diagnostic
import TreeCheck.Text.Normal
import TreeCheck.Text.Quoted
import TreeCheck.Tree
import TreeCheck.Yaml.Node

/-!
The state of reading a tree from a document, and the readers of its smallest parts: names, flags,
modifiers and literals. A part that is malformed is reported and replaced, so reading always ends
with a complete tree.
-/

namespace TreeCheck

namespace Load

def maxAliased : Nat := 10000

/-- What reading knows and never changes below a node. -/
structure Env where
  file : Nat
  document : Yaml.Document
  throughAlias : Bool

structure State where
  names : Interner
  emitted : Array Diagnostic
  aliased : Nat
  next : Nat

end Load

abbrev Load := ReaderT Load.Env (StateM Load.State)

namespace Load

/-- The position of a document node. A line or a column of more than 32 bits makes the position
unknown instead; here there is no bound. -/
def spanOf (n : Yaml.Node) : Load Span :=
  return ⟨(← read).file, n.place.line, n.place.column⟩

def siteAt (n : Yaml.Node) : Load Site := do
  let span ← spanOf n
  let id ← modifyGet fun s => (s.next, { s with next := s.next + 1 })
  return ⟨id, span⟩

def report (code : Code) (n : Yaml.Node) (message : Text) : Load Unit := do
  let span ← spanOf n
  modify fun s => { s with emitted := s.emitted.push (.error code span message) }

def intern (name : Text) : Load Handle :=
  modifyGet fun s =>
    let (h, names) := s.names.intern (Text.normal name)
    (h, { s with names })

class Reading (M : Type → Type) extends Monad M where
  spanOf (n : Yaml.Node) : M Span
  siteAt (n : Yaml.Node) : M Site
  report (code : Code) (n : Yaml.Node) (message : Text) : M Unit
  intern (name : Text) : M Handle

instance : Reading Load where
  spanOf := spanOf
  siteAt := siteAt
  report := report
  intern := intern

variable {M : Type → Type} [Reading M]

def fail (n : Yaml.Node) (message : Text) : M Unit :=
  Reading.report .malformed n message

def placeholder (n : Yaml.Node) : M Node :=
  return .nil (← Reading.siteAt n)

/-- The name that a document node writes; anything but a non-empty scalar is malformed. -/
def nameOf (n : Yaml.Node) (what : Text) : M (Option Handle) := do
  match n with
  | .scalar s =>
    if !s.isNull && !s.value.isEmpty then return some (← Reading.intern s.value)
  | _ => pure ()
  fail n (what ++ text " must be a name")
  return none

/-- The items of a sequence; nothing is an empty one. -/
def itemsOf (n : Yaml.Node) (what : Text) : M (List Yaml.Node) := do
  match n with
  | .sequence _ items => return items
  | _ =>
    if n.isNull then return []
    fail n (what ++ text " must be a sequence")
    return []

def modifierOf (n : Yaml.Node) : M (Option Modifier) := do
  match n, Modifier.ofName? n.text with
  | .scalar _, some m => return some m
  | _, _ =>
    fail n (text "unknown modifier " ++ Text.quoted n.text)
    return none

def scalarOf (s : Yaml.Scalar) : M Node := do
  let n := Yaml.Node.scalar s
  let invalid (what : String) : M Node := do
    fail n (text what ++ Text.quoted s.value)
    placeholder n
  if s.tag == text "!!null" then return .nil (← Reading.siteAt n)
  else if s.tag == text "!!bool" then
    match s.toBool? with
    | some b => return .boolean (← Reading.siteAt n) b
    | none => invalid "invalid boolean "
  else if s.tag == text "!!int" then
    match s.toInt? with
    | some v => return .integer (← Reading.siteAt n) v
    | none => invalid "invalid integer "
  else if s.tag == text "!!float" then
    match s.toFloat? with
    | some bits => return .float (← Reading.siteAt n) bits
    | none => invalid "invalid float "
  else if s.tag == text "!!str" then
    if s.style.isQuoted then return .string (← Reading.siteAt n) s.value
    else if s.value.isEmpty then
      fail n (text "empty identifier")
      placeholder n
    else return .ident (← Reading.siteAt n) (← Reading.intern s.value)
  else
    fail n (text "unsupported scalar tag " ++ s.tag)
    placeholder n

end Load

end TreeCheck
