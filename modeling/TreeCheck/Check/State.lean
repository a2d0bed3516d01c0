import TreeCheck.Context
import TreeCheck.Diagnostic
import TreeCheck.Tree

/-!
The state of a check and the steps that touch nothing but the state: recording types, filling
annotation slots and emitting diagnostics.

A check runs over a state and stops at a fault, keeping the state it had reached. Neither fault
arises for trees that were read from a document.
-/

namespace TreeCheck

namespace Check

structure Options where
  shadowing : Bool
  redefinition : Bool

/-- What a check reads and never changes. -/
structure Env where
  names : Interner
  options : Options

/-- A place of the tree that is annotated with a type: the own slot of a definition or operation,
a parameter, a field, a branch or an alternative, each of the node with the given number. -/
inductive Slot where
  | own (node : Nat)
  | param (node index : Nat)
  | field (node index : Nat)
  | branch (node index : Nat)
  | otherwise (node : Nat)
  deriving DecidableEq, Hashable

inductive Fault where
  | underflow (last : Nat)
  /-- The position of an absent node was asked for. -/
  | absent

structure State where
  ctx : Context
  members : Table (Table Ty)
  /-- Where bindings were declared, by scope and name, the latest first. -/
  declared : List ((Nat × Handle) × Span)
  defined : Table Span
  /-- The types of nodes, in the order in which they were recorded. -/
  types : Array (Nat × Ty)
  /-- The annotations, in the order in which they were made; the last one of a slot counts. -/
  slots : Array (Slot × Ty)
  emitted : Array Diagnostic

def State.start (ctx : Context) : State :=
  { ctx, members := .empty, declared := [], defined := .empty, types := #[], slots := #[],
    emitted := #[] }

end Check

abbrev Check (α : Type) := EStateM Check.Fault Check.State α

namespace Check

def record (id : Nat) (ty : Ty) : Check Ty := do
  modify fun s => { s with types := s.types.push (id, ty) }
  return ty

def annotate (slot : Slot) (ty : Ty) : Check Unit :=
  modify fun s => { s with slots := s.slots.push (slot, ty) }

def emit (d : Diagnostic) : Check Unit :=
  modify fun s => { s with emitted := s.emitted.push d }

def report (code : Code) (span : Span) (message : Text) : Check Unit :=
  emit (.error code span message)

def spanOf (n : Option Node) : Check Span :=
  match n with
  | some n => return n.span
  | none => throw .absent

def spanOr (n : Option Node) (fallback : Span) : Span :=
  match n with
  | some n => n.span
  | none => fallback

def openScope : Check Unit :=
  modify fun s => { s with ctx := s.ctx.openScope }

def closeScope : Check Unit := do
  let s ← get
  match s.ctx.closeScope with
  | .ok (_, ctx) => set { s with ctx }
  | .error _ => throw (.underflow s.ctx.last)

def lookup (name : Handle) : Check (Option Symbol) :=
  return (← get).ctx.lookup name

def typeNamed (name : Handle) : Check (Option Ty) :=
  return (← get).ctx.typeNamed name

def objectNamed (name : Handle) : Check (Option Ty) :=
  return ((← get).ctx.typeNamed name).filter (·.kind = .object)

variable (env : Env)

def Env.label (ty : Ty) : Text :=
  ty.label (some env.names)

def Env.name (h : Handle) : Text :=
  env.names.display h

def mismatch (span : Span) (what : Text) (want got : Ty) : Check Unit :=
  report .typeMismatch span
    (what ++ text ": expected " ++ env.label want ++ text ", found " ++ env.label got)

end Check

end TreeCheck
