import TreeCheck.MessagePack.Update
import TreeCheck.Symbol

/-!
Reading the tables of a snapshot. A draft is a type in the course of reading: its lists may hold
items behind the ones that count, on top of which a later list would be read.
-/

namespace TreeCheck.Snapshot

open MessagePack

inductive Draft where
  | mk (kind : Nat) (elem : Option Draft) (object : Option (Nat × Slots Draft))
      (signature : Option (Option Draft × Slots Draft))

namespace Draft

def zero : Draft :=
  .mk 0 none none none

mutual

def toTy : Draft → Ty
  | .mk kind elem object signature =>
    .mk ⟨kind.toUInt8⟩ (elemTy elem) (objectTy object) (signatureTy signature)

def elemTy : Option Draft → Option Ty
  | none => none
  | some d => some d.toTy

def objectTy : Option (Nat × Slots Draft) → Option (ObjectOf Ty)
  | none => none
  | some (name, ⟨count, supers⟩) => some ⟨name, (tys supers).take count⟩

def signatureTy : Option (Option Draft × Slots Draft) → Option (SignatureOf Ty)
  | none => none
  | some (result, ⟨count, args⟩) => some ⟨elemTy result, (tys args).take count⟩

def tys : List Draft → List Ty
  | [] => []
  | d :: rest => d.toTy :: tys rest

end

def object (item : Update Draft) : Update (Nat × Slots Draft) :=
  record (0, ⟨0, []⟩)
    [("n", fun (_, supers) t => do
        let (name, t) ← number 4 0 t
        return ((name, supers), t)),
      ("s", fun (name, supers) t => do
        let (supers, t) ← slots zero item supers t
        return ((name, supers), t))]

def signature (item : Update Draft) : Update (Option Draft × Slots Draft) :=
  record (none, ⟨0, []⟩)
    [("r", fun (result, args) t => do
        let (result, t) ← optional zero item result t
        return ((result, args), t)),
      ("a", fun (result, args) t => do
        let (args, t) ← slots zero item args t
        return ((result, args), t))]

def read : Nat → Update Draft
  | 0 => fun _ _ => none
  | depth + 1 =>
    record zero
      [("k", fun (.mk _ e o f) t => do
          let (k, t) ← number 1 0 t
          return (.mk k e o f, t)),
        ("e", fun (.mk k e o f) t => do
          let (e, t) ← optional zero (read depth) e t
          return (.mk k e o f, t)),
        ("o", fun (.mk k e o f) t => do
          let (o, t) ← optional (0, ⟨0, []⟩) (object (read depth)) o t
          return (.mk k e o f, t)),
        ("f", fun (.mk k e o f) t => do
          let (f, t) ← optional (none, ⟨0, []⟩) (signature (read depth)) f t
          return (.mk k e o f, t))]

end Draft

structure Binding where
  scope : Nat
  depth : Nat
  ty : Draft

namespace Binding

def zero : Binding :=
  ⟨0, 0, .zero⟩

def toSymbol (b : Binding) : Symbol :=
  ⟨b.scope, b.depth, b.ty.toTy⟩

def read (depth : Nat) : Update Binding :=
  record zero
    [("scope", fun b t => do
        let (scope, t) ← number 4 b.scope t
        return ({ b with scope }, t)),
      ("depth", fun b t => do
        let (depth, t) ← number 4 b.depth t
        return ({ b with depth }, t)),
      ("type", fun b t => do
        let (ty, t) ← Draft.read depth b.ty t
        return ({ b with ty }, t))]

end Binding

def noTables : Tables :=
  ⟨.empty, .empty, .empty⟩

def readTables (depth : Nat) : Update Tables :=
  let bindings := table .zero (Binding.read depth) Binding.toSymbol
  record noTables
    [("globals", fun all t => do
        let (globals, t) ← bindings all.globals t
        return ({ all with globals }, t)),
      ("scopes", fun all t => do
        let (scopes, t) ← table .empty bindings id all.scopes t
        return ({ all with scopes }, t)),
      ("types", fun all t => do
        let (types, t) ← table .zero (Draft.read depth) Draft.toTy all.types t
        return ({ all with types }, t))]

end TreeCheck.Snapshot
