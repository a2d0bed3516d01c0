import TreeCheck.Ty

/-!
What stands inside a type: its element type, its super types, its result and its arguments, and
whatever stands inside these. Every type equals itself, and a super type is smaller than the type
above which it stands. A property that goes over from parts to what is built from them, and back,
holds of whatever is made from types that have it.
-/

namespace TreeCheck.Ty

def result? (t : Ty) : Option Ty :=
  t.signature?.bind (·.result)

/-- The first type stands somewhere inside the second one, in whatever payload. -/
inductive Inside (part : Ty) : Ty → Prop
  | self : Inside part part
  | elem {ty elem : Ty} : ty.elem? = some elem → Inside part elem → Inside part ty
  | super {ty super : Ty} : super ∈ ty.supers → Inside part super → Inside part ty
  | result {ty result : Ty} : ty.result? = some result → Inside part result → Inside part ty
  | arg {ty arg : Ty} : arg ∈ ty.params → Inside part arg → Inside part ty

theorem Inside.trans {a b c : Ty} (inner : Inside a b) (outer : Inside b c) : Inside a c := by
  induction outer with
  | self => exact inner
  | elem payload _ ih => exact .elem payload ih
  | super member _ ih => exact .super member ih
  | result payload _ ih => exact .result payload ih
  | arg member _ ih => exact .arg member ih

theorem Inside.of_ofKind {part : Ty} {k : Kind} (inside : Inside part (ofKind k)) :
    part = ofKind k := by
  cases inside with
  | self => rfl
  | elem payload => cases payload
  | super member => cases member
  | result payload => cases payload
  | arg member => cases member

theorem Inside.of_vector {part elem : Ty} (inside : Inside part (vector elem)) :
    part = vector elem ∨ Inside part elem := by
  cases inside with
  | self => exact .inl rfl
  | elem payload inner => exact .inr (Option.some.inj payload ▸ inner)
  | super member => cases member
  | result payload => cases payload
  | arg member => cases member

theorem Inside.of_lambda {part result : Ty} {args : List Ty}
    (inside : Inside part (lambda result args)) :
    part = lambda result args ∨ Inside part result ∨ ∃ arg ∈ args, Inside part arg := by
  cases inside with
  | self => exact .inl rfl
  | elem payload => cases payload
  | super member => cases member
  | result payload inner => exact .inr (.inl (Option.some.inj payload ▸ inner))
  | arg member inner => exact .inr (.inr ⟨_, member, inner⟩)

theorem Inside.of_object {part : Ty} {name : Handle} {supers : List Ty}
    (inside : Inside part (object name supers)) :
    part = object name supers ∨ ∃ super ∈ supers, Inside part super := by
  cases inside with
  | self => exact .inl rfl
  | elem payload => cases payload
  | super member inner => exact .inr ⟨_, member, inner⟩
  | result payload => cases payload
  | arg member => cases member

theorem sizeOf_lt_of_mem_supers {ty super : Ty} (member : super ∈ ty.supers) :
    sizeOf super < sizeOf ty := by
  obtain ⟨kind, elem, object, signature⟩ := ty
  cases object with
  | none => cases member
  | some o =>
    obtain ⟨name, above⟩ := o
    have smaller : sizeOf super < sizeOf above := List.sizeOf_lt_of_mem member
    simp only [mk.sizeOf_spec, Option.some.sizeOf_spec, ObjectOf.mk.sizeOf_spec]
    omega

/-! ### Properties of types and their parts -/

/-- A property of the types without payloads, object types apart, that goes over from parts to
vectors and lambdas, and from a type to everything inside it. -/
structure Hereditary (q : Ty → Prop) : Prop where
  ofKind {k : Kind} : k ≠ .object → q (.ofKind k)
  vector {a : Ty} : q a → q (.vector a)
  lambda {a : Ty} {args : List Ty} : q a → (∀ arg ∈ args, q arg) → q (.lambda a args)
  inside {a b : Ty} : q a → b.Inside a → q b

namespace Hereditary

variable {q : Ty → Prop} (all : Hereditary q) {a b : Ty}
include all

theorem unresolved : q .unresolved :=
  all.ofKind (by decide)

theorem elemType (holds : q a) : q a.elemType := by
  unfold Ty.elemType
  split
  · cases payload : a.elem? with
    | none => exact all.unresolved
    | some elem => exact all.inside holds (.elem payload .self)
  · exact all.unresolved

theorem resultType (holds : q a) : q a.resultType := by
  unfold Ty.resultType
  split
  · cases payload : a.signature?.bind (·.result) with
    | none => exact all.unresolved
    | some result => exact all.inside holds (.result payload .self)
  · exact all.unresolved

theorem arg (holds : q a) (member : b ∈ a.params) : q b :=
  all.inside holds (.arg member .self)

theorem join {types : List Ty} (each : ∀ ty ∈ types, q ty) : q (Ty.join types) := by
  cases types with
  | nil => exact all.ofKind (by decide)
  | cons first rest =>
    rw [Ty.join]
    split
    · exact each first List.mem_cons_self
    · exact all.unresolved

end Hereditary

/-! ### Every type equals itself -/

mutual

theorem equal_self (a : Ty) : equal a a = true := by
  obtain ⟨kind, elem, object, signature⟩ := a
  rw [equal, equalPart_self elem, equalObject_self object, equalSignature_self signature]
  simp

theorem equalPart_self (x : Option Ty) : equalPart x x = true := by
  match x with
  | none => rw [equalPart]
  | some a =>
    rw [equalPart]
    exact equal_self a

theorem equalObject_self (x : Option (ObjectOf Ty)) : equalObject x x = true := by
  match x with
  | none => rw [equalObject]
  | some ⟨name, supers⟩ =>
    rw [equalObject, equalAll_self supers]
    simp

theorem equalSignature_self (x : Option (SignatureOf Ty)) : equalSignature x x = true := by
  match x with
  | none => rw [equalSignature]
  | some ⟨result, args⟩ =>
    rw [equalSignature, equalPart_self result, equalAll_self args]
    rfl

theorem equalAll_self (types : List Ty) : equalAll types types = true := by
  match types with
  | [] => rw [equalAll]
  | a :: rest =>
    rw [equalAll, equal_self a, equalAll_self rest]
    rfl

end

end TreeCheck.Ty
