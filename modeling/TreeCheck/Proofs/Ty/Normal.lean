import Mathlib.Data.List.Forall2
import TreeCheck.Proofs.Ty.Inside

/-!
Normal forms of types. A payload counts only beside the kind that it belongs to, and there a missing
element or result reads as unresolved, while a missing object or signature payload stays missing.
Two types are equal exactly if their normal forms are the same, so being equal is an equivalence,
types are equal exactly if their components are, and every type equals its copy.
-/

namespace TreeCheck.Ty

mutual

/-- The type without the payloads that do not belong to its kind, and with an element and a result
where these belong to it. -/
def norm : Ty → Ty
  | mk k e o s =>
    if k = .vector then mk k (some (normPart e)) none none
    else if k = .object then mk k none (normObject o) none
    else if k = .lambda then mk k none none (normSignature s)
    else ofKind k

/-- The normal form of an element or result; a missing one reads as unresolved. -/
def normPart : Option Ty → Ty
  | none => unresolved
  | some t => norm t

/-- The normal form of an object payload; a missing one is told from every other. -/
def normObject : Option (ObjectOf Ty) → Option (ObjectOf Ty)
  | none => none
  | some ⟨name, supers⟩ => some ⟨name, normAll supers⟩

/-- The normal form of a signature payload; a missing one is told from every other. -/
def normSignature : Option (SignatureOf Ty) → Option (SignatureOf Ty)
  | none => none
  | some ⟨result, args⟩ => some ⟨some (normPart result), normAll args⟩

def normAll : List Ty → List Ty
  | [] => []
  | t :: rest => norm t :: normAll rest

end

@[simp] theorem kind_norm (t : Ty) : t.norm.kind = t.kind := by
  obtain ⟨k, e, o, s⟩ := t
  unfold norm
  split_ifs <;> rfl

theorem norm_eq_unresolved_iff {t : Ty} : t.norm = unresolved ↔ t.kind = .unresolved := by
  constructor
  · intro same
    rw [← kind_norm, same]
    rfl
  · intro unresolved
    obtain ⟨k, e, o, s⟩ := t
    cases unresolved
    rw [norm]
    rfl

/-! ### Equality and normal forms -/

mutual

theorem equal_iff_norm (a b : Ty) : equal a b = true ↔ norm a = norm b := by
  obtain ⟨k, e, o, s⟩ := a
  obtain ⟨k', e', o', s'⟩ := b
  by_cases kinds : k = k'
  · subst kinds
    have elem := equalPart_iff_norm e e'
    have object := equalObject_iff_norm o o'
    have signature := equalSignature_iff_norm s s'
    rw [equal, norm, norm]
    split_ifs <;> simp [elem, object, signature]
  · have different : norm (mk k e o s) ≠ norm (mk k' e' o' s') := by
      intro same
      have forms := congrArg kind same
      rw [kind_norm, kind_norm] at forms
      exact kinds forms
    simp [equal, kinds, different]

theorem equalPart_iff_norm (x y : Option Ty) : equalPart x y = true ↔ normPart x = normPart y := by
  match x, y with
  | none, none => simp [equalPart]
  | none, some b =>
    rw [equalPart, normPart, normPart, decide_eq_true_eq, eq_comm (a := unresolved)]
    exact norm_eq_unresolved_iff.symm
  | some a, none =>
    rw [equalPart, normPart, normPart, decide_eq_true_eq]
    exact norm_eq_unresolved_iff.symm
  | some a, some b =>
    rw [equalPart, normPart, normPart]
    exact equal_iff_norm a b

theorem equalObject_iff_norm (x y : Option (ObjectOf Ty)) :
    equalObject x y = true ↔ normObject x = normObject y := by
  match x, y with
  | none, none => simp [equalObject]
  | none, some _ => simp [equalObject, normObject]
  | some _, none => simp [equalObject, normObject]
  | some ⟨name, supers⟩, some ⟨name', supers'⟩ =>
    simp [equalObject, normObject, equalAll_iff_norm supers supers']

theorem equalSignature_iff_norm (x y : Option (SignatureOf Ty)) :
    equalSignature x y = true ↔ normSignature x = normSignature y := by
  match x, y with
  | none, none => simp [equalSignature]
  | none, some _ => simp [equalSignature, normSignature]
  | some _, none => simp [equalSignature, normSignature]
  | some ⟨result, args⟩, some ⟨result', args'⟩ =>
    simp [equalSignature, normSignature, equalPart_iff_norm result result',
      equalAll_iff_norm args args']

theorem equalAll_iff_norm (as bs : List Ty) : equalAll as bs = true ↔ normAll as = normAll bs := by
  match as, bs with
  | [], [] => simp [equalAll]
  | [], _ :: _ => simp [equalAll, normAll]
  | _ :: _, [] => simp [equalAll, normAll]
  | a :: as, b :: bs => simp [equalAll, normAll, equal_iff_norm a b, equalAll_iff_norm as bs]

end

theorem kind_eq_of_equal {a b : Ty} (same : equal a b = true) : a.kind = b.kind := by
  rw [← kind_norm a, (equal_iff_norm a b).mp same, kind_norm]

theorem equal_equivalence : Equivalence fun a b => equal a b = true where
  refl := equal_self
  symm same := (equal_iff_norm _ _).mpr ((equal_iff_norm _ _).mp same).symm
  trans first second := by
    rw [equal_iff_norm] at first second ⊢
    exact first.trans second

theorem equal_comm (a b : Ty) : equal a b = equal b a :=
  Bool.eq_iff_iff.mpr ⟨equal_equivalence.symm, equal_equivalence.symm⟩

/-! ### Normal forms are normal -/

mutual

theorem norm_norm (t : Ty) : t.norm.norm = t.norm := by
  obtain ⟨k, e, o, s⟩ := t
  rw [norm]
  split_ifs with vector object lambda
  · rw [norm, if_pos vector, normPart, norm_normPart e]
  · rw [norm, if_neg vector, if_pos object, norm_normObject o]
  · rw [norm, if_neg vector, if_neg object, if_pos lambda, norm_normSignature s]
  · rw [ofKind, norm, if_neg vector, if_neg object, if_neg lambda, ofKind]

theorem norm_normPart (x : Option Ty) : (normPart x).norm = normPart x := by
  match x with
  | none => rfl
  | some t =>
    rw [normPart]
    exact norm_norm t

theorem norm_normObject (x : Option (ObjectOf Ty)) : normObject (normObject x) = normObject x := by
  match x with
  | none => rfl
  | some ⟨name, supers⟩ => rw [normObject, normObject, norm_normAll supers]

theorem norm_normSignature (x : Option (SignatureOf Ty)) :
    normSignature (normSignature x) = normSignature x := by
  match x with
  | none => rfl
  | some ⟨result, args⟩ =>
    rw [normSignature, normSignature, normPart, norm_normPart result, norm_normAll args]

theorem norm_normAll (types : List Ty) : normAll (normAll types) = normAll types := by
  match types with
  | [] => rfl
  | t :: rest => rw [normAll, normAll, norm_norm t, norm_normAll rest]

end

/-! ### Components and copies -/

theorem equalAll_iff (as bs : List Ty) :
    equalAll as bs = true ↔ List.Forall₂ (fun a b => equal a b = true) as bs := by
  induction as generalizing bs with
  | nil => cases bs <;> simp [equalAll]
  | cons a as ih => cases bs <;> simp [equalAll, ih]

theorem equal_vector (a b : Ty) : equal (vector a) (vector b) = equal a b := by
  rw [vector, vector, equal, equalPart]
  rfl

theorem equal_object (name name' : Handle) (as bs : List Ty) :
    equal (object name as) (object name' bs) = (decide (name = name') && equalAll as bs) := by
  rw [object, object, equal, equalObject]
  rfl

theorem equal_lambda (a b : Ty) (as bs : List Ty) :
    equal (lambda a as) (lambda b bs) = (equal a b && equalAll as bs) := by
  have result : equalPart (some a) (some b) = equal a b := by rw [equalPart]
  rw [lambda, lambda, equal, equalSignature, result]
  rfl

mutual

theorem clone_eq (t : Ty) : t.clone = t := by
  obtain ⟨k, e, o, s⟩ := t
  rw [clone, clonePart_eq e, cloneObject_eq o, cloneSignature_eq s]

theorem clonePart_eq (x : Option Ty) : clonePart x = x := by
  match x with
  | none => rfl
  | some t => rw [clonePart, clone_eq t]

theorem cloneObject_eq (x : Option (ObjectOf Ty)) : cloneObject x = x := by
  match x with
  | none => rfl
  | some ⟨name, supers⟩ => rw [cloneObject, cloneAll_eq supers]

theorem cloneSignature_eq (x : Option (SignatureOf Ty)) : cloneSignature x = x := by
  match x with
  | none => rfl
  | some ⟨result, args⟩ => rw [cloneSignature, clonePart_eq result, cloneAll_eq args]

theorem cloneAll_eq (types : List Ty) : cloneAll types = types := by
  match types with
  | [] => rfl
  | t :: rest => rw [cloneAll, clone_eq t, cloneAll_eq rest]

end

/-- Two types, of whatever kinds and with whatever payloads, are equal exactly if they have the same
normal form. So being equal is an equivalence; vectors, objects and lambdas are equal exactly if
their components are; and every type equals its copy. -/
theorem equal_is_sameness_of_normal_forms :
    (∀ a b, equal a b = true ↔ norm a = norm b) ∧
    (∀ a, norm (norm a) = norm a) ∧
    (Equivalence fun a b => equal a b = true) ∧
    (∀ a b, equal (vector a) (vector b) = true ↔ equal a b = true) ∧
    (∀ name name' as bs, equal (object name as) (object name' bs) = true ↔
      name = name' ∧ List.Forall₂ (fun a b => equal a b = true) as bs) ∧
    (∀ a b as bs, equal (lambda a as) (lambda b bs) = true ↔
      equal a b = true ∧ List.Forall₂ (fun a b => equal a b = true) as bs) ∧
    ∀ t, equal t t.clone = true := by
  refine ⟨equal_iff_norm, norm_norm, equal_equivalence, ?_, ?_, ?_, ?_⟩
  · intro a b
    rw [equal_vector]
  · intro name name' as bs
    rw [equal_object, Bool.and_eq_true, decide_eq_true_eq, equalAll_iff]
  · intro a b as bs
    rw [equal_lambda, Bool.and_eq_true, equalAll_iff]
  · intro t
    rw [clone_eq]
    exact equal_self t

end TreeCheck.Ty
