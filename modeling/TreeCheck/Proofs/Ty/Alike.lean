import TreeCheck.Check.State
import TreeCheck.Proofs.Tree.Alike

/-!
Types that differ in nothing but their handles. Whatever a check asks about types has the same
answer for types that are alike, as long as the handles that stand for the same thing tell names
apart alike and are shown alike.
-/

namespace TreeCheck

/-- Handles are names under the two interners: those that stand for the same thing are shown the
same, two are equal on the one side if they are on the other, and the absent name is absent on
both. -/
structure Likeness.Consistent (l : Likeness) (names names' : Interner) : Prop where
  absent : l.handle .none .none
  unique {h k h' k' : Handle} : l.handle h h' → l.handle k k' → (h = k ↔ h' = k')
  display {h h' : Handle} : l.handle h h' → names.display h = names'.display h'

namespace Likeness.Consistent

variable {l : Likeness} {names names' : Interner} (consistent : l.Consistent names names')
include consistent

theorem isValid {h h' : Handle} (same : l.handle h h') : h.isValid = h'.isValid := by
  rw [Bool.eq_iff_iff, Handle.isValid, Handle.isValid, bne_iff_ne, bne_iff_ne]
  exact not_congr (consistent.unique same consistent.absent)

theorem decide_eq {h k h' k' : Handle} (first : l.handle h h') (second : l.handle k k') :
    decide (h = k) = decide (h' = k') :=
  decide_eq_decide.mpr (consistent.unique first second)

theorem contains {seen seen' : List Handle} (all : List.Forall₂ l.handle seen seen')
    {h h' : Handle} (same : l.handle h h') : seen.contains h = seen'.contains h' := by
  induction all with
  | nil => rfl
  | @cons k k' _ _ first _ ih =>
    have here : (h == k) = (h' == k') := consistent.decide_eq same first
    rw [List.contains_cons, List.contains_cons, ih, here]

end Likeness.Consistent

theorem Likeness.same_consistent (names : Interner) : Likeness.same.Consistent names names where
  absent := rfl
  unique := by rintro h k _ _ rfl rfl; rfl
  display := by rintro h _ rfl; rfl

inductive ObjectOf.Alike {α : Type} (l : Likeness) (type : α → α → Prop) :
    ObjectOf α → ObjectOf α → Prop
  | intro {name name' : Handle} {supers supers' : List α} :
    l.handle name name' → List.Forall₂ type supers supers' →
      Alike l type ⟨name, supers⟩ ⟨name', supers'⟩

inductive SignatureOf.Alike {α : Type} (type : α → α → Prop) :
    SignatureOf α → SignatureOf α → Prop
  | intro {result result' : Option α} {args args' : List α} :
    Option.Rel type result result' → List.Forall₂ type args args' →
      Alike type ⟨result, args⟩ ⟨result', args'⟩

inductive Ty.Alike (l : Likeness) : Ty → Ty → Prop
  | mk (kind : Kind) {e e' : Option Ty} {o o' : Option (ObjectOf Ty)}
      {s s' : Option (SignatureOf Ty)} :
    Option.Rel (Alike l) e e' → Option.Rel (ObjectOf.Alike l (Alike l)) o o' →
      Option.Rel (SignatureOf.Alike (Alike l)) s s' → Alike l (mk kind e o s) (mk kind e' o' s')

namespace Ty

variable {l : Likeness} {a a' b b' : Ty}

/-! ### Types that are alike -/

theorem Alike.ofKind (k : Kind) : Alike l (ofKind k) (ofKind k) :=
  .mk k .none .none .none

theorem Alike.vector (elem : Alike l a a') : Alike l (vector a) (vector a') :=
  .mk _ (.some elem) .none .none

theorem Alike.object {name name' : Handle} {supers supers' : List Ty}
    (named : l.handle name name') (all : List.Forall₂ (Alike l) supers supers') :
    Alike l (object name supers) (object name' supers') :=
  .mk _ .none (.some ⟨named, all⟩) .none

theorem Alike.lambda {args args' : List Ty} (result : Alike l a a')
    (all : List.Forall₂ (Alike l) args args') : Alike l (lambda a args) (lambda a' args') :=
  .mk _ .none .none (.some ⟨.some result, all⟩)

theorem Alike.kind_eq (alike : Alike l a a') : a.kind = a'.kind := by
  cases alike
  rfl

theorem Alike.isResolved_eq (alike : Alike l a a') : a.isResolved = a'.isResolved := by
  rw [isResolved, isResolved, alike.kind_eq]

theorem Alike.elem? (alike : Alike l a a') : Option.Rel (Alike l) a.elem? a'.elem? := by
  obtain ⟨_, elem, _, _⟩ := alike
  exact elem

theorem Alike.getD {x y : Option Ty} (parts : Option.Rel (Alike l) x y) :
    Alike l (x.getD unresolved) (y.getD unresolved) := by
  cases parts with
  | none => exact .ofKind _
  | some alike => exact alike

theorem Alike.elemType (alike : Alike l a a') : Alike l a.elemType a'.elemType := by
  rw [Ty.elemType, Ty.elemType, alike.kind_eq]
  split
  · exact .getD alike.elem?
  · exact .ofKind _

theorem Alike.resultType (alike : Alike l a a') : Alike l a.resultType a'.resultType := by
  rw [Ty.resultType, Ty.resultType, alike.kind_eq]
  split
  · refine .getD ?_
    obtain ⟨_, _, _, ⟨result, _⟩ | _⟩ := alike
    · exact result
    · exact .none
  · exact .ofKind _

theorem Alike.params (alike : Alike l a a') : List.Forall₂ (Alike l) a.params a'.params := by
  obtain ⟨_, _, _, ⟨_, args⟩ | _⟩ := alike
  · exact args
  · exact .nil

theorem Alike.supers (alike : Alike l a a') : List.Forall₂ (Alike l) a.supers a'.supers := by
  obtain ⟨_, _, ⟨_, supers⟩ | _, _⟩ := alike
  · exact supers
  · exact .nil

theorem Alike.orElse (first : Alike l a a') (second : Alike l b b') :
    Alike l (if a.isResolved then a else b) (if a'.isResolved then a' else b') := by
  rw [first.isResolved_eq]
  split
  · exact first
  · exact second

variable {names names' : Interner}

/-! ### Equality -/

mutual

theorem Alike.equal_eq (consistent : l.Consistent names names') {a a' b b' : Ty}
    (first : Alike l a a') (second : Alike l b b') : equal a b = equal a' b' := by
  obtain ⟨kind, elem, object, signature⟩ := first
  obtain ⟨kind', elem', object', signature'⟩ := second
  rw [equal, equal, equalPart_eq consistent elem elem', equalObject_eq consistent object object',
    equalSignature_eq consistent signature signature']

theorem equalPart_eq (consistent : l.Consistent names names') {x x' y y' : Option Ty}
    (first : Option.Rel (Alike l) x x') (second : Option.Rel (Alike l) y y') :
    equalPart x y = equalPart x' y' := by
  cases first with
  | none =>
    cases second with
    | none => rfl
    | some right => rw [equalPart, equalPart, right.kind_eq]
  | some left =>
    cases second with
    | none => rw [equalPart, equalPart, left.kind_eq]
    | some right =>
      rw [equalPart, equalPart]
      exact left.equal_eq consistent right

theorem equalObject_eq (consistent : l.Consistent names names')
    {x x' y y' : Option (ObjectOf Ty)} (first : Option.Rel (ObjectOf.Alike l (Alike l)) x x')
    (second : Option.Rel (ObjectOf.Alike l (Alike l)) y y') :
    equalObject x y = equalObject x' y' := by
  cases first with
  | none => cases second <;> simp only [equalObject]
  | some left =>
    cases second with
    | none => simp only [equalObject]
    | some right =>
      obtain ⟨name, supers⟩ := left
      obtain ⟨name', supers'⟩ := right
      rw [equalObject, equalObject, consistent.decide_eq name name',
        equalAll_eq consistent supers supers']

theorem equalSignature_eq (consistent : l.Consistent names names')
    {x x' y y' : Option (SignatureOf Ty)} (first : Option.Rel (SignatureOf.Alike (Alike l)) x x')
    (second : Option.Rel (SignatureOf.Alike (Alike l)) y y') :
    equalSignature x y = equalSignature x' y' := by
  cases first with
  | none => cases second <;> simp only [equalSignature]
  | some left =>
    cases second with
    | none => simp only [equalSignature]
    | some right =>
      obtain ⟨result, args⟩ := left
      obtain ⟨result', args'⟩ := right
      rw [equalSignature, equalSignature, equalPart_eq consistent result result',
        equalAll_eq consistent args args']

theorem equalAll_eq (consistent : l.Consistent names names') {xs xs' ys ys' : List Ty}
    (first : List.Forall₂ (Alike l) xs xs') (second : List.Forall₂ (Alike l) ys ys') :
    equalAll xs ys = equalAll xs' ys' := by
  cases first with
  | nil => cases second <;> simp only [equalAll]
  | cons left lefts =>
    cases second with
    | nil => simp only [equalAll]
    | cons right rights =>
      rw [equalAll, equalAll, left.equal_eq consistent right, equalAll_eq consistent lefts rights]

end

/-! ### Labels -/

section

variable (consistent : l.Consistent names names')
include consistent

theorem Alike.objectName (alike : Alike l a a') : l.handle a.objectName a'.objectName := by
  rw [Ty.objectName, Ty.objectName, alike.kind_eq]
  split
  · obtain ⟨_, _, ⟨name, _⟩ | _, _⟩ := alike
    · exact name
    · exact consistent.absent
  · exact consistent.absent

theorem Alike.compatible_eq (first : Alike l a a') (second : Alike l b b') :
    compatible a b = compatible a' b' := by
  rw [compatible, compatible, first.isResolved_eq, second.isResolved_eq,
    first.equal_eq consistent second]

theorem Alike.join {types types' : List Ty} (all : List.Forall₂ (Alike l) types types') :
    Alike l (join types) (join types') := by
  cases all with
  | nil => exact .ofKind _
  | @cons t t' rest rest' first others =>
    have agree : (rest.all fun other => equal other t) = rest'.all fun other => equal other t' := by
      induction others with
      | nil => rfl
      | cons other _ ih => rw [List.all_cons, List.all_cons, other.equal_eq consistent first, ih]
    rw [Ty.join, Ty.join, agree]
    split
    · exact first
    · exact .ofKind _

end

mutual

theorem Alike.labelAt_eq (consistent : l.Consistent names names') {a a' : Ty} (alike : Alike l a a')
    (depth : Nat) : labelAt (some names) a depth = labelAt (some names') a' depth := by
  obtain ⟨kind, elem, object, signature⟩ := alike
  rw [labelAt, labelAt, labelPart_eq consistent elem, labelObject_eq consistent object,
    labelSignature_eq consistent signature]

theorem labelPart_eq (consistent : l.Consistent names names') {x y : Option Ty}
    (alike : Option.Rel (Alike l) x y) (depth : Nat) :
    labelPart (some names) x depth = labelPart (some names') y depth := by
  cases alike with
  | none => simp only [labelPart]
  | some part =>
    rw [labelPart, labelPart]
    exact part.labelAt_eq consistent depth

theorem labelObject_eq (consistent : l.Consistent names names') {x y : Option (ObjectOf Ty)}
    (alike : Option.Rel (ObjectOf.Alike l (Alike l)) x y) (depth : Nat) :
    labelObject (some names) x depth = labelObject (some names') y depth := by
  cases alike with
  | none =>
    rw [labelObject, labelObject]
    exact consistent.display consistent.absent
  | some parts =>
    obtain ⟨name, supers⟩ := parts
    have shown : displayWith (some names) _ = displayWith (some names') _ := consistent.display name
    rw [labelObject, labelObject, shown, labelSupers_eq consistent supers]
    cases supers <;> rfl

theorem labelSignature_eq (consistent : l.Consistent names names') {x y : Option (SignatureOf Ty)}
    (alike : Option.Rel (SignatureOf.Alike (Alike l)) x y) (depth : Nat) :
    labelSignature (some names) x depth = labelSignature (some names') y depth := by
  cases alike with
  | none => simp only [labelSignature, labelPart]
  | some parts =>
    obtain ⟨result, args⟩ := parts
    rw [labelSignature, labelSignature, labelAll_eq consistent args, labelPart_eq consistent result]

theorem labelSupers_eq (consistent : l.Consistent names names') {xs ys : List Ty}
    (alike : List.Forall₂ (Alike l) xs ys) (depth : Nat) :
    labelSupers (some names) xs depth = labelSupers (some names') ys depth := by
  cases alike with
  | nil => simp only [labelSupers]
  | cons first rest =>
    have shown : displayWith (some names) _ = displayWith (some names') _ :=
      consistent.display (first.objectName consistent)
    rw [labelSupers, labelSupers, first.kind_eq, shown, first.labelAt_eq consistent,
      labelSupers_eq consistent rest]

theorem labelAll_eq (consistent : l.Consistent names names') {xs ys : List Ty}
    (alike : List.Forall₂ (Alike l) xs ys) (depth : Nat) :
    labelAll (some names) xs depth = labelAll (some names') ys depth := by
  cases alike with
  | nil => simp only [labelAll]
  | cons first rest =>
    rw [labelAll, labelAll, first.labelAt_eq consistent, labelAll_eq consistent rest]

end

theorem Alike.label_eq (consistent : l.Consistent names names') (alike : Alike l a a') :
    a.label (some names) = a'.label (some names') :=
  alike.labelAt_eq consistent 0

/-! ### Everything the same -/

mutual

theorem Alike.refl (a : Ty) : Alike .same a a := by
  obtain ⟨kind, e, o, s⟩ := a
  refine .mk kind (refl_part e) ?_ ?_
  · match o with
    | none => exact .none
    | some ⟨_, supers⟩ => exact .some ⟨rfl, refl_all supers⟩
  · match s with
    | none => exact .none
    | some ⟨result, args⟩ => exact .some ⟨refl_part result, refl_all args⟩

theorem refl_part (x : Option Ty) : Option.Rel (Alike .same) x x := by
  match x with
  | none => exact .none
  | some a => exact .some (Alike.refl a)

theorem refl_all (types : List Ty) : List.Forall₂ (Alike .same) types types := by
  match types with
  | [] => exact .nil
  | a :: rest => exact .cons (Alike.refl a) (refl_all rest)

end

mutual

theorem Alike.eq {a b : Ty} (alike : Alike .same a b) : a = b := by
  obtain ⟨kind, elem, object, signature⟩ := alike
  have elem_eq := part_eq elem
  have object_eq := object_eq object
  have signature_eq := signature_eq signature
  rw [elem_eq, object_eq, signature_eq]

theorem part_eq {x y : Option Ty} (alike : Option.Rel (Alike .same) x y) : x = y := by
  cases alike with
  | none => rfl
  | some part => rw [part.eq]

theorem object_eq {x y : Option (ObjectOf Ty)}
    (alike : Option.Rel (ObjectOf.Alike .same (Alike .same)) x y) : x = y := by
  cases alike with
  | none => rfl
  | some parts =>
    obtain ⟨rfl, supers⟩ := parts
    rw [all_eq supers]

theorem signature_eq {x y : Option (SignatureOf Ty)}
    (alike : Option.Rel (SignatureOf.Alike (Alike .same)) x y) : x = y := by
  cases alike with
  | none => rfl
  | some parts =>
    obtain ⟨result, args⟩ := parts
    rw [part_eq result, all_eq args]

theorem all_eq {xs ys : List Ty} (alike : List.Forall₂ (Alike .same) xs ys) : xs = ys := by
  cases alike with
  | nil => rfl
  | cons first rest => rw [first.eq, all_eq rest]

end

end Ty

end TreeCheck
