import TreeCheck.Snapshot
import TreeCheck.Proofs.MessagePack.Takes

/-!
Types in snapshots. A field of a written structure is left out or stands under its key; from this
the payloads of a type are read, and by induction a type within the widths of the format is read
back at every depth from the number of its bytes on.
-/

namespace TreeCheck

/-- The handles and the lengths of lists in a type are within 32 bits. -/
inductive Ty.Fits : Ty → Prop
  | mk {kind : Kind} {elem : Option Ty} {object : Option (ObjectOf Ty)}
      {signature : Option (SignatureOf Ty)} :
      (∀ ty ∈ elem, Fits ty) →
      (∀ o ∈ object, o.name < 2 ^ 32 ∧ o.supers.length < 2 ^ 32) →
      (∀ o ∈ object, ∀ ty ∈ o.supers, Fits ty) →
      (∀ f ∈ signature, f.args.length < 2 ^ 32) →
      (∀ f ∈ signature, ∀ ty ∈ f.result, Fits ty) →
      (∀ f ∈ signature, ∀ ty ∈ f.args, Fits ty) →
      Fits (.mk kind elem object signature)

namespace Ty.Fits

theorem ofKind (k : Kind) : (Ty.ofKind k).Fits := by
  constructor <;> simp

theorem vector {elem : Ty} (fits : elem.Fits) : (Ty.vector elem).Fits := by
  constructor <;> simp [fits]

theorem object {name : Handle} {supers : List Ty} (small : name < 2 ^ 32)
    (count : supers.length < 2 ^ 32) (fit : ∀ ty ∈ supers, ty.Fits) :
    (Ty.object name supers).Fits := by
  constructor <;> simp_all

end Ty.Fits

namespace Snapshot

open MessagePack

/-! ### Fields -/

variable {α β : Type}

/-- The pairs leave a field out, which then stays as it was, or give it under its key. -/
def Gives (key : String) (update : Update β) (old : β) (pairs : List (Value × Value)) (b : β) :
    Prop :=
  pairs = [] ∧ b = old ∨ ∃ v, pairs = [field key v] ∧ Takes update old v b

theorem gives_nil {key : String} {update : Update β} {old : β} : Gives key update old [] old :=
  .inl ⟨rfl, rfl⟩

theorem gives_field {key : String} {update : Update β} {old b : β} {v : Value}
    (taken : Takes update old v b) : Gives key update old [field key v] b :=
  .inr ⟨v, rfl, taken⟩

theorem Gives.length_le {key : String} {update : Update β} {old b : β}
    {pairs : List (Value × Value)} (given : Gives key update old pairs b) : pairs.length ≤ 1 := by
  obtain ⟨rfl, -⟩ | ⟨v, rfl, -⟩ := given <;> simp

/-- A field is read into the structure that `p` puts it in. -/
theorem Gives.fills {key other : String} {update : Update β} {old b : β}
    {pairs : List (Value × Value)} {fields : List (String × Update α)} {outer : Update α}
    {p : β → α} (given : Gives key update old pairs b)
    (found : fields.find? (fun field => text field.1 == text key) = some (other, outer))
    (short : (text key).length < 2 ^ 32)
    (lifts : ∀ v c, Takes update old v c → Takes outer (p old) v (p c)) :
    Fills fields (p old) pairs (p b) := by
  obtain ⟨rfl, rfl⟩ | ⟨v, rfl, taken⟩ := given
  · exact .nil
  · exact .cons found short (lifts v b taken) .nil

theorem takes_word {n : Nat} (fits : n < 2 ^ 32) (old : Nat) : Takes (number 4) old (word n) n :=
  takes_number (w := .four) (by simpa [Width.bytes] using fits) old

/-! ### Types -/

/-- The reader takes what is written of a type and makes a draft of that type. -/
def Reads (item : Update Draft) (ty : Ty) : Prop :=
  ∃ d, d.toTy = ty ∧ Takes item .zero (tyValue ty) d

theorem tyValues_eq_map (types : List Ty) : tyValues types = types.map tyValue := by
  induction types with
  | nil => rfl
  | cons ty types ih => rw [tyValues, ih, List.map_cons]

theorem reads_all {item : Update Draft} {types : List Ty} (read : ∀ ty ∈ types, Reads item ty) :
    ∃ drafts, Draft.tys drafts = types ∧
      List.Forall₂ (Takes item .zero) (types.map tyValue) drafts := by
  induction types with
  | nil => exact ⟨[], rfl, .nil⟩
  | cons ty types ih =>
    obtain ⟨d, same, taken⟩ := read ty List.mem_cons_self
    obtain ⟨drafts, others, later⟩ := ih fun u member => read u (List.mem_cons_of_mem ty member)
    exact ⟨d :: drafts, by rw [Draft.tys, same, others], .cons taken later⟩

theorem gives_list {item : Update Draft} {types : List Ty} (key : String)
    (fits : types.length < 2 ^ 32) (read : ∀ ty ∈ types, Reads item ty) :
    ∃ list : Slots Draft, (Draft.tys list.items).take list.count = types ∧
      Gives key (slots .zero item) ⟨0, []⟩ (listField key types) list := by
  cases types with
  | nil => exact ⟨⟨0, []⟩, rfl, gives_nil⟩
  | cons ty rest =>
    obtain ⟨drafts, same, taken⟩ := reads_all read
    have counted : (List.map tyValue (ty :: rest)).length < 2 ^ 32 := by simpa using fits
    refine ⟨⟨(List.map tyValue (ty :: rest)).length, drafts⟩, ?_, ?_⟩
    · rw [same, List.length_map, List.take_length]
    · rw [listField, tyValues_eq_map]
      exact gives_field (takes_slots counted taken 0)

def tyFields (kind : Kind) (elem : Option Ty) (object : Option (ObjectOf Ty))
    (signature : Option (SignatureOf Ty)) : List (Value × Value) :=
  [field "k" (.unsigned .one kind.code.toNat)] ++ elemField elem ++ objectField object ++
    signatureField signature

theorem tyValue_mk (kind : Kind) (elem : Option Ty) (object : Option (ObjectOf Ty))
    (signature : Option (SignatureOf Ty)) :
    tyValue (.mk kind elem object signature) = .map (tyFields kind elem object signature) := by
  rw [tyValue, tyFields]

theorem length_tyFields_lt (kind : Kind) (elem : Option Ty) (object : Option (ObjectOf Ty))
    (signature : Option (SignatureOf Ty)) :
    (tyFields kind elem object signature).length < 2 ^ 32 := by
  cases elem <;> cases object <;> cases signature <;>
    simp [tyFields, elemField, objectField, signatureField]

theorem reads_optional {item : Update Draft} {ty : Ty} (read : Reads item ty) :
    ∃ d, d.toTy = ty ∧ Takes (optional .zero item) none (tyValue ty) (some d) := by
  obtain ⟨d, same, taken⟩ := read
  obtain ⟨kind, elem, object, signature⟩ := ty
  rw [tyValue_mk] at taken ⊢
  exact ⟨d, same, takes_optional (length_tyFields_lt kind elem object signature) taken⟩

theorem gives_elem {item : Update Draft} {elem : Option Ty} (read : ∀ ty ∈ elem, Reads item ty) :
    ∃ e, Draft.elemTy e = elem ∧ Gives "e" (optional .zero item) none (elemField elem) e := by
  cases elem with
  | none => exact ⟨none, rfl, gives_nil⟩
  | some ty =>
    obtain ⟨d, same, taken⟩ := reads_optional (read ty rfl)
    rw [elemField]
    exact ⟨some d, by rw [Draft.elemTy, same], gives_field taken⟩

theorem reads_result {item : Update Draft} {result : Option Ty}
    (read : ∀ ty ∈ result, Reads item ty) :
    ∃ d, Draft.elemTy d = result ∧ Takes (optional .zero item) none (resultValue result) d := by
  cases result with
  | none => exact ⟨none, rfl, takes_absent⟩
  | some ty =>
    obtain ⟨d, same, taken⟩ := reads_optional (read ty rfl)
    exact ⟨some d, by rw [Draft.elemTy, same], taken⟩

theorem gives_object {item : Update Draft} {object : Option (ObjectOf Ty)}
    (fits : ∀ o ∈ object, o.name < 2 ^ 32 ∧ o.supers.length < 2 ^ 32)
    (read : ∀ o ∈ object, ∀ ty ∈ o.supers, Reads item ty) :
    ∃ o, Draft.objectTy o = object ∧
      Gives "o" (optional (0, ⟨0, []⟩) (Draft.object item)) none (objectField object) o := by
  cases object with
  | none => exact ⟨none, rfl, gives_nil⟩
  | some o =>
    obtain ⟨name, supers⟩ := o
    obtain ⟨small, counted⟩ := fits _ rfl
    obtain ⟨list, same, given⟩ := gives_list "s" counted (read _ rfl)
    have short : (listField "s" supers).length ≤ 1 := given.length_le
    have filled : Takes (Draft.object item) (0, ⟨0, []⟩)
        (.map ([field "n" (word name)] ++ listField "s" supers)) (name, list) := by
      apply takes_record (by simp; omega)
      apply Fills.append (b := (name, ⟨0, []⟩))
      · apply (gives_field (takes_word small 0)).fills (p := fun n => (n, _)) rfl (by decide)
        intro v c taken rest
        simp [taken rest]
      · apply given.fills (p := fun list => (name, list)) rfl (by decide)
        intro v c taken rest
        simp [taken rest]
    rw [objectField]
    exact ⟨some (name, list), by rw [Draft.objectTy, same],
      gives_field (takes_optional (by simp; omega) filled)⟩

theorem gives_signature {item : Update Draft} {signature : Option (SignatureOf Ty)}
    (fits : ∀ f ∈ signature, f.args.length < 2 ^ 32)
    (results : ∀ f ∈ signature, ∀ ty ∈ f.result, Reads item ty)
    (read : ∀ f ∈ signature, ∀ ty ∈ f.args, Reads item ty) :
    ∃ f, Draft.signatureTy f = signature ∧
      Gives "f" (optional (none, ⟨0, []⟩) (Draft.signature item)) none (signatureField signature)
        f := by
  cases signature with
  | none => exact ⟨none, rfl, gives_nil⟩
  | some f =>
    obtain ⟨result, args⟩ := f
    obtain ⟨d, told, first⟩ := reads_result (results _ rfl)
    obtain ⟨list, same, given⟩ := gives_list "a" (fits _ rfl) (read _ rfl)
    have short : (listField "a" args).length ≤ 1 := given.length_le
    have filled : Takes (Draft.signature item) (none, ⟨0, []⟩)
        (.map ([field "r" (resultValue result)] ++ listField "a" args)) (d, list) := by
      apply takes_record (by simp; omega)
      apply Fills.append (b := (d, ⟨0, []⟩))
      · apply (gives_field first).fills (p := fun d => (d, _)) rfl (by decide)
        intro v c taken rest
        simp [taken rest]
      · apply given.fills (p := fun list => (d, list)) rfl (by decide)
        intro v c taken rest
        simp [taken rest]
    rw [signatureField]
    exact ⟨some (d, list), by rw [Draft.signatureTy, told, same],
      gives_field (takes_optional (by simp; omega) filled)⟩

theorem reads_type {depth : Nat} {kind : Kind} {elem : Option Ty} {object : Option (ObjectOf Ty)}
    {signature : Option (SignatureOf Ty)}
    (elems : ∀ ty ∈ elem, Reads (Draft.read depth) ty)
    (objects : ∀ o ∈ object, o.name < 2 ^ 32 ∧ o.supers.length < 2 ^ 32)
    (supers : ∀ o ∈ object, ∀ ty ∈ o.supers, Reads (Draft.read depth) ty)
    (signatures : ∀ f ∈ signature, f.args.length < 2 ^ 32)
    (results : ∀ f ∈ signature, ∀ ty ∈ f.result, Reads (Draft.read depth) ty)
    (args : ∀ f ∈ signature, ∀ ty ∈ f.args, Reads (Draft.read depth) ty) :
    Reads (Draft.read (depth + 1)) (.mk kind elem object signature) := by
  obtain ⟨e, elemRead, first⟩ := gives_elem elems
  obtain ⟨o, objectRead, second⟩ := gives_object objects supers
  obtain ⟨f, signatureRead, third⟩ := gives_signature signatures results args
  refine ⟨.mk kind.code.toNat e o f, ?_, ?_⟩
  · rw [Draft.toTy, elemRead, objectRead, signatureRead]
    simp
  · rw [tyValue_mk, Draft.read]
    apply takes_record (length_tyFields_lt kind elem object signature)
    rw [tyFields]
    have code : Takes (number 1) 0 (.unsigned .one kind.code.toNat) kind.code.toNat :=
      takes_number (w := .one) kind.code.toNat_lt 0
    apply Fills.append (b := .mk kind.code.toNat e o none)
    · apply Fills.append (b := .mk kind.code.toNat e none none)
      · apply Fills.append (b := .mk kind.code.toNat none none none)
        · apply (gives_field code).fills (p := fun k => Draft.mk k none none none) rfl (by decide)
          intro v c taken rest
          simp [taken rest]
        · apply first.fills (p := fun e => Draft.mk kind.code.toNat e none none) rfl (by decide)
          intro v c taken rest
          simp [taken rest]
      · apply second.fills (p := fun o => Draft.mk kind.code.toNat e o none) rfl (by decide)
        intro v c taken rest
        simp [taken rest]
    · apply third.fills (p := fun f => Draft.mk kind.code.toNat e o f) rfl (by decide)
      intro v c taken rest
      simp [taken rest]

/-! ### The bytes of the types in the payloads -/

section Payloads

variable {kind : Kind} {elem : Option Ty} {object : Option (ObjectOf Ty)}
  {signature : Option (SignatureOf Ty)} {ty : Ty}

theorem length_lt_of_part (key : String) {v : Value}
    (member : field key v ∈ tyFields kind elem object signature) (inner : Part (tyValue ty) v) :
    (write (tyValue ty)).length < (write (tyValue (.mk kind elem object signature))).length := by
  rw [tyValue_mk]
  exact inner.length_lt member (length_tyFields_lt kind elem object signature)

theorem part_listField (key : String) {types : List Ty} (member : ty ∈ types) :
    ∃ v, field key v ∈ listField key types ∧ Part (tyValue ty) v := by
  cases types with
  | nil => cases member
  | cons first rest =>
    refine ⟨.array (List.map tyValue (first :: rest)), ?_, .item .self (List.mem_map_of_mem member)⟩
    rw [listField, tyValues_eq_map]
    exact List.mem_singleton.mpr rfl

theorem length_lt_of_elem (member : ty ∈ elem) :
    (write (tyValue ty)).length < (write (tyValue (.mk kind elem object signature))).length := by
  cases member
  exact length_lt_of_part "e" (by simp [tyFields, elemField]) .self

theorem length_lt_of_super {o : ObjectOf Ty} (payload : o ∈ object) (member : ty ∈ o.supers) :
    (write (tyValue ty)).length < (write (tyValue (.mk kind elem object signature))).length := by
  cases payload
  obtain ⟨v, listed, inner⟩ := part_listField "s" member
  have written : field "o" (.map ([field "n" (word o.name)] ++ listField "s" o.supers)) ∈
      tyFields kind elem (some o) signature := by
    simp [tyFields, objectField]
  exact length_lt_of_part "o" written (.pair inner (List.mem_append_right _ listed))

theorem signature_mem_tyFields (f : SignatureOf Ty) :
    field "f" (.map ([field "r" (resultValue f.result)] ++ listField "a" f.args)) ∈
      tyFields kind elem object (some f) := by
  simp [tyFields, signatureField]

theorem length_lt_of_result {f : SignatureOf Ty} (payload : f ∈ signature)
    (member : ty ∈ f.result) :
    (write (tyValue ty)).length < (write (tyValue (.mk kind elem object signature))).length := by
  cases payload
  have inner : Part (tyValue ty) (resultValue f.result) := by
    rw [Option.mem_def.mp member, resultValue]
    exact .self
  exact length_lt_of_part "f" (signature_mem_tyFields f) (.pair inner List.mem_cons_self)

theorem length_lt_of_arg {f : SignatureOf Ty} (payload : f ∈ signature) (member : ty ∈ f.args) :
    (write (tyValue ty)).length < (write (tyValue (.mk kind elem object signature))).length := by
  cases payload
  obtain ⟨v, listed, inner⟩ := part_listField "a" member
  exact length_lt_of_part "f" (signature_mem_tyFields f)
    (.pair inner (List.mem_append_right _ listed))

end Payloads

theorem reads_of_length_le {ty : Ty} (fits : ty.Fits) (depth : Nat)
    (enough : (write (tyValue ty)).length ≤ depth) : Reads (Draft.read depth) ty := by
  induction fits generalizing depth with
  | @mk kind elem object signature _ objects _ signatures _ _ elems supers results args =>
    cases depth with
    | zero =>
      rw [tyValue_mk, write_map, tyFields] at enough
      simp [writePairs, field, write] at enough
    | succ depth =>
      -- Whatever stands in a payload has fewer bytes, so that one level less is enough for it.
      have enough {part : Ty} (fewer : (write (tyValue part)).length <
          (write (tyValue (.mk kind elem object signature))).length) :
          (write (tyValue part)).length ≤ depth := by omega
      apply reads_type _ objects _ signatures
      · intro f payload ty member
        exact results f payload ty member depth (enough (length_lt_of_result payload member))
      · intro f payload ty member
        exact args f payload ty member depth (enough (length_lt_of_arg payload member))
      · intro ty member
        exact elems ty member depth (enough (length_lt_of_elem member))
      · intro o payload ty member
        exact supers o payload ty member depth (enough (length_lt_of_super payload member))

end Snapshot

end TreeCheck
