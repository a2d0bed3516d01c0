import TreeCheck.Proofs.Snapshot.Types
import TreeCheck.Proofs.Table.Settled

/-!
Reading undoes writing. A snapshot within the widths of the format is read back from its bytes as it
was, in whatever order the entries of its tables were written and whatever stands behind the bytes;
one of another version is reported as such.
-/

namespace TreeCheck

/-! ### What fits the format -/

/-- The numbers of a binding are within 32 bits. -/
structure Symbol.Fits (s : Symbol) : Prop where
  scope : s.scope < 2 ^ 32
  depth : s.depth < 2 ^ 32
  ty : s.ty.Fits

/-- The number of entries and their keys are within 32 bits, and the values fit. -/
structure Table.Fits {α : Type} (fits : α → Prop) (t : Table α) : Prop where
  size : t.entries.length < 2 ^ 32
  keys : ∀ e ∈ t.entries, e.1 < 2 ^ 32
  values : ∀ e ∈ t.entries, fits e.2

namespace Snapshot

open MessagePack

variable {α β : Type}

structure Fits (s : Snapshot) : Prop where
  schema : s.schema < 2 ^ 16
  path : s.path.length < 2 ^ 32
  hash : s.hash.length = 32
  count : s.strings.length < 2 ^ 32
  strings : ∀ t ∈ s.strings, t.length < 2 ^ 32
  globals : s.tables.globals.Fits Symbol.Fits
  scopes : s.tables.scopes.Fits (Table.Fits Symbol.Fits)
  types : s.tables.types.Fits Ty.Fits

structure Ordered (s : Snapshot) : Prop where
  globals : s.tables.globals.Ascending
  scopes : s.tables.scopes.Ascending
  inner : ∀ e ∈ s.tables.scopes.entries, e.2.Ascending
  types : s.tables.types.Ascending

/-- The first snapshot is the second one with the entries of its tables in another order. -/
structure Rearranges (w s : Snapshot) : Prop where
  schema : w.schema = s.schema
  path : w.path = s.path
  hash : w.hash = s.hash
  strings : w.strings = s.strings
  globals : w.tables.globals.Rearranges Eq s.tables.globals
  scopes : w.tables.scopes.Rearranges (Table.Rearranges Eq) s.tables.scopes
  types : w.tables.types.Rearranges Eq s.tables.types

/-! ### Bindings and tables -/

theorem part_field (key : String) {v w : Value} {pairs : List (Value × Value)}
    (member : field key w ∈ pairs) (inner : Part v w) : Part v (.map pairs) :=
  .pair inner member

theorem part_tableValue {value : α → Value} {t : Table α} {e : Nat × α} (member : e ∈ t.entries) :
    Part (value e.2) (tableValue value t) :=
  .pair .self (List.mem_map_of_mem member)

theorem reads_symbol {s : Symbol} (fits : s.Fits) (depth : Nat)
    (enough : (write (symbolValue s)).length ≤ depth) :
    ∃ b, b.toSymbol = s ∧ Takes (Binding.read depth) .zero (symbolValue s) b := by
  have inner : Part (tyValue s.ty) (symbolValue s) := part_field "type" (by simp) .self
  obtain ⟨d, same, taken⟩ :=
    reads_of_length_le fits.ty depth (Nat.le_trans inner.length_le enough)
  refine ⟨⟨s.scope, s.depth, d⟩, by rw [Binding.toSymbol, same], takes_record (by simp) ?_⟩
  apply Fills.cons (a := ⟨s.scope, 0, .zero⟩) rfl (by decide)
  · intro rest
    simp [takes_word fits.scope _ rest, Binding.zero]
  apply Fills.cons (a := ⟨s.scope, s.depth, .zero⟩) rfl (by decide)
  · intro rest
    simp [takes_word fits.depth _ rest]
  apply Fills.cons (a := ⟨s.scope, s.depth, d⟩) rfl (by decide)
  · intro rest
    simp [taken rest]
  exact .nil

theorem takes_tableValue {γ : Type} {fits : γ → Prop} {zero : α} {update : Update α}
    {finish : α → β} {value : γ → Value} {meaning : γ → β} {t : Table γ} (within : t.Fits fits)
    (depth : Nat) (enough : (write (tableValue value t)).length ≤ depth)
    (taken : ∀ c, fits c → (write (value c)).length ≤ depth →
      ∃ a, finish a = meaning c ∧ Takes update zero (value c) a) :
    Takes (table zero update finish) .empty (tableValue value t) (t.settled meaning) := by
  apply takes_table within.size within.keys
  intro e member
  have inner : Part (value e.2) (tableValue value t) := part_tableValue member
  exact taken e.2 (within.values e member) (Nat.le_trans inner.length_le enough)

/-- The tables as they are read: every table settled from its entries. -/
def settledTables (all : Tables) : Tables :=
  ⟨all.globals.settled id, all.scopes.settled (Table.settled id), all.types.settled id⟩

def tablesValue (all : Tables) : Value :=
  .map [field "globals" (tableValue symbolValue all.globals),
    field "scopes" (tableValue (tableValue symbolValue) all.scopes),
    field "types" (tableValue tyValue all.types)]

theorem takes_bindings {t : Bindings} (fits : t.Fits Symbol.Fits) (depth : Nat)
    (enough : (write (tableValue symbolValue t)).length ≤ depth) :
    Takes (table .zero (Binding.read depth) Binding.toSymbol) .empty (tableValue symbolValue t)
      (t.settled id) :=
  takes_tableValue fits depth enough fun _ small less => reads_symbol small depth less

theorem takes_tables {all : Tables} (globals : all.globals.Fits Symbol.Fits)
    (scopes : all.scopes.Fits (Table.Fits Symbol.Fits)) (types : all.types.Fits Ty.Fits)
    (depth : Nat) (enough : (write (tablesValue all)).length ≤ depth) :
    Takes (readTables depth) noTables (tablesValue all) (settledTables all) := by
  have first : Part (tableValue symbolValue all.globals) (tablesValue all) :=
    part_field "globals" (by simp) .self
  have second : Part (tableValue (tableValue symbolValue) all.scopes) (tablesValue all) :=
    part_field "scopes" (by simp) .self
  have third : Part (tableValue tyValue all.types) (tablesValue all) :=
    part_field "types" (by simp) .self
  have globalsRead := takes_bindings globals depth (Nat.le_trans first.length_le enough)
  have scopesRead : Takes
      (table .empty (table .zero (Binding.read depth) Binding.toSymbol) id) .empty
      (tableValue (tableValue symbolValue) all.scopes) (all.scopes.settled (Table.settled id)) :=
    takes_tableValue scopes depth (Nat.le_trans second.length_le enough) fun _ small less =>
      ⟨_, rfl, takes_bindings small depth less⟩
  have typesRead : Takes (table .zero (Draft.read depth) Draft.toTy) .empty
      (tableValue tyValue all.types) (all.types.settled id) :=
    takes_tableValue types depth (Nat.le_trans third.length_le enough) fun _ small less =>
      reads_of_length_le small depth less
  apply takes_record (by simp)
  apply Fills.cons (a := ⟨all.globals.settled id, .empty, .empty⟩) rfl (by decide)
  · intro rest
    simp [globalsRead rest, noTables]
  apply Fills.cons (a := ⟨all.globals.settled id, all.scopes.settled (Table.settled id), .empty⟩)
    rfl (by decide)
  · intro rest
    simp [scopesRead rest]
  apply Fills.cons (a := settledTables all) rfl (by decide)
  · intro rest
    simp [typesRead rest, settledTables]
  exact .nil

/-! ### Snapshots -/

/-- The snapshot as it is read: its tables settled from their entries. -/
def settled (s : Snapshot) : Snapshot :=
  { s with tables := settledTables s.tables }

theorem takes_snapshot {s : Snapshot} (fits : s.Fits) (depth : Nat)
    (enough : s.bytes.length ≤ depth) : Takes (read depth) zero s.toValue s.settled := by
  have inner : Part (tablesValue s.tables) s.toValue :=
    part_field "Tables" (by simp [tablesValue]) .self
  have tablesRead := takes_tables fits.globals fits.scopes fits.types depth
    (Nat.le_trans inner.length_le enough)
  have schemaRead : Takes (number 2) 0 (.unsigned .two s.schema) s.schema :=
    takes_number (w := .two) (by simpa [Width.bytes] using fits.schema) 0
  have hashRead : Takes cover (List.replicate 32 0) (.binary s.hash) s.hash :=
    takes_cover (by rw [fits.hash]; decide) (by simp [fits.hash])
  apply takes_record (by simp)
  apply Fills.cons (a := ⟨s.schema, [], List.replicate 32 0, [], noTables⟩) rfl (by decide)
  · intro rest
    simp [schemaRead rest, zero]
  apply Fills.cons (a := ⟨s.schema, s.path, List.replicate 32 0, [], noTables⟩) rfl (by decide)
  · intro rest
    simp [takes_content fits.path _ rest]
  apply Fills.cons (a := ⟨s.schema, s.path, s.hash, [], noTables⟩) rfl (by decide)
  · intro rest
    simp only [hashRead rest, Option.bind_eq_bind, Option.bind_some, Option.pure_def]
  apply Fills.cons (a := ⟨s.schema, s.path, s.hash, s.strings, noTables⟩) rfl (by decide)
  · intro rest
    simp [takes_contents fits.count fits.strings _ rest]
  apply Fills.cons (a := s.settled) rfl (by decide)
  · intro rest
    have taken := tablesRead rest
    rw [tablesValue] at taken
    simp [taken, settled]
  exact .nil

theorem Rearranges.settled_eq {w s : Snapshot} (arranged : w.Rearranges s) (ordered : s.Ordered) :
    w.settled = s := by
  obtain ⟨schema, path, hash, strings, globals, scopes, types⟩ := arranged
  have inner := scopes.settled_eq ordered.scopes fun a f member same =>
    same.settled_id (ordered.inner f member)
  simp [settled, settledTables, schema, path, hash, strings, globals.settled_id ordered.globals,
    inner, types.settled_id ordered.types]

/-- Reading undoes writing: a snapshot of the current version comes back from its bytes as it was,
in whatever order the entries of its tables were written and whatever stands behind the bytes, and
one of another version is reported with its version. -/
theorem ofBytes_bytes {w s : Snapshot} (fits : w.Fits) (arranged : w.Rearranges s)
    (ordered : s.Ordered) (path rest : Text) :
    (s.schema = currentSchema → ofBytes path (w.bytes ++ rest) = .ok s) ∧
      (s.schema ≠ currentSchema →
        ofBytes path (w.bytes ++ rest) = .error (.otherSchema path s.schema)) := by
  have enough : w.bytes.length ≤ (w.bytes ++ rest).length + 1 := by
    rw [List.length_append]
    omega
  have taken := takes_snapshot fits _ enough rest
  rw [arranged.settled_eq ordered] at taken
  have answer : ofBytes path (w.bytes ++ rest) =
      if s.schema = currentSchema then .ok s else .error (.otherSchema path s.schema) := by
    unfold ofBytes
    rw [bytes] at taken ⊢
    rw [taken]
  constructor
  · intro current
    rw [answer, if_pos current]
  · intro other
    rw [answer, if_neg other]

/-- A snapshot of a version with the given types, a global that is a lambda without a result, and
two bindings of one scope. -/
def specimen (schema : Nat) (types : List (Nat × Ty)) : Snapshot where
  schema := schema
  path := text "a.yaml"
  hash := List.replicate 32 0xFF
  strings := [[], text "A", [0xFF, 0x00]]
  tables :=
    { globals := ⟨[(1, ⟨0, 0, .mk .lambda none none (some ⟨none, [.vector .unresolved]⟩)⟩)]⟩
      scopes := ⟨[(3, ⟨[(1, ⟨3, 1, .integer⟩), (2, ⟨3, 1, .object 2 []⟩)]⟩)]⟩
      types := ⟨types⟩ }

theorem specimen_rearranges {schema : Nat} {types others : List (Nat × Ty)}
    (perm : types.Perm others) : (specimen schema types).Rearranges (specimen schema others) where
  schema := rfl
  path := rfl
  hash := rfl
  strings := rfl
  globals := ⟨_, .refl _, .cons ⟨rfl, rfl⟩ .nil⟩
  scopes := ⟨_, .refl _, .cons ⟨rfl, _, .refl _, List.forall₂_same.mpr fun _ _ => ⟨rfl, rfl⟩⟩ .nil⟩
  types := ⟨others, perm, List.forall₂_same.mpr fun _ _ => ⟨rfl, rfl⟩⟩

theorem specimen_ordered {schema : Nat} {types : List (Nat × Ty)}
    (order : types.Pairwise (·.1 < ·.1)) : (specimen schema types).Ordered where
  globals := List.pairwise_singleton _ _
  scopes := List.pairwise_singleton _ _
  inner := by simp [specimen, Table.Ascending]
  types := order

theorem specimen_fits {schema : Nat} {types : List (Nat × Ty)} (small : schema < 2 ^ 16)
    (fits : Table.Fits Ty.Fits ⟨types⟩) : (specimen schema types).Fits where
  schema := small
  path := by
    show (text "a.yaml").length < 2 ^ 32
    decide
  hash := rfl
  count := by simp [specimen]
  strings := by
    show ∀ t ∈ [[], text "A", [0xFF, 0x00]], t.length < 2 ^ 32
    decide
  globals := by
    refine ⟨by simp [specimen], by simp [specimen], ?_⟩
    intro e member
    rw [List.mem_singleton.mp member]
    have args : (Ty.vector .unresolved).Fits := .vector (.ofKind _)
    exact ⟨by decide, by decide, by constructor <;> simp [args]⟩
  scopes := by
    refine ⟨by simp [specimen], by simp [specimen], ?_⟩
    intro e member
    rw [List.mem_singleton.mp member]
    have object : (Ty.object 2 []).Fits := .object (by decide) (by decide) (by simp)
    refine ⟨by simp, by simp, ?_⟩
    simp only [List.forall_mem_cons, List.not_mem_nil, false_implies, implies_true, and_true]
    exact ⟨⟨by decide, by decide, .ofKind _⟩, by decide, by decide, object⟩
  types := fits

theorem ofBytes_bytes_specimen :
    ofBytes [] ((specimen 1 [(2, .object 2 [.object 1 []]), (1, .object 1 [])]).bytes ++ [0xC0]) =
        .ok (specimen 1 [(1, .object 1 []), (2, .object 2 [.object 1 []])]) ∧
      ofBytes [] ((specimen 2 [(1, .object 1 [])]).bytes ++ []) = .error (.otherSchema [] 2) := by
  have plain : (Ty.object 1 []).Fits := .object (by decide) (by decide) (by simp)
  have derived : (Ty.object 2 [.object 1 []]).Fits :=
    .object (by decide) (by decide) (by simp [plain])
  constructor
  · apply (ofBytes_bytes _ (specimen_rearranges (.swap ..)) _ [] [0xC0]).1 rfl
    · exact specimen_fits (by decide) ⟨by decide, by simp, by simp [plain, derived]⟩
    · exact specimen_ordered (by simp)
  · apply (ofBytes_bytes _ (specimen_rearranges (.refl _)) _ [] []).2 (by decide)
    · exact specimen_fits (by decide) ⟨by decide, by simp, by simp [plain]⟩
    · exact specimen_ordered (by simp)

end Snapshot

end TreeCheck
