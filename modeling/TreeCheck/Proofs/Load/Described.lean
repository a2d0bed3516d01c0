import Mathlib.Data.List.Nodup
import TreeCheck.Proofs.Load.Judges

/-!
Mappings and what they describe. A mapping is read exactly if its keys are distinct scalars, and
then its entries are what the document writes; so the slots of the mapping that was read hold
exactly if the document node derives from the record.
-/

namespace TreeCheck.Load

open Grammar (Form Slot Record Derives DistinctKeys Keyed Decodes needs allows)

variable {α : Type}

def entryOf (pair : Yaml.Node × Yaml.Node) : Entry :=
  ⟨pair.1.text, pair.1, pair.2⟩

/-- The document node writes the mapping: its keys are distinct scalars. -/
def Writes (n : Yaml.Node) (kind : Text) (m : Mapping) : Prop :=
  ∃ place pairs, n = .mapping place pairs ∧ DistinctKeys pairs ∧ m = ⟨n, kind, pairs.map entryOf⟩

/-- The remaining keys are scalars, distinct from each other and from those before. -/
def FreshKeys (entries : List Entry) (pairs : List (Yaml.Node × Yaml.Node)) : Prop :=
  DistinctKeys pairs ∧ ∀ pair ∈ pairs, ∀ e ∈ entries, e.key ≠ pair.1.text

theorem freshKeys_cons {entries : List Entry} {s : Yaml.Scalar} {v : Yaml.Node}
    {rest : List (Yaml.Node × Yaml.Node)} :
    FreshKeys entries ((.scalar s, v) :: rest) ↔
      (∀ e ∈ entries, e.key ≠ s.value) ∧ FreshKeys (⟨s.value, .scalar s, v⟩ :: entries) rest := by
  simp only [FreshKeys, DistinctKeys, List.map_cons, List.nodup_cons, List.forall_mem_cons,
    List.mem_map, not_exists, not_and]
  constructor
  · rintro ⟨⟨⟨_, scalars⟩, new, distinct⟩, before, others⟩
    refine ⟨before, ⟨scalars, distinct⟩, fun pair member => ⟨?_, others pair member⟩⟩
    exact fun same => new pair member same.symm
  · rintro ⟨before, ⟨scalars, distinct⟩, others⟩
    refine ⟨⟨⟨⟨s, rfl⟩, scalars⟩, fun pair member same => ?_, distinct⟩, before, ?_⟩
    · exact (others pair member).1 same.symm
    · exact fun pair member => (others pair member).2

theorem entriesFrom_judges (kind : Text) (entries : List Entry)
    (pairs : List (Yaml.Node × Yaml.Node)) :
    Judges (entriesFrom kind entries pairs) (FreshKeys entries pairs) fun result =>
      (result.2 = true ↔ FreshKeys entries pairs) ∧
        (result.2 = true → result.1 = entries.reverse ++ pairs.map entryOf) := by
  induction pairs generalizing entries with
  | nil =>
    have fresh : FreshKeys entries [] := by simp [FreshKeys, DistinctKeys]
    exact passed_judges fresh (by simp [fresh])
  | cons pair rest ih =>
    obtain ⟨k, v⟩ := pair
    -- The pairs after a refused key are still read, so their diagnostics add to its own.
    have refused (stale : ¬FreshKeys entries ((k, v) :: rest)) (message : Text) :
        Judges (do
          fail k message
          return ((← entriesFrom kind entries rest).1, false)) (FreshKeys entries ((k, v) :: rest))
        fun result => (result.2 = true ↔ FreshKeys entries ((k, v) :: rest)) ∧
          (result.2 = true → result.1 = entries.reverse ++ ((k, v) :: rest).map entryOf) := by
      apply Judges.congr _ (iff_false_intro stale)
      apply reported_judges ((ih entries).done _) .malformed k message
      intro result _
      exact .pure ⟨iff_of_false Bool.false_ne_true stale, nofun⟩
    unfold entriesFrom
    split
    next s =>
      split
      next repeated =>
        apply refused
        intro fresh
        obtain ⟨e, member, same⟩ := List.any_eq_true.mp repeated
        exact (freshKeys_cons.mp fresh).1 e member (eq_of_beq same)
      next new =>
        have before : ∀ e ∈ entries, e.key ≠ s.value := by simpa using new
        have same : FreshKeys entries ((.scalar s, v) :: rest) ↔
            FreshKeys (⟨s.value, .scalar s, v⟩ :: entries) rest := by
          rw [freshKeys_cons]
          exact and_iff_right before
        refine ((ih _).congr same).mono fun result ends => ⟨ends.1.trans same.symm, fun sound => ?_⟩
        rw [ends.2 sound]
        simp [entryOf, Yaml.Node.text]
    next other =>
      apply refused
      intro fresh
      obtain ⟨s, scalar⟩ := fresh.1.1 (k, v) List.mem_cons_self
      exact other s scalar

theorem mappingOf_judges (n : Yaml.Node) (kind : Text) :
    Judges (mappingOf n kind) (∃ m, Writes n kind m) fun found =>
      ∀ m, found = some m ↔ Writes n kind m := by
  unfold mappingOf
  split
  next place pairs =>
    have written (m : Mapping) : Writes (.mapping place pairs) kind m ↔
        FreshKeys [] pairs ∧ m = ⟨.mapping place pairs, kind, pairs.map entryOf⟩ := by
      constructor
      · rintro ⟨_, _, same, distinct, made⟩
        cases same
        exact ⟨⟨distinct, by simp⟩, made⟩
      · rintro ⟨fresh, made⟩
        exact ⟨place, pairs, rfl, fresh.1, made⟩
    have judged := (entriesFrom_judges kind [] pairs).congr
      (show (∃ m, Writes (.mapping place pairs) kind m) ↔ FreshKeys [] pairs by simp [written])
    refine judged.done fun result ends => .pure fun m => ?_
    rw [written, ← ends.1]
    by_cases sound : result.2 = true
    · rw [if_pos sound, ends.2 sound]
      simp [sound, eq_comm]
    · rw [if_neg sound]
      simp [sound]
  next other =>
    have unwritten (m : Mapping) : ¬Writes n kind m := by
      rintro ⟨place, pairs, same, _⟩
      exact other place pairs same
    refine failed_judges (fun ⟨m, writes⟩ => unwritten m writes) (fun m => ?_) _ _
    exact iff_of_false nofun (unwritten m)

section

variable {n : Yaml.Node} {kind : Text} {m : Mapping} {place : Yaml.Place}
  {pairs : List (Yaml.Node × Yaml.Node)}

theorem keyed_iff (distinct : DistinctKeys pairs) {pair : Yaml.Node × Yaml.Node}
    (member : pair ∈ pairs) (key : String) : Keyed pair.1 key ↔ (entryOf pair).key = text key := by
  obtain ⟨s, scalar⟩ := distinct.1 pair member
  unfold Keyed entryOf
  rw [scalar]
  simp [Yaml.Node.text]

theorem get?_iff (distinct : DistinctKeys pairs) (origin : Yaml.Node) (key : String)
    (v : Yaml.Node) :
    (Mapping.mk origin kind (pairs.map entryOf)).get? key = some v ↔
      ∃ pair ∈ pairs, Keyed pair.1 key ∧ pair.2 = v := by
  unfold Mapping.get?
  constructor
  · intro found
    obtain ⟨e, first, rfl⟩ := Option.map_eq_some_iff.mp found
    obtain ⟨pair, member, rfl⟩ := List.mem_map.mp (List.mem_of_find?_eq_some first)
    have same := List.find?_some first
    rw [beq_iff_eq] at same
    exact ⟨pair, member, (keyed_iff distinct member key).mpr same, rfl⟩
  · rintro ⟨pair, member, keyed, rfl⟩
    have same := (keyed_iff distinct member key).mp keyed
    cases first : (pairs.map entryOf).find? fun e => e.key == text key with
    | none =>
      have absent := List.find?_eq_none.mp first _ (List.mem_map_of_mem member)
      exact absurd (beq_iff_eq.mpr same) absent
    | some e =>
      obtain ⟨other, among, rfl⟩ := List.mem_map.mp (List.mem_of_find?_eq_some first)
      have also := List.find?_some first
      rw [beq_iff_eq] at also
      have equal := List.inj_on_of_nodup_map distinct.2 among member (also.trans same.symm)
      rw [equal]
      rfl

theorem derives_record (writes : Writes n kind m) (described : Record) :
    Derives (.record described) n ↔ m.Describes described := by
  obtain ⟨place, pairs, rfl, distinct, rfl⟩ := writes
  have known (slots : List Slot) : (∀ pair ∈ pairs, ∃ slot ∈ slots, Keyed pair.1 slot.key) ↔
      Mapping.Knows ⟨.mapping place pairs, kind, pairs.map entryOf⟩ (slots.map (·.key)) := by
    constructor
    · intro all e member
      obtain ⟨pair, among, rfl⟩ := List.mem_map.mp member
      obtain ⟨slot, inside, keyed⟩ := all pair among
      exact ⟨slot.key, List.mem_map_of_mem inside, ((keyed_iff distinct among _).mp keyed).symm⟩
    · intro knows pair among
      obtain ⟨key, inside, same⟩ := knows _ (List.mem_map_of_mem among)
      obtain ⟨slot, member, rfl⟩ := List.mem_map.mp inside
      exact ⟨slot, member, (keyed_iff distinct among _).mpr same.symm⟩
  have holds (slot : Slot) :
      Mapping.Holds ⟨.mapping place pairs, kind, pairs.map entryOf⟩ slot ↔
        (slot.required → ∃ pair ∈ pairs, Keyed pair.1 slot.key) ∧
          ∀ pair ∈ pairs, Keyed pair.1 slot.key → Derives slot.form pair.2 := by
    simp only [Mapping.Holds, Mapping.has, Option.isSome_iff_exists, get?_iff distinct]
    constructor
    · rintro ⟨required, forms⟩
      refine ⟨fun needed => ?_, fun pair member keyed => forms _ ⟨pair, member, keyed, rfl⟩⟩
      obtain ⟨_, pair, member, keyed, _⟩ := required needed
      exact ⟨pair, member, keyed⟩
    · rintro ⟨required, forms⟩
      refine ⟨fun needed => ?_, ?_⟩
      · obtain ⟨pair, member, keyed⟩ := required needed
        exact ⟨_, pair, member, keyed, rfl⟩
      · rintro _ ⟨pair, member, keyed, rfl⟩
        exact forms pair member keyed
  constructor
  · intro derivation
    cases derivation with
    | record alternative _ all required forms =>
      refine ⟨_, alternative, fun slot member => ?_, (known _).mp all⟩
      exact (holds slot).mpr ⟨required slot member, forms slot member⟩
  · rintro ⟨slots, alternative, all, others⟩
    refine .record alternative distinct ((known slots).mpr others) (fun slot member => ?_)
      fun slot member => ?_
    · exact ((holds slot).mp (all slot member)).1
    · exact ((holds slot).mp (all slot member)).2

theorem writes_of_record {described : Record} (derivation : Derives (.record described) n)
    (kind : Text) : ∃ m, Writes n kind m := by
  cases derivation with
  | record _ distinct => exact ⟨_, _, _, rfl, distinct, rfl⟩

/-- What a mapping describes; what is no mapping with distinct keys describes nothing. -/
theorem describing_judges {described : Record} {f : Mapping → Load (Option α)}
    {post : Option α → Prop}
    (each : ∀ m, Writes n kind m → Judges (f m) (m.Describes described) post)
    (absent : (¬∃ m, Writes n kind m) → post none) :
    Judges (do
      match ← mappingOf n kind with
      | none => return none
      | some m => f m) (Derives (.record described) n) post := by
  have rest (found : Option Mapping) (writes : ∀ m, found = some m ↔ Writes n kind m) :
      Judges (match found with
        | none => return none
        | some m => f m) (∀ m, found = some m → m.Describes described) post := by
    cases found with
    | none =>
      refine passed_judges nofun (absent ?_)
      rintro ⟨m, written⟩
      exact nomatch (writes m).mpr written
    | some m => exact (each m ((writes m).mp rfl)).congr (by simp)
  apply (mappingOf_judges n kind).bind rest
  intro found writes
  constructor
  · intro derivation
    refine ⟨writes_of_record derivation kind, fun m same => ?_⟩
    exact (derives_record ((writes m).mp same) described).mp derivation
  · rintro ⟨⟨m, written⟩, all⟩
    exact (derives_record written described).mpr (all m ((writes m).mpr written))

theorem described_judges {described : Record} {f : Mapping → Load (Option α)}
    (each : ∀ m, Writes n kind m → Decides (f m) (m.Describes described)) :
    Decides (do
      match ← mappingOf n kind with
      | none => return none
      | some m => f m) (Derives (.record described) n) :=
  describing_judges each fun _ => trivial

theorem Writes.within {small : Yaml.Node → Prop} (writes : Writes n kind m)
    (parts : Parts small n) : ∀ e ∈ m.entries, small e.value := by
  obtain ⟨place, pairs, rfl, _, rfl⟩ := writes
  intro e member
  obtain ⟨pair, among, rfl⟩ := List.mem_map.mp member
  exact parts pair among

end

end TreeCheck.Load
