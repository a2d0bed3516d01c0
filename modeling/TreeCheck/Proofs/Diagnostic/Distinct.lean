import Mathlib.Data.Finset.Card
import TreeCheck.Proofs.Diagnostic.Bag
import TreeCheck.Proofs.Diagnostic.Key

/-!
Different diagnostics. Two diagnostics say the same if they agree in code, position and message.
Removing repetitions leaves one diagnostic for each thing that is said, provided that different
codes have different names. Among the first diagnostics of a list there are as many different ones
as they are, or as there are in the whole list, exactly if no two of them say the same, or nothing
new is said after them.
-/

namespace TreeCheck

def Diagnostic.saying (d : Diagnostic) : Code × Span × Text :=
  (d.code, d.primary, d.message)

namespace Bag

def variety (ds : List Diagnostic) : Nat :=
  (ds.map Diagnostic.saying).toFinset.card

def NoRepeats (ds : List Diagnostic) : Prop :=
  (ds.map Diagnostic.saying).Nodup

def CodesApart (ds : List Diagnostic) : Prop :=
  ∀ d ∈ ds, ∀ e ∈ ds, d.code.id = e.code.id → d.code = e.code

theorem CodesApart.subset {ds es : List Diagnostic} (apart : CodesApart ds) (part : es ⊆ ds) :
    CodesApart es :=
  fun d member e other => apart d (part member) e (part other)

/-- The key with the code, position and message that it is made of. -/
def keyOf (saying : Code × Span × Text) : Text :=
  saying.1.id ++ text ":" ++ saying.2.1.toText ++ text ":" ++ saying.2.2

theorem keyOf_saying (d : Diagnostic) : keyOf d.saying = d.key :=
  rfl

theorem CodesApart.saying_eq {ds : List Diagnostic} (apart : CodesApart ds) {d e : Diagnostic}
    (member : d ∈ ds) (other : e ∈ ds) (same : d.key = e.key) : d.saying = e.saying := by
  obtain ⟨ids, places, messages⟩ := Diagnostic.key_inj same
  rw [Diagnostic.saying, Diagnostic.saying, apart d member e other ids, places, messages]

/-! ### Removing repetitions -/

theorem key_not_mem_of_mem_distinct {seen : List Text} {ds : List Diagnostic} {d : Diagnostic}
    (member : d ∈ distinct seen ds) : d.key ∉ seen := by
  induction ds generalizing seen with
  | nil => exact absurd member List.not_mem_nil
  | cons e rest ih =>
    unfold distinct at member
    dsimp only at member
    split at member
    · exact ih member
    next new =>
      rcases List.mem_cons.mp member with rfl | later
      · rwa [List.contains_iff_mem] at new
      · exact fun old => ih later (List.mem_cons_of_mem _ old)

theorem keys_distinct_nodup (seen : List Text) (ds : List Diagnostic) :
    ((distinct seen ds).map Diagnostic.key).Nodup := by
  induction ds generalizing seen with
  | nil => exact List.nodup_nil
  | cons d rest ih =>
    unfold distinct
    dsimp only
    split
    · exact ih seen
    · refine List.nodup_cons.mpr ⟨fun repeated => ?_, ih _⟩
      obtain ⟨e, later, same⟩ := List.mem_map.mp repeated
      exact key_not_mem_of_mem_distinct later (same ▸ List.mem_cons_self)

theorem noRepeats_distinct (seen : List Text) (ds : List Diagnostic) :
    NoRepeats (distinct seen ds) := by
  have keys : ((distinct seen ds).map Diagnostic.saying).map keyOf =
      (distinct seen ds).map Diagnostic.key := by
    rw [List.map_map]
    rfl
  exact .of_map keyOf (keys ▸ keys_distinct_nodup seen ds)

theorem saying_mem_distinct_iff {ds : List Diagnostic} (apart : CodesApart ds)
    {saying : Code × Span × Text} : saying ∈ (distinct [] ds).map Diagnostic.saying ↔
      saying ∈ ds.map Diagnostic.saying := by
  constructor
  · intro kept
    obtain ⟨d, member, rfl⟩ := List.mem_map.mp kept
    exact List.mem_map_of_mem (mem_of_mem_distinct member)
  · intro said
    obtain ⟨d, member, rfl⟩ := List.mem_map.mp said
    obtain ⟨e, kept, same⟩ := exists_mem_distinct member List.not_mem_nil
    rw [← apart.saying_eq (mem_of_mem_distinct kept) member same]
    exact List.mem_map_of_mem kept

theorem length_distinct {ds : List Diagnostic} (apart : CodesApart ds) :
    (distinct [] ds).length = variety ds := by
  have same : ((distinct [] ds).map Diagnostic.saying).toFinset =
      (ds.map Diagnostic.saying).toFinset := by
    ext saying
    rw [List.mem_toFinset, List.mem_toFinset, saying_mem_distinct_iff apart]
  rw [variety, ← same, List.toFinset_card_of_nodup (noRepeats_distinct [] ds), List.length_map]

/-! ### The first diagnostics of a list -/

theorem variety_le_length (ds : List Diagnostic) : variety ds ≤ ds.length := by
  have bound := List.toFinset_card_le (ds.map Diagnostic.saying)
  rwa [List.length_map] at bound

theorem variety_eq_length_iff (ds : List Diagnostic) : variety ds = ds.length ↔ NoRepeats ds := by
  have counted := Multiset.toFinset_card_eq_card_iff_nodup
    (m := (ds.map Diagnostic.saying : Multiset (Code × Span × Text)))
  rwa [Multiset.coe_card, List.length_map] at counted

theorem variety_take_le (m : Nat) (ds : List Diagnostic) : variety (ds.take m) ≤ variety ds := by
  refine Finset.card_le_card fun saying member => ?_
  rw [List.mem_toFinset] at member ⊢
  exact (List.take_sublist m ds).map Diagnostic.saying |>.subset member

/-- The first diagnostics say as many different things as all of them if what comes after them has
been said among them. -/
theorem variety_take_eq_iff (m : Nat) (ds : List Diagnostic) :
    variety (ds.take m) = variety ds ↔
      ∀ d ∈ ds.drop m, ∃ e ∈ ds.take m, d.saying = e.saying := by
  have parts : (ds.map Diagnostic.saying).toFinset =
      ((ds.take m).map Diagnostic.saying).toFinset ∪
        ((ds.drop m).map Diagnostic.saying).toFinset := by
    rw [← List.toFinset_append, ← List.map_append, List.take_append_drop]
  constructor
  · intro same d member
    have whole := Finset.eq_of_subset_of_card_le
      (parts ▸ Finset.subset_union_left : ((ds.take m).map Diagnostic.saying).toFinset ⊆
        (ds.map Diagnostic.saying).toFinset) same.ge
    have said : d.saying ∈ ((ds.take m).map Diagnostic.saying).toFinset := by
      rw [whole, List.mem_toFinset]
      exact List.mem_map_of_mem (List.mem_of_mem_drop member)
    obtain ⟨e, early, equal⟩ := List.mem_map.mp (List.mem_toFinset.mp said)
    exact ⟨e, early, equal.symm⟩
  · intro repeats
    have nothing : ((ds.drop m).map Diagnostic.saying).toFinset ⊆
        ((ds.take m).map Diagnostic.saying).toFinset := by
      intro saying member
      obtain ⟨d, late, rfl⟩ := List.mem_map.mp (List.mem_toFinset.mp member)
      obtain ⟨e, early, equal⟩ := repeats d late
      exact List.mem_toFinset.mpr (equal ▸ List.mem_map_of_mem early)
    rw [variety, variety, parts, Finset.union_eq_left.mpr nothing]

/-- If there are more than the first `m` diagnostics, these say `m` different things if no two of
them say the same. -/
theorem variety_take_full_iff (m : Nat) (ds : List Diagnostic) :
    (m < ds.length → variety (ds.take m) = m) ↔ ds.length ≤ m ∨ NoRepeats (ds.take m) := by
  rw [← variety_eq_length_iff, List.length_take, Nat.le_iff_lt_add_one]
  by_cases more : m < ds.length
  · have taken : min m ds.length = m := Nat.min_eq_left more.le
    have long : ¬ds.length < m + 1 := by omega
    simp [more, taken, long]
  · have short : ds.length < m + 1 := by omega
    simp [more, short]

/-- The first `m` diagnostics say `m` different things, or all that is said if that is less, exactly
if no two of them say the same or nothing new is said after them. -/
theorem variety_take_eq_min_iff (m : Nat) (ds : List Diagnostic) :
    variety (ds.take m) = min m (variety ds) ↔
      NoRepeats (ds.take m) ∨ ∀ d ∈ ds.drop m, ∃ e ∈ ds.take m, d.saying = e.saying := by
  have fewer := variety_take_le m ds
  have bound := variety_le_length (ds.take m)
  have all := variety_le_length ds
  rw [← variety_eq_length_iff, ← variety_take_eq_iff]
  rw [List.length_take] at bound ⊢
  constructor
  · intro least
    by_cases more : m ≤ variety ds
    · left
      omega
    · right
      omega
  · rintro (full | whole)
    · by_cases short : ds.length ≤ m
      · rw [List.take_of_length_le short] at full ⊢
        omega
      · omega
    · omega

end Bag

end TreeCheck
