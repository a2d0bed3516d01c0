import TreeCheck.Diagnostic.Bag

/-!
What is in a bag. Taking one diagnostic after the other keeps the first ones that the limit leaves
room for, removing repetitions keeps one of each key, and sorting keeps everything.
-/

namespace TreeCheck.Bag

variable {b : Bag} {d : Diagnostic}

/-- The first diagnostics, as many as a limit leaves room for; all of them without a limit. -/
def within (limit : Int) (ds : List Diagnostic) : List Diagnostic :=
  if 0 < limit then ds.take limit.toNat else ds

theorem isFull_iff : b.isFull ↔ 0 < b.limit ∧ b.limit ≤ b.items.size := by
  simp [isFull]

theorem add_of_full (full : b.isFull) : (b.add d).items = b.items ∧ (b.add d).limit = b.limit := by
  simp [add, full]

theorem add_of_room (room : ¬b.isFull) :
    (b.add d).items = b.items.push d ∧ (b.add d).limit = b.limit := by
  simp [add, room]

theorem addAll_unlimited (free : ¬0 < b.limit) (ds : List Diagnostic) :
    (b.addAll ds).items.toList = b.items.toList ++ ds := by
  induction ds generalizing b with
  | nil => simp [addAll]
  | cons d rest ih =>
    have room : ¬b.isFull := fun full => free (isFull_iff.mp full).1
    obtain ⟨items, limit⟩ := add_of_room (d := d) room
    have later := ih (b := b.add d) (by rwa [limit])
    rw [items, Array.toList_push, List.append_assoc] at later
    exact later

theorem addAll_limited (limited : 0 < b.limit) (ds : List Diagnostic) :
    (b.addAll ds).items.toList =
      b.items.toList ++ ds.take (b.limit.toNat - b.items.size) := by
  induction ds generalizing b with
  | nil => simp [addAll]
  | cons d rest ih =>
    by_cases full : b.isFull
    · obtain ⟨items, limit⟩ := add_of_full (d := d) full
      have none : b.limit.toNat - b.items.size = 0 := by
        have bound := (isFull_iff.mp full).2
        omega
      have later := ih (b := b.add d) (by rwa [limit])
      rw [items, limit, none, List.take_zero] at later
      rw [none, List.take_zero]
      exact later
    · obtain ⟨items, limit⟩ := add_of_room (d := d) full
      have some : b.limit.toNat - b.items.size = b.limit.toNat - (b.items.size + 1) + 1 := by
        have bound : ¬b.limit ≤ b.items.size := fun bound => full (isFull_iff.mpr ⟨limited, bound⟩)
        omega
      have later := ih (b := b.add d) (by rwa [limit])
      rw [items, limit, Array.toList_push, Array.size_push, List.append_assoc] at later
      rw [some, List.take_succ_cons]
      exact later

theorem add_limit (b : Bag) (d : Diagnostic) : (b.add d).limit = b.limit := by
  unfold add
  split
  · rfl
  · rfl

theorem addAll_limit (b : Bag) (ds : List Diagnostic) : (b.addAll ds).limit = b.limit := by
  induction ds generalizing b with
  | nil => rfl
  | cons d rest ih => exact (ih _).trans (add_limit b d)

theorem addAll_items (limit : Int) (ds : List Diagnostic) :
    ((empty limit).addAll ds).items.toList = within limit ds := by
  unfold within
  split
  next limited => simpa [empty] using addAll_limited (b := empty limit) limited ds
  next free => simpa [empty] using addAll_unlimited (b := empty limit) free ds

/-- A diagnostic that is offered to a bag is taken or counted as refused. -/
theorem add_accounts (b : Bag) (d : Diagnostic) :
    (b.add d).items.size + (b.add d).dropped = b.items.size + b.dropped + 1 := by
  unfold add
  split
  · rfl
  · rw [Array.size_push, Nat.add_right_comm]

theorem addAll_accounts (b : Bag) (ds : List Diagnostic) :
    (b.addAll ds).items.size + (b.addAll ds).dropped = b.items.size + b.dropped + ds.length := by
  induction ds generalizing b with
  | nil => rfl
  | cons d rest ih =>
    have later := ih (b.add d)
    rw [add_accounts] at later
    rw [List.length_cons, Nat.add_comm rest.length, ← Nat.add_assoc]
    exact later

/-- A new bag refuses what comes after the first diagnostics that its limit leaves room for. -/
theorem addAll_dropped (limit : Int) (ds : List Diagnostic) :
    ((empty limit).addAll ds).dropped = ds.length - (within limit ds).length := by
  have total := addAll_accounts (empty limit) ds
  have none : (empty limit).items.size + (empty limit).dropped = 0 := rfl
  rw [none, ← Array.length_toList, addAll_items] at total
  omega

theorem mem_within {limit : Int} {ds : List Diagnostic} (member : d ∈ within limit ds) :
    d ∈ ds := by
  unfold within at member
  split at member
  · exact List.mem_of_mem_take member
  · exact member

theorem mem_sort : d ∈ b.sort.items.toList ↔ d ∈ b.items.toList :=
  List.mem_mergeSort

theorem distinct_sublist (seen : List Text) (ds : List Diagnostic) :
    (distinct seen ds).Sublist ds := by
  induction ds generalizing seen with
  | nil => exact .slnil
  | cons d rest ih =>
    unfold distinct
    dsimp only
    split
    · exact (ih seen).cons d
    · exact (ih _).cons_cons d

theorem mem_of_mem_distinct {seen : List Text} {ds : List Diagnostic}
    (member : d ∈ distinct seen ds) : d ∈ ds :=
  (distinct_sublist seen ds).subset member

theorem exists_mem_distinct {seen : List Text} {ds : List Diagnostic} (member : d ∈ ds)
    (unseen : d.key ∉ seen) : ∃ kept ∈ distinct seen ds, kept.key = d.key := by
  induction ds generalizing seen with
  | nil => exact absurd member List.not_mem_nil
  | cons e rest ih =>
    unfold distinct
    dsimp only
    by_cases same : d.key = e.key
    · have new : ¬seen.contains e.key := by
        rw [List.contains_iff_mem, ← same]
        exact unseen
      rw [if_neg new]
      exact ⟨e, List.mem_cons_self, same.symm⟩
    · have later : d ∈ rest := by
        rcases List.mem_cons.mp member with rfl | later
        · exact absurd rfl same
        · exact later
      split
      · exact ih later unseen
      · have fresh : d.key ∉ e.key :: seen := by simp [same, unseen]
        obtain ⟨kept, found, key⟩ := ih later fresh
        exact ⟨kept, List.mem_cons_of_mem _ found, key⟩

theorem hasErrors_iff : b.hasErrors ↔ ∃ d ∈ b.items.toList, d.severity = .error := by
  simp [hasErrors, count, List.length_pos_iff_exists_mem]

end TreeCheck.Bag
