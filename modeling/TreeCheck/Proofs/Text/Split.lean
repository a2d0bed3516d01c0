import TreeCheck.Text

/-!
Splitting at a byte. The parts do not hold the byte, and parts that do not hold it can be read off
again after they were joined with it. A first part can also be read off where it ends at the first
byte that it may not hold.
-/

namespace TreeCheck.Text

variable {sep : UInt8}

theorem splitOn_ne_nil (sep : UInt8) (t : Text) : splitOn sep t ≠ [] := by
  cases t with
  | nil => exact List.cons_ne_nil _ _
  | cons b rest =>
    unfold splitOn
    split
    · exact List.cons_ne_nil _ _
    · split
      · exact List.cons_ne_nil _ _
      · exact List.cons_ne_nil _ _

theorem splitOn_sep (sep : UInt8) (rest : Text) :
    splitOn sep (sep :: rest) = [] :: splitOn sep rest :=
  if_pos (beq_self_eq_true sep)

theorem splitOn_other {b : UInt8} (other : b ≠ sep) {rest part : Text} {parts : List Text}
    (split : splitOn sep rest = part :: parts) :
    splitOn sep (b :: rest) = (b :: part) :: parts := by
  simp [splitOn, other, split]

theorem not_mem_of_mem_splitOn {t part : Text} (member : part ∈ splitOn sep t) : sep ∉ part := by
  induction t generalizing part with
  | nil =>
    rw [List.mem_singleton.mp member]
    exact List.not_mem_nil
  | cons b rest ih =>
    by_cases same : b = sep
    · subst same
      rw [splitOn_sep] at member
      rcases List.mem_cons.mp member with rfl | later
      · exact List.not_mem_nil
      · exact ih later
    · obtain ⟨first, parts, split⟩ := List.exists_cons_of_ne_nil (splitOn_ne_nil sep rest)
      rw [splitOn_other same split] at member
      rw [split] at ih
      rcases List.mem_cons.mp member with rfl | later
      · intro found
        rcases List.mem_cons.mp found with rfl | found
        · exact same rfl
        · exact ih List.mem_cons_self found
      · exact ih (List.mem_cons_of_mem _ later)

theorem splitOn_of_not_mem {t : Text} (none : sep ∉ t) : splitOn sep t = [t] := by
  induction t with
  | nil => rfl
  | cons b rest ih =>
    have other : b ≠ sep := fun same => none (same ▸ List.mem_cons_self)
    exact splitOn_other other (ih fun later => none (List.mem_cons_of_mem _ later))

theorem splitOn_append {part : Text} (none : sep ∉ part) (rest : Text) :
    splitOn sep (part ++ sep :: rest) = part :: splitOn sep rest := by
  induction part with
  | nil => exact splitOn_sep sep rest
  | cons b part ih =>
    have other : b ≠ sep := fun same => none (same ▸ List.mem_cons_self)
    exact splitOn_other other (ih fun later => none (List.mem_cons_of_mem _ later))

theorem join_cons_cons (sep part next : Text) (parts : List Text) :
    join sep (part :: next :: parts) = part ++ sep ++ join sep (next :: parts) :=
  rfl

theorem join_eq_flatMap (sep part : Text) (parts : List Text) :
    join sep (part :: parts) = part ++ parts.flatMap (sep ++ ·) := by
  induction parts generalizing part with
  | nil => exact (List.append_nil part).symm
  | cons next parts ih =>
    rw [join_cons_cons, ih next, List.flatMap_cons, List.append_assoc, List.append_assoc]

theorem splitOn_join {parts : List Text} (some : parts ≠ []) (none : ∀ part ∈ parts, sep ∉ part) :
    splitOn sep (join [sep] parts) = parts := by
  match parts with
  | [part] => exact splitOn_of_not_mem (none part List.mem_cons_self)
  | part :: next :: parts =>
    have later := splitOn_join (List.cons_ne_nil next parts) fun p member =>
      none p (List.mem_cons_of_mem _ member)
    rw [join_cons_cons, List.append_assoc, List.singleton_append,
      splitOn_append (none part List.mem_cons_self), later]

/-! ### Parts up to a boundary -/

section

variable {inside : UInt8 → Bool} {part other x y : Text}

theorem takeWhile_part (clean : ∀ b ∈ part, inside b = true)
    (boundary : ∀ b ∈ x.head?, inside b = false) : (part ++ x).takeWhile inside = part := by
  have nothing : x.takeWhile inside = [] := by
    cases x with
    | nil => rfl
    | cons b rest => exact List.takeWhile_cons_of_neg (Bool.eq_false_iff.mp (boundary b rfl))
  rw [List.takeWhile_append_of_pos clean, nothing, List.append_nil]

theorem append_inj_of_boundary (clean : ∀ b ∈ part, inside b = true)
    (clean' : ∀ b ∈ other, inside b = true) (boundary : ∀ b ∈ x.head?, inside b = false)
    (boundary' : ∀ b ∈ y.head?, inside b = false) (same : part ++ x = other ++ y) :
    part = other ∧ x = y := by
  have parts : part = other := by
    rw [← takeWhile_part clean boundary, same, takeWhile_part clean' boundary']
  subst parts
  exact ⟨rfl, List.append_cancel_left same⟩

end

end TreeCheck.Text
