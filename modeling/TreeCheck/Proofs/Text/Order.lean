import Mathlib.Data.List.Nodup
import TreeCheck.Session

/-!
The bytewise order of texts is a linear one, so a sorted list without neighbours that are alike has
no text twice.
-/

namespace TreeCheck

namespace Text

theorem le_total (s t : Text) : le s t || le t s := by
  induction s generalizing t with
  | nil => simp [le]
  | cons a s ih =>
    cases t with
    | nil => simp [le]
    | cons b t =>
      by_cases same : a = b
      · subst same
        simpa [le] using ih t
      · simpa [le, same, Ne.symm same] using UInt8.lt_or_lt_of_ne same

theorem le_antisymm {s t : Text} (before : le s t) (after : le t s) : s = t := by
  induction s generalizing t with
  | nil =>
    cases t with
    | nil => rfl
    | cons b t => simp [le] at after
  | cons a s ih =>
    cases t with
    | nil => simp [le] at before
    | cons b t =>
      by_cases same : a = b
      · subst same
        simp only [le, beq_self_eq_true, if_true] at before after
        rw [ih before after]
      · simp only [le, beq_iff_eq, same, Ne.symm same, if_false, decide_eq_true_eq] at before after
        exact absurd after (UInt8.lt_asymm before)

theorem le_trans {s t u : Text} (first : le s t) (second : le t u) : le s u := by
  induction s generalizing t u with
  | nil => simp [le]
  | cons a s ih =>
    cases t with
    | nil => simp [le] at first
    | cons b t =>
      cases u with
      | nil => simp [le] at second
      | cons c u =>
        simp only [le] at first second ⊢
        grind

theorem sort_pairwise (ts : List Text) : (sort ts).Pairwise fun s t => le s t :=
  @List.pairwise_mergeSort _ le (fun _ _ _ => le_trans) le_total ts

theorem mem_sort {t : Text} {ts : List Text} : t ∈ sort ts ↔ t ∈ ts :=
  List.mem_mergeSort

end Text

namespace Session

theorem mem_compact {t : Text} {ts : List Text} : t ∈ compact ts ↔ t ∈ ts := by
  fun_induction compact ts with
  | case1 a b rest same ih =>
    rw [ih, beq_iff_eq.mp same]
    simp
  | case2 a b rest other ih => rw [List.mem_cons, List.mem_cons, ih]
  | case3 short => rfl

theorem compact_nodup {ts : List Text} (sorted : ts.Pairwise fun s t => Text.le s t) :
    (compact ts).Nodup := by
  fun_induction compact ts with
  | case1 a b rest same ih => exact ih sorted.of_cons
  | case2 a b rest other ih =>
    obtain ⟨first, later⟩ := List.pairwise_cons.mp sorted
    refine List.nodup_cons.mpr ⟨fun again => ?_, ih later⟩
    have different : a ≠ b := fun same => other (beq_iff_eq.mpr same)
    rcases List.mem_cons.mp (mem_compact.mp again) with same | further
    · exact different same
    · exact different (Text.le_antisymm (first b List.mem_cons_self)
        ((List.pairwise_cons.mp later).1 a further))
  | case3 short small =>
    match short with
    | [] => exact .nil
    | [t] => exact List.nodup_singleton t
    | a :: b :: rest => exact absurd rfl (small a b rest)

end Session

end TreeCheck
