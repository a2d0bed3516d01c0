import Mathlib.Data.Prod.Lex
import Mathlib.Order.OrderDual
import TreeCheck.Proofs.Diagnostic.Distinct
import TreeCheck.Proofs.Diagnostic.Ledger

/-!
Bags without repetitions and in order. Removing repetitions leaves, in their order, the diagnostics
that say something no earlier one said, provided that different codes have different names; sorting
puts them in the order of their ranks and keeps the order of those of one rank. After both, neither
changes anything any more.
-/

namespace TreeCheck

/-! ### Codes -/

def Code.declared : List Code :=
  ⟨0⟩ :: titles.map fun entry => ⟨entry.1⟩

theorem Code.declared_apart : ∀ c ∈ declared, ∀ e ∈ declared, c.id = e.id → c = e := by
  decide

/-! ### The order of diagnostics -/

/-- What the order of positions looks at: the file, then the line, then the column. -/
def Span.rank (s : Span) : Nat ×ₗ Nat ×ₗ Nat :=
  toLex (s.file, toLex (s.line, s.col))

theorem Span.rank_injective : Function.Injective Span.rank := by
  intro a b same
  obtain ⟨file, rest⟩ := Prod.mk.inj (toLex_inj.mp same)
  obtain ⟨line, col⟩ := Prod.mk.inj (toLex_inj.mp rest)
  cases a
  cases b
  rw [Span.mk.injEq]
  exact ⟨file, line, col⟩

theorem Span.before_iff (a b : Span) : a.before b = true ↔ a.rank < b.rank := by
  rw [rank, rank, Prod.Lex.toLex_lt_toLex, Prod.Lex.toLex_lt_toLex, before]
  grind

namespace Diagnostic

/-- What the order of diagnostics looks at: the position, then the severity, the graver first, then
the code. -/
def rank (d : Diagnostic) : (Nat ×ₗ Nat ×ₗ Nat) ×ₗ Natᵒᵈ ×ₗ Nat :=
  toLex (d.primary.rank, toLex (OrderDual.toDual d.severity.level, d.code.number))

theorem before_iff (a b : Diagnostic) : a.before b = true ↔ a.rank < b.rank := by
  have places := Span.rank_injective.eq_iff (a := a.primary) (b := b.primary)
  have grades : OrderDual.toDual a.severity.level = OrderDual.toDual b.severity.level ↔
      a.severity = b.severity := by
    rw [OrderDual.toDual_inj, Severity.mk.injEq]
  rw [rank, rank, Prod.Lex.toLex_lt_toLex, Prod.Lex.toLex_lt_toLex, before, places, grades,
    OrderDual.toDual_lt_toDual]
  by_cases place : a.primary = b.primary
  · by_cases grade : a.severity = b.severity
    · simp [place, grade]
    · simp [place, grade]
  · simp [place, Span.before_iff]

theorem not_before_iff (a b : Diagnostic) : (!b.before a) = true ↔ a.rank ≤ b.rank := by
  rw [Bool.not_eq_true', ← Bool.not_eq_true, before_iff, not_lt]

end Diagnostic

namespace Bag

/-! ### Sorting -/

section Sorting

theorem order_trans (x y z : Diagnostic) (first : !y.before x) (second : !z.before y) :
    !z.before x := by
  rw [Diagnostic.not_before_iff] at first second ⊢
  exact first.trans second

theorem order_total (x y : Diagnostic) : !y.before x || !x.before y := by
  rw [Bool.or_eq_true, Diagnostic.not_before_iff, Diagnostic.not_before_iff]
  exact le_total _ _

variable (b : Bag)

theorem sort_perm : b.sort.items.toList.Perm b.items.toList :=
  List.mergeSort_perm _ _

theorem sort_ordered : b.sort.items.toList.Pairwise fun x y => x.rank ≤ y.rank :=
  (List.pairwise_mergeSort order_trans order_total b.items.toList).imp
    fun inOrder => (Diagnostic.not_before_iff _ _).mp inOrder

theorem sort_ties (r : (Nat ×ₗ Nat ×ₗ Nat) ×ₗ Natᵒᵈ ×ₗ Nat) :
    b.sort.items.toList.filter (·.rank = r) = b.items.toList.filter (·.rank = r) := by
  have tied : (b.items.toList.filter (·.rank = r)).Pairwise fun x y => !y.before x := by
    refine List.pairwise_of_forall_mem_list fun x member y other => ?_
    have first : x.rank = r := of_decide_eq_true (List.mem_filter.mp member).2
    have second : y.rank = r := of_decide_eq_true (List.mem_filter.mp other).2
    rw [Diagnostic.not_before_iff, first, second]
  have kept := List.sublist_mergeSort order_trans order_total tied List.filter_sublist
  have among := kept.filter (·.rank = r)
  rw [List.filter_filter] at among
  simp only [Bool.and_self] at among
  exact (among.eq_of_length ((b.sort_perm.filter _).length_eq.symm)).symm

variable {b}

theorem sort_of_ordered (ordered : b.items.toList.Pairwise fun x y => x.rank ≤ y.rank) :
    b.sort = b := by
  have inOrder := ordered.imp fun before => (Diagnostic.not_before_iff _ _).mpr before
  rw [sort, List.mergeSort_of_pairwise inOrder, Array.toArray_toList]

end Sorting

/-! ### Removing repetitions -/

section Repetitions

/-- Whether a diagnostic says something that none before its position says. -/
def saysNew (ds : List Diagnostic) (entry : Diagnostic × Nat) : Bool :=
  entry.1.saying ∉ (ds.take entry.2).map Diagnostic.saying

/-- The diagnostics, in their order, that say something that none before them says. -/
def firsts (ds : List Diagnostic) : List Diagnostic :=
  (ds.zipIdx.filter (saysNew ds)).map Prod.fst

theorem distinct_eq_filter (earlier : List Diagnostic) {ds : List Diagnostic}
    (apart : CodesApart (earlier ++ ds)) {seen : List Text}
    (said : ∀ key, key ∈ seen ↔ key ∈ earlier.map Diagnostic.key) :
    distinct seen ds =
      ((ds.zipIdx earlier.length).filter (saysNew (earlier ++ ds))).map Prod.fst := by
  induction ds generalizing earlier seen with
  | nil => rfl
  | cons d rest ih =>
    have member : d ∈ earlier ++ d :: rest := List.mem_append_right _ List.mem_cons_self
    have known : d.key ∈ seen ↔ d.saying ∈ earlier.map Diagnostic.saying := by
      rw [said, List.mem_map, List.mem_map]
      refine exists_congr fun e => and_congr_right fun early => ?_
      refine ⟨apart.saying_eq (List.mem_append_left _ early) member, fun same => ?_⟩
      rw [← keyOf_saying, ← keyOf_saying, same]
    have new : saysNew (earlier ++ d :: rest) (d, earlier.length) ↔ d.key ∉ seen := by
      rw [saysNew, List.take_left, decide_eq_true_iff, known]
    have further : earlier ++ d :: rest = earlier ++ [d] ++ rest := List.append_cons ..
    have length : earlier.length + 1 = (earlier ++ [d]).length := by simp
    rw [List.zipIdx_cons]
    unfold distinct
    dsimp only
    by_cases old : d.key ∈ seen
    · rw [if_pos (List.contains_iff_mem.mpr old), List.filter_cons_of_neg (by rwa [new, not_not]),
        further, length]
      refine ih (earlier ++ [d]) (further ▸ apart) fun key => ?_
      rw [said, List.map_append, List.mem_append, List.map_singleton, List.mem_singleton]
      refine ⟨.inl, fun found => found.elim id ?_⟩
      rintro rfl
      exact (said _).mp old
    · rw [if_neg (by rwa [List.contains_iff_mem]), List.filter_cons_of_pos (new.mpr old),
        List.map_cons, further, length]
      congr 1
      refine ih (earlier ++ [d]) (further ▸ apart) fun key => ?_
      rw [List.mem_cons, said, List.map_append, List.mem_append, List.map_singleton,
        List.mem_singleton, or_comm]

theorem distinct_eq_firsts {ds : List Diagnostic} (apart : CodesApart ds) :
    distinct [] ds = firsts ds :=
  distinct_eq_filter [] apart fun _ => Iff.rfl

theorem distinct_of_nodup {seen : List Text} {ds : List Diagnostic}
    (nodup : (ds.map Diagnostic.key).Nodup) (unseen : ∀ d ∈ ds, d.key ∉ seen) :
    distinct seen ds = ds := by
  induction ds generalizing seen with
  | nil => rfl
  | cons d rest ih =>
    obtain ⟨first, later⟩ := List.nodup_cons.mp nodup
    have new : ¬seen.contains d.key := by
      rw [List.contains_iff_mem]
      exact unseen d List.mem_cons_self
    unfold distinct
    dsimp only
    rw [if_neg new, ih later]
    intro e member found
    rcases List.mem_cons.mp found with same | old
    · exact first (same ▸ List.mem_map_of_mem member)
    · exact unseen e (List.mem_cons_of_mem _ member) old

theorem dedup_of_nodup {b : Bag} (nodup : (b.items.toList.map Diagnostic.key).Nodup) :
    b.dedup = b := by
  rw [dedup, distinct_of_nodup nodup fun _ _ => List.not_mem_nil, Array.toArray_toList]

theorem keys_dedup_sort_nodup (b : Bag) :
    (b.dedup.sort.items.toList.map Diagnostic.key).Nodup := by
  rw [(b.dedup.sort_perm.map Diagnostic.key).nodup_iff]
  exact keys_distinct_nodup [] b.items.toList

end Repetitions

/-! ### Doing both again -/

theorem run_settled {b : Bag} (ordered : b.sort = b) (distinct : b.dedup = b)
    {actions : List Action} (tidying : ∀ a ∈ actions, a = .sort ∨ a = .dedup) :
    b.run actions = b := by
  induction actions with
  | nil => rfl
  | cons a rest ih =>
    obtain ⟨first, later⟩ := List.forall_mem_cons.mp tidying
    have same : b.act a = b := by
      rcases first with rfl | rfl
      · exact ordered
      · exact distinct
    rw [run, List.foldl_cons, same]
    exact ih later

/-- In a bag in which different codes have different names, as all declared codes have, different
diagnostics have different keys. Removing repetitions leaves, in their order, the diagnostics that
say something that none before them says; sorting rearranges these by rank, those of one rank in the
order in which they were; and after that neither changes anything, in whatever order and how often
they are done. -/
theorem dedup_and_sort_settle (b : Bag) (apart : CodesApart b.items.toList) :
    (∀ c ∈ Code.declared, ∀ e ∈ Code.declared, c.id = e.id → c = e) ∧
    (∀ d ∈ b.items.toList, ∀ e ∈ b.items.toList, d.key = e.key ↔ d.saying = e.saying) ∧
    b.dedup.items.toList = firsts b.items.toList ∧
    b.dedup.sort.items.toList.Perm b.dedup.items.toList ∧
    (b.dedup.sort.items.toList.Pairwise fun x y => x.rank ≤ y.rank) ∧
    (∀ r, b.dedup.sort.items.toList.filter (·.rank = r) =
      b.dedup.items.toList.filter (·.rank = r)) ∧
    ∀ actions : List Action, (∀ a ∈ actions, a = .sort ∨ a = .dedup) →
      b.dedup.sort.run actions = b.dedup.sort := by
  refine ⟨Code.declared_apart, fun d member e other => ?_, distinct_eq_firsts apart,
    b.dedup.sort_perm, b.dedup.sort_ordered, b.dedup.sort_ties, fun actions => run_settled ?_ ?_⟩
  · refine ⟨apart.saying_eq member other, fun same => ?_⟩
    rw [← keyOf_saying, ← keyOf_saying, same]
  · exact sort_of_ordered b.dedup.sort_ordered
  · exact dedup_of_nodup (keys_dedup_sort_nodup b)

/-- A bag with a repetition, with two diagnostics at one position, and with messages that look like
positions. -/
def crowded : Bag :=
  ⟨#[.warning .shadowing ⟨1, 3, 1⟩ (text "1:w"), .error .unresolvedSymbol ⟨1, 1, 5⟩ (text "e"),
    .error .duplicateBinding ⟨1, 3, 1⟩ (text "w"), .error .unresolvedSymbol ⟨1, 1, 5⟩ (text "e"),
    .error .unresolvedSymbol ⟨1, 1, 51⟩ (text "e")], 0, 0⟩

theorem crowded_settles : CodesApart crowded.items.toList ∧
    crowded.dedup.items.toList =
      [.warning .shadowing ⟨1, 3, 1⟩ (text "1:w"), .error .unresolvedSymbol ⟨1, 1, 5⟩ (text "e"),
        .error .duplicateBinding ⟨1, 3, 1⟩ (text "w"),
        .error .unresolvedSymbol ⟨1, 1, 51⟩ (text "e")] ∧
    crowded.dedup.sort.run [.dedup, .sort, .dedup] = crowded.dedup.sort := by
  have apart : CodesApart crowded.items.toList := by
    unfold CodesApart
    decide
  obtain ⟨-, -, kept, -, -, -, settled⟩ := dedup_and_sort_settle crowded apart
  refine ⟨apart, kept.trans (by decide), settled _ ?_⟩
  simp

end Bag

end TreeCheck
