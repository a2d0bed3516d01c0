import Mathlib.Data.List.Zip
import TreeCheck.Diagnostic.Bag
import TreeCheck.Proofs.Diagnostic.Key
import TreeCheck.Proofs.Tree.Alike

/-!
Diagnostics that differ in nothing but their positions. If positions that stand for the same are
told apart and ordered alike, a bag takes, refuses, drops and sorts the same diagnostics on both
sides.
-/

namespace TreeCheck

/-- The notes say the same, about positions that stand for the same or about none. -/
structure Note.Alike (l : Likeness) (a b : Note) : Prop where
  message_eq : a.message = b.message
  place : l.span a.place b.place ∨ a.place = .zero ∧ b.place = .zero

structure Diagnostic.Alike (l : Likeness) (a b : Diagnostic) : Prop where
  severity_eq : a.severity = b.severity
  code_eq : a.code = b.code
  message_eq : a.message = b.message
  primary : l.span a.primary b.primary
  notes : List.Forall₂ (Note.Alike l) a.notes b.notes

/-! ### Building diagnostics -/

theorem push_alike {α β : Type} {like : α → β → Prop} {xs : Array α} {ys : Array β}
    (all : List.Forall₂ like xs.toList ys.toList) {a : α} {b : β} (last : like a b) :
    List.Forall₂ like (xs.push a).toList (ys.push b).toList := by
  rw [Array.toList_push, Array.toList_push]
  exact List.rel_append all (.cons last .nil)

namespace Diagnostic

variable {l : Likeness} {s t : Span} {d e : Diagnostic}

theorem Alike.error (code : Code) {message message' : Text} (place : l.span s t)
    (same : message = message') : Alike l (error code s message) (error code t message') :=
  ⟨rfl, rfl, same, place, .nil⟩

theorem Alike.warning (code : Code) {message message' : Text} (place : l.span s t)
    (same : message = message') : Alike l (warning code s message) (warning code t message') :=
  ⟨rfl, rfl, same, place, .nil⟩

theorem Alike.withNote (alike : Alike l d e) {message message' : Text}
    (place : l.span s t ∨ s = .zero ∧ t = .zero) (same : message = message') :
    Alike l (d.withNote s message) (e.withNote t message') :=
  { alike with notes := List.rel_append alike.notes (.cons ⟨same, place⟩ .nil) }

end Diagnostic

/-! ### Keys, order and bags -/

/-- Positions that stand for the same are told apart and ordered alike on both sides. -/
structure Likeness.Ordered (l : Likeness) : Prop where
  unique {s t s' t' : Span} : l.span s s' → l.span t t' → (s = t ↔ s' = t')
  before {s t s' t' : Span} : l.span s s' → l.span t t' → s.before t = s'.before t'

variable {l : Likeness} (ordered : l.Ordered)

namespace Diagnostic

variable {a b a' b' : Diagnostic} (first : Alike l a a') (second : Alike l b b')
include ordered first second

theorem Alike.key_iff : a.key = b.key ↔ a'.key = b'.key := by
  have forth {c d c' d' : Diagnostic} (left : c.code = c'.code ∧ c.message = c'.message)
      (right : d.code = d'.code ∧ d.message = d'.message)
      (places : c.primary = d.primary → c'.primary = d'.primary) (same : c.key = d.key) :
      c'.key = d'.key := by
    obtain ⟨ids, place, messages⟩ := key_inj same
    rw [key, key, ← left.1, ← left.2, ← right.1, ← right.2, ids, messages, places place]
  have places := ordered.unique first.primary second.primary
  constructor
  · exact forth ⟨first.code_eq, first.message_eq⟩ ⟨second.code_eq, second.message_eq⟩ places.mp
  · exact forth ⟨first.code_eq.symm, first.message_eq.symm⟩
      ⟨second.code_eq.symm, second.message_eq.symm⟩ places.mpr

theorem Alike.before_eq : a.before b = a'.before b' := by
  have apart := not_congr (ordered.unique first.primary second.primary)
  unfold Diagnostic.before
  rw [first.severity_eq, first.code_eq, second.severity_eq, second.code_eq,
    ordered.before first.primary second.primary]
  by_cases same : a.primary ≠ b.primary
  · rw [if_pos same, if_pos (apart.mp same)]
  · rw [if_neg same, if_neg fun other => same (apart.mpr other)]

end Diagnostic

namespace Bag

structure Alike (l : Likeness) (b c : Bag) : Prop where
  items : List.Forall₂ (Diagnostic.Alike l) b.items.toList c.items.toList
  limit_eq : b.limit = c.limit
  dropped_eq : b.dropped = c.dropped

section

variable {b c : Bag}

theorem Alike.size_eq (alike : Alike l b c) : b.items.size = c.items.size := by
  rw [← Array.length_toList, ← Array.length_toList]
  exact alike.items.length_eq

theorem Alike.isFull_eq (alike : Alike l b c) : b.isFull = c.isFull := by
  rw [isFull, isFull, alike.limit_eq, alike.size_eq]

theorem Alike.add (alike : Alike l b c) {d e : Diagnostic} (told : d.Alike l e) :
    Alike l (b.add d) (c.add e) := by
  rw [Bag.add, Bag.add, alike.isFull_eq]
  split
  · exact ⟨alike.items, alike.limit_eq, congrArg (· + 1) alike.dropped_eq⟩
  · refine ⟨?_, alike.limit_eq, alike.dropped_eq⟩
    rw [Array.toList_push, Array.toList_push]
    exact List.rel_append alike.items (.cons told .nil)

theorem Alike.addAll (alike : Alike l b c) {ds es : List Diagnostic}
    (told : List.Forall₂ (Diagnostic.Alike l) ds es) : Alike l (b.addAll ds) (c.addAll es) := by
  induction told generalizing b c with
  | nil => exact alike
  | cons first _ ih => exact ih (alike.add first)

theorem Alike.merge (alike : Alike l b c) {other other' : Bag} (more : Alike l other other') :
    Alike l (b.merge other) (c.merge other') where
  items := by
    rw [Bag.merge, Bag.merge, Array.toList_append, Array.toList_append]
    exact List.rel_append alike.items more.items
  limit_eq := by rw [Bag.merge, Bag.merge, alike.limit_eq, alike.size_eq, more.size_eq]
  dropped_eq := by rw [Bag.merge, Bag.merge, alike.dropped_eq, more.dropped_eq]

end

section

include ordered

theorem seen_alike {ds es : List Diagnostic} (seen : List.Forall₂ (Diagnostic.Alike l) ds es)
    {d e : Diagnostic} (told : d.Alike l e) :
    (ds.map (·.key)).contains d.key = (es.map (·.key)).contains e.key := by
  induction seen with
  | nil => rfl
  | cons first _ ih =>
    rw [List.map_cons, List.map_cons, List.contains_cons, List.contains_cons, ih]
    congr 1
    rw [Bool.eq_iff_iff, beq_iff_eq, beq_iff_eq]
    exact told.key_iff ordered first

theorem distinct_alike {ds es : List Diagnostic} (told : List.Forall₂ (Diagnostic.Alike l) ds es)
    {before before' : List Diagnostic}
    (seen : List.Forall₂ (Diagnostic.Alike l) before before') :
    List.Forall₂ (Diagnostic.Alike l) (distinct (before.map (·.key)) ds)
      (distinct (before'.map (·.key)) es) := by
  induction told generalizing before before' with
  | nil => exact .nil
  | cons first _ ih =>
    unfold distinct
    dsimp only
    rw [seen_alike ordered seen first]
    split
    · exact ih seen
    · exact .cons first (ih (.cons first seen))

theorem Alike.dedup {b c : Bag} (alike : Alike l b c) : Alike l b.dedup c.dedup :=
  { alike with items := distinct_alike ordered alike.items .nil }

theorem mergeSort_alike {ds es : List Diagnostic} (told : List.Forall₂ (Diagnostic.Alike l) ds es) :
    List.Forall₂ (Diagnostic.Alike l) (ds.mergeSort fun x y => !y.before x)
      (es.mergeSort fun x y => !y.before x) := by
  -- Both lists are the two sides of one list of pairs, sorted by either side.
  have length := told.length_eq
  let pairs := ds.zip es
  have alike : ∀ p ∈ pairs, p.1.Alike l p.2 := fun p member =>
    (List.forall₂_iff_zip.mp told).2 member
  let order (p q : Diagnostic × Diagnostic) : Bool := !q.1.before p.1
  have left : (pairs.mergeSort order).map Prod.fst = ds.mergeSort fun x y => !y.before x := by
    have sorted := List.map_mergeSort (f := Prod.fst) (l := pairs) (r := order)
      (s := fun x y => !y.before x) fun _ _ _ _ => rfl
    rw [sorted, List.map_fst_zip (Nat.le_of_eq length)]
  have right : (pairs.mergeSort order).map Prod.snd = es.mergeSort fun x y => !y.before x := by
    have sorted := List.map_mergeSort (f := Prod.snd) (l := pairs) (r := order)
      (s := fun x y => !y.before x)
      fun p here q there => congrArg (!·) ((alike q there).before_eq ordered (alike p here))
    rw [sorted, List.map_snd_zip (Nat.le_of_eq length.symm)]
  rw [← left, ← right, List.forall₂_map_left_iff, List.forall₂_map_right_iff, List.forall₂_same]
  exact fun p member => alike p (List.mem_mergeSort.mp member)

theorem Alike.sort {b c : Bag} (alike : Alike l b c) : Alike l b.sort c.sort :=
  { alike with items := mergeSort_alike ordered alike.items }

end

end Bag

end TreeCheck
