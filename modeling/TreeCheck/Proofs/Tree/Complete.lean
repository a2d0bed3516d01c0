import TreeCheck.Tree.Walk

/-!
Complete trees. Most places of a tree may be left empty, but the elements of a vector and the
operands of an operation are asked for their positions, so they have to be there.
-/

namespace TreeCheck

namespace Node

/-- No element of a vector and no operand of an operation is absent. -/
def Filled : Node → Prop
  | vector _ slots | operation _ _ slots => ∀ slot ∈ slots, slot ≠ none
  | _ => True

def Complete (n : Node) : Prop :=
  ∀ m ∈ n.visits fun _ => true, m.Filled

def AllComplete (nodes : List Node) : Prop :=
  ∀ n ∈ nodes, n.Complete

theorem complete_iff {n : Node} : n.Complete ↔ n.Filled ∧ AllComplete n.children := by
  unfold AllComplete Complete
  rw [visits_eq]
  simp only [↓reduceIte, List.mem_cons, List.mem_flatMap, forall_eq_or_imp]
  constructor
  · rintro ⟨filled, below⟩
    exact ⟨filled, fun child member m found => below m ⟨child, member, found⟩⟩
  · rintro ⟨filled, below⟩
    refine ⟨filled, ?_⟩
    rintro m ⟨child, member, found⟩
    exact below child member m found

theorem Complete.of_children {n : Node} (filled : n.Filled) (below : AllComplete n.children) :
    n.Complete :=
  complete_iff.mpr ⟨filled, below⟩

namespace AllComplete

theorem nil : AllComplete [] :=
  fun _ member => absurd member List.not_mem_nil

theorem single {n : Node} (complete : n.Complete) : AllComplete [n] :=
  fun _ member => List.mem_singleton.mp member ▸ complete

theorem append {xs ys : List Node} (first : AllComplete xs) (second : AllComplete ys) :
    AllComplete (xs ++ ys) :=
  fun n member => (List.mem_append.mp member).elim (first n) (second n)

theorem slot {slot : Option Node} (present : ∀ n ∈ slot, n.Complete) :
    AllComplete slot.toList :=
  fun n member => present n (Option.mem_toList.mp member)

theorem slots {β : Type} {part : β → Option Node} {parts : List β}
    (present : ∀ b ∈ parts, ∀ n ∈ part b, n.Complete) : AllComplete (parts.filterMap part) := by
  intro n member
  obtain ⟨b, among, found⟩ := List.mem_filterMap.mp member
  exact present b among n found

theorem flatMap {β : Type} {part : β → List Node} {parts : List β}
    (present : ∀ b ∈ parts, AllComplete (part b)) : AllComplete (parts.flatMap part) := by
  intro n member
  obtain ⟨b, among, found⟩ := List.mem_flatMap.mp member
  exact present b among n found

theorem map {β : Type} {wrap : β → Node} {parts : List β}
    (present : ∀ b ∈ parts, (wrap b).Complete) : AllComplete (parts.map wrap) := by
  intro n member
  obtain ⟨b, among, rfl⟩ := List.mem_map.mp member
  exact present b among

end AllComplete

end Node

def Tree.Complete (t : Tree) : Prop :=
  ∀ m ∈ t.visits, m.Filled

theorem Tree.complete_iff {t : Tree} :
    t.Complete ↔ ∀ n : Node, some n ∈ t.nodes → n.Complete := by
  unfold Tree.Complete Tree.visits Node.Complete
  simp only [List.mem_flatMap, List.mem_filterMap]
  constructor
  · intro complete n member m found
    exact complete m ⟨n, ⟨some n, member, rfl⟩, found⟩
  · rintro complete m ⟨n, ⟨slot, member, rfl⟩, found⟩
    exact complete n member m found

end TreeCheck
