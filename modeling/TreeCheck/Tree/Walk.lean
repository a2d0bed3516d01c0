import TreeCheck.Tree

/-!
Walks over a tree: a node before what is below it, and siblings in the order of the source. A node
below another one is smaller, which is why walks end.
-/

namespace TreeCheck.Node

theorem sizeOf_lt_of_mem_toList {slot : Option Node} {child : Node} (below : child ∈ slot.toList) :
    sizeOf child < sizeOf slot := by
  cases slot with
  | none => simp at below
  | some n => simp at below; subst below; simp

theorem sizeOf_lt_of_mem_filterMap {β : Type} [SizeOf β] {slot : β → Option Node} {parts : List β}
    {child : Node} (smaller : ∀ part n, slot part = some n → sizeOf n < sizeOf part)
    (below : child ∈ parts.filterMap slot) : sizeOf child < sizeOf parts := by
  obtain ⟨part, member, found⟩ := List.mem_filterMap.1 below
  have := List.sizeOf_lt_of_mem member
  have := smaller part child found
  omega

theorem sizeOf_lt_of_mem_ofArguments {args : List (Argument Node)} {child : Node}
    (below : child ∈ ofArguments args) : sizeOf child < sizeOf args :=
  sizeOf_lt_of_mem_filterMap
    (fun part n found => by cases part; simp at found; subst found; simp; omega) below

theorem sizeOf_lt_of_mem_ofAccessors {accessors : List (Accessor Node)} {child : Node}
    (below : child ∈ ofAccessors accessors) : sizeOf child < sizeOf accessors := by
  obtain ⟨accessor, member, found⟩ := List.mem_flatMap.1 below
  have := List.sizeOf_lt_of_mem member
  have := sizeOf_lt_of_mem_ofArguments found
  cases accessor
  simp at *
  omega

theorem sizeOf_lt_of_mem_branch {branch : Branch Node} {child : Node}
    (below : child ∈ branch.guard.toList ++ branch.body.toList) :
    sizeOf child < sizeOf branch := by
  cases branch
  rcases List.mem_append.1 below with found | found <;>
    · have := sizeOf_lt_of_mem_toList found
      simp at *
      omega

theorem sizeOf_lt_of_mem_ofBranches {branches : List (Branch Node)} {child : Node}
    (below : child ∈ ofBranches branches) : sizeOf child < sizeOf branches := by
  obtain ⟨branch, member, found⟩ := List.mem_flatMap.1 below
  have := List.sizeOf_lt_of_mem member
  have := sizeOf_lt_of_mem_branch found
  omega

theorem sizeOf_lt_of_mem_fields {fields : List (Field Node)} {child : Node}
    (below : child ∈ fields.filterMap (·.default)) : sizeOf child < sizeOf fields :=
  sizeOf_lt_of_mem_filterMap
    (fun part n found => by cases part; simp at found; subst found; simp; omega) below

theorem sizeOf_lt_of_mem_params {params : List (Param Node)} {child : Node}
    (below : child ∈ params.filterMap (·.default)) : sizeOf child < sizeOf params :=
  sizeOf_lt_of_mem_filterMap
    (fun part n found => by cases part; simp at found; subst found; simp; omega) below

theorem sizeOf_lt_of_mem_initializers {args : List (Initializer Node)} {child : Node}
    (below : child ∈ args.filterMap (·.value)) : sizeOf child < sizeOf args :=
  sizeOf_lt_of_mem_filterMap
    (fun part n found => by cases part; simp at found; subst found; simp; omega) below

theorem sizeOf_lt_of_mem_slots {slots : List (Option Node)} {child : Node}
    (below : child ∈ slots.filterMap (·)) : sizeOf child < sizeOf slots :=
  sizeOf_lt_of_mem_filterMap (fun part n found => by subst found; simp) below

theorem sizeOf_lt_of_mem_children {child n : Node} (below : child ∈ n.children) :
    sizeOf child < sizeOf n := by
  cases n with
  | integer | float | boolean | string | quote | nil | pair | ident | foreign =>
    simp [children] at below
  | vector _ slots | block _ slots | list _ _ slots | operation _ _ slots =>
    have := sizeOf_lt_of_mem_slots below
    simp
    omega
  | define _ _ _ slot _ | assign _ _ slot | print _ slot =>
    have := sizeOf_lt_of_mem_toList below
    simp
    omega
  | lambda l =>
    cases l
    rcases List.mem_append.1 below with found | found
    · have := sizeOf_lt_of_mem_params found
      simp at *
      omega
    · have := sizeOf_lt_of_mem_toList found
      simp at *
      omega
  | function f =>
    obtain ⟨site, name, lambda⟩ := f
    cases lambda with
    | none => simp [children] at below
    | some l => simp [children] at below; subst below; simp; omega
  | struct _ _ fields =>
    have := sizeOf_lt_of_mem_fields below
    simp
    omega
  | cls site c =>
    obtain ⟨name, supers, params, fields, init, methods, a, b, c, d⟩ := c
    simp only [children, List.mem_append, List.mem_map] at below
    rcases below with
      ((found | ⟨l, member, rfl⟩) | ⟨f, member, rfl⟩) | ((found | found) | found) | found
    · have := sizeOf_lt_of_mem_fields found; simp; omega
    · have := List.sizeOf_lt_of_mem member; simp; omega
    · have := List.sizeOf_lt_of_mem member; simp; omega
    all_goals
      have := sizeOf_lt_of_mem_toList found
      simp
      omega
  | cond site branch otherwise =>
    rcases List.mem_append.1 below with found | found
    · have := sizeOf_lt_of_mem_branch found; simp; omega
    · have := sizeOf_lt_of_mem_toList found; simp; omega
  | conds site branches otherwise =>
    rcases List.mem_append.1 below with found | found
    · have := sizeOf_lt_of_mem_ofBranches found; simp; omega
    · have := sizeOf_lt_of_mem_toList found; simp; omega
  | loop _ first second _ | cons _ first second | random _ _ first second
  | access _ first _ second =>
    rcases List.mem_append.1 below with found | found <;>
      · have := sizeOf_lt_of_mem_toList found
        simp
        omega
  | call _ _ args | construct _ _ args =>
    have := sizeOf_lt_of_mem_ofArguments below
    simp
    omega
  | invoke _ callee accessors args =>
    simp only [children, List.mem_append] at below
    rcases below with (found | found) | found
    · have := sizeOf_lt_of_mem_toList found; simp; omega
    · have := sizeOf_lt_of_mem_ofAccessors found; simp; omega
    · have := sizeOf_lt_of_mem_ofArguments found; simp; omega
  | member c =>
    cases c
    have := sizeOf_lt_of_mem_ofAccessors below
    simp at *
    omega
  | assignMember site target value =>
    rcases List.mem_append.1 below with found | found
    · cases target with
      | none => simp at found
      | some c => simp at found; subst found; simp; omega
    · have := sizeOf_lt_of_mem_toList found; simp; omega
  | create _ _ args =>
    have := sizeOf_lt_of_mem_initializers below
    simp
    omega

/-- The node and everything below it; nothing below a node for which `descend` is false. -/
def visits (descend : Node → Bool) (n : Node) : List Node :=
  n :: if descend n then
    n.children.attach.flatMap fun ⟨child, below⟩ =>
      have := sizeOf_lt_of_mem_children below
      visits descend child
  else []
termination_by sizeOf n

def count (n : Node) : Nat :=
  (n.visits fun _ => true).length

theorem visits_eq (descend : Node → Bool) (n : Node) :
    n.visits descend = n :: if descend n then n.children.flatMap (visits descend) else [] := by
  rw [visits]
  simp [List.flatMap_subtype]

end TreeCheck.Node

namespace TreeCheck.Tree

def visits (t : Tree) : List Node :=
  (t.nodes.filterMap (·)).flatMap fun n => n.visits fun _ => true

end TreeCheck.Tree
