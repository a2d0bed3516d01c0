import TreeCheck.Proofs.Context.Retained
import TreeCheck.Proofs.Ty.Inside

/-!
Types that a context knows: every object type inside them is, as it stands, the one registered under
its name. What is built from known types is known, what is taken out of a known type is known, and
a known type stays known, since a registered type is never replaced.

A registry in which every object type stands under its own name, with super types that are
registered themselves, knows all its entries.
-/

namespace TreeCheck.Context

variable {ctx next : Context}

/-- Every object type inside the type is the one registered under its name. -/
def Knows (ctx : Context) (ty : Ty) : Prop :=
  ∀ part, part.Inside ty → part.kind = .object → ctx.typeNamed part.objectName = some part

namespace Knows

variable {a b : Ty}

theorem hereditary (ctx : Context) : Ty.Hereditary ctx.Knows where
  ofKind other := by
    intro part inside object
    rw [inside.of_ofKind] at object
    exact absurd object other
  vector known := by
    intro part inside object
    rcases inside.of_vector with rfl | inner
    · exact absurd object (show Kind.vector ≠ .object by decide)
    · exact known part inner object
  lambda result all := by
    intro part inside object
    rcases inside.of_lambda with rfl | inner | ⟨arg, member, inner⟩
    · exact absurd object (show Kind.lambda ≠ .object by decide)
    · exact result part inner object
    · exact all arg member part inner object
  inside known part := fun inner deeper => known inner (deeper.trans part)

theorem inside (known : ctx.Knows a) (part : b.Inside a) : ctx.Knows b :=
  (hereditary ctx).inside known part

theorem ofKind {k : Kind} (other : k ≠ .object) : ctx.Knows (.ofKind k) :=
  (hereditary ctx).ofKind other

theorem unresolved : ctx.Knows .unresolved :=
  (hereditary ctx).unresolved

theorem vector (known : ctx.Knows a) : ctx.Knows (.vector a) :=
  (hereditary ctx).vector known

theorem lambda {args : List Ty} (result : ctx.Knows a) (all : ∀ arg ∈ args, ctx.Knows arg) :
    ctx.Knows (.lambda a args) :=
  (hereditary ctx).lambda result all

theorem elemType (known : ctx.Knows a) : ctx.Knows a.elemType :=
  (hereditary ctx).elemType known

theorem resultType (known : ctx.Knows a) : ctx.Knows a.resultType :=
  (hereditary ctx).resultType known

theorem arg (known : ctx.Knows a) (member : b ∈ a.params) : ctx.Knows b :=
  (hereditary ctx).arg known member

theorem join {types : List Ty} (all : ∀ ty ∈ types, ctx.Knows ty) : ctx.Knows (Ty.join types) :=
  (hereditary ctx).join all

theorem ite {c : Prop} [Decidable c] (yes : ctx.Knows a) (no : ctx.Knows b) :
    ctx.Knows (if c then a else b) := by
  split
  · exact yes
  · exact no

theorem mono (known : ctx.Knows a) (grown : ctx.Extends next) : next.Knows a :=
  fun part inside object => grown.types _ _ (known part inside object)

end Knows

/-! ### The registry -/

def builtinTypes : List (Handle × Ty) :=
  [(.int, .integer), (.float, .float), (.bool, .boolean), (.string, .string), (.nil, .nil)]

theorem find?_builtins {name : Handle} {ty : Ty} :
    builtins.find? name = some ty ↔ (name, ty) ∈ builtinTypes := by
  have entries : builtins.entries = builtinTypes := rfl
  rw [Table.find?, entries]
  simp only [builtinTypes, Table.lookup, List.mem_cons, List.not_mem_nil, Prod.mk.injEq]
  grind [Handle.int, Handle.float, Handle.bool, Handle.string, Handle.nil]

/-- The types of the registry are the built-in ones and object types under their own names, with
super types that are in the registry too. -/
def WellNamed (ctx : Context) : Prop :=
  ∀ name ty, ctx.typeNamed name = some ty → (name, ty) ∈ builtinTypes ∨
    ∃ supers, ty = .object name supers ∧
      ∀ super ∈ supers, ctx.typeNamed super.objectName = some super

theorem wellNamed_fresh : fresh.WellNamed :=
  fun _ _ found => .inl (find?_builtins.mp found)

theorem kind_of_builtin {name : Handle} {ty : Ty} (builtin : (name, ty) ∈ builtinTypes) :
    ∃ k : Kind, ty = .ofKind k ∧ k ≠ .object := by
  simp only [builtinTypes, List.mem_cons, Prod.mk.injEq, List.not_mem_nil, or_false] at builtin
  rcases builtin with ⟨_, rfl⟩ | ⟨_, rfl⟩ | ⟨_, rfl⟩ | ⟨_, rfl⟩ | ⟨_, rfl⟩
  all_goals exact ⟨_, rfl, by decide⟩

namespace WellNamed

variable (named : ctx.WellNamed)
include named

theorem object {name : Handle} {ty : Ty} (found : ctx.typeNamed name = some ty)
    (object : ty.kind = .object) : ∃ supers, ty = .object name supers ∧
      ∀ super ∈ supers, ctx.typeNamed super.objectName = some super := by
  rcases named name ty found with builtin | registered
  · obtain ⟨k, rfl, other⟩ := kind_of_builtin builtin
    exact absurd object other
  · exact registered

theorem kind_of_objectName {ty : Ty} (found : ctx.typeNamed ty.objectName = some ty) :
    ty.kind = .object := by
  rcases named _ ty found with builtin | ⟨supers, same, _⟩
  · obtain ⟨k, rfl, other⟩ := kind_of_builtin builtin
    have nameless : (Ty.ofKind k).objectName = Handle.none := if_neg other
    rw [nameless] at builtin
    have none : Handle.none ∉ builtinTypes.map (·.1) := by decide
    exact absurd (List.mem_map_of_mem builtin) none
  · rw [same]
    rfl

theorem knows {name : Handle} {ty : Ty} (found : ctx.typeNamed name = some ty) : ctx.Knows ty := by
  intro part inside object
  -- On the way down from an entry there are only entries: super types of object types.
  induction inside generalizing name with
  | self =>
    obtain ⟨supers, same, _⟩ := named.object found object
    rwa [show part.objectName = name by rw [same]; rfl]
  | @elem ty elem payload _ _ =>
    rcases named name ty found with builtin | ⟨supers, rfl, _⟩
    · obtain ⟨k, rfl, _⟩ := kind_of_builtin builtin
      cases payload
    · cases payload
  | @super ty super member _ ih =>
    rcases named name ty found with builtin | ⟨supers, rfl, above⟩
    · obtain ⟨k, rfl, _⟩ := kind_of_builtin builtin
      cases member
    · exact ih (above super member)
  | @result ty result payload _ _ =>
    rcases named name ty found with builtin | ⟨supers, rfl, _⟩
    · obtain ⟨k, rfl, _⟩ := kind_of_builtin builtin
      cases payload
    · cases payload
  | @arg ty arg member _ _ =>
    rcases named name ty found with builtin | ⟨supers, rfl, _⟩
    · obtain ⟨k, rfl, _⟩ := kind_of_builtin builtin
      cases member
    · cases member

theorem register {name : Handle} {supers : List Ty}
    (above : ∀ super ∈ supers, ctx.typeNamed super.objectName = some super)
    (registered : ctx.register name (.object name supers) = .ok next) : next.WellNamed := by
  have grown := Extends.of_register registered
  obtain ⟨_, rfl⟩ := register_ok registered
  intro other ty found
  rw [typeNamed, Table.find?_insert] at found
  split at found
  next same =>
    cases found
    subst same
    exact .inr ⟨supers, rfl, fun super member => grown.types _ _ (above super member)⟩
  next =>
    refine (named other ty found).imp_right ?_
    rintro ⟨others, rfl, kept⟩
    exact ⟨others, rfl, fun super member => grown.types _ _ (kept super member)⟩

end WellNamed

theorem WellNamed.of_types_eq (named : ctx.WellNamed) (same : next.types = ctx.types) :
    next.WellNamed := by
  intro name ty found
  simp only [typeNamed, same] at found ⊢
  exact named name ty found

end TreeCheck.Context
