import TreeCheck.Proofs.Check.Registry

/-!
Members of object types. A definition adds its members to the table of the type that it names,
whether the type was registered by it or before. So the members of a type are those of all
definitions of its name that were checked, and of two members of one name the first one counts. They
are those of its first definition alone where no other definition has its name.
-/

namespace TreeCheck

def Tree.DefinesOnce (t : Tree) : Prop :=
  ∀ n ∈ t.visits, ∀ m ∈ t.visits, ∀ name place other,
    n.defines? = some (name, place) → m.defines? = some (name, other) → n = m

namespace Check

/-- A definition of an object type was begun, and it has a member of the name. -/
def Offers (moves : List Move) (owner name : Handle) : Prop :=
  ∃ n ty place, .register n owner ty place ∈ moves ∧ name ∈ n.memberNames

theorem State.member_ne_none_iff (s : State) (ty : Ty) (name : Handle) :
    s.member ty name ≠ none ↔
      ∃ part ∈ ty :: ty.supers, s.memberOf part.objectName name ≠ none := by
  unfold member
  cases own : s.memberOf ty.objectName name with
  | some found => simp [own]
  | none => simp [own, List.findSome?_eq_none_iff]

section

variable {env : Env} {source : Node → Prop} {moves : List Move} {owner name : Handle} {ty : Ty}

theorem Course.register_said (course : Course env source moves) {n : Node} {place : Span}
    (made : .register n owner ty place ∈ moves) :
    source n ∧ n.defines? = some (owner, place) := by
  induction moves with
  | nil => cases made
  | cons move past ih =>
    rcases List.mem_cons.mp made with rfl | old
    · cases course.2 with
      | register node said above => exact ⟨node, said⟩
    · exact ih course.1 old

theorem Course.member_offered (course : Course env source moves)
    (found : (reached env moves).memberOf owner name = some ty) : Offers moves owner name := by
  induction moves with
  | nil => cases found
  | cons move past ih =>
    have before : Offers past owner name := by
      rcases State.memberOf_of_take env _ found with old | ⟨span, rfl⟩
      · exact ih course.1 old
      · cases course.2 with
        | @addMember n _ _ _ defined place _ definition said known =>
          exact ⟨n, defined, place, definition, said⟩
    obtain ⟨n, defined, place, made, said⟩ := before
    exact ⟨n, defined, place, List.mem_cons_of_mem _ made, said⟩

theorem History.memberOf_iff {h : History env source}
    (settled : ∀ n name ty span, .register n name ty span ∈ h.moves → h.Settled n name) :
    h.state.memberOf owner name ≠ none ↔ Offers h.moves owner name := by
  constructor
  · intro there
    obtain ⟨ty, found⟩ := Option.ne_none_iff_exists'.mp there
    exact h.lawful.member_offered found
  · rintro ⟨n, ty, place, made, said⟩
    exact settled n owner ty place made name said

theorem DefinedBy.made {n : Node} {place : Span} (defined : DefinedBy env moves n owner ty place) :
    .register n owner ty place ∈ moves := by
  obtain ⟨before, part, _⟩ := defined
  exact part.mem List.mem_cons_self

end

section

variable {env : Env} {t : Tree} {h : History env (· ∈ t.visits)} {owner name : Handle} {ty : Ty}

theorem History.memberOf_once (once : t.DefinesOnce)
    (settled : ∀ n name ty span, .register n name ty span ∈ h.moves → h.Settled n name)
    (found : h.state.ctx.typeNamed owner = some ty) (object : ty.kind = .object) :
    h.state.memberOf owner name ≠ none ↔
      ∃ n place, DefinedBy env h.moves n owner ty place ∧ name ∈ n.memberNames := by
  rw [memberOf_iff settled]
  constructor
  · rintro ⟨n, other, place, made, said⟩
    obtain ⟨m, first, defined, _⟩ := object_defined found object
    obtain ⟨nodeN, saidN⟩ := h.lawful.register_said made
    obtain ⟨nodeM, saidM⟩ := h.lawful.register_said defined.made
    have same : n = m := once n nodeN m nodeM owner place first saidN saidM
    exact ⟨m, first, defined, same ▸ said⟩
  · rintro ⟨n, place, defined, said⟩
    exact ⟨n, ty, place, defined.made, said⟩

end

/-- The members after a check on the fresh context. One that was added stays as it is, and it is one
of a definition of the type that was begun before. When the check has ended, a type has the members
of all definitions of its name, the rejected ones included; where no name is defined twice, the
members that are found for an object type are those of its definition and of the definitions of its
direct super types. -/
theorem members_come_from_all_definitions (env : Env) (t : Tree) :
    treeUntil env (fun _ _ => false) t = tree env t ∧
    ∀ halt, ∃ h : History env (· ∈ t.visits),
      h.state = endState (treeUntil env halt t) (.start .fresh) ∧
      (∀ past, past <:+ h.moves → ∀ owner name ty,
        (reached env past).memberOf owner name = some ty →
          h.state.memberOf owner name = some ty ∧ Offers past owner name) ∧
      ∀ u, (treeUntil env halt t).run (.start .fresh) = .ok () u →
        (∀ owner name, u.memberOf owner name ≠ none ↔ Offers h.moves owner name) ∧
        (t.DefinesOnce → ∀ owner ty name, u.ctx.typeNamed owner = some ty → ty.kind = .object →
          (u.member ty name ≠ none ↔ ∃ part ∈ ty :: ty.supers, ∃ n place,
            DefinedBy env h.moves n part.objectName part place ∧ name ∈ n.memberNames)) := by
  refine ⟨treeUntil_never env t, fun halt => ?_⟩
  obtain ⟨h, reaches, finished⟩ := tree_history env halt t
  refine ⟨h, reaches, fun past part owner name ty found => ?_, fun u ends => ?_⟩
  · exact ⟨reached_memberOf env part found, (h.lawful.earlier part).member_offered found⟩
  have settled := finished u ends
  have same : h.state = u := by rw [reaches, endState, ends]
  subst same
  refine ⟨fun owner name => History.memberOf_iff settled, ?_⟩
  intro once owner ty name found object
  have named : h.state.ctx.WellNamed := h.lawful.wellNamed
  obtain ⟨supers, rfl, above⟩ := named.object found object
  have parts : ∀ part ∈ Ty.object owner supers :: supers,
      h.state.ctx.typeNamed part.objectName = some part :=
    List.forall_mem_cons.mpr ⟨found, above⟩
  rw [State.member_ne_none_iff]
  refine exists_congr fun part => and_congr_right fun member => ?_
  have registered := parts part member
  exact History.memberOf_once once settled registered (named.kind_of_objectName registered)

/-! ### A rejected definition -/

def firstDefinition : Node :=
  .struct ⟨0, 1, 1, 3⟩ 14 [⟨⟨1, 1, 24⟩, 15, [], Handle.int, none⟩]

/-- A definition of the same name, with a string for the same field and with one more field. -/
def secondDefinition : Node :=
  .struct ⟨1, 1, 2, 3⟩ 14
    [⟨⟨1, 2, 24⟩, 15, [], Handle.string, none⟩, ⟨⟨1, 2, 49⟩, 16, [], Handle.int, none⟩]

def building : Node :=
  .create ⟨3, 1, 3, 3⟩ 14 [⟨16, some (.integer ⟨2, 1, 3, 36⟩ 1)⟩]

def pointEnv : Env :=
  ⟨⟨Interner.fresh.names ++ [text "P", text "x", text "y"]⟩, ⟨false, false⟩⟩

def treeOf (nodes : List Node) : Tree :=
  ⟨1, text "t.yaml", nodes.map some⟩

def checked (nodes : List Node) : State :=
  endState (tree pointEnv (treeOf nodes)) (.start .fresh)

theorem checked_eq {nodes : List Node} {count : Nat}
    (visits : (treeOf nodes).visits.length = count) :
    checked nodes = endState ((nodes.map some).forM fun n => discard (expr pointEnv (count + 1) n))
      (.start .fresh) := by
  rw [checked, tree, visits]
  rfl

/-- The second definition is rejected, and yet the type has its second field afterwards, so that an
object may be built with it; its first field is reported as a repeated member. -/
theorem rejected_definition_adds_member :
    (checked [firstDefinition]).memberOf 14 16 = none ∧
    (checked [firstDefinition, secondDefinition]).memberOf 14 16 = some .integer ∧
    (checked [firstDefinition, building]).emitted.toList.map (·.code) = [.unknownMember] ∧
    (checked [firstDefinition, secondDefinition, building]).emitted.toList.map (·.code) =
      [.typeRedefined, .duplicateBinding] := by
  have one : (treeOf [firstDefinition]).visits.length = 1 := by
    simp [Tree.visits, treeOf, firstDefinition, Node.visits_eq, Node.children]
  have both : (treeOf [firstDefinition, secondDefinition]).visits.length = 2 := by
    simp [Tree.visits, treeOf, firstDefinition, secondDefinition, Node.visits_eq, Node.children]
  have used : (treeOf [firstDefinition, building]).visits.length = 3 := by
    simp [Tree.visits, treeOf, firstDefinition, building, Node.visits_eq, Node.children]
  have all : (treeOf [firstDefinition, secondDefinition, building]).visits.length = 4 := by
    simp [Tree.visits, treeOf, firstDefinition, secondDefinition, building, Node.visits_eq,
      Node.children]
  rw [checked_eq one, checked_eq both, checked_eq used, checked_eq all]
  refine ⟨rfl, rfl, rfl, ?_⟩
  decide +kernel

end Check

end TreeCheck
