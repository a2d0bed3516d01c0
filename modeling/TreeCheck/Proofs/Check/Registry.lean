import Mathlib.Logic.Relation
import TreeCheck.Proofs.Check.Histories

/-!
Object types during a check. At every point of a run each object type, at whatever depth inside a
type of the state, is the registered one of its name; and above a registered type there are only
types that were registered before it. So no object type stands above itself, and a written type that
names an object type resolves to nothing: it is answered with a warning that shows where the type
was defined.
-/

namespace TreeCheck.Check

/-! ### Names and object types -/

/-- Object types are told apart by their names: inside all types of the state there is one of each
name, which is the registered one. -/
structure State.Nominal (s : State) : Prop where
  registered : ∀ ty part, s.Holds ty → part.Inside ty → part.kind = .object →
    s.ctx.typeNamed part.objectName = some part
  equal_of_name : ∀ a b part other, s.Holds a → s.Holds b → part.Inside a → other.Inside b →
    part.kind = .object → other.kind = .object → part.objectName = other.objectName →
      Ty.equal part other = true

section

variable {env : Env} {source : Node → Prop} {past moves : List Move}

theorem Course.nominal (course : Course env source moves) : (reached env moves).Nominal := by
  have registered : ∀ ty part, (reached env moves).Holds ty → part.Inside ty →
      part.kind = .object → (reached env moves).ctx.typeNamed part.objectName = some part :=
    fun ty part held inside object => course.knows held part inside object
  refine ⟨registered, ?_⟩
  intro a b part other heldA heldB insideA insideB objectA objectB same
  have first := registered a part heldA insideA objectA
  have second := registered b other heldB insideB objectB
  rw [same, second] at first
  cases first
  exact Ty.equal_self part

end

/-- In a check of a tree on the fresh context, wherever it is broken off, object types are nominal
after every move. -/
theorem objects_are_nominal (env : Env) (t : Tree) :
    treeUntil env (fun _ _ => false) t = tree env t ∧
    ∀ halt, ∃ h : History env (· ∈ t.visits),
      h.state = endState (treeUntil env halt t) (.start .fresh) ∧
      ∀ past, past <:+ h.moves → (reached env past).Nominal := by
  refine ⟨treeUntil_never env t, fun halt => ?_⟩
  obtain ⟨h, reaches, _⟩ := tree_history env halt t
  exact ⟨h, reaches, fun past part => (h.lawful.earlier part).nominal⟩

/-! ### Definitions of types -/

/-- The type came into the registry by this definition, made when its name was free. -/
def DefinedBy (env : Env) (past : List Move) (n : Node) (name : Handle) (ty : Ty) (place : Span) :
    Prop :=
  ∃ before, .register n name ty place :: before <:+ past ∧
    (reached env before).ctx.typeNamed name = none

/-- The first name is that of a direct super type of the type with the second one. -/
def State.SuperOf (s : State) (upper lower : Handle) : Prop :=
  ∃ ty, s.ctx.typeNamed lower = some ty ∧ ∃ super ∈ ty.supers, super.objectName = upper

section

variable {env : Env} {source : Node → Prop} {past moves : List Move} {name : Handle} {ty : Ty}

theorem DefinedBy.later {n : Node} {place : Span} (defined : DefinedBy env past n name ty place)
    (part : past <:+ moves) : DefinedBy env moves n name ty place := by
  obtain ⟨before, made, free⟩ := defined
  exact ⟨before, made.trans part, free⟩

/-- A move leaves the type of a name and the position of its definition as they are, or it is the
definition that gives the free name its type. -/
theorem State.take_typeNamed (env : Env) (s : State) (move : Move) (name : Handle) :
    ((s.take env move).ctx.typeNamed name = s.ctx.typeNamed name ∧
      (s.take env move).defined.find? name = s.defined.find? name) ∨
    ∃ n ty place, move = .register n name ty place ∧ s.ctx.typeNamed name = none ∧
      (s.take env move).ctx.typeNamed name = some ty ∧
      (s.take env move).defined.find? name = some place := by
  by_cases defines : ∃ n other ty place, move = .register n other ty place
  · obtain ⟨n, other, ty, place, rfl⟩ := defines
    rw [take_register, registering]
    split
    next next accepted =>
      obtain ⟨free, rfl⟩ := Context.register_ok accepted
      by_cases same : name = other
      · subst same
        exact .inr ⟨n, ty, place, rfl, free, by simp [Context.typeNamed, Table.find?_insert],
          by simp [Table.find?_insert]⟩
      · exact .inl (by simp [Context.typeNamed, Table.find?_insert, same])
    next => exact .inl ⟨rfl, rfl⟩
  · obtain ⟨places, types⟩ := (take_frame env s move).registry_eq
      fun n other ty place same => defines ⟨n, other, ty, place, same⟩
    exact .inl ⟨by simp only [Context.typeNamed, types], by rw [places]⟩

/-- A registered type is built in, and then no position is kept for it, or was defined, and then the
position of its definition is kept. -/
theorem registered_traced (found : (reached env moves).ctx.typeNamed name = some ty) :
    ((name, ty) ∈ Context.builtinTypes ∧ (reached env moves).defined.find? name = none) ∨
    ∃ n place, DefinedBy env moves n name ty place ∧
      (reached env moves).defined.find? name = some place := by
  induction moves with
  | nil => exact .inl ⟨Context.find?_builtins.mp found, rfl⟩
  | cons move past ih =>
    rw [reached] at found ⊢
    rcases State.take_typeNamed env (reached env past) move name with
      ⟨types, places⟩ | ⟨n, ty', place, rfl, free, registered, placed⟩
    · rw [types] at found
      rw [places]
      refine (ih found).imp_right ?_
      rintro ⟨n, place, defined, kept⟩
      exact ⟨n, place, defined.later (List.suffix_cons move past), kept⟩
    · rw [registered] at found
      cases found
      exact .inr ⟨n, place, ⟨past, List.suffix_refl _, free⟩, placed⟩

/-- A definition that a lawful history made: of a node of the source, and above types that were
registered when its own name was still free. -/
theorem Course.definition (course : Course env source moves) {n : Node} {place : Span}
    (defined : DefinedBy env moves n name ty place) :
    source n ∧ n.defines? = some (name, place) ∧ ∃ before, before <:+ moves ∧
      (reached env before).ctx.typeNamed name = none ∧
      ∀ super ∈ ty.supers, (reached env before).ctx.typeNamed super.objectName = some super := by
  obtain ⟨before, made, free⟩ := defined
  cases (course.earlier made).2 with
  | register node said above =>
    exact ⟨node, said, before, (List.suffix_cons _ before).trans made, free, above⟩

theorem object_defined (found : (reached env moves).ctx.typeNamed name = some ty)
    (object : ty.kind = .object) : ∃ n place, DefinedBy env moves n name ty place ∧
      (reached env moves).defined.find? name = some place := by
  refine (registered_traced found).resolve_left ?_
  rintro ⟨builtin, _⟩
  obtain ⟨k, rfl, other⟩ := Context.kind_of_builtin builtin
  exact other object

variable (course : Course env source moves)
include course

/-- Above a registered object type there are types that were registered when its name was free, and
none of its own name. -/
theorem Course.supers_earlier (found : (reached env moves).ctx.typeNamed name = some ty)
    (object : ty.kind = .object) {super : Ty} (member : super ∈ ty.supers) :
    super.objectName ≠ name ∧ ∃ before, before <:+ moves ∧
      (reached env before).ctx.typeNamed super.objectName = some super ∧
      (reached env before).ctx.typeNamed name = none := by
  obtain ⟨n, place, defined, _⟩ := object_defined found object
  obtain ⟨_, _, before, part, free, above⟩ := course.definition defined
  refine ⟨?_, before, part, above super member, free⟩
  intro same
  have registered := above super member
  rw [same, free] at registered
  cases registered

theorem Course.above_smaller {upper lower : Handle}
    (above : Relation.TransGen (reached env moves).SuperOf upper lower)
    (found : (reached env moves).ctx.typeNamed lower = some ty) :
    ∃ higher, (reached env moves).ctx.typeNamed upper = some higher ∧
      sizeOf higher < sizeOf ty := by
  have step {a b : Handle} {ty : Ty} (direct : (reached env moves).SuperOf a b)
      (found : (reached env moves).ctx.typeNamed b = some ty) :
      ∃ super, (reached env moves).ctx.typeNamed a = some super ∧ sizeOf super < sizeOf ty := by
    obtain ⟨same, entry, super, member, rfl⟩ := direct
    rw [found] at entry
    cases entry
    refine ⟨super, ?_, Ty.sizeOf_lt_of_mem_supers member⟩
    rcases course.wellNamed b ty found with builtin | ⟨supers, rfl, registered⟩
    · obtain ⟨k, rfl, _⟩ := Context.kind_of_builtin builtin
      cases member
    · exact registered super member
  induction above generalizing ty with
  | single direct => exact step direct found
  | tail _ direct ih =>
    obtain ⟨middle, entry, smaller⟩ := step direct found
    obtain ⟨higher, top, less⟩ := ih entry
    exact ⟨higher, top, Nat.lt_trans less smaller⟩

theorem Course.acyclic : ¬ Relation.TransGen (reached env moves).SuperOf name name := by
  intro cycle
  obtain ⟨_, _, ty, found, _⟩ := Relation.TransGen.tail'_iff.mp cycle
  obtain ⟨higher, entry, smaller⟩ := course.above_smaller cycle found
  rw [found] at entry
  cases entry
  exact Nat.lt_irrefl _ smaller

/-! ### Written types -/

/-- A written name of an object type resolves to nothing, since no super type has that name. -/
theorem Course.resolve_object (found : (reached env moves).ctx.typeNamed name = some ty)
    (object : ty.kind = .object) : (reached env moves).ctx.resolve name = .ok .unresolved := by
  have none : ty.supers.find? (fun s => s.kind = .object && s.objectName = name) = none := by
    refine List.find?_eq_none.mpr fun super member => ?_
    simp [(course.supers_earlier found object member).1]
  rw [Context.typeNamed] at found
  rw [Context.resolve, found]
  simp only [object, if_true, none, Option.getD_none]

omit course in
theorem resolve_builtin (ctx : Context) (builtin : (name, ty) ∈ Context.builtinTypes)
    (found : ctx.typeNamed name = some ty) :
    name.isValid = true ∧ ty.isResolved = true ∧ ctx.resolve name = .ok ty := by
  rw [Context.typeNamed] at found
  rw [Context.resolve, found]
  simp only [Context.builtinTypes, List.mem_cons, Prod.mk.injEq, List.not_mem_nil,
    or_false] at builtin
  rcases builtin with ⟨rfl, rfl⟩ | ⟨rfl, rfl⟩ | ⟨rfl, rfl⟩ | ⟨rfl, rfl⟩ | ⟨rfl, rfl⟩
  all_goals exact ⟨by decide, by decide, rfl⟩

/-- What is said about a written type: nothing where it is absent or built in, else that it does not
resolve. -/
theorem Course.resolved (span : Span) :
    (name.isValid = false ∧ (reached env moves).resolved env name span = (.unresolved, none)) ∨
    (∃ ty, (reached env moves).ctx.typeNamed name = some ty ∧ (name, ty) ∈ Context.builtinTypes ∧
      (reached env moves).resolved env name span = (ty, none)) ∨
    (∃ ty, (reached env moves).ctx.typeNamed name = some ty ∧ ty.kind = .object ∧
      (reached env moves).resolved env name span =
        (.unresolved, some (unresolvedObject env (reached env moves) name span))) ∨
    (reached env moves).ctx.typeNamed name = none ∧
      (reached env moves).resolved env name span = (.unresolved,
        some (.error .unresolvedType span (text "unknown type " ++ env.name name))) := by
  unfold State.resolved
  cases valid : name.isValid with
  | false => exact .inl ⟨rfl, rfl⟩
  | true =>
    simp only [Bool.not_true, Bool.false_eq_true, if_false]
    cases found : (reached env moves).ctx.typeNamed name with
    | none =>
      have none : (reached env moves).ctx.resolve name = .ok .unresolved := by
        rw [Context.typeNamed] at found
        rw [Context.resolve, found]
      rw [none]
      exact .inr (.inr (.inr ⟨rfl, rfl⟩))
    | some ty =>
      rcases course.wellNamed name ty found with builtin | ⟨supers, rfl, _⟩
      · obtain ⟨_, known, resolves⟩ := resolve_builtin _ builtin found
        rw [resolves]
        simp only [known, if_true]
        exact .inr (.inl ⟨ty, rfl, builtin, rfl⟩)
      · rw [course.resolve_object found rfl]
        exact .inr (.inr (.inl ⟨_, rfl, rfl, rfl⟩))

end

/-! ### What is told -/

def Move.codes : Move → List Code
  | .report .. => plainCodes ++ [.unresolvedType]
  | .declare .. => [.globalRedefined, .shadowing, .duplicateBinding]
  | .register .. => [.typeRedefined]
  | .resolve .. => [.unresolvedType]
  | .addMember .. => [.duplicateBinding]
  | .record .. | .annotate .. | .enter | .leave => []

section

variable {env : Env} {source : Node → Prop} {past moves : List Move} {move : Move}
  {d : Diagnostic}

/-- A declaration deserves a warning for what its name means already: at depth zero as a global,
elsewhere in an outer scope. -/
theorem warningFor_inv {s : State} {name : Handle} {span : Span}
    (deserved : warningFor env s name span = some d) :
    (d.code = .globalRedefined ∧ ∃ symbol, s.ctx.globals.find? name = some symbol ∧
      d = noteAt (.warning .globalRedefined span
          (text "global " ++ env.name name ++ text " is redefined"))
        (s.declaredAt globalScope name) "previous definition here") ∨
    (d.code = .shadowing ∧ ∃ outer, s.ctx.lookup name = some outer ∧
      d = noteAt (.warning .shadowing span
          (env.name name ++ text " shadows a binding from an outer scope"))
        (s.declaredAt outer.scope name) "outer binding here") := by
  unfold warningFor at deserved
  split at deserved
  · split at deserved
    next both =>
      cases deserved
      obtain ⟨symbol, found⟩ := Option.isSome_iff_exists.mp (Bool.and_eq_true_iff.mp both).1
      exact .inl ⟨by unfold noteAt; split <;> rfl, symbol, found, rfl⟩
    next => cases deserved
  split at deserved
  · split at deserved
    next outer found =>
      split at deserved
      · cases deserved
      · cases deserved
        exact .inr ⟨by unfold noteAt; split <;> rfl, outer, found, rfl⟩
    next => cases deserved
  · cases deserved

theorem rebound_code (s : State) (name : Handle) (span : Span) (rejection : Context.Rejection) :
    (rebound env s name span rejection).code = .duplicateBinding := by
  unfold rebound noteAt
  split <;> rfl

theorem redefined_code (s : State) (name : Handle) (span : Span)
    (rejection : Context.Rejection) :
    (redefined env s name span rejection).code = .typeRedefined := by
  unfold redefined
  dsimp only
  split <;> rfl

theorem told_declare {s : State} {name : Handle} {ty : Ty} {span : Span}
    (told : d ∈ (Move.declare name ty span).told env s) :
    warningFor env s name span = some d ∨
    ∃ rejection, s.ctx.declare name ty = .error rejection ∧
      d = rebound env s name span rejection := by
  rcases List.mem_append.mp told with warned | rejected
  · exact .inl (Option.mem_toList.mp warned)
  · split at rejected
    · cases rejected
    next rejection outcome => exact .inr ⟨rejection, outcome, List.mem_singleton.mp rejected⟩

theorem told_register {s : State} {n : Node} {name : Handle} {ty : Ty} {span : Span}
    (told : d ∈ (Move.register n name ty span).told env s) :
    ∃ rejection, s.ctx.register name ty = .error rejection ∧
      d = redefined env s name span rejection := by
  unfold Move.told at told
  dsimp only at told
  split at told
  · cases told
  next rejection outcome => exact ⟨rejection, outcome, List.mem_singleton.mp told⟩

theorem Course.told_codes (course : Course env source (move :: past))
    (told : d ∈ move.told env (reached env past)) : d.code ∈ move.codes := by
  obtain ⟨before, lawful⟩ := course
  cases lawful with
  | record | annotate | enter | leave => cases told
  | report span direct =>
    cases List.mem_singleton.mp told
    rcases direct with plain | ⟨rfl, _⟩
    · exact List.mem_append_left _ plain
    · exact List.mem_append_right _ List.mem_cons_self
  | declare node said known =>
    rcases told_declare told with warned | ⟨rejection, _, rfl⟩
    · rcases warningFor_inv warned with ⟨code, _⟩ | ⟨code, _⟩
      · simp [Move.codes, code]
      · simp [Move.codes, code]
    · simp [Move.codes, rebound_code]
  | register node said above =>
    obtain ⟨rejection, _, rfl⟩ := told_register told
    simp [Move.codes, redefined_code]
  | resolve name span =>
    have said : ((reached env past).resolved env name span).2 = some d := Option.mem_toList.mp told
    rcases before.resolved span with
      ⟨_, same⟩ | ⟨_, _, _, same⟩ | ⟨_, _, _, same⟩ | ⟨_, same⟩
    · rw [same] at said
      cases said
    · rw [same] at said
      cases said
    · rw [same] at said
      cases said
      exact List.mem_cons_self
    · rw [same] at said
      cases said
      exact List.mem_cons_self
  | addMember span definition said known =>
    unfold Move.told at told
    dsimp only at told
    split at told
    · cases List.mem_singleton.mp told
      exact List.mem_cons_self
    · cases told

theorem Course.code_of_told (course : Course env source moves)
    (told : d ∈ (reached env moves).emitted.toList) : ∃ move past, move :: past <:+ moves ∧
      d ∈ move.told env (reached env past) ∧ d.code ∈ move.codes := by
  obtain ⟨move, past, part, said⟩ := reached_told told
  exact ⟨move, past, part, said, (course.earlier part).told_codes said⟩

end

/-! ### Annotations -/

/-- The registry at a point of a run over nodes of the source, and what written types stand for
there. -/
structure Registry (env : Env) (source : Node → Prop) (past : List Move) : Prop where
  /-- An object type stands under its own name; its super types have other names, and there was a
  point before at which they were registered and it was not. -/
  supers_earlier : ∀ name ty, (reached env past).ctx.typeNamed name = some ty →
    ty.kind = .object → ty.objectName = name ∧ ∀ super ∈ ty.supers, super.objectName ≠ name ∧
      ∃ before, before <:+ past ∧
        (reached env before).ctx.typeNamed super.objectName = some super ∧
        (reached env before).ctx.typeNamed name = none
  acyclic : ∀ name, ¬ Relation.TransGen (reached env past).SuperOf name name
  /-- A written name of an object type resolves to nothing, with one warning that has one note, at
  the definition of the type. -/
  object_unresolved : ∀ name ty span, name.isValid = true →
    (reached env past).ctx.typeNamed name = some ty → ty.kind = .object →
      ∃ n place warning, source n ∧ n.defines? = some (name, place) ∧
        DefinedBy env past n name ty place ∧
        (writtenType env name span).run (reached env past) =
          .ok .unresolved ((reached env past).emit warning) ∧
        warning.severity = .warning ∧ warning.code = .unresolvedType ∧
        warning.primary = span ∧ warning.notes.map (·.place) = [place]
  /-- Written types stand for the built-in types and for no others. -/
  resolved_iff : ∀ name span ty s,
    (writtenType env name span).run (reached env past) = .ok ty s ∧ ty.isResolved = true ↔
      (name, ty) ∈ Context.builtinTypes ∧ s = reached env past
  implemented : ∀ d ∈ (reached env past).emitted.toList, d.code ≠ .notImplemented

section

variable {env : Env} {source : Node → Prop} {moves : List Move} {name : Handle} {ty : Ty}

theorem builtin_registered (builtin : (name, ty) ∈ Context.builtinTypes) :
    (reached env moves).ctx.typeNamed name = some ty :=
  (reached_extends env (List.nil_suffix : [] <:+ moves)).types name ty
    (Context.find?_builtins.mpr builtin)

variable (course : Course env source moves)
include course

theorem Course.writtenType_object (span : Span) (valid : name.isValid = true)
    (found : (reached env moves).ctx.typeNamed name = some ty) (object : ty.kind = .object) :
    (writtenType env name span).run (reached env moves) = .ok .unresolved
      ((reached env moves).emit (unresolvedObject env (reached env moves) name span)) := by
  have resolved : (reached env moves).resolved env name span =
      (.unresolved, some (unresolvedObject env (reached env moves) name span)) := by
    rcases course.resolved span with
      ⟨absent, _⟩ | ⟨_, same, builtin, _⟩ | ⟨_, _, _, same⟩ | ⟨free, _⟩
    · rw [valid] at absent
      cases absent
    · rw [found] at same
      cases same
      obtain ⟨k, rfl, other⟩ := Context.kind_of_builtin builtin
      exact absurd object other
    · exact same
    · rw [free] at found
      cases found
  rw [writtenType_run, resolved]
  rfl

theorem Course.writtenType_resolved_iff (span : Span) (s : State) :
    (writtenType env name span).run (reached env moves) = .ok ty s ∧ ty.isResolved = true ↔
      (name, ty) ∈ Context.builtinTypes ∧ s = reached env moves := by
  rw [writtenType_run]
  constructor
  · rintro ⟨ends, known⟩
    rcases course.resolved span with
      ⟨_, same⟩ | ⟨_, _, builtin, same⟩ | ⟨_, _, _, same⟩ | ⟨_, same⟩
    · rw [same] at ends
      cases ends
      cases known
    · rw [same] at ends
      cases ends
      exact ⟨builtin, rfl⟩
    · rw [same] at ends
      cases ends
      cases known
    · rw [same] at ends
      cases ends
      cases known
  · rintro ⟨builtin, rfl⟩
    have found : (reached env moves).ctx.typeNamed name = some ty := builtin_registered builtin
    obtain ⟨valid, known, resolves⟩ := resolve_builtin _ builtin found
    have resolved : (reached env moves).resolved env name span = (ty, none) := by
      simp only [State.resolved, valid, resolves, known, if_true, Bool.not_true,
        Bool.false_eq_true, if_false]
    rw [resolved]
    exact ⟨rfl, known⟩

theorem Course.registry : Registry env source moves where
  supers_earlier := by
    intro name ty found object
    obtain ⟨supers, rfl, _⟩ := course.wellNamed.object found object
    exact ⟨rfl, fun super member => course.supers_earlier found object member⟩
  acyclic := fun name => course.acyclic
  object_unresolved := by
    intro name ty span valid found object
    obtain ⟨n, place, defined, kept⟩ := object_defined found object
    obtain ⟨node, said, _⟩ := course.definition defined
    refine ⟨n, place, _, node, said, defined, course.writtenType_object span valid found object,
      rfl, rfl, rfl, ?_⟩
    simp [unresolvedObject, Diagnostic.withNote, Diagnostic.warning, kept]
  resolved_iff := fun name span ty s => course.writtenType_resolved_iff span s
  implemented := by
    intro d told same
    obtain ⟨move, _, _, _, code⟩ := course.code_of_told told
    have none : Code.notImplemented ∉ move.codes := by
      cases move <;> simp only [Move.codes] <;> decide
    exact none (same ▸ code)

end

/-- In a check of a tree on the fresh context, wherever it is broken off, super types come first and
written types stand for no object types, after every move. -/
theorem object_annotations_never_resolve (env : Env) (t : Tree) :
    treeUntil env (fun _ _ => false) t = tree env t ∧
    ∀ halt, ∃ h : History env (· ∈ t.visits),
      h.state = endState (treeUntil env halt t) (.start .fresh) ∧
      ∀ past, past <:+ h.moves → Registry env (· ∈ t.visits) past := by
  refine ⟨treeUntil_never env t, fun halt => ?_⟩
  obtain ⟨h, reaches, _⟩ := tree_history env halt t
  exact ⟨h, reaches, fun past part => (h.lawful.earlier part).registry⟩

end TreeCheck.Check
