import TreeCheck.Proofs.Check.Run

/-!
Declarations as functions of the state: what binding a name, registering a type, resolving a written
type and adding a member do to the state they begin in.
-/

namespace TreeCheck.Check

variable (env : Env) (s : State)

namespace State

def tell (told : Option Diagnostic) : State :=
  match told with
  | some d => s.emit d
  | none => s

/-- The state after a name was bound, or the repeated binding reported. -/
def binding (name : Handle) (ty : Ty) (span : Span) : State :=
  match s.ctx.declare name ty with
  | .ok ctx => { s with ctx, declared := ((s.ctx.current, name), span) :: s.declared }
  | .error rejection => s.emit (rebound env s name span rejection)

/-- The state after a type was registered, or its redefinition reported. -/
def registering (name : Handle) (ty : Ty) (span : Span) : State :=
  match s.ctx.register name ty with
  | .ok ctx => { s with ctx, defined := s.defined.insert name span }
  | .error rejection => s.emit (redefined env s name span rejection)

/-- The type that a written type name stands for, and what there is to say about it. -/
def resolved (name : Handle) (span : Span) : Ty × Option Diagnostic :=
  if !name.isValid then (.unresolved, none)
  else
    match s.ctx.resolve name with
    | .error rejection => (.unresolved, some (unresolvable env span rejection))
    | .ok ty =>
      if ty.isResolved then (ty, none)
      else
        match (s.ctx.typeNamed name).filter (·.kind = .object) with
        | some _ => (.unresolved, some (unresolvedObject env s name span))
        | none =>
          (.unresolved, some (.error .unresolvedType span (text "unknown type " ++ env.name name)))

def withMember (owner name : Handle) (ty : Ty) : State :=
  let own := (s.members.find? owner).getD .empty
  { s with members := s.members.insert owner (own.insert name ty) }

end State

/-- The report that an object type has a member of a name already. -/
def repeated (owner name : Handle) (span : Span) : Diagnostic :=
  .error .duplicateBinding span
    (env.name owner ++ text " already has a member named " ++ env.name name)

theorem declare_run (name : Handle) (ty : Ty) (span : Span) :
    (declare env name ty span).run s =
      .ok () ((s.tell (warningFor env s name span)).binding env name ty span) := by
  cases warned : warningFor env s name span with
  | none =>
    simp only [declare, EStateM.run_bind, EStateM.run_get, warned, State.tell, State.binding]
    cases s.ctx.declare name ty <;> rfl
  | some warning =>
    simp only [declare, EStateM.run_bind, EStateM.run_get, warned, State.tell, State.binding]
    have kept : (s.emit warning).ctx = s.ctx := rfl
    rw [kept]
    cases s.ctx.declare name ty <;> rfl

theorem registerType_run (name : Handle) (ty : Ty) (span : Span) :
    (registerType env name ty span).run s = .ok () (s.registering env name ty span) := by
  simp only [registerType, EStateM.run_bind, EStateM.run_get, State.registering, redefined]
  cases s.ctx.register name ty with
  | ok ctx => rfl
  | error rejection => cases s.defined.find? name <;> rfl

theorem writtenType_run (name : Handle) (span : Span) :
    (writtenType env name span).run s =
      .ok (s.resolved env name span).1 (s.tell (s.resolved env name span).2) := by
  unfold writtenType State.resolved
  split
  · rfl
  simp only [EStateM.run_bind, EStateM.run_get]
  cases s.ctx.resolve name with
  | error rejection => cases rejection <;> rfl
  | ok ty =>
    dsimp only
    split
    · rfl
    cases (s.ctx.typeNamed name).filter (·.kind = .object) <;> rfl

theorem addMember_run (owner name : Handle) (ty : Ty) (span : Span) :
    (addMember env owner name ty span).run s =
      match s.memberOf owner name with
      | some _ => .ok false (s.emit (repeated env owner name span))
      | none => .ok true (s.withMember owner name ty) := by
  have member : ((s.members.find? owner).getD .empty).find? name = s.memberOf owner name := by
    rw [State.memberOf]
    cases s.members.find? owner <;> rfl
  simp only [addMember, EStateM.run_bind, EStateM.run_get, member]
  cases s.memberOf owner name <;> rfl

end TreeCheck.Check
