import TreeCheck.Proofs.Check.Moves
import TreeCheck.Proofs.Context.Known

/-!
Histories of a check. A check goes on by moves, each of which is one of its steps on the state, and
a history is the list of the moves made so far, the latest first. `Lawful` says what a move may be
after a history: which types it may bring into the state, and which node of the tree it belongs to.

A move changes the context by one operation at most, so a history gives a history of the context:
registered types stay, and so do members.
-/

namespace TreeCheck

namespace Node

def declares : Node → List (Handle × Span)
  | define site name _ _ _ => [(name, site.span)]
  | lambda l => l.params.map fun p => (p.name, p.span)
  | function f => [(f.name, f.site.span)]
  | cls _ c =>
    c.fields.map (fun f => (f.name, f.span)) ++ c.methods.map fun m => (m.name, m.site.span)
  | _ => []

/-- The object type that a node defines, with the position of its definition. -/
def defines? : Node → Option (Handle × Span)
  | struct site name _ => some (name, site.span)
  | cls site c => some (c.name, site.span)
  | _ => none

/-- The names of the members that a definition has: its fields, and its methods with a body. -/
def memberNames : Node → List Handle
  | struct _ _ fields => fields.map (·.name)
  | cls _ c => c.fields.map (·.name) ++ (c.methods.filter (·.lambda.isSome)).map (·.name)
  | _ => []

end Node

namespace Check

variable {α : Type}

def endState (x : Check α) (s : State) : State :=
  match x.run s with
  | .ok _ t => t
  | .error _ t => t

theorem endState_discard (x : Check α) (s : State) :
    endState (Functor.discard x) s = endState x s := by
  show endState (x >>= fun _ => pure ()) s = endState x s
  rw [endState, endState, EStateM.run_bind]
  cases x.run s <;> rfl

/-- A move of a check, with what it is given. A registration also tells the definition it is made
for. -/
inductive Move where
  | record (id : Nat) (ty : Ty)
  | annotate (slot : Slot) (ty : Ty)
  | report (code : Code) (span : Span) (message : Text)
  | declare (name : Handle) (ty : Ty) (span : Span)
  | register (definition : Node) (name : Handle) (ty : Ty) (span : Span)
  | resolve (name : Handle) (span : Span)
  | addMember (owner name : Handle) (ty : Ty) (span : Span)
  | enter
  | leave

def Move.step (env : Env) : Move → Check Unit
  | .record id ty => discard (Check.record id ty)
  | .annotate slot ty => Check.annotate slot ty
  | .report code span message => Check.report code span message
  | .declare name ty span => Check.declare env name ty span
  | .register _ name ty span => registerType env name ty span
  | .resolve name span => discard (writtenType env name span)
  | .addMember owner name ty span => discard (Check.addMember env owner name ty span)
  | .enter => openScope
  | .leave => closeScope

def Move.op? : Move → Option Context.Op
  | .declare name ty _ => some (.declare name ty)
  | .register _ name ty _ => some (.register name ty)
  | .enter => some .openScope
  | .leave => some .closeScope
  | _ => none

def State.take (env : Env) (s : State) (move : Move) : State :=
  endState (move.step env) s

def Move.told (env : Env) (s : State) : Move → List Diagnostic
  | .report code span message => [.error code span message]
  | .declare name ty span =>
    (warningFor env s name span).toList ++
      match s.ctx.declare name ty with
      | .ok _ => []
      | .error rejection => [rebound env s name span rejection]
  | .register _ name ty span =>
    match s.ctx.register name ty with
    | .ok _ => []
    | .error rejection => [redefined env s name span rejection]
  | .resolve name span => (s.resolved env name span).2.toList
  | .addMember owner name _ span =>
    match s.memberOf owner name with
    | some _ => [repeated env owner name span]
    | none => []
  | .record .. | .annotate .. | .enter | .leave => []

/-- The state that a history leads to from the start on the fresh context. -/
def reached (env : Env) : List Move → State
  | [] => .start .fresh
  | move :: past => (reached env past).take env move

/-! ### What a move does to the state -/

section

variable (env : Env) (s : State)

namespace State

@[simp] theorem tell_ctx (told : Option Diagnostic) : (s.tell told).ctx = s.ctx := by
  cases told <;> rfl

@[simp] theorem tell_members (told : Option Diagnostic) : (s.tell told).members = s.members := by
  cases told <;> rfl

@[simp] theorem tell_types (told : Option Diagnostic) : (s.tell told).types = s.types := by
  cases told <;> rfl

@[simp] theorem tell_declared (told : Option Diagnostic) :
    (s.tell told).declared = s.declared := by
  cases told <;> rfl

@[simp] theorem tell_defined (told : Option Diagnostic) : (s.tell told).defined = s.defined := by
  cases told <;> rfl

@[simp] theorem take_record (id : Nat) (ty : Ty) :
    s.take env (.record id ty) = { s with types := s.types.push (id, ty) } := rfl

@[simp] theorem take_annotate (slot : Slot) (ty : Ty) :
    s.take env (.annotate slot ty) = { s with slots := s.slots.push (slot, ty) } := rfl

@[simp] theorem take_report (code : Code) (span : Span) (message : Text) :
    s.take env (.report code span message) = s.emit (.error code span message) := rfl

@[simp] theorem take_declare (name : Handle) (ty : Ty) (span : Span) :
    s.take env (.declare name ty span) =
      (s.tell (warningFor env s name span)).binding env name ty span := by
  rw [take, endState, Move.step, declare_run]

@[simp] theorem take_register (definition : Node) (name : Handle) (ty : Ty) (span : Span) :
    s.take env (.register definition name ty span) = s.registering env name ty span := by
  rw [take, endState, Move.step, registerType_run]

@[simp] theorem take_resolve (name : Handle) (span : Span) :
    s.take env (.resolve name span) = s.tell (s.resolved env name span).2 := by
  rw [take, Move.step, endState_discard, endState, writtenType_run]

@[simp] theorem take_addMember (owner name : Handle) (ty : Ty) (span : Span) :
    s.take env (.addMember owner name ty span) =
      match s.memberOf owner name with
      | some _ => s.emit (repeated env owner name span)
      | none => s.withMember owner name ty := by
  rw [take, Move.step, endState_discard, endState, addMember_run]
  cases s.memberOf owner name <;> rfl

@[simp] theorem take_enter : s.take env .enter = s.opened := rfl

@[simp] theorem take_leave :
    s.take env .leave = { s with ctx := s.ctx.stepOrKeep .closeScope } := by
  rw [take, endState, Move.step, closeScope, Context.stepOrKeep, Context.step]
  simp only [EStateM.run_bind, EStateM.run_get]
  cases s.ctx.closeScope <;> rfl

theorem tell_emitted (told : Option Diagnostic) :
    (s.tell told).emitted.toList = s.emitted.toList ++ told.toList := by
  cases told with
  | none => simp [tell]
  | some d => simp [tell, emit]

theorem rebound_tell (told : Option Diagnostic) (name : Handle) (span : Span)
    (rejection : Context.Rejection) :
    rebound env (s.tell told) name span rejection = rebound env s name span rejection := by
  simp only [rebound, declaredAt, tell_ctx, tell_declared]

theorem take_emitted (move : Move) :
    (s.take env move).emitted.toList = s.emitted.toList ++ move.told env s := by
  cases move with
  | record | annotate | enter => exact (List.append_nil _).symm
  | leave =>
    rw [take_leave]
    exact (List.append_nil _).symm
  | report code span message => simp [Move.told, emit]
  | resolve name span => rw [take_resolve, tell_emitted, Move.told]
  | declare name ty span =>
    simp only [take_declare, binding, tell_ctx, rebound_tell, Move.told]
    cases s.ctx.declare name ty with
    | ok ctx => simp [tell_emitted]
    | error rejection => simp [emit, tell_emitted]
  | register definition name ty span =>
    simp only [take_register, registering, Move.told]
    cases s.ctx.register name ty with
    | ok ctx => simp
    | error rejection => simp [emit]
  | addMember owner name ty span =>
    simp only [take_addMember, Move.told]
    cases s.memberOf owner name with
    | some first => simp [emit]
    | none => simp [withMember]

theorem take_ctx (move : Move) :
    (s.take env move).ctx = (move.op?.map s.ctx.stepOrKeep).getD s.ctx := by
  cases move with
  | record | annotate | report | enter => rfl
  | resolve => simp [Move.op?]
  | leave => simp [Move.op?]
  | declare name ty span =>
    simp only [take_declare, binding, tell_ctx, Move.op?, Option.map_some, Option.getD_some,
      Context.stepOrKeep, Context.step]
    cases s.ctx.declare name ty with
    | ok ctx => rfl
    | error rejection => exact tell_ctx s _
  | register definition name ty span =>
    simp only [take_register, registering, Move.op?, Option.map_some, Option.getD_some,
      Context.stepOrKeep, Context.step]
    cases s.ctx.register name ty <;> rfl
  | addMember owner name ty span =>
    rw [take_addMember]
    cases s.memberOf owner name <;> rfl

/-- Types of nodes, members, bindings and registered types come in by moves of their own alone. -/
structure Frame (s t : State) (move : Move) : Prop where
  types_eq : (∀ id ty, move ≠ .record id ty) → t.types = s.types
  members_eq : (∀ owner name ty span, move ≠ .addMember owner name ty span) →
    t.members = s.members
  bindings_eq : (∀ name ty span, move ≠ .declare name ty span) → t.declared = s.declared ∧
    ∀ scope, t.ctx.bindingsOf scope = s.ctx.bindingsOf scope
  registry_eq : (∀ n name ty span, move ≠ .register n name ty span) → t.defined = s.defined ∧
    t.ctx.types = s.ctx.types

theorem take_frame (move : Move) : s.Frame (s.take env move) move := by
  cases move with
  | record id ty =>
    exact ⟨fun other => absurd rfl (other id ty), fun _ => rfl, fun _ => ⟨rfl, fun _ => rfl⟩,
      fun _ => ⟨rfl, rfl⟩⟩
  | annotate | report | enter =>
    exact ⟨fun _ => rfl, fun _ => rfl, fun _ => ⟨rfl, fun _ => rfl⟩, fun _ => ⟨rfl, rfl⟩⟩
  | resolve name span =>
    rw [take_resolve]
    exact ⟨fun _ => by simp, fun _ => by simp, fun _ => by simp, fun _ => by simp⟩
  | leave =>
    rw [take_leave]
    refine ⟨fun _ => rfl, fun _ => rfl, fun _ => ⟨rfl, Context.bindingsOf_stepOrKeep ?_⟩,
      fun _ => ⟨rfl, Context.types_stepOrKeep ?_⟩⟩
    · intro name ty same
      cases same
    · intro name ty same
      cases same
  | declare name ty span =>
    have types : (s.ctx.stepOrKeep (.declare name ty)).types = s.ctx.types := by
      refine Context.types_stepOrKeep ?_
      intro other ty' same
      cases same
    have ctx := take_ctx env s (.declare name ty span)
    refine ⟨fun _ => ?_, fun _ => ?_, fun other => absurd rfl (other name ty span), fun _ =>
      ⟨?_, ctx ▸ types⟩⟩
    all_goals
      rw [take_declare, binding]
      split
      · simp
      · simp [emit]
  | register n name ty span =>
    have bindings : ∀ scope, (s.ctx.stepOrKeep (.register name ty)).bindingsOf scope =
        s.ctx.bindingsOf scope := by
      refine Context.bindingsOf_stepOrKeep ?_
      intro other ty' same
      cases same
    have ctx := take_ctx env s (.register n name ty span)
    refine ⟨fun _ => ?_, fun _ => ?_, fun _ => ⟨?_, ctx ▸ bindings⟩, fun other =>
      absurd rfl (other n name ty span)⟩
    all_goals
      rw [take_register, registering]
      split
      · rfl
      · rfl
  | addMember owner name ty span =>
    refine ⟨fun _ => ?_, fun other => absurd rfl (other owner name ty span), fun _ => ?_,
      fun _ => ?_⟩
    all_goals
      rw [take_addMember]
      split
      · simp [emit]
      · simp [withMember]

theorem memberOf_withMember (owner name : Handle) (ty : Ty) (other member : Handle) :
    (s.withMember owner name ty).memberOf other member =
      if other = owner ∧ member = name then some ty else s.memberOf other member := by
  simp only [memberOf, withMember, Table.find?_insert]
  by_cases same : other = owner
  · subst same
    simp only [if_true, Option.bind_some, Table.find?_insert, true_and]
    split
    · rfl
    · cases s.members.find? other <;> rfl
  · simp [same]

theorem take_memberOf {owner name : Handle} {ty : Ty} (found : s.memberOf owner name = some ty)
    (move : Move) : (s.take env move).memberOf owner name = some ty := by
  by_cases adds : ∃ other member ty' span, move = .addMember other member ty' span
  · obtain ⟨other, member, ty', span, rfl⟩ := adds
    rw [take_addMember]
    split
    next => exact found
    next free =>
      rw [memberOf_withMember, if_neg, found]
      rintro ⟨rfl, rfl⟩
      rw [free] at found
      cases found
  · have kept : (s.take env move).members = s.members :=
      (take_frame env s move).members_eq fun other member ty' span same =>
        adds ⟨other, member, ty', span, same⟩
    rwa [memberOf, kept]

theorem memberOf_of_take {owner name : Handle} {ty : Ty} {move : Move}
    (found : (s.take env move).memberOf owner name = some ty) :
    s.memberOf owner name = some ty ∨ ∃ span, move = .addMember owner name ty span := by
  by_cases adds : ∃ other member ty' span, move = .addMember other member ty' span
  · obtain ⟨other, member, ty', span, rfl⟩ := adds
    rw [take_addMember] at found
    split at found
    · exact .inl found
    · rw [memberOf_withMember] at found
      split at found
      next here =>
        obtain ⟨rfl, rfl⟩ := here
        cases found
        exact .inr ⟨span, rfl⟩
      next => exact .inl found
  · rw [memberOf, (take_frame env s move).members_eq fun other member ty' span same =>
      adds ⟨other, member, ty', span, same⟩] at found
    exact .inl found

theorem bound_of_take (sound : s.ctx.Sound) {scope : Nat} {name : Handle} {symbol : Symbol}
    {move : Move} (found : ((s.take env move).ctx.bindingsOf scope).find? name = some symbol) :
    (s.ctx.bindingsOf scope).find? name = some symbol ∨
      ∃ span, move = .declare name symbol.ty span := by
  by_cases declares : ∃ other ty span, move = .declare other ty span
  · obtain ⟨other, ty, span, rfl⟩ := declares
    rw [take_ctx] at found
    simp only [Move.op?, Option.map_some, Option.getD_some, Context.stepOrKeep,
      Context.step] at found
    split at found
    next next declared =>
      rw [Context.find?_bindingsOf_declare sound declared] at found
      split at found
      next here =>
        cases found
        exact .inr ⟨span, by rw [here.2]⟩
      next => exact .inl found
    next => exact .inl found
  · rw [((take_frame env s move).bindings_eq fun other ty span same =>
      declares ⟨other, ty, span, same⟩).2] at found
    exact .inl found

theorem recorded_of_take {id : Nat} {ty : Ty} {move : Move}
    (entry : (id, ty) ∈ (s.take env move).types.toList) :
    (id, ty) ∈ s.types.toList ∨ move = .record id ty := by
  by_cases records : ∃ other ty', move = .record other ty'
  · obtain ⟨other, ty', rfl⟩ := records
    rw [take_record, Array.toList_push] at entry
    refine (List.mem_append.mp entry).imp_right fun new => ?_
    cases List.mem_singleton.mp new
    rfl
  · rw [(take_frame env s move).types_eq fun other ty' same => records ⟨other, ty', same⟩] at entry
    exact .inl entry

end State

end

/-! ### Lawful moves -/

/-- What a check may do after a history. It brings no types into the state but known ones, registers
an object type under its own name and above registered types, and declares, defines and adds nothing
but what the nodes of the tree say. -/
inductive Lawful (env : Env) (source : Node → Prop) (past : List Move) : Move → Prop
  | record (id : Nat) {ty : Ty} (known : (reached env past).ctx.Knows ty) :
      Lawful env source past (.record id ty)
  | annotate (slot : Slot) (ty : Ty) : Lawful env source past (.annotate slot ty)
  | report {code : Code} (span : Span) {message : Text} (direct : Direct code message) :
      Lawful env source past (.report code span message)
  | declare {n : Node} {name : Handle} {ty : Ty} {span : Span} (node : source n)
      (said : (name, span) ∈ n.declares) (known : (reached env past).ctx.Knows ty) :
      Lawful env source past (.declare name ty span)
  | register {n : Node} {name : Handle} {supers : List Ty} {span : Span} (node : source n)
      (said : n.defines? = some (name, span))
      (above : ∀ super ∈ supers, (reached env past).ctx.typeNamed super.objectName = some super) :
      Lawful env source past (.register n name (.object name supers) span)
  | resolve (name : Handle) (span : Span) : Lawful env source past (.resolve name span)
  | addMember {n : Node} {owner name : Handle} {ty defined : Ty} {place : Span} (span : Span)
      (definition : .register n owner defined place ∈ past) (said : name ∈ n.memberNames)
      (known : (reached env past).ctx.Knows ty) :
      Lawful env source past (.addMember owner name ty span)
  | enter : Lawful env source past .enter
  | leave : Lawful env source past .leave

def Course (env : Env) (source : Node → Prop) : List Move → Prop
  | [] => True
  | move :: past => Course env source past ∧ Lawful env source past move

structure History (env : Env) (source : Node → Prop) where
  moves : List Move
  lawful : Course env source moves

section

variable {env : Env} {source : Node → Prop} {past moves : List Move}

theorem Course.earlier (course : Course env source moves) (part : past <:+ moves) :
    Course env source past := by
  induction moves with
  | nil =>
    rw [List.suffix_nil.mp part]
    exact course
  | cons move before ih =>
    rcases List.suffix_cons_iff.mp part with rfl | earlier
    · exact course
    · exact ih course.1 earlier

theorem reached_extends (env : Env) (part : past <:+ moves) :
    (reached env past).ctx.Extends (reached env moves).ctx := by
  induction moves with
  | nil =>
    rw [List.suffix_nil.mp part]
    exact .refl _
  | cons move before ih =>
    rcases List.suffix_cons_iff.mp part with rfl | earlier
    · exact .refl _
    · refine (ih earlier).trans ?_
      rw [reached, State.take_ctx]
      cases move.op? with
      | none => exact .refl _
      | some op => exact .stepOrKeep _ op

theorem reached_memberOf (env : Env) (part : past <:+ moves) {owner name : Handle} {ty : Ty}
    (found : (reached env past).memberOf owner name = some ty) :
    (reached env moves).memberOf owner name = some ty := by
  induction moves with
  | nil => rwa [← List.suffix_nil.mp part]
  | cons move before ih =>
    rcases List.suffix_cons_iff.mp part with rfl | earlier
    · exact found
    · exact State.take_memberOf env _ (ih earlier) move

theorem reached_told {d : Diagnostic} (told : d ∈ (reached env moves).emitted.toList) :
    ∃ move past, move :: past <:+ moves ∧ d ∈ move.told env (reached env past) := by
  induction moves with
  | nil => cases told
  | cons move past ih =>
    rw [reached, State.take_emitted] at told
    rcases List.mem_append.mp told with old | new
    · obtain ⟨other, before, part, said⟩ := ih old
      exact ⟨other, before, part.trans (List.suffix_cons move past), said⟩
    · exact ⟨move, past, List.suffix_refl _, new⟩

theorem reached_sound (env : Env) (moves : List Move) : (reached env moves).ctx.Sound := by
  induction moves with
  | nil => exact Context.sound_fresh
  | cons move past ih =>
    rw [reached, State.take_ctx]
    cases move.op? with
    | none => exact ih
    | some op => exact ih.stepOrKeep op

end

end Check

end TreeCheck
