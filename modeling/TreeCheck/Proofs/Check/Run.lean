import TreeCheck.Check
import TreeCheck.Proofs.Context.Trail

/-!
What a check can do, said once. `Run` lists the ways in which the state of a check moves on: types
and annotations are recorded, errors are reported, names are bound, types registered, members
added, and scopes are opened and closed in pairs. A step `Follows` these ways if it ends in a state
that they lead to. The rules of the check are put together from such steps by the combinators at
the end.
-/

namespace TreeCheck.Check

variable {α β : Type}

/-! ### Outcomes of steps -/

theorem run_bind_eq_ok {x : Check α} {f : α → Check β} {s u : State} {b : β} :
    (x >>= f).run s = .ok b u ↔ ∃ a t, x.run s = .ok a t ∧ (f a).run t = .ok b u := by
  rw [EStateM.run_bind]
  constructor
  · intro ends
    split at ends
    next a t first => exact ⟨a, t, first, ends⟩
    next => cases ends
  · rintro ⟨a, t, first, ends⟩
    rw [first]
    exact ends

/-- From a state, a step ends as `post` says. Where `stops` holds it may also stop at an absent
node, and at nothing else. -/
def Leads (stops : Prop) (x : Check α) (s : State) (post : α → State → Prop) : Prop :=
  match x.run s with
  | .ok a t => post a t
  | .error fault _ => stops ∧ fault = .absent

namespace Leads

variable {stops : Prop} {x : Check α} {f : α → Check β} {s : State}

theorem of_run {post : α → State → Prop} {a : α} {t : State} (ends : x.run s = .ok a t)
    (holds : post a t) : Leads stops x s post := by
  rw [Leads, ends]
  exact holds

theorem mono {post weaker : α → State → Prop} (leads : Leads stops x s post)
    (implies : ∀ a t, post a t → weaker a t) : Leads stops x s weaker := by
  unfold Leads at leads ⊢
  split at leads
  · exact implies _ _ leads
  · exact leads

theorem bind {post : β → State → Prop}
    (first : Leads stops x s fun a t => Leads stops (f a) t post) :
    Leads stops (x >>= f) s post := by
  rw [Leads, EStateM.run_bind]
  unfold Leads at first
  cases ends : x.run s with
  | ok a t => simpa only [ends] using first
  | error fault t => simpa only [ends] using first

theorem of_ok {post : α → State → Prop} {a : α} {t : State} (leads : Leads True x s post)
    (ends : x.run s = .ok a t) : post a t := by
  rwa [Leads, ends] at leads

theorem result {post : α → State → Prop} (leads : Leads False x s post) :
    ∃ a t, x.run s = .ok a t ∧ post a t := by
  unfold Leads at leads
  split at leads
  next a t ends => exact ⟨a, t, ends, leads⟩
  next => exact leads.1.elim

theorem result_of_present {post : α → State → Prop} (leads : Leads stops x s post)
    (present : ∀ t, x.run s ≠ .error .absent t) : ∃ a t, x.run s = .ok a t ∧ post a t := by
  unfold Leads at leads
  split at leads
  next a t ends => exact ⟨a, t, ends, leads⟩
  next fault t ends => exact absurd (leads.2 ▸ ends) (present t)

end Leads

/-! ### What a check can do -/

/-- The codes that the rules of expressions use for errors alone. -/
def plainCodes : List Code :=
  [.semantic, .unresolvedSymbol, .typeMismatch, .notCallable, .argumentCount, .unknownMember]

/-- An error that a rule reports by itself. One about a type name says that it is unknown. -/
def Direct (code : Code) (message : Text) : Prop :=
  code ∈ plainCodes ∨ code = .unresolvedType ∧ ∃ rest, message = text "unknown " ++ rest

theorem Direct.unknown {message : Text} (rest : Text)
    (starts : message = text "unknown " ++ rest) : Direct .unresolvedType message :=
  .inr ⟨rfl, rest, starts⟩

namespace State

def opened (s : State) : State :=
  { s with ctx := s.ctx.openScope }

def emit (s : State) (d : Diagnostic) : State :=
  { s with emitted := s.emitted.push d }

end State

/-- The report that a name is bound in the current scope already. -/
def rebound (env : Env) (s : State) (name : Handle) (span : Span) (rejection : Context.Rejection) :
    Diagnostic :=
  noteAt (.error .duplicateBinding span (rejection.message env.names))
    (s.declaredAt s.ctx.current name) "previous binding here"

def redefined (env : Env) (s : State) (name : Handle) (span : Span)
    (rejection : Context.Rejection) : Diagnostic :=
  let redefinition := Diagnostic.error .typeRedefined span (rejection.message env.names)
  match s.defined.find? name with
  | some first => redefinition.withNote first (text "first definition here")
  | none => redefinition.withNote .zero (env.name name ++ text " is a built-in type")

/-- The report that a type name in a declaration cannot be resolved. -/
def unresolvable (env : Env) (span : Span) (rejection : Context.Rejection) : Diagnostic :=
  match rejection with
  | .notImplemented .. => .error .notImplemented span (rejection.message env.names)
  | _ => .error .semantic span (rejection.message env.names)

/-- The warning that an object type does not resolve in a declaration. -/
def unresolvedObject (env : Env) (s : State) (name : Handle) (span : Span) : Diagnostic :=
  (Diagnostic.warning .unresolvedType span
      (text "object type " ++ env.name name ++ text " does not resolve as an annotation")).withNote
    ((s.defined.find? name).getD .zero)
    (text "only a direct super type named " ++ env.name name ++ text " is accepted")

inductive Run (env : Env) : State → State → Prop
  | refl (s : State) : Run env s s
  | trans {s t u : State} (first : Run env s t) (second : Run env t u) : Run env s u
  | record (s : State) (id : Nat) (ty : Ty) :
      Run env s { s with types := s.types.push (id, ty) }
  | annotate (s : State) (slot : Slot) (ty : Ty) :
      Run env s { s with slots := s.slots.push (slot, ty) }
  | report (s : State) {code : Code} (span : Span) {message : Text}
      (direct : Direct code message) : Run env s (s.emit (.error code span message))
  | warn (s : State) {name : Handle} {span : Span} {warning : Diagnostic}
      (deserved : warningFor env s name span = some warning) : Run env s (s.emit warning)
  | bind (s : State) {name : Handle} {ty : Ty} (span : Span) {ctx : Context}
      (accepted : s.ctx.declare name ty = .ok ctx) :
      Run env s { s with ctx, declared := ((s.ctx.current, name), span) :: s.declared }
  | rebind (s : State) {name : Handle} {ty : Ty} (span : Span) {rejection : Context.Rejection}
      (rejected : s.ctx.declare name ty = .error rejection) :
      Run env s (s.emit (rebound env s name span rejection))
  | register (s : State) {name : Handle} {ty : Ty} (span : Span) {ctx : Context}
      (accepted : s.ctx.register name ty = .ok ctx) :
      Run env s { s with ctx, defined := s.defined.insert name span }
  | redefine (s : State) {name : Handle} {ty : Ty} (span : Span) {rejection : Context.Rejection}
      (rejected : s.ctx.register name ty = .error rejection) :
      Run env s (s.emit (redefined env s name span rejection))
  | misname (s : State) {name : Handle} (span : Span) {rejection : Context.Rejection}
      (rejected : s.ctx.resolve name = .error rejection) :
      Run env s (s.emit (unresolvable env span rejection))
  | nameObject (s : State) {name : Handle} (span : Span) {ty : Ty}
      (registered : s.ctx.typeNamed name = some ty) (object : ty.kind = .object) :
      Run env s (s.emit (unresolvedObject env s name span))
  | addMember (s : State) {owner name : Handle} (ty : Ty) (free : s.memberOf owner name = none) :
      Run env s { s with
        members := s.members.insert owner
          (((s.members.find? owner).getD .empty).insert name ty) }
  | repeatMember (s : State) {owner name : Handle} (span : Span) {ty : Ty}
      (taken : s.memberOf owner name = some ty) :
      Run env s (s.emit (.error .duplicateBinding span
        (env.name owner ++ text " already has a member named " ++ env.name name)))
  | scope {s t : State} {top : Nat} {ctx : Context} (inner : Run env s.opened t)
      (closed : t.ctx.closeScope = .ok (top, ctx)) : Run env s { t with ctx }

variable {env : Env} {stops : Prop}

theorem Run.trail {s t : State} (run : Run env s t) : Context.Trail s.ctx t.ctx := by
  induction run with
  | refl => exact .refl _
  | trans _ _ first second => exact first.trans second
  | bind _ _ accepted => exact .declare accepted
  | register _ _ accepted => exact .register accepted
  | scope _ closed inner => exact .scope inner closed
  | record | annotate | report | warn | rebind | redefine | misname | nameObject | addMember
  | repeatMember => exact .refl _

/-! ### Steps that follow these ways -/

/-- From every state, the step ends in a state that the ways above lead to. Where `stops` holds it
may stop at an absent node. -/
def Follows (env : Env) (stops : Prop) (x : Check α) : Prop :=
  ∀ s, Leads stops x s fun _ t => Run env s t

namespace Follows

variable {x : Check α} {f : α → Check β}

theorem pure (a : α) : Follows env stops (Pure.pure a : Check α) :=
  fun s => .of_run rfl (.refl s)

theorem next {s : State} {post : β → State → Prop} (first : Follows env stops x)
    (rest : ∀ a t, Run env s t → Leads stops (f a) t post) : Leads stops (x >>= f) s post :=
  .bind ((first s).mono rest)

theorem bind (first : Follows env stops x) (rest : ∀ a, Follows env stops (f a)) :
    Follows env stops (x >>= f) := by
  intro s
  exact first.next fun a t run => (rest a t).mono fun _ _ more => run.trans more

theorem of_reads (reads : ∀ s, ∃ a, x.run s = .ok a s) : Follows env stops x := by
  intro s
  obtain ⟨a, ends⟩ := reads s
  exact .of_run ends (.refl s)

theorem discard (checked : Follows env stops x) : Follows env stops (Functor.discard x) :=
  bind checked fun _ => pure ()

theorem guarded {c : Prop} [Decidable c] {y : Check Unit} {k : Unit → Check β}
    (guarded : Follows env stops y) (rest : Follows env stops (k ())) :
    Follows env stops (if c then y >>= k else k ()) := by
  split
  · exact guarded.bind fun _ => rest
  · exact rest

theorem mapM {xs : List β} {g : β → Check α} (each : ∀ b ∈ xs, Follows env stops (g b)) :
    Follows env stops (xs.mapM g) := by
  induction xs with
  | nil => exact pure []
  | cons b rest ih =>
    rw [List.mapM_cons]
    refine bind (each b List.mem_cons_self) fun a => bind (ih fun c member => ?_) fun _ => pure _
    exact each c (List.mem_cons_of_mem _ member)

theorem forM {xs : List β} {g : β → Check Unit} (each : ∀ b ∈ xs, Follows env stops (g b)) :
    Follows env stops (xs.forM g) := by
  induction xs with
  | nil => exact pure ()
  | cons b rest ih =>
    refine bind (each b List.mem_cons_self) fun _ => ih fun c member => ?_
    exact each c (List.mem_cons_of_mem _ member)

theorem foldlM {xs : List β} {g : α → β → Check α}
    (each : ∀ b ∈ xs, ∀ a, Follows env stops (g a b)) (a : α) :
    Follows env stops (xs.foldlM g a) := by
  induction xs generalizing a with
  | nil => exact pure a
  | cons b rest ih =>
    rw [List.foldlM_cons]
    refine bind (each b List.mem_cons_self a) fun next => ih (fun c member => ?_) next
    exact each c (List.mem_cons_of_mem _ member)

theorem run_of_ok {s t : State} {a : α} (follows : Follows env True x)
    (ends : x.run s = .ok a t) : Run env s t :=
  (follows s).of_ok ends

theorem forM_visits {xs : List β} {g : β → Check Unit} (each : ∀ b ∈ xs, Follows env True (g b))
    {s u : State} (ends : (xs.forM g).run s = .ok () u) :
    ∀ b ∈ xs, ∃ v w, Run env s v ∧ (g b).run v = .ok () w ∧ Run env w u := by
  induction xs generalizing s with
  | nil => exact fun _ member => absurd member List.not_mem_nil
  | cons first rest ih =>
    obtain ⟨_, t, now, later⟩ := run_bind_eq_ok.mp ends
    have others (b : β) (member : b ∈ rest) := each b (List.mem_cons_of_mem _ member)
    have step := (each first List.mem_cons_self).run_of_ok now
    rintro b (_ | ⟨_, member⟩)
    · exact ⟨s, t, .refl s, now, (forM others).run_of_ok later⟩
    · obtain ⟨v, w, before, taken, after⟩ := ih others later b member
      exact ⟨v, w, step.trans before, taken, after⟩

end Follows

def Quiet (env : Env) (stops : Prop) (x : Check α) : Prop :=
  ∀ s, Leads stops x s fun _ t => Run env s t ∧ t.ctx = s.ctx

namespace Quiet

variable {x : Check α} {f : α → Check β}

theorem follows (quiet : Quiet env stops x) : Follows env stops x :=
  fun s => (quiet s).mono fun _ _ ends => ends.1

theorem pure (a : α) : Quiet env stops (Pure.pure a : Check α) :=
  fun s => .of_run rfl ⟨.refl s, rfl⟩

theorem bind (first : Quiet env stops x) (rest : ∀ a, Quiet env stops (f a)) :
    Quiet env stops (x >>= f) := by
  intro s
  refine .bind ((first s).mono fun a t ends => ?_)
  exact (rest a t).mono fun _ _ more => ⟨ends.1.trans more.1, more.2.trans ends.2⟩

end Quiet

/-! ### The steps on the state -/

theorem record_follows (id : Nat) (ty : Ty) : Follows env stops (record id ty) :=
  fun s => .of_run rfl (.record s id ty)

theorem annotate_quiet (slot : Slot) (ty : Ty) : Quiet env stops (annotate slot ty) :=
  fun s => .of_run rfl ⟨.annotate s slot ty, rfl⟩

theorem annotate_follows (slot : Slot) (ty : Ty) : Follows env stops (annotate slot ty) :=
  (annotate_quiet slot ty).follows

theorem report_follows {code : Code} (span : Span) {message : Text}
    (direct : Direct code message) : Follows env stops (report code span message) :=
  fun s => .of_run rfl (.report s span direct)

theorem failed_follows {code : Code} (plain : code ∈ plainCodes) (span : Span) (message : Text)
    (a : α) : Follows env stops (do report code span message; return a) :=
  .bind (report_follows span (.inl plain)) fun _ => .pure a

theorem mismatch_follows (span : Span) (what : Text) (want got : Ty) :
    Follows env stops (mismatch env span what want got) :=
  report_follows span (.inl (by decide))

theorem lookup_follows (name : Handle) : Follows env stops (lookup name) :=
  .of_reads fun s => ⟨s.ctx.lookup name, rfl⟩

theorem objectNamed_follows (name : Handle) : Follows env stops (objectNamed name) :=
  .of_reads fun s => ⟨(s.ctx.typeNamed name).filter (·.kind = .object), rfl⟩

theorem member_follows (ty : Ty) (name : Handle) : Follows env stops (member ty name) :=
  .of_reads fun s => ⟨s.member ty name, rfl⟩

theorem spanOf_follows {n : Option Node} (present : n = none → stops) :
    Follows env stops (spanOf n) := by
  cases n with
  | some n => exact .pure n.span
  | none => exact fun s => ⟨present rfl, rfl⟩

theorem declare_follows (name : Handle) (ty : Ty) (span : Span) :
    Follows env stops (declare env name ty span) := by
  intro s
  refine .bind (.of_run rfl ?_)
  cases warned : warningFor env s name span with
  | some warning =>
    -- The binding is decided by the context from before the warning, which does not change it.
    have run : Run env s (s.emit warning) := .warn s warned
    refine .bind (.of_run rfl ?_)
    split
    next ctx accepted => exact .of_run rfl (run.trans (.bind (s.emit warning) span accepted))
    next rejection rejected =>
      exact .of_run rfl (run.trans (.rebind (s.emit warning) span rejected))
  | none =>
    split
    next ctx accepted => exact .of_run rfl (.bind s span accepted)
    next rejection rejected => exact .of_run rfl (.rebind s span rejected)

theorem registerType_follows (name : Handle) (ty : Ty) (span : Span) :
    Follows env stops (registerType env name ty span) := by
  intro s
  refine .bind (.of_run rfl ?_)
  split
  next ctx accepted => exact .of_run rfl (.register s span accepted)
  next rejection rejected =>
    have step : Run env s (s.emit (redefined env s name span rejection)) :=
      .redefine s span rejected
    unfold redefined at step
    cases first : s.defined.find? name with
    | some place =>
      rw [first] at step
      exact .of_run rfl step
    | none =>
      rw [first] at step
      exact .of_run rfl step

theorem writtenType_quiet (name : Handle) (span : Span) :
    Quiet env stops (writtenType env name span) := by
  unfold writtenType
  split
  · exact .pure _
  intro s
  refine .bind (.of_run rfl ?_)
  split
  next rejection rejected =>
    have step : Run env s (s.emit (unresolvable env span rejection)) := .misname s span rejected
    cases rejection with
    | notImplemented name kind => exact .bind (.of_run rfl (.of_run rfl ⟨step, rfl⟩))
    | duplicate | underflow | redefined | unknownKind =>
      exact .bind (.of_run rfl (.of_run rfl ⟨step, rfl⟩))
  next ty resolved =>
    split
    · exact .of_run rfl ⟨.refl s, rfl⟩
    split
    next found registered =>
      obtain ⟨named, object⟩ := Option.filter_eq_some_iff.mp registered
      have step : Run env s (s.emit (unresolvedObject env s name span)) :=
        .nameObject s span named (of_decide_eq_true object)
      exact .bind (.of_run rfl (.of_run rfl ⟨step, rfl⟩))
    next =>
      have direct : Direct .unresolvedType (text "unknown type " ++ env.name name) :=
        .unknown (text "type " ++ env.name name) rfl
      exact .bind (.of_run rfl (.of_run rfl ⟨.report s span direct, rfl⟩))

theorem writtenType_follows (name : Handle) (span : Span) :
    Follows env stops (writtenType env name span) :=
  (writtenType_quiet name span).follows

theorem addMember_follows (owner name : Handle) (ty : Ty) (span : Span) :
    Follows env stops (addMember env owner name ty span) := by
  intro s
  have member : ((s.members.find? owner).getD .empty).find? name = s.memberOf owner name := by
    rw [State.memberOf]
    cases s.members.find? owner <;> rfl
  refine .bind (.of_run rfl ?_)
  simp only [member]
  split
  next found taken =>
    exact .bind (.of_run rfl (.of_run rfl (.repeatMember s span taken)))
  next free => exact .bind (.of_run rfl (.of_run rfl (.addMember s ty free)))

/-! ### Scopes -/

theorem openScope_leads {s : State} {post : Unit → State → Prop} (inside : post () s.opened) :
    Leads stops openScope s post :=
  .of_run rfl inside

/-- What ran inside a new scope leaves that scope on top of the stack, so it can be closed, and
the context has gone through nothing else. -/
theorem closeScope_leads {s t : State} {post : Unit → State → Prop} (inner : Run env s.opened t)
    (outside : ∀ u, Run env s u → s.ctx.Enclosed u.ctx → post () u) :
    Leads stops closeScope t post := by
  obtain ⟨top, ctx, closed⟩ := Context.Trail.closes inner.trail
  have ends : closeScope.run t = .ok () { t with ctx } := by
    simp only [closeScope, EStateM.run_bind, EStateM.run_get, closed]
    rfl
  refine .of_run ends (outside _ (.scope inner closed) (Or.inr ⟨t.ctx, top, inner.trail, closed⟩))

end TreeCheck.Check
