import TreeCheck.Proofs.Check.Moves
import TreeCheck.Proofs.Check.Twin

/-!
The warning options only add warnings. Two checks of one tree under different options go through
the same states but for what was emitted, and there they differ in nothing but the warnings that the
options ask for.
-/

namespace TreeCheck.Check

/-- The codes of the warnings that are emitted only where an option asks for them. -/
def optionalCodes : List Code :=
  [.shadowing, .globalRedefined]

/-- The diagnostics without those that an option asked for. -/
def unasked (told : List Diagnostic) : List Diagnostic :=
  told.filter fun d => d.code ∉ optionalCodes

/-- Under the code of an optional warning the diagnostic appears only if the option is on. -/
def Options.Allows (o : Options) (d : Diagnostic) : Prop :=
  (d.code = .shadowing → o.shadowing = true) ∧ (d.code = .globalRedefined → o.redefinition = true)

section

variable {o o' : Options} {d : Diagnostic}

theorem Options.allows_of_not_mem (always : d.code ∉ optionalCodes) : o.Allows d := by
  have other {code : Code} (member : code ∈ optionalCodes) (same : d.code = code) : False :=
    always (same ▸ member)
  exact ⟨fun same => (other (by decide) same).elim, fun same => (other (by decide) same).elim⟩

theorem Mistake.always (mistake : Mistake d) : d.code ∉ optionalCodes := by
  have apart : ∀ code ∈ errorCodes, code ∉ optionalCodes := by decide
  exact apart d.code mistake.code_mem

theorem noteAt_code (d : Diagnostic) (place : Option Span) (message : String) :
    (noteAt d place message).code = d.code := by
  cases place <;> rfl

theorem warningFor_asked {env : Env} {s : State} {name : Handle} {span : Span}
    (deserved : warningFor env s name span = some d) :
    d.code ∈ optionalCodes ∧ env.options.Allows d := by
  unfold warningFor at deserved
  split at deserved
  · split at deserved
    next both =>
      cases deserved
      rw [Options.Allows, noteAt_code]
      have on := (Bool.and_eq_true _ _ ▸ both).2
      exact ⟨List.mem_cons_of_mem _ List.mem_cons_self, nofun, fun _ => on⟩
    next => cases deserved
  · split at deserved
    next on =>
      split at deserved
      next outer found =>
        split at deserved
        · cases deserved
        · cases deserved
          rw [Options.Allows, noteAt_code]
          exact ⟨List.mem_cons_self, fun _ => on, nofun⟩
      next => cases deserved
    next => cases deserved

/-- What was emitted on the two sides differs in nothing but what the options ask for. -/
structure Agree (o o' : Options) (told told' : Array Diagnostic) : Prop where
  unasked_eq : unasked told.toList = unasked told'.toList
  allowed : ∀ d ∈ told.toList, o.Allows d
  allowed' : ∀ d ∈ told'.toList, o'.Allows d

theorem unasked_push (told : Array Diagnostic) (d : Diagnostic) :
    unasked (told.push d).toList =
      unasked told.toList ++ if d.code ∈ optionalCodes then [] else [d] := by
  rw [Array.toList_push, unasked, List.filter_append, unasked]
  by_cases member : d.code ∈ optionalCodes <;> simp [member]

theorem allowed_push {told : Array Diagnostic} (allowed : ∀ e ∈ told.toList, o.Allows e)
    (added : o.Allows d) : ∀ e ∈ (told.push d).toList, o.Allows e := by
  rw [Array.toList_push]
  intro e member
  rcases List.mem_append.mp member with old | new
  · exact allowed e old
  · exact List.mem_singleton.mp new ▸ added

variable {told told' : Array Diagnostic}

theorem Agree.push (agree : Agree o o' told told') (always : d.code ∉ optionalCodes) :
    Agree o o' (told.push d) (told'.push d) where
  unasked_eq := by rw [unasked_push, unasked_push, agree.unasked_eq]
  allowed := allowed_push agree.allowed (Options.allows_of_not_mem always)
  allowed' := allowed_push agree.allowed' (Options.allows_of_not_mem always)

theorem Agree.warned (agree : Agree o o' told told') (optional : d.code ∈ optionalCodes)
    (asked : o.Allows d) : Agree o o' (told.push d) told' where
  unasked_eq := by rw [unasked_push, if_pos optional, List.append_nil, agree.unasked_eq]
  allowed := allowed_push agree.allowed asked
  allowed' := agree.allowed'

theorem Agree.symm (agree : Agree o o' told told') : Agree o' o told' told :=
  ⟨agree.unasked_eq.symm, agree.allowed', agree.allowed⟩

end

/-! ### Steps under two settings of the options -/

/-- The second state is the first one, but for the warnings that the options ask for. -/
inductive Beside (o o' : Options) (s : State) : State → Prop
  | intro {told : Array Diagnostic} : Agree o o' s.emitted told →
    Beside o o' s { s with emitted := told }

section

variable {o o' : Options} {names : Interner} {s t : State}

theorem Beside.emit (beside : Beside o o' s t) {d : Diagnostic} (always : d.code ∉ optionalCodes) :
    Beside o o' (s.emit d) (t.emit d) := by
  obtain ⟨agree⟩ := beside
  exact ⟨agree.push always⟩

theorem Beside.warned (beside : Beside o o' s t) {w w' : Option Diagnostic}
    (left : ∀ d, w = some d → d.code ∈ optionalCodes ∧ o.Allows d)
    (right : ∀ d, w' = some d → d.code ∈ optionalCodes ∧ o'.Allows d) :
    Beside o o' (s.tell w) (t.tell w') := by
  obtain ⟨agree⟩ := beside
  cases w with
  | none =>
    cases w' with
    | none => exact ⟨agree⟩
    | some d' =>
      obtain ⟨optional, asked⟩ := right d' rfl
      exact ⟨(agree.symm.warned optional asked).symm⟩
  | some d =>
    obtain ⟨optional, asked⟩ := left d rfl
    cases w' with
    | none => exact ⟨agree.warned optional asked⟩
    | some d' =>
      obtain ⟨optional', asked'⟩ := right d' rfl
      exact ⟨((agree.warned optional asked).symm.warned optional' asked').symm⟩

theorem Beside.binding (beside : Beside o o' s t) (name : Handle) (ty : Ty) (span : Span) :
    Beside o o' (s.binding ⟨names, o⟩ name ty span) (t.binding ⟨names, o'⟩ name ty span) := by
  have always (rejection : Context.Rejection) :
      (rebound ⟨names, o⟩ s name span rejection).code ∉ optionalCodes :=
    (rebound_mistake s name span rejection).always
  obtain ⟨agree⟩ := beside
  unfold State.binding
  dsimp only
  cases s.ctx.declare name ty with
  | ok ctx => exact ⟨agree⟩
  | error rejection => exact Beside.emit ⟨agree⟩ (always rejection)

theorem Beside.registering (beside : Beside o o' s t) (name : Handle) (ty : Ty) (span : Span) :
    Beside o o' (s.registering ⟨names, o⟩ name ty span)
      (t.registering ⟨names, o'⟩ name ty span) := by
  have always (rejection : Context.Rejection) :
      (redefined ⟨names, o⟩ s name span rejection).code ∉ optionalCodes :=
    (redefined_mistake s name span rejection).always
  obtain ⟨agree⟩ := beside
  unfold State.registering
  dsimp only
  cases s.ctx.register name ty with
  | ok ctx => exact ⟨agree⟩
  | error rejection => exact Beside.emit ⟨agree⟩ (always rejection)

theorem resolved_always {env : Env} {name : Handle} {span : Span} {d : Diagnostic}
    (told : (s.resolved env name span).2 = some d) : d.code ∉ optionalCodes := by
  unfold State.resolved at told
  split at told
  · cases told
  split at told
  next rejection _ =>
    cases told
    exact (unresolvable_mistake span rejection).always
  next ty _ =>
    split at told
    · cases told
    split at told
    next =>
      cases told
      exact (by decide : Code.unresolvedType ∉ optionalCodes)
    next =>
      cases told
      exact (by decide : Code.unresolvedType ∉ optionalCodes)

theorem Beside.resolved_eq (beside : Beside o o' s t) (name : Handle) (span : Span) :
    t.resolved ⟨names, o'⟩ name span = s.resolved ⟨names, o⟩ name span := by
  obtain ⟨_⟩ := beside
  rfl

theorem beside_steps (names : Interner) (o o' : Options) :
    Steps .same ⟨names, o⟩ ⟨names, o'⟩ (Beside o o') where
  consistent := Likeness.same_consistent names
  record id a b alike := by
    rintro s _ ⟨agree⟩
    exact .ok alike (alike.eq ▸ ⟨agree⟩)
  annotate slot a b alike := by
    rintro s _ ⟨agree⟩
    exact .ok trivial (alike.eq ▸ ⟨agree⟩)
  report {code} span _ message member := by
    rintro rfl s t beside
    have apart : ∀ c ∈ errorCodes, c ∉ optionalCodes := by decide
    exact .ok trivial (beside.emit (apart code member))
  absent := fun s t beside => .error .absent beside
  openScope := by
    rintro s _ ⟨agree⟩
    exact .ok trivial ⟨agree⟩
  closeScope := by
    rintro s _ ⟨agree⟩
    simp only [closeScope, EStateM.run_bind, EStateM.run_get]
    cases s.ctx.closeScope with
    | ok closed => exact .ok trivial ⟨agree⟩
    | error rejection => exact .error _ ⟨agree⟩
  lookup {h _} := by
    rintro rfl s _ ⟨agree⟩
    refine .ok ?_ ⟨agree⟩
    cases s.ctx.lookup h with
    | none => exact .none
    | some symbol => exact .some (.refl _)
  objectNamed {h _} := by
    rintro rfl s _ ⟨agree⟩
    exact .ok (Ty.refl_part _) ⟨agree⟩
  member {a _ h _} alike := by
    rintro rfl s _ ⟨agree⟩
    refine .ok ?_ ⟨agree⟩
    rw [← alike.eq]
    exact Ty.refl_part _
  declare {h _ a _ p _} := by
    rintro rfl alike rfl s t beside
    rw [declare_run, declare_run, ← alike.eq]
    refine .ok trivial (Beside.binding (beside.warned ?_ ?_) h a p)
    · exact fun _ deserved => warningFor_asked deserved
    · exact fun _ deserved => warningFor_asked deserved
  registerType {h _ a _ p _} := by
    rintro rfl alike rfl s t beside
    rw [registerType_run, registerType_run, ← alike.eq]
    exact .ok trivial (beside.registering h a p)
  resolve {h _ p _} := by
    rintro rfl rfl s t beside
    rw [writtenType_run, writtenType_run, beside.resolved_eq]
    refine .ok (.refl _) ?_
    cases told : (s.resolved ⟨names, o⟩ h p).2 with
    | none => exact beside
    | some d => exact beside.emit (resolved_always told)
  addMember {g h _ _ a _ p _} := by
    rintro rfl rfl alike rfl s t beside
    rw [addMember_run, addMember_run, ← alike.eq]
    have same : t.memberOf g h = s.memberOf g h := by
      obtain ⟨_⟩ := beside
      rfl
    rw [same]
    cases s.memberOf g h with
    | some ty => exact .ok rfl (beside.emit (by decide : Code.duplicateBinding ∉ optionalCodes))
    | none =>
      obtain ⟨agree⟩ := beside
      exact .ok rfl ⟨agree⟩

end

/-- Two checks of one tree from one context, under any two settings of the warning options, end
alike: they come to their ends or stop at the same fault, with the same types, slots and context,
and with the same diagnostics in the same order, but for the warnings that an option asks for. Under
an option that is off there is none of its warnings. What was emitted is what a reporter without a
limit has; without a reporter it is dropped. -/
theorem options_only_add_warnings (names : Interner) (t : Tree) (ctx : Context) (o o' : Options) :
    ∃ s s' : State,
      (((tree ⟨names, o⟩ t).run (.start ctx) = .ok () s ∧
          (tree ⟨names, o'⟩ t).run (.start ctx) = .ok () s') ∨
        ∃ fault, (tree ⟨names, o⟩ t).run (.start ctx) = .error fault s ∧
          (tree ⟨names, o'⟩ t).run (.start ctx) = .error fault s') ∧
      s.types = s'.types ∧ s.slots = s'.slots ∧ s.ctx = s'.ctx ∧
      unasked s.emitted.toList = unasked s'.emitted.toList ∧
      (∀ d ∈ s.emitted.toList, o.Allows d) ∧ ∀ d ∈ s'.emitted.toList, o'.Allows d := by
  have start : Beside o o' (.start ctx) (.start ctx) := ⟨⟨rfl, nofun, nofun⟩⟩
  have nodes : List.Forall₂ (Option.Rel Eq) t.nodes t.nodes := by
    rw [Option.rel_same, List.forall₂_eq_eq_eq]
  have layer {n m : Node} : n = m ↔ Node.Layer .same Eq n m := by rw [Node.layer_same]
  have ends := tree_conform (beside_steps names o o') layer nodes _ _ start
  generalize (tree ⟨names, o⟩ t).run (.start ctx) = left at ends ⊢
  generalize (tree ⟨names, o'⟩ t).run (.start ctx) = right at ends ⊢
  cases ends with
  | @ok _ _ s s' _ beside =>
    obtain ⟨agree⟩ := beside
    exact ⟨s, _, .inl ⟨rfl, rfl⟩, rfl, rfl, rfl, agree.unasked_eq, agree.allowed, agree.allowed'⟩
  | @error fault s s' beside =>
    obtain ⟨agree⟩ := beside
    exact ⟨s, _, .inr ⟨fault, rfl, rfl⟩, rfl, rfl, rfl, agree.unasked_eq, agree.allowed,
      agree.allowed'⟩

end TreeCheck.Check
