import TreeCheck.Proofs.Check.Registry
import TreeCheck.Proofs.Check.Vector
import TreeCheck.Proofs.Ty.Readable

/-!
What is told of types that do not fit. Every rule that reports a mismatch has compared the two types
before, and found both known and different; so the two types are told apart in the message too,
unless their labels cannot be read.
-/

namespace TreeCheck.Check

/-! ### What may be told -/

/-- What may be told: under the code of a type mismatch, that two types do not fit, that a value
cannot be indexed, or that an operand is no number; and anything under other codes. -/
inductive Voiced (env : Env) : Diagnostic → Prop
  | other {d : Diagnostic} (code : d.code ≠ .typeMismatch) : Voiced env d
  | unfit (span : Span) (what : Text) {want got : Ty}
      (misfit : Ty.compatible want got = false) :
      Voiced env (.error .typeMismatch span
        (what ++ text ": expected " ++ env.label want ++ text ", found " ++ env.label got))
  | unindexed (span : Span) (ty : Ty) :
      Voiced env (.error .typeMismatch span
        (text "cannot index a value of type " ++ env.label ty))
  | operand (span : Span) (op : Operator) (ty : Ty) :
      Voiced env (.error .typeMismatch span
        (text "operand of " ++ op.symbol ++ text " must be numeric, found " ++ env.label ty))

variable {α β : Type} {env : Env}

/-- Whether it ends in a result or stops, the step tells nothing but what may be told. -/
def Voices (env : Env) (x : Check α) : Prop :=
  ∀ s, ∀ d ∈ (endState x s).emitted.toList, d ∈ s.emitted.toList ∨ Voiced env d

namespace Voices

variable {x : Check α} {f : α → Check β}

theorem of_keeps (keeps : ∀ s, endState x s = s) : Voices env x := by
  intro s d told
  rw [keeps] at told
  exact .inl told

theorem pure (a : α) : Voices env (Pure.pure a : Check α) :=
  of_keeps fun _ => rfl

theorem bind (first : Voices env x) (rest : ∀ a, Voices env (f a)) : Voices env (x >>= f) := by
  intro s d told
  have before := first s d
  rw [endState, EStateM.run_bind] at told
  rw [endState] at before
  cases ends : x.run s with
  | ok a t =>
    rw [ends] at told before
    rcases rest a t d told with old | new
    · exact before old
    · exact .inr new
  | error fault t =>
    rw [ends] at told before
    exact before told

theorem discard (voices : Voices env x) : Voices env (Functor.discard x) :=
  bind voices fun _ => pure ()

theorem whenever {c : Prop} [Decidable c] {y : Check Unit} (voices : c → Voices env y) :
    Voices env (if c then y else Pure.pure ()) := by
  split
  next holds => exact voices holds
  next => exact pure ()

theorem guarded {c : Prop} [Decidable c] {y : Check Unit} {k : Unit → Check β}
    (voices : c → Voices env y) (rest : Voices env (k ())) :
    Voices env (if c then y >>= k else k ()) := by
  split
  next holds => exact (voices holds).bind fun _ => rest
  next => exact rest

theorem mapM {xs : List β} {g : β → Check α} (each : ∀ b, Voices env (g b)) :
    Voices env (xs.mapM g) := by
  induction xs with
  | nil => exact pure []
  | cons b rest ih =>
    rw [List.mapM_cons]
    exact bind (each b) fun a => bind ih fun _ => pure _

theorem forM {xs : List β} {g : β → Check Unit} (each : ∀ b, Voices env (g b)) :
    Voices env (xs.forM g) := by
  induction xs with
  | nil => exact pure ()
  | cons b rest ih => exact bind (each b) fun _ => ih

theorem foldlM {xs : List β} {g : α → β → Check α} (each : ∀ a b, Voices env (g a b)) (a : α) :
    Voices env (xs.foldlM g a) := by
  induction xs generalizing a with
  | nil => exact pure a
  | cons b rest ih =>
    rw [List.foldlM_cons]
    exact bind (each a b) fun next => ih next

theorem of_move (move : Move) (same : ∀ s, endState x s = s.take env move)
    (silent : ∀ code span message, move ≠ .report code span message) : Voices env x := by
  intro s d told
  rw [same, State.take_emitted] at told
  refine (List.mem_append.mp told).imp_right fun new => .other ?_
  cases move with
  | report code span message => exact absurd rfl (silent code span message)
  | record | annotate | enter | leave => cases new
  | declare name ty span =>
    rcases told_declare new with warned | ⟨rejection, _, rfl⟩
    · rcases warningFor_inv warned with ⟨code, _⟩ | ⟨code, _⟩
      · rw [code]
        decide
      · rw [code]
        decide
    · rw [rebound_code]
      decide
  | register n name ty span =>
    obtain ⟨rejection, _, rfl⟩ := told_register new
    rw [redefined_code]
    decide
  | resolve name span =>
    have said : (s.resolved env name span).2 = some d := Option.mem_toList.mp new
    unfold State.resolved at said
    split at said
    · cases said
    split at said
    next rejection _ =>
      cases said
      unfold unresolvable
      split
      · exact (by decide : Code.notImplemented ≠ .typeMismatch)
      · exact (by decide : Code.semantic ≠ .typeMismatch)
    split at said
    · cases said
    split at said
    · cases said
      exact (by decide : Code.unresolvedType ≠ .typeMismatch)
    · cases said
      exact (by decide : Code.unresolvedType ≠ .typeMismatch)
  | addMember owner name ty span =>
    unfold Move.told at new
    dsimp only at new
    split at new
    · cases List.mem_singleton.mp new
      exact (by decide : Code.duplicateBinding ≠ .typeMismatch)
    · cases new

end Voices

/-! ### The steps on the state -/

theorem record_voices (id : Nat) (ty : Ty) : Voices env (record id ty) :=
  .of_move (.record id ty) (fun _ => rfl) nofun

theorem annotate_voices (slot : Slot) (ty : Ty) : Voices env (annotate slot ty) :=
  .of_move (.annotate slot ty) (fun _ => rfl) nofun

theorem openScope_voices : Voices env openScope :=
  .of_move .enter (fun _ => rfl) nofun

theorem closeScope_voices : Voices env closeScope :=
  .of_move .leave (fun _ => rfl) nofun

theorem declare_voices (name : Handle) (ty : Ty) (span : Span) :
    Voices env (declare env name ty span) :=
  .of_move (.declare name ty span) (fun _ => rfl) nofun

theorem registerType_voices (name : Handle) (ty : Ty) (span : Span) :
    Voices env (registerType env name ty span) :=
  -- which node defines the type does not matter to what is told
  .of_move (.register (.nil ⟨0, 0, 0, 0⟩) name ty span) (fun _ => rfl) nofun

theorem writtenType_voices (name : Handle) (span : Span) :
    Voices env (writtenType env name span) :=
  .of_move (.resolve name span) (fun s => (endState_discard _ s).symm) nofun

theorem addMember_voices (owner name : Handle) (ty : Ty) (span : Span) :
    Voices env (addMember env owner name ty span) :=
  .of_move (.addMember owner name ty span) (fun s => (endState_discard _ s).symm) nofun

theorem report_voices {code : Code} {span : Span} {message : Text}
    (voiced : Voiced env (.error code span message)) : Voices env (report code span message) := by
  intro s d told
  refine (List.mem_append.mp (Array.toList_push ▸ told)).imp_right fun new => ?_
  rwa [List.mem_singleton.mp new]

theorem other_voices {code : Code} (other : code ≠ .typeMismatch) (span : Span) (message : Text) :
    Voices env (report code span message) :=
  report_voices (.other other)

theorem failed_voices {code : Code} (other : code ≠ .typeMismatch) (span : Span) (message : Text)
    (a : α) : Voices env (do report code span message; return a) :=
  .bind (other_voices other span message) fun _ => .pure a

theorem mismatch_voices {span : Span} {what : Text} {want got : Ty}
    (misfit : (!Ty.compatible want got) = true) :
    Voices env (mismatch env span what want got) :=
  report_voices (.unfit span what (Bool.not_eq_true' _ ▸ misfit))

theorem lookup_voices (name : Handle) : Voices env (lookup name) :=
  .of_keeps fun _ => rfl

theorem objectNamed_voices (name : Handle) : Voices env (objectNamed name) :=
  .of_keeps fun _ => rfl

theorem member_voices (ty : Ty) (name : Handle) : Voices env (member ty name) :=
  .of_keeps fun _ => rfl

theorem spanOf_voices (n : Option Node) : Voices env (spanOf n) := by
  cases n with
  | some n => exact .pure n.span
  | none => exact .of_keeps fun _ => rfl

section

variable {below : Below} (voices : ∀ slot, Voices env (below slot))
include voices

/-! ### Blocks and lambdas -/

theorem body_voices (n : Node) : Voices env (body below n) := by
  unfold body
  split
  next site exprs =>
    exact .bind (.foldlM (fun _ slot => voices slot) _) fun ty => record_voices site.id ty
  next => exact voices (some n)

theorem block_voices (slot : Option Node) : Voices env (block below slot) := by
  cases slot with
  | none => exact .pure _
  | some n =>
    refine .bind openScope_voices fun _ => .bind (body_voices voices n) fun ty => ?_
    exact .bind closeScope_voices fun _ => .pure ty

theorem withDefault_voices (what : Text) (written : Ty) (default : Option Node) :
    Voices env (withDefault env below what written default) := by
  cases default with
  | none => exact .pure written
  | some n => exact .bind (voices (some n)) fun ty => .guarded mismatch_voices (.pure _)

theorem bindParams_voices (node index : Nat) (parts : List (Param Node × Ty)) :
    Voices env (bindParams env below node index parts) := by
  induction parts generalizing index with
  | nil => exact .pure []
  | cons part rest ih =>
    refine .bind (withDefault_voices voices _ _ _) fun ty => ?_
    refine .bind (annotate_voices _ ty) fun _ => .bind (declare_voices _ ty _) fun _ => ?_
    exact .bind (ih (index + 1)) fun _ => .pure _

theorem lambdaBody_voices (l : Lambda Node) (sig : Ty) :
    Voices env (lambdaBody env below l sig) := by
  have finish (args : List Ty) (bodyTy : Ty) : Voices env (do
      closeScope
      let result := sig.resultType
      if !Ty.compatible result bodyTy then
        mismatch env l.site.span (text "return value") result bodyTy
      let ty := Ty.lambda (if result.isResolved then result else bodyTy) args
      annotate (.own l.site.id) ty
      record l.site.id ty : Check Ty) := by
    refine .bind closeScope_voices fun _ => .guarded mismatch_voices ?_
    exact .bind (annotate_voices _ _) fun _ => record_voices _ _
  refine .bind openScope_voices fun _ => .bind (bindParams_voices voices _ _ _) fun args => ?_
  dsimp only
  split
  next n _ => exact .bind (body_voices voices n) fun bodyTy => finish args bodyTy
  next => exact .bind (.pure Ty.nil) fun bodyTy => finish args bodyTy

omit voices in
theorem paramTypes_voices (node index : Nat) (params : List (Param Node)) :
    Voices env (paramTypes env node index params) := by
  induction params generalizing index with
  | nil => exact .pure []
  | cons p rest ih =>
    refine .bind (writtenType_voices p.declared p.span) fun ty => ?_
    exact .bind (annotate_voices _ ty) fun _ => .bind (ih (index + 1)) fun _ => .pure _

omit voices in
theorem signature_voices (l : Lambda Node) : Voices env (signature env l) :=
  .bind (paramTypes_voices l.site.id 0 l.params) fun _ =>
    .bind (writtenType_voices l.declared l.site.span) fun _ => .pure _

theorem lambda_voices (l : Lambda Node) : Voices env (lambda env below l) :=
  .bind (signature_voices l) fun sig => lambdaBody_voices voices l sig

/-! ### Definitions -/

theorem define_voices (site : Site) (name : Handle) (value : Option Node) (declared : Handle) :
    Voices env (define env below site name value declared) := by
  refine .bind (voices value) fun valueTy => .bind (writtenType_voices _ _) fun want => ?_
  refine .guarded mismatch_voices (.bind (annotate_voices _ _) fun _ => ?_)
  exact .bind (declare_voices _ _ _) fun _ => .pure _

theorem function_voices (f : Function Node) : Voices env (function env below f) := by
  unfold function
  split
  next => exact failed_voices (by decide) _ _ _
  next l _ =>
    refine .bind (signature_voices l) fun sig => .bind (declare_voices _ _ _) fun _ => ?_
    exact lambdaBody_voices voices l sig

theorem fields_voice (node : Nat) (owner : Handle) (index : Nat) (parts : List (Field Node)) :
    Voices env (fields env below node owner index parts) := by
  induction parts generalizing index with
  | nil => exact .pure []
  | cons f rest ih =>
    refine .bind (writtenType_voices f.declared f.span) fun written => ?_
    refine .bind (withDefault_voices voices _ written f.default) fun ty => ?_
    refine .bind (annotate_voices _ ty) fun _ => .bind (addMember_voices _ _ ty _) fun _ => ?_
    exact .bind (ih (index + 1)) fun _ => .pure _

theorem struct_voices (site : Site) (name : Handle) (parts : List (Field Node)) :
    Voices env (struct env below site name parts) :=
  .bind (annotate_voices _ _) fun _ => .bind (registerType_voices _ _ _) fun _ =>
    .bind (fields_voice voices _ _ _ _) fun _ => .pure _

omit voices in
theorem superTypes_voice (site : Site) (name : Handle) (supers : List Handle) :
    Voices env (superTypes env site name supers) := by
  induction supers with
  | nil => exact .pure []
  | cons super rest ih =>
    refine .bind (objectNamed_voices super) fun found => ?_
    split
    · exact .bind ih fun _ => .pure _
    · exact .bind (other_voices (by decide) _ _) fun _ => ih

omit voices in
theorem bindFields_voice (seen : List Handle) (parts : List (Field Node × Ty)) :
    Voices env (bindFields env seen parts) := by
  induction parts generalizing seen with
  | nil => exact .pure ()
  | cons part rest ih =>
    unfold bindFields
    split
    · exact ih seen
    · exact .bind (declare_voices _ _ _) fun _ => ih (part.1.name :: seen)

omit voices in
theorem bindMethods_voice (owner : Handle) (methods : List (Function Node)) :
    Voices env (bindMethods env owner methods) := by
  induction methods with
  | nil => exact .pure []
  | cons m rest ih =>
    unfold bindMethods
    split
    next => exact .bind (other_voices (by decide) _ _) fun _ => ih
    next l _ =>
      refine .bind (signature_voices l) fun sig => ?_
      refine .bind (addMember_voices _ _ sig _) fun added => ?_
      exact .guarded (fun _ => declare_voices _ _ _) (.bind ih fun _ => .pure _)

theorem cls_voices (site : Site) (c : Class Node) : Voices env (cls env below site c) := by
  refine .bind (superTypes_voice site c.name c.supers) fun supers => ?_
  refine .bind (annotate_voices _ _) fun _ => .bind (registerType_voices _ _ _) fun _ => ?_
  refine .bind (fields_voice voices _ _ _ _) fun types => .bind openScope_voices fun _ => ?_
  refine .bind (bindFields_voice [] _) fun _ => .bind (bindMethods_voice _ _) fun lambdas => ?_
  refine .bind (.forM fun l => .discard (lambda_voices voices l)) fun _ => ?_
  refine .bind (.forM fun part => .discard (lambdaBody_voices voices part.1 part.2)) fun _ => ?_
  refine .bind (.forM fun hook => .discard (block_voices voices hook)) fun _ => ?_
  exact .bind closeScope_voices fun _ => .pure _

/-! ### Variables, branches and indices -/

omit voices in
theorem ident_voices (site : Site) (name : Handle) : Voices env (ident env site name) := by
  refine .bind (lookup_voices name) fun found => ?_
  split
  · exact .pure _
  · exact failed_voices (by decide) _ _ _

theorem assign_voices (site : Site) (name : Handle) (value : Option Node) :
    Voices env (assign env below site name value) := by
  refine .bind (voices value) fun valueTy => .bind (lookup_voices name) fun found => ?_
  split
  · exact failed_voices (by decide) _ _ _
  · exact .guarded mismatch_voices (.pure _)

theorem condition_voices (slot : Option Node) : Voices env (condition env below slot) := by
  refine .bind (voices slot) fun ty => ?_
  cases slot with
  | none => exact .pure ()
  | some n => exact .whenever mismatch_voices

theorem branch_voices (node index : Nat) (b : Branch Node) :
    Voices env (branch env below node index b) :=
  .bind (condition_voices voices b.guard) fun _ => .bind (block_voices voices b.body) fun ty =>
    .bind (annotate_voices _ ty) fun _ => .pure _

theorem branches_voice (node index : Nat) (parts : List (Branch Node)) :
    Voices env (branches env below node index parts) := by
  induction parts generalizing index with
  | nil => exact .pure []
  | cons b rest ih =>
    exact .bind (branch_voices voices node index b) fun _ => .bind (ih (index + 1)) fun _ => .pure _

theorem cond_voices (site : Site) (parts : List (Branch Node)) (otherwise : Option Node) :
    Voices env (cond env below site parts otherwise) :=
  .bind (branches_voice voices site.id 0 parts) fun _ =>
    .bind (block_voices voices otherwise) fun _ => .bind (annotate_voices _ _) fun _ => .pure _

theorem access_voices (site : Site) (index target : Option Node) :
    Voices env (access env below site index target) := by
  refine .bind (voices target) fun ty => ?_
  have finish : Voices env (do
      if ty.kind = .vector then return ty.elemType
      else if ty.kind = .pair || ty.kind = .unresolved then return .unresolved
      else
        report .typeMismatch (spanOr target site.span)
          (text "cannot index a value of type " ++ env.label ty)
        return .unresolved : Check Ty) := by
    split
    · exact .pure _
    split
    · exact .pure _
    · exact .bind (report_voices (.unindexed _ ty)) fun _ => .pure _
  cases index with
  | none => exact finish
  | some n => exact .bind (voices (some n)) fun indexTy => .guarded mismatch_voices finish

/-! ### Calls and member accesses -/

omit voices in
theorem matchArgs_voices (span : Span) (what : Text) (args : List (Argument Node × Ty))
    (params : List Ty) : Voices env (matchArgs env span what args params) := by
  induction args generalizing params with
  | nil => exact .pure ()
  | cons arg rest ih =>
    cases params with
    | nil => exact .pure ()
    | cons param params =>
      unfold matchArgs
      exact .guarded (fun both => mismatch_voices (Bool.and_eq_true_iff.mp both).2) (ih params)

theorem apply_voices (span : Span) (what : Text) (callee : Ty) (args : List (Argument Node)) :
    Voices env (apply env below span what callee args) := by
  refine .bind (.mapM fun a => voices a.value) fun types => ?_
  split
  · exact .pure _
  split
  · exact failed_voices (by decide) _ _ _
  · refine .guarded (fun _ => other_voices (by decide) _ _) ?_
    exact .bind (matchArgs_voices _ _ _ _) fun _ => .pure _

theorem discarded_voice (args : List (Argument Node)) :
    Voices env (args.forM fun a => discard (below a.value)) :=
  .forM fun a => .discard (voices a.value)

theorem call_voices (site : Site) (name : Handle) (args : List (Argument Node)) :
    Voices env (call env below site name args) := by
  refine .bind (lookup_voices name) fun found => ?_
  split
  · exact apply_voices voices _ _ _ _
  · refine .bind (discarded_voice voices args) fun _ => ?_
    exact failed_voices (by decide) _ _ _

theorem follow_voices (ty : Ty) (accessors : List (Accessor Node)) :
    Voices env (follow env below ty accessors) := by
  induction accessors generalizing ty with
  | nil => exact .pure ty
  | cons a rest ih =>
    unfold follow
    split
    · exact .bind (discarded_voice voices a.args) fun _ => ih ty
    dsimp only
    split
    · refine .bind (member_voices _ _) fun found => ?_
      split
      · exact failed_voices (by decide) _ _ _
      split
      · exact ih _
      · exact .bind (apply_voices voices _ _ _ _) fun result => ih result
    -- only an object has members
    · exact failed_voices (by decide) _ _ _

theorem invoke_voices (site : Site) (callee : Option Node) (accessors : List (Accessor Node))
    (args : List (Argument Node)) : Voices env (invoke env below site callee accessors args) :=
  .bind (voices callee) fun ty => .bind (follow_voices voices ty accessors) fun _ =>
    apply_voices voices _ _ _ _

theorem chain_voices (c : Chain Node) : Voices env (chain env below c) := by
  refine .bind (lookup_voices c.name) fun found => ?_
  split
  · exact follow_voices voices _ _
  · exact failed_voices (by decide) _ _ _

theorem assignMember_voices (site : Site) (target : Option (Chain Node)) (value : Option Node) :
    Voices env (assignMember env below site target value) := by
  refine .bind (voices value) fun valueTy => ?_
  cases target with
  | none => exact .pure _
  | some c =>
    exact .bind (voices (some (.member c))) fun ty => .guarded mismatch_voices (.pure _)

/-! ### Objects and operations -/

omit voices in
theorem bound_misfit (isFloat : Bool) {ty : Ty}
    (known : (ty.isResolved && !ty.kind.isNumeric) = true) :
    (!Ty.compatible (if isFloat then Ty.float else Ty.integer) ty) = true := by
  obtain ⟨resolved, other⟩ := Bool.and_eq_true_iff.mp known
  have numeric : (if isFloat then Ty.float else Ty.integer).kind.isNumeric = true := by
    cases isFloat <;> rfl
  have wanted : (if isFloat then Ty.float else Ty.integer).isResolved = true := by
    cases isFloat <;> rfl
  have differ : Ty.equal (if isFloat then Ty.float else Ty.integer) ty = false := by
    refine Bool.eq_false_iff.mpr fun same => ?_
    rw [← Ty.kind_eq_of_equal same, numeric] at other
    cases other
  rw [Ty.compatible_eq_false_iff.mpr ⟨wanted, resolved, differ⟩, Bool.not_false]

theorem random_voices (isFloat : Bool) (bounds : List (Option Node)) :
    Voices env (random env below isFloat bounds) := by
  refine .bind (.forM fun bound => ?_) fun _ => .pure _
  cases bound with
  | none => exact .pure ()
  | some n =>
    refine .bind (voices (some n)) fun ty => .whenever fun known => ?_
    exact mismatch_voices (bound_misfit isFloat known)

omit voices in
theorem unknownObject_voices (site : Site) (name : Handle) :
    Voices env (unknownObject env site name) :=
  failed_voices (by decide) _ _ _

theorem create_voices (site : Site) (name : Handle) (args : List (Initializer Node)) :
    Voices env (create env below site name args) := by
  refine .bind (objectNamed_voices name) fun found => ?_
  split
  · refine .bind (.forM fun a => .discard (voices a.value)) fun _ => ?_
    exact unknownObject_voices site name
  · refine .bind (.forM fun a => ?_) fun _ => .pure _
    refine .bind (voices a.value) fun valueTy => .bind (member_voices _ a.name) fun found => ?_
    split
    · exact other_voices (by decide) _ _
    · exact .whenever mismatch_voices

theorem construct_voices (site : Site) (name : Handle) (args : List (Argument Node)) :
    Voices env (construct env below site name args) := by
  refine .bind (discarded_voice voices args) fun _ => ?_
  refine .bind (objectNamed_voices name) fun found => ?_
  split
  · exact unknownObject_voices site name
  · exact .pure _

theorem vector_voices (elems : List (Option Node)) : Voices env (vector env below elems) := by
  refine .bind (.mapM voices) fun types => ?_
  split
  next => exact .pure _
  next head first rest _ =>
    dsimp only
    split
    · split
      next slot ty conflicting =>
        have misfit := conflict_incompatible conflicting
        refine .bind (spanOf_voices slot) fun span => ?_
        refine .bind (mismatch_voices ?_) fun _ => .pure _
        rw [misfit, Bool.not_false]
      next => exact .pure _
    · exact .pure _

omit voices in
theorem arithmetic_voices (op : Operator) (result : Ty) (parts : List (Option Node × Ty)) :
    Voices env (arithmetic env op result parts) := by
  induction parts generalizing result with
  | nil => exact .pure result
  | cons part rest ih =>
    unfold arithmetic
    split
    · exact ih _
    split
    · refine .bind (spanOf_voices part.1) fun span => ?_
      exact .bind (report_voices (.operand span op part.2)) fun _ => ih _
    split
    · exact ih _
    · exact ih _

theorem operation_voices (site : Site) (op : Operator) (operands : List (Option Node)) :
    Voices env (operation env below site op operands) := by
  refine .bind (.mapM voices) fun types => ?_
  split
  · exact arithmetic_voices op _ _
  · exact .pure _
  · refine .bind (.forM fun part => .whenever fun misfit => ?_) fun _ => .pure _
    exact .bind (spanOf_voices part.1) fun span => mismatch_voices misfit
  · exact .pure _
  · exact failed_voices (by decide) _ _ _

/-! ### Nodes -/

theorem node_voices (n : Node) : Voices env (node env below n) := by
  have record {x : Check Ty} (id : Nat) (checked : Voices env x) :
      Voices env (do record id (← x)) :=
    checked.bind (record_voices id)
  cases n with
  | integer site | float site | boolean site | string site | nil site | quote site | pair site =>
    exact record_voices site.id _
  | vector site => exact record site.id (vector_voices voices _)
  | define site => exact record site.id (define_voices voices _ _ _ _)
  | lambda l => exact lambda_voices voices l
  | function f => exact record f.site.id (function_voices voices f)
  | struct site => exact record site.id (struct_voices voices _ _ _)
  | cls site => exact record site.id (cls_voices voices _ _)
  | ident site => exact record site.id (ident_voices _ _)
  | assign site => exact record site.id (assign_voices voices _ _ _)
  | block site exprs => exact block_voices voices (some (.block site exprs))
  | print site => exact .bind (voices _) fun _ => record_voices site.id _
  | cond site => exact record site.id (cond_voices voices _ _ _)
  | conds site => exact record site.id (cond_voices voices _ _ _)
  | loop site =>
    exact .bind (condition_voices voices _) fun _ => .bind (block_voices voices _) fun _ =>
      record_voices site.id _
  | cons site =>
    exact .bind (voices _) fun _ => .bind (voices _) fun _ => record_voices site.id _
  | list site =>
    refine .bind (.forM fun slot => .discard (voices slot)) fun _ => ?_
    exact .bind (annotate_voices _ _) fun _ => record_voices site.id _
  | access site => exact record site.id (access_voices voices _ _ _)
  | call site => exact record site.id (call_voices voices _ _ _)
  | invoke site => exact record site.id (invoke_voices voices _ _ _ _)
  | member c => exact record c.site.id (chain_voices voices c)
  | assignMember site => exact record site.id (assignMember_voices voices _ _ _)
  | random site => exact record site.id (random_voices voices _ _)
  | create site => exact record site.id (create_voices voices _ _ _)
  | construct site => exact record site.id (construct_voices voices _ _ _)
  | operation site =>
    refine .bind (operation_voices voices site _ _) fun ty => ?_
    exact .bind (annotate_voices _ ty) fun _ => record_voices site.id ty
  | foreign site => exact failed_voices (by decide) _ _ _

end

theorem expr_voices (env : Env) (depth : Nat) (slot : Option Node) :
    Voices env (expr env depth slot) := by
  induction depth generalizing slot with
  | zero => exact .pure _
  | succ depth ih =>
    cases slot with
    | none => exact .pure _
    | some n => exact node_voices ih n

theorem tree_voices (env : Env) (t : Tree) : Voices env (tree env t) :=
  .forM fun slot => .discard (expr_voices env _ slot)

/-! ### What is told under the code of a mismatch -/

/-- What is told under the code of a mismatch: that of two types one was wanted and the other found,
where the two differ, and so do their labels if both can be read; or something about one type. -/
inductive Discerned (env : Env) : Diagnostic → Prop
  | unfit (span : Span) (what : Text) {want got : Ty} (differ : Ty.equal want got = false)
      (apart : Ty.Readable env.names Ty.labelDepth want →
        Ty.Readable env.names Ty.labelDepth got → env.label want ≠ env.label got) :
      Discerned env (.error .typeMismatch span
        (what ++ text ": expected " ++ env.label want ++ text ", found " ++ env.label got))
  | unindexed (span : Span) (ty : Ty) :
      Discerned env (.error .typeMismatch span
        (text "cannot index a value of type " ++ env.label ty))
  | operand (span : Span) (op : Operator) (ty : Ty) :
      Discerned env (.error .typeMismatch span
        (text "operand of " ++ op.symbol ++ text " must be numeric, found " ++ env.label ty))

theorem Voiced.discerned {d : Diagnostic} (voiced : Voiced env d) (sound : env.names.Sound)
    (code : d.code = .typeMismatch) : Discerned env d := by
  cases voiced with
  | other different => exact absurd code different
  | unfit span what misfit =>
    have differ := (Ty.compatible_eq_false_iff.mp misfit).2.2
    refine .unfit span what differ fun first second same => ?_
    rw [first.equal_of_label sound second same] at differ
    cases differ
  | unindexed span ty => exact .unindexed span ty
  | operand span op ty => exact .operand span op ty

/-- Labels identify types, whatever was interned: types without super types, with all their parts
and with names that are known, not empty and free of separators, nested at most as deep as labels
reach, are equal if their labels are the same. So no check, of whatever tree and in whatever
context, says of two such types that one was expected and the other found while the two read the
same. -/
theorem labels_identify_types (texts : List Text) :
    (∀ a b, Ty.Readable (Interner.after texts) Ty.labelDepth a →
      Ty.Readable (Interner.after texts) Ty.labelDepth b →
      a.label (some (Interner.after texts)) = b.label (some (Interner.after texts)) →
      Ty.equal a b = true) ∧
    ∀ options t ctx,
      ∀ d ∈ (endState (tree ⟨Interner.after texts, options⟩ t) (.start ctx)).emitted.toList,
        d.code = .typeMismatch → Discerned ⟨Interner.after texts, options⟩ d := by
  have sound := Interner.after_sound texts
  constructor
  · intro a b first second same
    exact first.equal_of_label sound second same
  · intro options t ctx d told code
    rcases tree_voices _ t (.start ctx) d told with old | voiced
    · cases old
    · exact voiced.discerned sound code

/-- Vectors of functions of an object and a vector, with a signature that does not count. -/
def callbacks (extra : Option (SignatureOf Ty)) : Ty :=
  .mk .vector (some (.lambda .unresolved [.object 14 [], .vector .integer])) none extra

theorem callbacks_readable (extra : Option (SignatureOf Ty)) :
    Ty.Readable (Interner.after [text "P"]) Ty.labelDepth (callbacks extra) := by
  have object : Ty.Named (Interner.after [text "P"]) 14 :=
    ⟨text "P", rfl, by decide, by decide +kernel⟩
  refine .vector none extra (.lambda none none (.plain none none none (by decide)) ?_)
  refine List.forall_mem_cons.mpr ⟨.object none none object, List.forall_mem_singleton.mpr ?_⟩
  exact .vector none none (.plain none none none (by decide))

theorem callbacks_label (extra : Option (SignatureOf Ty)) :
    (callbacks extra).label (some (Interner.after [text "P"])) =
      text "vector<(object P, vector<int>) -> ?>" := by
  rw [callbacks, Ty.label, Ty.lambda, Ty.object, Ty.vector, Ty.unresolved, Ty.integer, Ty.ofKind,
    Ty.ofKind, Ty.labelAt_vector _ _ _ (by decide), Ty.labelAt_lambda _ _ _ _ (by decide),
    List.map_cons, List.map_singleton, Ty.labelAt_object _ _ _ (by decide),
    Ty.labelAt_vector _ _ _ (by decide), Ty.labelAt_plain _ _ _ (by decide) (by decide),
    Ty.labelAt_plain _ _ _ (by decide) (by decide)]
  decide

/-- A tree that defines a variable of type `int` by a string. -/
def misdefined : Tree :=
  ⟨1, text "t.yaml",
    [some (.define ⟨0, 1, 1, 3⟩ 14 [] (some (.string ⟨1, 1, 1, 24⟩ (text "x"))) Handle.int)]⟩

def misdefinedTold : List Diagnostic :=
  (endState (tree ⟨Interner.after [text "P"], ⟨false, false⟩⟩ misdefined)
    (.start .fresh)).emitted.toList

theorem misdefinedTold_codes : misdefinedTold.map (·.code) = [.typeMismatch] := by
  have both : misdefined.visits.length = 2 := by
    simp [Tree.visits, misdefined, Node.visits_eq, Node.children]
  rw [misdefinedTold, tree, both]
  decide +kernel

/-- Two such types read the same, whatever stands in the signature, and they are equal. Of the types
of the variable and its value, a check tells that they differ. -/
theorem callbacks_identified :
    (callbacks none).label (some (Interner.after [text "P"])) =
      text "vector<(object P, vector<int>) -> ?>" ∧
    (callbacks (some ⟨some .string, []⟩)).label (some (Interner.after [text "P"])) =
      text "vector<(object P, vector<int>) -> ?>" ∧
    Ty.equal (callbacks none) (callbacks (some ⟨some .string, []⟩)) = true ∧
    misdefinedTold.map (·.code) = [.typeMismatch] ∧
    ∀ d ∈ misdefinedTold, Discerned ⟨Interner.after [text "P"], ⟨false, false⟩⟩ d := by
  obtain ⟨identify, discern⟩ := labels_identify_types [text "P"]
  refine ⟨callbacks_label _, callbacks_label _, ?_, misdefinedTold_codes, fun d told => ?_⟩
  · refine identify _ _ (callbacks_readable _) (callbacks_readable _) ?_
    rw [callbacks_label, callbacks_label]
  · have code := List.mem_map_of_mem (f := (·.code)) told
    rw [misdefinedTold_codes, List.mem_singleton] at code
    exact discern ⟨false, false⟩ misdefined .fresh d told code

end TreeCheck.Check
