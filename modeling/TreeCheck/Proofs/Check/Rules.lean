import TreeCheck.Proofs.Check.Run
import TreeCheck.Proofs.Tree.Complete

/-!
Every rule of the check follows the ways of `Run`, if the function that checks the nodes below
does. A rule asks for positions of elements and operands, and stops where one is absent; so each
statement supposes that either stopping is allowed or the nodes of the rule are complete.

Rules that open a scope also close it. For blocks and lambdas this is said on its own: all they do
to the context is enclosed in a scope of theirs.
-/

namespace TreeCheck.Check

/-- Either a check may stop at an absent node, or the nodes are complete. -/
def Fits (stops : Prop) (nodes : List Node) : Prop :=
  ∀ n ∈ nodes, stops ∨ n.Complete

namespace Fits

variable {stops : Prop} {xs ys : List Node} {n : Node}

theorem any (nodes : List Node) : Fits True nodes :=
  fun _ _ => .inl trivial

theorem of_mem (fits : Fits stops xs) (member : n ∈ xs) : Fits stops [n] :=
  fun _ same => List.mem_singleton.mp same ▸ fits n member

theorem left (fits : Fits stops (xs ++ ys)) : Fits stops xs :=
  fun n member => fits n (List.mem_append_left _ member)

theorem right (fits : Fits stops (xs ++ ys)) : Fits stops ys :=
  fun n member => fits n (List.mem_append_right _ member)

theorem below (fits : Fits stops [n]) : Fits stops n.children := by
  intro child member
  rcases fits n List.mem_cons_self with allowed | complete
  · exact .inl allowed
  · exact .inr ((Node.complete_iff.mp complete).2 child member)

/-- A fitting node is filled, unless stopping is allowed. -/
theorem filled (fits : Fits stops [n]) : stops ∨ n.Filled :=
  (fits n List.mem_cons_self).imp_right fun complete => (Node.complete_iff.mp complete).1

theorem lambda {f : Function Node} {l : Lambda Node} (present : f.lambda = some l)
    (fits : Fits stops (Node.function f).children) : Fits stops (Node.lambda l).children := by
  rw [Node.children, present] at fits
  exact below fits

theorem slot {β : Type} {part : β → Option Node} {parts : List β} {b : β}
    (fits : Fits stops (parts.filterMap part)) (member : b ∈ parts) :
    Fits stops (part b).toList := by
  intro n found
  exact fits n (List.mem_filterMap.mpr ⟨b, member, Option.mem_toList.mp found⟩)

theorem tail {β : Type} {part : β → Option Node} {b : β} {rest : List β}
    (fits : Fits stops ((b :: rest).filterMap part)) : Fits stops (rest.filterMap part) := by
  intro n found
  obtain ⟨c, member, same⟩ := List.mem_filterMap.mp found
  exact fits n (List.mem_filterMap.mpr ⟨c, List.mem_cons_of_mem _ member, same⟩)

end Fits

/-- The function that checks the nodes below follows the ways of a check. -/
def Checks (env : Env) (stops : Prop) (below : Below) : Prop :=
  ∀ slot, Fits stops slot.toList → Follows env stops (below slot)

theorem conflict_mem {first ty : Ty} {slot : Option Node} {parts : List (Option Node × Ty)}
    (found : conflict first parts = some (slot, ty)) : (slot, ty) ∈ parts := by
  induction parts with
  | nil => cases found
  | cons part rest ih =>
    unfold conflict at found
    split at found
    · exact List.mem_cons_of_mem _ (ih found)
    · cases found
      exact List.mem_cons_self

section

variable {env : Env} {stops : Prop} {below : Below} (checks : Checks env stops below)
include checks

theorem slots_follow {slots : List (Option Node)} (fits : Fits stops (slots.filterMap (·))) :
    Follows env stops (slots.mapM below) :=
  .mapM fun slot member => checks slot (fits.slot member)

/-! ### Blocks and lambdas -/

theorem body_follows {n : Node} (fits : Fits stops [n]) : Follows env stops (body below n) := by
  unfold body
  split
  next site exprs =>
    refine .bind (.foldlM (fun slot member _ => ?_) _) fun ty => record_follows site.id ty
    exact checks slot (fits.below.slot member)
  next => exact checks (some n) fits

theorem block_encloses {slot : Option Node} (fits : Fits stops slot.toList) (s : State) :
    Leads stops (block below slot) s fun _ t => Run env s t ∧ s.ctx.Enclosed t.ctx := by
  cases slot with
  | none => exact .of_run rfl ⟨.refl s, .inl rfl⟩
  | some n =>
    refine .bind (openScope_leads (.bind ?_))
    refine (body_follows checks fits s.opened).mono fun ty t inner => ?_
    refine .bind (closeScope_leads inner fun u run enclosed => ?_)
    exact .of_run rfl ⟨run, enclosed⟩

theorem block_follows {slot : Option Node} (fits : Fits stops slot.toList) :
    Follows env stops (block below slot) :=
  fun s => (block_encloses checks fits s).mono fun _ _ ends => ends.1

theorem withDefault_follows (what : Text) (written : Ty) {default : Option Node}
    (fits : Fits stops default.toList) :
    Follows env stops (withDefault env below what written default) := by
  cases default with
  | none => exact .pure written
  | some n =>
    refine .bind (checks (some n) fits) fun ty => ?_
    exact .guarded (mismatch_follows n.span what written ty) (.pure _)

theorem bindParams_follows (node index : Nat) {parts : List (Param Node × Ty)}
    (fits : Fits stops (parts.filterMap (·.1.default))) :
    Follows env stops (bindParams env below node index parts) := by
  induction parts generalizing index with
  | nil => exact .pure []
  | cons part rest ih =>
    have default := withDefault_follows checks (text "default of " ++ env.name part.1.name) part.2
      (fits.slot List.mem_cons_self)
    refine .bind default fun ty => .bind (annotate_follows _ ty) fun _ => ?_
    exact .bind (declare_follows _ ty _) fun _ => .bind (ih (index + 1) fits.tail) fun _ => .pure _

omit checks in
/-- The end of a lambda: its scope is closed, and its completed type is compared, annotated and
recorded outside. -/
theorem closed_lambda {s t : State} (l : Lambda Node) (sig : Ty) (args : List Ty) (bodyTy : Ty)
    (inner : Run env s.opened t) :
    Leads stops (do
        closeScope
        let result := sig.resultType
        if !Ty.compatible result bodyTy then
          mismatch env l.site.span (text "return value") result bodyTy
        let ty := Ty.lambda (if result.isResolved then result else bodyTy) args
        annotate (.own l.site.id) ty
        record l.site.id ty : Check Ty) t
      fun _ u => Run env s u ∧ s.ctx.Enclosed u.ctx := by
  refine .bind (closeScope_leads inner fun v run enclosed => ?_)
  have completed (w : State) (before : Run env s w) (same : w.ctx = v.ctx) (ty : Ty) :
      Leads stops (do annotate (.own l.site.id) ty; record l.site.id ty) w
        fun _ u => Run env s u ∧ s.ctx.Enclosed u.ctx := by
    refine .bind (.of_run rfl (.of_run rfl ⟨?_, same ▸ enclosed⟩))
    exact (before.trans (.annotate w _ ty)).trans (.record _ _ ty)
  dsimp only
  split
  · refine .bind (.of_run rfl (completed _ (run.trans (.report v _ ?_)) rfl _))
    exact .inl (by decide)
  · exact completed v run rfl _

/-- All that the check of parameters and body does to the context is enclosed in the scope of the
lambda; the completed type is recorded outside. -/
theorem lambdaBody_encloses {l : Lambda Node} (sig : Ty)
    (fits : Fits stops (Node.lambda l).children) (s : State) :
    Leads stops (lambdaBody env below l sig) s fun _ t => Run env s t ∧ s.ctx.Enclosed t.ctx := by
  have params : Fits stops ((l.params.zip sig.params).filterMap (·.1.default)) := by
    intro n found
    obtain ⟨⟨p, ty⟩, member, same⟩ := List.mem_filterMap.mp found
    exact fits.left n (List.mem_filterMap.mpr ⟨p, (List.of_mem_zip member).1, same⟩)
  refine .bind (openScope_leads (.bind ?_))
  refine (bindParams_follows checks l.site.id 0 params s.opened).mono fun args t bound => ?_
  dsimp only
  split
  next n present =>
    have rest := fits.right
    rw [present] at rest
    refine .bind ((body_follows checks rest t).mono fun bodyTy u checked => ?_)
    exact closed_lambda l sig args bodyTy (bound.trans checked)
  next => exact .bind (.of_run rfl (closed_lambda l sig args _ bound))

theorem lambdaBody_follows {l : Lambda Node} (sig : Ty)
    (fits : Fits stops (Node.lambda l).children) :
    Follows env stops (lambdaBody env below l sig) :=
  fun s => (lambdaBody_encloses checks sig fits s).mono fun _ _ ends => ends.1

omit checks in
theorem paramTypes_quiet (node index : Nat) (params : List (Param Node)) :
    Quiet env stops (paramTypes env node index params) := by
  induction params generalizing index with
  | nil => exact .pure []
  | cons p rest ih =>
    refine .bind (writtenType_quiet p.declared p.span) fun ty => ?_
    exact .bind (annotate_quiet _ ty) fun _ => .bind (ih (index + 1)) fun _ => .pure _

omit checks in
theorem signature_quiet (l : Lambda Node) : Quiet env stops (signature env l) :=
  .bind (paramTypes_quiet l.site.id 0 l.params) fun _ =>
    .bind (writtenType_quiet l.declared l.site.span) fun _ => .pure _

omit checks in
theorem signature_follows (l : Lambda Node) : Follows env stops (signature env l) :=
  (signature_quiet l).follows

theorem lambda_encloses {l : Lambda Node} (fits : Fits stops (Node.lambda l).children)
    (s : State) :
    Leads stops (lambda env below l) s fun _ t => Run env s t ∧ s.ctx.Enclosed t.ctx := by
  refine .bind ((signature_quiet l s).mono fun sig t signed => ?_)
  refine (lambdaBody_encloses checks sig fits t).mono fun ty u ends => ?_
  exact ⟨signed.1.trans ends.1, signed.2 ▸ ends.2⟩

theorem lambda_follows {l : Lambda Node} (fits : Fits stops (Node.lambda l).children) :
    Follows env stops (lambda env below l) :=
  fun s => (lambda_encloses checks fits s).mono fun _ _ ends => ends.1

/-! ### Definitions -/

theorem define_follows (site : Site) (name : Handle) {value : Option Node} (declared : Handle)
    (fits : Fits stops value.toList) :
    Follows env stops (define env below site name value declared) := by
  refine .bind (checks value fits) fun valueTy => .bind (writtenType_follows _ _) fun want => ?_
  refine .guarded (mismatch_follows _ _ _ _) (.bind (annotate_follows _ _) fun _ => ?_)
  exact .bind (declare_follows _ _ _) fun _ => .pure _

theorem function_follows {f : Function Node} (fits : Fits stops (Node.function f).children) :
    Follows env stops (function env below f) := by
  unfold function
  split
  next => exact failed_follows (by decide) _ _ _
  next l present =>
    refine .bind (signature_follows l) fun sig => .bind (declare_follows _ _ _) fun _ => ?_
    exact lambdaBody_follows checks sig (fits.lambda present)

theorem fields_follow (node : Nat) (owner : Handle) (index : Nat) {parts : List (Field Node)}
    (fits : Fits stops (parts.filterMap (·.default))) :
    Follows env stops (fields env below node owner index parts) := by
  induction parts generalizing index with
  | nil => exact .pure []
  | cons f rest ih =>
    refine .bind (writtenType_follows f.declared f.span) fun written => ?_
    have default := withDefault_follows checks (text "default of field " ++ env.name f.name)
      written (fits.slot List.mem_cons_self)
    refine .bind default fun ty => .bind (annotate_follows _ ty) fun _ => ?_
    refine .bind (addMember_follows owner f.name ty f.span) fun _ => ?_
    exact .bind (ih (index + 1) fits.tail) fun _ => .pure _

theorem struct_follows (site : Site) (name : Handle) {parts : List (Field Node)}
    (fits : Fits stops (parts.filterMap (·.default))) :
    Follows env stops (struct env below site name parts) :=
  .bind (annotate_follows _ _) fun _ => .bind (registerType_follows _ _ _) fun _ =>
    .bind (fields_follow checks _ _ _ fits) fun _ => .pure _

omit checks in
theorem superTypes_follow (site : Site) (name : Handle) (supers : List Handle) :
    Follows env stops (superTypes env site name supers) := by
  induction supers with
  | nil => exact .pure []
  | cons super rest ih =>
    refine .bind (objectNamed_follows super) fun found => ?_
    split
    · exact .bind ih fun _ => .pure _
    · exact .bind (report_follows _ (.unknown _ rfl)) fun _ => ih

omit checks in
theorem bindFields_follow (seen : List Handle) (parts : List (Field Node × Ty)) :
    Follows env stops (bindFields env seen parts) := by
  induction parts generalizing seen with
  | nil => exact .pure ()
  | cons part rest ih =>
    unfold bindFields
    split
    · exact ih seen
    · exact .bind (declare_follows _ _ _) fun _ => ih (part.1.name :: seen)

omit checks in
theorem bindMethods_leads (owner : Handle) (methods : List (Function Node)) (s : State) :
    Leads stops (bindMethods env owner methods) s fun lambdas t =>
      Run env s t ∧ ∀ part ∈ lambdas, ∃ m ∈ methods, m.lambda = some part.1 := by
  induction methods generalizing s with
  | nil => exact .of_run rfl ⟨.refl s, fun _ member => absurd member List.not_mem_nil⟩
  | cons m rest ih =>
    have later {lambdas : List (Lambda Node × Ty)}
        (found : ∀ part ∈ lambdas, ∃ m ∈ rest, m.lambda = some part.1) :
        ∀ part ∈ lambdas, ∃ other ∈ m :: rest, other.lambda = some part.1 := by
      intro part member
      obtain ⟨other, among, present⟩ := found part member
      exact ⟨other, List.mem_cons_of_mem _ among, present⟩
    unfold bindMethods
    split
    next =>
      refine (report_follows _ (.inl (by decide))).next
        fun _ t (run : Run env s t) => ?_
      exact (ih t).mono fun _ _ ends => ⟨run.trans ends.1, later ends.2⟩
    next l present =>
      refine (signature_follows l).next fun sig t signed => ?_
      refine (addMember_follows owner m.name sig m.site.span).next fun added u recorded => ?_
      have finish (v : State) (bound : Run env u v) :
          Leads stops (do return (l, sig) :: (← bindMethods env owner rest)) v fun lambdas w =>
            Run env s w ∧ ∀ part ∈ lambdas, ∃ other ∈ m :: rest, other.lambda = some part.1 := by
        refine .bind ((ih v).mono fun lambdas w ends => .of_run rfl ⟨?_, ?_⟩)
        · exact ((signed.trans recorded).trans bound).trans ends.1
        · rintro part (_ | ⟨_, member⟩)
          · exact ⟨m, List.mem_cons_self, present⟩
          · exact later ends.2 part member
      split
      · exact (declare_follows m.name sig m.site.span).next fun _ v bound => finish v bound
      · exact finish u (.refl u)

theorem cls_follows (site : Site) {c : Class Node} (fits : Fits stops (Node.cls site c).children) :
    Follows env stops (cls env below site c) := by
  have init : Follows env stops (c.init.forM fun l => discard (lambda env below l)) := by
    refine .forM fun l member => .discard (lambda_follows checks ?_)
    exact (fits.left.left.right.of_mem (List.mem_map_of_mem member)).below
  have hooks : Follows env stops
      ([c.preInit, c.postInit, c.final, c.validate].forM fun hook =>
        discard (block below hook)) := by
    have each : Fits stops ([c.preInit, c.postInit, c.final, c.validate].filterMap (·)) := by
      intro n found
      exact fits.right n (by simpa [or_assoc, eq_comm] using found)
    exact .forM fun hook member => .discard (block_follows checks (each.slot member))
  refine .bind (superTypes_follow site c.name c.supers) fun supers => ?_
  refine .bind (annotate_follows _ _) fun _ => .bind (registerType_follows _ _ _) fun _ => ?_
  refine .bind (fields_follow checks _ _ _ fits.left.left.left) fun types s => ?_
  -- The scope of the class is open from here on, until its last hook is checked.
  refine .bind (openScope_leads ?_)
  refine (bindFields_follow [] (c.fields.zip types)).next fun _ t bound => .bind ?_
  refine (bindMethods_leads c.name c.methods t).mono fun lambdas u named => ?_
  refine init.next fun _ v initial => ?_
  have methods : Follows env stops
      (lambdas.forM fun part => discard (lambdaBody env below part.1 part.2)) := by
    refine .forM fun part member => .discard (lambdaBody_follows checks part.2 ?_)
    obtain ⟨m, among, present⟩ := named.2 part member
    exact (fits.left.right.of_mem (List.mem_map_of_mem among)).below.lambda present
  refine methods.next fun _ w checked => hooks.next fun _ x last => ?_
  have inner : Run env s.opened x :=
    (((bound.trans named.1).trans initial).trans checked).trans last
  exact .bind (closeScope_leads inner fun y run _ => .of_run rfl run)

/-! ### Variables, branches and indices -/

omit checks in
theorem ident_follows (site : Site) (name : Handle) :
    Follows env stops (ident env site name) := by
  refine .bind (lookup_follows name) fun found => ?_
  split
  · exact .pure _
  · exact failed_follows (by decide) _ _ _

theorem assign_follows (site : Site) (name : Handle) {value : Option Node}
    (fits : Fits stops value.toList) : Follows env stops (assign env below site name value) := by
  refine .bind (checks value fits) fun valueTy => .bind (lookup_follows name) fun found => ?_
  split
  · exact failed_follows (by decide) _ _ _
  · exact .guarded (mismatch_follows _ _ _ _) (.pure _)

theorem condition_follows {slot : Option Node} (fits : Fits stops slot.toList) :
    Follows env stops (condition env below slot) := by
  refine .bind (checks slot fits) fun ty => ?_
  cases slot with
  | none => exact .pure ()
  | some n =>
    dsimp only
    split
    · exact mismatch_follows _ _ _ _
    · exact .pure ()

theorem branch_follows (node index : Nat) {b : Branch Node}
    (fits : Fits stops (b.guard.toList ++ b.body.toList)) :
    Follows env stops (branch env below node index b) :=
  .bind (condition_follows checks fits.left) fun _ => .bind (block_follows checks fits.right)
    fun ty => .bind (annotate_follows _ ty) fun _ => .pure _

theorem branches_follow (node index : Nat) {parts : List (Branch Node)}
    (fits : Fits stops (Node.ofBranches parts)) :
    Follows env stops (branches env below node index parts) := by
  induction parts generalizing index with
  | nil => exact .pure []
  | cons b rest ih =>
    rw [Node.ofBranches, List.flatMap_cons] at fits
    refine .bind (branch_follows checks node index fits.left) fun ty => ?_
    exact .bind (ih (index + 1) fits.right) fun _ => .pure _

theorem cond_follows (site : Site) {parts : List (Branch Node)} {otherwise : Option Node}
    (fits : Fits stops (Node.ofBranches parts ++ otherwise.toList)) :
    Follows env stops (cond env below site parts otherwise) :=
  .bind (branches_follow checks site.id 0 fits.left) fun _ =>
    .bind (block_follows checks fits.right) fun _ => .bind (annotate_follows _ _) fun _ => .pure _

theorem access_follows (site : Site) {index target : Option Node}
    (fits : Fits stops (index.toList ++ target.toList)) :
    Follows env stops (access env below site index target) := by
  refine .bind (checks target fits.right) fun ty => ?_
  have finish : Follows env stops (do
      if ty.kind = .vector then return ty.elemType
      else if ty.kind = .pair || ty.kind = .unresolved then return .unresolved
      else
        report .typeMismatch (spanOr target site.span)
          (text "cannot index a value of type " ++ env.label ty)
        return .unresolved : Check Ty) := by
    split
    · exact .pure _
    split
    · exact .pure _
    · exact failed_follows (by decide) _ _ _
  cases index with
  | none => exact finish
  | some n =>
    refine .bind (checks (some n) fits.left) fun indexTy => ?_
    exact .guarded (mismatch_follows _ _ _ _) finish

/-! ### Calls and member accesses -/

omit checks in
theorem matchArgs_follows (span : Span) (what : Text) (args : List (Argument Node × Ty))
    (params : List Ty) : Follows env stops (matchArgs env span what args params) := by
  induction args generalizing params with
  | nil => exact .pure ()
  | cons arg rest ih =>
    cases params with
    | nil => exact .pure ()
    | cons param params =>
      unfold matchArgs
      exact .guarded (mismatch_follows _ _ _ _) (ih params)

theorem discarded_follow {args : List (Argument Node)}
    (fits : Fits stops (Node.ofArguments args)) :
    Follows env stops (args.forM fun a => discard (below a.value)) :=
  .forM fun a member => .discard (checks a.value (fits.slot member))

theorem apply_follows (span : Span) (what : Text) (callee : Ty) {args : List (Argument Node)}
    (fits : Fits stops (Node.ofArguments args)) :
    Follows env stops (apply env below span what callee args) := by
  refine .bind (.mapM fun a member => checks a.value (fits.slot member)) fun types => ?_
  split
  · exact .pure _
  split
  · exact failed_follows (by decide) _ _ _
  · refine .guarded (report_follows _ (.inl (by decide))) ?_
    exact .bind (matchArgs_follows _ _ _ _) fun _ => .pure _

theorem call_follows (site : Site) (name : Handle) {args : List (Argument Node)}
    (fits : Fits stops (Node.ofArguments args)) :
    Follows env stops (call env below site name args) := by
  refine .bind (lookup_follows name) fun found => ?_
  split
  · exact apply_follows checks _ _ _ fits
  · refine .bind (discarded_follow checks fits) fun _ => ?_
    exact failed_follows (by decide) _ _ _

theorem follow_follows (ty : Ty) {accessors : List (Accessor Node)}
    (fits : Fits stops (Node.ofAccessors accessors)) :
    Follows env stops (follow env below ty accessors) := by
  induction accessors generalizing ty with
  | nil => exact .pure ty
  | cons a rest ih =>
    rw [Node.ofAccessors, List.flatMap_cons] at fits
    unfold follow
    split
    · exact .bind (discarded_follow checks fits.left) fun _ => ih ty fits.right
    dsimp only
    split
    · refine .bind (member_follows _ _) fun found => ?_
      split
      · exact failed_follows (by decide) _ _ _
      split
      · exact ih _ fits.right
      · exact .bind (apply_follows checks _ _ _ fits.left) fun result => ih result fits.right
    -- Only an object has members.
    · exact failed_follows (by decide) _ _ _

theorem invoke_follows (site : Site) {callee : Option Node} {accessors : List (Accessor Node)}
    {args : List (Argument Node)}
    (fits : Fits stops (callee.toList ++ Node.ofAccessors accessors ++ Node.ofArguments args)) :
    Follows env stops (invoke env below site callee accessors args) :=
  .bind (checks callee fits.left.left) fun ty =>
    .bind (follow_follows checks ty fits.left.right) fun _ => apply_follows checks _ _ _ fits.right

theorem chain_follows {c : Chain Node} (fits : Fits stops (Node.ofAccessors c.accessors)) :
    Follows env stops (chain env below c) := by
  refine .bind (lookup_follows c.name) fun found => ?_
  split
  · exact follow_follows checks _ fits
  · exact failed_follows (by decide) _ _ _

theorem assignMember_follows (site : Site) {target : Option (Chain Node)} {value : Option Node}
    (fits : Fits stops ((target.map Node.member).toList ++ value.toList)) :
    Follows env stops (assignMember env below site target value) := by
  refine .bind (checks value fits.right) fun valueTy => ?_
  cases target with
  | none => exact .pure _
  | some c =>
    refine .bind (checks (some (.member c)) fits.left) fun ty => ?_
    exact .guarded (mismatch_follows _ _ _ _) (.pure _)

/-! ### Objects and operations -/

theorem random_follows (isFloat : Bool) {bounds : List (Option Node)}
    (fits : Fits stops (bounds.filterMap (·))) :
    Follows env stops (random env below isFloat bounds) := by
  refine .bind (.forM fun bound member => ?_) fun _ => .pure _
  have slot := fits.slot member
  cases bound with
  | none => exact .pure ()
  | some n =>
    refine .bind (checks (some n) slot) fun ty => ?_
    split
    · exact mismatch_follows _ _ _ _
    · exact .pure ()

omit checks in
theorem unknownObject_follows (site : Site) (name : Handle) :
    Follows env stops (unknownObject env site name) :=
  .bind (report_follows _ (.unknown _ rfl)) fun _ => .pure _

theorem create_follows (site : Site) (name : Handle) {args : List (Initializer Node)}
    (fits : Fits stops (args.filterMap (·.value))) :
    Follows env stops (create env below site name args) := by
  refine .bind (objectNamed_follows name) fun found => ?_
  split
  · refine .bind (.forM fun a member => .discard (checks a.value (fits.slot member))) fun _ => ?_
    exact unknownObject_follows site name
  · refine .bind (.forM fun a member => ?_) fun _ => .pure _
    refine .bind (checks a.value (fits.slot member)) fun valueTy => ?_
    refine .bind (member_follows _ a.name) fun found => ?_
    split
    · exact report_follows _ (.inl (by decide))
    split
    · exact mismatch_follows _ _ _ _
    · exact .pure ()

theorem construct_follows (site : Site) (name : Handle) {args : List (Argument Node)}
    (fits : Fits stops (Node.ofArguments args)) :
    Follows env stops (construct env below site name args) := by
  refine .bind (discarded_follow checks fits) fun _ => ?_
  refine .bind (objectNamed_follows name) fun found => ?_
  split
  · exact unknownObject_follows site name
  · exact .pure _

theorem vector_follows {elems : List (Option Node)} (fits : Fits stops (elems.filterMap (·)))
    (filled : stops ∨ ∀ slot ∈ elems, slot ≠ none) :
    Follows env stops (vector env below elems) := by
  refine .bind (slots_follow checks fits) fun types => ?_
  split
  next => exact .pure _
  next head first rest pairs =>
    dsimp only
    split
    · split
      next slot ty conflicting =>
        have element : slot ∈ elems := by
          have member : (slot, ty) ∈ elems.zip types := by
            rw [pairs]
            exact List.mem_cons_of_mem _ (conflict_mem conflicting)
          exact (List.of_mem_zip member).1
        have present (absent : slot = none) : stops :=
          filled.resolve_right fun all => all slot element absent
        refine .bind (spanOf_follows present) fun span => ?_
        exact .bind (mismatch_follows _ _ _ _) fun _ => .pure _
      next => exact .pure _
    · exact .pure _

omit checks in
theorem arithmetic_follows (op : Operator) (result : Ty) {parts : List (Option Node × Ty)}
    (filled : stops ∨ ∀ part ∈ parts, part.1 ≠ none) :
    Follows env stops (arithmetic env op result parts) := by
  induction parts generalizing result with
  | nil => exact .pure result
  | cons part rest ih =>
    have later : stops ∨ ∀ part ∈ rest, part.1 ≠ none :=
      filled.imp_right fun all part member => all part (List.mem_cons_of_mem _ member)
    unfold arithmetic
    split
    · exact ih _ later
    split
    · have present (absent : part.1 = none) : stops :=
        filled.resolve_right fun all => all part List.mem_cons_self absent
      refine .bind (spanOf_follows present) fun span => ?_
      exact .bind (report_follows _ (.inl (by decide))) fun _ => ih _ later
    split
    · exact ih _ later
    · exact ih _ later

theorem operation_follows (site : Site) (op : Operator) {operands : List (Option Node)}
    (fits : Fits stops (operands.filterMap (·)))
    (filled : stops ∨ ∀ slot ∈ operands, slot ≠ none) :
    Follows env stops (operation env below site op operands) := by
  refine .bind (slots_follow checks fits) fun types => ?_
  have pairs : stops ∨ ∀ part ∈ operands.zip types, part.1 ≠ none :=
    filled.imp_right fun all part member => all part.1 (List.of_mem_zip member).1
  split
  · exact arithmetic_follows op _ pairs
  · exact .pure _
  · refine .bind (.forM fun part member => ?_) fun _ => .pure _
    dsimp only
    split
    · have present (absent : part.1 = none) : stops :=
        pairs.resolve_right fun all => all part member absent
      exact .bind (spanOf_follows present) fun span => mismatch_follows _ _ _ _
    · exact .pure ()
  · exact .pure _
  · exact failed_follows (by decide) _ _ _

/-! ### Nodes -/

theorem node_follows {n : Node} (fits : Fits stops [n]) : Follows env stops (node env below n) := by
  have parts := fits.below
  have record {x : Check Ty} (id : Nat) (checked : Follows env stops x) :
      Follows env stops (do record id (← x)) :=
    checked.bind (record_follows id)
  cases n with
  | integer site | float site | boolean site | string site | nil site | quote site | pair site =>
    exact record_follows site.id _
  | vector site => exact record site.id (vector_follows checks parts fits.filled)
  | define site => exact record site.id (define_follows checks _ _ _ parts)
  | lambda l => exact lambda_follows checks parts
  | function f => exact record f.site.id (function_follows checks parts)
  | struct site => exact record site.id (struct_follows checks _ _ parts)
  | cls site => exact record site.id (cls_follows checks _ parts)
  | ident site => exact record site.id (ident_follows _ _)
  | assign site => exact record site.id (assign_follows checks _ _ parts)
  | block site exprs =>
    have own : Fits stops (some (Node.block site exprs)).toList := fits
    exact block_follows checks own
  | print site =>
    exact .bind (checks _ parts) fun _ => record_follows site.id _
  | cond site part =>
    refine record site.id (cond_follows checks site ?_)
    rwa [Node.ofBranches, List.flatMap_singleton]
  | conds site => exact record site.id (cond_follows checks site parts)
  | loop site =>
    exact .bind (condition_follows checks parts.left) fun _ =>
      .bind (block_follows checks parts.right) fun _ => record_follows site.id _
  | cons site =>
    exact .bind (checks _ parts.left) fun _ => .bind (checks _ parts.right) fun _ =>
      record_follows site.id _
  | list site =>
    refine .bind (.forM fun slot member => .discard (checks slot (parts.slot member))) fun _ => ?_
    exact .bind (annotate_follows _ _) fun _ => record_follows site.id _
  | access site => exact record site.id (access_follows checks _ parts)
  | call site => exact record site.id (call_follows checks _ _ parts)
  | invoke site => exact record site.id (invoke_follows checks _ parts)
  | member c => exact record c.site.id (chain_follows checks parts)
  | assignMember site => exact record site.id (assignMember_follows checks _ parts)
  | random site isFloat lower upper =>
    refine record site.id (random_follows checks isFloat ?_)
    have both : [lower, upper].filterMap (·) = lower.toList ++ upper.toList := by
      cases lower <;> cases upper <;> rfl
    rwa [both]
  | create site => exact record site.id (create_follows checks _ _ parts)
  | construct site => exact record site.id (construct_follows checks _ _ parts)
  | operation site =>
    refine .bind (operation_follows checks site _ parts fits.filled) fun ty => ?_
    exact .bind (annotate_follows _ ty) fun _ => record_follows site.id ty
  | foreign site =>
    exact failed_follows (by decide) _ _ _

end

theorem expr_checks (env : Env) (stops : Prop) (depth : Nat) :
    Checks env stops (expr env depth) := by
  induction depth with
  | zero => exact fun _ _ => .pure _
  | succ depth ih =>
    intro slot fits
    cases slot with
    | none => exact .pure _
    | some n => exact node_follows ih fits

theorem tree_follows (env : Env) {stops : Prop} {t : Tree}
    (fits : Fits stops (t.nodes.filterMap (·))) : Follows env stops (tree env t) :=
  .forM fun slot member => .discard (expr_checks env stops _ slot (fits.slot member))

theorem tree_ends (env : Env) {t : Tree} (complete : t.Complete) (s : State) :
    ∃ u, (tree env t).run s = .ok () u ∧ Run env s u := by
  have fits : Fits False (t.nodes.filterMap (·)) := by
    intro n member
    obtain ⟨slot, among, rfl⟩ := List.mem_filterMap.mp member
    exact .inr (Tree.complete_iff.mp complete n among)
  obtain ⟨_, u, ends, run⟩ := (tree_follows env fits s).result
  exact ⟨u, ends, run⟩

end TreeCheck.Check
