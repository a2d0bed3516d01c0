import TreeCheck.Proofs.Check.Accounts
import TreeCheck.Proofs.Check.Depth
import TreeCheck.Proofs.Check.Histories
import TreeCheck.Proofs.Load.Complete
import TreeCheck.Proofs.Load.Origins

/-!
A check covers the tree. Rule by rule, a check evaluates what is below a node, each node once, and
misses none unless it reports an error; over a whole tree, what is recorded are the nodes of a walk,
less the methods of classes.
-/

namespace TreeCheck.Check

open Node (evaluatedIds)

/-- The function that checks the nodes below accounts for everything that is evaluated for them, and
gives types with the trait, which goes over to whatever is made for the nodes of the origin. -/
structure Covering (w : Traits) (origin source : Node → Prop) (below : Below) : Prop where
  suits : w.Suits origin
  part : ∀ n, source n → origin n
  slot : ∀ slot, Within source slot.toList →
    Accounts w (evaluatedIds slot.toList) (below slot) w.type

section

variable {w : Traits} {env : Env} {origin source : Node → Prop} {below : Below}

/-! ### Blocks and lambdas -/

section

variable (suits : w.Suits origin)
include suits

theorem paramTypes_account (node index : Nat) (params : List (Param Node)) :
    Accounts w [] (paramTypes env node index params) fun types =>
      types.length = params.length ∧ ∀ ty ∈ types, w.type ty := by
  induction params generalizing index with
  | nil => exact .pure ⟨rfl, nofun⟩
  | cons p rest ih =>
    refine (writtenType_accounts suits p.declared p.span).skip fun ty typed => ?_
    refine (annotate_accounts _ ty).skip fun _ _ => (ih (index + 1)).skip fun types all => .pure ?_
    refine ⟨?_, List.forall_mem_cons.mpr ⟨typed, all.2⟩⟩
    rw [List.length_cons, List.length_cons, all.1]

theorem signature_accounts (l : Lambda Node) :
    Accounts w [] (signature env l) fun sig =>
      sig.params.length = l.params.length ∧ w.type sig := by
  refine (paramTypes_account suits l.site.id 0 l.params).skip fun args all => ?_
  refine (writtenType_accounts suits l.declared l.site.span).skip fun result typed => .pure ?_
  exact ⟨all.1, suits.lambda typed all.2⟩

theorem closed_accounts (l : Lambda Node) {sig bodyTy : Ty} {args : List Ty} (signed : w.type sig)
    (found : w.type bodyTy) (bound : ∀ arg ∈ args, w.type arg) :
    Accounts w [l.site.id] (do
      closeScope
      let result := sig.resultType
      if !Ty.compatible result bodyTy then
        mismatch env l.site.span (text "return value") result bodyTy
      let ty := Ty.lambda (if result.isResolved then result else bodyTy) args
      annotate (.own l.site.id) ty
      record l.site.id ty : Check Ty) w.type := by
  refine closeScope_accounts.skip fun _ _ => .guarded (mismatch_accounts _ _ _ _) ?_
  have result : w.type (if sig.resultType.isResolved then sig.resultType else bodyTy) := by
    split
    · exact suits.resultType signed
    · exact found
  exact (annotate_accounts _ _).skip fun _ _ => record_accounts _ (suits.lambda result bound)

end

theorem scoped_accounts {n : Node}
    (inner : Accounts w (evaluatedIds [n]) (body below n) w.type) :
    Accounts w (evaluatedIds [n]) (block below (some n)) w.type := by
  refine openScope_accounts.skip fun _ _ => inner.last fun ty typed => ?_
  exact closeScope_accounts.skip fun _ _ => .pure typed

variable (covering : Covering w origin source below)
include covering

theorem exprs_account (site : Site) {exprs : List (Option Node)}
    (within : Within source (exprs.filterMap (·))) :
    Accounts w (evaluatedIds [.block site exprs]) (body below (.block site exprs)) w.type := by
  have inner : Accounts w (evaluatedIds (exprs.filterMap (·)))
      (exprs.foldlM (fun _ e => below e) Ty.nil) w.type := by
    rw [Node.evaluatedIds_slots]
    exact .foldlM (fun slot member _ => covering.slot slot (within.slot member))
      (covering.suits.ofKind (by decide))
  exact .own _ rfl (inner.bind fun ty typed => record_accounts site.id typed)

theorem body_accounts {n : Node} (within : Within source [n]) :
    Accounts w (evaluatedIds [n]) (body below n) w.type := by
  cases n with
  | block site exprs => exact exprs_account covering site within.below
  | _ => exact covering.slot (some _) within

theorem block_accounts {slot : Option Node} (within : Within source slot.toList) :
    Accounts w (evaluatedIds slot.toList) (block below slot) w.type := by
  cases slot with
  | none => exact .pure (covering.suits.ofKind (by decide))
  | some n => exact scoped_accounts (body_accounts covering within)

theorem withDefault_accounts (what : Text) {written : Ty} {default : Option Node}
    (within : Within source default.toList) (typed : w.type written) :
    Accounts w (evaluatedIds default.toList) (withDefault env below what written default)
      w.type := by
  cases default with
  | none => exact .pure typed
  | some n =>
    refine (covering.slot (some n) within).last fun ty found => ?_
    refine .guarded (mismatch_accounts _ _ _ _) (.pure ?_)
    split
    · exact typed
    · exact found

theorem bindParams_account {l : Lambda Node} (own : origin (.lambda l)) (node index : Nat)
    {parts : List (Param Node × Ty)} (within : Within source (parts.filterMap (·.1.default)))
    (among : ∀ part ∈ parts, part.1 ∈ l.params) (typed : ∀ part ∈ parts, w.type part.2) :
    Accounts w (evaluatedIds (parts.filterMap (·.1.default)))
      (bindParams env below node index parts) fun types => ∀ ty ∈ types, w.type ty := by
  induction parts generalizing index with
  | nil => exact .pure nofun
  | cons part rest ih =>
    obtain ⟨param, written⟩ := part
    have later := ih (index + 1) within.tail (List.forall_mem_cons.mp among).2
      (List.forall_mem_cons.mp typed).2
    rw [Node.evaluatedIds_slots] at later ⊢
    rw [List.flatMap_cons]
    have default : Accounts w (evaluatedIds param.default.toList)
        (withDefault env below (text "default of " ++ env.name param.name) written param.default)
        w.type :=
      withDefault_accounts covering _ (within.slot List.mem_cons_self) (typed _ List.mem_cons_self)
    have said : (param.name, param.span) ∈ (Node.lambda l).declares :=
      List.mem_map_of_mem (among _ List.mem_cons_self)
    refine default.bind fun ty found => (annotate_accounts _ ty).skip fun _ _ => ?_
    refine (declare_accounts covering.suits own said found).skip fun _ _ => ?_
    exact later.last fun types all => .pure (List.forall_mem_cons.mpr ⟨found, all⟩)

theorem lambdaBody_accounts {l : Lambda Node} {sig : Ty} (own : origin (.lambda l))
    (within : Within source (Node.lambda l).children)
    (signed : sig.params.length = l.params.length ∧ w.type sig) :
    Accounts w (evaluatedIds [.lambda l]) (lambdaBody env below l sig) w.type := by
  have all : (l.params.zip sig.params).filterMap (·.1.default) =
      l.params.filterMap (·.default) := by
    have firsts : (l.params.zip sig.params).map (·.1) = l.params :=
      List.map_fst_zip (Nat.le_of_eq signed.1.symm)
    calc (l.params.zip sig.params).filterMap (·.1.default)
        = ((l.params.zip sig.params).map (·.1)).filterMap (·.default) := by
          rw [List.filterMap_map]
          rfl
      _ = l.params.filterMap (·.default) := by rw [firsts]
  have inside : Within source (l.params.filterMap (·.default) ++ l.body.toList) := within
  have params : Accounts w (evaluatedIds (l.params.filterMap (·.default)))
      (bindParams env below l.site.id 0 (l.params.zip sig.params))
      fun types => ∀ ty ∈ types, w.type ty := by
    rw [← all]
    refine bindParams_account covering own l.site.id 0 (all ▸ inside.left) ?_ ?_
    · exact fun _ member => (List.of_mem_zip member).1
    · exact fun _ member => covering.suits.arg signed.2 (List.of_mem_zip member).2
  refine .own (l.params.filterMap (·.default) ++ l.body.toList) rfl ?_
  rw [Node.evaluatedIds_append, List.append_assoc]
  refine openScope_accounts.skip fun _ _ => params.bind fun args bound => ?_
  dsimp only
  split
  next n present =>
    rw [present]
    have body := inside.right
    rw [present] at body
    refine (body_accounts covering body).bind fun bodyTy found => ?_
    exact closed_accounts covering.suits l signed.2 found bound
  next absent =>
    rw [absent]
    have nothing : Accounts w [] (Pure.pure Ty.nil) w.type :=
      .pure (covering.suits.ofKind (by decide))
    exact nothing.skip fun bodyTy found => closed_accounts covering.suits l signed.2 found bound

theorem lambda_accounts {l : Lambda Node} (own : origin (.lambda l))
    (within : Within source (Node.lambda l).children) :
    Accounts w (evaluatedIds [.lambda l]) (lambda env below l) w.type :=
  (signature_accounts covering.suits l).skip fun _ signed =>
    lambdaBody_accounts covering own within signed

/-! ### Definitions -/

theorem define_accounts {n : Node} {site : Site} {name : Handle} {value : Option Node}
    (declared : Handle) (own : origin n) (said : (name, site.span) ∈ n.declares)
    (within : Within source value.toList) :
    Accounts w (evaluatedIds value.toList) (define env below site name value declared)
      w.type := by
  refine (covering.slot value within).last fun valueTy found => ?_
  refine (writtenType_accounts covering.suits declared site.span).skip fun want written => ?_
  have typed : w.type (if want.isResolved then want else valueTy) := by
    split
    · exact written
    · exact found
  refine .guarded (mismatch_accounts _ _ _ _) ((annotate_accounts _ _).skip fun _ _ => ?_)
  exact (declare_accounts covering.suits own said typed).skip fun _ _ => .pure typed

theorem function_accounts {f : Function Node} (own : origin (.function f))
    (within : Within source (Node.function f).children) :
    Accounts w (evaluatedIds (Node.function f).parts) (function env below f) w.type := by
  unfold function
  split
  next => exact failed_accounts _ _ _ covering.suits.unresolved _
  next l present =>
    have inner : (Node.function f).parts = [.lambda l] := by
      show (f.lambda.map Node.lambda).toList = _
      rw [present]
      rfl
    rw [inner]
    refine (signature_accounts covering.suits l).skip fun sig signed => ?_
    have said : (f.name, f.site.span) ∈ (Node.function f).declares := List.mem_cons_self
    refine (declare_accounts covering.suits own said signed.2).skip fun _ _ => ?_
    have body := within.lambda present
    exact lambdaBody_accounts covering (covering.part _ body.own) body.below signed

theorem fields_account (node : Nat) (owner : Handle) (index : Nat) {parts : List (Field Node)}
    (within : Within source (parts.filterMap (·.default))) :
    Accounts w (evaluatedIds (parts.filterMap (·.default)))
      (fields env below node owner index parts) fun types => ∀ ty ∈ types, w.type ty := by
  induction parts generalizing index with
  | nil => exact .pure nofun
  | cons f rest ih =>
    have later := ih (index + 1) within.tail
    rw [Node.evaluatedIds_slots] at later ⊢
    rw [List.flatMap_cons]
    refine (writtenType_accounts covering.suits f.declared f.span).skip fun written typed => ?_
    have default : Accounts w (evaluatedIds f.default.toList)
        (withDefault env below (text "default of field " ++ env.name f.name) written f.default)
        w.type :=
      withDefault_accounts covering _ (within.slot List.mem_cons_self) typed
    refine default.bind fun ty found => (annotate_accounts _ ty).skip fun _ _ => ?_
    refine (addMember_accounts owner f.name f.span found).skip fun _ _ => ?_
    exact later.last fun types all => .pure (List.forall_mem_cons.mpr ⟨found, all⟩)

theorem struct_accounts {site : Site} {name : Handle} {parts : List (Field Node)}
    (own : origin (.struct site name parts))
    (within : Within source (parts.filterMap (·.default))) :
    Accounts w (evaluatedIds (parts.filterMap (·.default))) (struct env below site name parts)
      w.type := by
  have defined : Accounts w [] (registerType env name (.object name []) site.span) fun _ => True :=
    registerType_accounts covering.suits own rfl nofun
  refine (annotate_accounts _ _).skip fun _ _ => defined.skip fun _ _ => ?_
  refine (fields_account covering site.id name 0 within).last fun _ _ => .pure ?_
  exact covering.suits.ofKind (by decide)

omit covering in
theorem superTypes_account (site : Site) (name : Handle) (supers : List Handle) :
    Accounts w [] (superTypes env site name supers) fun types => ∀ ty ∈ types, w.type ty := by
  induction supers with
  | nil => exact .pure nofun
  | cons super rest ih =>
    refine (objectNamed_accounts super).skip fun found registered => ?_
    split
    next ty =>
      refine ih.skip fun types all => .pure ?_
      exact List.forall_mem_cons.mpr ⟨registered ty rfl, all⟩
    next => exact (report_accounts _ _ _ []).skip fun _ _ => ih

omit covering in
theorem bindFields_account {n : Node} (suits : w.Suits origin) (own : origin n)
    (seen : List Handle) {parts : List (Field Node × Ty)}
    (said : ∀ part ∈ parts, (part.1.name, part.1.span) ∈ n.declares)
    (typed : ∀ part ∈ parts, w.type part.2) :
    Accounts w [] (bindFields env seen parts) fun _ => True := by
  induction parts generalizing seen with
  | nil => exact .pure trivial
  | cons part rest ih =>
    have later := List.forall_mem_cons.mp said
    have types := List.forall_mem_cons.mp typed
    unfold bindFields
    split
    · exact ih seen later.2 types.2
    · exact (declare_accounts suits own later.1 types.1).skip fun _ _ => ih _ later.2 types.2

omit covering in
theorem bindMethods_account {n : Node} (suits : w.Suits origin) (own : origin n) (owner : Handle)
    {methods : List (Function Node)} (said : ∀ m ∈ methods, (m.name, m.site.span) ∈ n.declares) :
    Accounts w [] (bindMethods env owner methods) fun lambdas =>
      lambdas.map (·.1) = methods.filterMap (·.lambda) ∧
        ∀ part ∈ lambdas, part.2.params.length = part.1.params.length ∧ w.type part.2 := by
  induction methods with
  | nil => exact .pure ⟨rfl, nofun⟩
  | cons m rest ih =>
    have saids := List.forall_mem_cons.mp said
    unfold bindMethods
    split
    next absent =>
      refine (report_accounts _ _ _ []).skip fun _ _ => (ih saids.2).mono fun lambdas bound => ?_
      rwa [List.filterMap_cons_none absent]
    next l present =>
      refine (signature_accounts suits l).skip fun sig signed => ?_
      refine (addMember_accounts _ _ _ signed.2).skip fun added _ => ?_
      have finish : Accounts w [] (do return (l, sig) :: (← bindMethods env owner rest))
          fun lambdas => lambdas.map (·.1) = (m :: rest).filterMap (·.lambda) ∧
            ∀ part ∈ lambdas, part.2.params.length = part.1.params.length ∧ w.type part.2 := by
        refine (ih saids.2).skip fun lambdas bound => .pure ⟨?_, ?_⟩
        · rw [List.filterMap_cons_some present, List.map_cons, bound.1]
        · exact List.forall_mem_cons.mpr ⟨signed, bound.2⟩
      split
      · exact (declare_accounts suits own saids.1 signed.2).skip fun _ _ => finish
      · exact finish

theorem inits_account {lambdas : List (Lambda Node)}
    (within : Within source (lambdas.map Node.lambda)) :
    Accounts w (evaluatedIds (lambdas.map Node.lambda))
      (lambdas.forM fun l => discard (lambda env below l)) fun _ => True := by
  rw [List.map_eq_flatMap, Node.evaluatedIds_flatMap]
  refine .forM fun _ member => ?_
  have part := within.of_mem (List.mem_map_of_mem member)
  exact (lambda_accounts covering (covering.part _ part.own) part.below).discard

theorem methods_account {methods : List (Function Node)} {lambdas : List (Lambda Node × Ty)}
    (within : Within source (methods.map Node.function))
    (named : lambdas.map (·.1) = methods.filterMap (·.lambda))
    (signed : ∀ part ∈ lambdas, part.2.params.length = part.1.params.length ∧ w.type part.2) :
    Accounts w (evaluatedIds ((methods.filterMap (·.lambda)).map Node.lambda))
      (lambdas.forM fun part => discard (lambdaBody env below part.1 part.2)) fun _ => True := by
  rw [← named, List.map_map, List.map_eq_flatMap, Node.evaluatedIds_flatMap]
  refine .forM fun part member => ?_
  have among : part.1 ∈ methods.filterMap (·.lambda) := named ▸ List.mem_map_of_mem member
  obtain ⟨m, listed, present⟩ := List.mem_filterMap.mp among
  have body := (within.of_mem (List.mem_map_of_mem listed)).below.lambda present
  have own := covering.part _ body.own
  exact (lambdaBody_accounts covering own body.below (signed part member)).discard

theorem hooks_account {hooks : List (Option Node)} (within : Within source (hooks.filterMap (·))) :
    Accounts w (evaluatedIds (hooks.filterMap (·)))
      (hooks.forM fun hook => discard (block below hook)) fun _ => True := by
  rw [Node.evaluatedIds_slots]
  exact .forM fun _ member => (block_accounts covering (within.slot member)).discard

theorem cls_accounts {site : Site} {c : Class Node} (own : origin (.cls site c))
    (inside : Within source (Node.cls site c).children) :
    Accounts w (evaluatedIds (Node.cls site c).parts) (cls env below site c) w.type := by
  have same : [c.preInit, c.postInit, c.final, c.validate].filterMap (·) =
      c.preInit.toList ++ c.postInit.toList ++ c.final.toList ++ c.validate.toList := by
    rw [List.filterMap_eq_flatMap_toList]
    simp
  have hooks := hooks_account covering (same ▸ inside.right)
  rw [same] at hooks
  rw [Node.parts, Node.evaluatedIds_append, Node.evaluatedIds_append, Node.evaluatedIds_append,
    List.append_assoc, List.append_assoc]
  refine (superTypes_account site c.name c.supers).skip fun supers above => ?_
  refine (annotate_accounts _ _).skip fun _ _ => ?_
  refine (registerType_accounts covering.suits own rfl above).skip fun _ _ => ?_
  refine (fields_account covering site.id c.name 0 inside.left.left.left).bind fun types all => ?_
  have bound : Accounts w [] (bindFields env [] (c.fields.zip types)) fun _ => True :=
    bindFields_account covering.suits own []
      (fun _ member => List.mem_append_left _ (List.mem_map_of_mem (List.of_mem_zip member).1))
      (fun _ member => all _ (List.of_mem_zip member).2)
  refine openScope_accounts.skip fun _ _ => bound.skip fun _ _ => ?_
  have said : ∀ m ∈ c.methods, (m.name, m.site.span) ∈ (Node.cls site c).declares :=
    fun _ member => List.mem_append_right _ (List.mem_map_of_mem member)
  refine (bindMethods_account covering.suits own c.name said).skip fun lambdas bound => ?_
  refine (inits_account covering inside.left.left.right).bind fun _ _ => ?_
  refine (methods_account covering inside.left.right bound.1 bound.2).bind fun _ _ => ?_
  refine hooks.last fun _ _ => closeScope_accounts.skip fun _ _ => .pure ?_
  exact covering.suits.ofKind (by decide)

/-! ### Variables, branches and indices -/

theorem ident_accounts (site : Site) (name : Handle) :
    Accounts w [] (ident env site name) w.type := by
  refine (lookup_accounts name).skip fun found typed => ?_
  split
  next symbol => exact .pure (typed symbol rfl)
  next => exact failed_accounts _ _ _ covering.suits.unresolved _

theorem assign_accounts (site : Site) (name : Handle) {value : Option Node}
    (within : Within source value.toList) :
    Accounts w (evaluatedIds value.toList) (assign env below site name value) w.type := by
  refine (covering.slot value within).last fun valueTy found => ?_
  refine (lookup_accounts name).skip fun binding typed => ?_
  split
  next => exact failed_accounts _ _ _ found _
  next symbol => exact .guarded (mismatch_accounts _ _ _ _) (.pure (typed symbol rfl))

theorem condition_accounts {slot : Option Node} (within : Within source slot.toList) :
    Accounts w (evaluatedIds slot.toList) (condition env below slot) fun _ => True := by
  refine (covering.slot slot within).last fun ty _ => ?_
  cases slot with
  | none => exact .pure trivial
  | some n =>
    dsimp only
    split
    · exact mismatch_accounts _ _ _ _
    · exact .pure trivial

theorem branches_account (node index : Nat) {parts : List (Branch Node)}
    (within : Within source (Node.ofBranches parts)) :
    Accounts w (evaluatedIds (Node.ofBranches parts)) (branches env below node index parts)
      fun types => ∀ ty ∈ types, w.type ty := by
  induction parts generalizing index with
  | nil => exact .pure nofun
  | cons b rest ih =>
    rw [Node.ofBranches, List.flatMap_cons] at within ⊢
    have own : Accounts w (evaluatedIds (b.guard.toList ++ b.body.toList))
        (branch env below node index b) w.type := by
      rw [Node.evaluatedIds_append]
      refine (condition_accounts covering within.left.left).bind fun _ _ => ?_
      refine (block_accounts covering within.left.right).last fun ty typed => ?_
      exact (annotate_accounts _ ty).skip fun _ _ => .pure typed
    rw [Node.evaluatedIds_append]
    refine own.bind fun ty typed => (ih (index + 1) within.right).last fun types all => .pure ?_
    exact List.forall_mem_cons.mpr ⟨typed, all⟩

theorem cond_accounts (site : Site) {parts : List (Branch Node)} {otherwise : Option Node}
    (within : Within source (Node.ofBranches parts ++ otherwise.toList)) :
    Accounts w (evaluatedIds (Node.ofBranches parts ++ otherwise.toList))
      (cond env below site parts otherwise) w.type := by
  rw [Node.evaluatedIds_append]
  refine (branches_account covering site.id 0 within.left).bind fun types all => ?_
  refine (block_accounts covering within.right).last fun last typed => ?_
  refine (annotate_accounts _ last).skip fun _ _ => .pure (covering.suits.join ?_)
  split
  · exact List.forall_mem_append.mpr ⟨all, List.forall_mem_singleton.mpr typed⟩
  · exact all

theorem access_accounts (site : Site) {index target : Option Node}
    (within : Within source (index.toList ++ target.toList)) :
    Accounts w (evaluatedIds (index.toList ++ target.toList)) (access env below site index target)
      w.type := by
  have finish {ty : Ty} (typed : w.type ty) : Accounts w [] (do
      if ty.kind = .vector then return ty.elemType
      else if ty.kind = .pair || ty.kind = .unresolved then return .unresolved
      else
        report .typeMismatch (spanOr target site.span)
          (text "cannot index a value of type " ++ env.label ty)
        return .unresolved : Check Ty) w.type := by
    split
    · exact .pure (covering.suits.elemType typed)
    split
    · exact .pure covering.suits.unresolved
    · exact failed_accounts _ _ _ covering.suits.unresolved _
  rw [Node.evaluatedIds_append]
  refine Accounts.perm ((covering.slot target within.right).bind fun ty typed => ?_)
    List.perm_append_comm
  cases index with
  | none => exact finish typed
  | some n =>
    refine (covering.slot (some n) within.left).last fun indexTy _ => ?_
    exact .guarded (mismatch_accounts _ _ _ _) (finish typed)

/-! ### Calls and member accesses -/

omit covering in
theorem matchArgs_account (span : Span) (what : Text) (args : List (Argument Node × Ty))
    (params : List Ty) : Accounts w [] (matchArgs env span what args params) fun _ => True := by
  induction args generalizing params with
  | nil => exact .pure trivial
  | cons arg rest ih =>
    cases params with
    | nil => exact .pure trivial
    | cons param params =>
      unfold matchArgs
      exact .guarded (mismatch_accounts _ _ _ _) (ih params)

theorem discarded_account {args : List (Argument Node)}
    (within : Within source (Node.ofArguments args)) :
    Accounts w (evaluatedIds (Node.ofArguments args)) (args.forM fun a => discard (below a.value))
      fun _ => True := by
  rw [Node.ofArguments, Node.evaluatedIds_slots]
  exact .forM fun a member => (covering.slot a.value (within.slot member)).discard

theorem apply_accounts (span : Span) (what : Text) {callee : Ty} {args : List (Argument Node)}
    (within : Within source (Node.ofArguments args)) (typed : w.type callee) :
    Accounts w (evaluatedIds (Node.ofArguments args)) (apply env below span what callee args)
      w.type := by
  have values : Accounts w (evaluatedIds (Node.ofArguments args))
      (args.mapM fun a => below a.value) fun types => ∀ ty ∈ types, w.type ty := by
    rw [Node.ofArguments, Node.evaluatedIds_slots]
    exact .mapM fun a member => covering.slot a.value (within.slot member)
  refine values.last fun types _ => ?_
  split
  · exact .pure covering.suits.unresolved
  split
  · exact failed_accounts _ _ _ covering.suits.unresolved _
  · refine .guarded (report_accounts _ _ _ []) ?_
    refine (matchArgs_account _ _ _ _).skip fun _ _ => .pure ?_
    exact covering.suits.resultType typed

theorem call_accounts (site : Site) (name : Handle) {args : List (Argument Node)}
    (within : Within source (Node.ofArguments args)) :
    Accounts w (evaluatedIds (Node.ofArguments args)) (call env below site name args) w.type := by
  refine (lookup_accounts name).skip fun found typed => ?_
  split
  next symbol => exact apply_accounts covering _ _ within (typed symbol rfl)
  next =>
    refine (discarded_account covering within).last fun _ _ => ?_
    exact failed_accounts _ _ _ covering.suits.unresolved _

theorem follow_accounts {ty : Ty} {accessors : List (Accessor Node)}
    (within : Within source (Node.ofAccessors accessors))
    (bare : ∀ a ∈ accessors, a.isField = true → a.args = []) (typed : w.type ty) :
    Accounts w (evaluatedIds (Node.ofAccessors accessors)) (follow env below ty accessors)
      w.type := by
  induction accessors generalizing ty with
  | nil => exact .pure typed
  | cons a rest ih =>
    rw [Node.ofAccessors, List.flatMap_cons] at within ⊢
    have later {ty : Ty} (typed : w.type ty) :=
      ih within.right (fun b member => bare b (List.mem_cons_of_mem _ member)) typed
    rw [Node.evaluatedIds_append]
    unfold follow
    split
    · exact (discarded_account covering within.left).bind fun _ _ => later typed
    dsimp only
    split
    · refine (member_accounts _ _).skip fun found members => ?_
      split
      next => exact failed_accounts _ _ _ covering.suits.unresolved _
      next member =>
        split
        next field =>
          rw [bare a List.mem_cons_self field]
          exact later (members member rfl)
        next =>
          refine (apply_accounts covering _ _ within.left (members member rfl)).bind ?_
          exact fun result given => later given
    · have nothing : Accounts w [] (Pure.pure none : Check (Option Ty)) fun found => found = none :=
        .pure rfl
      refine nothing.skip fun found none => ?_
      subst none
      exact failed_accounts _ _ _ covering.suits.unresolved _

theorem invoke_accounts (site : Site) {callee : Option Node} {accessors : List (Accessor Node)}
    {args : List (Argument Node)} (within : Within source
      (callee.toList ++ Node.ofAccessors accessors ++ Node.ofArguments args))
    (bare : ∀ a ∈ accessors, a.isField = true → a.args = []) :
    Accounts w
      (evaluatedIds (callee.toList ++ Node.ofAccessors accessors ++ Node.ofArguments args))
      (invoke env below site callee accessors args) w.type := by
  rw [Node.evaluatedIds_append, Node.evaluatedIds_append, List.append_assoc]
  refine (covering.slot callee within.left.left).bind fun ty typed => ?_
  refine (follow_accounts covering within.left.right bare typed).bind fun found given => ?_
  exact apply_accounts covering _ _ within.right given

theorem chain_accounts {c : Chain Node} (within : Within source (Node.ofAccessors c.accessors))
    (bare : ∀ a ∈ c.accessors, a.isField = true → a.args = []) :
    Accounts w (evaluatedIds (Node.ofAccessors c.accessors)) (chain env below c) w.type := by
  refine (lookup_accounts c.name).skip fun found typed => ?_
  split
  next symbol => exact follow_accounts covering within bare (typed symbol rfl)
  next => exact failed_accounts _ _ _ covering.suits.unresolved _

theorem assignMember_accounts (site : Site) {target : Option (Chain Node)} {value : Option Node}
    (within : Within source ((target.map Node.member).toList ++ value.toList)) :
    Accounts w (evaluatedIds ((target.map Node.member).toList ++ value.toList))
      (assignMember env below site target value) w.type := by
  rw [Node.evaluatedIds_append]
  refine Accounts.perm ((covering.slot value within.right).bind fun valueTy found => ?_)
    List.perm_append_comm
  cases target with
  | none => exact .pure found
  | some c =>
    refine (covering.slot (some (.member c)) within.left).last fun ty typed => ?_
    exact .guarded (mismatch_accounts _ _ _ _) (.pure typed)

/-! ### Objects and operations -/

theorem random_accounts (isFloat : Bool) {bounds : List (Option Node)}
    (within : Within source (bounds.filterMap (·))) :
    Accounts w (evaluatedIds (bounds.filterMap (·))) (random env below isFloat bounds)
      w.type := by
  rw [Node.evaluatedIds_slots]
  refine Accounts.last (.forM fun bound member => ?_) fun _ _ => .pure ?_
  · have slot := within.slot member
    cases bound with
    | none => exact .pure trivial
    | some n =>
      refine (covering.slot (some n) slot).last fun ty _ => ?_
      split
      · exact mismatch_accounts _ _ _ _
      · exact .pure trivial
  · cases isFloat
    · exact covering.suits.ofKind (by decide)
    · exact covering.suits.ofKind (by decide)

theorem create_accounts (site : Site) (name : Handle) {args : List (Initializer Node)}
    (within : Within source (args.filterMap (·.value))) :
    Accounts w (evaluatedIds (args.filterMap (·.value))) (create env below site name args)
      w.type := by
  rw [Node.evaluatedIds_slots]
  refine (objectNamed_accounts name).skip fun found registered => ?_
  split
  next =>
    refine Accounts.last (.forM fun a member => ?_) fun _ _ => ?_
    · exact (covering.slot a.value (within.slot member)).discard
    · exact failed_accounts _ _ _ covering.suits.unresolved _
  next ty =>
    refine Accounts.last (.forM fun a among => ?_) fun _ _ => .pure (registered ty rfl)
    refine (covering.slot a.value (within.slot among)).last fun valueTy _ => ?_
    refine (member_accounts ty a.name).skip fun field _ => ?_
    split
    · exact report_accounts _ _ _ []
    split
    · exact mismatch_accounts _ _ _ _
    · exact .pure trivial

theorem construct_accounts (site : Site) (name : Handle) {args : List (Argument Node)}
    (within : Within source (Node.ofArguments args)) :
    Accounts w (evaluatedIds (Node.ofArguments args)) (construct env below site name args)
      w.type := by
  refine (discarded_account covering within).last fun _ _ => ?_
  refine (objectNamed_accounts name).skip fun found registered => ?_
  split
  next => exact failed_accounts _ _ _ covering.suits.unresolved _
  next ty => exact .pure (registered ty rfl)

theorem slots_account {slots : List (Option Node)} (within : Within source (slots.filterMap (·))) :
    Accounts w (evaluatedIds (slots.filterMap (·))) (slots.mapM below)
      fun types => ∀ ty ∈ types, w.type ty := by
  rw [Node.evaluatedIds_slots]
  exact .mapM fun slot member => covering.slot slot (within.slot member)

theorem vector_accounts {elems : List (Option Node)}
    (within : Within source (elems.filterMap (·))) :
    Accounts w (evaluatedIds (elems.filterMap (·))) (vector env below elems) w.type := by
  refine (slots_account covering within).last fun types all => ?_
  have typed : w.type (.vector (Ty.join types)) := covering.suits.vector (covering.suits.join all)
  split
  · exact .pure (covering.suits.vector covering.suits.unresolved)
  dsimp only
  split
  · split
    · refine (spanOf_accounts _).skip fun span _ => ?_
      exact (mismatch_accounts _ _ _ _).skip fun _ _ => .pure typed
    · exact .pure typed
  · exact .pure typed

theorem arithmetic_accounts (op : Operator) {result : Ty} (parts : List (Option Node × Ty))
    (typed : w.type result) : Accounts w [] (arithmetic env op result parts) w.type := by
  induction parts generalizing result with
  | nil => exact .pure typed
  | cons part rest ih =>
    unfold arithmetic
    split
    · exact ih covering.suits.unresolved
    split
    · refine (spanOf_accounts part.1).skip fun span _ => ?_
      exact (report_accounts _ _ _ []).skip fun _ _ => ih covering.suits.unresolved
    split
    · exact ih (covering.suits.ofKind (by decide))
    · exact ih typed

theorem operation_accounts (site : Site) (op : Operator) {operands : List (Option Node)}
    (within : Within source (operands.filterMap (·))) :
    Accounts w (evaluatedIds (operands.filterMap (·))) (operation env below site op operands)
      w.type := by
  refine (slots_account covering within).last fun types _ => ?_
  have scalar {kind : Kind} (other : kind ≠ .object) : w.type (.ofKind kind) :=
    covering.suits.ofKind other
  split
  · exact arithmetic_accounts covering op _ (scalar (by decide))
  · exact .pure (scalar (by decide))
  · refine (Accounts.forM_quiet fun part _ => ?_).skip fun _ _ => .pure (scalar (by decide))
    dsimp only
    split
    · exact (spanOf_accounts part.1).skip fun span _ => mismatch_accounts _ _ _ _
    · exact .pure trivial
  · refine .pure ?_
    split
    · exact scalar (by decide)
    · exact covering.suits.unresolved
  · exact failed_accounts _ _ _ covering.suits.unresolved _

/-! ### Nodes -/

/-- Every kind of node accounts for itself and for everything that is evaluated for it. -/
theorem node_accounts {n : Node} (own : origin n) (inside : Within source n.children)
    (bare : ∀ a ∈ n.accessors, a.isField = true → a.args = []) :
    Accounts w (evaluatedIds [n]) (node env below n) w.type := by
  have recorded {x : Check Ty} {m : Node} (parts : List Node) (same : m.parts = parts)
      (accounts : Accounts w (evaluatedIds parts) x w.type) :
      Accounts w (evaluatedIds [m]) (do record m.id (← x)) w.type :=
    .own parts same (accounts.bind fun ty typed => record_accounts m.id typed)
  have scalar (id : Nat) {kind : Kind} (other : kind ≠ .object) :
      Accounts w [id] (record id (.ofKind kind)) w.type :=
    record_accounts id (covering.suits.ofKind other)
  cases n with
  | integer site | float site | boolean site | string site | nil site | quote site | pair site =>
    exact .own [] rfl (scalar site.id (by decide))
  | vector site => exact recorded _ rfl (vector_accounts covering inside)
  | define site => exact recorded _ rfl (define_accounts covering _ own List.mem_cons_self inside)
  | lambda l => exact lambda_accounts covering own inside
  | function f => exact recorded _ rfl (function_accounts covering own inside)
  | struct site => exact recorded _ rfl (struct_accounts covering own inside)
  | cls site => exact recorded _ rfl (cls_accounts covering own inside)
  | ident site => exact recorded [] rfl (ident_accounts covering site _)
  | assign site => exact recorded _ rfl (assign_accounts covering site _ inside)
  | block site exprs => exact scoped_accounts (exprs_account covering site inside)
  | print site value =>
    exact .own value.toList rfl
      ((covering.slot _ inside).bind fun _ _ => scalar site.id (by decide))
  | cond site part otherwise =>
    have single : Node.ofBranches [part] = part.guard.toList ++ part.body.toList :=
      List.flatMap_singleton _ _
    refine recorded (Node.ofBranches [part] ++ otherwise.toList) ?_ (cond_accounts covering site ?_)
    · rw [single]
      rfl
    · rwa [single]
  | conds site => exact recorded _ rfl (cond_accounts covering site inside)
  | loop site guard body =>
    refine .own (guard.toList ++ body.toList) rfl ?_
    rw [Node.evaluatedIds_append, List.append_assoc]
    refine (condition_accounts covering inside.left).bind fun _ _ => ?_
    exact (block_accounts covering inside.right).bind fun _ _ => scalar site.id (by decide)
  | cons site car cdr =>
    refine .own (car.toList ++ cdr.toList) rfl ?_
    rw [Node.evaluatedIds_append, List.append_assoc]
    refine (covering.slot _ inside.left).bind fun _ _ => ?_
    exact (covering.slot _ inside.right).bind fun _ _ => scalar site.id (by decide)
  | list site op operands =>
    refine .own (operands.filterMap (·)) rfl ?_
    rw [Node.evaluatedIds_slots]
    refine Accounts.bind (.forM fun slot member => ?_) fun _ _ => ?_
    · exact (covering.slot slot (inside.slot member)).discard
    · exact (annotate_accounts _ _).skip fun _ _ => scalar site.id (by decide)
  | access site => exact recorded _ rfl (access_accounts covering site inside)
  | call site => exact recorded _ rfl (call_accounts covering site _ inside)
  | invoke site => exact recorded _ rfl (invoke_accounts covering site inside bare)
  | member c => exact recorded _ rfl (chain_accounts covering inside bare)
  | assignMember site => exact recorded _ rfl (assignMember_accounts covering site inside)
  | random site isFloat lower upper =>
    have both : [lower, upper].filterMap (·) = lower.toList ++ upper.toList := by
      cases lower <;> cases upper <;> rfl
    refine recorded ([lower, upper].filterMap (·)) ?_ (random_accounts covering isFloat ?_)
    · rw [both]
      rfl
    · rwa [both]
  | create site => exact recorded _ rfl (create_accounts covering site _ inside)
  | construct site => exact recorded _ rfl (construct_accounts covering site _ inside)
  | operation site op operands =>
    refine .own (operands.filterMap (·)) rfl ?_
    refine (operation_accounts covering site op inside).bind fun ty typed => ?_
    exact (annotate_accounts _ ty).skip fun _ _ => record_accounts site.id typed
  | foreign site => exact failed_accounts _ _ _ covering.suits.unresolved _

end

/-! ### Whole trees -/

/-- No field is accessed with arguments, and there are no more nodes than this. -/
def Bounded (depth : Nat) (n : Node) : Prop :=
  n.count ≤ depth ∧ ∀ a ∈ n.accessors, a.isField = true → a.args = []

theorem expr_covering {w : Traits} {source : Node → Prop} (suits : w.Suits source) (env : Env)
    (depth : Nat) : Covering w source (fun n => source n ∧ Bounded depth n) (expr env depth) := by
  induction depth with
  | zero =>
    refine ⟨suits, fun _ both => both.1, fun slot within => ?_⟩
    cases slot with
    | none => exact .pure suits.unresolved
    | some n =>
      have small : n.count ≤ 0 := within.own.2.1
      rw [Node.count, Node.visits_eq] at small
      exact absurd small (by simp)
  | succ depth ih =>
    refine ⟨suits, fun _ both => both.1, fun slot within => ?_⟩
    cases slot with
    | none => exact .pure (suits.ofKind (by decide))
    | some n =>
      refine node_accounts ih within.own.1 (fun child below m found => ?_) within.own.2.2
      have fewer := Node.count_le_of_mem_visits child found
      have lower := Node.count_lt_of_child below
      have whole : n.count ≤ depth + 1 := within.own.2.1
      have inner := within.below child below m found
      exact ⟨inner.1, by omega, inner.2.2⟩

theorem tree_accounts {w : Traits} (env : Env) {t : Tree} (suits : w.Suits (· ∈ t.visits))
    (bare : ∀ n ∈ t.visits, ∀ a ∈ n.accessors, a.isField = true → a.args = []) :
    Accounts w (evaluatedIds (t.nodes.filterMap (·))) (tree env t) fun _ => True := by
  have nodes : Within (fun n => n ∈ t.visits ∧ Bounded (t.visits.length + 1) n)
      (t.nodes.filterMap (·)) := by
    intro n member m found
    have visited : (n.visits fun _ => true).Sublist t.visits := by
      unfold Tree.visits
      rw [List.flatMap_def]
      exact List.sublist_flatten_of_mem (List.mem_map_of_mem member)
    have fewer := Node.count_le_of_mem_visits n found
    have within : n.count ≤ t.visits.length := visited.length_le
    exact ⟨visited.subset found, by omega, bare m (visited.subset found)⟩
  rw [Node.evaluatedIds_slots]
  exact .forM fun slot member =>
    ((expr_covering suits env _).slot slot (nodes.slot member)).discard

theorem visits_perm (t : Tree) :
    t.visits.Perm ((t.nodes.filterMap (·)).flatMap Node.evaluated ++ t.methods) := by
  have each : t.visits.Perm ((t.nodes.filterMap (·)).flatMap fun n =>
      n.evaluated ++ (n.visits fun _ => true).flatMap Node.methods) :=
    List.Perm.flatMap_left _ fun n _ => n.visits_perm
  have apart := each.trans (List.flatMap_append_perm _ _ _).symm
  rwa [← List.flatMap_assoc] at apart

theorem State.errors_eq_zero {s : State}
    (none : ∀ d ∈ s.emitted.toList, d.severity ≠ .error) : s.errors = 0 :=
  List.countP_eq_zero.mpr fun d member => by simpa using none d member

theorem eraseDups_of_nodup {ids : List Nat} (distinct : ids.Nodup) : ids.eraseDups = ids := by
  induction ids with
  | nil => rfl
  | cons i rest ih =>
    obtain ⟨new, others⟩ := List.nodup_cons.mp distinct
    have kept : rest.filter (fun j => !j == i) = rest := by
      refine List.filter_eq_self.mpr fun j member => ?_
      have other : j ≠ i := fun same => new (same ▸ member)
      simpa using other
    rw [List.eraseDups_cons, kept, ih others]

theorem State.Covers.tree {t : Tree} {ctx : Context} {s : State}
    (covers : (State.start ctx).Covers (evaluatedIds (t.nodes.filterMap (·))) s)
    (distinct : (t.visits.map Node.id).Nodup) :
    (∀ id ∈ s.ids, ∃ n ∈ t.visits, n.id = id) ∧ s.ids.Nodup ∧
      ((∀ d ∈ s.emitted.toList, d.severity ≠ .error) →
        (∀ n ∈ t.visits, n.id ∈ s.ids ↔ n ∉ t.methods) ∧
        s.recorded = t.visits.length - t.methods.length) := by
  obtain ⟨added, recorded, among, all⟩ := covers.added
  have ids : s.ids = added := recorded
  subst ids
  have perm := visits_perm t
  have numbers := perm.map Node.id
  rw [List.map_append] at numbers
  have apart := numbers.nodup_iff.mp distinct
  have once : s.ids.Nodup := by
    obtain ⟨middle, same, part⟩ := among
    exact same.nodup_iff.mp ((List.Nodup.of_append_left apart).sublist part)
  refine ⟨fun id member => ?_, once, fun none => ?_⟩
  · have visited := numbers.symm.subset (List.mem_append_left _ (among.subset member))
    exact List.mem_map.mp visited
  have whole := all (State.errors_eq_zero none)
  refine ⟨fun n visited => ⟨fun member listed => ?_, fun other => ?_⟩, ?_⟩
  · exact List.disjoint_of_nodup_append apart (whole.subset member) (List.mem_map_of_mem listed)
  · have evaluated := (List.mem_append.mp (perm.subset visited)).resolve_right other
    exact whole.symm.subset (List.mem_map_of_mem evaluated)
  · have counted := perm.length_eq
    rw [List.length_append] at counted
    have length : s.ids.length = ((t.nodes.filterMap (·)).flatMap Node.evaluated).length := by
      rw [whole.length_eq, evaluatedIds, List.length_map]
    show s.ids.eraseDups.length = _
    rw [eraseDups_of_nodup once, length, counted, Nat.add_sub_cancel]

/-- The check of a file covers its tree. In the tree no number stands twice, so that numbers stand
for nodes. From any context, the check comes to its end; what it has recorded are nodes of a walk
over the tree, and none of them twice. If it has reported no error, it has recorded exactly the
nodes of the walk that are no methods of a class, so that there are as many of them as visited
nodes, less the methods. -/
theorem tree_covered (f : SourceFile) (names : Interner) (env : Env) (ctx : Context) :
    let t := (Load.ofFile f names).tree
    (t.visits.map Node.id).Nodup ∧
    ∃ s, (tree env t).run (.start ctx) = .ok () s ∧
      (∀ id ∈ s.ids, ∃ n ∈ t.visits, n.id = id) ∧ s.ids.Nodup ∧
      ((∀ d ∈ s.emitted.toList, d.severity ≠ .error) →
        (∀ n ∈ t.visits, n.id ∈ s.ids ↔ n ∉ t.methods) ∧
        s.recorded = t.visits.length - t.methods.length) := by
  intro t
  have origins : (t.visits.map Node.id).Nodup ∧
      ∀ n ∈ t.visits, ∀ a ∈ n.accessors, a.isField = true → a.args = [] := by
    rcases Load.ofFile_cases f names with ⟨d, -, source⟩ | ⟨blank, -⟩
    · exact ⟨source.distinct, source.bare⟩
    · have none : t.visits = [] := blank
      rw [none]
      exact ⟨List.nodup_nil, nofun⟩
  obtain ⟨distinct, bare⟩ := origins
  obtain ⟨s, ends, -⟩ := tree_ends env (Load.ofFile_complete f names).1 (.start ctx)
  have bears : (State.start ctx).Bears .any := ⟨ctx.tables.bear_any, nofun⟩
  have covers := (tree_accounts env (Traits.any_suits _) bare _ bears _ _ ends).2.2
  exact ⟨distinct, s, ends, covers.tree distinct⟩

end TreeCheck.Check
