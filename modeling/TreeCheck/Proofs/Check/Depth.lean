import TreeCheck.Proofs.Check.Rules

/-!
The bound on the depth of a check is never met. A rule asks for nothing but nodes below its own, so
two functions that check those nodes alike make the rule the same; and a node has at least as many
nodes as levels. Beyond the number of its nodes, the check of a tree does not depend on the bound.
-/

namespace TreeCheck

namespace Node

variable {child m n : Node}

theorem count_lt_of_child (below : child ∈ n.children) : child.count < n.count := by
  have part : (child.visits fun _ => true).Sublist (n.children.flatMap (visits fun _ => true)) := by
    rw [List.flatMap_def]
    exact List.sublist_flatten_of_mem (List.mem_map.mpr ⟨child, below, rfl⟩)
  have shorter := part.length_le
  unfold count
  rw [visits_eq _ n, if_pos rfl, List.length_cons]
  omega

theorem count_le_of_mem_visits {m : Node} (n : Node) (found : m ∈ n.visits fun _ => true) :
    m.count ≤ n.count := by
  rw [visits_eq, if_pos rfl] at found
  rcases List.mem_cons.mp found with rfl | deeper
  · exact Nat.le_refl _
  · obtain ⟨child, below, inside⟩ := List.mem_flatMap.mp deeper
    have smaller := sizeOf_lt_of_mem_children below
    have inner := count_le_of_mem_visits child inside
    exact Nat.le_trans inner (Nat.le_of_lt (count_lt_of_child below))
termination_by sizeOf n

end Node

namespace Check

variable {α β : Type}

/-! ### Steps that agree -/

theorem mapM_congr {f g : α → Check β} {xs : List α} (same : ∀ a ∈ xs, f a = g a) :
    xs.mapM f = xs.mapM g := by
  induction xs with
  | nil => rfl
  | cons a rest ih =>
    have later := ih fun b member => same b (List.mem_cons_of_mem _ member)
    rw [List.mapM_cons, List.mapM_cons, same a List.mem_cons_self, later]

theorem forM_congr {f g : α → Check Unit} {xs : List α} (same : ∀ a ∈ xs, f a = g a) :
    xs.forM f = xs.forM g := by
  induction xs with
  | nil => rfl
  | cons a rest ih =>
    have later := ih fun b member => same b (List.mem_cons_of_mem _ member)
    show (do f a; rest.forM f) = (do g a; rest.forM g)
    rw [same a List.mem_cons_self, later]

theorem foldlM_congr {f g : β → α → Check β} {xs : List α}
    (same : ∀ a ∈ xs, ∀ b, f b a = g b a) (b : β) : xs.foldlM f b = xs.foldlM g b := by
  induction xs generalizing b with
  | nil => rfl
  | cons a rest ih =>
    have later := fun c => ih (fun d member => same d (List.mem_cons_of_mem _ member)) c
    rw [List.foldlM_cons, List.foldlM_cons, same a List.mem_cons_self b]
    exact congrArg _ (funext later)

theorem bind_congr_of_leads {x : Check α} {f g : α → Check β} {post : α → Prop}
    (leads : ∀ s, Leads True x s fun a _ => post a) (same : ∀ a, post a → f a = g a) :
    x >>= f = x >>= g := by
  funext s
  show (x >>= f).run s = (x >>= g).run s
  have result := leads s
  unfold Leads at result
  rw [EStateM.run_bind, EStateM.run_bind]
  cases ends : x.run s with
  | ok a t =>
    rw [ends] at result
    simp only [same a result]
  | error fault t => rfl

/-! ### Rules over functions that agree -/

/-- The two functions check an absent node alike, and all of the nodes with everything below
them. -/
structure Alike (below other : Below) (nodes : List Node) : Prop where
  absent : below none = other none
  present : ∀ n ∈ nodes, ∀ m ∈ n.visits (fun _ => true), below (some m) = other (some m)

namespace Alike

variable {below other : Below} {nodes more : List Node} {n : Node}

theorem sub {fewer : List Node} (alike : Alike below other nodes)
    (inside : ∀ n ∈ fewer, n ∈ nodes) : Alike below other fewer :=
  ⟨alike.absent, fun n member => alike.present n (inside n member)⟩

theorem left (alike : Alike below other (nodes ++ more)) : Alike below other nodes :=
  alike.sub fun _ member => List.mem_append_left _ member

theorem right (alike : Alike below other (nodes ++ more)) : Alike below other more :=
  alike.sub fun _ member => List.mem_append_right _ member

theorem children (alike : Alike below other nodes) (member : n ∈ nodes) :
    Alike below other n.children := by
  refine ⟨alike.absent, fun child below m found => alike.present n member m ?_⟩
  rw [Node.visits_eq, if_pos rfl]
  exact List.mem_cons_of_mem _ (List.mem_flatMap.mpr ⟨child, below, found⟩)

theorem slot {slot : Option Node} (alike : Alike below other slot.toList) :
    below slot = other slot := by
  cases slot with
  | none => exact alike.absent
  | some n =>
    refine alike.present n List.mem_cons_self n ?_
    rw [Node.visits_eq]
    exact List.mem_cons_self

theorem part {slotOf : α → Option Node} {parts : List α} {a : α}
    (alike : Alike below other (parts.filterMap slotOf)) (member : a ∈ parts) :
    Alike below other (slotOf a).toList :=
  alike.sub fun _ found => List.mem_filterMap.mpr ⟨a, member, Option.mem_toList.mp found⟩

theorem tail {slotOf : α → Option Node} {a : α} {rest : List α}
    (alike : Alike below other ((a :: rest).filterMap slotOf)) :
    Alike below other (rest.filterMap slotOf) := by
  refine alike.sub fun n found => ?_
  obtain ⟨b, member, same⟩ := List.mem_filterMap.mp found
  exact List.mem_filterMap.mpr ⟨b, List.mem_cons_of_mem _ member, same⟩

end Alike

section

variable {env : Env} {below other : Below}

theorem body_alike {n : Node} (alike : Alike below other [n]) : body below n = body other n := by
  unfold body
  split
  next site exprs =>
    have inner := alike.children List.mem_cons_self
    have same := foldlM_congr (fun e member (_ : Ty) => (inner.part member).slot) Ty.nil
    rw [same]
  next => exact alike.slot

theorem block_alike {slot : Option Node} (alike : Alike below other slot.toList) :
    block below slot = block other slot := by
  cases slot with
  | none => rfl
  | some n => simp only [block, body_alike alike]

theorem slots_alike {slots : List (Option Node)}
    (alike : Alike below other (slots.filterMap (·))) : slots.mapM below = slots.mapM other :=
  mapM_congr fun _ member => (alike.part member).slot

theorem vector_alike {elems : List (Option Node)}
    (alike : Alike below other (elems.filterMap (·))) :
    vector env below elems = vector env other elems := by
  simp only [vector, slots_alike alike]

theorem define_alike {value : Option Node} (alike : Alike below other value.toList) (site : Site)
    (name declared : Handle) :
    define env below site name value declared = define env other site name value declared := by
  simp only [define, alike.slot]

theorem withDefault_alike {default : Option Node} (alike : Alike below other default.toList)
    (what : Text) (written : Ty) :
    withDefault env below what written default = withDefault env other what written default := by
  cases default with
  | none => rfl
  | some n =>
    have same : below (some n) = other (some n) := alike.slot
    simp only [withDefault, same]

theorem bindParams_alike {parts : List (Param Node × Ty)}
    (alike : Alike below other (parts.filterMap (·.1.default))) (node index : Nat) :
    bindParams env below node index parts = bindParams env other node index parts := by
  induction parts generalizing index with
  | nil => rfl
  | cons part rest ih =>
    have default : Alike below other part.1.default.toList := alike.part List.mem_cons_self
    simp only [bindParams, withDefault_alike default, ih alike.tail]

theorem lambdaBody_alike {l : Lambda Node} (alike : Alike below other (Node.lambda l).children)
    (sig : Ty) : lambdaBody env below l sig = lambdaBody env other l sig := by
  have params : Alike below other ((l.params.zip sig.params).filterMap (·.1.default)) := by
    refine alike.left.sub fun n found => ?_
    obtain ⟨⟨p, ty⟩, member, same⟩ := List.mem_filterMap.mp found
    exact List.mem_filterMap.mpr ⟨p, (List.of_mem_zip member).1, same⟩
  unfold lambdaBody
  cases present : l.body with
  | none => simp only [bindParams_alike params]
  | some n =>
    have rest := alike.right
    rw [present] at rest
    simp only [bindParams_alike params, body_alike rest]

theorem lambda_alike {l : Lambda Node} (alike : Alike below other (Node.lambda l).children) :
    lambda env below l = lambda env other l := by
  simp only [lambda, lambdaBody_alike alike]

theorem function_alike {f : Function Node}
    (alike : Alike below other (Node.function f).children) :
    function env below f = function env other f := by
  unfold function
  split
  next => rfl
  next l present =>
    rw [Node.children, present] at alike
    simp only [lambdaBody_alike (alike.children List.mem_cons_self)]

theorem fields_alike {parts : List (Field Node)}
    (alike : Alike below other (parts.filterMap (·.default))) (node : Nat) (owner : Handle)
    (index : Nat) :
    fields env below node owner index parts = fields env other node owner index parts := by
  induction parts generalizing index with
  | nil => rfl
  | cons f rest ih =>
    have default : Alike below other f.default.toList := alike.part List.mem_cons_self
    simp only [fields, withDefault_alike default, ih alike.tail]

theorem struct_alike {parts : List (Field Node)}
    (alike : Alike below other (parts.filterMap (·.default))) (site : Site) (name : Handle) :
    struct env below site name parts = struct env other site name parts := by
  simp only [struct, fields_alike alike]

/-- The bodies of methods are checked for the lambdas that the binding of the methods gives back,
which are theirs. -/
theorem cls_alike {c : Class Node} {site : Site}
    (alike : Alike below other (Node.cls site c).children) :
    cls env below site c = cls env other site c := by
  have init : (c.init.forM fun l => discard (lambda env below l)) =
      c.init.forM fun l => discard (lambda env other l) := by
    refine forM_congr fun l member => ?_
    rw [lambda_alike (alike.left.left.right.children (List.mem_map_of_mem member))]
  have hooks : ([c.preInit, c.postInit, c.final, c.validate].forM fun hook =>
        discard (block below hook)) =
      [c.preInit, c.postInit, c.final, c.validate].forM fun hook =>
        discard (block other hook) := by
    have each : Alike below other ([c.preInit, c.postInit, c.final, c.validate].filterMap (·)) :=
      alike.right.sub fun n found => by simpa [or_assoc, eq_comm] using found
    refine forM_congr fun hook member => ?_
    rw [block_alike (each.part member)]
  have methods (lambdas : List (Lambda Node × Ty))
      (named : ∀ part ∈ lambdas, ∃ m ∈ c.methods, m.lambda = some part.1) :
      (lambdas.forM fun part => discard (lambdaBody env below part.1 part.2)) =
        lambdas.forM fun part => discard (lambdaBody env other part.1 part.2) := by
    refine forM_congr fun part member => ?_
    obtain ⟨m, among, present⟩ := named part member
    have own := alike.left.right.children (List.mem_map_of_mem among)
    rw [Node.children, present] at own
    rw [lambdaBody_alike (own.children List.mem_cons_self)]
  unfold cls
  simp only [fields_alike alike.left.left.left, init, hooks]
  refine congrArg _ (funext fun supers => congrArg _ (funext fun _ => congrArg _ (funext fun _ =>
    congrArg _ (funext fun types => congrArg _ (funext fun _ => congrArg _ (funext fun _ => ?_))))))
  refine bind_congr_of_leads
    (fun s => (bindMethods_leads c.name c.methods s).mono fun _ _ ends => ends.2)
    fun lambdas named => ?_
  rw [methods lambdas named]

theorem assign_alike {value : Option Node} (alike : Alike below other value.toList) (site : Site)
    (name : Handle) : assign env below site name value = assign env other site name value := by
  simp only [assign, alike.slot]

theorem condition_alike {slot : Option Node} (alike : Alike below other slot.toList) :
    condition env below slot = condition env other slot := by
  simp only [condition, alike.slot]

theorem branches_alike {parts : List (Branch Node)}
    (alike : Alike below other (Node.ofBranches parts)) (node index : Nat) :
    branches env below node index parts = branches env other node index parts := by
  induction parts generalizing index with
  | nil => rfl
  | cons b rest ih =>
    rw [Node.ofBranches, List.flatMap_cons] at alike
    simp only [branches, branch, condition_alike alike.left.left, block_alike alike.left.right,
      ih alike.right]

theorem cond_alike {parts : List (Branch Node)} {otherwise : Option Node}
    (alike : Alike below other (Node.ofBranches parts ++ otherwise.toList)) (site : Site) :
    cond env below site parts otherwise = cond env other site parts otherwise := by
  simp only [cond, branches_alike alike.left, block_alike alike.right]

theorem access_alike {index target : Option Node}
    (alike : Alike below other (index.toList ++ target.toList)) (site : Site) :
    access env below site index target = access env other site index target := by
  unfold access
  rw [alike.right.slot]
  cases index with
  | none => rfl
  | some n =>
    have same : below (some n) = other (some n) := alike.left.slot
    simp only [same]

theorem discarded_alike {args : List (Argument Node)}
    (alike : Alike below other (Node.ofArguments args)) :
    (args.forM fun a => discard (below a.value)) =
      args.forM fun a => discard (other a.value) := by
  refine forM_congr fun a member => ?_
  rw [(alike.part member).slot]

theorem apply_alike {args : List (Argument Node)}
    (alike : Alike below other (Node.ofArguments args)) (span : Span) (what : Text) (callee : Ty) :
    apply env below span what callee args = apply env other span what callee args := by
  have values : (args.mapM fun a => below a.value) = args.mapM fun a => other a.value :=
    mapM_congr fun a member => (alike.part member).slot
  simp only [apply, values]

theorem call_alike {args : List (Argument Node)}
    (alike : Alike below other (Node.ofArguments args)) (site : Site) (name : Handle) :
    call env below site name args = call env other site name args := by
  simp only [call, apply_alike alike, discarded_alike alike]

theorem follow_alike {accessors : List (Accessor Node)}
    (alike : Alike below other (Node.ofAccessors accessors)) (ty : Ty) :
    follow env below ty accessors = follow env other ty accessors := by
  induction accessors generalizing ty with
  | nil => rfl
  | cons a rest ih =>
    rw [Node.ofAccessors, List.flatMap_cons] at alike
    simp only [follow, discarded_alike alike.left, apply_alike alike.left, ih alike.right]

theorem invoke_alike {callee : Option Node} {accessors : List (Accessor Node)}
    {args : List (Argument Node)}
    (alike : Alike below other
      (callee.toList ++ Node.ofAccessors accessors ++ Node.ofArguments args)) (site : Site) :
    invoke env below site callee accessors args = invoke env other site callee accessors args := by
  simp only [invoke, alike.left.left.slot, follow_alike alike.left.right, apply_alike alike.right]

theorem chain_alike {c : Chain Node} (alike : Alike below other (Node.ofAccessors c.accessors)) :
    chain env below c = chain env other c := by
  simp only [chain, follow_alike alike]

theorem assignMember_alike {target : Option (Chain Node)} {value : Option Node}
    (alike : Alike below other ((target.map Node.member).toList ++ value.toList)) (site : Site) :
    assignMember env below site target value = assignMember env other site target value := by
  unfold assignMember
  rw [alike.right.slot]
  cases target with
  | none => rfl
  | some c =>
    have same : below (some (.member c)) = other (some (.member c)) := alike.left.slot
    simp only [same]

theorem random_alike {bounds : List (Option Node)}
    (alike : Alike below other (bounds.filterMap (·))) (isFloat : Bool) :
    random env below isFloat bounds = random env other isFloat bounds := by
  unfold random
  refine congrArg (· >>= _) (forM_congr fun bound member => ?_)
  have slot := alike.part member
  cases bound with
  | none => rfl
  | some n =>
    have same : below (some n) = other (some n) := slot.slot
    simp only [same]

theorem create_alike {args : List (Initializer Node)}
    (alike : Alike below other (args.filterMap (·.value))) (site : Site) (name : Handle) :
    create env below site name args = create env other site name args := by
  have values : (args.forM fun a => discard (below a.value)) =
      args.forM fun a => discard (other a.value) := by
    refine forM_congr fun a member => ?_
    rw [(alike.part member).slot]
  unfold create
  rw [values]
  refine congrArg _ (funext fun found => ?_)
  cases found with
  | none => rfl
  | some ty =>
    refine congrArg (· >>= _) (forM_congr fun a member => ?_)
    rw [(alike.part member).slot]

theorem construct_alike {args : List (Argument Node)}
    (alike : Alike below other (Node.ofArguments args)) (site : Site) (name : Handle) :
    construct env below site name args = construct env other site name args := by
  simp only [construct, discarded_alike alike]

theorem operation_alike {operands : List (Option Node)}
    (alike : Alike below other (operands.filterMap (·))) (site : Site) (op : Operator) :
    operation env below site op operands = operation env other site op operands := by
  simp only [operation, slots_alike alike]

theorem node_alike {n : Node} (alike : Alike below other n.children) :
    node env below n = node env other n := by
  cases n with
  | integer site | float site | boolean site | string site | nil site | quote site | pair site
  | ident site | foreign site => rfl
  | vector site => simp only [node, vector_alike alike]
  | define site => simp only [node, define_alike alike]
  | lambda l => exact lambda_alike alike
  | function f => simp only [node, function_alike alike]
  | struct site => simp only [node, struct_alike alike]
  | cls site => simp only [node, cls_alike alike]
  | assign site => simp only [node, assign_alike alike]
  | block site exprs =>
    have same := foldlM_congr (fun e member (_ : Ty) => (alike.part member).slot) Ty.nil
    simp only [node, block, body, same]
  | print site => simp only [node, alike.slot]
  | cond site part otherwise =>
    have parts : Alike below other (Node.ofBranches [part] ++ otherwise.toList) := by
      rwa [Node.ofBranches, List.flatMap_singleton]
    simp only [node, cond_alike parts]
  | conds site => simp only [node, cond_alike alike]
  | loop site => simp only [node, condition_alike alike.left, block_alike alike.right]
  | cons site => simp only [node, alike.left.slot, alike.right.slot]
  | list site label operands =>
    have values : (operands.forM fun operand => discard (below operand)) =
        operands.forM fun operand => discard (other operand) := by
      refine forM_congr fun slot member => ?_
      rw [(alike.part member).slot]
    simp only [node, values]
  | access site => simp only [node, access_alike alike]
  | call site => simp only [node, call_alike alike]
  | invoke site => simp only [node, invoke_alike alike]
  | member c => simp only [node, chain_alike alike]
  | assignMember site => simp only [node, assignMember_alike alike]
  | random site isFloat lower upper =>
    have both : [lower, upper].filterMap (·) = lower.toList ++ upper.toList := by
      cases lower <;> cases upper <;> rfl
    have bounds : Alike below other ([lower, upper].filterMap (·)) := by rwa [both]
    simp only [node, random_alike bounds]
  | create site => simp only [node, create_alike alike]
  | construct site => simp only [node, construct_alike alike]
  | operation site => simp only [node, operation_alike alike]

end

/-- Beyond the number of nodes from a node down, its check does not depend on the bound. -/
theorem expr_stable (env : Env) {n : Node} {depth more : Nat} (enough : n.count < depth)
    (also : n.count < more) : expr env depth (some n) = expr env more (some n) := by
  induction depth generalizing n more with
  | zero => exact absurd enough (Nat.not_lt_zero _)
  | succ depth ih =>
    cases more with
    | zero => exact absurd also (Nat.not_lt_zero _)
    | succ more =>
      have visited : 0 < n.count := by
        rw [Node.count, Node.visits_eq, if_pos rfl, List.length_cons]
        exact Nat.succ_pos _
      refine node_alike ⟨?_, fun child below m found => ?_⟩
      · obtain ⟨depth, rfl⟩ := Nat.exists_eq_succ_of_ne_zero (show depth ≠ 0 by omega)
        obtain ⟨more, rfl⟩ := Nat.exists_eq_succ_of_ne_zero (show more ≠ 0 by omega)
        rfl
      · have fewer := Node.count_le_of_mem_visits child found
        have lower := Node.count_lt_of_child below
        exact ih (by omega) (by omega)

/-- Beyond the number of its nodes, the check of a tree does not depend on the bound. -/
theorem tree_stable (env : Env) (t : Tree) {depth : Nat} (enough : t.visits.length < depth) :
    (t.nodes.forM fun slot => discard (expr env depth slot)) = tree env t := by
  apply forM_congr
  intro slot member
  cases slot with
  | none =>
    obtain ⟨depth, rfl⟩ := Nat.exists_eq_succ_of_ne_zero (show depth ≠ 0 by omega)
    rfl
  | some n =>
    have part : (n.visits fun _ => true).Sublist t.visits := by
      unfold Tree.visits
      rw [List.flatMap_def]
      apply List.sublist_flatten_of_mem
      exact List.mem_map.mpr ⟨n, List.mem_filterMap.mpr ⟨some n, member, rfl⟩, rfl⟩
    have within : n.count ≤ t.visits.length := part.length_le
    rw [expr_stable env (show n.count < depth by omega)
      (show n.count < t.visits.length + 1 by omega)]

end Check

end TreeCheck
