import TreeCheck.Check
import TreeCheck.Proofs.Check.Steps

/-!
Every check is a lawful history. Each rule continues the history in which it begins, if the function
that checks the nodes below does, and gives a type that is known then. The rules that define types
add the members they say, and the rules that bind names bind those of their own nodes.

To speak of the points of a run, a check may also be broken off: `treeUntil` checks a tree until a
condition on the node at hand and the state says so, before a node or after it.
-/

namespace TreeCheck.Check

def Within (source : Node → Prop) (nodes : List Node) : Prop :=
  ∀ n ∈ nodes, ∀ m ∈ n.visits fun _ => true, source m

namespace Within

variable {source : Node → Prop} {xs ys : List Node} {n : Node}

theorem of_mem (within : Within source xs) (member : n ∈ xs) : Within source [n] :=
  fun _ same => List.mem_singleton.mp same ▸ within n member

theorem left (within : Within source (xs ++ ys)) : Within source xs :=
  fun n member => within n (List.mem_append_left _ member)

theorem right (within : Within source (xs ++ ys)) : Within source ys :=
  fun n member => within n (List.mem_append_right _ member)

theorem own (within : Within source [n]) : source n := by
  refine within n List.mem_cons_self n ?_
  rw [Node.visits_eq]
  exact List.mem_cons_self

theorem below (within : Within source [n]) : Within source n.children := by
  intro child member m found
  refine within n List.mem_cons_self m ?_
  rw [Node.visits_eq, if_pos rfl]
  exact List.mem_cons_of_mem _ (List.mem_flatMap.mpr ⟨child, member, found⟩)

theorem lambda {f : Function Node} {l : Lambda Node} (present : f.lambda = some l)
    (within : Within source (Node.function f).children) : Within source [Node.lambda l] := by
  rwa [Node.children, present] at within

theorem slot {β : Type} {part : β → Option Node} {parts : List β} {b : β}
    (within : Within source (parts.filterMap part)) (member : b ∈ parts) :
    Within source (part b).toList :=
  fun n found => within n (List.mem_filterMap.mpr ⟨b, member, Option.mem_toList.mp found⟩)

theorem some_of {β γ : Type} {part : β → Option Node} {parts : List β} {others : List γ}
    {as : γ → β} (within : Within source (parts.filterMap part))
    (among : ∀ c ∈ others, as c ∈ parts) :
    Within source (others.filterMap fun c => part (as c)) := by
  intro n found
  obtain ⟨c, member, same⟩ := List.mem_filterMap.mp found
  exact within n (List.mem_filterMap.mpr ⟨as c, among c member, same⟩)

theorem tail {β : Type} {part : β → Option Node} {b : β} {rest : List β}
    (within : Within source ((b :: rest).filterMap part)) : Within source (rest.filterMap part) :=
  within.some_of fun _ member => List.mem_cons_of_mem _ member

end Within

def Typed (env : Env) (source : Node → Prop) (below : Below) : Prop :=
  ∀ slot, Within source slot.toList → ∀ h : History env source, Gives h (below slot)

/-- The lambdas are those of the methods, with known signatures, and there is a member for every
method with a body. -/
structure MethodsBound {env : Env} {source : Node → Prop} (h : History env source) (owner : Handle)
    (methods : List (Function Node)) (lambdas : List (Lambda Node × Ty)) : Prop where
  known : ∀ part ∈ lambdas, h.Knows part.2 ∧ ∃ m ∈ methods, m.lambda = some part.1
  added : ∀ m ∈ methods, m.lambda ≠ none → h.state.memberOf owner m.name ≠ none

open History

namespace MethodsBound

variable {env : Env} {source : Node → Prop} {h k : History env source} {owner : Handle}
  {m : Function Node} {methods : List (Function Node)} {lambdas : List (Lambda Node × Ty)}

theorem nil : MethodsBound h owner [] [] :=
  ⟨fun _ member => absurd member List.not_mem_nil, fun _ member => absurd member List.not_mem_nil⟩

theorem skip (bound : MethodsBound h owner methods lambdas) (absent : m.lambda = none) :
    MethodsBound h owner (m :: methods) lambdas where
  known := by
    intro part member
    obtain ⟨known, other, among, present⟩ := bound.known part member
    exact ⟨known, other, List.mem_cons_of_mem _ among, present⟩
  added := List.forall_mem_cons.mpr ⟨fun there => absurd absent there, bound.added⟩

theorem cons (bound : MethodsBound h owner methods lambdas) {l : Lambda Node} {sig : Ty}
    (present : m.lambda = some l) (signed : h.Knows sig)
    (there : h.state.memberOf owner m.name ≠ none) :
    MethodsBound h owner (m :: methods) ((l, sig) :: lambdas) where
  known := by
    refine List.forall_mem_cons.mpr ⟨⟨signed, m, List.mem_cons_self, present⟩, ?_⟩
    intro part member
    obtain ⟨known, other, among, found⟩ := bound.known part member
    exact ⟨known, other, List.mem_cons_of_mem _ among, found⟩
  added := List.forall_mem_cons.mpr ⟨fun _ => there, bound.added⟩

theorem later (bound : MethodsBound h owner methods lambdas) (grown : h ≤ k) :
    MethodsBound k owner methods lambdas where
  known := fun part member => (bound.known part member).imp_left fun known => known.later grown
  added := fun m member present => memberOf_later (bound.added m member present) grown

end MethodsBound

theorem History.Settled.of_cls {env : Env} {source : Node → Prop} {h : History env source}
    {site : Site} {c : Class Node}
    (fields : ∀ f ∈ c.fields, h.state.memberOf c.name f.name ≠ none)
    (methods : ∀ m ∈ c.methods, m.lambda ≠ none → h.state.memberOf c.name m.name ≠ none) :
    h.Settled (.cls site c) c.name := by
  intro name among
  rcases List.mem_append.mp among with field | method
  · obtain ⟨f, member, rfl⟩ := List.mem_map.mp field
    exact fields f member
  · obtain ⟨m, kept, rfl⟩ := List.mem_map.mp method
    obtain ⟨member, there⟩ := List.mem_filter.mp kept
    exact methods m member (Option.isSome_iff_ne_none.mp there)

section

variable {env : Env} {source : Node → Prop} {below : Below} (typed : Typed env source below)
  (h : History env source)

/-! ### Blocks and lambdas -/

theorem paramTypes_continue (node index : Nat) (params : List (Param Node)) :
    Continues h (paramTypes env node index params) fun types k => ∀ ty ∈ types, k.Knows ty := by
  induction params generalizing index h with
  | nil => exact .pure fun _ member => absurd member List.not_mem_nil
  | cons p rest ih =>
    refine (writtenType_continues h p.declared p.span).bind fun ty k _ known => ?_
    refine (annotate_continues k _ ty).bind fun _ l first _ => ?_
    refine (ih l (index + 1)).bind fun types m second all => .pure ?_
    exact List.forall_mem_cons.mpr ⟨known.later (first.trans second), all⟩

theorem signature_gives (l : Lambda Node) : Gives h (signature env l) := by
  refine (paramTypes_continue h l.site.id 0 l.params).bind fun args k _ all => ?_
  refine (writtenType_continues k l.declared l.site.span).bind fun result m grown known => .pure ?_
  exact .lambda known fun arg member => (all arg member).later grown

include typed

theorem body_gives {n : Node} (within : Within source [n]) : Gives h (body below n) := by
  unfold body
  split
  next site exprs =>
    have exprs : Gives h (exprs.foldlM (fun _ e => below e) Ty.nil) := by
      refine .foldlM (fun slot member _ k => ?_) (.ofKind (by decide))
      exact typed slot (within.below.slot member) k
    exact exprs.bind fun ty k _ known => record_continues k site.id known
  next => exact typed (some n) within h

theorem block_gives {slot : Option Node} (within : Within source slot.toList) :
    Gives h (block below slot) := by
  cases slot with
  | none => exact .pure (.ofKind (by decide))
  | some n =>
    refine (openScope_continues h).bind fun _ k _ _ => ?_
    refine (body_gives typed k within).bind fun ty l _ known => ?_
    exact (closeScope_continues l).bind fun _ m grown _ => .pure (known.later grown)

theorem withDefault_gives (what : Text) {written : Ty} {default : Option Node}
    (within : Within source default.toList) (known : h.Knows written) :
    Gives h (withDefault env below what written default) := by
  cases default with
  | none => exact .pure known
  | some n =>
    refine (typed (some n) within h).bind fun ty k first found => ?_
    refine .guarded (mismatch_continues k _ _ _ _) fun l second => .pure ?_
    exact .ite (known.later (first.trans second)) (found.later second)

theorem bindParams_continue {l : Lambda Node} (own : source (.lambda l)) (node index : Nat)
    {parts : List (Param Node × Ty)} (within : Within source (parts.filterMap (·.1.default)))
    (among : ∀ part ∈ parts, part.1 ∈ l.params) (known : ∀ part ∈ parts, h.Knows part.2) :
    Continues h (bindParams env below node index parts) fun types k =>
      ∀ ty ∈ types, k.Knows ty := by
  induction parts generalizing index h with
  | nil => exact .pure fun _ member => absurd member List.not_mem_nil
  | cons part rest ih =>
    obtain ⟨param, written⟩ := part
    have default := withDefault_gives typed h (text "default of " ++ env.name param.name)
      (within.slot List.mem_cons_self) (known _ List.mem_cons_self)
    have said : (param.name, param.span) ∈ (Node.lambda l).declares :=
      List.mem_map_of_mem (among _ List.mem_cons_self)
    refine default.bind fun ty k first found => ?_
    refine (annotate_continues k _ ty).bind fun _ m second _ => ?_
    refine (declare_continues m own said (found.later second)).bind fun _ p third _ => ?_
    have later : h ≤ p := first.trans (second.trans third)
    have others := ih p (index + 1) within.tail
      (fun part member => among part (List.mem_cons_of_mem _ member))
      (fun part member => (known part (List.mem_cons_of_mem _ member)).later later)
    refine others.bind fun types q fourth all => .pure ?_
    exact List.forall_mem_cons.mpr ⟨found.later (second.trans (third.trans fourth)), all⟩

omit typed in
/-- The end of a lambda: its scope is closed, and its completed type is compared, annotated and
recorded. -/
theorem closed_gives (l : Lambda Node) {sig bodyTy : Ty} {args : List Ty} (signed : h.Knows sig)
    (found : h.Knows bodyTy) (bound : ∀ arg ∈ args, h.Knows arg) :
    Gives h (do
      closeScope
      let result := sig.resultType
      if !Ty.compatible result bodyTy then
        mismatch env l.site.span (text "return value") result bodyTy
      let ty := Ty.lambda (if result.isResolved then result else bodyTy) args
      annotate (.own l.site.id) ty
      record l.site.id ty : Check Ty) := by
  have complete : h.Knows (.lambda
      (if sig.resultType.isResolved then sig.resultType else bodyTy) args) :=
    .lambda (.ite signed.resultType found) bound
  refine (closeScope_continues h).bind fun _ k first _ => ?_
  refine .guarded (mismatch_continues k _ _ _ _) fun m second => ?_
  refine (annotate_continues m _ _).bind fun _ p third _ => ?_
  exact record_continues p _ (complete.later (first.trans (second.trans third)))

theorem lambdaBody_gives {l : Lambda Node} {sig : Ty} (within : Within source [.lambda l])
    (known : h.Knows sig) : Gives h (lambdaBody env below l sig) := by
  have parts : Within source (l.params.filterMap (·.default) ++ l.body.toList) := within.below
  have among : ∀ part ∈ l.params.zip sig.params, part.1 ∈ l.params :=
    fun part member => (List.of_mem_zip member).1
  have args : ∀ part ∈ l.params.zip sig.params, h.Knows part.2 :=
    fun part member => known.arg (List.of_mem_zip member).2
  refine (openScope_continues h).bind fun _ k first _ => ?_
  have params := bindParams_continue typed k within.own l.site.id 0 (parts.left.some_of among) among
    fun part member => (args part member).later first
  refine params.bind fun types m second bound => ?_
  have signed : m.Knows sig := known.later (first.trans second)
  dsimp only
  split
  next n present =>
    have inner : Within source [n] := by
      have body := parts.right
      rwa [present] at body
    refine (body_gives typed m inner).bind fun bodyTy p third found => ?_
    exact closed_gives p l (signed.later third) found fun ty member => (bound ty member).later third
  next =>
    have nothing : Gives m (Pure.pure Ty.nil) := .pure (.ofKind (by decide))
    refine nothing.bind fun bodyTy p third found => ?_
    exact closed_gives p l (signed.later third) found fun ty member => (bound ty member).later third

theorem lambda_gives {l : Lambda Node} (within : Within source [.lambda l]) :
    Gives h (lambda env below l) :=
  (signature_gives h l).bind fun _ k _ known => lambdaBody_gives typed k within known

/-! ### Definitions -/

theorem define_gives {n : Node} {site : Site} {name : Handle} {value : Option Node}
    (declared : Handle) (own : source n) (said : (name, site.span) ∈ n.declares)
    (within : Within source value.toList) :
    Gives h (define env below site name value declared) := by
  refine (typed value within h).bind fun valueTy k _ found => ?_
  refine (writtenType_continues k declared site.span).bind fun want l first written => ?_
  refine .guarded (mismatch_continues l _ _ _ _) fun m second => ?_
  have known : m.Knows (if want.isResolved then want else valueTy) :=
    .ite (written.later second) (found.later (first.trans second))
  refine (annotate_continues m _ _).bind fun _ p third _ => ?_
  refine (declare_continues p own said (known.later third)).bind fun _ q fourth _ => .pure ?_
  exact known.later (third.trans fourth)

theorem function_gives {f : Function Node} (within : Within source [.function f]) :
    Gives h (function env below f) := by
  unfold function
  split
  next => exact failed_continues h (by decide) _ _ .unresolved
  next l present =>
    refine (signature_gives h l).bind fun sig k _ known => ?_
    have said : (f.name, f.site.span) ∈ (Node.function f).declares := List.mem_cons_self
    refine (declare_continues k within.own said known).bind fun _ m grown _ => ?_
    exact lambdaBody_gives typed m (within.below.lambda present) (known.later grown)

theorem fields_continue {n : Node} {owner : Handle} {defined : Ty} {place : Span}
    (node index : Nat) {parts : List (Field Node)}
    (within : Within source (parts.filterMap (·.default)))
    (definition : .register n owner defined place ∈ h.moves)
    (said : ∀ f ∈ parts, f.name ∈ n.memberNames) :
    Continues h (fields env below node owner index parts) fun types k =>
      (∀ ty ∈ types, k.Knows ty) ∧ ∀ f ∈ parts, k.state.memberOf owner f.name ≠ none := by
  induction parts generalizing index h with
  | nil => exact .pure ⟨fun _ member => absurd member List.not_mem_nil,
      fun _ member => absurd member List.not_mem_nil⟩
  | cons f rest ih =>
    refine (writtenType_continues h f.declared f.span).bind fun written k first known => ?_
    have default := withDefault_gives typed k (text "default of field " ++ env.name f.name)
      (within.slot List.mem_cons_self) known
    refine default.bind fun ty l second found => ?_
    refine (annotate_continues l _ ty).bind fun _ m third _ => ?_
    have made := made_later definition (first.trans (second.trans third))
    have adds := addMember_continues m f.span made (said f List.mem_cons_self) (found.later third)
    refine adds.bind fun _ p fourth there => ?_
    have others := ih p (index + 1) within.tail (made_later made fourth)
      fun g member => said g (List.mem_cons_of_mem _ member)
    refine others.bind fun types q fifth all => .pure ⟨?_, ?_⟩
    · have later : l ≤ q := third.trans (fourth.trans fifth)
      exact List.forall_mem_cons.mpr ⟨found.later later, all.1⟩
    · exact List.forall_mem_cons.mpr ⟨memberOf_later there fifth, all.2⟩

theorem struct_gives {site : Site} {name : Handle} {parts : List (Field Node)}
    (within : Within source [.struct site name parts]) :
    Gives h (struct env below site name parts) := by
  refine (annotate_continues h _ _).bind fun _ k _ _ => ?_
  refine .define within.own rfl (fun _ member => absurd member List.not_mem_nil) ?_
  intro l _ definition
  have said : ∀ f ∈ parts, f.name ∈ (Node.struct site name parts).memberNames :=
    fun f member => List.mem_map_of_mem member
  refine (fields_continue typed l site.id 0 within.below definition said).bind ?_
  intro types m _ all
  refine .pure ⟨fun member among => ?_, .ofKind (by decide)⟩
  obtain ⟨f, part, rfl⟩ := List.mem_map.mp among
  exact all.2 f part

omit typed in
theorem superTypes_continue (site : Site) (name : Handle) (supers : List Handle) :
    Continues h (superTypes env site name supers) fun types k =>
      ∀ super ∈ types, k.state.ctx.typeNamed super.objectName = some super := by
  induction supers generalizing h with
  | nil => exact .pure fun _ member => absurd member List.not_mem_nil
  | cons super rest ih =>
    refine (objectNamed_continues h super).bind fun found k _ registered => ?_
    split
    next ty =>
      refine (ih k).bind fun types l grown all => .pure ?_
      exact List.forall_mem_cons.mpr ⟨typeNamed_later (registered ty rfl).2 grown, all⟩
    next =>
      refine (report_continues k _ (.unknown _ rfl)).bind fun _ l _ _ => ?_
      exact ih l

omit typed in
theorem bindFields_continue {n : Node} (own : source n) (seen : List Handle)
    {parts : List (Field Node × Ty)}
    (said : ∀ part ∈ parts, (part.1.name, part.1.span) ∈ n.declares)
    (known : ∀ part ∈ parts, h.Knows part.2) :
    Continues h (bindFields env seen parts) fun _ _ => True := by
  induction parts generalizing seen h with
  | nil => exact .pure trivial
  | cons part rest ih =>
    have later := List.forall_mem_cons.mp said
    have types := List.forall_mem_cons.mp known
    unfold bindFields
    split
    · exact ih h seen later.2 types.2
    · refine (declare_continues h own later.1 types.1).bind fun _ k grown _ => ?_
      exact ih k _ later.2 fun part member => (types.2 part member).later grown

omit typed in
/-- After the methods of a class there is a member for each of them that has a body, and the bodies
are left to check. -/
theorem bindMethods_continue {n : Node} {owner : Handle} {defined : Ty} {place : Span}
    {methods : List (Function Node)} (own : source n)
    (definition : .register n owner defined place ∈ h.moves)
    (said : ∀ m ∈ methods, (m.name, m.site.span) ∈ n.declares)
    (listed : ∀ m ∈ methods, m.lambda ≠ none → m.name ∈ n.memberNames) :
    Continues h (bindMethods env owner methods) fun lambdas k =>
      MethodsBound k owner methods lambdas := by
  induction methods generalizing h with
  | nil => exact .pure .nil
  | cons m rest ih =>
    have saids := List.forall_mem_cons.mp said
    have lists := List.forall_mem_cons.mp listed
    unfold bindMethods
    split
    next absent =>
      refine (report_continues h _ (.inl (by decide))).bind fun _ k grown _ => ?_
      refine (ih k (made_later definition grown) saids.2 lists.2).mono fun lambdas l _ ends => ?_
      exact ends.skip absent
    next l present =>
      refine (signature_gives h l).bind fun sig k first known => ?_
      have made := made_later definition first
      have name : m.name ∈ n.memberNames := lists.1 (present ▸ Option.some_ne_none l)
      refine (addMember_continues k m.site.span made name known).bind fun added p second there => ?_
      have finish (q : History env source) (third : p ≤ q) :
          Continues q (do return (l, sig) :: (← bindMethods env owner rest)) fun lambdas r =>
            MethodsBound r owner (m :: rest) lambdas := by
        have others := ih q (made_later made (second.trans third)) saids.2 lists.2
        refine others.bind fun lambdas r fourth ends => .pure ?_
        have signed : r.Knows sig := known.later (second.trans (third.trans fourth))
        exact ends.cons present signed (memberOf_later there (third.trans fourth))
      split
      · refine (declare_continues p own saids.1 (known.later second)).bind fun _ q third _ => ?_
        exact finish q third
      · exact finish p (le_refl p)

theorem inits_continue {lambdas : List (Lambda Node)}
    (within : Within source (lambdas.map Node.lambda)) :
    Continues h (lambdas.forM fun l => discard (lambda env below l)) fun _ _ => True :=
  .forM fun _ member k _ =>
    (lambda_gives typed k (within.of_mem (List.mem_map_of_mem member))).discard

theorem hooks_continue {hooks : List (Option Node)} (within : Within source (hooks.filterMap (·))) :
    Continues h (hooks.forM fun hook => discard (block below hook)) fun _ _ => True :=
  .forM fun _ member k _ => (block_gives typed k (within.slot member)).discard

theorem methods_continue {owner : Handle} {methods : List (Function Node)}
    {lambdas : List (Lambda Node × Ty)} (within : Within source (methods.map Node.function))
    (bound : MethodsBound h owner methods lambdas) :
    Continues h (lambdas.forM fun part => discard (lambdaBody env below part.1 part.2))
      fun _ _ => True := by
  refine .forM fun part member k grown => ?_
  obtain ⟨known, m, among, present⟩ := bound.known part member
  have own := within.of_mem (List.mem_map_of_mem among)
  exact (lambdaBody_gives typed k (own.below.lambda present) (known.later grown)).discard

theorem cls_gives {site : Site} {c : Class Node} (within : Within source [.cls site c]) :
    Gives h (cls env below site c) := by
  have parts : Within source (Node.cls site c).children := within.below
  have hooks : Within source ([c.preInit, c.postInit, c.final, c.validate].filterMap (·)) := by
    intro n found
    exact parts.right n (by simpa [or_assoc, eq_comm] using found)
  refine (superTypes_continue h site c.name c.supers).bind fun supers k _ above => ?_
  refine (annotate_continues k _ _).bind fun _ l first _ => ?_
  refine .define within.own rfl (fun super member => typeNamed_later (above super member) first) ?_
  -- From here on the definition is in the history, whether it was accepted or not.
  intro m _ definition
  have fields := fields_continue typed m site.id 0 parts.left.left.left definition
    fun f member => List.mem_append_left _ (List.mem_map_of_mem member)
  refine fields.bind fun types p second given => ?_
  refine (openScope_continues p).bind fun _ q third _ => ?_
  have bound : Continues q (bindFields env [] (c.fields.zip types)) fun _ _ => True :=
    bindFields_continue q within.own []
      (fun part member =>
        List.mem_append_left _ (List.mem_map_of_mem (List.of_mem_zip member).1))
      (fun part member => (given.1 _ (List.of_mem_zip member).2).later third)
  refine bound.bind fun _ r fourth _ => ?_
  have made := made_later definition (second.trans (third.trans fourth))
  have methods := bindMethods_continue r within.own made
    (fun m member => List.mem_append_right _ (List.mem_map_of_mem member))
    (fun m member there => List.mem_append_right _ (List.mem_map_of_mem
      (List.mem_filter.mpr ⟨member, Option.isSome_iff_ne_none.mpr there⟩)))
  refine methods.bind fun lambdas u fifth named => ?_
  refine (inits_continue typed u parts.left.left.right).bind fun _ v sixth _ => ?_
  have bodies := methods_continue typed v parts.left.right (named.later sixth)
  refine bodies.bind fun _ w seventh _ => ?_
  refine (hooks_continue typed w hooks).bind fun _ x eighth _ => ?_
  refine (closeScope_continues x).bind fun _ y ninth _ => .pure ⟨?_, .ofKind (by decide)⟩
  have methodsThere : u ≤ y := sixth.trans (seventh.trans (eighth.trans ninth))
  have fieldsThere : p ≤ y := third.trans (fourth.trans (fifth.trans methodsThere))
  exact .of_cls (fun f member => memberOf_later (given.2 f member) fieldsThere)
    (named.later methodsThere).added

/-! ### Variables, branches and indices -/

omit typed in
theorem ident_gives (site : Site) (name : Handle) : Gives h (ident env site name) := by
  refine (lookup_continues h name).bind fun found k _ known => ?_
  split
  next symbol => exact .pure (known symbol rfl)
  next => exact failed_continues k (by decide) _ _ .unresolved

theorem assign_gives (site : Site) (name : Handle) {value : Option Node}
    (within : Within source value.toList) : Gives h (assign env below site name value) := by
  refine (typed value within h).bind fun valueTy k _ found => ?_
  refine (lookup_continues k name).bind fun binding l grown known => ?_
  split
  next => exact failed_continues l (by decide) _ _ (found.later grown)
  next symbol =>
    refine .guarded (mismatch_continues l _ _ _ _) fun m more => .pure ?_
    exact (known symbol rfl).later more

theorem condition_continues {slot : Option Node} (within : Within source slot.toList) :
    Continues h (condition env below slot) fun _ _ => True := by
  refine (typed slot within h).bind fun ty k _ _ => ?_
  cases slot with
  | none => exact .pure trivial
  | some n =>
    dsimp only
    split
    · exact mismatch_continues k _ _ _ _
    · exact .pure trivial

theorem branch_gives (node index : Nat) {b : Branch Node}
    (within : Within source (b.guard.toList ++ b.body.toList)) :
    Gives h (branch env below node index b) := by
  refine (condition_continues typed h within.left).bind fun _ k _ _ => ?_
  refine (block_gives typed k within.right).bind fun ty l _ known => ?_
  exact (annotate_continues l _ ty).bind fun _ m grown _ => .pure (known.later grown)

theorem branches_continue (node index : Nat) {parts : List (Branch Node)}
    (within : Within source (Node.ofBranches parts)) :
    Continues h (branches env below node index parts) fun types k => ∀ ty ∈ types, k.Knows ty := by
  induction parts generalizing index h with
  | nil => exact .pure fun _ member => absurd member List.not_mem_nil
  | cons b rest ih =>
    rw [Node.ofBranches, List.flatMap_cons] at within
    refine (branch_gives typed h node index within.left).bind fun ty k _ known => ?_
    refine (ih k (index + 1) within.right).bind fun types l grown all => .pure ?_
    exact List.forall_mem_cons.mpr ⟨known.later grown, all⟩

theorem cond_gives (site : Site) {parts : List (Branch Node)} {otherwise : Option Node}
    (within : Within source (Node.ofBranches parts ++ otherwise.toList)) :
    Gives h (cond env below site parts otherwise) := by
  refine (branches_continue typed h site.id 0 within.left).bind fun types k _ all => ?_
  refine (block_gives typed k within.right).bind fun last l first known => ?_
  refine (annotate_continues l _ last).bind fun _ m second _ => .pure (.join ?_)
  have types : ∀ ty ∈ types, m.Knows ty :=
    fun ty member => (all ty member).later (first.trans second)
  split
  · intro ty member
    rcases List.mem_append.mp member with branch | alternative
    · exact types ty branch
    · exact List.mem_singleton.mp alternative ▸ known.later second
  · exact types

theorem access_gives (site : Site) {index target : Option Node}
    (within : Within source (index.toList ++ target.toList)) :
    Gives h (access env below site index target) := by
  refine (typed target within.right h).bind fun ty k _ known => ?_
  have finish (l : History env source) (grown : k ≤ l) : Gives l (do
      if ty.kind = .vector then return ty.elemType
      else if ty.kind = .pair || ty.kind = .unresolved then return .unresolved
      else
        report .typeMismatch (spanOr target site.span)
          (text "cannot index a value of type " ++ env.label ty)
        return .unresolved : Check Ty) := by
    split
    · exact .pure (known.later grown).elemType
    split
    · exact .pure .unresolved
    · exact failed_continues l (by decide) _ _ .unresolved
  cases index with
  | none => exact finish k (le_refl k)
  | some n =>
    refine (typed (some n) within.left k).bind fun indexTy l first _ => ?_
    refine .guarded (mismatch_continues l _ _ _ _) fun m second => ?_
    exact finish m (first.trans second)

/-! ### Calls and member accesses -/

omit typed in
theorem matchArgs_continue (span : Span) (what : Text) (args : List (Argument Node × Ty))
    (params : List Ty) : Continues h (matchArgs env span what args params) fun _ _ => True := by
  induction args generalizing params h with
  | nil => exact .pure trivial
  | cons arg rest ih =>
    cases params with
    | nil => exact .pure trivial
    | cons param params =>
      unfold matchArgs
      exact .guarded (mismatch_continues h _ _ _ _) fun k _ => ih k params

theorem discarded_continue {args : List (Argument Node)}
    (within : Within source (Node.ofArguments args)) :
    Continues h (args.forM fun a => discard (below a.value)) fun _ _ => True :=
  .forM fun a member k _ => (typed a.value (within.slot member) k).discard

theorem apply_gives (span : Span) (what : Text) {callee : Ty} {args : List (Argument Node)}
    (within : Within source (Node.ofArguments args)) (known : h.Knows callee) :
    Gives h (apply env below span what callee args) := by
  have values := Continues.mapM fun a member (k : History env source) (_ : h ≤ k) =>
    typed a.value (within.slot member) k
  refine values.bind fun types k first _ => ?_
  split
  · exact .pure .unresolved
  split
  · exact failed_continues k (by decide) _ _ .unresolved
  · refine .guarded (report_continues k _ (.inl (by decide))) fun l second => ?_
    refine (matchArgs_continue l _ _ _ _).bind fun _ m third _ => .pure ?_
    exact (known.later (first.trans (second.trans third))).resultType

theorem call_gives (site : Site) (name : Handle) {args : List (Argument Node)}
    (within : Within source (Node.ofArguments args)) :
    Gives h (call env below site name args) := by
  refine (lookup_continues h name).bind fun found k _ known => ?_
  split
  next symbol => exact apply_gives typed k _ _ within (known symbol rfl)
  next =>
    refine (discarded_continue typed k within).bind fun _ l _ _ => ?_
    exact failed_continues l (by decide) _ _ .unresolved

theorem follow_gives {ty : Ty} {accessors : List (Accessor Node)}
    (within : Within source (Node.ofAccessors accessors)) (known : h.Knows ty) :
    Gives h (follow env below ty accessors) := by
  induction accessors generalizing ty h with
  | nil => exact .pure known
  | cons a rest ih =>
    rw [Node.ofAccessors, List.flatMap_cons] at within
    unfold follow
    split
    · refine (discarded_continue typed h within.left).bind fun _ k grown _ => ?_
      exact ih k within.right (known.later grown)
    dsimp only
    split
    · refine (member_continues h _ _).bind fun found k _ members => ?_
      split
      next => exact failed_continues k (by decide) _ _ .unresolved
      next member =>
        split
        · exact ih k within.right (members member rfl)
        · refine (apply_gives typed k _ _ within.left (members member rfl)).bind ?_
          exact fun result l _ given => ih l within.right given
    · have nothing : Continues h (Pure.pure none : Check (Option Ty)) fun found _ => found = none :=
        .pure rfl
      refine nothing.bind fun found k _ none => ?_
      subst none
      exact failed_continues k (by decide) _ _ .unresolved

theorem invoke_gives (site : Site) {callee : Option Node} {accessors : List (Accessor Node)}
    {args : List (Argument Node)} (within : Within source
      (callee.toList ++ Node.ofAccessors accessors ++ Node.ofArguments args)) :
    Gives h (invoke env below site callee accessors args) := by
  refine (typed callee within.left.left h).bind fun ty k _ known => ?_
  refine (follow_gives typed k within.left.right known).bind fun found l _ given => ?_
  exact apply_gives typed l _ _ within.right given

theorem chain_gives {c : Chain Node} (within : Within source (Node.ofAccessors c.accessors)) :
    Gives h (chain env below c) := by
  refine (lookup_continues h c.name).bind fun found k _ known => ?_
  split
  next symbol => exact follow_gives typed k within (known symbol rfl)
  next => exact failed_continues k (by decide) _ _ .unresolved

theorem assignMember_gives (site : Site) {target : Option (Chain Node)} {value : Option Node}
    (within : Within source ((target.map Node.member).toList ++ value.toList)) :
    Gives h (assignMember env below site target value) := by
  refine (typed value within.right h).bind fun valueTy k _ found => ?_
  cases target with
  | none => exact .pure found
  | some c =>
    refine (typed (some (.member c)) within.left k).bind fun ty l _ known => ?_
    exact .guarded (mismatch_continues l _ _ _ _) fun m grown => .pure (known.later grown)

/-! ### Objects and operations -/

theorem random_gives (isFloat : Bool) {bounds : List (Option Node)}
    (within : Within source (bounds.filterMap (·))) :
    Gives h (random env below isFloat bounds) := by
  refine Continues.bind (.forM fun bound member k _ => ?_) fun _ k _ _ => .pure ?_
  · have slot := within.slot member
    cases bound with
    | none => exact .pure trivial
    | some n =>
      refine (typed (some n) slot k).bind fun ty l _ _ => ?_
      split
      · exact mismatch_continues l _ _ _ _
      · exact .pure trivial
  · exact .ite (.ofKind (by decide)) (.ofKind (by decide))

omit typed in
theorem unknownObject_gives (site : Site) (name : Handle) :
    Gives h (unknownObject env site name) :=
  (report_continues h _ (.unknown _ rfl)).bind fun _ _ _ _ => .pure .unresolved

theorem create_gives (site : Site) (name : Handle) {args : List (Initializer Node)}
    (within : Within source (args.filterMap (·.value))) :
    Gives h (create env below site name args) := by
  refine (objectNamed_continues h name).bind fun found k _ registered => ?_
  split
  next =>
    refine Continues.bind (.forM fun a member l _ => ?_) fun _ l _ _ => ?_
    · exact (typed a.value (within.slot member) l).discard
    · exact unknownObject_gives l site name
  next ty =>
    have known : k.Knows ty := (registered ty rfl).1
    refine Continues.bind (.forM fun a among l _ => ?_) fun _ l grown _ => .pure (known.later grown)
    refine (typed a.value (within.slot among) l).bind fun valueTy m _ _ => ?_
    refine (member_continues m ty a.name).bind fun field p _ _ => ?_
    split
    · exact report_continues p _ (.inl (by decide))
    split
    · exact mismatch_continues p _ _ _ _
    · exact .pure trivial

theorem construct_gives (site : Site) (name : Handle) {args : List (Argument Node)}
    (within : Within source (Node.ofArguments args)) :
    Gives h (construct env below site name args) := by
  refine (discarded_continue typed h within).bind fun _ k _ _ => ?_
  refine (objectNamed_continues k name).bind fun found l _ registered => ?_
  split
  next => exact unknownObject_gives l site name
  next ty => exact .pure (registered ty rfl).1

theorem slots_continue {slots : List (Option Node)} (within : Within source (slots.filterMap (·))) :
    Continues h (slots.mapM below) fun types k => ∀ ty ∈ types, k.Knows ty :=
  .mapM fun slot member k _ => typed slot (within.slot member) k

theorem vector_gives {elems : List (Option Node)} (within : Within source (elems.filterMap (·))) :
    Gives h (vector env below elems) := by
  refine (slots_continue typed h within).bind fun types k _ all => ?_
  have known : k.Knows (.vector (Ty.join types)) := .vector (.join all)
  split
  · exact .pure (.vector .unresolved)
  dsimp only
  split
  · split
    next slot ty _ =>
      refine (spanOf_continues k slot).bind fun span l first _ => ?_
      refine (mismatch_continues l _ _ _ _).bind fun _ m second _ => .pure ?_
      exact known.later (first.trans second)
    next => exact .pure known
  · exact .pure known

omit typed in
theorem arithmetic_gives (op : Operator) {result : Ty} (parts : List (Option Node × Ty))
    (known : h.Knows result) : Gives h (arithmetic env op result parts) := by
  induction parts generalizing result h with
  | nil => exact .pure known
  | cons part rest ih =>
    unfold arithmetic
    split
    · exact ih h .unresolved
    split
    · refine (spanOf_continues h part.1).bind fun span k _ _ => ?_
      exact (report_continues k _ (.inl (by decide))).bind fun _ l _ _ => ih l .unresolved
    split
    · exact ih h (.ofKind (by decide))
    · exact ih h known

theorem operation_gives (site : Site) (op : Operator) {operands : List (Option Node)}
    (within : Within source (operands.filterMap (·))) :
    Gives h (operation env below site op operands) := by
  refine (slots_continue typed h within).bind fun types k _ _ => ?_
  split
  · exact arithmetic_gives k op _ (.ofKind (by decide))
  · exact .pure (.ofKind (by decide))
  · refine Continues.bind (.forM fun part _ l _ => ?_) fun _ l _ _ => .pure (.ofKind (by decide))
    dsimp only
    split
    · refine (spanOf_continues l part.1).bind fun span m _ _ => ?_
      exact mismatch_continues m _ _ _ _
    · exact .pure trivial
  · exact .pure (.ite (.ofKind (by decide)) .unresolved)
  · exact failed_continues k (by decide) _ _ .unresolved

/-! ### Nodes -/

theorem node_gives {n : Node} (within : Within source [n]) : Gives h (node env below n) := by
  have parts := within.below
  have record {x : Check Ty} (id : Nat) (given : Gives h x) : Gives h (do record id (← x)) :=
    given.bind fun _ k _ known => record_continues k id known
  have scalar (k : History env source) (id : Nat) {kind : Kind} (other : kind ≠ .object) :
      Gives k (Check.record id (.ofKind kind)) := record_continues k id (.ofKind other)
  cases n with
  | integer site | float site | boolean site | string site | nil site | quote site | pair site =>
    exact scalar h site.id (by decide)
  | vector site => exact record site.id (vector_gives typed h parts)
  | define site => exact record site.id (define_gives typed h _ within.own List.mem_cons_self parts)
  | lambda l => exact lambda_gives typed h within
  | function f => exact record f.site.id (function_gives typed h within)
  | struct site => exact record site.id (struct_gives typed h within)
  | cls site => exact record site.id (cls_gives typed h within)
  | ident site => exact record site.id (ident_gives h _ _)
  | assign site => exact record site.id (assign_gives typed h _ _ parts)
  | block site exprs =>
    have own : Within source (some (Node.block site exprs)).toList := within
    exact block_gives typed h own
  | print site => exact (typed _ parts h).bind fun _ k _ _ => scalar k site.id (by decide)
  | cond site part =>
    refine record site.id (cond_gives typed h site ?_)
    rwa [Node.ofBranches, List.flatMap_singleton]
  | conds site => exact record site.id (cond_gives typed h site parts)
  | loop site =>
    refine (condition_continues typed h parts.left).bind fun _ k _ _ => ?_
    exact (block_gives typed k parts.right).bind fun _ l _ _ => scalar l site.id (by decide)
  | cons site =>
    refine (typed _ parts.left h).bind fun _ k _ _ => ?_
    exact (typed _ parts.right k).bind fun _ l _ _ => scalar l site.id (by decide)
  | list site op operands =>
    refine Continues.bind (.forM fun slot member k _ => ?_) fun _ k _ _ => ?_
    · exact (typed slot (parts.slot member) k).discard
    · exact (annotate_continues k _ _).bind fun _ l _ _ => scalar l site.id (by decide)
  | access site => exact record site.id (access_gives typed h _ parts)
  | call site => exact record site.id (call_gives typed h _ _ parts)
  | invoke site => exact record site.id (invoke_gives typed h _ parts)
  | member c => exact record c.site.id (chain_gives typed h parts)
  | assignMember site => exact record site.id (assignMember_gives typed h _ parts)
  | random site isFloat lower upper =>
    refine record site.id (random_gives typed h isFloat ?_)
    have both : [lower, upper].filterMap (·) = lower.toList ++ upper.toList := by
      cases lower <;> cases upper <;> rfl
    rwa [both]
  | create site => exact record site.id (create_gives typed h _ _ parts)
  | construct site => exact record site.id (construct_gives typed h _ _ parts)
  | operation site =>
    refine (operation_gives typed h site _ parts).bind fun ty k _ known => ?_
    refine (annotate_continues k _ ty).bind fun _ l grown _ => ?_
    exact record_continues l site.id (known.later grown)
  | foreign site =>
    exact failed_continues h (by decide) _ _ .unresolved

end

/-! ### Whole trees -/

section

variable (env : Env) (halt : Option Node → State → Bool)

def pause (slot : Option Node) : Check Unit := do
  if halt slot (← get) then throw .absent

/-- Checks a node as `expr` does, until the condition says to break off: it is asked before every
node and after it. -/
def exprUntil : Nat → Below
  | 0, slot => do
    pause halt slot
    return .unresolved
  | _ + 1, none => do
    pause halt none
    return .nil
  | depth + 1, some n => do
    pause halt (some n)
    let ty ← node env (exprUntil depth) n
    pause halt (some n)
    return ty

/-- Checks a tree until the condition says to break off. -/
def treeUntil (t : Tree) : Check Unit :=
  let depth := t.visits.length + 1
  t.nodes.forM fun n => discard (exprUntil env halt depth n)

theorem pause_never (slot : Option Node) : pause (fun _ _ => false) slot = pure () := rfl

theorem exprUntil_never (depth : Nat) :
    exprUntil env (fun _ _ => false) depth = expr env depth := by
  induction depth with
  | zero => rfl
  | succ depth ih =>
    funext slot
    cases slot with
    | none => rfl
    | some n => simp only [exprUntil, expr, pause_never, ih, pure_bind, bind_pure]

/-- A check that is never broken off is the check of the tree. -/
theorem treeUntil_never (t : Tree) : treeUntil env (fun _ _ => false) t = tree env t := by
  rw [treeUntil, tree, exprUntil_never]

theorem pause_continues {source : Node → Prop} (h : History env source) (slot : Option Node) :
    Continues h (pause halt slot) fun _ _ => True := by
  have ends : (pause halt slot).run h.state = .ok () h.state ∨
      (pause halt slot).run h.state = .error .absent h.state := by
    simp only [pause, EStateM.run_bind, EStateM.run_get]
    split
    · exact .inr rfl
    · exact .inl rfl
  rcases ends with goes | stops
  · exact .of_reads goes trivial
  · exact .of_fault stops

theorem exprUntil_typed (source : Node → Prop) (depth : Nat) :
    Typed env source (exprUntil env halt depth) := by
  induction depth with
  | zero =>
    intro slot _ h
    exact (pause_continues env halt h slot).bind fun _ _ _ _ => .pure .unresolved
  | succ depth ih =>
    intro slot within h
    cases slot with
    | none => exact (pause_continues env halt h _).bind fun _ _ _ _ => .pure (.ofKind (by decide))
    | some n =>
      refine (pause_continues env halt h _).bind fun _ k _ _ => ?_
      refine (node_gives ih k within).bind fun ty l _ known => ?_
      exact (pause_continues env halt l _).bind fun _ m grown _ => .pure (known.later grown)

/-- A check of a tree on the fresh context, also one that is broken off or stops at a fault, is a
lawful history over the nodes of the tree. One that ends has finished all definitions. -/
theorem tree_history (t : Tree) : ∃ h : History env (· ∈ t.visits),
    h.state = endState (treeUntil env halt t) (.start .fresh) ∧
    ∀ u, (treeUntil env halt t).run (.start .fresh) = .ok () u →
      ∀ n name ty span, .register n name ty span ∈ h.moves → h.Settled n name := by
  have nodes : Within (· ∈ t.visits) (t.nodes.filterMap (·)) :=
    fun n member m found => List.mem_flatMap.mpr ⟨n, member, found⟩
  have continues : Continues (start : History env (· ∈ t.visits)) (treeUntil env halt t)
      fun _ _ => True :=
    .forM fun slot member k _ =>
      (exprUntil_typed env halt _ _ slot (nodes.slot member) k).discard
  have began : (start : History env (· ∈ t.visits)).state = .start .fresh := rfl
  unfold Continues at continues
  rw [began] at continues
  unfold endState
  cases ends : (treeUntil env halt t).run (.start .fresh) with
  | error fault u =>
    simp only [ends] at continues
    obtain ⟨h, _, same⟩ := continues
    exact ⟨h, same, fun _ other => by cases other⟩
  | ok a u =>
    simp only [ends] at continues
    obtain ⟨h, _, same, finished, _⟩ := continues
    refine ⟨h, same, fun _ _ n name ty span made => ?_⟩
    exact (finished n name ty span made).resolve_left List.not_mem_nil

end

end TreeCheck.Check
