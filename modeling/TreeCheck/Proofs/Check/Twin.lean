import TreeCheck.Proofs.Check.Conform
import TreeCheck.Proofs.Check.Depth

/-!
Two checks of trees that are alike. Every rule conforms on two nodes that are alike, if the
functions that check the nodes below do; so do the checks of the trees as a whole, whatever
relation between the states the steps keep.
-/

namespace TreeCheck

theorem Node.Layer.site {l : Likeness} {like : Node → Node → Prop} {n m : Node}
    (layer : Node.Layer l like n m) : n.site.Alike l m.site := by
  cases layer with
  | lambda alike => obtain ⟨_, site, _⟩ := alike; exact site
  | function alike => obtain ⟨site, _⟩ := alike; exact site
  | member alike => obtain ⟨site, _⟩ := alike; exact site
  | _ => assumption

namespace Check

/-- The steps on the state, and the functions that check the nodes below, conform on nodes that are
related layer by layer. -/
structure Twin (l : Likeness) (env env' : Env) (rel : State → State → Prop)
    (like : Node → Node → Prop) (below other : Below) : Prop where
  steps : Steps l env env' rel
  layer {n m : Node} : like n m ↔ Node.Layer l like n m
  below {x y : Option Node} : Option.Rel like x y →
    Conform rel (Ty.Alike l) (below x) (other y)

section

variable {l : Likeness} {env env' : Env} {rel : State → State → Prop}
  {like : Node → Node → Prop} {below other : Below}

theorem Twin.place (twin : Twin l env env' rel like below other) {n m : Node} (same : like n m) :
    l.span n.span m.span :=
  (twin.layer.mp same).site.span

theorem Twin.spanOr (twin : Twin l env env' rel like below other) {x y : Option Node} {s t : Span}
    (slot : Option.Rel like x y) (place : l.span s t) : l.span (spanOr x s) (spanOr y t) := by
  cases slot with
  | none => exact place
  | some here => exact twin.place here

theorem Twin.spanOf (twin : Twin l env env' rel like below other) {x y : Option Node}
    (slot : Option.Rel like x y) : Conform rel l.span (spanOf x) (spanOf y) := by
  cases slot with
  | none => exact twin.steps.absent
  | some here => exact .pure (twin.place here)

theorem zip_alike {α β : Type} {parts : α → β → Prop} {xs : List α} {ys : List β}
    {types types' : List Ty} (alike : List.Forall₂ parts xs ys)
    (found : List.Forall₂ (Ty.Alike l) types types') :
    List.Forall₂ (fun a b => parts a.1 b.1 ∧ Ty.Alike l a.2 b.2) (xs.zip types)
      (ys.zip types') := by
  induction alike generalizing types types' with
  | nil => exact .nil
  | cons first _ ih =>
    cases found with
    | nil => exact .nil
    | cons here later => exact .cons ⟨first, here⟩ (ih later)

/-! ### Rules that check no nodes -/

section

variable (steps : Steps l env env' rel)
include steps

theorem paramTypes_conform {s t : Site} (site : s.Alike l t) (index : Nat)
    {ps qs : List (Param Node)} (alike : List.Forall₂ (Param.Alike l like) ps qs) :
    Conform rel (List.Forall₂ (Ty.Alike l)) (paramTypes env s.id index ps)
      (paramTypes env' t.id index qs) := by
  rw [site.id_eq]
  induction alike generalizing index with
  | nil => exact .pure .nil
  | cons first _ ih =>
    obtain ⟨_, _, _, place, _, _, declared⟩ := first
    refine (steps.resolve declared place).bind fun a b here => ?_
    refine (steps.annotate _ here).next fun _ _ => ?_
    exact (ih (index + 1)).bind fun as bs later => .pure (.cons here later)

theorem signature_conform {f g : Lambda Node} (alike : Lambda.Alike l like f g) :
    Conform rel (Ty.Alike l) (signature env f) (signature env' g) := by
  obtain ⟨_, site, params, _, declared⟩ := alike
  refine (paramTypes_conform steps site 0 params).bind fun as bs args => ?_
  exact (steps.resolve declared site.span).bind fun a b result => .pure (.lambda result args)

theorem superTypes_conform {s t : Site} (site : s.Alike l t) {name name' : Handle}
    (named : l.handle name name') {hs ks : List Handle} (supers : List.Forall₂ l.handle hs ks) :
    Conform rel (List.Forall₂ (Ty.Alike l)) (superTypes env s name hs)
      (superTypes env' t name' ks) := by
  induction supers with
  | nil => exact .pure .nil
  | cons first _ ih =>
    refine (steps.objectNamed first).bind fun a b found => ?_
    cases found with
    | some here => exact ih.bind fun as bs later => .pure (.cons here later)
    | none =>
      dsimp only
      rw [steps.name_eq first, steps.name_eq named]
      exact (steps.report _ (by decide) site.span).next fun _ _ => ih

theorem bindFields_conform {seen seen' : List Handle} (before : List.Forall₂ l.handle seen seen')
    {xs ys : List (Field Node × Ty)}
    (alike : List.Forall₂ (fun a b => Field.Alike l like a.1 b.1 ∧ Ty.Alike l a.2 b.2) xs ys) :
    Conform rel (fun _ _ => True) (bindFields env seen xs) (bindFields env' seen' ys) := by
  induction alike generalizing seen seen' with
  | nil => exact .pure trivial
  | @cons x y _ _ first _ ih =>
    obtain ⟨f, ty⟩ := x
    obtain ⟨g, ty'⟩ := y
    obtain ⟨⟨_, place, named, _, _⟩, here⟩ := first
    unfold bindFields
    refine .ite (iff_of_eq (congrArg (· = true) (steps.consistent.contains before named)))
      (ih before) ?_
    exact (steps.declare named here place).next fun _ _ => ih (.cons named before)

theorem bindMethods_conform {owner owner' : Handle} (owned : l.handle owner owner')
    {ms ns : List (Function Node)} (alike : List.Forall₂ (Function.Alike l like) ms ns) :
    Conform rel
      (List.Forall₂ fun a b => Lambda.Alike l like a.1 b.1 ∧ Ty.Alike l a.2 b.2)
      (bindMethods env owner ms) (bindMethods env' owner' ns) := by
  induction alike with
  | nil => exact .pure .nil
  | cons first _ ih =>
    obtain ⟨site, named, lambda⟩ := first
    cases lambda with
    | none =>
      unfold bindMethods
      dsimp only
      rw [steps.name_eq named]
      exact (steps.report _ (by decide) site.span).next fun _ _ => ih
    | some alike =>
      refine (signature_conform steps alike).bind fun a b signed => ?_
      refine (steps.addMember owned named signed site.span).bind ?_
      rintro added _ rfl
      refine .guarded Iff.rfl (steps.declare named signed site.span) ?_
      exact ih.bind fun as bs later => .pure (.cons ⟨alike, signed⟩ later)

theorem ident_conform {s t : Site} (site : s.Alike l t) {h k : Handle} (named : l.handle h k) :
    Conform rel (Ty.Alike l) (ident env s h) (ident env' t k) := by
  refine (steps.lookup named).bind fun a b found => ?_
  cases found with
  | some here => exact .pure here
  | none =>
    exact steps.failed (by decide) site.span (by rw [steps.name_eq named]) (.ofKind _)

theorem matchArgs_conform {s t : Span} {what what' : Text}
    (same : what = what') (placed : ∀ {x y : Option Node}, Option.Rel like x y →
      l.span (spanOr x s) (spanOr y t)) {xs ys : List (Argument Node × Ty)}
    (alike : List.Forall₂ (fun a b => Argument.Alike l like a.1 b.1 ∧ Ty.Alike l a.2 b.2) xs ys)
    {params params' : List Ty} (wanted : List.Forall₂ (Ty.Alike l) params params') :
    Conform rel (fun _ _ => True) (matchArgs env s what xs params)
      (matchArgs env' t what' ys params') := by
  induction alike generalizing params params' with
  | nil => exact .pure trivial
  | @cons x y _ _ first _ ih =>
    cases wanted with
    | nil => exact .pure trivial
    | cons want rest =>
      obtain ⟨arg, ty⟩ := x
      obtain ⟨arg', ty'⟩ := y
      obtain ⟨⟨value, named⟩, found⟩ := first
      unfold matchArgs
      refine .guarded ?_ (steps.mismatch (placed value) (by rw [same]) want found) (ih rest)
      dsimp only
      rw [steps.consistent.isValid named, want.compatible_eq steps.consistent found]

theorem unknownObject_conform {s t : Site} (site : s.Alike l t) {h k : Handle}
    (named : l.handle h k) :
    Conform rel (Ty.Alike l) (unknownObject env s h) (unknownObject env' t k) :=
  steps.failed (by decide) site.span (by rw [steps.name_eq named]) (.ofKind _)

end

/-! ### Blocks and lambdas -/

section

variable (twin : Twin l env env' rel like below other)
include twin

theorem body_conform {n m : Node} (same : like n m) :
    Conform rel (Ty.Alike l) (body below n) (body other m) := by
  cases twin.layer.mp same with
  | block site exprs =>
    unfold body
    dsimp only
    rw [site.id_eq]
    refine .bind (.foldlM exprs (fun _ _ _ _ _ slot => twin.below slot) (.ofKind Kind.nil)) ?_
    exact fun a b found => twin.steps.record _ found
  | _ => exact twin.below (.some same)

theorem block_conform {x y : Option Node} (slot : Option.Rel like x y) :
    Conform rel (Ty.Alike l) (block below x) (block other y) := by
  cases slot with
  | none => exact .pure (.ofKind _)
  | some same =>
    refine twin.steps.openScope.next fun _ _ => (body_conform twin same).bind fun a b found => ?_
    exact twin.steps.closeScope.next fun _ _ => .pure found

theorem withDefault_conform {what what' : Text} (same : what = what') {a b : Ty}
    (written : Ty.Alike l a b) {x y : Option Node} (slot : Option.Rel like x y) :
    Conform rel (Ty.Alike l) (withDefault env below what a x)
      (withDefault env' other what' b y) := by
  cases slot with
  | none => exact .pure written
  | some here =>
    refine (twin.below (.some here)).bind fun a b found => ?_
    exact twin.steps.expect (twin.place here) same written found (.pure (written.orElse found))

theorem bindParams_conform {s t : Site} (site : s.Alike l t) (index : Nat)
    {xs ys : List (Param Node × Ty)}
    (alike : List.Forall₂ (fun a b => Param.Alike l like a.1 b.1 ∧ Ty.Alike l a.2 b.2) xs ys) :
    Conform rel (List.Forall₂ (Ty.Alike l)) (bindParams env below s.id index xs)
      (bindParams env' other t.id index ys) := by
  rw [site.id_eq]
  induction alike generalizing index with
  | nil => exact .pure .nil
  | @cons x y _ _ first _ ih =>
    obtain ⟨p, ty⟩ := x
    obtain ⟨q, ty'⟩ := y
    obtain ⟨⟨_, _, _, place, named, default, _⟩, written⟩ := first
    have what := congrArg (text "default of " ++ ·) (twin.steps.name_eq named)
    refine (withDefault_conform twin what written default).bind fun a b found => ?_
    refine (twin.steps.annotate _ found).next fun _ _ => ?_
    refine (twin.steps.declare named found place).next fun _ _ => ?_
    exact (ih (index + 1)).bind fun as bs later => .pure (.cons found later)

omit twin in
/-- The end of a lambda: its scope is closed and its completed type recorded. -/
theorem closed_conform (steps : Steps l env env' rel) {s t : Site} (site : s.Alike l t)
    {sig sig' : Ty} (signed : Ty.Alike l sig sig') {as bs : List Ty}
    (args : List.Forall₂ (Ty.Alike l) as bs) {a b : Ty} (found : Ty.Alike l a b) :
    Conform rel (Ty.Alike l)
      (do
        closeScope
        let result := sig.resultType
        if !Ty.compatible result a then mismatch env s.span (text "return value") result a
        let ty := Ty.lambda (if result.isResolved then result else a) as
        annotate (.own s.id) ty
        record s.id ty)
      (do
        closeScope
        let result := sig'.resultType
        if !Ty.compatible result b then mismatch env' t.span (text "return value") result b
        let ty := Ty.lambda (if result.isResolved then result else b) bs
        annotate (.own t.id) ty
        record t.id ty) := by
  rw [site.id_eq]
  have completed := (signed.resultType.orElse found).lambda args
  refine steps.closeScope.next fun _ _ => ?_
  refine steps.expect site.span rfl signed.resultType found ?_
  exact (steps.annotate _ completed).next fun _ _ => steps.record _ completed

theorem lambdaBody_conform {f g : Lambda Node} (alike : Lambda.Alike l like f g) {sig sig' : Ty}
    (signed : Ty.Alike l sig sig') :
    Conform rel (Ty.Alike l) (lambdaBody env below f sig) (lambdaBody env' other g sig') := by
  obtain ⟨_, site, params, inner, _⟩ := alike
  refine twin.steps.openScope.next fun _ _ => ?_
  have bound := bindParams_conform twin site 0 (zip_alike params signed.params)
  refine bound.bind fun as bs args => ?_
  cases inner with
  | none => exact closed_conform twin.steps site signed args (.ofKind _)
  | some same =>
    refine (body_conform twin same).bind fun a b found => ?_
    exact closed_conform twin.steps site signed args found

theorem lambda_conform {f g : Lambda Node} (alike : Lambda.Alike l like f g) :
    Conform rel (Ty.Alike l) (lambda env below f) (lambda env' other g) :=
  (signature_conform twin.steps alike).bind fun _ _ signed => lambdaBody_conform twin alike signed

/-! ### Definitions -/

theorem define_conform {s t : Site} (site : s.Alike l t) {name name' declared declared' : Handle}
    (named : l.handle name name') {x y : Option Node} (value : Option.Rel like x y)
    (written : l.handle declared declared') :
    Conform rel (Ty.Alike l) (define env below s name x declared)
      (define env' other t name' y declared') := by
  unfold define
  rw [site.id_eq]
  refine (twin.below value).bind fun a b found => ?_
  refine (twin.steps.resolve written site.span).bind fun want want' wanted => ?_
  refine twin.steps.expect (twin.spanOr value site.span) (by rw [twin.steps.name_eq named]) wanted
    found ?_
  refine (twin.steps.annotate _ (wanted.orElse found)).next fun _ _ => ?_
  exact (twin.steps.declare named (wanted.orElse found) site.span).next fun _ _ =>
    .pure (wanted.orElse found)

theorem function_conform {f g : Function Node} (alike : Function.Alike l like f g) :
    Conform rel (Ty.Alike l) (function env below f) (function env' other g) := by
  obtain ⟨site, named, lambda⟩ := alike
  cases lambda with
  | none =>
    exact twin.steps.failed (by decide) site.span (by rw [twin.steps.name_eq named]) (.ofKind _)
  | some alike =>
    refine (signature_conform twin.steps alike).bind fun a b signed => ?_
    refine (twin.steps.declare named signed site.span).next fun _ _ => ?_
    exact lambdaBody_conform twin alike signed

theorem fields_conform {s t : Site} (site : s.Alike l t) {owner owner' : Handle}
    (owned : l.handle owner owner') (index : Nat) {xs ys : List (Field Node)}
    (alike : List.Forall₂ (Field.Alike l like) xs ys) :
    Conform rel (List.Forall₂ (Ty.Alike l)) (fields env below s.id owner index xs)
      (fields env' other t.id owner' index ys) := by
  rw [site.id_eq]
  induction alike generalizing index with
  | nil => exact .pure .nil
  | cons first _ ih =>
    obtain ⟨_, place, named, declared, default⟩ := first
    have what := congrArg (text "default of field " ++ ·) (twin.steps.name_eq named)
    refine (twin.steps.resolve declared place).bind fun want want' written => ?_
    refine (withDefault_conform twin what written default).bind fun a b found => ?_
    refine (twin.steps.annotate _ found).next fun _ _ => ?_
    refine (twin.steps.addMember owned named found place).next fun _ _ => ?_
    exact (ih (index + 1)).bind fun as bs later => .pure (.cons found later)

theorem struct_conform {s t : Site} (site : s.Alike l t) {name name' : Handle}
    (named : l.handle name name') {xs ys : List (Field Node)}
    (parts : List.Forall₂ (Field.Alike l like) xs ys) :
    Conform rel (Ty.Alike l) (struct env below s name xs) (struct env' other t name' ys) := by
  have object : Ty.Alike l (.object name []) (.object name' []) := .object named .nil
  have annotated := twin.steps.annotate (.own s.id) object
  nth_rewrite 2 [site.id_eq] at annotated
  refine annotated.next fun _ _ => ?_
  refine (twin.steps.registerType named object site.span).next fun _ _ => ?_
  exact (fields_conform twin site named 0 parts).next fun _ _ => .pure (.ofKind _)

theorem cls_conform {s t : Site} (site : s.Alike l t) {c d : Class Node}
    (alike : Class.Alike l like c d) :
    Conform rel (Ty.Alike l) (cls env below s c) (cls env' other t d) := by
  obtain ⟨_, named, supers, parts, init, methods, pre, post, final, validate⟩ := alike
  refine (superTypes_conform twin.steps site named supers).bind fun as bs above => ?_
  have object := Ty.Alike.object named above
  have annotated := twin.steps.annotate (.own s.id) object
  nth_rewrite 2 [site.id_eq] at annotated
  refine annotated.next fun _ _ => ?_
  refine (twin.steps.registerType named object site.span).next fun _ _ => ?_
  refine (fields_conform twin site named 0 parts).bind fun types types' found => ?_
  refine twin.steps.openScope.next fun _ _ => ?_
  refine (bindFields_conform twin.steps .nil (zip_alike parts found)).next fun _ _ => ?_
  refine (bindMethods_conform twin.steps named methods).bind fun lambdas lambdas' signed => ?_
  refine (Conform.forM init fun _ _ same => (lambda_conform twin same).discard).next fun _ _ => ?_
  refine (Conform.forM signed fun _ _ same =>
    (lambdaBody_conform twin same.1 same.2).discard).next fun _ _ => ?_
  have hooks : List.Forall₂ (Option.Rel like) [_, _, _, _] [_, _, _, _] :=
    .cons pre (.cons post (.cons final (.cons validate .nil)))
  refine (Conform.forM hooks fun _ _ slot => (block_conform twin slot).discard).next fun _ _ => ?_
  exact twin.steps.closeScope.next fun _ _ => .pure (.ofKind _)

/-! ### Variables, branches and indices -/

theorem assign_conform {s t : Site} (site : s.Alike l t) {h k : Handle} (named : l.handle h k)
    {x y : Option Node} (value : Option.Rel like x y) :
    Conform rel (Ty.Alike l) (assign env below s h x) (assign env' other t k y) := by
  have name := twin.steps.name_eq named
  refine (twin.below value).bind fun a b given => ?_
  refine (twin.steps.lookup named).bind fun _ _ found => ?_
  cases found with
  | none => exact twin.steps.failed (by decide) site.span (by rw [name]) given
  | some here =>
    exact twin.steps.expect (twin.spanOr value site.span) (by rw [name]) here given (.pure here)

theorem condition_conform {x y : Option Node} (slot : Option.Rel like x y) :
    Conform rel (fun _ _ => True) (condition env below x) (condition env' other y) := by
  refine (twin.below slot).bind fun a b found => ?_
  cases slot with
  | none => exact .pure trivial
  | some here => exact twin.steps.expected (twin.place here) rfl (.ofKind _) found

theorem branch_conform {s t : Site} (site : s.Alike l t) (index : Nat) {b c : Branch Node}
    (alike : Branch.Alike like b c) :
    Conform rel (Ty.Alike l) (branch env below s.id index b) (branch env' other t.id index c) := by
  obtain ⟨guard, inner⟩ := alike
  rw [site.id_eq]
  refine (condition_conform twin guard).next fun _ _ => ?_
  refine (block_conform twin inner).bind fun a b found => ?_
  exact (twin.steps.annotate _ found).next fun _ _ => .pure found

theorem branches_conform {s t : Site} (site : s.Alike l t) (index : Nat)
    {xs ys : List (Branch Node)} (alike : List.Forall₂ (Branch.Alike like) xs ys) :
    Conform rel (List.Forall₂ (Ty.Alike l)) (branches env below s.id index xs)
      (branches env' other t.id index ys) := by
  induction alike generalizing index with
  | nil => exact .pure .nil
  | cons first _ ih =>
    refine (branch_conform twin site index first).bind fun a b here => ?_
    exact (ih (index + 1)).bind fun as bs later => .pure (.cons here later)

theorem cond_conform {s t : Site} (site : s.Alike l t) {xs ys : List (Branch Node)}
    (parts : List.Forall₂ (Branch.Alike like) xs ys) {x y : Option Node}
    (otherwise : Option.Rel like x y) :
    Conform rel (Ty.Alike l) (cond env below s xs x) (cond env' other t ys y) := by
  refine (branches_conform twin site 0 parts).bind fun as bs found => ?_
  refine (block_conform twin otherwise).bind fun a b last => ?_
  have annotated := twin.steps.annotate (.otherwise s.id) last
  nth_rewrite 2 [site.id_eq] at annotated
  refine annotated.next fun _ _ => .pure (.join twin.steps.consistent ?_)
  cases otherwise with
  | none => exact found
  | some _ => exact List.rel_append found (.cons last .nil)

theorem access_conform {s t : Site} (site : s.Alike l t) {x y i j : Option Node}
    (index : Option.Rel like i j) (target : Option.Rel like x y) :
    Conform rel (Ty.Alike l) (access env below s i x) (access env' other t j y) := by
  refine (twin.below target).bind fun a b found => ?_
  have finish : Conform rel (Ty.Alike l)
      (do
        if a.kind = .vector then return a.elemType
        else if a.kind = .pair || a.kind = .unresolved then return .unresolved
        else
          report .typeMismatch (spanOr x s.span)
            (text "cannot index a value of type " ++ env.label a)
          return .unresolved)
      (do
        if b.kind = .vector then return b.elemType
        else if b.kind = .pair || b.kind = .unresolved then return .unresolved
        else
          report .typeMismatch (spanOr y t.span)
            (text "cannot index a value of type " ++ env'.label b)
          return .unresolved) := by
    rw [found.kind_eq]
    refine .ite Iff.rfl (.pure found.elemType) (.ite Iff.rfl (.pure (.ofKind _)) ?_)
    exact twin.steps.failed (by decide) (twin.spanOr target site.span)
      (by rw [twin.steps.label_eq found]) (.ofKind _)
  cases index with
  | none => exact finish
  | some here =>
    refine (twin.below (.some here)).bind fun c d indexed => ?_
    exact twin.steps.expect (twin.place here) rfl (.ofKind _) indexed finish

/-! ### Calls and member accesses -/

theorem discarded_conform {xs ys : List (Argument Node)}
    (args : List.Forall₂ (Argument.Alike l like) xs ys) :
    Conform rel (fun _ _ => True) (xs.forM fun a => discard (below a.value))
      (ys.forM fun a => discard (other a.value)) := by
  refine .forM args ?_
  rintro _ _ ⟨value, _⟩
  exact (twin.below value).discard

theorem apply_conform {s t : Span} (place : l.span s t) {what what' : Text} (same : what = what')
    {a b : Ty} (callee : Ty.Alike l a b) {xs ys : List (Argument Node)}
    (args : List.Forall₂ (Argument.Alike l like) xs ys) :
    Conform rel (Ty.Alike l) (apply env below s what a xs) (apply env' other t what' b ys) := by
  have values : Conform rel (List.Forall₂ (Ty.Alike l)) (xs.mapM fun a => below a.value)
      (ys.mapM fun a => other a.value) := by
    refine .mapM args ?_
    rintro _ _ ⟨value, _⟩
    exact twin.below value
  refine values.bind fun types types' found => ?_
  rw [callee.kind_eq]
  refine .ite Iff.rfl (.pure (.ofKind _)) (.ite Iff.rfl ?_ ?_)
  · exact twin.steps.failed (by decide) place (by rw [same, twin.steps.label_eq callee]) (.ofKind _)
  · dsimp only
    rw [callee.params.length_eq, args.length_eq, same]
    refine .guarded Iff.rfl (twin.steps.report _ (by decide) place) ?_
    refine (matchArgs_conform twin.steps rfl (fun slot => twin.spanOr slot place)
      (zip_alike args found) callee.params).next fun _ _ => ?_
    exact .pure callee.resultType

theorem call_conform {s t : Site} (site : s.Alike l t) {h k : Handle} (named : l.handle h k)
    {xs ys : List (Argument Node)} (args : List.Forall₂ (Argument.Alike l like) xs ys) :
    Conform rel (Ty.Alike l) (call env below s h xs) (call env' other t k ys) := by
  have name := twin.steps.name_eq named
  refine (twin.steps.lookup named).bind fun _ _ found => ?_
  cases found with
  | none =>
    refine (discarded_conform twin args).next fun _ _ => ?_
    exact twin.steps.failed (by decide) site.span (by rw [name]) (.ofKind _)
  | some here => exact apply_conform twin site.span name here args

theorem follow_conform {a b : Ty} (start : Ty.Alike l a b) {xs ys : List (Accessor Node)}
    (accessors : List.Forall₂ (Accessor.Alike l like) xs ys) :
    Conform rel (Ty.Alike l) (follow env below a xs) (follow env' other b ys) := by
  induction accessors generalizing a b with
  | nil => exact .pure start
  | cons first _ ih =>
    obtain ⟨isField, place, named, args⟩ := first
    have name := twin.steps.name_eq named
    unfold follow
    rw [start.kind_eq]
    refine .ite Iff.rfl ((discarded_conform twin args).next fun _ _ => ih start) ?_
    have missing : Conform rel (Ty.Alike l)
        (do
          report .unknownMember _ (env.label a ++ text " has no member " ++ env.name _)
          return .unresolved)
        (do
          report .unknownMember _ (env'.label b ++ text " has no member " ++ env'.name _)
          return .unresolved) :=
      twin.steps.failed (by decide) place (by rw [name, twin.steps.label_eq start]) (.ofKind _)
    dsimp only
    refine .ite Iff.rfl ?_ missing
    refine (twin.steps.member start named).bind fun _ _ found => ?_
    cases found with
    | none => exact missing
    | some here =>
      refine .ite Iff.rfl (ih here) ?_
      exact (apply_conform twin place name here args).bind fun _ _ result => ih result

theorem invoke_conform {s t : Site} (site : s.Alike l t) {x y : Option Node}
    (callee : Option.Rel like x y) {as bs : List (Accessor Node)}
    (accessors : List.Forall₂ (Accessor.Alike l like) as bs) {xs ys : List (Argument Node)}
    (args : List.Forall₂ (Argument.Alike l like) xs ys) :
    Conform rel (Ty.Alike l) (invoke env below s x as xs) (invoke env' other t y bs ys) := by
  refine (twin.below callee).bind fun a b start => ?_
  refine (follow_conform twin start accessors).bind fun c d found => ?_
  exact apply_conform twin site.span rfl found args

theorem chain_conform {c d : Chain Node} (alike : Chain.Alike l like c d) :
    Conform rel (Ty.Alike l) (chain env below c) (chain env' other d) := by
  obtain ⟨site, named, accessors⟩ := alike
  refine (twin.steps.lookup named).bind fun _ _ found => ?_
  cases found with
  | none =>
    exact twin.steps.failed (by decide) site.span (by rw [twin.steps.name_eq named]) (.ofKind _)
  | some here => exact follow_conform twin here accessors

theorem assignMember_conform {s t : Site} (site : s.Alike l t) {c d : Option (Chain Node)}
    (target : Option.Rel (Chain.Alike l like) c d) {x y : Option Node}
    (value : Option.Rel like x y) :
    Conform rel (Ty.Alike l) (assignMember env below s c x) (assignMember env' other t d y) := by
  refine (twin.below value).bind fun a b given => ?_
  cases target with
  | none => exact .pure given
  | some alike =>
    have member := twin.layer.mpr (.member alike)
    refine (twin.below (.some member)).bind fun e f found => ?_
    exact twin.steps.expect (twin.spanOr value site.span) rfl found given (.pure found)

/-! ### Objects and operations -/

theorem random_conform (isFloat : Bool) {xs ys : List (Option Node)}
    (bounds : List.Forall₂ (Option.Rel like) xs ys) :
    Conform rel (Ty.Alike l) (random env below isFloat xs) (random env' other isFloat ys) := by
  have want : Ty.Alike l (if isFloat then .float else .integer)
      (if isFloat then .float else .integer) := by
    cases isFloat <;> exact .ofKind _
  refine (Conform.forM bounds fun x y slot => ?_).next fun _ _ => .pure want
  cases slot with
  | none => exact .pure trivial
  | some here =>
    refine (twin.below (.some here)).bind fun a b found => ?_
    rw [found.isResolved_eq, found.kind_eq]
    exact .ite Iff.rfl (twin.steps.mismatch (twin.place here) rfl want found) (.pure trivial)

theorem create_conform {s t : Site} (site : s.Alike l t) {h k : Handle} (named : l.handle h k)
    {xs ys : List (Initializer Node)} (args : List.Forall₂ (Initializer.Alike l like) xs ys) :
    Conform rel (Ty.Alike l) (create env below s h xs) (create env' other t k ys) := by
  refine (twin.steps.objectNamed named).bind fun _ _ found => ?_
  cases found with
  | none =>
    refine .next (.forM args ?_) fun _ _ => unknownObject_conform twin.steps site named
    rintro _ _ ⟨_, value⟩
    exact (twin.below value).discard
  | some object =>
    refine .next (.forM args ?_) fun _ _ => .pure object
    rintro _ _ ⟨field, value⟩
    refine (twin.below value).bind fun a b given => ?_
    refine (twin.steps.member object field).bind fun _ _ found => ?_
    cases found with
    | none =>
      dsimp only
      rw [twin.steps.name_eq named, twin.steps.name_eq field]
      exact twin.steps.report _ (by decide) (twin.spanOr value site.span)
    | some want =>
      exact twin.steps.expected (twin.spanOr value site.span) (by rw [twin.steps.name_eq field])
        want given

theorem construct_conform {s t : Site} (site : s.Alike l t) {h k : Handle} (named : l.handle h k)
    {xs ys : List (Argument Node)} (args : List.Forall₂ (Argument.Alike l like) xs ys) :
    Conform rel (Ty.Alike l) (construct env below s h xs) (construct env' other t k ys) := by
  refine (discarded_conform twin args).next fun _ _ => ?_
  refine (twin.steps.objectNamed named).bind fun _ _ found => ?_
  cases found with
  | none => exact unknownObject_conform twin.steps site named
  | some object => exact .pure object

omit twin in
theorem conflict_alike (consistent : l.Consistent env.names env'.names) {a b : Ty}
    (first : Ty.Alike l a b) {xs ys : List (Option Node × Ty)}
    (alike : List.Forall₂ (fun x y => Option.Rel like x.1 y.1 ∧ Ty.Alike l x.2 y.2) xs ys) :
    Option.Rel (fun x y => Option.Rel like x.1 y.1 ∧ Ty.Alike l x.2 y.2) (conflict a xs)
      (conflict b ys) := by
  induction alike with
  | nil => exact .none
  | @cons x y _ _ here _ ih =>
    obtain ⟨n, ty⟩ := x
    obtain ⟨m, ty'⟩ := y
    unfold conflict
    rw [first.compatible_eq consistent here.2]
    split
    · exact ih
    · exact .some here

theorem vector_conform {xs ys : List (Option Node)} (elems : List.Forall₂ (Option.Rel like) xs ys) :
    Conform rel (Ty.Alike l) (vector env below xs) (vector env' other ys) := by
  refine (Conform.mapM elems fun _ _ slot => twin.below slot).bind fun types types' found => ?_
  have joined := Ty.Alike.join twin.steps.consistent found
  have pairs := zip_alike elems found
  generalize xs.zip types = left at pairs
  generalize ys.zip types' = right at pairs
  cases pairs with
  | nil => exact .pure (.vector (.ofKind _))
  | @cons x y rest rest' here later =>
    obtain ⟨n, ty⟩ := x
    obtain ⟨m, ty'⟩ := y
    dsimp only
    rw [joined.isResolved_eq]
    refine .ite Iff.rfl ?_ (.pure joined.vector)
    have conflicting := conflict_alike twin.steps.consistent here.2 later
    generalize conflict ty rest = left at conflicting
    generalize conflict ty' rest' = right at conflicting
    cases conflicting with
    | none => exact .pure joined.vector
    | some both =>
      refine (twin.spanOf both.1).bind fun s t place => ?_
      exact (twin.steps.mismatch place rfl here.2 both.2).next fun _ _ => .pure joined.vector

theorem arithmetic_conform (op : Operator) {a b : Ty} (result : Ty.Alike l a b)
    {xs ys : List (Option Node × Ty)}
    (alike : List.Forall₂ (fun x y => Option.Rel like x.1 y.1 ∧ Ty.Alike l x.2 y.2) xs ys) :
    Conform rel (Ty.Alike l) (arithmetic env op a xs) (arithmetic env' op b ys) := by
  induction alike generalizing a b with
  | nil => exact .pure result
  | @cons x y _ _ here _ ih =>
    obtain ⟨n, ty⟩ := x
    obtain ⟨m, ty'⟩ := y
    obtain ⟨slot, found⟩ := here
    unfold arithmetic
    dsimp only at slot found ⊢
    rw [found.isResolved_eq, found.kind_eq, result.isResolved_eq, twin.steps.label_eq found]
    refine .ite Iff.rfl (ih (.ofKind _)) (.ite Iff.rfl ?_ ?_)
    · refine (twin.spanOf slot).bind fun s t place => ?_
      exact (twin.steps.report _ (by decide) place).next fun _ _ => ih (.ofKind _)
    · exact .ite Iff.rfl (ih (.ofKind _)) (ih result)

theorem operation_conform {s t : Site} (site : s.Alike l t) (op : Operator)
    {xs ys : List (Option Node)} (operands : List.Forall₂ (Option.Rel like) xs ys) :
    Conform rel (Ty.Alike l) (operation env below s op xs) (operation env' other t op ys) := by
  refine (Conform.mapM operands fun _ _ slot => twin.below slot).bind fun types types' found => ?_
  have pairs := zip_alike operands found
  cases op.classOf with
  | arithmetic => exact arithmetic_conform twin op (.ofKind _) pairs
  | comparison => exact .pure (.ofKind _)
  | logic =>
    refine (Conform.forM pairs fun x y here => ?_).next fun _ _ => .pure (.ofKind _)
    refine .ite (twin.steps.unfit_iff (.ofKind _) here.2) ?_ (.pure trivial)
    refine (twin.spanOf here.1).bind fun s t place => ?_
    exact twin.steps.mismatch place rfl (.ofKind _) here.2
  | list =>
    refine .pure ?_
    split <;> exact .ofKind _
  | invalid => exact twin.steps.failed (by decide) site.span rfl (.ofKind _)

/-! ### Nodes -/

theorem node_conform {n m : Node} (same : like n m) :
    Conform rel (Ty.Alike l) (node env below n) (node env' other m) := by
  have steps := twin.steps
  have record {s t : Site} (site : s.Alike l t) {x y : Check Ty}
      (checked : Conform rel (Ty.Alike l) x y) :
      Conform rel (Ty.Alike l) (do record s.id (← x)) (do record t.id (← y)) := by
    rw [site.id_eq]
    exact checked.bind fun a b found => steps.record _ found
  have literal {s t : Site} (site : s.Alike l t) (kind : Kind) :
      Conform rel (Ty.Alike l) (Check.record s.id (.ofKind kind))
        (Check.record t.id (.ofKind kind)) := by
    rw [site.id_eq]
    exact steps.record _ (.ofKind kind)
  cases twin.layer.mp same with
  | integer _ site | float _ site | boolean _ site | string _ site | nil site | quote site
  | pair site => exact literal site _
  | vector site elems => exact record site (vector_conform twin elems)
  | define _ site named value declared =>
    exact record site (define_conform twin site named value declared)
  | lambda alike => exact lambda_conform twin alike
  | @function f g alike =>
    have site : f.site.Alike l g.site := (Node.Layer.function alike).site
    exact record site (function_conform twin alike)
  | struct site named parts => exact record site (struct_conform twin site named parts)
  | cls site alike => exact record site (cls_conform twin site alike)
  | ident site named => exact record site (ident_conform steps site named)
  | assign site named value => exact record site (assign_conform twin site named value)
  | block => exact block_conform twin (.some same)
  | print site expr => exact (twin.below expr).next fun _ _ => literal site _
  | cond site part otherwise =>
    exact record site (cond_conform twin site (.cons part .nil) otherwise)
  | conds site parts otherwise => exact record site (cond_conform twin site parts otherwise)
  | loop _ site guard inner =>
    refine (condition_conform twin guard).next fun _ _ => ?_
    exact (block_conform twin inner).next fun _ _ => literal site _
  | cons site car cdr =>
    exact (twin.below car).next fun _ _ => (twin.below cdr).next fun _ _ => literal site _
  | list _ site operands =>
    refine (Conform.forM operands fun _ _ slot => (twin.below slot).discard).next fun _ _ => ?_
    rw [site.id_eq]
    exact (steps.annotate _ (.ofKind _)).next fun _ _ => steps.record _ (.ofKind _)
  | access site index _ target => exact record site (access_conform twin site index target)
  | call site named args => exact record site (call_conform twin site named args)
  | invoke site callee accessors args =>
    exact record site (invoke_conform twin site callee accessors args)
  | @member c d alike =>
    have site : c.site.Alike l d.site := (Node.Layer.member alike).site
    exact record site (chain_conform twin alike)
  | assignMember site target value =>
    exact record site (assignMember_conform twin site target value)
  | random isFloat site lower upper =>
    exact record site (random_conform twin isFloat (.cons lower (.cons upper .nil)))
  | create site named args => exact record site (create_conform twin site named args)
  | construct site named args => exact record site (construct_conform twin site named args)
  | operation op site operands =>
    refine (operation_conform twin site op operands).bind fun a b found => ?_
    rw [site.id_eq]
    exact (steps.annotate _ found).next fun _ _ => steps.record _ found
  | foreign _ site => exact steps.failed (by decide) site.span rfl (.ofKind _)

end

/-! ### Trees -/

variable (steps : Steps l env env' rel)
  (layer : ∀ {n m : Node}, like n m ↔ Node.Layer l like n m)
include steps layer

theorem expr_twin (depth : Nat) : Twin l env env' rel like (expr env depth) (expr env' depth) := by
  refine ⟨steps, layer, ?_⟩
  induction depth with
  | zero => exact fun _ => .pure (.ofKind _)
  | succ depth ih =>
    rintro x y slot
    cases slot with
    | none => exact .pure (.ofKind _)
    | some here => exact node_conform ⟨steps, layer, ih⟩ here

theorem tree_conform {a b : Tree} (nodes : List.Forall₂ (Option.Rel like) a.nodes b.nodes) :
    Conform rel (fun _ _ => True) (tree env a) (tree env' b) := by
  -- The two depths may differ, but any greater one does for both.
  let depth := max a.visits.length b.visits.length + 1
  rw [← tree_stable env a (show a.visits.length < depth by omega),
    ← tree_stable env' b (show b.visits.length < depth by omega)]
  exact .forM nodes fun _ _ slot => ((expr_twin steps layer depth).below slot).discard

end

end Check

end TreeCheck
