import Mathlib.Data.List.Forall2
import TreeCheck.Proofs.Check.History
import TreeCheck.Proofs.Check.Rules
import TreeCheck.Proofs.Ty.Inside

/-!
What a lambda is given as its type. The signature of a lambda is made of its annotations alone and
may be bound to a name; later its parameters and its body are checked in a scope of its own and give
the completed type. Whatever was checked in between, the completed type has the types of the
annotations that resolved, and fills the gaps that the others left.
-/

namespace TreeCheck

/-! ### Types that leave parts open -/

namespace Ty

/-- The type where it is resolved, else the other one. -/
def orElse (ty other : Ty) : Ty :=
  if ty.isResolved then ty else other

def Allows (ty other : Ty) : Prop :=
  ty = unresolved ∨ equal ty other = true

/-- The components of one signature are filled in by those of another. -/
def Refines (full sig : Ty) : Prop :=
  sig.resultType.Allows full.resultType ∧ List.Forall₂ Allows sig.params full.params

theorem allows_orElse {ty : Ty} (known : ty.isResolved ∨ ty = unresolved) (other : Ty) :
    ty.Allows (ty.orElse other) := by
  rcases known with resolved | rfl
  · rw [orElse, if_pos resolved]
    exact .inr (equal_self ty)
  · exact .inl rfl

end Ty

/-- The type that a written type name stands for; unresolved where it stands for none. -/
def Context.written (ctx : Context) (name : Handle) : Ty :=
  if name.isValid then
    match ctx.resolve name with
    | .ok ty => ty.orElse .unresolved
    | .error _ => .unresolved
  else .unresolved

theorem Context.written_known (ctx : Context) (name : Handle) :
    (ctx.written name).isResolved ∨ ctx.written name = .unresolved := by
  unfold written
  split
  · split
    next ty _ =>
      unfold Ty.orElse
      split
      next resolved => exact .inl resolved
      next => exact .inr rfl
    next => exact .inr rfl
  · exact .inr rfl

namespace Check

/-! ### Signatures -/

/-- The parameters of a lambda with the types of their annotations in the given context. -/
def writtenParams (ctx : Context) (l : Lambda Node) : List (Param Node × Ty) :=
  l.params.map fun p => (p, ctx.written p.declared)

/-- The type of a lambda by its annotations alone, in the given context. -/
def signatureIn (ctx : Context) (l : Lambda Node) : Ty :=
  .lambda (ctx.written l.declared) (l.params.map fun p => ctx.written p.declared)

theorem zip_signatureIn (ctx : Context) (l : Lambda Node) :
    l.params.zip (signatureIn ctx l).params = writtenParams ctx l := by
  show l.params.zip (l.params.map _) = l.params.map _
  induction l.params with
  | nil => rfl
  | cons p rest ih => rw [List.map_cons, List.zip_cons_cons, ih, List.map_cons]

section

variable {env : Env} {s t : State}

theorem resolved_eq_written (env : Env) (s : State) (name : Handle) (span : Span) :
    (s.resolved env name span).1 = s.ctx.written name := by
  unfold State.resolved Context.written
  cases name.isValid with
  | false => rfl
  | true =>
    simp only [Bool.not_true, Bool.false_eq_true, if_false, if_true]
    cases s.ctx.resolve name with
    | error rejection => rfl
    | ok ty =>
      dsimp only
      rw [Ty.orElse]
      cases ty.isResolved with
      | true => rfl
      | false => cases (s.ctx.typeNamed name).filter (·.kind = .object) <;> rfl

theorem writtenType_ends (env : Env) (s : State) (name : Handle) (span : Span) :
    ∃ t, (writtenType env name span).run s = .ok (s.ctx.written name) t ∧ t.ctx = s.ctx := by
  refine ⟨_, ?_, s.tell_ctx (s.resolved env name span).2⟩
  rw [writtenType_run, resolved_eq_written]

theorem paramTypes_ends (env : Env) (s : State) (node index : Nat) (params : List (Param Node)) :
    ∃ t, (paramTypes env node index params).run s =
      .ok (params.map fun p => s.ctx.written p.declared) t ∧ t.ctx = s.ctx := by
  induction params generalizing s index with
  | nil => exact ⟨s, rfl, rfl⟩
  | cons p rest ih =>
    obtain ⟨t, resolves, kept⟩ := writtenType_ends env s p.declared p.span
    obtain ⟨u, later, same⟩ :=
      ih { t with slots := t.slots.push (.param node index, s.ctx.written p.declared) } (index + 1)
    refine ⟨u, ?_, same.trans kept⟩
    refine run_bind_eq_ok.mpr ⟨_, t, resolves, run_bind_eq_ok.mpr ⟨(), _, rfl, ?_⟩⟩
    refine run_bind_eq_ok.mpr ⟨_, u, later, ?_⟩
    rw [List.map_cons, kept]
    rfl

theorem signature_ends (env : Env) (s : State) (l : Lambda Node) :
    ∃ t, (signature env l).run s = .ok (signatureIn s.ctx l) t ∧ t.ctx = s.ctx := by
  obtain ⟨t, resolve, kept⟩ := paramTypes_ends env s l.site.id 0 l.params
  obtain ⟨u, result, same⟩ := writtenType_ends env t l.declared l.site.span
  refine ⟨u, ?_, same.trans kept⟩
  refine run_bind_eq_ok.mpr ⟨_, t, resolve, run_bind_eq_ok.mpr ⟨_, u, result, ?_⟩⟩
  rw [kept]
  rfl

/-! ### Parameters -/

/-- Checks the default of a parameter; without one the type is unresolved. -/
def defaultType (below : Below) (p : Param Node) : Check Ty :=
  match p.default with
  | some n => below (some n)
  | none => return .unresolved

/-- Checks the body of a lambda; without one the type is nil. -/
def bodyType (below : Below) (l : Lambda Node) : Check Ty :=
  match l.body with
  | some n => body below n
  | none => return .nil

variable {below : Below}

theorem mismatch_guarded_ok {α : Type} {c : Prop} [Decidable c] {span : Span} {what : Text}
    {want got : Ty} {k : Unit → Check α} {a : α}
    (ends : (if c then mismatch env span what want got >>= k else k ()).run s = .ok a t) :
    ∃ u, (k ()).run u = .ok a t ∧ u.ctx = s.ctx := by
  split at ends
  · obtain ⟨_, u, told, rest⟩ := run_bind_eq_ok.mp ends
    cases told
    exact ⟨_, rest, rfl⟩
  · exact ⟨s, ends, rfl⟩

theorem withDefault_ok {what : Text} {written ty : Ty} {p : Param Node}
    (known : written.isResolved ∨ written = .unresolved)
    (ends : (withDefault env below what written p.default).run s = .ok ty t) :
    ∃ other u, (defaultType below p).run s = .ok other u ∧ t.ctx = u.ctx ∧
      ty = written.orElse other := by
  unfold defaultType
  cases default : p.default with
  | none =>
    rw [default] at ends
    cases ends
    refine ⟨.unresolved, s, rfl, rfl, ?_⟩
    rcases known with resolved | rfl
    · rw [Ty.orElse, if_pos resolved]
    · rfl
  | some n =>
    rw [default] at ends
    obtain ⟨other, u, checked, rest⟩ := run_bind_eq_ok.mp ends
    obtain ⟨v, rest, kept⟩ := mismatch_guarded_ok rest
    cases rest
    exact ⟨other, u, checked, kept, rfl⟩

def Declares (name : Handle) (ty : Ty) (w x : State) : Prop :=
  x.ctx = w.ctx.stepOrKeep (.declare name ty) ∧ x.members = w.members

theorem declare_declares {name : Handle} {ty : Ty} {span : Span} {u : Unit}
    (ends : (declare env name ty span).run s = .ok u t) : Declares name ty s t := by
  rw [declare_run, ← State.take_declare] at ends
  cases ends
  exact ⟨State.take_ctx env s (.declare name ty span),
    (State.take_frame env s (.declare name ty span)).members_eq nofun⟩

theorem bindParams_length {node index : Nat} {parts : List (Param Node × Ty)} {args : List Ty}
    (ends : (bindParams env below node index parts).run s = .ok args t) :
    args.length = parts.length := by
  induction parts generalizing index s args with
  | nil =>
    cases ends
    rfl
  | cons part rest ih =>
    obtain ⟨ty, a, -, ends⟩ := run_bind_eq_ok.mp ends
    obtain ⟨-, b, -, ends⟩ := run_bind_eq_ok.mp ends
    obtain ⟨-, c, -, ends⟩ := run_bind_eq_ok.mp ends
    obtain ⟨later, d, bound, ends⟩ := run_bind_eq_ok.mp ends
    cases ends
    rw [List.length_cons, List.length_cons, ih bound]

/-- Each parameter is completed by its default, checked after the parameters before it, and then
declared as completed. -/
theorem bindParams_at (checks : Checks env True below) {node index : Nat}
    {parts : List (Param Node × Ty)} {args : List Ty}
    (ends : (bindParams env below node index parts).run s = .ok args t) {i : Nat} {p : Param Node}
    {written : Ty} (here : parts[i]? = some (p, written))
    (known : written.isResolved ∨ written = .unresolved) :
    ∃ before other after next,
      (bindParams env below node index (parts.take i)).run s = .ok (args.take i) before ∧
      (defaultType below p).run before = .ok other after ∧
      args[i]? = some (written.orElse other) ∧
      next.ctx = after.ctx.stepOrKeep (.declare p.name (written.orElse other)) ∧
      Run env next t := by
  induction parts generalizing index s args i with
  | nil => cases here
  | cons part rest ih =>
    obtain ⟨ty, a, completed, ends⟩ := run_bind_eq_ok.mp ends
    obtain ⟨_, b, annotated, ends⟩ := run_bind_eq_ok.mp ends
    obtain ⟨_, c, declared, ends⟩ := run_bind_eq_ok.mp ends
    obtain ⟨later, d, bound, ends⟩ := run_bind_eq_ok.mp ends
    cases ends
    cases i with
    | zero =>
      cases here
      obtain ⟨other, after, checked, kept, rfl⟩ := withDefault_ok known completed
      cases annotated
      refine ⟨s, other, after, c, rfl, checked, rfl, ?_, ?_⟩
      · rw [(declare_declares declared).1, ← kept]
      · exact (bindParams_follows checks _ _ (.any _)).run_of_ok bound
    | succ i =>
      -- The parameters before it are this one and those that the induction speaks of.
      obtain ⟨before, other, after, next, earlier, rest⟩ := ih bound here
      refine ⟨before, other, after, next, ?_, rest⟩
      refine run_bind_eq_ok.mpr ⟨ty, a, completed, run_bind_eq_ok.mpr ⟨_, b, annotated, ?_⟩⟩
      refine run_bind_eq_ok.mpr ⟨_, c, declared, run_bind_eq_ok.mpr ⟨_, before, earlier, rfl⟩⟩

/-! ### Completed types -/

/-- The annotation of a slot: the one made last. -/
def State.annotated (s : State) (slot : Slot) : Option Ty :=
  s.slots.toList.reverse.lookup slot

theorem annotated_push (slot : Slot) (ty : Ty) :
    { s with slots := s.slots.push (slot, ty) }.annotated slot = some ty := by
  simp [State.annotated]

theorem closeScope_tables {u : Unit} (ends : closeScope.run s = .ok u t) :
    t.ctx.tables = s.ctx.tables := by
  simp only [closeScope, EStateM.run_bind, EStateM.run_get] at ends
  split at ends
  next top ctx closed =>
    cases ends
    rw [(Context.closeScope_ok closed).2]
    rfl
  next => cases ends

theorem lambdaBody_ok {l : Lambda Node} {sig ty : Ty}
    (ends : (lambdaBody env below l sig).run s = .ok ty t) :
    ∃ args inner other last,
      (bindParams env below l.site.id 0 (l.params.zip sig.params)).run s.opened = .ok args inner ∧
      (bodyType below l).run inner = .ok other last ∧
      ty = .lambda (sig.resultType.orElse other) args ∧
      t.annotated (.own l.site.id) = some ty ∧ t.ctx.tables = last.ctx.tables := by
  obtain ⟨_, _, opened, ends⟩ := run_bind_eq_ok.mp ends
  cases opened
  obtain ⟨args, inner, bound, ends⟩ := run_bind_eq_ok.mp ends
  have split : ∃ other last, (bodyType below l).run inner = .ok other last ∧
      (do
        closeScope
        let result := sig.resultType
        if !Ty.compatible result other then
          mismatch env l.site.span (text "return value") result other
        let ty := Ty.lambda (result.orElse other) args
        annotate (.own l.site.id) ty
        record l.site.id ty : Check Ty).run last = .ok ty t := by
    revert ends
    unfold bodyType
    cases l.body with
    | none => exact fun ends => ⟨.nil, inner, rfl, ends⟩
    | some n => exact run_bind_eq_ok.mp
  obtain ⟨other, last, checked, ends⟩ := split
  obtain ⟨_, a, closed, ends⟩ := run_bind_eq_ok.mp ends
  obtain ⟨b, ends, kept⟩ := mismatch_guarded_ok ends
  cases ends
  refine ⟨args, inner, other, last, bound, checked, rfl, annotated_push _ _, ?_⟩
  rw [← closeScope_tables closed, ← kept]

/-- The type is what the lambda is completed to between the states `x` and `y`, if its annotations
were resolved in the state `v`. -/
structure Completes (env : Env) (below : Below) (l : Lambda Node) (v x y : State) (ty : Ty) :
    Prop where
  checked : (lambdaBody env below l (signatureIn v.ctx l)).run x = .ok ty y
  stored : y.annotated (.own l.site.id) = some ty
  isLambda : ty = .lambda ty.resultType ty.params
  count : ty.params.length = l.params.length
  /-- A parameter has the type of its annotation, if that resolved, and else that of its default,
  which is checked after the parameters before it. With this type its name is bound in the scope of
  the lambda, unless it was bound there by then. -/
  param : ∀ i p, l.params[i]? = some p → ∃ before other after arg,
    (bindParams env below l.site.id 0 ((writtenParams v.ctx l).take i)).run x.opened =
      .ok (ty.params.take i) before ∧
    (defaultType below p).run before = .ok other after ∧
    arg = (v.ctx.written p.declared).orElse other ∧ ty.params[i]? = some arg ∧
    y.ctx.tables.inner? (x.ctx.last + 1) p.name =
      some ((after.ctx.tables.inner? (x.ctx.last + 1) p.name).getD
        ⟨x.ctx.last + 1, x.ctx.depth + 1, arg⟩)
  /-- The result has the type of its annotation, if that resolved, and else that of the body. -/
  result : ∃ inner other last,
    (bindParams env below l.site.id 0 (writtenParams v.ctx l)).run x.opened =
      .ok ty.params inner ∧
    (bodyType below l).run inner = .ok other last ∧
    ty.resultType = (v.ctx.written l.declared).orElse other
  refines : ty.Refines (signatureIn v.ctx l)

theorem body_run_of_ok (checks : Checks env True below) {l : Lambda Node} {other : Ty}
    (ends : (bodyType below l).run s = .ok other t) : Run env s t := by
  unfold bodyType at ends
  split at ends
  · exact (body_follows checks (.any _)).run_of_ok ends
  · exact (Follows.pure _).run_of_ok ends

theorem default_run_of_ok (checks : Checks env True below) {p : Param Node} {other : Ty}
    (ends : (defaultType below p).run s = .ok other t) : Run env s t := by
  unfold defaultType at ends
  split at ends
  · exact (checks _ (.any _)).run_of_ok ends
  · exact (Follows.pure _).run_of_ok ends

theorem lambdaBody_completes (checks : Checks env True below) {l : Lambda Node} {v x y : State}
    {ty : Ty} (ends : (lambdaBody env below l (signatureIn v.ctx l)).run x = .ok ty y) :
    Completes env below l v x y ty := by
  obtain ⟨args, inner, other, last, bound, checked, rfl, stored, kept⟩ := lambdaBody_ok ends
  rw [zip_signatureIn] at bound
  have counted : args.length = l.params.length := by
    rw [bindParams_length bound, writtenParams, List.length_map]
  have body : Run env inner last := body_run_of_ok checks checked
  have params (i : Nat) (p : Param Node) (here : l.params[i]? = some p) := by
    have pair : (writtenParams v.ctx l)[i]? = some (p, v.ctx.written p.declared) := by
      rw [writtenParams, List.getElem?_map, here, Option.map_some]
    exact bindParams_at checks bound pair (v.ctx.written_known p.declared)
  exact {
    checked := ends
    stored
    isLambda := rfl
    count := counted
    param := by
      intro i p here
      obtain ⟨before, other, after, next, earlier, completed, given, declared, rest⟩ :=
        params i p here
      refine ⟨before, other, after, _, earlier, completed, rfl, given, ?_⟩
      -- What was checked before the declaration has closed all scopes but that of the lambda, so
      -- the name is declared there; and a binding stays, also when its scope is closed.
      have inside : Run env x.opened after :=
        ((bindParams_follows checks _ _ (.any _)).run_of_ok earlier).trans
          (default_run_of_ok checks completed)
      have current : after.ctx.current = x.ctx.last + 1 := inside.trail.isLocal.current_eq
      have depth : after.ctx.depth = x.ctx.depth + 1 := inside.trail.isLocal.depth_eq
      have deep : after.ctx.depth ≠ 0 := depth ▸ Nat.succ_ne_zero x.ctx.depth
      have named := Context.inner?_stepOrKeep_declare deep p.name
        ((v.ctx.written p.declared).orElse other)
      rw [← declared, current, depth] at named
      rw [kept]
      exact (rest.trans body).trail.extends.inner _ _ _ named
    result := ⟨inner, other, last, bound, checked, rfl⟩
    refines := by
      refine ⟨Ty.allows_orElse (v.ctx.written_known l.declared) other, ?_⟩
      refine List.forall₂_map_left_iff.mpr (List.forall₂_iff_get.mpr ⟨counted.symm, ?_⟩)
      intro i inParams inArgs
      obtain ⟨_, other, _, _, _, _, given, _⟩ := params i _ (List.getElem?_eq_getElem inParams)
      have arg : args.get ⟨i, inArgs⟩ = (v.ctx.written l.params[i].declared).orElse other :=
        (List.getElem_eq_iff _).mpr given
      show Ty.Allows _ (args.get ⟨i, inArgs⟩)
      rw [arg]
      exact Ty.allows_orElse (v.ctx.written_known _) other }

/-! ### Functions, methods and initial lambdas -/

theorem signature_ok {l : Lambda Node} {sig : Ty}
    (ends : (signature env l).run s = .ok sig t) :
    sig = signatureIn s.ctx l ∧ t.ctx = s.ctx := by
  obtain ⟨u, signed, kept⟩ := signature_ends env s l
  cases signed.symm.trans ends
  exact ⟨rfl, kept⟩

theorem lambda_completes (checks : Checks env True below) {l : Lambda Node} {ty : Ty}
    (ends : (lambda env below l).run s = .ok ty t) :
    ∃ x, (signature env l).run s = .ok (signatureIn s.ctx l) x ∧
      Completes env below l s x t ty := by
  obtain ⟨sig, x, signed, ends⟩ := run_bind_eq_ok.mp ends
  obtain ⟨rfl, -⟩ := signature_ok signed
  exact ⟨x, signed, lambdaBody_completes checks ends⟩

theorem function_completes (checks : Checks env True below) {f : Function Node} {l : Lambda Node}
    (body : f.lambda = some l) {ty : Ty} (ends : (function env below f).run s = .ok ty t) :
    ∃ w x, (signature env l).run s = .ok (signatureIn s.ctx l) w ∧
      Declares f.name (signatureIn s.ctx l) w x ∧ Completes env below l s x t ty := by
  rw [function, body] at ends
  obtain ⟨sig, w, signed, ends⟩ := run_bind_eq_ok.mp ends
  obtain ⟨rfl, -⟩ := signature_ok signed
  obtain ⟨_, x, declared, ends⟩ := run_bind_eq_ok.mp ends
  exact ⟨w, x, signed, declare_declares declared, lambdaBody_completes checks ends⟩

/-- Between the states, a method becomes a member of its class with the signature and is declared
with it, unless the class has a member of that name. -/
def BindsMethod (owner : Handle) (m : Function Node) (sig : Ty) (w x : State) : Prop :=
  match w.memberOf owner m.name with
  | none => Declares m.name sig (w.withMember owner m.name sig) x
  | some _ => x.ctx = w.ctx ∧ x.members = w.members

theorem bindMethods_cons_ok {owner : Handle} {m : Function Node} {rest : List (Function Node)}
    {l : Lambda Node} (body : m.lambda = some l) {lambdas : List (Lambda Node × Ty)}
    (ends : (bindMethods env owner (m :: rest)).run s = .ok lambdas t) :
    ∃ w x later, (signature env l).run s = .ok (signatureIn s.ctx l) w ∧
      BindsMethod owner m (signatureIn s.ctx l) w x ∧ Run env s x ∧
      (bindMethods env owner rest).run x = .ok later t ∧
      lambdas = (l, signatureIn s.ctx l) :: later := by
  rw [bindMethods, body] at ends
  obtain ⟨sig, w, signed, ends⟩ := run_bind_eq_ok.mp ends
  obtain ⟨rfl, -⟩ := signature_ok signed
  have signs : Run env s w := (signature_follows l).run_of_ok signed
  obtain ⟨added, b, tried, ends⟩ := run_bind_eq_ok.mp ends
  have adds : Run env w b := (addMember_follows _ _ _ _).run_of_ok tried
  rw [addMember_run] at tried
  cases taken : w.memberOf owner m.name with
  | none =>
    rw [taken] at tried
    cases tried
    obtain ⟨_, x, declared, ends⟩ := run_bind_eq_ok.mp ends
    obtain ⟨later, u, bound, ends⟩ := run_bind_eq_ok.mp ends
    cases ends
    refine ⟨w, x, later, signed, ?_, ?_, bound, rfl⟩
    · rw [BindsMethod, taken]
      exact declare_declares declared
    · exact (signs.trans adds).trans
        ((declare_follows _ _ _).run_of_ok declared)
  | some ty =>
    rw [taken] at tried
    cases tried
    obtain ⟨later, u, bound, ends⟩ := run_bind_eq_ok.mp ends
    cases ends
    refine ⟨w, _, later, signed, ?_, signs.trans adds, bound, rfl⟩
    rw [BindsMethod, taken]
    exact ⟨rfl, rfl⟩

theorem bindMethods_ok {owner : Handle} {methods : List (Function Node)}
    {lambdas : List (Lambda Node × Ty)}
    (ends : (bindMethods env owner methods).run s = .ok lambdas t) :
    ∀ m ∈ methods, ∀ l, m.lambda = some l → ∃ v w x, Run env s v ∧
      (signature env l).run v = .ok (signatureIn v.ctx l) w ∧
      BindsMethod owner m (signatureIn v.ctx l) w x ∧ Run env x t ∧
      (l, signatureIn v.ctx l) ∈ lambdas := by
  induction methods generalizing s lambdas with
  | nil => exact fun _ member => absurd member List.not_mem_nil
  | cons first rest ih =>
    cases body : first.lambda with
    | none =>
      rw [bindMethods, body] at ends
      obtain ⟨_, a, told, ends⟩ := run_bind_eq_ok.mp ends
      have step : Run env s a :=
        (report_follows _ (.inl (by decide))).run_of_ok told
      rintro m (_ | ⟨_, member⟩) l present
      · rw [body] at present
        cases present
      · obtain ⟨v, w, x, before, others⟩ := ih ends m member l present
        exact ⟨v, w, x, step.trans before, others⟩
    | some l₀ =>
      obtain ⟨w₀, x₀, later, signed₀, binds₀, step, others, rfl⟩ := bindMethods_cons_ok body ends
      rintro m (_ | ⟨_, member⟩) l present
      · cases body.symm.trans present
        have after : Run env x₀ t :=
          ((bindMethods_leads owner rest x₀).of_ok others).1
        exact ⟨s, w₀, x₀, .refl s, signed₀, binds₀, after, List.mem_cons_self⟩
      · obtain ⟨v, w, x, before, signed, binds, after, among⟩ := ih others m member l present
        exact ⟨v, w, x, step.trans before, signed, binds, after, List.mem_cons_of_mem _ among⟩

/-- Between the states, a class is checked with the initial lambdas and methods in a scope of its
own: each of them is completed there, a method some time after it was bound. -/
def CompletesMembers (env : Env) (below : Below) (c : Class Node) (s t : State) : Prop :=
  ∃ a z, Run env s a ∧ closeScope.run z = .ok () t ∧
    (∀ l ∈ c.init, ∃ v x y ty, Run env a.opened v ∧
      (signature env l).run v = .ok (signatureIn v.ctx l) x ∧
      Completes env below l v x y ty ∧ Run env y z) ∧
    ∀ m ∈ c.methods, ∀ l, m.lambda = some l → ∃ v w bound x y ty, Run env a.opened v ∧
      (signature env l).run v = .ok (signatureIn v.ctx l) w ∧
      BindsMethod c.name m (signatureIn v.ctx l) w bound ∧ Run env bound x ∧
      Completes env below l v x y ty ∧ Run env y z

theorem cls_completes (checks : Checks env True below) {site : Site} {c : Class Node} {ty : Ty}
    (ends : (cls env below site c).run s = .ok ty t) : CompletesMembers env below c s t := by
  obtain ⟨supers, s₁, above, ends⟩ := run_bind_eq_ok.mp ends
  obtain ⟨_, s₂, annotated, ends⟩ := run_bind_eq_ok.mp ends
  obtain ⟨_, s₃, registered, ends⟩ := run_bind_eq_ok.mp ends
  obtain ⟨types, a, members, ends⟩ := run_bind_eq_ok.mp ends
  have before : Run env s a :=
    (((superTypes_follow site c.name c.supers).run_of_ok above).trans
      ((annotate_follows _ _).run_of_ok annotated)).trans
        (((registerType_follows _ _ _).run_of_ok registered).trans
          ((fields_follow checks _ _ _ (.any _)).run_of_ok members))
  -- From here on the scope of the class is open.
  obtain ⟨_, _, opened, ends⟩ := run_bind_eq_ok.mp ends
  cases opened
  obtain ⟨_, s₅, fieldsBound, ends⟩ := run_bind_eq_ok.mp ends
  obtain ⟨lambdas, s₆, methodsBound, ends⟩ := run_bind_eq_ok.mp ends
  obtain ⟨_, s₇, initial, ends⟩ := run_bind_eq_ok.mp ends
  obtain ⟨_, s₈, bodies, ends⟩ := run_bind_eq_ok.mp ends
  obtain ⟨_, z, hooks, ends⟩ := run_bind_eq_ok.mp ends
  obtain ⟨_, u, closed, ends⟩ := run_bind_eq_ok.mp ends
  cases ends
  have start : Run env a.opened s₅ :=
    (bindFields_follow [] _).run_of_ok fieldsBound
  have bound : Run env s₅ s₆ :=
    ((bindMethods_leads c.name c.methods s₅).of_ok methodsBound).1
  have eachInit (l : Lambda Node) (_ : l ∈ c.init) :
      Follows env True (discard (lambda env below l)) :=
    (lambda_follows checks (.any _)).discard
  have eachBody (part : Lambda Node × Ty) (_ : part ∈ lambdas) :
      Follows env True (discard (lambdaBody env below part.1 part.2)) :=
    (lambdaBody_follows checks part.2 (.any _)).discard
  have eachHook (hook : Option Node) (_ : hook ∈ [c.preInit, c.postInit, c.final, c.validate]) :
      Follows env True (discard (block below hook)) :=
    (block_follows checks (.any _)).discard
  have last : Run env s₈ z := (Follows.forM eachHook).run_of_ok hooks
  refine ⟨a, z, before, closed, ?_, ?_⟩
  · intro l member
    obtain ⟨v, y, earlier, checked, later⟩ := Follows.forM_visits eachInit initial l member
    obtain ⟨ty, w, checked, rest⟩ := run_bind_eq_ok.mp checked
    cases rest
    obtain ⟨x, signed, completes⟩ := lambda_completes checks checked
    have toEnd : Run env s₇ z := ((Follows.forM eachBody).run_of_ok bodies).trans last
    exact ⟨v, x, y, ty, (start.trans bound).trans earlier, signed, completes, later.trans toEnd⟩
  · intro m member l body
    obtain ⟨v, w, b, earlier, signed, binds, after, among⟩ :=
      bindMethods_ok methodsBound m member l body
    obtain ⟨x, y, ready, checked, later⟩ := Follows.forM_visits eachBody bodies _ among
    obtain ⟨ty, _, checked, rest⟩ := run_bind_eq_ok.mp checked
    cases rest
    have between : Run env s₆ s₇ := (Follows.forM eachInit).run_of_ok initial
    exact ⟨v, w, b, x, y, ty, start.trans earlier, signed, binds,
      (after.trans between).trans ready, lambdaBody_completes checks checked, later.trans last⟩

/-- In every state and at every depth: a lambda, the lambda of a function, and the initial lambdas
and methods of a class are completed to the types of their annotations, with the gaps filled by
defaults and bodies, unless the check stops at an absent node. The completed type refines the
signature that a function or method was bound with before any body was checked. -/
theorem completed_types_refine_signatures (env : Env) (depth : Nat) (s : State) :
    let below := expr env depth
    (∀ l, (∀ t, (lambda env below l).run s ≠ .error .absent t) →
      ∃ x ty u, (lambda env below l).run s = .ok ty u ∧
        (signature env l).run s = .ok (signatureIn s.ctx l) x ∧
        Completes env below l s x u ty) ∧
    (∀ f l, f.lambda = some l → (∀ t, (function env below f).run s ≠ .error .absent t) →
      ∃ w x ty u, (function env below f).run s = .ok ty u ∧
        (signature env l).run s = .ok (signatureIn s.ctx l) w ∧
        Declares f.name (signatureIn s.ctx l) w x ∧ Completes env below l s x u ty) ∧
    ∀ site c, (∀ t, (cls env below site c).run s ≠ .error .absent t) →
      ∃ ty u, (cls env below site c).run s = .ok ty u ∧ CompletesMembers env below c s u := by
  intro below
  have checks : Checks env True below := expr_checks env True depth
  refine ⟨?_, ?_, ?_⟩
  · intro l present
    obtain ⟨ty, u, ends, -⟩ := (lambda_follows checks (.any _) s).result_of_present present
    obtain ⟨x, signed, completes⟩ := lambda_completes checks ends
    exact ⟨x, ty, u, ends, signed, completes⟩
  · intro f l body present
    obtain ⟨ty, u, ends, -⟩ := (function_follows checks (.any _) s).result_of_present present
    obtain ⟨w, x, signed, declares, completes⟩ := function_completes checks body ends
    exact ⟨w, x, ty, u, ends, signed, declares, completes⟩
  · intro site c present
    obtain ⟨ty, u, ends, -⟩ := (cls_follows checks site (.any _) s).result_of_present present
    exact ⟨ty, u, ends, cls_completes checks ends⟩

end

section Example

def siteOn (line : Nat) : Site :=
  ⟨line, 1, line, 3⟩

/-- A lambda with two parameters, of which the first is annotated and the second has a default, and
with the first for its body. -/
def choosing : Lambda Node where
  site := siteOn 1
  modifiers := []
  params := [⟨⟨1, 1, 3⟩, 15, false, none, false, false, .int⟩,
    ⟨⟨1, 1, 5⟩, 16, false, some (.boolean (siteOn 2) true), false, false, .none⟩]
  body := some (.ident (siteOn 3) 15)
  declared := .none

/-- A class with the lambda for an initial lambda and for a method. -/
def choosingClass : Class Node where
  name := 14
  supers := []
  params := []
  fields := []
  init := [choosing]
  methods := [⟨siteOn 4, 17, some choosing⟩]
  preInit := none
  postInit := none
  final := none
  validate := none

def comesToEnd {α : Type} (x : Check α) (s : State) : Bool :=
  match x.run s with
  | .ok _ _ => true
  | .error _ _ => false

theorem present_of_end {α : Type} {x : Check α} {s : State} (ends : comesToEnd x s = true) :
    ∀ t, x.run s ≠ .error .absent t := by
  intro t stopped
  rw [comesToEnd, stopped] at ends
  cases ends

theorem choosing_is_completed :
    let env : Env := ⟨.fresh, ⟨true, true⟩⟩
    let below := expr env 2
    let s : State := .start .fresh
    let f : Function Node := ⟨siteOn 4, 17, some choosing⟩
    ((∀ t, (lambda env below choosing).run s ≠ .error .absent t) ∧
      ∃ x ty u, (lambda env below choosing).run s = .ok ty u ∧
        (signature env choosing).run s = .ok (signatureIn s.ctx choosing) x ∧
        Completes env below choosing s x u ty) ∧
    (f.lambda = some choosing ∧ (∀ t, (function env below f).run s ≠ .error .absent t) ∧
      ∃ w x ty u, (function env below f).run s = .ok ty u ∧
        (signature env choosing).run s = .ok (signatureIn s.ctx choosing) w ∧
        Declares f.name (signatureIn s.ctx choosing) w x ∧
        Completes env below choosing s x u ty) ∧
    (∀ t, (cls env below (siteOn 5) choosingClass).run s ≠ .error .absent t) ∧
      ∃ ty u, (cls env below (siteOn 5) choosingClass).run s = .ok ty u ∧
        CompletesMembers env below choosingClass s u := by
  intro env below s f
  have completed := completed_types_refine_signatures env 2 s
  have ofLambda := present_of_end
    (by decide +kernel : comesToEnd (lambda env below choosing) s = true)
  have ofFunction := present_of_end (by decide +kernel : comesToEnd (function env below f) s = true)
  have ofClass := present_of_end
    (by decide +kernel : comesToEnd (cls env below (siteOn 5) choosingClass) s = true)
  exact ⟨⟨ofLambda, completed.1 choosing ofLambda⟩,
    ⟨rfl, ofFunction, completed.2.1 f choosing rfl ofFunction⟩,
    ofClass, completed.2.2 (siteOn 5) choosingClass ofClass⟩

end Example

end Check

end TreeCheck
