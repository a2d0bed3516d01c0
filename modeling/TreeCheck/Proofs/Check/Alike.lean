import TreeCheck.Proofs.Check.Moves
import TreeCheck.Proofs.Check.Twin
import TreeCheck.Proofs.Context.Alike
import TreeCheck.Proofs.Diagnostic.Alike

/-!
Two checks under different interners. If the handles of the two trees stand for the same names, the
checks go through states that are alike: the same is bound, registered, recorded and said, up to
handles and positions.
-/

namespace TreeCheck.Check

structure State.Alike (l : Likeness) (s t : State) : Prop where
  ctx : s.ctx.Alike l t.ctx
  members : Table.Alike l.handle (Table.Alike l.handle (Ty.Alike l)) s.members t.members
  declared : List.Forall₂
    (fun a b => a.1.1 = b.1.1 ∧ l.handle a.1.2 b.1.2 ∧ l.span a.2 b.2) s.declared t.declared
  defined : Table.Alike l.handle l.span s.defined t.defined
  types : List.Forall₂ (fun a b => a.1 = b.1 ∧ Ty.Alike l a.2 b.2) s.types.toList t.types.toList
  slots : List.Forall₂ (fun a b => a.1 = b.1 ∧ Ty.Alike l a.2 b.2) s.slots.toList t.slots.toList
  emitted : List.Forall₂ (Diagnostic.Alike l) s.emitted.toList t.emitted.toList

variable {l : Likeness} {names names' : Interner} {o : Options} {s t : State}

theorem State.Alike.start {c d : Context} (alike : c.Alike l d) :
    State.Alike l (.start c) (.start d) :=
  ⟨alike, .empty, .nil, .empty, .nil, .nil, .nil⟩

theorem State.Alike.emit (alike : s.Alike l t) {d e : Diagnostic} (told : d.Alike l e) :
    (s.emit d).Alike l (t.emit e) :=
  { alike with emitted := push_alike alike.emitted told }

theorem State.Alike.tell (alike : s.Alike l t) {x y : Option Diagnostic}
    (told : Option.Rel (Diagnostic.Alike l) x y) : (s.tell x).Alike l (t.tell y) := by
  cases told with
  | none => exact alike
  | some d => exact alike.emit d

theorem noteAt_alike {d e : Diagnostic} (alike : d.Alike l e) {x y : Option Span}
    (place : Option.Rel l.span x y) (message : String) :
    (noteAt d x message).Alike l (noteAt e y message) := by
  cases place with
  | none => exact alike
  | some known => exact alike.withNote (.inl known) rfl

section

variable (consistent : l.Consistent names names')
include consistent

theorem lookup_alike {xs ys : List ((Nat × Handle) × Span)}
    (declared : List.Forall₂
      (fun a b => a.1.1 = b.1.1 ∧ l.handle a.1.2 b.1.2 ∧ l.span a.2 b.2) xs ys)
    (scope : Nat) {h k : Handle} (same : l.handle h k) :
    Option.Rel l.span (xs.lookup (scope, h)) (ys.lookup (scope, k)) := by
  induction declared with
  | nil => exact .none
  | @cons x y _ _ first _ ih =>
    obtain ⟨⟨scope', h'⟩, place⟩ := x
    obtain ⟨⟨_, k'⟩, place'⟩ := y
    obtain ⟨rfl, named, placed⟩ := first
    have key : ((scope, h) == (scope', h')) = ((scope, k) == (scope', k')) := by
      rw [Bool.eq_iff_iff, beq_iff_eq, beq_iff_eq, Prod.mk.injEq, Prod.mk.injEq,
        consistent.unique same named]
    rw [List.lookup_cons, List.lookup_cons, key]
    dsimp only
    cases (scope, k) == (scope', k') with
    | true => exact .some placed
    | false => exact ih

variable (alike : s.Alike l t) {h k : Handle} (same : l.handle h k) {p q : Span}
  (place : l.span p q)
include alike same

theorem State.Alike.declaredAt (scope : Nat) :
    Option.Rel l.span (s.declaredAt scope h) (t.declaredAt scope k) :=
  lookup_alike consistent alike.declared scope same

theorem State.Alike.definedAt : Option.Rel l.span (s.defined.find? h) (t.defined.find? k) :=
  alike.defined.find? consistent.unique same

theorem State.Alike.memberOf {g m : Handle} (owner : l.handle g m) :
    Option.Rel (Ty.Alike l) (s.memberOf g h) (t.memberOf m k) := by
  have table := alike.members.find? consistent.unique owner
  unfold State.memberOf
  generalize s.members.find? g = x at table
  generalize t.members.find? m = y at table
  cases table with
  | none => exact .none
  | some inner => exact inner.find? consistent.unique same

theorem State.Alike.member {a b : Ty} (ty : Ty.Alike l a b) :
    Option.Rel (Ty.Alike l) (s.member a h) (t.member b k) := by
  have supers : Option.Rel (Ty.Alike l)
      (a.supers.findSome? fun super => s.memberOf super.objectName h)
      (b.supers.findSome? fun super => t.memberOf super.objectName k) := by
    have all := ty.supers
    generalize a.supers = xs at all
    generalize b.supers = ys at all
    induction all with
    | nil => exact .none
    | cons first _ ih =>
      have here := alike.memberOf consistent same (first.objectName consistent)
      rw [List.findSome?_cons, List.findSome?_cons]
      generalize s.memberOf _ h = x at here
      generalize t.memberOf _ k = y at here
      cases here with
      | none => exact ih
      | some found => exact .some found
  have own := alike.memberOf consistent same (ty.objectName consistent)
  unfold State.member
  generalize s.memberOf a.objectName h = x at own
  generalize t.memberOf b.objectName k = y at own
  cases own with
  | none => exact supers
  | some found => exact .some found

theorem State.Alike.objectNamed :
    Option.Rel (Ty.Alike l) ((s.ctx.typeNamed h).filter (·.kind = .object))
      ((t.ctx.typeNamed k).filter (·.kind = .object)) := by
  have named := alike.ctx.typeNamed consistent same
  generalize s.ctx.typeNamed h = x at named
  generalize t.ctx.typeNamed k = y at named
  cases named with
  | none => exact .none
  | some found =>
    rw [Option.filter_some, Option.filter_some, found.kind_eq]
    split
    · exact .some found
    · exact .none

include place

theorem warningFor_alike : Option.Rel (Diagnostic.Alike l) (warningFor ⟨names, o⟩ s h p)
    (warningFor ⟨names', o⟩ t k q) := by
  have name : Env.name ⟨names, o⟩ h = Env.name ⟨names', o⟩ k := consistent.display same
  have known : (s.ctx.globals.find? h).isSome = (t.ctx.globals.find? k).isSome := by
    have global := alike.ctx.global? consistent same
    generalize s.ctx.globals.find? h = x at global
    generalize t.ctx.globals.find? k = y at global
    cases global <;> rfl
  have bound := alike.ctx.lookup consistent same
  unfold warningFor
  rw [alike.ctx.depth_eq, known, name, ← alike.ctx.current_eq]
  split
  · split
    · exact .some (noteAt_alike (.warning _ place rfl) (alike.declaredAt consistent same _) _)
    · exact .none
  split
  · generalize s.ctx.lookup h = x at bound
    generalize t.ctx.lookup k = y at bound
    cases bound with
    | none => exact .none
    | some outer =>
      dsimp only
      rw [outer.scope_eq]
      split
      · exact .none
      · exact .some (noteAt_alike (.warning _ place rfl) (alike.declaredAt consistent same _) _)
  · exact .none

theorem State.Alike.binding {a b : Ty} (ty : Ty.Alike l a b) :
    (s.binding ⟨names, o⟩ h a p).Alike l (t.binding ⟨names', o⟩ k b q) := by
  have decided := alike.ctx.declare consistent same ty
  unfold State.binding
  generalize s.ctx.declare h a = x at decided
  generalize t.ctx.declare k b = y at decided
  cases decided with
  | ok ctx =>
    exact { alike with
      ctx
      declared := .cons ⟨alike.ctx.current_eq, same, place⟩ alike.declared }
  | error rejected =>
    refine alike.emit (noteAt_alike (.error _ place (rejected.message_eq consistent)) ?_ _)
    rw [← alike.ctx.current_eq]
    exact alike.declaredAt consistent same _

theorem State.Alike.registering {a b : Ty} (ty : Ty.Alike l a b) :
    (s.registering ⟨names, o⟩ h a p).Alike l (t.registering ⟨names', o⟩ k b q) := by
  have decided := alike.ctx.register consistent same ty
  unfold State.registering
  generalize s.ctx.register h a = x at decided
  generalize t.ctx.register k b = y at decided
  cases decided with
  | ok ctx =>
    exact { alike with
      ctx
      defined := alike.defined.insert consistent.unique same place }
  | error rejected =>
    refine alike.emit ?_
    have message := rejected.message_eq consistent
    have redefinition := Diagnostic.Alike.error .typeRedefined place message
    have first := alike.definedAt consistent same
    unfold redefined
    generalize s.defined.find? h = x at first
    generalize t.defined.find? k = y at first
    cases first with
    | some known => exact redefinition.withNote (.inl known) rfl
    | none =>
      refine redefinition.withNote (.inr ⟨rfl, rfl⟩) ?_
      exact congrArg (· ++ text " is a built-in type") (consistent.display same)

theorem unresolvedObject_alike : (unresolvedObject ⟨names, o⟩ s h p).Alike l
    (unresolvedObject ⟨names', o⟩ t k q) := by
  have name : Env.name ⟨names, o⟩ h = Env.name ⟨names', o⟩ k := consistent.display same
  have first := alike.definedAt consistent same
  unfold unresolvedObject
  rw [name]
  refine .withNote (.warning _ place rfl) ?_ rfl
  generalize s.defined.find? h = x at first
  generalize t.defined.find? k = y at first
  cases first with
  | some known => exact .inl known
  | none => exact .inr ⟨rfl, rfl⟩

omit alike same in
theorem unresolvable_alike {r r' : Context.Rejection} (rejected : r.Alike l r') :
    (unresolvable ⟨names, o⟩ p r).Alike l (unresolvable ⟨names', o⟩ q r') := by
  have message := rejected.message_eq consistent
  cases rejected <;> exact .error _ place message

theorem State.Alike.resolved :
    Ty.Alike l (s.resolved ⟨names, o⟩ h p).1 (t.resolved ⟨names', o⟩ k q).1 ∧
      Option.Rel (Diagnostic.Alike l) (s.resolved ⟨names, o⟩ h p).2
        (t.resolved ⟨names', o⟩ k q).2 := by
  have decided := alike.ctx.resolve consistent same
  have object := alike.objectNamed consistent same
  have unknown : text "unknown type " ++ Env.name ⟨names, o⟩ h =
      text "unknown type " ++ Env.name ⟨names', o⟩ k := congrArg _ (consistent.display same)
  unfold State.resolved
  rw [consistent.isValid same]
  split
  · exact ⟨.ofKind _, .none⟩
  generalize s.ctx.resolve h = x at decided
  generalize t.ctx.resolve k = y at decided
  cases decided with
  | error rejected => exact ⟨.ofKind _, .some (unresolvable_alike consistent place rejected)⟩
  | ok ty =>
    dsimp only
    rw [ty.isResolved_eq]
    split
    · exact ⟨ty, .none⟩
    generalize (s.ctx.typeNamed h).filter (·.kind = .object) = x at object
    generalize (t.ctx.typeNamed k).filter (·.kind = .object) = y at object
    cases object with
    | some _ => exact ⟨.ofKind _, .some (unresolvedObject_alike consistent alike same place)⟩
    | none => exact ⟨.ofKind _, .some (.error _ place unknown)⟩

end

/-- Under interners of which the handles stand for the same names, every step keeps the states
alike. -/
theorem alike_steps (consistent : l.Consistent names names') (o : Options) :
    Steps l ⟨names, o⟩ ⟨names', o⟩ (State.Alike l) where
  consistent := consistent
  record id a b ty := fun s t alike =>
    .ok ty { alike with types := push_alike alike.types ⟨rfl, ty⟩ }
  annotate slot a b ty := fun s t alike =>
    .ok trivial { alike with slots := push_alike alike.slots ⟨rfl, ty⟩ }
  report message _ place := fun s t alike => .ok trivial (alike.emit (.error _ place rfl))
  absent := fun s t alike => .error .absent alike
  openScope := fun s t alike => .ok trivial { alike with ctx := alike.ctx.openScope }
  closeScope := by
    intro s t alike
    have decided := alike.ctx.closeScope
    simp only [closeScope, EStateM.run_bind, EStateM.run_get]
    rw [alike.ctx.last_eq]
    generalize s.ctx.closeScope = x at decided
    generalize t.ctx.closeScope = y at decided
    cases decided with
    | ok closed => exact .ok trivial { alike with ctx := closed }
    | error => exact .error _ alike
  lookup same := fun s t alike => by
    refine .ok ?_ alike
    have bound := alike.ctx.lookup consistent same
    generalize s.ctx.lookup _ = x at bound
    generalize t.ctx.lookup _ = y at bound
    cases bound with
    | none => exact .none
    | some symbol => exact .some symbol.ty
  objectNamed same := fun s t alike => .ok (alike.objectNamed consistent same) alike
  member ty same := fun s t alike => .ok (alike.member consistent same ty) alike
  declare same ty place := by
    intro s t alike
    rw [declare_run, declare_run]
    have warned := alike.tell (warningFor_alike (o := o) consistent alike same place)
    exact .ok trivial (warned.binding consistent same place ty)
  registerType same ty place := by
    intro s t alike
    rw [registerType_run, registerType_run]
    exact .ok trivial (alike.registering consistent same place ty)
  resolve same place := by
    intro s t alike
    rw [writtenType_run, writtenType_run]
    obtain ⟨ty, told⟩ := alike.resolved consistent same place
    exact .ok ty (alike.tell told)
  addMember owner same ty place := by
    intro s t alike
    rw [addMember_run, addMember_run]
    have found := alike.memberOf consistent same owner
    generalize s.memberOf _ _ = x at found
    generalize t.memberOf _ _ = y at found
    cases found with
    | some _ =>
      refine .ok rfl (alike.emit (.error _ place ?_))
      rw [Env.name, Env.name, Env.name, Env.name, consistent.display owner, consistent.display same]
    | none =>
      have table := Table.Alike.getD (alike.members.find? consistent.unique owner)
      exact .ok rfl { alike with
        members := alike.members.insert consistent.unique owner
          (table.insert consistent.unique same ty) }

end TreeCheck.Check
