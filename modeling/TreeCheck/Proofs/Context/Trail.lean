import TreeCheck.Proofs.Context.Sound

/-!
Well-bracketed histories of a context: declarations, registrations, and scopes that are opened,
lived in and closed again. Such a history gives back the stack it found. It may write into the
current scope, but whatever happens inside a scope of its own stays there: nothing that was
allocated before is touched, and every name means what it meant.
-/

namespace TreeCheck.Context

variable {ctx mid next : Context}

/-- Accepted operations in which every opened scope is closed again. -/
inductive Trail : Context → Context → Prop
  | refl (ctx : Context) : Trail ctx ctx
  | trans {ctx mid next : Context} (first : Trail ctx mid) (second : Trail mid next) :
      Trail ctx next
  | declare {ctx next : Context} {name : Handle} {ty : Ty}
      (declared : ctx.declare name ty = .ok next) : Trail ctx next
  | register {ctx next : Context} {name : Handle} {ty : Ty}
      (registered : ctx.register name ty = .ok next) : Trail ctx next
  | scope {ctx mid next : Context} {top : Nat} (inner : Trail ctx.openScope mid)
      (closed : mid.closeScope = .ok (top, next)) : Trail ctx next

/-- Everything happened inside one scope that was opened for it and closed behind it, or nothing
happened at all. -/
def Enclosed (ctx next : Context) : Prop :=
  next = ctx ∨ ∃ mid top, Trail ctx.openScope mid ∧ mid.closeScope = .ok (top, next)

theorem Enclosed.trail (enclosed : ctx.Enclosed next) : Trail ctx next := by
  rcases enclosed with rfl | ⟨mid, top, inner, closed⟩
  · exact .refl _
  · exact .scope inner closed

/-- Only the current scope is written to, and no open scope is left or lost. -/
structure Local (ctx next : Context) : Prop where
  active_eq : next.active = ctx.active
  depth_eq : next.depth = ctx.depth
  last_le : ctx.last ≤ next.last
  tables_eq : ∀ scope, scope ≤ ctx.last → scope ≠ ctx.current →
    next.scopes.find? scope = ctx.scopes.find? scope
  globals_eq : ctx.depth ≠ 0 → next.globals = ctx.globals

/-- Not even the current scope is written to. -/
structure Hygienic (ctx next : Context) : Prop where
  active_eq : next.active = ctx.active
  depth_eq : next.depth = ctx.depth
  last_le : ctx.last ≤ next.last
  tables_eq : ∀ scope, scope ≤ ctx.last → next.scopes.find? scope = ctx.scopes.find? scope
  globals_eq : next.globals = ctx.globals

namespace Local

theorem refl (ctx : Context) : Local ctx ctx :=
  ⟨rfl, rfl, Nat.le_refl _, fun _ _ _ => rfl, fun _ => rfl⟩

theorem current_eq (kept : Local ctx next) : next.current = ctx.current := by
  rw [current, current, kept.active_eq]

theorem trans (first : Local ctx mid) (second : Local mid next) : Local ctx next where
  active_eq := second.active_eq.trans first.active_eq
  depth_eq := second.depth_eq.trans first.depth_eq
  last_le := Nat.le_trans first.last_le second.last_le
  tables_eq := by
    intro scope allocated other
    rw [second.tables_eq scope (Nat.le_trans allocated first.last_le) (first.current_eq ▸ other)]
    exact first.tables_eq scope allocated other
  globals_eq := by
    intro inside
    rw [second.globals_eq (first.depth_eq ▸ inside), first.globals_eq inside]

theorem of_declare {name : Handle} {ty : Ty} (declared : ctx.declare name ty = .ok next) :
    Local ctx next := by
  rcases declare_ok declared with ⟨global, rfl⟩ | ⟨inside, _, rfl⟩
  · exact ⟨rfl, rfl, Nat.le_refl _, fun _ _ _ => rfl, fun inside => absurd global inside⟩
  · refine ⟨rfl, rfl, Nat.le_refl _, fun scope _ other => ?_, fun _ => rfl⟩
    rw [Table.find?_insert, if_neg other]

theorem of_register {name : Handle} {ty : Ty} (registered : ctx.register name ty = .ok next) :
    Local ctx next := by
  obtain ⟨_, rfl⟩ := register_ok registered
  exact ⟨rfl, rfl, Nat.le_refl _, fun _ _ _ => rfl, fun _ => rfl⟩

/-- What is local to a new scope is invisible from outside once the scope is closed: the new scope
is the only one of the allocated scopes that could have been written to. -/
theorem hygienic (inner : Local ctx.openScope mid) {top : Nat}
    (closed : mid.closeScope = .ok (top, next)) : Hygienic ctx next := by
  obtain ⟨stack, shape⟩ := closeScope_ok closed
  have stacked : (ctx.last + 1) :: ctx.active = top :: next.active := by
    rw [← stack]
    exact inner.active_eq.symm
  have current_eq : ctx.openScope.current = ctx.last + 1 := rfl
  rw [shape]
  exact {
    active_eq := ((List.cons.inj stacked).2).symm
    depth_eq := by
      show mid.depth - 1 = ctx.depth
      rw [inner.depth_eq]
      rfl
    last_le := Nat.le_of_succ_le inner.last_le
    tables_eq := by
      intro scope allocated
      have older : scope ≠ ctx.openScope.current := by
        rw [current_eq]
        exact Nat.ne_of_lt (Nat.lt_succ_of_le allocated)
      exact inner.tables_eq scope (Nat.le_succ_of_le allocated) older
    globals_eq := inner.globals_eq (Nat.succ_ne_zero _) }

end Local

namespace Hygienic

theorem refl (ctx : Context) : Hygienic ctx ctx :=
  ⟨rfl, rfl, Nat.le_refl _, fun _ _ => rfl, rfl⟩

theorem isLocal (clean : Hygienic ctx next) : Local ctx next where
  active_eq := clean.active_eq
  depth_eq := clean.depth_eq
  last_le := clean.last_le
  tables_eq := fun scope allocated _ => clean.tables_eq scope allocated
  globals_eq := fun _ => clean.globals_eq

theorem lookupIn_eq {before after : Table Bindings} {active : List Nat}
    (same : ∀ scope ∈ active, after.find? scope = before.find? scope) (name : Handle) :
    lookupIn after name active = lookupIn before name active := by
  induction active with
  | nil => rfl
  | cons top rest ih =>
    rw [lookupIn, lookupIn, same top List.mem_cons_self,
      ih fun scope member => same scope (List.mem_cons_of_mem _ member)]

theorem lookup_eq (clean : Hygienic ctx next) (sound : ctx.Sound) (name : Handle) :
    next.lookup name = ctx.lookup name := by
  have inner : lookupIn next.scopes name next.active = lookupIn ctx.scopes name ctx.active := by
    rw [clean.active_eq]
    exact lookupIn_eq (fun scope member =>
      clean.tables_eq scope (sound.active_range scope member).2) name
  rw [Context.lookup, Context.lookup, inner, clean.globals_eq]

theorem bindingsOf_eq (clean : Hygienic ctx next) {scope : Nat} (allocated : scope ≤ ctx.last) :
    next.bindingsOf scope = ctx.bindingsOf scope := by
  rw [bindingsOf, bindingsOf, clean.globals_eq, clean.tables_eq scope allocated]

end Hygienic

namespace Trail

theorem isLocal (trail : Trail ctx next) : Local ctx next := by
  induction trail with
  | refl ctx => exact .refl ctx
  | trans _ _ first second => exact first.trans second
  | declare declared => exact .of_declare declared
  | register registered => exact .of_register registered
  | scope _ closed inner => exact (inner.hygienic closed).isLocal

theorem sound (trail : Trail ctx next) (start : ctx.Sound) : next.Sound := by
  induction trail with
  | refl ctx => exact start
  | trans _ _ first second => exact second (first start)
  | declare declared => exact start.declare declared
  | register registered => exact start.register registered
  | scope _ closed inner => exact (inner start.openScope).closeScope closed

theorem closes (trail : Trail ctx.openScope mid) :
    ∃ top next, mid.closeScope = .ok (top, next) := by
  have stack : mid.active = (ctx.last + 1) :: ctx.active := trail.isLocal.active_eq
  exact ⟨ctx.last + 1, { mid with depth := mid.depth - 1, active := ctx.active }, by
    simp [Context.closeScope, stack]⟩

end Trail

theorem Enclosed.hygienic (enclosed : ctx.Enclosed next) : Hygienic ctx next := by
  rcases enclosed with rfl | ⟨mid, top, inner, closed⟩
  · exact .refl _
  · exact inner.isLocal.hygienic closed

end TreeCheck.Context
