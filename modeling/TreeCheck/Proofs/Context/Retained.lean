import TreeCheck.Proofs.Context.Layers
import TreeCheck.Proofs.Context.Trail

/-!
What a history leaves behind for good. A binding inside a scope and a registered type stay as they
are, whatever is opened, closed or declared later; a global is what it was declared as last. A
rejected operation leaves nothing behind at all, although a declaration makes the table of its
scope before it looks for the name: where the name is found, the table was there.
-/

namespace TreeCheck

namespace Table

variable {α : Type}

theorem place_place (key : Nat) (a b : α) (entries : List (Nat × α)) :
    place key b (place key a entries) = place key b entries := by
  induction entries with
  | nil => simp [place]
  | cons entry rest ih =>
    obtain ⟨k, c⟩ := entry
    by_cases lower : k < key
    · simp [place, lower, ih]
    · by_cases same : k = key
      · simp [place, same]
      · simp [place, lower, same]

theorem insert_insert (t : Table α) (key : Nat) (a b : α) :
    (t.insert key a).insert key b = t.insert key b :=
  congrArg Table.mk (place_place key a b t.entries)

end Table

/-- The binding of a name in the table of a scope other than the global one. -/
def Tables.inner? (t : Tables) (scope : Nat) (name : Handle) : Option Symbol :=
  (t.scopes.find? scope).bind (·.find? name)

namespace Context

variable {ctx mid next : Context}

/-! ### Operations write by write -/

/-- A declaration as the writes it makes, the first of which gives the current scope a table if it
has none. The context is the one it ends in, also where it is rejected. -/
def writeBinding (ctx : Context) (name : Handle) (ty : Ty) : Context × Option Rejection :=
  let symbol : Symbol := ⟨ctx.current, ctx.depth, ty⟩
  if ctx.depth = 0 then ({ ctx with globals := ctx.globals.insert name symbol }, none)
  else
    let made := if ctx.scopes.contains ctx.current then ctx.scopes
      else ctx.scopes.insert ctx.current .empty
    let bindings := (made.find? ctx.current).getD .empty
    match bindings.find? name with
    | some existing => ({ ctx with scopes := made }, some (.duplicate name ctx.current existing))
    | none => ({ ctx with scopes := made.insert ctx.current (bindings.insert name symbol) }, none)

/-- An operation as the writes it makes: the context it ends in, and why it was rejected if it
was. -/
def perform (ctx : Context) : Op → Context × Option Rejection
  | .openScope => (ctx.openScope, none)
  | .closeScope =>
    match ctx.active with
    | [] => (ctx, some (.underflow ctx.last))
    | _ :: rest => ({ ctx with depth := ctx.depth - 1, active := rest }, none)
  | .declare name ty => ctx.writeBinding name ty
  | .register name ty =>
    match ctx.types.find? name with
    | some existing => (ctx, some (.redefined name existing))
    | none => ({ ctx with types := ctx.types.insert name ty }, none)

/-- What the operation does to a context that keeps what it had on a rejection. -/
def outcome (ctx : Context) (op : Op) : Context × Option Rejection :=
  match ctx.step op with
  | .ok next => (next, none)
  | .error rejection => (ctx, some rejection)

theorem writeBinding_eq (ctx : Context) (name : Handle) (ty : Ty) :
    ctx.writeBinding name ty = ctx.outcome (.declare name ty) := by
  unfold writeBinding outcome step declare
  by_cases global : ctx.depth = 0
  · simp only [if_pos global]
  simp only [if_neg global]
  cases table : ctx.scopes.find? ctx.current with
  | none =>
    simp [Table.contains, table, Table.find?_insert, Table.insert_insert]
  | some bindings =>
    simp only [Table.contains, table, Option.isSome_some, if_true, Option.getD_some]
    cases bindings.find? name with
    | none => rfl
    | some existing => rfl

theorem perform_eq (ctx : Context) (op : Op) : ctx.perform op = ctx.outcome op := by
  cases op with
  | openScope => rfl
  | closeScope =>
    unfold perform outcome step closeScope
    cases ctx.active with
    | nil => rfl
    | cons top rest => rfl
  | declare name ty => exact writeBinding_eq ctx name ty
  | register name ty =>
    cases found : ctx.types.find? name with
    | none => simp [perform, outcome, step, register, found]
    | some existing => simp [perform, outcome, step, register, found]

/-- When an operation is rejected, and with what: the binding or the type that stands in its way is
the one that is stored. -/
inductive Rejects (ctx : Context) : Op → Rejection → Prop
  | bound {name : Handle} {existing : Symbol} (ty : Ty) (inside : ctx.depth ≠ 0)
      (stored : ctx.tables.inner? ctx.current name = some existing) :
      Rejects ctx (.declare name ty) (.duplicate name ctx.current existing)
  | registered {name : Handle} {existing : Ty} (ty : Ty)
      (stored : ctx.tables.types.find? name = some existing) :
      Rejects ctx (.register name ty) (.redefined name existing)
  | unopened (empty : ctx.active = []) : Rejects ctx .closeScope (.underflow ctx.last)

theorem rejects_of_step {op : Op} {rejection : Rejection}
    (rejected : ctx.step op = .error rejection) : ctx.Rejects op rejection := by
  cases op with
  | openScope => cases rejected
  | closeScope =>
    simp only [step, closeScope] at rejected
    cases stack : ctx.active with
    | nil =>
      simp only [stack, Except.map, Except.error.injEq] at rejected
      exact rejected ▸ .unopened stack
    | cons top rest => simp [stack, Except.map] at rejected
  | declare name ty =>
    simp only [step, declare] at rejected
    by_cases global : ctx.depth = 0
    · simp [global] at rejected
    rw [if_neg global] at rejected
    split at rejected
    next existing found =>
      cases rejected
      refine .bound ty global ?_
      cases table : ctx.scopes.find? ctx.current with
      | none => simp [table] at found
      | some bindings =>
        simp only [table, Option.getD_some] at found
        simp [tables, Tables.inner?, table, found]
    next => cases rejected
  | register name ty =>
    simp only [step, register] at rejected
    split at rejected
    next existing found =>
      cases rejected
      exact .registered ty found
    next => cases rejected

/-! ### What stays -/

/-- The second context has every inner binding and every type of the first one. -/
structure Extends (ctx next : Context) : Prop where
  inner : ∀ scope name symbol, ctx.tables.inner? scope name = some symbol →
    next.tables.inner? scope name = some symbol
  types : ∀ name ty, ctx.tables.types.find? name = some ty →
    next.tables.types.find? name = some ty

namespace Extends

theorem of_eq (scopes : next.scopes = ctx.scopes) (types : next.types = ctx.types) :
    Extends ctx next := by
  constructor
  · intro scope name symbol found
    simpa [tables, Tables.inner?, scopes] using found
  · intro name ty found
    simpa [tables, types] using found

theorem refl (ctx : Context) : Extends ctx ctx :=
  of_eq rfl rfl

theorem trans (first : Extends ctx mid) (second : Extends mid next) : Extends ctx next where
  inner := fun scope name symbol found =>
    second.inner scope name symbol (first.inner scope name symbol found)
  types := fun name ty found => second.types name ty (first.types name ty found)

theorem of_declare {name : Handle} {ty : Ty} (declared : ctx.declare name ty = .ok next) :
    Extends ctx next := by
  rcases declare_ok declared with ⟨_, rfl⟩ | ⟨_, free, rfl⟩
  · exact of_eq rfl rfl
  refine ⟨fun scope other symbol found => ?_, fun _ _ found => found⟩
  simp only [tables, Tables.inner?] at found ⊢
  by_cases here : scope = ctx.current
  · subst here
    obtain ⟨bindings, table, bound⟩ := Option.bind_eq_some_iff.mp found
    rw [table, Option.getD_some] at free ⊢
    have different : other ≠ name := by
      rintro rfl
      exact absurd (free.symm.trans bound) (by simp)
    simpa [Table.find?_insert, different] using bound
  · simpa [Table.find?_insert, here] using found

theorem of_register {name : Handle} {ty : Ty} (registered : ctx.register name ty = .ok next) :
    Extends ctx next := by
  obtain ⟨free, rfl⟩ := register_ok registered
  refine ⟨fun _ _ _ found => found, fun other kept found => ?_⟩
  simp only [tables] at found ⊢
  have different : other ≠ name := by
    rintro rfl
    exact absurd (free.symm.trans found) (by simp)
  simpa [Table.find?_insert, different] using found

theorem stepOrKeep (ctx : Context) (op : Op) : Extends ctx (ctx.stepOrKeep op) := by
  unfold Context.stepOrKeep
  split
  next next taken =>
    rcases step_ok taken with
      ⟨_, rfl⟩ | ⟨_, top, closed⟩ | ⟨name, ty, _, declared⟩ | ⟨name, ty, _, registered⟩
    · exact of_eq rfl rfl
    · rw [(closeScope_ok closed).2]
      exact of_eq rfl rfl
    · exact of_declare declared
    · exact of_register registered
  next => exact refl ctx

theorem run (ctx : Context) (ops : List Op) : Extends ctx (ctx.run ops) := by
  induction ops generalizing ctx with
  | nil => exact refl ctx
  | cons op ops ih => exact (stepOrKeep ctx op).trans (ih _)

end Extends

theorem Trail.extends (trail : Trail ctx next) : Extends ctx next := by
  induction trail with
  | refl ctx => exact .refl ctx
  | trans _ _ first second => exact first.trans second
  | declare declared => exact .of_declare declared
  | register registered => exact .of_register registered
  | @scope ctx mid next top _ closed inner =>
    have outside : Extends mid next := by
      rw [(closeScope_ok closed).2]
      exact .of_eq rfl rfl
    have opened : Extends ctx ctx.openScope := .of_eq rfl rfl
    exact (opened.trans inner).trans outside

theorem run_accepted {before : List Op} (op : Op) (taken : (ctx.run before).step op = .ok next)
    (after : List Op) : ctx.run (before ++ op :: after) = next.run after := by
  rw [run_append]
  show ((ctx.run before).stepOrKeep op).run after = next.run after
  rw [stepOrKeep, taken]

theorem inner?_of_declare {name : Handle} {ty : Ty} (inside : ctx.depth ≠ 0)
    (declared : ctx.declare name ty = .ok next) :
    next.tables.inner? ctx.current name = some ⟨ctx.current, ctx.depth, ty⟩ := by
  rcases declare_ok declared with ⟨global, _⟩ | ⟨_, _, rfl⟩
  · exact absurd global inside
  · simp [tables, Tables.inner?, Table.find?_insert]

/-- After a declaration inside a scope, the name is bound there: as it was, if it was bound already,
and else as declared. -/
theorem inner?_stepOrKeep_declare (inside : ctx.depth ≠ 0) (name : Handle) (ty : Ty) :
    (ctx.stepOrKeep (.declare name ty)).tables.inner? ctx.current name =
      some ((ctx.tables.inner? ctx.current name).getD ⟨ctx.current, ctx.depth, ty⟩) := by
  cases taken : ctx.step (.declare name ty) with
  | ok next =>
    rw [stepOrKeep, taken]
    have free : ctx.tables.inner? ctx.current name = none := by
      rcases declare_ok taken with ⟨global, _⟩ | ⟨_, free, _⟩
      · exact absurd global inside
      · rw [Tables.inner?, tables]
        cases table : ctx.scopes.find? ctx.current with
        | none => rfl
        | some bindings => rwa [table] at free
    rw [free]
    exact inner?_of_declare inside taken
  | error rejection =>
    rw [stepOrKeep, taken]
    cases rejects_of_step taken with
    | bound _ _ stored => rw [stored, Option.getD_some]

/-- After a declaration the current scope has the new binding, and all else is as it was. -/
theorem find?_bindingsOf_declare (sound : ctx.Sound) {name : Handle} {ty : Ty}
    (declared : ctx.declare name ty = .ok next) (scope : Nat) (other : Handle) :
    (next.bindingsOf scope).find? other =
      if scope = ctx.current ∧ other = name then some ⟨ctx.current, ctx.depth, ty⟩
      else (ctx.bindingsOf scope).find? other := by
  rcases declare_ok declared with ⟨global, rfl⟩ | ⟨inside, _, rfl⟩
  · have current : ctx.current = globalScope := sound.current_eq.mp global
    by_cases here : scope = globalScope
    · simp [bindingsOf, here, current, Table.find?_insert]
    · simp [bindingsOf, here, current]
  · have current : ctx.current ≠ globalScope := fun same => inside (sound.current_eq.mpr same)
    by_cases here : scope = ctx.current
    · subst here
      simp [bindingsOf, current, Table.find?_insert]
    · by_cases global : scope = globalScope
      · simp [bindingsOf, global, current.symm]
      · simp [bindingsOf, global, here, Table.find?_insert]

theorem bindingsOf_stepOrKeep {op : Op} (other : ∀ name ty, op ≠ .declare name ty) (scope : Nat) :
    (ctx.stepOrKeep op).bindingsOf scope = ctx.bindingsOf scope := by
  unfold stepOrKeep
  split
  next next taken =>
    rcases step_ok taken with
      ⟨_, rfl⟩ | ⟨_, top, closed⟩ | ⟨name, ty, same, _⟩ | ⟨name, ty, _, registered⟩
    · rfl
    · rw [(closeScope_ok closed).2]
      rfl
    · exact absurd same (other name ty)
    · obtain ⟨_, rfl⟩ := register_ok registered
      rfl
  next => rfl

theorem types_stepOrKeep {op : Op} (other : ∀ name ty, op ≠ .register name ty) :
    (ctx.stepOrKeep op).types = ctx.types := by
  unfold stepOrKeep
  split
  next next taken =>
    rcases step_ok taken with
      ⟨_, rfl⟩ | ⟨_, top, closed⟩ | ⟨name, ty, _, declared⟩ | ⟨name, ty, same, _⟩
    · rfl
    · rw [(closeScope_ok closed).2]
    · rcases declare_ok declared with ⟨_, rfl⟩ | ⟨_, _, rfl⟩
      · rfl
      · rfl
    · exact absurd same (other name ty)
  next => rfl

/-! ### Look-ups -/

theorem lookupIn_some {scopes : Table Bindings} {name : Handle} {symbol : Symbol}
    {active : List Nat} (found : lookupIn scopes name active = some symbol) :
    ∃ scope ∈ active, ∃ table,
      scopes.find? scope = some table ∧ table.find? name = some symbol := by
  induction active with
  | nil => cases found
  | cons scope rest ih =>
    unfold lookupIn at found
    split at found
    next here =>
      cases found
      obtain ⟨table, bound⟩ := Option.bind_eq_some_iff.mp here
      exact ⟨scope, List.mem_cons_self, table, bound⟩
    next =>
      obtain ⟨outer, member, table, bound⟩ := ih found
      exact ⟨outer, List.mem_cons_of_mem _ member, table, bound⟩

theorem Sound.lookup_bound (sound : ctx.Sound) {name : Handle} {symbol : Symbol}
    (found : ctx.lookup name = some symbol) :
    (ctx.bindingsOf symbol.scope).find? name = some symbol := by
  unfold lookup at found
  split at found
  next inner =>
    cases found
    obtain ⟨scope, opened, table, kept, bound⟩ := lookupIn_some inner
    have filed := sound.scopes_filed _ (Table.mem_of_find? kept) _ (Table.mem_of_find? bound)
    rw [filed.1, bindingsOf, if_neg (Nat.ne_of_gt (sound.active_range scope opened).1), kept]
    exact bound
  next =>
    rw [(sound.globals_filed _ (Table.mem_of_find? found)).1, bindingsOf, if_pos rfl]
    exact found

/-! ### Globals -/

/-- The global that an operation declares, if it is a declaration that meets depth zero. -/
def globalWritten? (ctx : Context) : Op → Option (Handle × Ty)
  | .declare name ty => if ctx.depth = 0 then some (name, ty) else none
  | _ => none

def globalsWritten (ctx : Context) : List Op → List (Handle × Ty)
  | [] => []
  | op :: ops => (ctx.globalWritten? op).toList ++ globalsWritten (ctx.stepOrKeep op) ops

def globalSymbol (ty : Ty) : Symbol :=
  ⟨globalScope, 0, ty⟩

theorem globals_stepOrKeep (sound : ctx.Sound) (op : Op) (name : Handle) :
    (ctx.stepOrKeep op).globals.find? name =
      (((ctx.globalWritten? op).toList.lookup name).map globalSymbol).or
        (ctx.globals.find? name) := by
  unfold stepOrKeep
  split
  next next taken =>
    rcases step_ok taken with
      ⟨rfl, rfl⟩ | ⟨rfl, top, closed⟩ | ⟨other, ty, rfl, declared⟩ | ⟨other, ty, rfl, registered⟩
    · rfl
    · rw [(closeScope_ok closed).2]
      rfl
    · rcases declare_ok declared with ⟨global, rfl⟩ | ⟨inside, _, rfl⟩
      · have filed : ctx.current = globalScope := sound.current_eq.mp global
        simp only [globalWritten?, global, if_true, Option.toList_some, Table.find?_insert, filed]
        by_cases same : name = other
        · simp [same, globalSymbol]
        · simp [same, List.lookup_cons, beq_eq_false_iff_ne.mpr same]
      · simp [globalWritten?, inside]
    · obtain ⟨_, rfl⟩ := register_ok registered
      rfl
  next rejection rejected =>
    cases op with
    | declare other ty =>
      have inside : ctx.depth ≠ 0 := by
        cases rejects_of_step rejected with
        | bound _ inside _ => exact inside
      simp [globalWritten?, inside]
    | openScope => rfl
    | closeScope => rfl
    | register other ty => rfl

theorem globals_run (sound : ctx.Sound) (ops : List Op) (name : Handle) :
    (ctx.run ops).globals.find? name =
      (((globalsWritten ctx ops).reverse.lookup name).map globalSymbol).or
        (ctx.globals.find? name) := by
  induction ops generalizing ctx with
  | nil => rfl
  | cons op ops ih =>
    have single : (ctx.globalWritten? op).toList.reverse = (ctx.globalWritten? op).toList := by
      cases ctx.globalWritten? op <;> rfl
    calc (ctx.run (op :: ops)).globals.find? name
        = (((globalsWritten (ctx.stepOrKeep op) ops).reverse.lookup name).map globalSymbol).or
            ((ctx.stepOrKeep op).globals.find? name) := ih (sound.stepOrKeep op)
      _ = (((globalsWritten ctx (op :: ops)).reverse.lookup name).map globalSymbol).or
            (ctx.globals.find? name) := by
          rw [globals_stepOrKeep sound op name, globalsWritten, List.reverse_append, single,
            List.lookup_append, Option.map_or, Option.or_assoc]

/-- Along every history a binding inside a scope and a registered type are kept for good, a global
is what it was declared as last, and a rejected operation leaves the context as it was, with the
rejection naming what is stored. -/
theorem tables_only_grow :
    (∀ before name ty next, (fresh.run before).depth ≠ 0 →
      (fresh.run before).declare name ty = .ok next →
      ∀ after, (fresh.run (before ++ .declare name ty :: after)).tables.inner?
        (fresh.run before).current name =
          some ⟨(fresh.run before).current, (fresh.run before).depth, ty⟩) ∧
    (∀ before name ty next, (fresh.run before).register name ty = .ok next →
      ∀ after, (fresh.run (before ++ .register name ty :: after)).tables.types.find? name =
        some ty) ∧
    (∀ before name ty, (fresh.run before).tables.types.find? name = some ty →
      ∀ after, (fresh.run (before ++ after)).tables.types.find? name = some ty) ∧
    (∀ ops name, (fresh.run ops).tables.globals.find? name =
      ((globalsWritten fresh ops).reverse.lookup name).map globalSymbol) ∧
    (∀ ops op next rejection, (fresh.run ops).perform op = (next, some rejection) →
      (fresh.run ops).step op = .error rejection ∧ next = fresh.run ops ∧
        next.Rejects op rejection) := by
  refine ⟨?_, ?_, ?_, ?_, ?_⟩
  · intro before name ty next inside declared after
    rw [run_accepted (.declare name ty) declared after]
    exact (Extends.run next after).inner _ _ _ (inner?_of_declare inside declared)
  · intro before name ty next registered after
    rw [run_accepted (.register name ty) registered after]
    refine (Extends.run next after).types name ty ?_
    obtain ⟨_, rfl⟩ := register_ok registered
    simp [tables, Table.find?_insert]
  · intro before name ty found after
    rw [run_append]
    exact (Extends.run _ after).types name ty found
  · intro ops name
    have written := globals_run sound_fresh ops name
    rwa [show fresh.globals.find? name = none from rfl, Option.or_none] at written
  · intro ops op next rejection performed
    rw [perform_eq, outcome] at performed
    split at performed
    next => simp at performed
    next reason rejected =>
      obtain ⟨rfl, same⟩ := Prod.mk.inj performed
      rw [Option.some.inj same] at rejected
      exact ⟨rejected, rfl, rejects_of_step rejected⟩

/-- An integer in a scope outlives a second declaration there, the closing of the scope and a global
of the same name, and the second declaration is rejected with it. -/
theorem closed_scope_keeps_integer :
    let inside : List Op := [.openScope, .declare 14 .integer]
    let after : List Op := [.declare 14 .boolean, .closeScope, .declare 14 .string]
    (fresh.run (inside ++ after)).tables.inner? 1 14 = some ⟨1, 1, .integer⟩ ∧
      (fresh.run (inside ++ after)).tables.globals.find? 14 = some (globalSymbol .string) ∧
      ((fresh.run inside).perform (.declare 14 .boolean)).1 = fresh.run inside ∧
      (fresh.run inside).Rejects (.declare 14 .boolean) (.duplicate 14 1 ⟨1, 1, .integer⟩) := by
  intro inside after
  obtain ⟨inner, _, _, globals, rejected⟩ := tables_only_grow
  have performed : (fresh.run inside).perform (.declare 14 .boolean) =
      (fresh.run inside, some (.duplicate 14 1 ⟨1, 1, .integer⟩)) := rfl
  obtain ⟨_, unchanged, stored⟩ := rejected inside _ _ _ performed
  refine ⟨?_, ?_, unchanged, stored⟩
  · exact inner [.openScope] 14 .integer _ (by decide) rfl after
  · exact globals (inside ++ after) 14

end Context

end TreeCheck
