import TreeCheck.Proofs.Check.Rules

/-!
Blocks are hygienic. A definition may stand in any place of an expression and then binds its name
in the scope around the expression; but whatever a block or a lambda defines, at any depth and in
any place, is filed under scopes that it opened itself and has closed again.
-/

namespace TreeCheck

/-- What happened between two contexts cannot be seen from outside: every name means what it meant,
no table that there was has changed, and what is bound anew is filed under new scopes. -/
structure Context.Unseen (ctx next : Context) : Prop where
  lookup_eq : ∀ name, next.lookup name = ctx.lookup name
  globals_eq : next.globals = ctx.globals
  tables_eq : ∀ scope, scope ≤ ctx.last → next.scopes.find? scope = ctx.scopes.find? scope
  filed : ∀ scope name symbol, (next.bindingsOf scope).find? name = some symbol →
    (ctx.bindingsOf scope).find? name ≠ some symbol → symbol.scope = scope ∧ ctx.last < scope

theorem Context.Enclosed.unseen {ctx next : Context} (enclosed : ctx.Enclosed next)
    (sound : ctx.Sound) : ctx.Unseen next := by
  have clean := enclosed.hygienic
  have after := enclosed.trail.sound sound
  refine ⟨clean.lookup_eq sound, clean.globals_eq, clean.tables_eq, ?_⟩
  intro scope name symbol bound unbound
  have new : ctx.last < scope := by
    refine Nat.lt_of_not_le fun old => unbound ?_
    rwa [clean.bindingsOf_eq old] at bound
  have inner : scope ≠ globalScope := Nat.ne_of_gt (Nat.zero_lt_of_lt new)
  rw [bindingsOf, if_neg inner] at bound
  obtain ⟨table, found, entry⟩ := Table.mem_getD_empty (Table.mem_of_find? bound)
  exact ⟨(after.scopes_filed _ (Table.mem_of_find? found) _ entry).1, new⟩

namespace Check

/-- In every state with a context that arose by operations from the fresh one, and at every depth,
a block and a lambda end in a result and leave nothing behind that can be seen from outside,
unless they stop at an absent node. -/
theorem blocks_are_hygienic (env : Env) {s : State} {ops : List Context.Op}
    (reachable : s.ctx = Context.fresh.run ops) (depth : Nat) {step : Check Ty}
    (scoping : (∃ slot, step = block (expr env depth) slot) ∨
      ∃ l, step = lambda env (expr env depth) l)
    (present : ∀ t, step.run s ≠ .error .absent t) :
    ∃ ty t, step.run s = .ok ty t ∧ s.ctx.Unseen t.ctx := by
  have sound : s.ctx.Sound := reachable ▸ Context.sound_run_fresh ops
  -- Stopping is excluded by hypothesis, so nothing is asked of the nodes.
  have checks : Checks env True (expr env depth) := expr_checks env True depth
  have fits (nodes : List Node) : Fits True nodes := fun _ _ => .inl trivial
  have encloses : Leads True step s fun _ t => Run env s t ∧ s.ctx.Enclosed t.ctx := by
    rcases scoping with ⟨slot, rfl⟩ | ⟨l, rfl⟩
    · exact block_encloses checks (fits _) s
    · exact lambda_encloses checks (fits _) s
  obtain ⟨ty, t, ends, _, enclosed⟩ := encloses.result_of_present present
  exact ⟨ty, t, ends, enclosed.unseen sound⟩

/-- A block that defines again, as a boolean, what is an integer outside. -/
theorem shadowing_block_is_hygienic :
    let env : Env := ⟨.fresh, ⟨true, true⟩⟩
    let s := State.start (Context.fresh.run [.declare 14 .integer])
    let inner : Node := .define ⟨2, .zero⟩ 14 [] (some (.boolean ⟨3, .zero⟩ true)) .none
    let step := block (expr env 2) (some (.block ⟨1, .zero⟩ [some inner]))
    ∃ ty t, step.run s = .ok ty t ∧ s.ctx.Unseen t.ctx := by
  intro env s inner step
  have reachable : s.ctx = Context.fresh.run [.declare 14 .integer] := rfl
  refine blocks_are_hygienic env reachable 2 (.inl ⟨_, rfl⟩) ?_
  intro t
  exact nofun

end Check

end TreeCheck
