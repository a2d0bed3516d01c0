import TreeCheck.Invariant

/-!
The representation invariant of contexts. Scope numbers are handed out once, the open scopes are
a descending stack of them, and every binding is kept in the table of the scope it names. Each
operation keeps the invariant, so every history of operations does.
-/

namespace TreeCheck

namespace Table

variable {α : Type}

theorem mem_of_lookup {key : Nat} {a : α} {entries : List (Nat × α)}
    (found : lookup key entries = some a) : (key, a) ∈ entries := by
  induction entries with
  | nil => simp [lookup] at found
  | cons entry rest ih =>
    obtain ⟨k, b⟩ := entry
    by_cases same : k = key
    · rw [lookup, if_pos same] at found
      rw [← same, ← Option.some.inj found]
      exact List.mem_cons_self
    · rw [lookup, if_neg same] at found
      exact List.mem_cons_of_mem _ (ih found)

theorem mem_of_find? {t : Table α} {key : Nat} {a : α} (found : t.find? key = some a) :
    (key, a) ∈ t.entries :=
  mem_of_lookup found

theorem mem_place {key : Nat} {a : α} {entries : List (Nat × α)} {entry : Nat × α}
    (member : entry ∈ place key a entries) : entry = (key, a) ∨ entry ∈ entries := by
  induction entries with
  | nil => exact Or.inl (List.mem_singleton.mp member)
  | cons first rest ih =>
    obtain ⟨k, b⟩ := first
    by_cases lower : k < key
    · rw [place, if_pos lower] at member
      rcases List.mem_cons.mp member with same | later
      · exact Or.inr (same ▸ List.mem_cons_self)
      · exact (ih later).imp id (List.mem_cons_of_mem _)
    · rw [place, if_neg lower] at member
      split at member
      · exact (List.mem_cons.mp member).imp id (List.mem_cons_of_mem _)
      · exact List.mem_cons.mp member

theorem mem_insert {t : Table α} {key : Nat} {a : α} {entry : Nat × α}
    (member : entry ∈ (t.insert key a).entries) : entry = (key, a) ∨ entry ∈ t.entries :=
  mem_place member

@[simp] theorem find?_empty (key : Nat) : (empty : Table α).find? key = none := rfl

theorem mem_getD_empty {t : Option (Table α)} {entry : Nat × α}
    (member : entry ∈ (t.getD empty).entries) :
    ∃ present, t = some present ∧ entry ∈ present.entries := by
  cases t with
  | none => exact absurd member List.not_mem_nil
  | some present => exact ⟨present, rfl, member⟩

end Table

namespace Context

variable {ctx next : Context}

/-! ### What an accepted operation does -/

theorem closeScope_ok {top : Nat} (closed : ctx.closeScope = .ok (top, next)) :
    ctx.active = top :: next.active ∧
      next = { ctx with depth := ctx.depth - 1, active := next.active } := by
  unfold closeScope at closed
  split at closed
  · cases closed
  next first rest stack =>
    cases closed
    exact ⟨stack, rfl⟩

/-- A declaration at depth zero goes to the globals; any other one goes to the table of the
current scope, which has no binding of that name yet. -/
theorem declare_ok {name : Handle} {ty : Ty} (declared : ctx.declare name ty = .ok next) :
    (ctx.depth = 0 ∧
      next = { ctx with globals := ctx.globals.insert name ⟨ctx.current, ctx.depth, ty⟩ }) ∨
    (ctx.depth ≠ 0 ∧ ((ctx.scopes.find? ctx.current).getD .empty).find? name = none ∧
      next = { ctx with
        scopes := ctx.scopes.insert ctx.current
          (((ctx.scopes.find? ctx.current).getD .empty).insert name
            ⟨ctx.current, ctx.depth, ty⟩) }) := by
  unfold declare at declared
  by_cases global : ctx.depth = 0
  · simp only [if_pos global] at declared
    cases declared
    exact Or.inl ⟨global, rfl⟩
  · simp only [if_neg global] at declared
    split at declared
    · cases declared
    next free =>
      cases declared
      exact Or.inr ⟨global, free, rfl⟩

theorem register_ok {name : Handle} {ty : Ty} (registered : ctx.register name ty = .ok next) :
    ctx.types.find? name = none ∧ next = { ctx with types := ctx.types.insert name ty } := by
  unfold register at registered
  split at registered
  · cases registered
  next free =>
    cases registered
    exact ⟨free, rfl⟩

theorem step_ok {op : Op} (taken : ctx.step op = .ok next) :
    (op = .openScope ∧ next = ctx.openScope) ∨
    (op = .closeScope ∧ ∃ top, ctx.closeScope = .ok (top, next)) ∨
    (∃ name ty, op = .declare name ty ∧ ctx.declare name ty = .ok next) ∨
    (∃ name ty, op = .register name ty ∧ ctx.register name ty = .ok next) := by
  cases op with
  | openScope =>
    cases taken
    exact .inl ⟨rfl, rfl⟩
  | closeScope =>
    cases closed : ctx.closeScope with
    | error rejection => simp [step, closed, Except.map] at taken
    | ok result =>
      simp only [step, closed, Except.map, Except.ok.injEq] at taken
      exact .inr (.inl ⟨rfl, result.1, by rw [← taken]⟩)
  | declare name ty => exact .inr (.inr (.inl ⟨name, ty, rfl, taken⟩))
  | register name ty => exact .inr (.inr (.inr ⟨name, ty, rfl, taken⟩))

/-! ### The invariant -/

/-- A binding that is kept where its own data says: at depth zero among the globals, elsewhere in
the table of its scope. -/
def Filed (scope : Nat) (symbol : Symbol) : Prop :=
  symbol.scope = scope ∧ (symbol.depth = 0 ↔ scope = globalScope)

/-- What holds of every context that arose by operations from the fresh one. -/
structure Sound (ctx : Context) : Prop where
  depth_eq : ctx.depth = ctx.active.length
  descending : ctx.active.Pairwise (· > ·)
  active_range : ∀ scope ∈ ctx.active, globalScope < scope ∧ scope ≤ ctx.last
  globals_filed : ∀ entry ∈ ctx.globals.entries, Filed globalScope entry.2
  scopes_range : ∀ table ∈ ctx.scopes.entries, globalScope < table.1 ∧ table.1 ≤ ctx.last
  scopes_filed : ∀ table ∈ ctx.scopes.entries, ∀ entry ∈ table.2.entries, Filed table.1 entry.2

theorem sound_fresh : Sound fresh where
  depth_eq := rfl
  descending := List.Pairwise.nil
  active_range := fun _ member => absurd member List.not_mem_nil
  globals_filed := fun _ member => absurd member List.not_mem_nil
  scopes_range := fun _ member => absurd member List.not_mem_nil
  scopes_filed := fun _ member => absurd member List.not_mem_nil

namespace Sound

theorem current_eq (sound : ctx.Sound) : ctx.depth = 0 ↔ ctx.current = globalScope := by
  rw [sound.depth_eq, current]
  cases stack : ctx.active with
  | nil => simp
  | cons top rest =>
    have positive := (sound.active_range top (by simp [stack])).1
    simp only [List.length_cons, List.headD_cons]
    omega

theorem current_range (sound : ctx.Sound) (inside : ctx.depth ≠ 0) :
    globalScope < ctx.current ∧ ctx.current ≤ ctx.last := by
  rw [sound.depth_eq] at inside
  cases stack : ctx.active with
  | nil => simp [stack] at inside
  | cons top rest =>
    have range := sound.active_range top (by simp [stack])
    simpa only [current, stack, List.headD_cons] using range

theorem openScope (sound : ctx.Sound) : ctx.openScope.Sound where
  depth_eq := by simp [Context.openScope, sound.depth_eq]
  descending := by
    refine List.pairwise_cons.mpr ⟨fun scope member => ?_, sound.descending⟩
    have range := sound.active_range scope member
    show ctx.last + 1 > scope
    omega
  active_range := by
    intro scope member
    simp only [Context.openScope, globalScope] at member ⊢
    rcases List.mem_cons.mp member with same | old
    · omega
    · have range := sound.active_range scope old
      simp only [globalScope] at range
      omega
  globals_filed := sound.globals_filed
  scopes_range := by
    intro table member
    have range := sound.scopes_range table member
    exact ⟨range.1, Nat.le_succ_of_le range.2⟩
  scopes_filed := sound.scopes_filed

theorem closeScope (sound : ctx.Sound) {top : Nat} (closed : ctx.closeScope = .ok (top, next)) :
    next.Sound := by
  obtain ⟨stack, shape⟩ := closeScope_ok closed
  rw [shape]
  have inside : ∀ scope ∈ next.active, scope ∈ ctx.active := by
    intro scope member
    rw [stack]
    exact List.mem_cons_of_mem _ member
  exact {
    depth_eq := by simp [sound.depth_eq, stack]
    descending := (List.pairwise_cons.mp (stack ▸ sound.descending)).2
    active_range := fun scope member => sound.active_range scope (inside scope member)
    globals_filed := sound.globals_filed
    scopes_range := sound.scopes_range
    scopes_filed := sound.scopes_filed }

theorem declare (sound : ctx.Sound) {name : Handle} {ty : Ty}
    (declared : ctx.declare name ty = .ok next) : next.Sound := by
  rcases declare_ok declared with ⟨global, rfl⟩ | ⟨inside, _, rfl⟩
  · refine { sound with globals_filed := ?_ }
    intro entry member
    rcases Table.mem_insert member with rfl | old
    · exact ⟨sound.current_eq.mp global, by simp [global]⟩
    · exact sound.globals_filed entry old
  · refine { sound with scopes_range := ?_, scopes_filed := ?_ }
    · intro table member
      rcases Table.mem_insert member with rfl | old
      · exact sound.current_range inside
      · exact sound.scopes_range table old
    · intro table member entry bound
      rcases Table.mem_insert member with rfl | old
      · rcases Table.mem_insert bound with rfl | earlier
        · exact ⟨rfl, sound.current_eq⟩
        · obtain ⟨present, found, bound⟩ := Table.mem_getD_empty earlier
          exact sound.scopes_filed _ (Table.mem_of_find? found) entry bound
      · exact sound.scopes_filed table old entry bound

theorem register (sound : ctx.Sound) {name : Handle} {ty : Ty}
    (registered : ctx.register name ty = .ok next) : next.Sound := by
  obtain ⟨_, rfl⟩ := register_ok registered
  exact { sound with }

theorem step (sound : ctx.Sound) {op : Op} (taken : ctx.step op = .ok next) : next.Sound := by
  rcases step_ok taken with
    ⟨_, rfl⟩ | ⟨_, top, closed⟩ | ⟨name, ty, _, declared⟩ | ⟨name, ty, _, registered⟩
  · exact sound.openScope
  · exact sound.closeScope closed
  · exact sound.declare declared
  · exact sound.register registered

theorem stepOrKeep (sound : ctx.Sound) (op : Op) : (ctx.stepOrKeep op).Sound := by
  unfold Context.stepOrKeep
  split
  next taken => exact sound.step taken
  next => exact sound

theorem run (sound : ctx.Sound) (ops : List Op) : (ctx.run ops).Sound := by
  induction ops generalizing ctx with
  | nil => exact sound
  | cons op ops ih => exact ih (sound.stepOrKeep op)

theorem find?_unallocated (sound : ctx.Sound) {scope : Nat} (above : ctx.last < scope) :
    ctx.scopes.find? scope = none := by
  cases found : ctx.scopes.find? scope with
  | none => rfl
  | some bindings =>
    have range := (sound.scopes_range _ (Table.mem_of_find? found)).2
    exact absurd above (Nat.not_lt.mpr range)

theorem fault?_eq_none (sound : ctx.Sound) (closed : ctx.depth = 0) : ctx.fault? = none := by
  have stack : ctx.active = [] := List.length_eq_zero_iff.mp (sound.depth_eq ▸ closed)
  have globals : ctx.globals.entries.findSome? globalFault? = none := by
    refine List.findSome?_eq_none_iff.mpr fun entry member => ?_
    obtain ⟨scope, depth⟩ := sound.globals_filed entry member
    simp [globalFault?, scope, depth.mpr rfl]
  have scopes : ctx.scopes.entries.findSome? (scopeFault? ctx.last) = none := by
    refine List.findSome?_eq_none_iff.mpr fun table member => ?_
    obtain ⟨positive, allocated⟩ := sound.scopes_range table member
    have filed : table.2.entries.findSome? (bindingFault? table.1) = none := by
      refine List.findSome?_eq_none_iff.mpr fun entry bound => ?_
      obtain ⟨scope, depth⟩ := sound.scopes_filed table member entry bound
      have inner : entry.2.depth ≠ 0 := fun zero => absurd (depth.mp zero) (Nat.ne_of_gt positive)
      simp [bindingFault?, scope, inner]
    simp [scopeFault?, Nat.ne_of_gt positive, Nat.not_lt.mpr allocated, filed]
  have outside : ctx.current = globalScope := by
    rw [current, stack]
    rfl
  simp [fault?, closed, stack, outside, globals, scopes]

end Sound

theorem sound_run_fresh (ops : List Op) : (fresh.run ops).Sound :=
  sound_fresh.run ops

end Context

end TreeCheck
