import Mathlib.Data.List.Induction
import TreeCheck.Proofs.Context.Sound

/-!
Scopes and the depths at which they were opened. A scope is opened once in a history, and its depth
is then the number of open scopes, itself included. Whatever is bound in a scope later carries that
depth, also where other scopes were opened and closed in between: a declaration goes to the top of
the stack, and the place of a scope in the stack does not change while it is open.
-/

namespace TreeCheck

theorem Table.place_ne_nil {α : Type} (key : Nat) (a : α) (entries : List (Nat × α)) :
    place key a entries ≠ [] := by
  cases entries with
  | nil => simp [place]
  | cons entry rest =>
    unfold place
    split
    · exact List.cons_ne_nil _ _
    split
    · exact List.cons_ne_nil _ _
    · exact List.cons_ne_nil _ _

namespace Context

variable {ctx : Context} {ops : List Op}

theorem run_append (ctx : Context) (first second : List Op) :
    ctx.run (first ++ second) = (ctx.run first).run second := by
  simp only [run, List.foldl_append]

theorem run_snoc (ctx : Context) (ops : List Op) (op : Op) :
    ctx.run (ops ++ [op]) = (ctx.run ops).stepOrKeep op :=
  run_append ctx ops [op]

/-! ### When a scope was opened -/

/-- Some operation of the history opened the scope, and the depth was so much from then on. -/
def OpenedAt (ops : List Op) (scope depth : Nat) : Prop :=
  ∃ before, before ++ [.openScope] <+: ops ∧
    (fresh.run before).openScope.current = scope ∧ (fresh.run before).openScope.depth = depth

theorem last_le_stepOrKeep (ctx : Context) (op : Op) : ctx.last ≤ (ctx.stepOrKeep op).last := by
  unfold stepOrKeep
  split
  next next taken =>
    rcases step_ok taken with
      ⟨_, rfl⟩ | ⟨_, top, closed⟩ | ⟨name, ty, _, declared⟩ | ⟨name, ty, _, registered⟩
    · exact Nat.le_succ _
    · have kept := congrArg Context.last (closeScope_ok closed).2
      exact Nat.le_of_eq kept.symm
    · rcases declare_ok declared with ⟨_, rfl⟩ | ⟨_, _, rfl⟩
      · exact Nat.le_refl _
      · exact Nat.le_refl _
    · obtain ⟨_, rfl⟩ := register_ok registered
      exact Nat.le_refl _
  next => exact Nat.le_refl _

theorem last_le_run (ctx : Context) (ops : List Op) : ctx.last ≤ (ctx.run ops).last := by
  induction ops generalizing ctx with
  | nil => exact Nat.le_refl _
  | cons op ops ih => exact Nat.le_trans (last_le_stepOrKeep ctx op) (ih _)

theorem last_lt_of_opened {before later : List Op}
    (earlier : before ++ [.openScope] <+: later) :
    (fresh.run before).last < (fresh.run later).last := by
  obtain ⟨rest, rfl⟩ := earlier
  have opened : (fresh.run (before ++ [.openScope])).last = (fresh.run before).last + 1 := by
    rw [run_snoc]
    rfl
  rw [run_append]
  calc (fresh.run before).last
      < (fresh.run (before ++ [.openScope])).last := by omega
    _ ≤ ((fresh.run (before ++ [.openScope])).run rest).last := last_le_run _ rest

namespace OpenedAt

variable {scope depth : Nat}

theorem mono (opened : OpenedAt ops scope depth) (more : List Op) :
    OpenedAt (ops ++ more) scope depth := by
  obtain ⟨before, earlier, number, level⟩ := opened
  exact ⟨before, earlier.trans (List.prefix_append ops more), number, level⟩

theorem now (ops : List Op) :
    OpenedAt (ops ++ [.openScope]) ((fresh.run ops).last + 1) ((fresh.run ops).depth + 1) :=
  ⟨ops, List.prefix_refl _, rfl, rfl⟩

theorem unique (opened : OpenedAt ops scope depth) {other : Nat}
    (again : OpenedAt ops scope other) : other = depth := by
  obtain ⟨before, earlier, number, level⟩ := opened
  obtain ⟨before', earlier', number', level'⟩ := again
  have same : (fresh.run before).last = (fresh.run before').last :=
    Nat.succ.inj (number.trans number'.symm)
  rcases List.prefix_or_prefix_of_prefix earlier earlier' with shorter | shorter
  · rcases List.prefix_concat_iff.mp shorter with equal | inner
    · rw [← level, ← level', List.append_cancel_right equal]
    · exact absurd (last_lt_of_opened inner) (by omega)
  · rcases List.prefix_concat_iff.mp shorter with equal | inner
    · rw [← level, ← level', List.append_cancel_right equal]
    · exact absurd (last_lt_of_opened inner) (by omega)

end OpenedAt

/-! ### How deep scopes lie -/

theorem length_le_of_descending {top : Nat} {rest : List Nat}
    (descending : (top :: rest).Pairwise (· > ·))
    (positive : ∀ scope ∈ top :: rest, 0 < scope) : (top :: rest).length ≤ top := by
  induction rest generalizing top with
  | nil => exact positive top List.mem_cons_self
  | cons second rest ih =>
    obtain ⟨above, tail⟩ := List.pairwise_cons.mp descending
    have lower := above second List.mem_cons_self
    have bound := ih tail fun scope member => positive scope (List.mem_cons_of_mem _ member)
    simp only [List.length_cons] at bound ⊢
    omega

theorem Sound.depth_le_last (sound : ctx.Sound) : ctx.depth ≤ ctx.last := by
  rw [sound.depth_eq]
  cases stack : ctx.active with
  | nil => exact Nat.zero_le _
  | cons top rest =>
    have range := sound.active_range top (by simp [stack])
    have bound : (top :: rest).length ≤ top := by
      refine length_le_of_descending (stack ▸ sound.descending) fun scope member => ?_
      exact (sound.active_range scope (stack ▸ member)).1
    exact Nat.le_trans bound range.2

theorem OpenedAt.depth_range {scope depth : Nat} (opened : OpenedAt ops scope depth) :
    1 ≤ depth ∧ depth ≤ scope := by
  obtain ⟨before, _, rfl, rfl⟩ := opened
  have bound := (sound_run_fresh before).depth_le_last
  exact ⟨Nat.le_add_left 1 _, Nat.succ_le_succ bound⟩

/-! ### What a history leaves in the tables -/

/-- Every open scope lies in the stack as deep as it was opened, and every binding of a scope has
the depth at which the scope was opened. No scope has a table without bindings. -/
structure Levelled (ops : List Op) (ctx : Context) : Prop where
  stack : ∀ inner scope outer, ctx.active = inner ++ scope :: outer →
    OpenedAt ops scope (outer.length + 1)
  bindings : ∀ table ∈ ctx.scopes.entries, ∀ entry ∈ table.2.entries,
    OpenedAt ops table.1 entry.2.depth
  inhabited : ∀ table ∈ ctx.scopes.entries, table.2.entries ≠ []

namespace Levelled

theorem start : Levelled [] fresh where
  stack := fun inner _ _ shape => absurd shape.symm (by simp [fresh])
  bindings := fun _ member => absurd member List.not_mem_nil
  inhabited := fun _ member => absurd member List.not_mem_nil

theorem mono (levelled : Levelled ops ctx) (more : List Op) : Levelled (ops ++ more) ctx where
  stack := fun inner scope outer shape => (levelled.stack inner scope outer shape).mono more
  bindings := fun table member entry bound => (levelled.bindings table member entry bound).mono more
  inhabited := levelled.inhabited

theorem openScope (levelled : Levelled ops (fresh.run ops)) :
    Levelled (ops ++ [.openScope]) (fresh.run ops).openScope where
  stack := by
    intro inner scope outer shape
    cases inner with
    | nil =>
      obtain ⟨rfl, rfl⟩ := List.cons.inj shape
      rw [← (sound_run_fresh ops).depth_eq]
      exact .now ops
    | cons top inner =>
      have below : (fresh.run ops).active = inner ++ scope :: outer := (List.cons.inj shape).2
      exact (levelled.stack inner scope outer below).mono _
  bindings := fun table member entry bound => (levelled.bindings table member entry bound).mono _
  inhabited := levelled.inhabited

theorem closeScope (levelled : Levelled ops ctx) {top : Nat} {next : Context}
    (closed : ctx.closeScope = .ok (top, next)) : Levelled ops next := by
  obtain ⟨whole, shape⟩ := closeScope_ok closed
  rw [shape]
  refine ⟨fun inner scope outer below => ?_, levelled.bindings, levelled.inhabited⟩
  refine levelled.stack (top :: inner) scope outer ?_
  rw [whole, below]
  rfl

theorem declare (levelled : Levelled ops ctx) (sound : ctx.Sound) {name : Handle} {ty : Ty}
    {next : Context} (declared : ctx.declare name ty = .ok next) : Levelled ops next := by
  rcases declare_ok declared with ⟨_, rfl⟩ | ⟨inside, _, rfl⟩
  · exact { levelled with }
  · have opened : OpenedAt ops ctx.current ctx.depth := by
      rw [sound.depth_eq] at inside ⊢
      cases whole : ctx.active with
      | nil => simp [whole] at inside
      | cons top rest =>
        have here : ctx.current = top := by simp [current, whole]
        rw [here]
        exact levelled.stack [] top rest whole
    refine { levelled with bindings := ?_, inhabited := ?_ }
    · intro table member entry bound
      rcases Table.mem_insert member with rfl | old
      · rcases Table.mem_insert bound with rfl | earlier
        · exact opened
        · obtain ⟨present, found, bound⟩ := Table.mem_getD_empty earlier
          exact levelled.bindings _ (Table.mem_of_find? found) entry bound
      · exact levelled.bindings table old entry bound
    · intro table member
      rcases Table.mem_insert member with rfl | old
      · exact Table.place_ne_nil _ _ _
      · exact levelled.inhabited table old

theorem snoc (levelled : Levelled ops (fresh.run ops)) (op : Op) :
    Levelled (ops ++ [op]) ((fresh.run ops).stepOrKeep op) := by
  unfold stepOrKeep
  split
  next next taken =>
    rcases step_ok taken with
      ⟨rfl, rfl⟩ | ⟨_, top, closed⟩ | ⟨name, ty, _, declared⟩ | ⟨name, ty, _, registered⟩
    · exact levelled.openScope
    · exact (levelled.closeScope closed).mono _
    · exact (levelled.declare (sound_run_fresh ops) declared).mono _
    · obtain ⟨_, rfl⟩ := register_ok registered
      exact { levelled.mono [op] with }
  next => exact levelled.mono [op]

theorem run (ops : List Op) : Levelled ops (fresh.run ops) := by
  induction ops using List.reverseRecOn with
  | nil => exact start
  | append_singleton ops op ih =>
    rw [run_snoc]
    exact ih.snoc op

end Levelled

/-- How the parts of a context fit together after a history of operations. -/
structure Layered (ops : List Op) (ctx : Context) : Prop where
  depth_eq : ctx.depth = ctx.active.length
  /-- From the outermost to the innermost, open scopes have ascending numbers. -/
  ascending : ctx.active.reverse.Pairwise (· < ·)
  active_range : ∀ scope ∈ ctx.active, 1 ≤ scope ∧ scope ≤ ctx.last
  current_top : ∀ top outer, ctx.active = top :: outer → ctx.current = top
  current_global : ctx.active = [] → ctx.current = globalScope
  globals_filed : ∀ entry ∈ ctx.globals.entries,
    entry.2.scope = globalScope ∧ entry.2.depth = 0
  scopes_range : ∀ table ∈ ctx.scopes.entries, 1 ≤ table.1 ∧ table.1 ≤ ctx.last
  scopes_inhabited : ∀ table ∈ ctx.scopes.entries, table.2.entries ≠ []
  /-- All bindings of a scope have the one depth at which the scope was opened. -/
  scopes_filed : ∀ table ∈ ctx.scopes.entries, ∃ depth, 1 ≤ depth ∧ depth ≤ table.1 ∧
    (∀ level, OpenedAt ops table.1 level ↔ level = depth) ∧
    ∀ entry ∈ table.2.entries, entry.2.scope = table.1 ∧ entry.2.depth = depth

/-- After every history of operations, rejected ones included, counter, depth, stack, tables and
globals fit together. -/
theorem histories_keep_layers (ops : List Op) : Layered ops (fresh.run ops) := by
  have sound := sound_run_fresh ops
  have levelled := Levelled.run ops
  refine {
    depth_eq := sound.depth_eq
    ascending := List.pairwise_reverse.mpr sound.descending
    active_range := sound.active_range
    current_top := fun top outer stack => by simp [current, stack]
    current_global := fun stack => by simp [current, stack]
    globals_filed := fun entry member => ?_
    scopes_range := sound.scopes_range
    scopes_inhabited := levelled.inhabited
    scopes_filed := fun table member => ?_ }
  · obtain ⟨scope, level⟩ := sound.globals_filed entry member
    exact ⟨scope, level.mpr rfl⟩
  · obtain ⟨first, among⟩ := List.exists_mem_of_ne_nil _ (levelled.inhabited table member)
    have opened := levelled.bindings table member first among
    obtain ⟨low, high⟩ := opened.depth_range
    refine ⟨first.2.depth, low, high, fun level => ⟨opened.unique, fun same => same ▸ opened⟩, ?_⟩
    intro entry bound
    have filed := sound.scopes_filed table member entry bound
    exact ⟨filed.1, opened.unique (levelled.bindings table member entry bound)⟩

end Context

end TreeCheck
