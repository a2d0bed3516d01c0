import TreeCheck.Context
import TreeCheck.Proofs.Ty.Alike

/-!
Contexts that differ in nothing but their handles. Two tables are alike if they have the same
entries once keys and values that stand for the same thing are taken for the same. The operations of
a context decide alike on contexts that are alike, and lead to such contexts again.
-/

namespace TreeCheck

/-! ### Tables -/

structure Table.Alike {α β : Type} (key : Nat → Nat → Prop) (value : α → β → Prop) (t : Table α)
    (u : Table β) : Prop where
  forth {k : Nat} {a : α} : t.find? k = some a →
    ∃ k' b, key k k' ∧ u.find? k' = some b ∧ value a b
  back {k' : Nat} {b : β} : u.find? k' = some b →
    ∃ k a, key k k' ∧ t.find? k = some a ∧ value a b

namespace Table.Alike

variable {α β : Type} {key : Nat → Nat → Prop} {value : α → β → Prop} {t : Table α} {u : Table β}

theorem empty : Table.Alike key value (.empty : Table α) (.empty : Table β) :=
  ⟨nofun, nofun⟩

variable (unique : ∀ {h k h' k' : Nat}, key h h' → key k k' → (h = k ↔ h' = k'))
include unique

/-- Under keys that stand for the same thing the tables have values that are alike, or none. -/
theorem find? (alike : Table.Alike key value t u) {k k' : Nat} (same : key k k') :
    Option.Rel value (t.find? k) (u.find? k') := by
  cases found : t.find? k with
  | some a =>
    obtain ⟨other, b, matched, there, holds⟩ := alike.forth found
    obtain rfl := (unique same matched).mp rfl
    exact there ▸ .some holds
  | none =>
    cases found' : u.find? k' with
    | none => exact .none
    | some b =>
      obtain ⟨other, a, matched, here, _⟩ := alike.back found'
      obtain rfl := (unique same matched).mpr rfl
      exact absurd (found.symm.trans here) nofun

theorem insert (alike : Table.Alike key value t u) {k k' : Nat} (same : key k k') {a : α} {b : β}
    (holds : value a b) : Table.Alike key value (t.insert k a) (u.insert k' b) where
  forth {h c} found := by
    rw [Table.find?_insert] at found
    split at found
    next here =>
      cases found
      exact ⟨k', b, here ▸ same, by rw [Table.find?_insert, if_pos rfl], holds⟩
    next elsewhere =>
      obtain ⟨h', d, matched, there, related⟩ := alike.forth found
      have elsewhere' : h' ≠ k' := fun here => elsewhere ((unique matched same).mpr here)
      exact ⟨h', d, matched, by rw [Table.find?_insert, if_neg elsewhere', there], related⟩
  back {h' d} found := by
    rw [Table.find?_insert] at found
    split at found
    next here =>
      cases found
      exact ⟨k, a, here ▸ same, by rw [Table.find?_insert, if_pos rfl], holds⟩
    next elsewhere' =>
      obtain ⟨h, c, matched, here, related⟩ := alike.back found
      have elsewhere : h ≠ k := fun here => elsewhere' ((unique matched same).mp here)
      exact ⟨h, c, matched, by rw [Table.find?_insert, if_neg elsewhere, here], related⟩

end Table.Alike

theorem Table.Alike.getD {α β : Type} {key : Nat → Nat → Prop} {value : α → β → Prop}
    {x : Option (Table α)} {y : Option (Table β)} (parts : Option.Rel (Table.Alike key value) x y) :
    Table.Alike key value (x.getD .empty) (y.getD .empty) := by
  cases parts with
  | none => exact .empty
  | some alike => exact alike

/-! ### Bindings and contexts -/

structure Symbol.Alike (l : Likeness) (a b : Symbol) : Prop where
  scope_eq : a.scope = b.scope
  depth_eq : a.depth = b.depth
  ty : Ty.Alike l a.ty b.ty

abbrev Bindings.Alike (l : Likeness) : Bindings → Bindings → Prop :=
  Table.Alike l.handle (Symbol.Alike l)

namespace Context

structure Alike (l : Likeness) (c d : Context) : Prop where
  last_eq : c.last = d.last
  depth_eq : c.depth = d.depth
  active_eq : c.active = d.active
  scopes : Table.Alike Eq (Bindings.Alike l) c.scopes d.scopes
  globals : Bindings.Alike l c.globals d.globals
  types : Table.Alike l.handle (Ty.Alike l) c.types d.types

/-- The same was rejected, about names that stand for the same. -/
inductive Rejection.Alike (l : Likeness) : Rejection → Rejection → Prop
  | duplicate {h k : Handle} (scope : Nat) {a b : Symbol} :
    l.handle h k → Alike l (.duplicate h scope a) (.duplicate k scope b)
  | underflow (last : Nat) : Alike l (.underflow last) (.underflow last)
  | redefined {h k : Handle} {a b : Ty} : l.handle h k → Alike l (.redefined h a) (.redefined k b)
  | notImplemented {h k : Handle} (kind : Kind) :
    l.handle h k → Alike l (.notImplemented h kind) (.notImplemented k kind)
  | unknownKind {h k : Handle} (kind : Kind) :
    l.handle h k → Alike l (.unknownKind h kind) (.unknownKind k kind)

inductive Decided (l : Likeness) {α β : Type} (post : α → β → Prop) :
    Except Rejection α → Except Rejection β → Prop
  | ok {a : α} {b : β} : post a b → Decided l post (.ok a) (.ok b)
  | error {r r' : Rejection} : r.Alike l r' → Decided l post (.error r) (.error r')

variable {l : Likeness} {names names' : Interner} {c d : Context}

theorem Alike.current_eq (alike : Alike l c d) : c.current = d.current := by
  rw [current, current, alike.active_eq]

theorem Alike.openScope (alike : Alike l c d) : Alike l c.openScope d.openScope where
  last_eq := congrArg (· + 1) alike.last_eq
  depth_eq := congrArg (· + 1) alike.depth_eq
  active_eq := by rw [Context.openScope, Context.openScope, alike.active_eq, alike.last_eq]
  scopes := alike.scopes
  globals := alike.globals
  types := alike.types

theorem Alike.closeScope (alike : Alike l c d) :
    Decided l (fun x y => Alike l x.2 y.2) c.closeScope d.closeScope := by
  rw [Context.closeScope, Context.closeScope, ← alike.active_eq]
  split
  · exact alike.last_eq ▸ .error (.underflow _)
  · refine .ok ⟨alike.last_eq, ?_, rfl, alike.scopes, alike.globals, alike.types⟩
    exact congrArg (· - 1) alike.depth_eq

theorem scope_unique {h k h' k' : Nat} (first : h = h') (second : k = k') : h = k ↔ h' = k' := by
  rw [first, second]

section

variable (consistent : l.Consistent names names')
include consistent

theorem Rejection.Alike.message_eq {r r' : Rejection} (alike : r.Alike l r') :
    r.message names = r'.message names' := by
  cases alike with
  | underflow last => rfl
  | duplicate _ named | redefined named | notImplemented _ named | unknownKind _ named =>
    rw [message, message, consistent.display named]

theorem lookupIn_alike {scopes scopes' : Table Bindings}
    (alike : Table.Alike Eq (Bindings.Alike l) scopes scopes') {h k : Handle}
    (same : l.handle h k) (active : List Nat) :
    Option.Rel (Symbol.Alike l) (lookupIn scopes h active) (lookupIn scopes' k active) := by
  induction active with
  | nil => exact .none
  | cons scope rest ih =>
    have here : Option.Rel (Symbol.Alike l) ((scopes.find? scope).bind (·.find? h))
        ((scopes'.find? scope).bind (·.find? k)) := by
      have bindings := alike.find? scope_unique (rfl : scope = scope)
      generalize scopes.find? scope = x at bindings
      generalize scopes'.find? scope = y at bindings
      cases bindings with
      | none => exact .none
      | some inner => exact inner.find? consistent.unique same
    unfold lookupIn
    generalize (scopes.find? scope).bind (·.find? h) = x at here
    generalize (scopes'.find? scope).bind (·.find? k) = y at here
    cases here with
    | none => exact ih
    | some found => exact .some found

variable (alike : Alike l c d) {h k : Handle} (same : l.handle h k)
include alike same

theorem Alike.global? : Option.Rel (Symbol.Alike l) (c.globals.find? h) (d.globals.find? k) :=
  alike.globals.find? consistent.unique same

theorem Alike.lookup : Option.Rel (Symbol.Alike l) (c.lookup h) (d.lookup k) := by
  have inside := lookupIn_alike consistent alike.scopes same c.active
  rw [Context.lookup, Context.lookup, ← alike.active_eq]
  generalize lookupIn c.scopes h c.active = x at inside
  generalize lookupIn d.scopes k c.active = y at inside
  cases inside with
  | none => exact alike.global? consistent same
  | some found => exact .some found

theorem Alike.typeNamed : Option.Rel (Ty.Alike l) (c.typeNamed h) (d.typeNamed k) :=
  alike.types.find? consistent.unique same

theorem Alike.declare {a b : Ty} (ty : Ty.Alike l a b) :
    Decided l (Alike l) (c.declare h a) (d.declare k b) := by
  have symbol : Symbol.Alike l ⟨c.current, c.depth, a⟩ ⟨d.current, c.depth, b⟩ :=
    ⟨alike.current_eq, rfl, ty⟩
  have bindings : Bindings.Alike l ((c.scopes.find? c.current).getD .empty)
      ((d.scopes.find? d.current).getD .empty) :=
    .getD (alike.scopes.find? scope_unique alike.current_eq)
  rw [Context.declare, Context.declare, ← alike.depth_eq]
  dsimp only
  split
  · exact .ok { alike with
      depth_eq := rfl
      globals := alike.globals.insert consistent.unique same symbol }
  have bound := bindings.find? consistent.unique same
  generalize ((c.scopes.find? c.current).getD .empty).find? h = x at bound
  generalize ((d.scopes.find? d.current).getD .empty).find? k = y at bound
  cases bound with
  | some _ =>
    rw [alike.current_eq]
    exact .error (.duplicate _ same)
  | none =>
    exact .ok { alike with
      depth_eq := rfl
      scopes := alike.scopes.insert scope_unique alike.current_eq
        (bindings.insert consistent.unique same symbol) }

theorem Alike.register {a b : Ty} (ty : Ty.Alike l a b) :
    Decided l (Alike l) (c.register h a) (d.register k b) := by
  have known := alike.types.find? consistent.unique same
  unfold Context.register
  generalize c.types.find? h = x at known
  generalize d.types.find? k = y at known
  cases known with
  | some _ => exact .error (.redefined same)
  | none => exact .ok { alike with types := alike.types.insert consistent.unique same ty }

omit alike in
theorem super_alike {xs ys : List Ty} (supers : List.Forall₂ (Ty.Alike l) xs ys) :
    Option.Rel (Ty.Alike l) (xs.find? fun s => s.kind = .object && s.objectName = h)
      (ys.find? fun s => s.kind = .object && s.objectName = k) := by
  induction supers with
  | nil => exact .none
  | @cons a b _ _ first _ ih =>
    have named : decide (a.objectName = h) = decide (b.objectName = k) :=
      consistent.decide_eq (first.objectName consistent) same
    rw [List.find?_cons, List.find?_cons, first.kind_eq, named]
    split
    · exact .some first
    · exact ih

theorem Alike.resolve : Decided l (Ty.Alike l) (c.resolve h) (d.resolve k) := by
  have known := alike.types.find? consistent.unique same
  unfold Context.resolve
  generalize c.types.find? h = x at known
  generalize d.types.find? k = y at known
  cases known with
  | none => exact .ok (.ofKind _)
  | some found =>
    dsimp only
    rw [found.kind_eq]
    split
    · exact .ok (.getD (super_alike consistent same found.supers))
    split
    · exact .error (.notImplemented _ same)
    split
    · exact .ok found
    · exact .error (.unknownKind _ same)

end

theorem fresh_alike (consistent : l.Consistent names names')
    (known : ∀ h ∈ [Handle.int, .float, .bool, .string, .nil], l.handle h h) :
    Alike l fresh fresh where
  last_eq := rfl
  depth_eq := rfl
  active_eq := rfl
  scopes := .empty
  globals := .empty
  types := by
    have add (h : Handle) (kind : Kind) (member : h ∈ [Handle.int, .float, .bool, .string, .nil])
        {t : Table Ty} (alike : Table.Alike l.handle (Ty.Alike l) t t) :
        Table.Alike l.handle (Ty.Alike l) (t.insert h (.ofKind kind)) (t.insert h (.ofKind kind)) :=
      alike.insert consistent.unique (known h member) (.ofKind kind)
    refine add .nil .nil (by decide) ?_
    refine add .string .string (by decide) (add .bool .boolean (by decide) ?_)
    exact add .float .float (by decide) (add .int .integer (by decide) .empty)

end Context

end TreeCheck
