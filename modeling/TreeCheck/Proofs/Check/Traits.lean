import TreeCheck.Proofs.Check.Steps

/-!
Traits of what is in the tables. A check brings three kinds of things into its tables: names that it
binds, names that it registers types under, and types. If the first two have traits by the nodes
that declare or define them, and the third by the way they are built, then every step of a check
keeps to the traits, and whatever it takes out of the tables has them.
-/

namespace TreeCheck

/-- What is said of the things in the tables: of types, of the names that are bound, and of the
names that types are registered under. -/
structure Traits where
  type : Ty → Prop
  bound : Handle → Prop
  registered : Handle → Prop

namespace Traits

def any : Traits :=
  ⟨fun _ => True, fun _ => True, fun _ => True⟩

/-- The traits go over to whatever is made for the nodes: to names by their declarations and
definitions, and to types by the way they are built. -/
structure Suits (w : Traits) (source : Node → Prop) : Prop extends Ty.Hereditary w.type where
  declared {n : Node} {name : Handle} {span : Span} : source n → (name, span) ∈ n.declares →
    w.bound name
  defined {n : Node} {name : Handle} {span : Span} : source n → n.defines? = some (name, span) →
    w.registered name
  object {n : Node} {name : Handle} {span : Span} {supers : List Ty} : source n →
    n.defines? = some (name, span) → (∀ super ∈ supers, w.type super) →
      w.type (.object name supers)

theorem any_suits (source : Node → Prop) : any.Suits source where
  ofKind _ := trivial
  vector _ := trivial
  lambda _ _ := trivial
  inside _ _ := trivial
  declared _ _ := trivial
  defined _ _ := trivial
  object _ _ _ := trivial

end Traits

def Bindings.Bear (w : Traits) (t : Bindings) : Prop :=
  ∀ b ∈ t.entries, w.bound b.1 ∧ w.type b.2.ty

structure Tables.Bear (w : Traits) (t : Tables) : Prop where
  globals : Bindings.Bear w t.globals
  scopes : ∀ scope ∈ t.scopes.entries, Bindings.Bear w scope.2
  types : ∀ entry ∈ t.types.entries, w.registered entry.1 ∧ w.type entry.2

theorem Tables.bear_any (t : Tables) : t.Bear .any :=
  ⟨fun _ _ => ⟨trivial, trivial⟩, fun _ _ _ _ => ⟨trivial, trivial⟩, fun _ _ => ⟨trivial, trivial⟩⟩

theorem Bindings.Bear.insert {w : Traits} {t : Bindings} (bear : Bindings.Bear w t) {name : Handle}
    {symbol : Symbol} (named : w.bound name) (typed : w.type symbol.ty) :
    Bindings.Bear w (t.insert name symbol) := by
  intro b member
  rcases Table.mem_insert member with rfl | old
  · exact ⟨named, typed⟩
  · exact bear b old

namespace Context

variable {w : Traits} {ctx next : Context} {name : Handle} {ty : Ty}

theorem declare_bears (bear : ctx.tables.Bear w) (named : w.bound name) (typed : w.type ty)
    (declared : ctx.declare name ty = .ok next) : next.tables.Bear w := by
  rcases declare_ok declared with ⟨_, rfl⟩ | ⟨_, _, rfl⟩
  · exact ⟨bear.globals.insert named typed, bear.scopes, bear.types⟩
  · refine ⟨bear.globals, fun scope member => ?_, bear.types⟩
    rcases Table.mem_insert member with rfl | old
    · refine Bindings.Bear.insert (fun b among => ?_) named typed
      obtain ⟨table, present, inside⟩ := Table.mem_getD_empty among
      exact bear.scopes _ (Table.mem_of_find? present) b inside
    · exact bear.scopes scope old

theorem register_bears (bear : ctx.tables.Bear w) (named : w.registered name) (typed : w.type ty)
    (registered : ctx.register name ty = .ok next) : next.tables.Bear w := by
  obtain ⟨_, rfl⟩ := register_ok registered
  refine ⟨bear.globals, bear.scopes, fun entry member => ?_⟩
  rcases Table.mem_insert member with rfl | old
  · exact ⟨named, typed⟩
  · exact bear.types entry old

theorem closeScope_bears {top : Nat} (bear : ctx.tables.Bear w)
    (closed : ctx.closeScope = .ok (top, next)) : next.tables.Bear w := by
  rw [(closeScope_ok closed).2]
  exact ⟨bear.globals, bear.scopes, bear.types⟩

theorem lookup_bears (bear : ctx.tables.Bear w) {symbol : Symbol}
    (found : ctx.lookup name = some symbol) : w.type symbol.ty := by
  unfold lookup at found
  split at found
  next inner =>
    cases found
    obtain ⟨scope, _, table, kept, bound⟩ := lookupIn_some inner
    exact (bear.scopes _ (Table.mem_of_find? kept) _ (Table.mem_of_find? bound)).2
  next => exact (bear.globals _ (Table.mem_of_find? found)).2

theorem typeNamed_bears (bear : ctx.tables.Bear w) (found : ctx.typeNamed name = some ty) :
    w.type ty :=
  (bear.types _ (Table.mem_of_find? found)).2

end Context

namespace Check.State

variable {w : Traits} {s : State} {env : Env} {name : Handle} {ty : Ty}

/-- Everything in the tables of the state, the tables of members included, has the traits. -/
def Bears (w : Traits) (s : State) : Prop :=
  s.ctx.tables.Bear w ∧
    ∀ owner ∈ s.members.entries, ∀ member ∈ owner.2.entries, w.type member.2

theorem Bears.tell (bears : s.Bears w) (told : Option Diagnostic) : (s.tell told).Bears w := by
  cases told with
  | none => exact bears
  | some d => exact bears

theorem Bears.binding (bears : s.Bears w) (named : w.bound name) (typed : w.type ty)
    (span : Span) : (s.binding env name ty span).Bears w := by
  unfold State.binding
  split
  next ctx declared => exact ⟨Context.declare_bears bears.1 named typed declared, bears.2⟩
  next => exact bears

theorem Bears.registering (bears : s.Bears w) (named : w.registered name) (typed : w.type ty)
    (span : Span) : (s.registering env name ty span).Bears w := by
  unfold State.registering
  split
  next ctx registered => exact ⟨Context.register_bears bears.1 named typed registered, bears.2⟩
  next => exact bears

theorem Bears.withMember (bears : s.Bears w) (typed : w.type ty) (owner : Handle) :
    (s.withMember owner name ty).Bears w := by
  refine ⟨bears.1, fun own member part among => ?_⟩
  rcases Table.mem_insert member with rfl | old
  · rcases Table.mem_insert among with rfl | earlier
    · exact typed
    · obtain ⟨table, present, inside⟩ := Table.mem_getD_empty earlier
      exact bears.2 _ (Table.mem_of_find? present) _ inside
  · exact bears.2 own old part among

theorem Bears.member (bears : s.Bears w) {owner found : Ty}
    (same : s.member owner name = some found) : w.type found := by
  have own {h : Handle} {ty : Ty} (found : s.memberOf h name = some ty) : w.type ty := by
    obtain ⟨table, present, inside⟩ := Option.bind_eq_some_iff.mp found
    exact bears.2 _ (Table.mem_of_find? present) _ (Table.mem_of_find? inside)
  unfold State.member at same
  split at same
  next here =>
    cases same
    exact own here
  next =>
    obtain ⟨super, _, inherited⟩ := List.exists_of_findSome?_eq_some same
    exact own inherited

theorem Bears.resolved (all : Ty.Hereditary w.type) (bears : s.Bears w) (span : Span) :
    w.type (s.resolved env name span).1 :=
  s.resolved_hereditary all (fun _ => Context.typeNamed_bears bears.1) span

end Check.State

end TreeCheck
