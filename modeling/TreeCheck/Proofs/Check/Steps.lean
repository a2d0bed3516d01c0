import Mathlib.Order.Defs.PartialOrder
import TreeCheck.Proofs.Check.Nominal

/-!
Steps that continue a history. From the state of a history, such a step makes lawful moves only, and
what it gives back is said of the history it ends with: as a rule, that a type is known there. A
step that stops at a fault has made lawful moves up to it.

A step that ends with a result has also finished the definitions it began: each of their members is
in the table of the type that they name.
-/

namespace TreeCheck.Check

variable {α β : Type} {env : Env} {source : Node → Prop}

namespace History

def start : History env source :=
  ⟨[], trivial⟩

def state (h : History env source) : State :=
  reached env h.moves

def push (h : History env source) {move : Move} (lawful : Lawful env source h.moves move) :
    History env source :=
  ⟨move :: h.moves, h.lawful, lawful⟩

instance : Preorder (History env source) where
  le h k := h.moves <:+ k.moves
  le_refl h := List.suffix_refl h.moves
  le_trans _ _ _ := List.IsSuffix.trans

variable {h k l : History env source}

theorem le_push {move : Move} (lawful : Lawful env source h.moves move) : h ≤ h.push lawful :=
  List.suffix_cons move h.moves

def Knows (h : History env source) (ty : Ty) : Prop :=
  h.state.ctx.Knows ty

theorem Knows.later {ty : Ty} (known : h.Knows ty) (grown : h ≤ k) : k.Knows ty :=
  known.mono (reached_extends env grown)

theorem Knows.of_holds {ty : Ty} (held : h.state.Holds ty) : h.Knows ty :=
  h.lawful.knows held

theorem typeNamed_later {name : Handle} {ty : Ty} (found : h.state.ctx.typeNamed name = some ty)
    (grown : h ≤ k) : k.state.ctx.typeNamed name = some ty :=
  (reached_extends env grown).types name ty found

theorem memberOf_later {owner name : Handle} (there : h.state.memberOf owner name ≠ none)
    (grown : h ≤ k) : k.state.memberOf owner name ≠ none := by
  obtain ⟨ty, found⟩ := Option.ne_none_iff_exists'.mp there
  rw [state, reached_memberOf env grown found]
  exact Option.some_ne_none ty

theorem made_later {move : Move} (made : move ∈ h.moves) (grown : h ≤ k) : move ∈ k.moves :=
  grown.mem made

/-- Every member that the definition has is there, under the name of the type. -/
def Settled (h : History env source) (definition : Node) (owner : Handle) : Prop :=
  ∀ name ∈ definition.memberNames, h.state.memberOf owner name ≠ none

def Finished (h k : History env source) : Prop :=
  ∀ n name ty span, .register n name ty span ∈ k.moves →
    .register n name ty span ∈ h.moves ∨ k.Settled n name

theorem Finished.refl (h : History env source) : Finished h h :=
  fun _ _ _ _ made => .inl made

theorem Finished.trans (first : Finished h k) (second : Finished k l) (grown : k ≤ l) :
    Finished h l := by
  intro n name ty span made
  rcases second n name ty span made with earlier | settled
  · refine (first n name ty span earlier).imp_right fun settled member said => ?_
    exact memberOf_later (settled member said) grown
  · exact .inr settled

theorem Finished.push {move : Move} (lawful : Lawful env source h.moves move)
    (other : ∀ n name ty span, move ≠ .register n name ty span) : Finished h (h.push lawful) := by
  intro n name ty span made
  rcases List.mem_cons.mp made with same | old
  · exact absurd same.symm (other n name ty span)
  · exact .inl old

end History

open History

/-- From a history, the step makes lawful moves, and with a result it ends as `post` says. -/
def Continues (h : History env source) (x : Check α) (post : α → History env source → Prop) :
    Prop :=
  match x.run h.state with
  | .ok a t => ∃ k, h ≤ k ∧ k.state = t ∧ Finished h k ∧ post a k
  | .error _ t => ∃ k, h ≤ k ∧ k.state = t

/-- From a history, the step makes lawful moves and gives a type that is known then. -/
abbrev Gives (h : History env source) (x : Check Ty) : Prop :=
  Continues h x fun ty k => k.Knows ty

namespace Continues

variable {h : History env source} {x : Check α} {f : α → Check β}

theorem mono {post weaker : α → History env source → Prop} (continues : Continues h x post)
    (implies : ∀ a k, h ≤ k → post a k → weaker a k) : Continues h x weaker := by
  unfold Continues at continues ⊢
  split at continues
  · obtain ⟨k, grown, same, finished, holds⟩ := continues
    exact ⟨k, grown, same, finished, implies _ k grown holds⟩
  · exact continues

theorem bind {mid : α → History env source → Prop} {post : β → History env source → Prop}
    (first : Continues h x mid) (rest : ∀ a k, h ≤ k → mid a k → Continues k (f a) post) :
    Continues h (x >>= f) post := by
  unfold Continues at first ⊢
  rw [EStateM.run_bind]
  cases ends : x.run h.state with
  | error fault t => simpa only [ends] using first
  | ok a t =>
    simp only [ends] at first ⊢
    obtain ⟨k, grown, rfl, finished, holds⟩ := first
    have second := rest a k grown holds
    unfold Continues at second
    cases ends' : (f a).run k.state with
    | error fault u =>
      simp only [ends'] at second ⊢
      obtain ⟨l, more, same⟩ := second
      exact ⟨l, grown.trans more, same⟩
    | ok b u =>
      simp only [ends'] at second ⊢
      obtain ⟨l, more, same, settled, ended⟩ := second
      exact ⟨l, grown.trans more, same, finished.trans settled more, ended⟩

theorem of_reads {post : α → History env source → Prop} {a : α}
    (reads : x.run h.state = .ok a h.state) (holds : post a h) : Continues h x post := by
  rw [Continues, reads]
  exact ⟨h, le_refl h, rfl, .refl h, holds⟩

theorem pure {post : α → History env source → Prop} {a : α} (holds : post a h) :
    Continues h (Pure.pure a : Check α) post :=
  of_reads rfl holds

theorem of_move {post : α → History env source → Prop} {a : α} {move : Move}
    (lawful : Lawful env source h.moves move)
    (other : ∀ n name ty span, move ≠ .register n name ty span)
    (ends : x.run h.state = .ok a (h.state.take env move)) (holds : post a (h.push lawful)) :
    Continues h x post := by
  rw [Continues, ends]
  exact ⟨h.push lawful, le_push lawful, rfl, .push lawful other, holds⟩

theorem of_fault {post : α → History env source → Prop} {fault : Fault}
    (stops : x.run h.state = .error fault h.state) : Continues h x post := by
  rw [Continues, stops]
  exact ⟨h, le_refl h, rfl⟩

theorem discard {post : α → History env source → Prop} (continues : Continues h x post) :
    Continues h (Functor.discard x) fun _ _ => True :=
  continues.bind fun _ _ _ _ => pure trivial

theorem guarded {c : Prop} [Decidable c] {y : Check Unit} {next : Unit → Check β}
    {mid : Unit → History env source → Prop} {post : β → History env source → Prop}
    (guarded : Continues h y mid) (rest : ∀ k, h ≤ k → Continues k (next ()) post) :
    Continues h (if c then y >>= next else next ()) post := by
  split
  · exact guarded.bind fun _ k grown _ => rest k grown
  · exact rest h (le_refl h)

theorem mapM {xs : List β} {g : β → Check Ty}
    (each : ∀ b ∈ xs, ∀ k, h ≤ k → Gives k (g b)) :
    Continues h (xs.mapM g) fun types k => ∀ ty ∈ types, k.Knows ty := by
  induction xs generalizing h with
  | nil => exact pure fun _ member => absurd member List.not_mem_nil
  | cons b rest ih =>
    rw [List.mapM_cons]
    refine (each b List.mem_cons_self h (le_refl h)).bind fun ty k grown known => ?_
    refine (ih fun c member l more => ?_).bind fun types l more all => pure ?_
    · exact each c (List.mem_cons_of_mem _ member) l (grown.trans more)
    · intro other member
      rcases List.mem_cons.mp member with rfl | old
      · exact known.later more
      · exact all other old

theorem forM {xs : List β} {g : β → Check Unit}
    (each : ∀ b ∈ xs, ∀ k, h ≤ k → Continues k (g b) fun _ _ => True) :
    Continues h (xs.forM g) fun _ _ => True := by
  induction xs generalizing h with
  | nil => exact pure trivial
  | cons b rest ih =>
    refine (each b List.mem_cons_self h (le_refl h)).bind fun _ k grown _ => ih ?_
    intro c member l more
    exact each c (List.mem_cons_of_mem _ member) l (grown.trans more)

theorem foldlM {xs : List β} {g : Ty → β → Check Ty}
    (each : ∀ b ∈ xs, ∀ ty (k : History env source), Gives k (g ty b)) {ty : Ty}
    (known : h.Knows ty) : Gives h (xs.foldlM g ty) := by
  induction xs generalizing h ty with
  | nil => exact pure known
  | cons b rest ih =>
    rw [List.foldlM_cons]
    refine (each b List.mem_cons_self ty h).bind fun next k _ found => ih ?_ found
    exact fun c member => each c (List.mem_cons_of_mem _ member)

end Continues

/-- What a written type stands for is unresolved, registered, or a super type of a registered
type. -/
theorem State.resolved_hereditary {q : Ty → Prop} (s : State) (all : Ty.Hereditary q)
    {name : Handle} (entry : ∀ ty, s.ctx.typeNamed name = some ty → q ty) (span : Span) :
    q (s.resolved env name span).1 := by
  unfold State.resolved
  split
  · exact all.unresolved
  split
  · exact all.unresolved
  next ty resolves =>
    split
    · unfold Context.resolve at resolves
      split at resolves
      · cases resolves
        exact all.unresolved
      next found registered =>
        have holds : q found := entry found registered
        split at resolves
        · cases super : found.supers.find? fun s => s.kind = .object && s.objectName = name with
          | none =>
            cases super ▸ resolves
            exact all.unresolved
          | some ty' =>
            cases super ▸ resolves
            exact all.inside holds (.super (List.mem_of_find?_eq_some super) .self)
        split at resolves
        · cases resolves
        split at resolves
        · cases resolves
          exact holds
        · cases resolves
    split
    · exact all.unresolved
    · exact all.unresolved

/-! ### The steps on the state -/

section

variable (h : History env source)

theorem record_continues (id : Nat) {ty : Ty} (known : h.Knows ty) :
    Gives h (record id ty) := by
  refine .of_move (.record id known) ?_ rfl (known.later (le_push _))
  exact nofun

theorem annotate_continues (slot : Slot) (ty : Ty) :
    Continues h (annotate slot ty) fun _ _ => True := by
  refine .of_move (.annotate slot ty) ?_ rfl trivial
  exact nofun

theorem report_continues {code : Code} (span : Span) {message : Text}
    (direct : Direct code message) : Continues h (report code span message) fun _ _ => True := by
  refine .of_move (.report span direct) ?_ rfl trivial
  exact nofun

theorem failed_continues {code : Code} (plain : code ∈ plainCodes) (span : Span) (message : Text)
    {ty : Ty} (known : h.Knows ty) : Gives h (do report code span message; return ty) :=
  (report_continues h span (.inl plain)).bind fun _ _ grown _ => .pure (known.later grown)

theorem mismatch_continues (span : Span) (what : Text) (want got : Ty) :
    Continues h (mismatch env span what want got) fun _ _ => True :=
  report_continues h span (.inl (by decide))

theorem lookup_continues (name : Handle) :
    Continues h (lookup name) fun found k => ∀ symbol, found = some symbol → k.Knows symbol.ty := by
  refine .of_reads rfl fun symbol found => ?_
  exact .of_holds (.bound ((reached_sound env h.moves).lookup_bound found))

theorem objectNamed_continues (name : Handle) :
    Continues h (objectNamed name) fun found k =>
      ∀ ty, found = some ty → k.Knows ty ∧ k.state.ctx.typeNamed ty.objectName = some ty := by
  refine .of_reads rfl fun ty found => ?_
  obtain ⟨registered, object⟩ := Option.filter_eq_some_iff.mp found
  have known : h.Knows ty := .of_holds (.registered registered)
  exact ⟨known, known ty .self (of_decide_eq_true object)⟩

theorem member_continues (ty : Ty) (name : Handle) :
    Continues h (member ty name) fun found k => ∀ ty, found = some ty → k.Knows ty := by
  refine .of_reads rfl fun found same => ?_
  unfold State.member at same
  split at same
  next own =>
    cases same
    exact .of_holds (.member own)
  next =>
    obtain ⟨super, _, inherited⟩ := List.exists_of_findSome?_eq_some same
    exact .of_holds (.member inherited)

theorem spanOf_continues (n : Option Node) : Continues h (spanOf n) fun _ _ => True := by
  cases n with
  | some n => exact .pure trivial
  | none => exact .of_fault rfl

theorem declare_continues {n : Node} {name : Handle} {ty : Ty} {span : Span} (node : source n)
    (said : (name, span) ∈ n.declares) (known : h.Knows ty) :
    Continues h (declare env name ty span) fun _ _ => True := by
  have ends : (declare env name ty span).run h.state =
      .ok () (h.state.take env (.declare name ty span)) := by
    rw [declare_run, State.take_declare]
  refine .of_move (.declare node said known) ?_ ends trivial
  exact nofun

theorem resolved_known (name : Handle) (span : Span) :
    h.Knows (h.state.resolved env name span).1 :=
  h.state.resolved_hereditary (Context.Knows.hereditary _)
    (fun _ registered => h.lawful.knows (.registered registered)) span

theorem writtenType_continues (name : Handle) (span : Span) :
    Gives h (writtenType env name span) := by
  have ends : (writtenType env name span).run h.state =
      .ok (h.state.resolved env name span).1 (h.state.take env (.resolve name span)) := by
    rw [writtenType_run, State.take_resolve]
  refine .of_move (.resolve name span) ?_ ends ((resolved_known h name span).later (le_push _))
  exact nofun

theorem addMember_continues {n : Node} {owner name : Handle} {ty defined : Ty} {place : Span}
    (span : Span) (definition : .register n owner defined place ∈ h.moves)
    (said : name ∈ n.memberNames) (known : h.Knows ty) :
    Continues h (addMember env owner name ty span) fun _ k =>
      k.state.memberOf owner name ≠ none := by
  have lawful : Lawful env source h.moves (.addMember owner name ty span) :=
    .addMember span definition said known
  have there : (h.push lawful).state.memberOf owner name ≠ none := by
    show (h.state.take env (.addMember owner name ty span)).memberOf owner name ≠ none
    rw [State.take_addMember]
    split
    next first taken => exact fun free => absurd (taken.symm.trans free) (Option.some_ne_none first)
    next => simp [State.memberOf_withMember]
  have ends : ∃ added, (addMember env owner name ty span).run h.state =
      .ok added (h.state.take env (.addMember owner name ty span)) := by
    rw [addMember_run, State.take_addMember]
    cases h.state.memberOf owner name with
    | some first => exact ⟨false, rfl⟩
    | none => exact ⟨true, rfl⟩
  obtain ⟨added, ends⟩ := ends
  refine .of_move lawful ?_ ends there
  exact nofun

theorem openScope_continues : Continues h openScope fun _ _ => True := by
  refine .of_move .enter ?_ rfl trivial
  exact nofun

theorem closeScope_continues : Continues h closeScope fun _ _ => True := by
  cases closed : h.state.ctx.closeScope with
  | error rejection =>
    have stops : closeScope.run h.state = .error (.underflow h.state.ctx.last) h.state := by
      simp only [closeScope, EStateM.run_bind, EStateM.run_get, closed]
      rfl
    exact .of_fault stops
  | ok outer =>
    have ends : closeScope.run h.state = .ok () (h.state.take env .leave) := by
      rw [State.take_leave]
      simp only [closeScope, EStateM.run_bind, EStateM.run_get, closed, Context.stepOrKeep,
        Context.step]
      rfl
    refine .of_move .leave ?_ ends trivial
    intro n name ty span same
    cases same

variable {h}

/-- A definition: the type is registered, and what follows adds all its members. -/
theorem Continues.define {n : Node} {name : Handle} {supers : List Ty} {span : Span}
    {f : Unit → Check α} {post : α → History env source → Prop} (node : source n)
    (said : n.defines? = some (name, span))
    (above : ∀ super ∈ supers, h.state.ctx.typeNamed super.objectName = some super)
    (rest : ∀ k, h ≤ k → .register n name (.object name supers) span ∈ k.moves →
      Continues k (f ()) fun a l => l.Settled n name ∧ post a l) :
    Continues h (registerType env name (.object name supers) span >>= f) post := by
  have lawful : Lawful env source h.moves (.register n name (.object name supers) span) :=
    .register node said above
  have follows := rest (h.push lawful) (le_push lawful) List.mem_cons_self
  have reach : (h.push lawful).state = h.state.registering env name (.object name supers) span :=
    State.take_register env h.state n name _ span
  unfold Continues at follows ⊢
  rw [reach] at follows
  rw [EStateM.run_bind, registerType_run]
  dsimp only
  cases ends : (f ()).run (h.state.registering env name (.object name supers) span) with
  | error fault t =>
    simp only [ends] at follows ⊢
    obtain ⟨k, grown, same⟩ := follows
    exact ⟨k, (le_push lawful).trans grown, same⟩
  | ok a t =>
    simp only [ends] at follows ⊢
    obtain ⟨k, grown, same, finished, settled, holds⟩ := follows
    refine ⟨k, (le_push lawful).trans grown, same, ?_, holds⟩
    -- The definition is among the moves of `k` and not among those of `h`: its own members count.
    intro n' name' ty' span' made
    rcases finished n' name' ty' span' made with earlier | done
    · rcases List.mem_cons.mp earlier with this | old
      · cases this
        exact .inr settled
      · exact .inl old
    · exact .inr done

end

end TreeCheck.Check
