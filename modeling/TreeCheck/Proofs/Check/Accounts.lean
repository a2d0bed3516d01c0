import Mathlib.Data.List.Flatten
import Mathlib.Data.List.Perm.Subperm
import TreeCheck.Proofs.Check.Traits
import TreeCheck.Proofs.Load.Harvest

/-!
What a check evaluates, beside what a walk visits. The check of a class evaluates the lambdas of its
methods and not the methods themselves; everything else it evaluates as it stands. A step `Accounts`
for numbers if it records types for none but these, each once, and for all of them unless it reports
an error. It accounts for the tables too: what it brings into them has the traits of what is there.
-/

namespace TreeCheck

namespace Node

/-- What is evaluated directly for a node: what is below it, but for the methods of a class their
lambdas. -/
def parts : Node → List Node
  | cls _ c =>
    c.fields.filterMap (·.default) ++ c.init.map lambda ++
      (c.methods.filterMap (·.lambda)).map lambda ++
      (c.preInit.toList ++ c.postInit.toList ++ c.final.toList ++ c.validate.toList)
  | n => n.children

def methods : Node → List Node
  | cls _ c => c.methods.map function
  | _ => []

theorem sizeOf_lt_of_mem_parts {part n : Node} (below : part ∈ n.parts) :
    sizeOf part < sizeOf n := by
  cases n with
  | cls site c =>
    simp only [parts, List.mem_append, List.mem_map, List.mem_filterMap] at below
    have child {m : Node} (among : m ∈ (cls site c).children) : sizeOf m < sizeOf (cls site c) :=
      sizeOf_lt_of_mem_children among
    rcases below with ((field | init) | ⟨l, ⟨f, member, present⟩, rfl⟩) | hook
    · exact child (by simp [children, field])
    · exact child (by simp [children, init])
    · have inner : lambda l ∈ (function f).children := by simp [children, present]
      have smaller := sizeOf_lt_of_mem_children inner
      have outer : function f ∈ (cls site c).children := by simp [children, member]
      exact Nat.lt_trans smaller (child outer)
    · refine child (List.mem_append_right _ ?_)
      simpa only [List.mem_append] using hook
  | _ => exact sizeOf_lt_of_mem_children below

/-- The node and everything that is evaluated for it. -/
def evaluated (n : Node) : List Node :=
  n :: n.parts.attach.flatMap fun ⟨part, below⟩ =>
    have := sizeOf_lt_of_mem_parts below
    evaluated part
termination_by sizeOf n

theorem evaluated_eq (n : Node) : n.evaluated = n :: n.parts.flatMap evaluated := by
  rw [evaluated]
  simp [List.flatMap_subtype]

theorem functions_evaluated (functions : List (Function Node)) :
    ((functions.map function).flatMap evaluated).Perm
      (functions.map function ++
        ((functions.filterMap (·.lambda)).map lambda).flatMap evaluated) := by
  induction functions with
  | nil => exact .refl _
  | cons f rest ih =>
    have own : evaluated (function f) =
        function f :: ((f.lambda.map lambda).toList).flatMap evaluated := by
      rw [evaluated_eq]
      rfl
    have inner : ((f :: rest).filterMap (·.lambda)).map lambda =
        (f.lambda.map lambda).toList ++ (rest.filterMap (·.lambda)).map lambda := by
      cases present : f.lambda <;> simp [present]
    rw [List.map_cons, List.flatMap_cons, own, inner, List.flatMap_append, List.cons_append,
      List.cons_append]
    exact .cons _ ((ih.append_left _).trans (List.perm_append_comm_assoc _ _ _))

theorem children_evaluated (n : Node) :
    (n.children.flatMap evaluated).Perm (n.methods ++ n.parts.flatMap evaluated) := by
  cases n with
  | cls site c =>
    simp only [children, parts, methods, List.flatMap_append]
    have functions := functions_evaluated c.methods
    have aside (first named inner rest : List Node) :
        (first ++ (named ++ inner) ++ rest).Perm (named ++ (first ++ inner ++ rest)) := by
      simp only [List.append_assoc]
      exact List.perm_append_comm_assoc _ _ _
    exact ((functions.append_left _).append_right _).trans (aside _ _ _ _)
  | _ => exact .refl _

theorem visits_perm (n : Node) :
    (n.visits fun _ => true).Perm
      (n.evaluated ++ (n.visits fun _ => true).flatMap methods) := by
  have deeper : (n.children.flatMap (visits fun _ => true)).Perm
      (n.children.flatMap evaluated ++
        (n.children.flatMap (visits fun _ => true)).flatMap methods) := by
    have each : (n.children.flatMap (visits fun _ => true)).Perm
        (n.children.flatMap fun child =>
          child.evaluated ++ (child.visits fun _ => true).flatMap methods) :=
      List.Perm.flatMap_left _ fun child below =>
        have := sizeOf_lt_of_mem_children below
        visits_perm child
    rw [List.flatMap_assoc]
    exact each.trans (List.flatMap_append_perm _ _ _).symm
  rw [visits_eq, if_pos rfl, evaluated_eq, List.flatMap_cons, List.cons_append]
  refine .cons _ (deeper.trans ?_)
  rw [← List.append_assoc]
  exact ((children_evaluated n).trans List.perm_append_comm).append_right _
termination_by sizeOf n

/-- The numbers of what is evaluated for nodes. -/
def evaluatedIds (nodes : List Node) : List Nat :=
  (nodes.flatMap evaluated).map id

theorem evaluatedIds_append (nodes others : List Node) :
    evaluatedIds (nodes ++ others) = evaluatedIds nodes ++ evaluatedIds others := by
  rw [evaluatedIds, List.flatMap_append, List.map_append]
  rfl

theorem evaluatedIds_single (n : Node) : evaluatedIds [n] = n.id :: evaluatedIds n.parts := by
  rw [evaluatedIds, List.flatMap_singleton, evaluated_eq, List.map_cons]
  rfl

theorem evaluatedIds_flatMap {β : Type} (part : β → List Node) (list : List β) :
    evaluatedIds (list.flatMap part) = list.flatMap fun b => evaluatedIds (part b) := by
  rw [evaluatedIds, List.flatMap_assoc, List.map_flatMap]
  rfl

theorem evaluatedIds_slots {β : Type} (slot : β → Option Node) (list : List β) :
    evaluatedIds (list.filterMap slot) = list.flatMap fun b => evaluatedIds (slot b).toList := by
  rw [List.filterMap_eq_flatMap_toList, evaluatedIds_flatMap]

end Node

def Tree.methods (t : Tree) : List Node :=
  t.visits.flatMap Node.methods

namespace Check

open Node (evaluatedIds)

variable {α β : Type}

namespace State

/-- The numbers of the nodes whose types were recorded, in order. -/
def ids (s : State) : List Nat :=
  s.types.toList.map (·.1)

def errors (s : State) : Nat :=
  s.emitted.toList.countP (·.severity = .error)

/-- From the one state to the other, types were recorded for none but the numbers, each once, and
for all of them if no error was reported. -/
structure Covers (s : State) (ids : List Nat) (t : State) : Prop where
  errors : s.errors ≤ t.errors
  added : ∃ added, t.ids = s.ids ++ added ∧ added.Subperm ids ∧
    (t.errors = s.errors → added.Perm ids)

variable {s t u : State} {ids more : List Nat}

theorem errors_emit (s : State) (d : Diagnostic) :
    (s.emit d).errors = s.errors + if d.severity = .error then 1 else 0 := by
  show (s.emitted.push d).toList.countP _ = _
  rw [Array.toList_push, List.countP_append, List.countP_singleton]
  simp [errors]

theorem errors_le_emit (s : State) (d : Diagnostic) : s.errors ≤ (s.emit d).errors := by
  rw [errors_emit]
  exact Nat.le_add_right _ _

theorem Covers.quiet (types : t.types = s.types) (errors : s.errors ≤ t.errors) :
    s.Covers [] t :=
  ⟨errors, [], by rw [List.append_nil, State.ids, State.ids, types], .refl _, fun _ => .refl _⟩

theorem Covers.failed (types : t.types = s.types) (errors : s.errors < t.errors)
    (ids : List Nat) : s.Covers ids t :=
  ⟨Nat.le_of_lt errors, [], by rw [List.append_nil, State.ids, State.ids, types],
    List.nil_subperm, fun same => absurd same (Nat.ne_of_gt errors)⟩

theorem Covers.trans (first : s.Covers ids t) (second : t.Covers more u) :
    s.Covers (ids ++ more) u := by
  obtain ⟨added, recorded, among, all⟩ := first.added
  obtain ⟨later, recordedLater, amongLater, allLater⟩ := second.added
  have early := first.errors
  have late := second.errors
  refine ⟨Nat.le_trans early late, added ++ later, ?_, among.append amongLater, fun same => ?_⟩
  · rw [recordedLater, recorded, List.append_assoc]
  · exact (all (by omega)).append (allLater (by omega))

theorem Covers.perm (covers : s.Covers ids t) (same : ids.Perm more) : s.Covers more t := by
  obtain ⟨added, recorded, among, all⟩ := covers.added
  exact ⟨covers.errors, added, recorded, same.subperm_left.mp among,
    fun none => (all none).trans same⟩

end State

/-- A step that ends records types for none but the numbers, each once, and for all of them unless
it reports an error. It keeps to the traits of the tables, and its result is as `post` says. -/
def Accounts (w : Traits) (ids : List Nat) (x : Check α) (post : α → Prop) : Prop :=
  ∀ s, s.Bears w → ∀ a t, x.run s = .ok a t → post a ∧ t.Bears w ∧ s.Covers ids t

namespace Accounts

variable {w : Traits} {ids more : List Nat} {x : Check α} {f : α → Check β} {post : α → Prop}
  {goal : β → Prop}

theorem pure {a : α} (holds : post a) : Accounts w [] (Pure.pure a) post := by
  intro s bears b t ends
  cases ends
  exact ⟨holds, bears, .quiet rfl (Nat.le_refl _)⟩

theorem of_reads {look : State → α} (reads : ∀ s, x.run s = .ok (look s) s)
    (holds : ∀ s, s.Bears w → post (look s)) : Accounts w [] x post := by
  intro s bears a t ends
  cases (reads s).symm.trans ends
  exact ⟨holds s bears, bears, .quiet rfl (Nat.le_refl _)⟩

theorem bind (first : Accounts w ids x post) (rest : ∀ a, post a → Accounts w more (f a) goal) :
    Accounts w (ids ++ more) (x >>= f) goal := by
  intro s bears b u ends
  rw [EStateM.run_bind] at ends
  cases mid : x.run s with
  | error fault t =>
    rw [mid] at ends
    cases ends
  | ok a t =>
    rw [mid] at ends
    obtain ⟨holds, kept, covers⟩ := first s bears a t mid
    obtain ⟨done, keptLater, coversLater⟩ := rest a holds t kept b u ends
    exact ⟨done, keptLater, covers.trans coversLater⟩

theorem skip (first : Accounts w [] x post) (rest : ∀ a, post a → Accounts w ids (f a) goal) :
    Accounts w ids (x >>= f) goal :=
  first.bind rest

theorem last (first : Accounts w ids x post) (rest : ∀ a, post a → Accounts w [] (f a) goal) :
    Accounts w ids (x >>= f) goal :=
  List.append_nil ids ▸ first.bind rest

theorem perm (accounts : Accounts w ids x post) (same : ids.Perm more) :
    Accounts w more x post := by
  intro s bears a t ends
  obtain ⟨holds, kept, covers⟩ := accounts s bears a t ends
  exact ⟨holds, kept, covers.perm same⟩

theorem mono {weaker : α → Prop} (accounts : Accounts w ids x post)
    (implies : ∀ a, post a → weaker a) : Accounts w ids x weaker :=
  fun s bears a t ends => (accounts s bears a t ends).imp_left (implies a)

theorem discard (accounts : Accounts w ids x post) :
    Accounts w ids (Functor.discard x) fun _ => True :=
  accounts.last fun _ _ => pure trivial

theorem guarded {c : Prop} [Decidable c] {y : Check Unit} {next : Unit → Check β}
    (guarded : Accounts w [] y fun _ => True) (rest : Accounts w ids (next ()) goal) :
    Accounts w ids (if c then y >>= next else next ()) goal := by
  split
  · exact guarded.skip fun _ _ => rest
  · exact rest

theorem mapM {xs : List β} {g : β → Check α} {of : β → List Nat}
    (each : ∀ b ∈ xs, Accounts w (of b) (g b) post) :
    Accounts w (xs.flatMap of) (xs.mapM g) fun results => ∀ a ∈ results, post a := by
  induction xs with
  | nil => exact pure nofun
  | cons b rest ih =>
    rw [List.mapM_cons, List.flatMap_cons]
    refine (each b List.mem_cons_self).bind fun a holds => ?_
    refine (ih fun c member => each c (List.mem_cons_of_mem _ member)).last fun results all => ?_
    exact pure (List.forall_mem_cons.mpr ⟨holds, all⟩)

theorem forM {xs : List β} {g : β → Check Unit} {of : β → List Nat}
    (each : ∀ b ∈ xs, Accounts w (of b) (g b) fun _ => True) :
    Accounts w (xs.flatMap of) (xs.forM g) fun _ => True := by
  induction xs with
  | nil => exact pure trivial
  | cons b rest ih =>
    rw [List.flatMap_cons]
    refine (each b List.mem_cons_self).bind fun _ _ => ?_
    exact ih fun c member => each c (List.mem_cons_of_mem _ member)

theorem forM_quiet {xs : List β} {g : β → Check Unit}
    (each : ∀ b ∈ xs, Accounts w [] (g b) fun _ => True) :
    Accounts w [] (xs.forM g) fun _ => True :=
  (forM each).perm (.of_eq (List.flatMap_eq_nil_iff.mpr fun _ _ => rfl))

theorem foldlM {xs : List β} {g : α → β → Check α} {of : β → List Nat}
    (each : ∀ b ∈ xs, ∀ a, Accounts w (of b) (g a b) post) {a : α} (start : post a) :
    Accounts w (xs.flatMap of) (xs.foldlM g a) post := by
  induction xs generalizing a with
  | nil => exact pure start
  | cons b rest ih =>
    rw [List.foldlM_cons, List.flatMap_cons]
    refine (each b List.mem_cons_self a).bind fun next holds => ih ?_ holds
    exact fun c member => each c (List.mem_cons_of_mem _ member)

theorem own {n : Node} (parts : List Node) (same : n.parts = parts)
    (accounts : Accounts w (evaluatedIds parts ++ [n.id]) x post) :
    Accounts w (evaluatedIds [n]) x post := by
  rw [Node.evaluatedIds_single, same]
  exact accounts.perm (List.perm_append_singleton _ _)

end Accounts

/-! ### The steps on the state -/

variable {w : Traits}

theorem record_accounts (id : Nat) {ty : Ty} (typed : w.type ty) :
    Accounts w [id] (record id ty) w.type := by
  intro s bears a t ends
  cases ends
  refine ⟨typed, bears, Nat.le_refl _, [id], ?_, .refl _, fun _ => .refl _⟩
  show (s.types.push (id, ty)).toList.map (·.1) = _
  rw [Array.toList_push, List.map_append]
  rfl

/-- An error that is reported accounts for whatever is not recorded because of it. -/
theorem report_accounts (code : Code) (span : Span) (message : Text) (ids : List Nat) :
    Accounts w ids (report code span message) fun _ => True := by
  intro s bears a t ends
  cases ends
  have more : s.errors < (s.emit (.error code span message)).errors := by
    rw [State.errors_emit]
    exact Nat.lt_succ_self _
  refine ⟨trivial, bears, ?_⟩
  exact State.Covers.failed (s := s) (t := s.emit (.error code span message)) rfl more ids

theorem failed_accounts (code : Code) (span : Span) (message : Text) {ty : Ty} (typed : w.type ty)
    (ids : List Nat) : Accounts w ids (do report code span message; return ty) w.type :=
  (report_accounts code span message ids).last fun _ _ => .pure typed

variable {env : Env}

theorem mismatch_accounts (span : Span) (what : Text) (want got : Ty) :
    Accounts w [] (mismatch env span what want got) fun _ => True :=
  report_accounts _ _ _ []

theorem annotate_accounts (slot : Slot) (ty : Ty) :
    Accounts w [] (annotate slot ty) fun _ => True := by
  intro s bears a t ends
  cases ends
  exact ⟨trivial, bears, .quiet rfl (Nat.le_refl _)⟩

theorem openScope_accounts : Accounts w [] openScope fun _ => True := by
  intro s bears a t ends
  cases ends
  exact ⟨trivial, bears, .quiet rfl (Nat.le_refl _)⟩

theorem closeScope_accounts : Accounts w [] closeScope fun _ => True := by
  intro s bears a t ends
  simp only [closeScope, EStateM.run_bind, EStateM.run_get] at ends
  cases closed : s.ctx.closeScope with
  | error rejection =>
    rw [closed] at ends
    cases ends
  | ok outer =>
    rw [closed] at ends
    cases ends
    have kept : outer.2.tables.Bear w := Context.closeScope_bears bears.1 closed
    exact ⟨trivial, ⟨kept, bears.2⟩, .quiet rfl (Nat.le_refl _)⟩

theorem lookup_accounts (name : Handle) :
    Accounts w [] (lookup name) fun found => ∀ symbol, found = some symbol → w.type symbol.ty :=
  .of_reads (fun _ => rfl) fun _ bears _ found => Context.lookup_bears bears.1 found

theorem objectNamed_accounts (name : Handle) :
    Accounts w [] (objectNamed name) fun found => ∀ ty, found = some ty → w.type ty :=
  .of_reads (fun _ => rfl) fun _ bears _ found =>
    Context.typeNamed_bears bears.1 (Option.filter_eq_some_iff.mp found).1

theorem member_accounts (ty : Ty) (name : Handle) :
    Accounts w [] (member ty name) fun found => ∀ ty, found = some ty → w.type ty :=
  .of_reads (fun _ => rfl) fun _ bears _ found => bears.member found

theorem spanOf_accounts (n : Option Node) : Accounts w [] (spanOf n) fun _ => True := by
  cases n with
  | none => exact fun s _ a t ends => by cases ends
  | some n => exact .pure trivial

theorem State.tell_covers (s : State) (told : Option Diagnostic) : s.Covers [] (s.tell told) := by
  cases told with
  | none => exact .quiet rfl (Nat.le_refl _)
  | some d => exact .quiet rfl (s.errors_le_emit d)

section

variable {source : Node → Prop} (suits : w.Suits source)
include suits

theorem declare_accounts {n : Node} {name : Handle} {ty : Ty} {span : Span} (node : source n)
    (said : (name, span) ∈ n.declares) (typed : w.type ty) :
    Accounts w [] (declare env name ty span) fun _ => True := by
  intro s bears a t ends
  rw [declare_run] at ends
  cases ends
  refine ⟨trivial, (bears.tell _).binding (suits.declared node said) typed span, ?_⟩
  refine (s.tell_covers (warningFor env s name span)).trans ?_
  generalize s.tell _ = u
  unfold State.binding
  split
  · exact .quiet rfl (Nat.le_refl _)
  · exact .quiet rfl (u.errors_le_emit _)

theorem registerType_accounts {n : Node} {name : Handle} {supers : List Ty} {span : Span}
    (node : source n) (said : n.defines? = some (name, span))
    (above : ∀ super ∈ supers, w.type super) :
    Accounts w [] (registerType env name (.object name supers) span) fun _ => True := by
  intro s bears a t ends
  rw [registerType_run] at ends
  cases ends
  have typed : w.type (.object name supers) := suits.object node said above
  refine ⟨trivial, bears.registering (suits.defined node said) typed span, ?_⟩
  unfold State.registering
  split
  · exact .quiet rfl (Nat.le_refl _)
  · exact .quiet rfl (s.errors_le_emit _)

theorem writtenType_accounts (name : Handle) (span : Span) :
    Accounts w [] (writtenType env name span) w.type := by
  intro s bears a t ends
  rw [writtenType_run] at ends
  cases ends
  exact ⟨bears.resolved suits.toHereditary span, bears.tell _, s.tell_covers _⟩

end

theorem addMember_accounts (owner name : Handle) {ty : Ty} (span : Span) (typed : w.type ty) :
    Accounts w [] (addMember env owner name ty span) fun _ => True := by
  intro s bears a t ends
  rw [addMember_run] at ends
  cases present : s.memberOf owner name with
  | some first =>
    rw [present] at ends
    cases ends
    exact ⟨trivial, bears, .quiet rfl (s.errors_le_emit _)⟩
  | none =>
    rw [present] at ends
    cases ends
    exact ⟨trivial, bears.withMember typed owner, .quiet rfl (Nat.le_refl _)⟩

end Check

end TreeCheck
