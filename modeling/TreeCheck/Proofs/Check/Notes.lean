import TreeCheck.Proofs.Check.Registry

/-!
Notes point at the right declaration. A check keeps the positions of declarations and definitions
beside the context, and looks them up when it has something to say about them. The two stay in step:
after every move, the position kept for a name in a scope is that of the latest declaration which
was accepted there, and this is the one that made the binding in the context.
-/

namespace TreeCheck.Check

/-- The declarations of a history that were accepted, the latest first: for a scope and a name, the
binding and its position. -/
def declarations (env : Env) : List Move → List ((Nat × Handle) × Symbol × Span)
  | [] => []
  | .declare name ty span :: past =>
    let ctx := (reached env past).ctx
    match ctx.declare name ty with
    | .ok _ => ((ctx.current, name), ⟨ctx.current, ctx.depth, ty⟩, span) :: declarations env past
    | .error _ => declarations env past
  | _ :: past => declarations env past

/-- The latest declaration of a name that was accepted in a scope. -/
def latest? (env : Env) (past : List Move) (scope : Nat) (name : Handle) : Option (Symbol × Span) :=
  (declarations env past).lookup (scope, name)

section

variable {env : Env} {source : Node → Prop} {past moves : List Move}

theorem declarations_other {move : Move} (other : ∀ name ty span, move ≠ .declare name ty span) :
    declarations env (move :: past) = declarations env past := by
  cases move with
  | declare name ty span => exact absurd rfl (other name ty span)
  | record | annotate | report | register | resolve | addMember | enter | leave => rfl

/-- The binding that a scope has for a name was made by the latest declaration there, and its
position is the one that is kept. -/
theorem latest_kept (env : Env) (moves : List Move) (scope : Nat) (name : Handle) :
    ((reached env moves).ctx.bindingsOf scope).find? name =
        (latest? env moves scope name).map (·.1) ∧
      (reached env moves).declaredAt scope name = (latest? env moves scope name).map (·.2) := by
  induction moves with
  | nil =>
    refine ⟨?_, rfl⟩
    show (Context.fresh.bindingsOf scope).find? name = none
    unfold Context.bindingsOf
    split
    · rfl
    · rfl
  | cons move past ih =>
    by_cases declares : ∃ other ty span, move = .declare other ty span
    · obtain ⟨other, ty, span, rfl⟩ := declares
      cases outcome : (reached env past).ctx.declare other ty with
      | error rejection =>
        simpa only [latest?, declarations, outcome, reached, State.declaredAt, State.take_declare,
          State.binding, State.tell_ctx, State.emit, State.tell_declared] using ih
      | ok next =>
        simp only [latest?, declarations, outcome, reached, State.declaredAt, State.take_declare,
          State.binding, State.tell_ctx, State.tell_declared, List.lookup_cons]
        rw [Context.find?_bindingsOf_declare (reached_sound env past) outcome]
        by_cases here : scope = (reached env past).ctx.current ∧ name = other
        · obtain ⟨rfl, rfl⟩ := here
          simp
        · have apart : ((scope, name) == ((reached env past).ctx.current, other)) = false := by
            refine beq_eq_false_iff_ne.mpr fun same => here ?_
            exact Prod.mk.inj same
          simp only [if_neg here, apart]
          exact ih
    · have others : ∀ name ty span, move ≠ .declare name ty span :=
        fun name ty span same => declares ⟨name, ty, span, same⟩
      obtain ⟨places, bindings⟩ := (State.take_frame env (reached env past) move).bindings_eq others
      rw [latest?, declarations_other others, reached, State.declaredAt, bindings, places]
      exact ih

theorem Course.declared_by (course : Course env source moves) {scope : Nat} {name : Handle}
    {symbol : Symbol} {place : Span}
    (made : ((scope, name), symbol, place) ∈ declarations env moves) :
    ∃ n, source n ∧ (name, place) ∈ n.declares := by
  induction moves with
  | nil => cases made
  | cons move past ih =>
    by_cases declares : ∃ other ty span, move = .declare other ty span
    · obtain ⟨other, ty, span, rfl⟩ := declares
      rw [declarations] at made
      split at made
      · rcases List.mem_cons.mp made with this | old
        · cases this
          cases course.2 with
          | @declare n _ _ _ node said known => exact ⟨n, node, said⟩
        · exact ih course.1 old
      · exact ih course.1 made
    · rw [declarations_other fun name ty span same => declares ⟨name, ty, span, same⟩] at made
      exact ih course.1 made

end

/-- The binding that a scope has for a name was made by a declaration of the source, the latest
there, and the diagnostic has one note, which is at the position of that declaration. -/
def PointsAt (env : Env) (source : Node → Prop) (past : List Move) (scope : Nat) (name : Handle)
    (symbol : Symbol) (d : Diagnostic) : Prop :=
  ((reached env past).ctx.bindingsOf scope).find? name = some symbol ∧
    ∃ n place, source n ∧ (name, place) ∈ n.declares ∧
      latest? env past scope name = some (symbol, place) ∧ d.notes.map (·.place) = [place]

def builtinNote (env : Env) (name : Handle) : Note :=
  ⟨.zero, env.name name ++ text " is a built-in type"⟩

/-- What a move tells after a history, and which notes it has. The report of a repeated binding
points at the binding of the current scope, a warning about an outer binding at the one that is
found, a warning about a global at its latest definition, and the report of a repeated type at the
first definition of the type; nothing else is told under these codes, but that members are
repeated. -/
inductive Noted (env : Env) (source : Node → Prop) (past : List Move) : Move → Diagnostic → Prop
  | duplicate {name : Handle} {ty : Ty} {span : Span} {symbol : Symbol} {d : Diagnostic}
      (code : d.code = .duplicateBinding)
      (points : PointsAt env source past (reached env past).ctx.current name symbol d) :
      Noted env source past (.declare name ty span) d
  | shadowing {name : Handle} {ty : Ty} {span : Span} {outer : Symbol} {d : Diagnostic}
      (code : d.code = .shadowing) (found : (reached env past).ctx.lookup name = some outer)
      (points : PointsAt env source past outer.scope name outer d) :
      Noted env source past (.declare name ty span) d
  | globalRedefined {name : Handle} {ty : Ty} {span : Span} {symbol : Symbol} {d : Diagnostic}
      (code : d.code = .globalRedefined)
      (points : PointsAt env source past globalScope name symbol d) :
      Noted env source past (.declare name ty span) d
  | typeRedefined {n : Node} {name : Handle} {ty : Ty} {span : Span} {d : Diagnostic}
      (code : d.code = .typeRedefined)
      (builtin : d.notes = [builtinNote env name] ↔ name ∈ Context.builtinTypes.map (·.1))
      (defined : name ∉ Context.builtinTypes.map (·.1) → ∃ m first place, source m ∧
        m.defines? = some (name, place) ∧ DefinedBy env past m name first place ∧
        d.notes = [⟨place, text "first definition here"⟩]) :
      Noted env source past (.register n name ty span) d
  | other {move : Move} {d : Diagnostic}
      (different : ∀ name ty span, move ≠ .declare name ty span)
      (code : d.code ∉ [.shadowing, .globalRedefined, .typeRedefined]) :
      Noted env source past move d

section

variable {env : Env} {source : Node → Prop} {past moves : List Move} {d : Diagnostic}
  {name : Handle} {ty : Ty} {span : Span}

theorem Course.pointsAt (course : Course env source past) {scope : Nat} {symbol : Symbol}
    (bound : ((reached env past).ctx.bindingsOf scope).find? name = some symbol)
    (plain : d.notes = []) (message : String) :
    PointsAt env source past scope name symbol
      (noteAt d ((reached env past).declaredAt scope name) message) := by
  obtain ⟨bindings, places⟩ := latest_kept env past scope name
  rw [bound] at bindings
  obtain ⟨⟨made, place⟩, latest, rfl⟩ := Option.map_eq_some_iff.mp bindings.symm
  have member : ((scope, name), made, place) ∈ declarations env past := by
    obtain ⟨later, earlier, split, _⟩ := List.lookup_eq_some_iff.mp latest
    rw [split]
    exact List.mem_append_right _ List.mem_cons_self
  obtain ⟨n, node, said⟩ := course.declared_by member
  refine ⟨bound, n, place, node, said, latest, ?_⟩
  rw [places, latest]
  simp [noteAt, Diagnostic.withNote, plain]

theorem bound_of_rejected {rejection : Context.Rejection}
    (rejected : (reached env past).ctx.declare name ty = .error rejection) : ∃ symbol,
      ((reached env past).ctx.bindingsOf (reached env past).ctx.current).find? name =
        some symbol := by
  have step : (reached env past).ctx.step (.declare name ty) = .error rejection := rejected
  cases Context.rejects_of_step step with
  | @bound _ existing _ inside stored =>
    have inner := Nat.ne_of_gt ((reached_sound env past).current_range inside).1
    simp only [Context.tables, Tables.inner?] at stored
    obtain ⟨table, kept, found⟩ := Option.bind_eq_some_iff.mp stored
    refine ⟨existing, ?_⟩
    rw [Context.bindingsOf, if_neg inner, kept]
    exact found

theorem Course.noted_declare (course : Course env source past)
    (told : d ∈ (Move.declare name ty span).told env (reached env past)) :
    Noted env source past (.declare name ty span) d := by
  rcases told_declare told with warned | ⟨rejection, rejected, rfl⟩
  · rcases warningFor_inv warned with ⟨code, symbol, found, rfl⟩ | ⟨code, outer, found, rfl⟩
    · have bound : ((reached env past).ctx.bindingsOf globalScope).find? name = some symbol := by
        rwa [Context.bindingsOf, if_pos rfl]
      exact .globalRedefined code (course.pointsAt bound rfl _)
    · have bound := (reached_sound env past).lookup_bound found
      exact .shadowing code found (course.pointsAt bound rfl _)
  · obtain ⟨symbol, bound⟩ := bound_of_rejected rejected
    exact .duplicate (rebound_code _ _ _ _) (course.pointsAt bound rfl _)

theorem definitionNote_ne (place : Span) :
    (⟨place, text "first definition here"⟩ : Note) ≠ builtinNote env name := by
  intro same
  have ending : text " is a built-in type" <:+ text "first definition here" :=
    ⟨env.name name, (congrArg Note.message same).symm⟩
  exact absurd ending (by decide)

theorem Course.noted_register (course : Course env source past) {n : Node}
    (told : d ∈ (Move.register n name ty span).told env (reached env past)) :
    Noted env source past (.register n name ty span) d := by
  obtain ⟨rejection, rejected, rfl⟩ := told_register told
  obtain ⟨first, found⟩ : ∃ first, (reached env past).ctx.typeNamed name = some first := by
    have step : (reached env past).ctx.step (.register name ty) = .error rejection := rejected
    cases Context.rejects_of_step step with
    | registered _ stored => exact ⟨_, stored⟩
  rcases registered_traced found with ⟨builtin, absent⟩ | ⟨m, place, defined, kept⟩
  · have among : name ∈ Context.builtinTypes.map (·.1) := List.mem_map_of_mem builtin
    have notes : (redefined env (reached env past) name span rejection).notes =
        [builtinNote env name] := by
      simp only [redefined, absent]
      rfl
    exact .typeRedefined (redefined_code _ _ _ _) ⟨fun _ => among, fun _ => notes⟩
      fun other => absurd among other
  · obtain ⟨node, said, before, part, free, _⟩ := course.definition defined
    have notes : (redefined env (reached env past) name span rejection).notes =
        [⟨place, text "first definition here"⟩] := by
      simp only [redefined, kept]
      rfl
    have other : name ∉ Context.builtinTypes.map (·.1) := by
      intro among
      obtain ⟨⟨_, ty'⟩, builtin, rfl⟩ := List.mem_map.mp among
      have registered : (reached env before).ctx.typeNamed _ = some ty' :=
        builtin_registered builtin
      rw [free] at registered
      cases registered
    refine .typeRedefined (redefined_code _ _ _ _) ⟨fun same => ?_, fun among => ?_⟩ fun _ =>
      ⟨m, first, place, node, said, defined, notes⟩
    · rw [notes] at same
      exact absurd (List.cons.inj same).1 (definitionNote_ne place)
    · exact absurd among other

theorem Course.noted {move : Move} (course : Course env source (move :: past))
    (told : d ∈ move.told env (reached env past)) : Noted env source past move d := by
  have code := course.told_codes told
  cases move with
  | declare name ty span => exact course.1.noted_declare told
  | register n name ty span => exact course.1.noted_register told
  | record | annotate | enter | leave => cases told
  | report =>
    have apart : ∀ c ∈ plainCodes ++ [.unresolvedType],
        c ∉ [Code.shadowing, .globalRedefined, .typeRedefined] := by decide
    refine .other ?_ (apart d.code code)
    exact nofun
  | resolve | addMember =>
    refine .other ?_ ?_
    · exact nofun
    · rw [List.mem_singleton.mp code]
      decide

end

/-- In a check of a tree on the fresh context, wherever it is broken off, everything a move tells
has the notes it should have. -/
theorem notes_point_at_declarations (env : Env) (t : Tree) :
    treeUntil env (fun _ _ => false) t = tree env t ∧
    ∀ halt, ∃ h : History env (· ∈ t.visits),
      h.state = endState (treeUntil env halt t) (.start .fresh) ∧
      ∀ move past, move :: past <:+ h.moves → ∃ told,
        (reached env (move :: past)).emitted.toList = (reached env past).emitted.toList ++ told ∧
        ∀ d ∈ told, Noted env (· ∈ t.visits) past move d := by
  refine ⟨treeUntil_never env t, fun halt => ?_⟩
  obtain ⟨h, reaches, _⟩ := tree_history env halt t
  refine ⟨h, reaches, fun move past part => ⟨move.told env (reached env past), ?_, ?_⟩⟩
  · rw [reached, State.take_emitted]
  · exact fun d told => (h.lawful.earlier part).noted told

end TreeCheck.Check
