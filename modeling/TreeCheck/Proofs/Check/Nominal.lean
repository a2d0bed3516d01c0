import TreeCheck.Proofs.Check.History

/-!
The types in the state of a check are known. Rejected definitions build object types of a name that
is taken, but none of them is bound, recorded, made a member or registered: what comes into the
state is built from types that were there, and from registered ones. So every lawful history leads
to a state in which each object type, at any depth inside any type, is the registered one.
-/

namespace TreeCheck.Check

/-- The type is in the state: as an entry of the registry, the type of a binding, of a member or of
a node. -/
inductive State.Holds (s : State) : Ty → Prop
  | registered {name : Handle} {ty : Ty} : s.ctx.typeNamed name = some ty → Holds s ty
  | bound {scope : Nat} {name : Handle} {symbol : Symbol} :
      (s.ctx.bindingsOf scope).find? name = some symbol → Holds s symbol.ty
  | member {owner name : Handle} {ty : Ty} : s.memberOf owner name = some ty → Holds s ty
  | recorded {id : Nat} {ty : Ty} : (id, ty) ∈ s.types.toList → Holds s ty

section

variable {env : Env} {source : Node → Prop} {past moves : List Move} {move : Move}

theorem Lawful.wellNamed (lawful : Lawful env source past move)
    (named : (reached env past).ctx.WellNamed) :
    (reached env (move :: past)).ctx.WellNamed := by
  cases lawful with
  | register node said above =>
    rw [reached, State.take_ctx]
    simp only [Move.op?, Option.map_some, Option.getD_some, Context.stepOrKeep, Context.step]
    split
    next next registered => exact named.register above registered
    next => exact named
  | record | annotate | report | declare | resolve | addMember | enter | leave =>
    refine named.of_types_eq ((State.take_frame env _ _).registry_eq ?_).2
    intro n name ty span same
    cases same

theorem Course.wellNamed (course : Course env source moves) :
    (reached env moves).ctx.WellNamed := by
  induction moves with
  | nil => exact Context.wellNamed_fresh
  | cons move past ih => exact course.2.wellNamed (ih course.1)

theorem Lawful.holds (lawful : Lawful env source past move) {ty : Ty}
    (held : (reached env (move :: past)).Holds ty) :
    (reached env past).Holds ty ∨ (reached env past).ctx.Knows ty ∨
      ∃ name, (reached env (move :: past)).ctx.typeNamed name = some ty := by
  cases held with
  | registered found => exact .inr (.inr ⟨_, found⟩)
  | bound found =>
    rcases State.bound_of_take env _ (reached_sound env past) found with old | ⟨span, rfl⟩
    · exact .inl (.bound old)
    · cases lawful with
      | declare _ _ known => exact .inr (.inl known)
  | member found =>
    rcases State.memberOf_of_take env _ found with old | ⟨span, rfl⟩
    · exact .inl (.member old)
    · cases lawful with
      | addMember _ _ _ known => exact .inr (.inl known)
  | recorded entry =>
    rcases State.recorded_of_take env _ entry with old | rfl
    · exact .inl (.recorded old)
    · cases lawful with
      | record _ known => exact .inr (.inl known)

theorem Course.knows (course : Course env source moves) {ty : Ty}
    (held : (reached env moves).Holds ty) : (reached env moves).ctx.Knows ty := by
  induction moves generalizing ty with
  | nil =>
    cases held with
    | registered found => exact Context.wellNamed_fresh.knows found
    | @bound scope name symbol found =>
      unfold Context.bindingsOf at found
      split at found
      · cases found
      · cases found
    | member found => cases found
    | recorded entry => cases entry
  | cons move past ih =>
    have grown := reached_extends env (List.suffix_cons move past)
    rcases course.2.holds held with old | known | ⟨name, found⟩
    · exact (ih course.1 old).mono grown
    · exact known.mono grown
    · exact course.wellNamed.knows found

end

end TreeCheck.Check
