import TreeCheck.Proofs.Check.Run

/-!
What a check can say. Errors and warnings are told apart by their codes, but for one code that
both may have: there the first words of the message tell them apart.
-/

namespace TreeCheck.Check

def errorCodes : List Code :=
  plainCodes ++ [.unresolvedType, .duplicateBinding, .typeRedefined, .notImplemented]

structure Mistake (d : Diagnostic) : Prop where
  severity_eq : d.severity = .error
  code_mem : d.code ∈ errorCodes
  unknown : d.code = .unresolvedType → ∃ rest, d.message = text "unknown " ++ rest

structure Doubt (d : Diagnostic) : Prop where
  severity_eq : d.severity = .warning
  code_eq : d.code = .shadowing ∨ d.code = .globalRedefined ∨
    d.code = .unresolvedType ∧ ∃ rest, d.message = text "object type " ++ rest

def Genuine (d : Diagnostic) : Prop :=
  Mistake d ∨ Doubt d

variable {env : Env}

theorem Mistake.of_ne {d : Diagnostic} (code : Code) (error : d.severity = .error)
    (coded : d.code = code) (member : code ∈ errorCodes) (other : code ≠ .unresolvedType) :
    Mistake d :=
  ⟨error, coded ▸ member, fun same => absurd (coded.symm.trans same) other⟩

theorem Direct.mistake {code : Code} {message : Text} (direct : Direct code message)
    (span : Span) : Mistake (.error code span message) := by
  rcases direct with plain | ⟨rfl, unknown⟩
  · have other : code ≠ .unresolvedType := by
      rintro rfl
      exact absurd plain (by decide)
    exact .of_ne code rfl rfl (List.mem_append_left _ plain) other
  · have member : Code.unresolvedType ∈ errorCodes := by decide
    exact ⟨rfl, member, fun _ => unknown⟩

theorem rebound_mistake (s : State) (name : Handle) (span : Span)
    (rejection : Context.Rejection) : Mistake (rebound env s name span rejection) := by
  unfold rebound noteAt
  split
  · exact .of_ne .duplicateBinding rfl rfl (by decide) (by decide)
  · exact .of_ne .duplicateBinding rfl rfl (by decide) (by decide)

theorem redefined_mistake (s : State) (name : Handle) (span : Span)
    (rejection : Context.Rejection) : Mistake (redefined env s name span rejection) := by
  unfold redefined
  dsimp only
  split
  · exact .of_ne .typeRedefined rfl rfl (by decide) (by decide)
  · exact .of_ne .typeRedefined rfl rfl (by decide) (by decide)

theorem unresolvable_mistake (span : Span) (rejection : Context.Rejection) :
    Mistake (unresolvable env span rejection) := by
  unfold unresolvable
  split
  · exact .of_ne .notImplemented rfl rfl (by decide) (by decide)
  · exact .of_ne .semantic rfl rfl (by decide) (by decide)

theorem unresolvedObject_doubt (s : State) (name : Handle) (span : Span) :
    Doubt (unresolvedObject env s name span) :=
  ⟨rfl, .inr (.inr ⟨rfl, env.name name ++ text " does not resolve as an annotation",
    List.append_assoc _ _ _⟩)⟩

theorem noteAt_doubt {d : Diagnostic} (doubt : Doubt d) (place : Option Span)
    (message : String) : Doubt (noteAt d place message) := by
  unfold noteAt
  split
  · exact ⟨doubt.severity_eq, doubt.code_eq⟩
  · exact doubt

theorem warningFor_doubt {s : State} {name : Handle} {span : Span} {warning : Diagnostic}
    (deserved : warningFor env s name span = some warning) : Doubt warning := by
  unfold warningFor at deserved
  split at deserved
  · split at deserved
    · cases deserved
      exact noteAt_doubt ⟨rfl, .inr (.inl rfl)⟩ _ _
    · cases deserved
  split at deserved
  · split at deserved
    · split at deserved
      · cases deserved
      · cases deserved
        exact noteAt_doubt ⟨rfl, .inl rfl⟩ _ _
    · cases deserved
  · cases deserved

def State.Genuine (s : State) : Prop :=
  ∀ d ∈ s.emitted.toList, Check.Genuine d

theorem State.Genuine.emit {s : State} (genuine : s.Genuine) {d : Diagnostic}
    (added : Check.Genuine d) : (s.emit d).Genuine := by
  intro other member
  rcases List.mem_append.mp (Array.toList_push ▸ member) with old | new
  · exact genuine other old
  · exact List.mem_singleton.mp new ▸ added

theorem Run.genuine {s t : State} (run : Run env s t) (start : s.Genuine) : t.Genuine := by
  induction run with
  | trans _ _ first second => exact second (first start)
  | scope _ _ inner => exact inner start
  | report _ span direct => exact start.emit (.inl (direct.mistake span))
  | warn _ deserved => exact start.emit (.inr (warningFor_doubt deserved))
  | rebind _ _ _ => exact start.emit (.inl (rebound_mistake _ _ _ _))
  | redefine _ _ _ => exact start.emit (.inl (redefined_mistake _ _ _ _))
  | misname _ _ _ => exact start.emit (.inl (unresolvable_mistake _ _))
  | nameObject _ _ _ _ => exact start.emit (.inr (unresolvedObject_doubt _ _ _))
  | repeatMember _ _ _ =>
    exact start.emit (.inl (.of_ne .duplicateBinding rfl rfl (by decide) (by decide)))
  | refl | record | annotate | bind | register | addMember => exact start

/-- A check never says that it closed a scope that was not open. -/
theorem Genuine.code_ne {d : Diagnostic} (genuine : Genuine d) : d.code ≠ .scopeUnderflow := by
  intro same
  rcases genuine with mistake | doubt
  · exact absurd (same ▸ mistake.code_mem) (by decide)
  · rcases doubt.code_eq with code | code | ⟨code, _⟩
    · exact absurd (code.symm.trans same) (by decide)
    · exact absurd (code.symm.trans same) (by decide)
    · exact absurd (code.symm.trans same) (by decide)

end TreeCheck.Check
