import TreeCheck.Session
import TreeCheck.Proofs.Check.Emitted
import TreeCheck.Proofs.Check.Rules
import TreeCheck.Proofs.Diagnostic.Bag
import TreeCheck.Proofs.Diagnostic.Key
import TreeCheck.Proofs.Load.Complete

/-!
What is said about a document. Reading it and the pass over its tree emit diagnostics in some
order, whatever the limit of the bag; the bag of a result is made from these alone, and from the
timings where they are wanted.
-/

namespace TreeCheck.Session

/-! ### The bag of a result -/

theorem withTimings_items (b : Bag) (entry : Diagnostic) :
    (withTimings b entry).items.toList = b.items.toList ++ [entry] := by
  have single : ((Bag.empty 0).add entry).items = #[entry] := by
    simp [Bag.add, Bag.isFull, Bag.empty]
  unfold withTimings
  split
  next full => simp [Bag.merge, single, (Bag.add_of_full full).1]
  next room => simp [(Bag.add_of_room room).1]

theorem mem_finishBag {o : Options} {file : Nat} {w : Stopwatch} {emitted : List Diagnostic}
    {d : Diagnostic} :
    d ∈ (finishBag o file w emitted).items.toList ↔
      d ∈ Bag.distinct [] (Bag.within o.limit emitted) ∨ o.timings ∧ d = timingEntry file w := by
  have sorted : d ∈ (((Bag.empty o.limit).addAll emitted).dedup.sort).items.toList ↔
      d ∈ Bag.distinct [] (Bag.within o.limit emitted) := by
    rw [Bag.mem_sort, ← Bag.addAll_items]
    rfl
  unfold finishBag
  dsimp only
  split
  next wanted => rw [withTimings_items, List.mem_append, List.mem_singleton, sorted]; simp [wanted]
  next unwanted => rw [sorted]; simp [unwanted]

/-- There is an error in the bag of a result if there is one among the first diagnostics, as many
as the limit leaves room for; provided that nothing but errors has the key of an error. -/
theorem finishBag_hasErrors {o : Options} {file : Nat} {w : Stopwatch}
    {emitted : List Diagnostic}
    (apart : ∀ d ∈ emitted, ∀ e ∈ emitted, d.key = e.key → d.severity = .error →
      e.severity = .error) :
    (finishBag o file w emitted).hasErrors ↔
      ∃ d ∈ Bag.within o.limit emitted, d.severity = .error := by
  rw [Bag.hasErrors_iff]
  constructor
  · rintro ⟨d, member, error⟩
    rcases mem_finishBag.mp member with found | ⟨_, rfl⟩
    · exact ⟨d, Bag.mem_of_mem_distinct found, error⟩
    · have info : (timingEntry file w).severity = .info := rfl
      exact absurd (info.symm.trans error) (by decide)
  · rintro ⟨d, member, error⟩
    obtain ⟨kept, found, key⟩ := Bag.exists_mem_distinct member List.not_mem_nil
    refine ⟨kept, mem_finishBag.mpr (.inl found), ?_⟩
    exact apart d (Bag.mem_within member) kept
      (Bag.mem_within (Bag.mem_of_mem_distinct found)) key.symm error

/-! ### What is said -/

def Said (d : Diagnostic) : Prop :=
  Load.Objection d ∨ Check.Genuine d

theorem same_code_of_id {c e : Code}
    (first : c ∈ [.malformed, .unknownOperator] ++ Check.errorCodes)
    (second : e ∈ [.shadowing, .globalRedefined, .unresolvedType]) (same : c.id = e.id) :
    c = .unresolvedType ∧ e = .unresolvedType := by
  have told : ∀ c ∈ [.malformed, .unknownOperator] ++ Check.errorCodes,
      ∀ e ∈ [Code.shadowing, .globalRedefined, .unresolvedType], c.id = e.id →
        c = .unresolvedType ∧ e = .unresolvedType := by
    decide
  exact told c first e second same

/-- Nothing but errors has the key of an error: only under one code there are errors and
warnings, and there the messages begin with different words. -/
theorem Said.error_of_key {d e : Diagnostic} (first : Said d) (second : Said e)
    (same : d.key = e.key) (error : d.severity = .error) : e.severity = .error := by
  obtain ⟨ids, _, messages⟩ := Diagnostic.key_inj same
  rcases second with objection | mistake | doubt
  · exact objection.1
  · exact mistake.severity_eq
  exfalso
  have warned : e.code ∈ [.shadowing, .globalRedefined, .unresolvedType] := by
    rcases doubt.code_eq with code | code | ⟨code, _⟩ <;> simp [code]
  rcases first with objection | mistake | other
  · have coded : d.code ∈ [.malformed, .unknownOperator] ++ Check.errorCodes := by
      rcases objection.2 with code | code <;> simp [code]
    have clash := (same_code_of_id coded warned ids).1
    rcases objection.2 with code | code
    · exact absurd (code.symm.trans clash) (by decide)
    · exact absurd (code.symm.trans clash) (by decide)
  · obtain ⟨left, right⟩ :=
      same_code_of_id (List.mem_append_right _ mistake.code_mem) warned ids
    obtain ⟨unknown, starts⟩ := mistake.unknown left
    rcases doubt.code_eq with code | code | ⟨_, object, begins⟩
    · exact absurd (code.symm.trans right) (by decide)
    · exact absurd (code.symm.trans right) (by decide)
    · rw [starts, begins] at messages
      have letters : some (117 : UInt8) = some 111 := congrArg List.head? messages
      exact absurd letters (by decide)
  · exact absurd (other.severity_eq.symm.trans error) (by decide)

/-- The diagnostics that the reading of a source file emits, and after a sound reading the pass over
its tree, in their order. -/
def said (warnings : Check.Options) (f : SourceFile) (names : Interner) : List Diagnostic :=
  let out := Load.ofFile f names
  match out.failure with
  | some (.malformed ..) => out.diagnostics
  | some failure => out.diagnostics ++ [.error .malformed ⟨f.id, 0, 0⟩ failure.message]
  | none =>
    match (Check.tree ⟨out.names, warnings⟩ out.tree).run (.start .fresh) with
    | .ok _ s | .error _ s => out.diagnostics ++ s.emitted.toList

theorem pass_ends (warnings : Check.Options) (f : SourceFile) (names : Interner) :
    ∃ s, (Check.tree ⟨(Load.ofFile f names).names, warnings⟩ (Load.ofFile f names).tree).run
        (.start .fresh) = .ok () s ∧ s.Genuine := by
  obtain ⟨s, ends, run⟩ := Check.tree_ends ⟨(Load.ofFile f names).names, warnings⟩
    (Load.ofFile_complete f names).1 (.start .fresh)
  exact ⟨s, ends, run.genuine fun _ member => absurd member List.not_mem_nil⟩

theorem said_of_mem {warnings : Check.Options} {f : SourceFile} {names : Interner}
    {d : Diagnostic} (member : d ∈ said warnings f names) : Said d := by
  have read {d : Diagnostic} (found : d ∈ (Load.ofFile f names).diagnostics) : Said d :=
    .inl ((Load.ofFile_complete f names).2 d found)
  obtain ⟨s, ends, genuine⟩ := pass_ends warnings f names
  unfold said at member
  dsimp only at member
  split at member
  · exact read member
  · rcases List.mem_append.mp member with found | last
    · exact read found
    · rw [List.mem_singleton.mp last]
      exact .inl ⟨rfl, .inl rfl⟩
  · rw [ends] at member
    rcases List.mem_append.mp member with found | later
    · exact read found
    · exact .inr (genuine d later)

/-- A check of a source file by the standard pass is never aborted, and its bag is made from what
is said about the file. -/
theorem checkSource_said {o : Options} (standard : o.pass = Check.tree) (f : SourceFile)
    (names : Interner) :
    (checkSource o f names).1.aborted = none ∧
      ∃ w, (checkSource o f names).1.bag = finishBag o f.id w (said o.warnings f names) := by
  obtain ⟨s, ends, _⟩ := pass_ends o.warnings f names
  unfold checkSource said
  dsimp only
  cases reading : (Load.ofFile f names).failure with
  | none =>
    simp only [passed, standard, ends]
    exact ⟨trivial, _, rfl⟩
  | some failure =>
    cases failure with
    | noFile => exact ⟨rfl, _, rfl⟩
    | syntaxFault path fault => exact ⟨rfl, _, rfl⟩
    | malformed path count => exact ⟨rfl, _, rfl⟩

/-! ### Files -/

def sourceAt (s : Shared) (path bytes : Text) : SourceFile :=
  let (id, files) := s.files.addRead path bytes
  (files.get? id).getD ⟨id, Path.clean path, [], 0⟩

theorem checkSource_names (o : Options) (f : SourceFile) (names : Interner) :
    (checkSource o f names).2 = (Load.ofFile f names).names := by
  unfold checkSource
  dsimp only
  split
  · rfl
  · rfl

/-- What the files of a run share after the contents at a path were read. -/
def Shared.reading (s : Shared) (path bytes : Text) : Shared :=
  ⟨(s.files.addRead path bytes).2, (Load.ofFile (sourceAt s path bytes) s.names).names⟩

theorem checkFile_eq {o : Options} {disk : Disk} {path bytes : Text} (going : ¬o.canceled)
    (read : disk.read path = .ok bytes) (s : Shared) :
    checkFile o disk s path =
      .ok ((checkSource o (sourceAt s path bytes) s.names).1, s.reading path bytes) := by
  have shared : s.reading path bytes =
      ⟨(s.files.addRead path bytes).2, (checkSource o (sourceAt s path bytes) s.names).2⟩ := by
    rw [Shared.reading, checkSource_names]
  rw [checkFile, if_neg going, read, shared]
  rfl

theorem checkFile_ok {o : Options} {disk : Disk} {s after : Shared} {path : Text}
    {result : Result} (checked : checkFile o disk s path = .ok (result, after)) :
    ¬o.canceled ∧ ∃ bytes, disk.read path = .ok bytes ∧
      result = (checkSource o (sourceAt s path bytes) s.names).1 ∧
      after = s.reading path bytes := by
  by_cases going : o.canceled
  · rw [checkFile, if_pos going] at checked
    cases checked
  refine ⟨going, ?_⟩
  cases read : disk.read path with
  | error e =>
    rw [checkFile, if_neg going, read] at checked
    cases checked
  | ok bytes =>
    rw [checkFile_eq going read] at checked
    cases checked
    exact ⟨bytes, rfl, rfl, rfl⟩

end TreeCheck.Session
