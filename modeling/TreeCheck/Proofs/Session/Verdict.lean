import TreeCheck.Proofs.Session.Said

/-!
When a result counts as erroneous. Errors and warnings share the limit of the bag in the order in
which they are emitted, so what decides is not whether an error was said about a file, but whether
one was said before the bag was full.
-/

namespace TreeCheck.Session

def Erroneous (ds : List Diagnostic) : Prop :=
  ∃ d ∈ ds, d.severity = .error

/-- What is said about the file at a path; nothing if it cannot be read. -/
def saidAt (warnings : Check.Options) (disk : Disk) (s : Shared) (path : Text) :
    List Diagnostic :=
  match disk.read path with
  | .ok bytes => said warnings (sourceAt s path bytes) s.names
  | .error _ => []

/-- What the files of a run share after the file at a path was read. -/
def Shared.after (s : Shared) (disk : Disk) (path : Text) : Shared :=
  match disk.read path with
  | .ok bytes => s.reading path bytes
  | .error _ => s

def saidAtAll (warnings : Check.Options) (disk : Disk) : Shared → List Text →
    List (List Diagnostic)
  | _, [] => []
  | s, path :: rest =>
    saidAt warnings disk s path :: saidAtAll warnings disk (s.after disk path) rest

theorem checkFile_hasErrors {o : Options} (standard : o.pass = Check.tree) {disk : Disk}
    {s after : Shared} {path : Text} {result : Result}
    (checked : checkFile o disk s path = .ok (result, after)) :
    (result.bag.hasErrors ↔ Erroneous (Bag.within o.limit (saidAt o.warnings disk s path))) ∧
      after = s.after disk path := by
  obtain ⟨_, bytes, read, rfl, rfl⟩ := checkFile_ok checked
  obtain ⟨_, w, bag⟩ := checkSource_said standard (sourceAt s path bytes) s.names
  have said : saidAt o.warnings disk s path = said o.warnings (sourceAt s path bytes) s.names := by
    rw [saidAt, read]
  refine ⟨?_, by rw [Shared.after, read]⟩
  rw [bag, said]
  exact finishBag_hasErrors fun d first e second key error =>
    (said_of_mem first).error_of_key (said_of_mem second) key error

theorem checkFile_unlimited {o : Options} {disk : Disk} {s after : Shared} {path : Text}
    {result : Result} (checked : checkFile o disk s path = .ok (result, after)) :
    ∃ full, checkFile { o with limit := 0 } disk s path = .ok (full, after) := by
  obtain ⟨going, bytes, read, _, rfl⟩ := checkFile_ok checked
  have same : ¬({ o with limit := 0 } : Options).canceled := going
  exact ⟨_, checkFile_eq same read s⟩

/-- Among the results of a run there is an erroneous one if about one of the files an error was
said while there was room. -/
theorem checkFiles_hasErrors {o : Options} (standard : o.pass = Check.tree) {disk : Disk}
    {s after : Shared} {paths : List Text} {results : List Result}
    (checked : checkFiles o disk s paths = .ok (results, after)) :
    (∃ r ∈ results, r.bag.hasErrors) ↔
      ∃ ds ∈ saidAtAll o.warnings disk s paths, Erroneous (Bag.within o.limit ds) := by
  induction paths generalizing s results with
  | nil =>
    cases checked
    simp [saidAtAll]
  | cons path rest ih =>
    simp only [checkFiles, bind, Except.bind] at checked
    split at checked
    · cases checked
    next outcome first =>
    split at checked
    · cases checked
    next outcomes others =>
    cases checked
    obtain ⟨decided, shared⟩ := checkFile_hasErrors standard first
    have later := ih others
    rw [shared] at later
    simp only [saidAtAll, List.mem_cons, exists_eq_or_imp, decided, later]

end TreeCheck.Session
