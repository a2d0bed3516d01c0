import TreeCheck.Proofs.Session.Parallel

/-!
Runs come to an end. A file that has begun can go on until it has a result, whatever the others do,
and then a file that waits finds a slot; so from wherever a run has come to there are turns that
complete it, unless the handles run out. If the files have their turns one file after the other, the
run gives what checking them one after the other gives.
-/

namespace TreeCheck.Session

namespace Parallel

variable {o : Options} {disk : Disk} {slots : Nat} {r : Parallel} {i : Nat} {path : Text}
  {phase : Phase}

/-! ### Turns that follow each other -/

def Reaches (o : Options) (disk : Disk) (slots : Nat) (r after : Parallel) : Prop :=
  ∃ files : List Nat, r.run o disk slots (files.map .file) = after

theorem Reaches.refl (r : Parallel) : r.Reaches o disk slots r :=
  ⟨[], rfl⟩

theorem Reaches.trans {mid after : Parallel} (first : r.Reaches o disk slots mid)
    (second : mid.Reaches o disk slots after) : r.Reaches o disk slots after := by
  obtain ⟨files, rfl⟩ := first
  obtain ⟨more, rfl⟩ := second
  exact ⟨files ++ more, by rw [List.map_append, run, List.foldl_append]; rfl⟩

@[simp] theorem put_put (r : Parallel) (i : Nat) (first second : Task) :
    (r.put i first).put i second = r.put i second := by
  rw [put, put, put, List.set_set]

theorem put_found {task : Task} (found : r.tasks[i]? = some task) (other : Task) :
    (r.put i other).tasks[i]? = some other :=
  List.getElem?_set_self (List.getElem?_eq_some_iff.mp found).1

theorem file_turn (o : Options) (disk : Disk) (pool : r.pool.Sound)
    (found : r.tasks[i]? = some ⟨path, phase⟩) (allowed : r.mayAdvance slots i phase) :
    ∃ after next, Advances o disk r path phase after next ∧
      r.Reaches o disk slots (after.put i ⟨path, next⟩) := by
  refine ⟨_, _, advance_advances pool path phase, [i], ?_⟩
  show r.step o disk slots (.file i) = _
  simp only [step, found, allowed, if_true]

theorem mayAdvance_of_not_waiting (going : phase.isWaiting = false) :
    r.mayAdvance slots i phase := by
  rw [mayAdvance, going]
  rfl

/-! ### One file -/

section

variable {f : SourceFile} {t : Text} {next : Handle → Load.Asking Load.Findings}

/-- What comes of a question: an answer, or no handle is left. -/
def Settles (o : Options) (disk : Disk) (slots : Nat) (r : Parallel) (i : Nat) (path : Text)
    (f : SourceFile) (t : Text) (next : Handle → Load.Asking Load.Findings) : Prop :=
  r.Reaches o disk slots (r.put i ⟨path, .overflowed⟩) ∨
    ∃ q, q.Sound ∧ q.interner = (r.pool.interner.intern t).2 ∧
      r.Reaches o disk slots ({ r with pool := q }.put i
        ⟨path, .reading f (next (r.pool.interner.intern t).1) false⟩)

theorem settles_of_missed (pool : r.pool.Sound)
    (found : r.tasks[i]? = some ⟨path, .reading f (.ask t next) true⟩) :
    r.Settles o disk slots i path f t next := by
  obtain ⟨after, phase, advances, turn⟩ :=
    file_turn o disk pool found (mayAdvance_of_not_waiting rfl)
  cases advances with
  | full => exact .inl turn
  | answered _ _ kept same => exact .inr ⟨_, kept, same, turn⟩

theorem settles (o : Options) (disk : Disk) (slots : Nat) (pool : r.pool.Sound) {missed : Bool}
    (found : r.tasks[i]? = some ⟨path, .reading f (.ask t next) missed⟩) :
    r.Settles o disk slots i path f t next := by
  cases missed with
  | true => exact settles_of_missed pool found
  | false =>
    obtain ⟨after, phase, advances, turn⟩ :=
      file_turn o disk pool found (mayAdvance_of_not_waiting rfl)
    cases advances with
    | missing =>
      have again : Settles o disk slots (r.put i ⟨path, .reading f (.ask t next) true⟩) i path f t
          next := settles_of_missed pool (put_found found _)
      rcases again with full | ⟨q, kept, same, second⟩
      · rw [put_put] at full
        exact .inl (turn.trans full)
      · have replaced := put_put { r with pool := q } i ⟨path, .reading f (.ask t next) true⟩
        exact .inr ⟨q, kept, same, turn.trans (replaced _ ▸ second)⟩
    | full => exact .inl turn
    | answered _ _ kept same => exact .inr ⟨_, kept, same, turn⟩

/-- A reading goes on until it is done, and finds out what it finds out with nothing in between. -/
theorem reading_ends (o : Options) (disk : Disk) (slots : Nat)
    {rest : Load.Asking Load.Findings} {missed : Bool} (pool : r.pool.Sound)
    (found : r.tasks[i]? = some ⟨path, .reading f rest missed⟩) :
    (∃ q, r.Reaches o disk slots ({ r with pool := q }.put i ⟨path, .overflowed⟩)) ∨
      ∃ q, q.Sound ∧ q.interner = (rest.serve r.pool.interner).2 ∧
        r.Reaches o disk slots ({ r with pool := q }.put i
          ⟨path, .ended (concluded o f
            ((rest.serve r.pool.interner).1.under (rest.serve r.pool.interner).2))⟩) := by
  induction rest generalizing r missed with
  | done result =>
    obtain ⟨after, phase, advances, turn⟩ :=
      file_turn o disk pool found (mayAdvance_of_not_waiting rfl)
    cases advances with
    | finished => exact .inr ⟨r.pool, pool, rfl, turn⟩
  | ask t next ih =>
    rcases settles o disk slots pool found with
      full | ⟨q, kept, same, first⟩
    · exact .inl ⟨r.pool, full⟩
    have replaced (p : Pool) := put_put { r with pool := p } i
      ⟨path, .reading f (next (r.pool.interner.intern t).1) false⟩
    have onward := ih (r.pool.interner.intern t).1
      (r := { r with pool := q }.put i ⟨path, .reading f (next (r.pool.interner.intern t).1) false⟩)
      kept (put_found (r := { r with pool := q }) found _)
    rw [Load.Asking.serve, ← same]
    rcases onward with ⟨p, full⟩ | ⟨p, sound, last, later⟩
    · exact .inl ⟨p, first.trans (replaced p _ ▸ full)⟩
    · exact .inr ⟨p, sound, last, first.trans (replaced p _ ▸ later)⟩

end

theorem opening_ends {bytes : Text} (pool : r.pool.Sound)
    (found : r.tasks[i]? = some ⟨path, .opening⟩) (read : disk.read path = .ok bytes) :
    (∃ after, r.Reaches o disk slots after ∧ after.tasks = r.tasks.set i ⟨path, .overflowed⟩) ∨
      ∃ q, q.Sound ∧ q.interner = (r.shared.reading path bytes).names ∧
        r.Reaches o disk slots
          ({ r with files := (r.shared.reading path bytes).files, pool := q }.put i
            ⟨path, .ended (checkSource o (sourceAt r.shared path bytes) r.pool.interner).1⟩) := by
  obtain ⟨after, phase, advances, first⟩ :=
    file_turn o disk pool found (mayAdvance_of_not_waiting rfl)
  cases advances with
  | unreadable unread => cases unread.symm.trans read
  | @opened same again =>
    cases again.symm.trans read
    let opened : Parallel := { r with files := (r.files.addRead path bytes).2 }
    have replaced (p : Pool) := put_put { opened with pool := p } i ⟨path, .reading
      (sourceAt r.shared path bytes) (Load.turns (sourceAt r.shared path bytes)) false⟩
    have whole := Load.turns_serve (sourceAt r.shared path bytes) r.pool.interner
    rcases reading_ends o disk slots (r := opened.put i _) pool
      (put_found (r := opened) found _) with ⟨p, full⟩ | ⟨p, sound, last, later⟩
    · exact .inl ⟨_, first.trans (replaced p _ ▸ full), rfl⟩
    · refine .inr ⟨p, sound, last.trans (congrArg Load.Outcome.names whole), ?_⟩
      rw [checkSource_eq, ← whole]
      exact first.trans (replaced p _ ▸ later)

/-! ### From wherever a file has come to -/

/-- The file at a position can go on until it is over, or there is no handle left for it; the others
stay where they are. -/
def Concludes (o : Options) (disk : Disk) (slots : Nat) (r : Parallel) (i : Nat) (path : Text) :
    Prop :=
  ∃ after next, r.Reaches o disk slots after ∧ after.tasks = r.tasks.set i ⟨path, next⟩ ∧
    (next.isOver = true ∨ next.isOverflowed = true)

theorem concludes_of_turn {after : Parallel} {next : Phase}
    (advances : Advances o disk r path phase after next)
    (turn : r.Reaches o disk slots (after.put i ⟨path, next⟩))
    (rest : (after.put i ⟨path, next⟩).Concludes o disk slots i path) :
    r.Concludes o disk slots i path := by
  obtain ⟨last, phase, later, same, ends⟩ := rest
  rw [put, advances.tasks_eq, List.set_set] at same
  exact ⟨last, phase, turn.trans later, same, ends⟩

theorem concludes_of_end {after : Parallel} {next : Phase}
    (advances : Advances o disk r path phase after next)
    (turn : r.Reaches o disk slots (after.put i ⟨path, next⟩))
    (ends : next.isOver = true ∨ next.isOverflowed = true) : r.Concludes o disk slots i path :=
  ⟨_, next, turn, by rw [put, advances.tasks_eq], ends⟩

theorem concludes_of_over (found : r.tasks[i]? = some ⟨path, phase⟩)
    (ends : phase.isOver = true ∨ phase.isOverflowed = true) : r.Concludes o disk slots i path := by
  obtain ⟨within, here⟩ := List.getElem?_eq_some_iff.mp found
  exact ⟨r, phase, .refl r, here ▸ (List.set_getElem_self within).symm, ends⟩

theorem opening_concludes (pool : r.pool.Sound)
    (found : r.tasks[i]? = some ⟨path, .opening⟩) : r.Concludes o disk slots i path := by
  cases read : disk.read path with
  | error e =>
    obtain ⟨after, phase, advances, turn⟩ :=
      file_turn o disk pool found (mayAdvance_of_not_waiting rfl)
    refine concludes_of_end advances turn ?_
    cases advances with
    | unreadable => exact .inl rfl
    | opened other => cases read.symm.trans other
  | ok bytes =>
    rcases opening_ends pool found read with ⟨after, full, same⟩ | ⟨q, -, -, last⟩
    · exact ⟨after, _, full, same, .inr rfl⟩
    · exact ⟨_, _, last, rfl, .inl rfl⟩

theorem begun_concludes (pool : r.pool.Sound)
    (found : r.tasks[i]? = some ⟨path, .begun⟩) : r.Concludes o disk slots i path := by
  obtain ⟨after, phase, advances, turn⟩ :=
    file_turn o disk pool found (mayAdvance_of_not_waiting rfl)
  cases advances with
  | calledOff canceled => exact concludes_of_end (.calledOff canceled) turn (.inl rfl)
  | goOn going =>
    exact concludes_of_turn (.goOn going) turn (opening_concludes pool (put_found found _))

theorem file_concludes (o : Options) (disk : Disk) (pool : r.pool.Sound)
    (found : r.tasks[i]? = some ⟨path, phase⟩)
    (allowed : r.mayAdvance slots i phase) : r.Concludes o disk slots i path := by
  cases phase with
  | waiting =>
    obtain ⟨after, phase, advances, turn⟩ := file_turn o disk pool found allowed
    cases advances with
    | begin => exact concludes_of_turn .begin turn (begun_concludes pool (put_found found _))
  | begun => exact begun_concludes pool found
  | opening => exact opening_concludes pool found
  | reading f rest missed =>
    rcases reading_ends o disk slots pool found with ⟨q, full⟩ | ⟨q, -, -, last⟩
    · exact ⟨_, _, full, rfl, .inr rfl⟩
    · exact ⟨_, _, last, rfl, .inl rfl⟩
  | overflowed => exact concludes_of_over found (.inr rfl)
  | failed | ended => exact concludes_of_over found (.inl rfl)

/-! ### The whole run -/

theorem mayAdvance_of_idle (positive : 0 < slots)
    (idle : ∀ task ∈ r.tasks, task.phase.isWaiting = true ∨ task.phase.isOver = true)
    {before rest : List Task} (split : r.tasks = before ++ rest)
    (ended : ∀ task ∈ before, task.phase.isOver = true) (phase : Phase) :
    r.mayAdvance slots before.length phase := by
  have begun : (r.tasks.take before.length).all (!·.phase.isWaiting) = true := by
    rw [split, List.take_left]
    refine List.all_eq_true.mpr fun task member => ?_
    have done := ended task member
    cases phase : task.phase with
    | waiting => rw [phase] at done; cases done
    | _ => rfl
  have free : r.tasks.countP (fun task => !task.phase.isWaiting && !task.phase.isOver) = 0 := by
    refine List.countP_eq_zero.mpr fun task member => ?_
    rcases idle task member with waits | done
    · simp [waits]
    · simp [done]
  rw [mayAdvance, begun, free]
  simp [positive]

theorem exists_mayAdvance (room : r.tasks ≠ [] → 0 < slots) (incomplete : r.isOver = false) :
    ∃ i task, r.tasks[i]? = some task ∧ task.phase.isOver = false ∧
      r.mayAdvance slots i task.phase = true := by
  by_cases idle : ∀ task ∈ r.tasks, task.phase.isWaiting = true ∨ task.phase.isOver = true
  swap
  · push Not at idle
    obtain ⟨task, member, going, unended⟩ := idle
    obtain ⟨i, found⟩ := List.mem_iff_getElem?.mp member
    exact ⟨i, task, found, Bool.eq_false_iff.mpr unended,
      mayAdvance_of_not_waiting (Bool.eq_false_iff.mpr going)⟩
  obtain ⟨task, found⟩ : ∃ task, r.tasks.find? (!·.phase.isOver) = some task := by
    obtain ⟨first, member, unended⟩ := List.all_eq_false.mp incomplete
    exact Option.isSome_iff_exists.mp
      (List.find?_isSome.mpr ⟨first, member, by simpa using unended⟩)
  obtain ⟨unended, before, rest, split, ended⟩ := List.find?_eq_some_iff_append.mp found
  have positive : 0 < slots := room (by rw [split]; simp)
  refine ⟨before.length, task, by rw [split]; simp, by simpa using unended, ?_⟩
  exact mayAdvance_of_idle positive idle split (by simpa using ended) _

theorem Reaches.sound {after : Parallel} (sound : r.Sound o disk)
    (reaches : r.Reaches o disk slots after) : after.Sound o disk := by
  obtain ⟨files, rfl⟩ := reaches
  exact (sound.run _ _).1

/-- From wherever a run has come to, there are turns that complete it, unless a file runs out of
handles. -/
theorem run_completes (sound : r.Sound o disk) (room : r.tasks ≠ [] → 0 < slots) :
    ∃ after, r.Reaches o disk slots after ∧ (after.isOver = true ∨ after.isOverflowed = true) := by
  generalize unended : r.tasks.countP (fun task => !task.phase.isOver) = n
  induction n using Nat.strong_induction_on generalizing r with
  | _ n ih =>
    cases complete : r.isOver with
    | true => exact ⟨r, .refl r, .inl complete⟩
    | false =>
      obtain ⟨i, ⟨path, phase⟩, found, going, allowed⟩ := exists_mayAdvance room complete
      obtain ⟨after, next, first, same, ends⟩ :=
        file_concludes o disk sound.pool found allowed
      obtain ⟨within, here⟩ := List.getElem?_eq_some_iff.mp found
      rcases ends with ended | full
      · have fewer : after.tasks.countP (fun task => !task.phase.isOver) < n := by
          have held : 0 < r.tasks.countP (fun task => !task.phase.isOver) :=
            List.countP_pos_iff.mpr ⟨_, List.mem_of_getElem? found, by simp [going]⟩
          rw [same, List.countP_set within, here]
          simp only [going, ended, Bool.not_false, Bool.not_true, reduceIte, Bool.false_eq_true]
          omega
        have room' : after.tasks ≠ [] → 0 < slots := fun _ => room (List.ne_nil_of_mem
          (List.mem_of_getElem? found))
        obtain ⟨last, later, complete⟩ := ih _ fewer (first.sound sound) room' rfl
        exact ⟨last, first.trans later, complete⟩
      · refine ⟨after, first, .inr (List.any_eq_true.mpr ⟨⟨path, next⟩, ?_, full⟩)⟩
        rw [same]
        exact List.mem_set within _

/-! ### One file after the other -/

/-- What comes of checking a file, and of its turns if it has them with nothing in between: it runs
out of handles, or fails, or has the same result and leaves the same behind. -/
inductive Fares (o : Options) (disk : Disk) (slots : Nat) (r : Parallel) (i : Nat) (path : Text) :
    Prop
  | overflowed {after : Parallel} : r.Reaches o disk slots after → after.isOverflowed = true →
    Fares o disk slots r i path
  | failed {failure : Failure} {after : Parallel} :
    checkFile o disk r.shared path = .error failure → r.Reaches o disk slots after →
      after.failure = r.failure.or (some failure) → Fares o disk slots r i path
  | ended {result : Result} {files : FileSet} {q : Pool} :
    checkFile o disk r.shared path = .ok (result, ⟨files, q.interner⟩) →
      r.Reaches o disk slots ({ r with files, pool := q }.put i ⟨path, .ended result⟩) →
        Fares o disk slots r i path

theorem opening_fares (pool : r.pool.Sound) (running : o.canceled = false)
    (found : r.tasks[i]? = some ⟨path, .opening⟩) : r.Fares o disk slots i path := by
  have alive : ¬o.canceled = true := Bool.eq_false_iff.mp running
  cases read : disk.read path with
  | error e =>
    obtain ⟨_, _, advances, turn⟩ :=
      file_turn o disk pool found (mayAdvance_of_not_waiting rfl)
    cases advances with
    | opened other => cases read.symm.trans other
    | unreadable other =>
      cases read.symm.trans other
      exact .failed (by rw [checkFile, if_neg alive, read]) turn rfl
  | ok bytes =>
    rcases opening_ends pool found read with ⟨after, full, same⟩ | ⟨q, -, last, turns⟩
    · refine .overflowed full (List.any_eq_true.mpr ⟨⟨path, .overflowed⟩, ?_, rfl⟩)
      rw [same]
      exact List.mem_set (List.getElem?_eq_some_iff.mp found).1 _
    · refine .ended ?_ turns
      rw [checkFile_eq alive read, last]
      rfl

theorem Fares.of_turn {other : Task} (turn : r.Reaches o disk slots (r.put i other))
    (rest : (r.put i other).Fares o disk slots i path) : r.Fares o disk slots i path := by
  cases rest with
  | overflowed reached full => exact .overflowed (turn.trans reached) full
  | failed checked reached same => exact .failed checked (turn.trans reached) same
  | @ended result files q checked reached =>
    have replaced := put_put { r with files, pool := q } i other
    exact .ended checked (turn.trans (replaced _ ▸ reached))

theorem waiting_fares (disk : Disk) (pool : r.pool.Sound) (going : r.canceled = o.canceled)
    (found : r.tasks[i]? = some ⟨path, .waiting⟩) (allowed : r.mayAdvance slots i .waiting) :
    r.Fares o disk slots i path := by
  obtain ⟨_, _, advances, first⟩ := file_turn o disk pool found allowed
  cases advances with
  | begin =>
    refine .of_turn first ?_
    have begun := put_found found ⟨path, .begun⟩
    obtain ⟨_, _, advances, second⟩ := file_turn o disk
      (r := r.put i ⟨path, .begun⟩) pool begun (mayAdvance_of_not_waiting rfl)
    cases advances with
    | calledOff canceled =>
      refine .failed ?_ second rfl
      rw [checkFile, if_pos (going.symm.trans canceled)]
    | goOn running =>
      exact .of_turn second (opening_fares pool (going.symm.trans running) (put_found begun _))

theorem failure_kept {failure : Failure} (failed : r.failure = some failure) (pool : r.pool.Sound)
    (turn : Turn) : (r.step o disk slots turn).failure = some failure := by
  rcases step_cases pool turn with
    ⟨-, same⟩ | same | ⟨i, ⟨path, phase⟩, after, next, -, found, -, advances, same⟩
  · rwa [same]
  · rwa [same]
  · rw [same]
    show after.failure = some failure
    cases advances with
    | calledOff | unreadable => rw [fail, failed]; rfl
    | _ => exact failed

theorem Reaches.failure_kept {after : Parallel} {failure : Failure} (sound : r.Sound o disk)
    (reaches : r.Reaches o disk slots after) (failed : r.failure = some failure) :
    after.failure = some failure := by
  obtain ⟨files, rfl⟩ := reaches
  induction files generalizing r with
  | nil => exact failed
  | cons i rest ih =>
    exact ih (sound.step _ _).1 (Parallel.failure_kept failed sound.pool _)

theorem reaches_failure {failure : Failure} (sound : r.Sound o disk) (positive : 0 < slots)
    (failed : r.failure = some failure) :
    ∃ after, r.Reaches o disk slots after ∧
      (after.isOverflowed = true ∨ after.isOver = true ∧ after.outcome = .error failure) := by
  obtain ⟨after, later, ends⟩ := run_completes sound fun _ => positive
  have kept : after.outcome = .error failure := by
    rw [outcome, later.failure_kept sound failed]
  exact ⟨after, later, ends.symm.imp_right fun done => ⟨done, kept⟩⟩

theorem results_of_split {before : List Task} {paths : List Text}
    (split : r.tasks = before ++ paths.map fun path => ⟨path, .waiting⟩) :
    r.results = before.filterMap (·.phase.result?) := by
  have none :
      (paths.map fun path => (⟨path, .waiting⟩ : Task)).filterMap (·.phase.result?) = [] := by
    rw [List.filterMap_map]
    exact List.filterMap_eq_nil_iff.mpr fun _ _ => rfl
  rw [results, split, List.filterMap_append, none, List.append_nil]

def outcomeFrom (o : Options) (disk : Disk) (r : Parallel) (paths : List Text) :
    Except Failure (List Result × Shared) :=
  (fun last => (r.results ++ last.1, last.2)) <$> checkFiles o disk r.shared paths

/-- If the files that wait have their turns one after the other, the run gives what checking them
one after the other gives. -/
theorem reaches_outcome {before : List Task} {paths : List Text}
    (room : paths ≠ [] → 0 < slots) (sound : r.Sound o disk) (going : r.canceled = o.canceled)
    (unfailed : r.failure = none)
    (split : r.tasks = before ++ paths.map fun path => ⟨path, .waiting⟩)
    (ended : ∀ task ∈ before, task.phase.isOver = true) :
    ∃ after, r.Reaches o disk slots after ∧
      (after.isOverflowed = true ∨
        after.isOver = true ∧ after.outcome = outcomeFrom o disk r paths) := by
  induction paths generalizing r before with
  | nil =>
    refine ⟨r, .refl r, .inr ⟨?_, ?_⟩⟩
    · rw [List.map_nil, List.append_nil] at split
      rw [isOver, split]
      exact List.all_eq_true.mpr ended
    · rw [outcome, unfailed, outcomeFrom, checkFiles]
      exact congrArg Except.ok (Prod.ext (List.append_nil _).symm rfl)
  | cons path rest ih =>
    have positive := room (List.cons_ne_nil path rest)
    have found : r.tasks[before.length]? = some ⟨path, .waiting⟩ := by rw [split]; simp
    have idle : ∀ task ∈ r.tasks, task.phase.isWaiting = true ∨ task.phase.isOver = true := by
      rw [split]
      intro task member
      rcases List.mem_append.mp member with earlier | waits
      · exact .inr (ended task earlier)
      · obtain ⟨_, _, rfl⟩ := List.mem_map.mp waits
        exact .inl rfl
    have allowed := mayAdvance_of_idle positive idle split ended .waiting
    cases waiting_fares disk sound.pool going found allowed with
    | overflowed reached full => exact ⟨_, reached, .inl full⟩
    | @failed failure mid checked reached same =>
      rw [unfailed] at same
      obtain ⟨after, later, ends⟩ := reaches_failure (reached.sound sound) positive same
      refine ⟨after, reached.trans later, ?_⟩
      simp only [outcomeFrom, checkFiles, checked, bind, Except.bind]
      exact ends
    | @ended result files q checked reached =>
      have split' : (({ r with files, pool := q } : Parallel).put before.length
          ⟨path, .ended result⟩).tasks = (before ++ [⟨path, .ended result⟩]) ++
            rest.map fun path => ⟨path, .waiting⟩ := by
        rw [put, split]
        simp
      have ended' : ∀ task ∈ before ++ [⟨path, .ended result⟩], task.phase.isOver = true := by
        intro task member
        rcases List.mem_append.mp member with earlier | last
        · exact ended task earlier
        · rw [List.mem_singleton.mp last]
          rfl
      obtain ⟨after, later, ends⟩ :=
        ih (fun _ => positive) (reached.sound sound) going unfailed split' ended'
      refine ⟨after, reached.trans later, ends.imp_right (And.imp_right fun same => ?_)⟩
      have shared : (({ r with files, pool := q } : Parallel).put before.length
          ⟨path, .ended result⟩).shared = ⟨files, q.interner⟩ := rfl
      rw [same, outcomeFrom, outcomeFrom, results_of_split split, results_of_split split', shared]
      simp only [checkFiles, checked, bind, Except.bind]
      cases checkFiles o disk ⟨files, q.interner⟩ rest with
      | error failure => rfl
      | ok others =>
        refine congrArg Except.ok (Prod.ext ?_ rfl)
        simp [Phase.result?]

theorem slots_pos {processors : Nat} (positive : 0 < processors) (jobs : Int) {paths : List Text}
    (nonempty : paths ≠ []) : 0 < Parallel.slots jobs processors paths.length := by
  have files := List.length_pos_of_ne_nil nonempty
  unfold Parallel.slots
  split
  next => omega
  next chosen => omega

/-- However many jobs there are, checking files one after the other is one of the runs in which they
are checked at the same time: there are turns of the files that give its outcome, unless the handles
run out. -/
theorem checkFiles_scheduled (o : Options) (disk : Disk) (jobs : Int) {processors : Nat}
    (positive : 0 < processors) (files : FileSet) {pool : Pool} (sound : pool.Sound)
    (paths : List Text) :
    ∃ after, (start o files pool paths).Reaches o disk
        (Parallel.slots jobs processors paths.length) after ∧
      (after.isOverflowed = true ∨
        after.isOver = true ∧ after.outcome = checkFiles o disk ⟨files, pool.interner⟩ paths) := by
  have split : (start o files pool paths).tasks =
      [] ++ paths.map fun path => ⟨path, .waiting⟩ := rfl
  have same : outcomeFrom o disk (start o files pool paths) paths =
      checkFiles o disk ⟨files, pool.interner⟩ paths := by
    rw [outcomeFrom, results_of_split split]
    exact id_map _
  rw [← same]
  exact reaches_outcome (slots_pos positive jobs) (start_sound sound paths) rfl rfl split nofun

end Parallel

/-! ### Every file as if alone -/

/-- A source file, read and checked on a fresh context, gives the same under every two interners
that came about by interning texts, and under every two numbers: reading reports the same and fails
or succeeds alike, the check comes to its end and emits the same, and the trees, the tables and the
registry, the recorded types and the annotations are the same once handles are replaced by their
texts. So a run over files that can be read gives for each of them what the check of that file
alone gives: if they are checked one after the other, and if they are checked at the same time, as
many of them as there are slots, whatever turns they have. Then the results so far are as if alone
at any time; unless it is called off from outside the run does not fail, and there are turns that
complete it as long as there are handles left. -/
theorem files_are_checked_as_if_alone :
    (∀ (f : SourceFile) (id : Nat) (texts texts' : List Text) (warnings : Check.Options),
      let out := Load.ofFile f (.after texts)
      let out' := Load.ofFile { f with id } (.after texts')
      let l := Likeness.between out.names out'.names f.id id
      out.Alike l out' ∧
        ∃ s s', (Check.tree ⟨out.names, warnings⟩ out.tree).run (.start .fresh) = .ok () s ∧
          (Check.tree ⟨out'.names, warnings⟩ out'.tree).run (.start .fresh) = .ok () s' ∧
          s.Alike l s') ∧
    (∀ (limit : Int) (warnings : Check.Options) (timings : Bool) (disk : Disk)
      (files files' : FileSet) (texts texts' : List Text) (paths : List Text),
      (∀ path ∈ paths, ∃ bytes, disk.read path = .ok bytes) →
        ∃ results after,
          checkFiles { limit, warnings, timings } disk ⟨files, .after texts⟩ paths =
            .ok (results, after) ∧
          List.Forall₂ (Alone { limit, warnings, timings } disk ⟨files', .after texts'⟩ after.names)
            paths results) ∧
    (∀ (limit : Int) (warnings : Check.Options) (timings : Bool) (disk : Disk) (jobs : Int)
      (processors : Nat) (files files' : FileSet) (clients : List (List Pool.Call))
      (before : List Nat) (texts' paths : List Text) (schedule : List Turn),
      0 < processors →
        let o : Options := { limit, warnings, timings }
        let slots := Parallel.slots jobs processors paths.length
        let pool := ((Pool.Sharing.start clients).run before).pool
        let now := (Parallel.start o files pool paths).run o disk slots schedule
        let Alone := Alone o disk ⟨files', .after texts'⟩
        now.tasks.map (·.path) = paths ∧
        (∀ task ∈ now.tasks, ∀ result, task.phase = .ended result →
          Alone now.shared.names task.path result) ∧
        ((∀ path ∈ paths, ∃ bytes, disk.read path = .ok bytes) → .cancel ∉ schedule →
          (now.isOver = true → ∃ results after, now.outcome = .ok (results, after) ∧
            List.Forall₂ (Alone after.names) paths results) ∧
          ∃ more : List Nat, let last := now.run o disk slots (more.map .file)
            last.isOver = true ∨ last.isOverflowed = true ∧ Pool.capacity ≤ last.pool.size)) := by
  refine ⟨fun f id texts texts' warnings => ?_, ?_, ?_⟩
  · have sound := Interner.after_sound texts
    have sound' := Interner.after_sound texts'
    exact ⟨Load.ofFile_alike f id sound sound', pass_alike warnings f id sound sound'⟩
  · intro limit warnings timings disk files files' texts texts' paths readable
    obtain ⟨results, after, checked, _, alone⟩ :=
      checkFiles_alone (o := { limit, warnings, timings }) rfl nofun
        (u := ⟨files', .after texts'⟩) (Interner.after_sound texts') readable
        (s := ⟨files, .after texts⟩) (Interner.after_sound texts)
    exact ⟨results, after, checked, alone⟩
  · intro limit warnings timings disk jobs processors files files' clients before texts' paths
      schedule positive o slots pool now Alone
    have sound' := Interner.after_sound texts'
    have shared : pool.Sound := ((Pool.Sharing.start_sound clients).run before).1.pool
    have begun : (Parallel.start o files pool paths).Sound o disk :=
      Parallel.start_sound shared paths
    obtain ⟨sound, -, same⟩ := begun.run slots schedule
    have listed : now.tasks.map (·.path) = paths :=
      same.trans (Parallel.start_paths o files pool paths)
    refine ⟨listed, fun _ member _ => sound.alone rfl nofun sound' member,
      fun readable inside => ⟨fun complete => ?_, ?_⟩⟩
    · have calm := (Parallel.start_calm (o := o) rfl files pool readable).run begun slots inside
      have alone := calm.alone sound complete rfl nofun (u := ⟨files', .after texts'⟩) sound'
      rwa [listed] at alone
    · have room : now.tasks ≠ [] → 0 < slots := fun nonempty => Parallel.slots_pos positive jobs
        fun none => nonempty (List.map_eq_nil_iff.mp (listed.trans none))
      obtain ⟨last, reached, ends⟩ := Parallel.run_completes sound room
      have later := reached.sound sound
      obtain ⟨more, rfl⟩ := reached
      exact ⟨more, ends.imp_right fun overflowed => ⟨overflowed, later.full overflowed⟩⟩

/-- Two documents, of which the second says the name of the first and one more. -/
def sharingNames : Disk where
  entries := [([text "a"], .file (text "- x\n")), ([text "b"], .file (text "- [y, x]\n"))]
  cwd := []

/-- Turns in which both files look for the name that they share before either of them adds it. -/
def racingTurns : List Turn :=
  [0, 1, 1, 0, 0, 1, 1, 1, 0, 1, 0, 1, 0, 1].map .file

theorem sharing_names_is_checked_as_if_alone :
    let o : Options := { limit := 1, warnings := ⟨true, true⟩, timings := false }
    let paths := [text "a", text "b"]
    let clients := [[Pool.Call.intern (text "z")]]
    let pool := ((Pool.Sharing.start clients).run [0, 0]).pool
    let now := (Parallel.start o .empty pool paths).run o sharingNames
      (Parallel.slots 0 8 paths.length) racingTurns
    (∀ path ∈ paths, ∃ bytes, sharingNames.read path = .ok bytes) ∧
      (∃ results after,
        checkFiles o sharingNames ⟨.empty, .after []⟩ paths = .ok (results, after) ∧
        List.Forall₂ (Alone o sharingNames ⟨.empty, .after [text "y"]⟩ after.names) paths
          results) ∧
      0 < 8 ∧ .cancel ∉ racingTurns ∧ now.isOver = true ∧
      now.pool.texts.drop 14 = [text "z", text "y", text "x"] ∧
      ∃ results after, now.outcome = .ok (results, after) ∧
        List.Forall₂ (Alone o sharingNames ⟨.empty, .after [text "y"]⟩ after.names) paths
          results := by
  intro o paths clients pool now
  have readable : ∀ path ∈ paths, ∃ bytes, sharingNames.read path = .ok bytes := by
    intro path member
    obtain rfl | rfl := List.mem_pair.mp member
    · exact ⟨text "- x\n", rfl⟩
    · exact ⟨text "- [y, x]\n", rfl⟩
  have inside : .cancel ∉ racingTurns := by decide
  have complete : now.isOver = true := by decide +kernel
  have texts : now.pool.texts.drop 14 = [text "z", text "y", text "x"] := by decide +kernel
  have apart := files_are_checked_as_if_alone.2.1 1 ⟨true, true⟩ false sharingNames .empty .empty []
    [text "y"] paths readable
  have together := files_are_checked_as_if_alone.2.2 1 ⟨true, true⟩ false sharingNames 0 8 .empty
    .empty clients [0, 0] [text "y"] paths racingTurns (by decide)
  exact ⟨readable, apart, by decide, inside, complete, texts,
    (together.2.2 readable inside).1 complete⟩

end TreeCheck.Session
