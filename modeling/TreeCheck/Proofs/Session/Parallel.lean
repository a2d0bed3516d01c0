import TreeCheck.Proofs.Interner.Pool
import TreeCheck.Proofs.Load.Turns
import TreeCheck.Proofs.Session.Alone
import TreeCheck.Session.Parallel

/-!
Files that are checked at the same time. Whatever turns there are between those of a file, the
handles it is given are the ones that every later interner gives; so its reading ends as one under
the names at the time of the pass, and its result is that of a check of the file at this point, with
nothing in between. This is kept turn by turn, and thereby by every run.
-/

namespace TreeCheck.Session

theorem checkSource_eq (o : Options) (f : SourceFile) (names : Interner) :
    checkSource o f names =
      (concluded o f (Load.ofFile f names), (Load.ofFile f names).names) := by
  unfold checkSource concluded
  dsimp only
  cases (Load.ofFile f names).failure <;> rfl

/-- The pass over the tree of a reading that is done finds out the same under every two interners
that have grown from the one of the reading. So turns of other files between its look-ups would make
no difference. -/
theorem pass_steady (warnings : Check.Options) {f : SourceFile} {names : Interner}
    {found : Load.Findings} (leads : (Load.turns f).LeadsTo names (.done found))
    {one other : Interner} (sound : one.Sound) (sound' : other.Sound)
    (grown : names.names <+: one.names) (grown' : names.names <+: other.names) :
    ∃ s s', (Check.tree ⟨one, warnings⟩ found.tree).run (.start .fresh) = .ok () s ∧
      (Check.tree ⟨other, warnings⟩ found.tree).run (.start .fresh) = .ok () s' ∧
      s.Alike (.between one other f.id f.id) s' := by
  have alike := pass_alike warnings f f.id sound sound'
  rw [Load.ofFile_of_leadsTo leads sound grown, Load.ofFile_of_leadsTo leads sound' grown'] at alike
  exact alike

variable {o : Options} {disk : Disk} {slots : Nat}

/-! ### What holds of a file -/

/-- A reading goes on in a source file of the run, and with right answers so far; a result was drawn
at some point of the run; and who ran out of handles did so for good reason. -/
inductive Phase.Sound (o : Options) (disk : Disk) (now : Shared) (path : Text) : Phase → Prop
  | waiting : Sound o disk now path .waiting
  | begun : Sound o disk now path .begun
  | opening : Sound o disk now path .opening
  | reading {s : Shared} {bytes : Text} {rest : Load.Asking Load.Findings} (missed : Bool) :
    disk.read path = .ok bytes → (s.files.addRead path bytes).2.files <+: now.files.files →
      (Load.turns (sourceAt s path bytes)).LeadsTo now.names rest →
        Sound o disk now path (.reading (sourceAt s path bytes) rest missed)
  | overflowed : Pool.capacity ≤ now.names.size → Sound o disk now path .overflowed
  | failed : Sound o disk now path .failed
  | ended {result : Result} : Drawn o disk now path result → Sound o disk now path (.ended result)

variable {now : Shared} {path : Text} {phase : Phase}

theorem Phase.Sound.later {later : Shared} (sound : phase.Sound o disk now path)
    (grown : now.Extends later) : phase.Sound o disk later path := by
  cases sound with
  | waiting => exact .waiting
  | begun => exact .begun
  | opening => exact .opening
  | reading missed read filed leads =>
    exact .reading missed read (filed.trans grown.files) (leads.later grown.names)
  | overflowed full => exact .overflowed (full.trans grown.names.length_le)
  | failed => exact .failed
  | ended drawn => exact .ended (drawn.later grown)

namespace Parallel

variable {r : Parallel}

/-! ### A turn of a file -/

/-- All that a turn of a file can do, to the run and to the phase of the file. -/
inductive Advances (o : Options) (disk : Disk) (r : Parallel) (path : Text) :
    Phase → Parallel → Phase → Prop
  | begin : Advances o disk r path .waiting r .begun
  | calledOff : r.canceled = true → Advances o disk r path .begun (r.fail .canceled) .failed
  | goOn : r.canceled = false → Advances o disk r path .begun r .opening
  | unreadable {e : FileError} : disk.read path = .error e →
    Advances o disk r path .opening (r.fail (.unreadable path e)) .failed
  | opened {bytes : Text} : disk.read path = .ok bytes →
    Advances o disk r path .opening { r with files := (r.files.addRead path bytes).2 }
      (.reading (sourceAt r.shared path bytes) (Load.turns (sourceAt r.shared path bytes)) false)
  | missing {f : SourceFile} (t : Text) (next : Handle → Load.Asking Load.Findings) :
    Advances o disk r path (.reading f (.ask t next) false) r (.reading f (.ask t next) true)
  | full {f : SourceFile} (t : Text) (next : Handle → Load.Asking Load.Findings) (missed : Bool) :
    Pool.capacity ≤ r.pool.size →
      Advances o disk r path (.reading f (.ask t next) missed) r .overflowed
  | answered {f : SourceFile} {t : Text} (next : Handle → Load.Asking Load.Findings)
      (missed : Bool) {q : Pool} : q.Sound → q.interner = (r.pool.interner.intern t).2 →
    Advances o disk r path (.reading f (.ask t next) missed) { r with pool := q }
      (.reading f (next (r.pool.interner.intern t).1) false)
  | finished {f : SourceFile} (found : Load.Findings) (missed : Bool) :
    Advances o disk r path (.reading f (.done found) missed) r
      (.ended (concluded o f (found.under r.pool.interner)))
  | overflowed : Advances o disk r path .overflowed r .overflowed
  | failed : Advances o disk r path .failed r .failed
  | ended (result : Result) : Advances o disk r path (.ended result) r (.ended result)

theorem advance_advances (pool : r.pool.Sound) (path : Text) (phase : Phase) :
    Advances o disk r path phase (r.advance o disk path phase).1
      (r.advance o disk path phase).2 := by
  cases phase with
  | waiting => exact .begin
  | begun =>
    cases canceled : r.canceled with
    | true => simp only [advance, canceled]; exact .calledOff canceled
    | false => simp only [advance, canceled]; exact .goOn canceled
  | opening =>
    cases read : disk.read path with
    | error e => simp only [advance, read]; exact .unreadable read
    | ok bytes => simp only [advance, read]; exact .opened read
  | reading f rest missed =>
    cases rest with
    | done found => exact .finished found missed
    | ask t next =>
      rcases pool.turn (.intern t) missed with again | ⟨none, full, -⟩ | ⟨q, given, after, kept⟩
      · have first : missed = false := by
          cases missed with
          | false => rfl
          | true => cases again
        simp only [advance, again]
        exact first ▸ .missing t next
      · simp only [advance, none]
        exact .full t next missed full
      · simp only [advance, given]
        exact .answered next missed kept after
  | overflowed => exact .overflowed
  | failed => exact .failed
  | ended result => exact .ended result

section

variable {after : Parallel} {next : Phase}

theorem Advances.tasks_eq (advances : Advances o disk r path phase after next) :
    after.tasks = r.tasks := by
  cases advances <;> rfl

theorem Advances.extends (advances : Advances o disk r path phase after next) :
    r.shared.Extends after.shared := by
  cases advances with
  | @opened bytes _ => exact ⟨(r.shared.extends_reading path bytes).files, List.prefix_refl _⟩
  | answered next missed _ same =>
    refine ⟨List.prefix_refl _, ?_⟩
    show _ <+: Interner.names (Pool.interner _)
    rw [same]
    exact Interner.intern_extends _ _
  | _ => exact .refl _

theorem Advances.pool_sound (advances : Advances o disk r path phase after next)
    (pool : r.pool.Sound) : after.pool.Sound := by
  cases advances with
  | answered next missed kept _ => exact kept
  | _ => exact pool

theorem Advances.sound (advances : Advances o disk r path phase after next)
    (pool : r.pool.Sound) (sound : phase.Sound o disk r.shared path) :
    next.Sound o disk after.shared path := by
  have extended := advances.extends
  cases advances with
  | begin => exact .begun
  | calledOff | unreadable => exact .failed
  | goOn => exact .opening
  | opened read => exact .reading false read (List.prefix_refl _) (.refl _)
  | missing t next =>
    cases sound with
    | reading _ read filed leads => exact .reading true read filed leads
  | full t next missed none => exact .overflowed none
  | @answered f t next missed q kept same =>
    cases sound with
    | reading _ read filed leads =>
      have given : q.interner.find? (r.pool.interner.intern t).1 = some t :=
        same ▸ r.pool.interner.find?_intern t
      exact .reading false read filed ((leads.later extended.names).answer given)
  | finished found missed =>
    cases sound with
    | @reading s bytes _ _ read filed leads =>
      have same := Load.ofFile_of_leadsTo leads pool.interner (List.prefix_refl _)
      refine .ended ⟨⟨s.files, r.pool.interner⟩, bytes, pool.interner, read, ?_, filed, ?_⟩
      · rw [checkSource_eq]
        exact congrArg (concluded o _) same.symm
      · show (Load.ofFile (sourceAt s path bytes) r.pool.interner).names.names <+: _
        rw [same]
        exact List.prefix_refl _
  | overflowed | failed | ended => exact sound

end

/-! ### Every run -/

theorem map_set_same {α β : Type} {f : α → β} {xs : List α} {i : Nat} {a b : α}
    (found : xs[i]? = some a) (same : f b = f a) : (xs.set i b).map f = xs.map f := by
  induction xs generalizing i with
  | nil => rfl
  | cons x rest ih =>
    cases i with
    | zero =>
      cases found
      rw [List.set_cons_zero, List.map_cons, List.map_cons, same]
    | succ i => rw [List.set_cons_succ, List.map_cons, List.map_cons, ih found]

structure Sound (o : Options) (disk : Disk) (r : Parallel) : Prop where
  pool : r.pool.Sound
  tasks : ∀ task ∈ r.tasks, task.phase.Sound o disk r.shared task.path

theorem start_paths (o : Options) (files : FileSet) (pool : Pool) (paths : List Text) :
    (start o files pool paths).tasks.map (·.path) = paths := by
  rw [start, List.map_map]
  exact List.map_id paths

theorem start_sound {files : FileSet} {pool : Pool} (sound : pool.Sound) (paths : List Text) :
    (start o files pool paths).Sound o disk where
  pool := sound
  tasks := by
    rintro _ member
    obtain ⟨path, _, rfl⟩ := List.mem_map.mp member
    exact .waiting

/-- A turn is one that calls off the run, one in which nothing happens, or one of a file. -/
theorem step_cases (pool : r.pool.Sound) (turn : Turn) :
    (turn = .cancel ∧ r.step o disk slots turn = { r with canceled := true }) ∨
      r.step o disk slots turn = r ∨
      ∃ i task after next, turn = .file i ∧ r.tasks[i]? = some task ∧
        r.mayAdvance slots i task.phase = true ∧
        Advances o disk r task.path task.phase after next ∧
        r.step o disk slots turn = after.put i ⟨task.path, next⟩ := by
  cases turn with
  | cancel => exact .inl ⟨rfl, rfl⟩
  | file i =>
    unfold step
    dsimp only
    split
    next => exact .inr (.inl rfl)
    next task found =>
      split
      next allowed =>
        exact .inr (.inr ⟨i, task, _, _, rfl, found, allowed,
          advance_advances pool task.path task.phase, rfl⟩)
      next => exact .inr (.inl rfl)

theorem Sound.step (sound : r.Sound o disk) (slots : Nat) (turn : Turn) :
    (r.step o disk slots turn).Sound o disk ∧
      r.shared.Extends (r.step o disk slots turn).shared ∧
      (r.step o disk slots turn).tasks.map (·.path) = r.tasks.map (·.path) := by
  rcases step_cases sound.pool turn with
    ⟨-, same⟩ | same | ⟨i, task, after, next, -, found, -, advances, same⟩
  · rw [same]
    exact ⟨⟨sound.pool, sound.tasks⟩, .refl _, rfl⟩
  · rw [same]
    exact ⟨sound, .refl _, rfl⟩
  · rw [same]
    have grown := advances.extends
    have own := sound.tasks task (List.mem_of_getElem? found)
    refine ⟨⟨advances.pool_sound sound.pool, fun other member => ?_⟩, grown, ?_⟩
    · rw [put, advances.tasks_eq] at member
      rcases List.mem_or_eq_of_mem_set member with before | rfl
      · exact (sound.tasks other before).later grown
      · exact advances.sound sound.pool own
    · rw [put, advances.tasks_eq]
      exact map_set_same found rfl

theorem Sound.run (sound : r.Sound o disk) (slots : Nat) (schedule : List Turn) :
    (r.run o disk slots schedule).Sound o disk ∧
      r.shared.Extends (r.run o disk slots schedule).shared ∧
      (r.run o disk slots schedule).tasks.map (·.path) = r.tasks.map (·.path) := by
  induction schedule generalizing r with
  | nil => exact ⟨sound, .refl _, rfl⟩
  | cons turn rest ih =>
    obtain ⟨next, grown, paths⟩ := sound.step slots turn
    obtain ⟨last, later, same⟩ := ih next
    exact ⟨last, grown.trans later, same.trans paths⟩

theorem Sound.drawn (sound : r.Sound o disk) {result : Result} (member : result ∈ r.results) :
    ∃ path ∈ r.tasks.map (·.path), Drawn o disk r.shared path result := by
  obtain ⟨⟨path, phase⟩, among, given⟩ := List.mem_filterMap.mp member
  have known := sound.tasks _ among
  cases phase with
  | ended other =>
    cases given
    cases known with
    | ended drawn => exact ⟨path, List.mem_map_of_mem among, drawn⟩
  | _ => cases given

theorem Sound.full (sound : r.Sound o disk) (overflowed : r.isOverflowed = true) :
    Pool.capacity ≤ r.pool.size := by
  obtain ⟨⟨path, phase⟩, member, without⟩ := List.any_eq_true.mp overflowed
  have known : phase.Sound o disk r.shared path := sound.tasks _ member
  cases known with
  | overflowed full => exact full
  | _ => cases without

theorem Sound.alone (sound : r.Sound o disk) (standard : o.pass = Check.tree) (going : ¬o.canceled)
    {u : Shared} (sound' : u.names.Sound) {task : Task} (member : task ∈ r.tasks) {result : Result}
    (ended : task.phase = .ended result) : Alone o disk u r.shared.names task.path result := by
  have known := sound.tasks task member
  rw [ended] at known
  cases known with
  | ended drawn => exact drawn.alone standard going sound'

/-! ### Runs over files that can be read -/

/-- The run was not called off, and no file has failed or will fail. -/
structure Calm (disk : Disk) (r : Parallel) : Prop where
  going : r.canceled = false
  failure_eq : r.failure = none
  tasks : ∀ task ∈ r.tasks, task.phase ≠ .failed ∧ ∃ bytes, disk.read task.path = .ok bytes

theorem start_calm (going : o.canceled = false) (files : FileSet) (pool : Pool)
    {paths : List Text} (readable : ∀ path ∈ paths, ∃ bytes, disk.read path = .ok bytes) :
    (start o files pool paths).Calm disk where
  going := going
  failure_eq := rfl
  tasks := by
    rintro _ member
    obtain ⟨path, among, rfl⟩ := List.mem_map.mp member
    exact ⟨nofun, readable path among⟩

theorem Calm.step (calm : r.Calm disk) (pool : r.pool.Sound) (slots : Nat) {turn : Turn}
    (inside : turn ≠ .cancel) : (r.step o disk slots turn).Calm disk := by
  rcases step_cases pool turn with
    ⟨outside, -⟩ | same | ⟨i, ⟨path, phase⟩, after, next, -, found, -, advances, same⟩
  · exact absurd outside inside
  · rwa [same]
  · rw [same]
    have own := calm.tasks _ (List.mem_of_getElem? found)
    have kept : after.canceled = false ∧ after.failure = none ∧ next ≠ .failed := by
      have here : r.canceled = false ∧ r.failure = none := ⟨calm.going, calm.failure_eq⟩
      cases advances with
      | calledOff canceled => exact absurd (canceled.symm.trans calm.going) (by decide)
      | unreadable unread =>
        obtain ⟨bytes, read⟩ := own.2
        cases unread.symm.trans read
      | failed | ended => exact ⟨here.1, here.2, own.1⟩
      | _ => exact ⟨here.1, here.2, nofun⟩
    refine ⟨kept.1, kept.2.1, fun other member => ?_⟩
    rw [put, advances.tasks_eq] at member
    rcases List.mem_or_eq_of_mem_set member with before | rfl
    · exact calm.tasks other before
    · exact ⟨kept.2.2, own.2⟩

theorem Calm.run (calm : r.Calm disk) (sound : r.Sound o disk) (slots : Nat)
    {schedule : List Turn} (inside : .cancel ∉ schedule) :
    (r.run o disk slots schedule).Calm disk := by
  induction schedule generalizing r with
  | nil => exact calm
  | cons turn rest ih =>
    rw [List.mem_cons, not_or] at inside
    exact ih (calm.step sound.pool slots (Ne.symm inside.1)) (sound.step slots turn).1 inside.2

theorem Calm.results (calm : r.Calm disk) (sound : r.Sound o disk) (complete : r.isOver) :
    List.Forall₂ (Drawn o disk r.shared) (r.tasks.map (·.path)) r.results := by
  have each : ∀ task ∈ r.tasks, ∃ result, task.phase = .ended result ∧
      Drawn o disk r.shared task.path result := by
    rintro ⟨path, phase⟩ member
    have ended := List.all_eq_true.mp complete _ member
    have known : phase.Sound o disk r.shared path := sound.tasks _ member
    cases known with
    | @ended result drawn => exact ⟨result, rfl, drawn⟩
    | failed => exact absurd rfl (calm.tasks _ member).1
    | _ => cases ended
  unfold Parallel.results
  generalize r.tasks = tasks at each
  induction tasks with
  | nil => exact .nil
  | cons task rest ih =>
    rw [List.forall_mem_cons] at each
    obtain ⟨⟨result, ended, drawn⟩, others⟩ := each
    simp only [List.map_cons, List.filterMap_cons, ended, Phase.result?]
    exact .cons drawn (ih others)

/-- If a run over files that can be read is over, it has not failed, and the results are as if each
file had been checked alone. -/
theorem Calm.alone (calm : r.Calm disk) (sound : r.Sound o disk) (complete : r.isOver)
    (standard : o.pass = Check.tree) (going : ¬o.canceled) {u : Shared} (sound' : u.names.Sound) :
    ∃ results after, r.outcome = .ok (results, after) ∧
      List.Forall₂ (Alone o disk u after.names) (r.tasks.map (·.path)) results := by
  refine ⟨r.results, r.shared, by rw [outcome, calm.failure_eq], ?_⟩
  exact (calm.results sound complete).imp fun _ _ drawn => drawn.alone standard going sound'

end Parallel

end TreeCheck.Session
