import TreeCheck.Interner.Pool
import TreeCheck.Load.Turns
import TreeCheck.Session

/-!
Checking files at the same time. The files of a run are begun in their order, as many at a time as
there are slots, and then go on independently of each other. They have turns: in a turn a file
touches what the run shares at most once, and between two of its turns the others may have any
number of theirs. A text that was not found takes a second turn to be added. The first failure calls
off the files that are not opened yet.

A pass over a tree is one turn: it adds nothing, and looks up no handles but those of its tree and
of the built-in types, which keep their texts. Running out of handles ends the whole program; here
the file stays where it is, so that the run is never over.
-/

namespace TreeCheck.Session

def concluded (o : Options) (f : SourceFile) (out : Load.Outcome) : Result :=
  match out.failure with
  | some failure => rejected o f out failure
  | none => passed o f out

inductive Phase where
  | waiting
  | begun
  | opening
  /-- `missed` says that the text asked for was looked for and not found. -/
  | reading (f : SourceFile) (rest : Load.Asking Load.Findings) (missed : Bool)
  | overflowed
  | failed
  | ended (result : Result)

namespace Phase

def isWaiting : Phase → Bool
  | waiting => true
  | _ => false

def isOver : Phase → Bool
  | failed | ended _ => true
  | _ => false

def isOverflowed : Phase → Bool
  | overflowed => true
  | _ => false

def result? : Phase → Option Result
  | ended result => some result
  | _ => none

end Phase

structure Task where
  path : Text
  phase : Phase

structure Parallel where
  files : FileSet
  pool : Pool
  canceled : Bool
  failure : Option Failure
  tasks : List Task

/-- Who has a turn: the file at a position, or whoever may call off the run from outside. -/
inductive Turn where
  | file (i : Nat)
  | cancel
  deriving DecidableEq

namespace Parallel

/-- How many files are checked at a time: by default as many as there are processors. -/
def slots (jobs : Int) (processors files : Nat) : Nat :=
  min (if jobs ≤ 0 then processors else jobs.toNat) files

def start (o : Options) (files : FileSet) (pool : Pool) (paths : List Text) : Parallel :=
  ⟨files, pool, o.canceled, none, paths.map fun path => ⟨path, .waiting⟩⟩

def shared (r : Parallel) : Shared :=
  ⟨r.files, r.pool.interner⟩

def put (r : Parallel) (i : Nat) (task : Task) : Parallel :=
  { r with tasks := r.tasks.set i task }

/-- The failure of a file calls off the run. Only the first one counts. -/
def fail (r : Parallel) (failure : Failure) : Parallel :=
  { r with canceled := true, failure := r.failure.or (some failure) }

/-- Whether a file may have a turn: it is begun after those before it, once there is a slot. -/
def mayAdvance (slots : Nat) (r : Parallel) (i : Nat) (phase : Phase) : Bool :=
  !phase.isWaiting || (r.tasks.take i).all (!·.phase.isWaiting) &&
    r.tasks.countP (fun task => !task.phase.isWaiting && !task.phase.isOver) < slots

/-- A turn of the file at a path: what the run has come to, and the next phase of the file. -/
def advance (o : Options) (disk : Disk) (r : Parallel) (path : Text) : Phase → Parallel × Phase
  | .waiting => (r, .begun)
  | .begun => if r.canceled then (r.fail .canceled, .failed) else (r, .opening)
  | .opening =>
    match disk.read path with
    | .error e => (r.fail (.unreadable path e), .failed)
    | .ok bytes =>
      let (id, files) := r.files.addRead path bytes
      let f := (files.get? id).getD ⟨id, Path.clean path, [], 0⟩
      ({ r with files }, .reading f (Load.turns f) false)
  | .reading f (.ask t next) missed =>
    match r.pool.turn (.intern t) missed with
    | (none, pool) => ({ r with pool }, .reading f (.ask t next) true)
    | (some (.handle h), pool) => ({ r with pool }, .reading f (next h) false)
    | (some _, pool) => ({ r with pool }, .overflowed)
  | .reading f (.done found) _ => (r, .ended (concluded o f (found.under r.pool.interner)))
  | phase => (r, phase)

section

variable (o : Options) (disk : Disk) (slots : Nat)

/-- A turn. Nothing happens if there is no such file, or it has to wait. -/
def step (r : Parallel) : Turn → Parallel
  | .cancel => { r with canceled := true }
  | .file i =>
    match r.tasks[i]? with
    | none => r
    | some task =>
      if r.mayAdvance slots i task.phase then
        let (r, phase) := r.advance o disk task.path task.phase
        r.put i ⟨task.path, phase⟩
      else r

def run (r : Parallel) (schedule : List Turn) : Parallel :=
  schedule.foldl (step o disk slots) r

end

def results (r : Parallel) : List Result :=
  r.tasks.filterMap (·.phase.result?)

def isOver (r : Parallel) : Bool :=
  r.tasks.all (·.phase.isOver)

def isOverflowed (r : Parallel) : Bool :=
  r.tasks.any (·.phase.isOverflowed)

def outcome (r : Parallel) : Except Failure (List Result × Shared) :=
  match r.failure with
  | some failure => .error failure
  | none => .ok (r.results, r.shared)

end Parallel

end TreeCheck.Session
