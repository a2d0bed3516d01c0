import TreeCheck.Check
import TreeCheck.Diagnostic.Bag
import TreeCheck.Disk
import TreeCheck.Load
import TreeCheck.Stopwatch
import TreeCheck.Text.Case

/-!
Checking files. The files of one run share their names and their file set, and each gets a context
of its own. What is wrong with a document becomes diagnostics of its result; only a file that cannot
be read stops the run.

Here the files of a run are checked one after the other. That is one of the schedules of `Parallel`,
where as many files as there are jobs are checked at the same time.
-/

namespace TreeCheck

namespace Session

structure Options where
  limit : Int
  warnings : Check.Options
  timings : Bool
  canceled : Bool := false
  pass : Check.Env → Tree → Check Unit := Check.tree

inductive Abort where
  | underflow (path : Text) (last : Nat)
  | absent (path : Text)

def Abort.cause : Abort → Text
  | .underflow _ last => (Context.Rejection.underflow last).message .fresh
  | .absent _ => text "absent node"

def Abort.message (a : Abort) : Text :=
  let path := match a with
    | .underflow path _ => path
    | .absent path => path
  text "driver: check " ++ path ++ text ": " ++ a.cause

inductive Failure where
  | canceled
  | unreadable (path : Text) (error : FileError)

def Failure.message : Failure → Text
  | .canceled => text "context canceled"
  | .unreadable path e => text "driver: load " ++ path ++ text ": " ++ e.message

structure Result where
  path : Text
  file : Nat
  tree : Tree
  bag : Bag
  context : Option Context
  checked : Option Check.State
  stopwatch : Stopwatch
  aborted : Option Abort

structure Shared where
  files : FileSet
  names : Interner

def Shared.fresh : Shared :=
  ⟨.empty, .fresh⟩

def timingEntry (file : Nat) (w : Stopwatch) : Diagnostic :=
  { severity := .info, code := .timings, message := text "timings: " ++ w.summary,
    primary := ⟨file, 0, 0⟩, notes := [⟨.zero, w.report.compact⟩] }

/-- Adds the timings at the end, past the limit if the bag is full; the attempt still counts. -/
def withTimings (b : Bag) (entry : Diagnostic) : Bag :=
  if b.isFull then (b.add entry).merge ((Bag.empty 0).add entry) else b.add entry

def finishBag (o : Options) (file : Nat) (w : Stopwatch) (emitted : List Diagnostic) : Bag :=
  let bag := (((Bag.empty o.limit).addAll emitted).dedup).sort
  if o.timings then withTimings bag (timingEntry file w) else bag

def decodePhase : Text := text "decode"

def checkPhase : Text := text "sema"

def rejected (o : Options) (f : SourceFile) (out : Load.Outcome) (failure : Load.Failure) :
    Result :=
  let (note, reason, emitted) := match failure with
    | .malformed .. => ("malformed", "malformed input", out.diagnostics)
    | _ => ("unreadable", "unreadable input",
        out.diagnostics ++ [.error .malformed ⟨f.id, 0, 0⟩ failure.message])
  let w := (((Stopwatch.start f.path).begin 0 decodePhase).finish 0 0 .failed (text note)).skip
    checkPhase (text reason)
  { path := f.path, file := f.id, tree := out.tree, bag := finishBag o f.id w emitted,
    context := none, checked := none, stopwatch := w, aborted := none }

def passed (o : Options) (f : SourceFile) (out : Load.Outcome) : Result :=
  let decoded := ((Stopwatch.start f.path).begin 0 decodePhase).finish 0 0 .ok
    (Text.ofNat out.tree.nodes.length ++ text " nodes")
  let ended := (decoded.begin 0 checkPhase).finish 0 1
  match (o.pass ⟨out.names, o.warnings⟩ out.tree).run (.start .fresh) with
  | .ok _ s =>
    let w := ended .ok (Text.ofNat s.ctx.last ++ text " scopes")
    { path := f.path, file := f.id, tree := out.tree,
      bag := finishBag o f.id w (out.diagnostics ++ s.emitted.toList),
      context := some s.ctx, checked := some s, stopwatch := w, aborted := none }
  | .error fault s =>
    let abort := match fault with
      | .underflow last => Abort.underflow f.path last
      | .absent => .absent f.path
    let w := ended .failed (text "scope underflow")
    { path := f.path, file := f.id, tree := out.tree,
      bag := finishBag o f.id w (out.diagnostics ++ s.emitted.toList ++
        [.error .scopeUnderflow ⟨f.id, 0, 0⟩ abort.cause]),
      context := some s.ctx, checked := none, stopwatch := w, aborted := some abort }

def checkSource (o : Options) (f : SourceFile) (names : Interner) : Result × Interner :=
  let out := Load.ofFile f names
  match out.failure with
  | some failure => (rejected o f out failure, out.names)
  | none => (passed o f out, out.names)

def checkFile (o : Options) (disk : Disk) (s : Shared) (path : Text) :
    Except Failure (Result × Shared) :=
  if o.canceled then .error .canceled
  else
    match disk.read path with
    | .error e => .error (.unreadable path e)
    | .ok bytes =>
      let (id, files) := s.files.addRead path bytes
      let f := (files.get? id).getD ⟨id, Path.clean path, [], 0⟩
      let (result, names) := checkSource o f s.names
      .ok (result, ⟨files, names⟩)

/-- Checks the files at some paths one after the other, up to the first one that cannot be read. -/
def checkFiles (o : Options) (disk : Disk) :
    Shared → List Text → Except Failure (List Result × Shared)
  | s, [] => .ok ([], s)
  | s, path :: rest => do
    let (result, s) ← checkFile o disk s path
    let (results, s) ← checkFiles o disk s rest
    return (result :: results, s)

def extensions : List Text :=
  [text ".yaml", text ".yml"]

def isInput (path : Text) : Bool :=
  extensions.contains (Text.lower (Path.ext path))

def compact : List Text → List Text
  | a :: b :: rest => if a == b then compact (b :: rest) else a :: compact (b :: rest)
  | short => short

/-- The inputs that a path stands for: itself, or the documents below a directory. -/
def inputsAt (disk : Disk) (path : Text) : Except FileError (List Text) := do
  match ← disk.stat path with
  | .file _ => return [path]
  | .directory =>
    match disk.placeOf path with
    | .ok place => return (disk.files place path).filter isInput
    | .error reason => throw ⟨"stat", path, reason⟩

/-- The inputs that some paths stand for, sorted and without repetitions. -/
def listInputs (disk : Disk) (paths : List Text) : Except FileError (List Text) := do
  let found ← paths.mapM (inputsAt disk)
  return compact (Text.sort found.flatten)

end Session

end TreeCheck
