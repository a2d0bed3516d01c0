import TreeCheck.Log

/-!
The phases of checking one document: when they began, how long they took and how they ended.
Times are nanoseconds of a clock; durations are words of 64 bits.
-/

namespace TreeCheck

structure Status where
  code : Nat
  deriving DecidableEq, Inhabited

namespace Status

def ok : Status := ⟨0⟩
def failed : Status := ⟨1⟩
def skipped : Status := ⟨2⟩

def toText (s : Status) : Text :=
  match s.code with
  | 0 => text "ok"
  | 1 => text "failed"
  | 2 => text "skipped"
  | n => text "Status(" ++ Text.ofNat n ++ text ")"

end Status

/-- A phase; one that never ran has no beginning. -/
structure Phase where
  name : Text
  start : Option Int
  duration : Int
  status : Status
  note : Text

structure Stopwatch where
  path : Text
  phases : List Phase

namespace Stopwatch

/-- The first moment of the year one, on a clock that counts from the start of 1970. -/
def dawn : Int := -62135596800000000000

def elapsed (start now : Int) : Int :=
  max (-(Nat.pow 2 63)) (min (now - start) (Nat.pow 2 63 - 1))

def start (path : Text) : Stopwatch :=
  ⟨path, []⟩

/-- Begins a phase; its index is the number of the phases before it. -/
def begin (w : Stopwatch) (now : Int) (name : Text) : Stopwatch :=
  { w with phases := w.phases ++ [⟨name, some now, 0, .ok, []⟩] }

def skip (w : Stopwatch) (name reason : Text) : Stopwatch :=
  { w with phases := w.phases ++ [⟨name, none, 0, .skipped, reason⟩] }

/-- Ends a phase. One that never began is taken to have begun with the year one. -/
def Phase.finish (p : Phase) (now : Int) (status : Status) (note : Text) : Phase :=
  { p with duration := elapsed (p.start.getD dawn) now, status, note }

/-- Ends the phase with an index; there may be none. -/
def finish (w : Stopwatch) (now : Int) (index : Int) (status : Status) (note : Text) :
    Stopwatch :=
  if index < 0 then w
  else { w with phases := w.phases.modify index.toNat fun p => Phase.finish p now status note }

/-- Nanoseconds as milliseconds, in the 64-bit binary format. -/
def millis (ns : Int) : UInt64 :=
  Binary64.divBy (Binary64.ofInt ns) 1000000

def total (w : Stopwatch) : Int :=
  w.phases.foldl (fun sum p => (sum + p.duration).bmod (Nat.pow 2 64)) 0

def failed (w : Stopwatch) : Text :=
  ((w.phases.find? (·.status = .failed)).map (·.name)).getD []

def showMillis (ns : Int) : Text :=
  Binary64.toFixed 2 (millis ns) ++ text " ms"

def Phase.summary (p : Phase) : Text :=
  p.name ++
    (if p.status = .skipped then text " skipped"
    else if p.status = .failed then text " failed after " ++ showMillis p.duration
    else text " " ++ showMillis p.duration) ++
    (if p.note.isEmpty then [] else text " (" ++ p.note ++ text ")")

def summary (w : Stopwatch) : Text :=
  (if w.path.isEmpty then [] else w.path ++ text ": ") ++
    Text.join (text ", ") (w.phases.map Phase.summary) ++
    text "; total " ++ showMillis w.total

/-- The phases as a JSON object; empty texts are left out. -/
def report (w : Stopwatch) : JsonValue :=
  let named := fun (key : String) (t : Text) =>
    if t.isEmpty then [] else [(text key, JsonValue.string t)]
  .object (named "path" w.path ++
    [(text "total_ms", .float (millis w.total)),
      (text "phases", .array (w.phases.map fun p =>
        .object ([(text "name", .string p.name), (text "duration_ms", .float (millis p.duration)),
          (text "status", .string p.status.toText)] ++ named "note" p.note)))] ++
    named "failed" w.failed)

def Phase.entry (p : Phase) : Log.Entry :=
  ⟨if p.status = .failed then .warn else .debug, "check phase",
    [("phase", .string p.name), ("status", .string p.status.toText),
      ("took", .float (millis p.duration)), ("note", .string p.note)]⟩

end Stopwatch

end TreeCheck
