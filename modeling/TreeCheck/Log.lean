import TreeCheck.JsonValue
import TreeCheck.Numeral
import TreeCheck.Text.Case

/-!
The log: how important an entry is, what settings may say about it, and entries with their fields.
-/

namespace TreeCheck.Log

structure Level where
  rank : Int
  deriving DecidableEq

namespace Level

def trace : Level := ⟨-1⟩
def debug : Level := ⟨0⟩
def info : Level := ⟨1⟩
def warn : Level := ⟨2⟩
def error : Level := ⟨3⟩

/-- The levels that have names. The empty name is the level of entries without one. -/
def named : List (String × Level) :=
  [("trace", trace), ("debug", debug), ("info", info), ("warn", warn), ("error", error),
    ("fatal", ⟨4⟩), ("panic", ⟨5⟩), ("disabled", ⟨7⟩), ("", ⟨6⟩)]

/-- The name of a level; one without a name is shown as its number. -/
def toText (l : Level) : Text :=
  match named.find? (·.2 = l) with
  | some (name, _) => text name
  | none => Text.ofInt l.rank

inductive Refusal where
  | unknown (t : Text)
  | outOfBounds (n : Int)

def Refusal.message : Refusal → Text
  | .unknown t => text "Unknown Level String: '" ++ t ++ text "', defaulting to NoLevel"
  | .outOfBounds n =>
    text "Out-Of-Bounds Level: '" ++ Text.ofInt n ++ text "', defaulting to NoLevel"

/-- The level that a text means: a name in either case, or a number of eight bits. -/
def ofText (t : Text) : Except Refusal Level :=
  match named.find? fun (name, _) => Text.isWord name t with
  | some (_, level) => .ok level
  | none =>
    match Numeral.integerBy (Numeral.naturalIn 10) t with
    | .error _ => .error (.unknown t)
    | .ok n => if -128 ≤ n ∧ n ≤ 127 then .ok ⟨n⟩ else .error (.outOfBounds n)

end Level

structure Entry where
  level : Level
  message : String
  fields : List (String × JsonValue)

/-- An entry as a JSON object: the level, the fields in their order, and the message. -/
def Entry.toJson (e : Entry) : JsonValue :=
  .object ([(text "level", .string e.level.toText)] ++ e.fields.map (fun (k, v) => (text k, v)) ++
    [(text "message", .string (text e.message))])

end TreeCheck.Log
