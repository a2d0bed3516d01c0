import TreeCheck.MessagePack
import TreeCheck.Table

/-!
Readers of typed parts. A field that is given again is read on top of what it held before: a
structure keeps the fields that the later value does not name, a table its other entries, and the
items of a list are read on top of the items that stood in their places.
-/

namespace TreeCheck.MessagePack

abbrev Update (α : Type) := α → Text → Option (α × Text)

/-! Numbers and texts. -/

/-- A number cut to some bytes; negative ones count from the top, and nothing is zero. -/
def Value.toNumber? (size : Nat) : Value → Option Nat
  | .nil => some 0
  | .small b =>
    some ((if b < 0x80 then b.toNat else Nat.pow 2 64 + b.toNat - 256) % Nat.pow 256 size)
  | .unsigned _ n => some (n % Nat.pow 256 size)
  | .signed w n =>
    let top := Nat.pow 256 w.bytes
    some ((if 2 * n < top then n else Nat.pow 2 64 + n - top) % Nat.pow 256 size)
  | _ => none

/-- The content of a text or of bytes; nothing is the empty one. -/
def Value.toText? : Value → Option Text
  | .nil => some []
  | .string t => some t
  | .binary t => some t
  | _ => none

def plain {α : Type} (meaning : Value → Option α) (t : Text) : Option (α × Text) := do
  let (v, t) ← read? 1 t
  return (← meaning v, t)

def number (size : Nat) : Update Nat := fun _ =>
  plain (Value.toNumber? size)

def content : Update Text := fun _ =>
  plain Value.toText?

/-- Bytes of a fixed number: shorter ones cover only the start, and nothing leaves them as they
were. -/
def cover : Update Text := fun old t => do
  let (bytes, t) ← plain Value.toText? t
  if bytes.length ≤ old.length then return (bytes ++ old.drop bytes.length, t) else none

/-! Structures, tables and lists. -/

def times {α : Type} (update : Update α) : Nat → Update α
  | 0, old, t => some (old, t)
  | count + 1, old, t => do
    let (a, t) ← update old t
    times update count a t

def inTurn {α : Type} : List (Update α) → Update α
  | [], old, t => some (old, t)
  | update :: rest, old, t => do
    let (a, t) ← update old t
    inTurn rest a t

/-- A name and the value of the field of that name; any value is passed over under another name. -/
def member {α : Type} (fields : List (String × Update α)) : Update α := fun old t => do
  let (name, t) ← plain Value.toText? t
  match fields.find? fun (key, _) => text key == name with
  | some (_, update) => update old t
  | none => return (old, (← read? (t.length + 1) t).2)

/-- A structure: a map of fields by name, or an array of all fields in their order. Nothing and the
empty array set it back to `zero`. -/
def record {α : Type} (zero : α) (fields : List (String × Update α)) : Update α := fun old t => do
  let (form, t) ← head? t
  match form with
  | .done .nil => return (zero, t)
  | .map length =>
    let (count, t) ← length? length t
    times (member fields) count old t
  | .array length =>
    let (count, t) ← length? length t
    if count = 0 then return (zero, t)
    else if count = fields.length then inTurn (fields.map (·.2)) old t
    else none
  | _ => none

/-- A part that may be absent; nothing takes it away. -/
def optional {α : Type} (zero : α) (update : Update α) : Update (Option α) := fun old t =>
  match t with
  | 0xC0 :: t => some (none, t)
  | _ => do
    let (a, t) ← update (old.getD zero) t
    return (some a, t)

/-- A table whose entries are read from `zero` on and then finished. Nothing empties it. -/
def table {α β : Type} (zero : α) (update : Update α) (finish : α → β) : Update (Table β) :=
  fun old t => do
    let (form, t) ← mapHead? t
    match form with
    | .done .nil => return (.empty, t)
    | .map length =>
      let (count, t) ← length? length t
      times (fun entries t => do
        let (key, t) ← number 4 0 t
        let (a, t) ← update zero t
        return (entries.insert key (finish a), t)) count old t
    | _ => none

/-- A list of texts takes the place of the earlier one, which nothing leaves as it was. -/
def contents : Update (List Text) := fun old t => do
  let (form, t) ← head? t
  match form with
  | .done .nil => return (old, t)
  | .array length =>
    let (count, t) ← length? length t
    let (reversed, t) ← times (fun texts t => do
      let (s, t) ← plain Value.toText? t
      return (s :: texts, t)) count [] t
    return (reversed.reverse, t)
  | _ => none

/-- A list under reading: how many of the items count, and the items. Those behind them were left
by an earlier, longer list. -/
structure Slots (α : Type) where
  count : Nat
  items : List α

/-- So many items, each on top of the one in its place or, behind the last one, on `zero`. -/
def fill {α : Type} (zero : α) (update : Update α) : Nat → Update (List α)
  | 0, old, t => some (old, t)
  | count + 1, old, t => do
    let (a, t) ← update (old.headD zero) t
    let (rest, t) ← fill zero update count old.tail t
    return (a :: rest, t)

/-- A list of items; nothing empties it and forgets its items. -/
def slots {α : Type} (zero : α) (update : Update α) : Update (Slots α) := fun old t => do
  let (form, t) ← head? t
  match form with
  | .done .nil => return (⟨0, []⟩, t)
  | .array length =>
    let (count, t) ← length? length t
    let (items, t) ← fill zero update count old.items t
    return (⟨count, items⟩, t)
  | _ => none

end TreeCheck.MessagePack
