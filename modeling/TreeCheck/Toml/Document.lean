import TreeCheck.Toml.Statement

/-!
The tables that the statements of a settings file build. A key is defined once. Tables that only
arise as parents of others are implied, and an implied table may still get a header of its own; a
key with several parts implies its tables anew, and takes back the mark of one that was there.
-/

namespace TreeCheck.Toml

inductive Value where
  | string (t : Text)
  | integer (n : Int)
  | float (bits : UInt64)
  | boolean (b : Bool)
  | moment (t : Text)
  | array (items : List Value)
  | table (entries : List (Text × Value))
  /-- A list of tables, each started by a header; the last one is open. -/
  | tables (elements : List (List (Text × Value)))

abbrev Entries := List (Text × Value)

namespace Entries

def find? (t : Entries) (name : Text) : Option Value :=
  (List.find? (·.1 == name) t).map (·.2)

def put (t : Entries) (name : Text) (v : Value) : Entries :=
  if t.any (·.1 == name) then t.map fun e => if e.1 == name then (name, v) else e
  else t ++ [(name, v)]

/-- The value of a key; on the way a list of tables stands for its last one. -/
def lookup : Key → Entries → Option Value
  | [], t => some (.table t)
  | name :: path, t =>
    match find? t name with
    | some (.table inner) => lookup path inner
    | some (.tables elements) => lookup path (elements.getLast?.getD [])
    | some v => if path.isEmpty then some v else none
    | none => none

/-- Changes the table with a key; none if there is no such table. -/
def update (change : Entries → Option Entries) : Key → Entries → Option Entries
  | [], t => change t
  | name :: path, t =>
    match find? t name with
    | some (.table inner) => (update change path inner).map fun e => put t name (.table e)
    | some (.tables elements) =>
      (update change path (elements.getLast?.getD [])).map fun e =>
        put t name (.tables (elements.dropLast ++ [e]))
    | _ => none

end Entries

structure Document where
  root : Entries
  /-- All keys, in the order in which they appear; a table comes before its entries. -/
  keys : List Key
  implied : List Key
  arrays : List Key

abbrev Assembly := StateT Document Option

def change (key : Key) (f : Entries → Option Entries) : Assembly Unit := do
  let d ← get
  set { d with root := ← d.root.update f key }

def appear (key : Key) : Assembly Unit :=
  modify fun d => { d with keys := d.keys ++ [key] }

def imply (key : Key) : Assembly Unit :=
  modify fun d => { d with implied := key :: d.implied.filter (· != key) }

def settle (key : Key) : Assembly Unit :=
  modify fun d => { d with implied := d.implied.filter (· != key) }

/-- Notes whether the value of a name is an array; an empty name notes it of the table itself. -/
def classify (context : Key) (name : Text) (isArray : Bool) : Assembly Unit :=
  let key := if !name.isEmpty || context.isEmpty then context ++ [name] else context
  modify fun d =>
    let others := d.arrays.filter (· != key)
    { d with arrays := if isArray then key :: others else others }

/-- Defines a name in a table. Of the names that are there, arrays get the new value, and implied
tables stay and are settled. -/
def define (context : Key) (name : Text) (v : Value) : Assembly Unit := do
  let d ← get
  let key := context ++ [name]
  if (d.root.lookup key).isNone then change context fun t => some (t.put name v)
  else if d.arrays.contains key then
    settle key
    change context fun t => some (t.put name v)
  else if d.implied.contains key then settle key
  else failure

def leads : Key → List Key
  | [] => []
  | name :: rest => [name] :: (leads rest).map (name :: ·)

/-- Creates the tables above a key that are not there; they are implied. -/
def implyParents (key : Key) : Assembly Unit :=
  (leads key.dropLast).forM fun parent => do
    if ((← get).root.lookup parent).isNone then
      imply parent
      change parent.dropLast fun t => some (t.put (parent.getLast?.getD []) (.table []))

def enterTable (key : Key) : Assembly Unit := do
  implyParents key
  define key.dropLast (key.getLast?.getD []) (.table [])

def enterElement (key : Key) : Assembly Unit := do
  implyParents key
  let name := key.getLast?.getD []
  change key.dropLast fun t =>
    match t.find? name with
    | none => some (t.put name (.tables [[]]))
    | some (.tables elements) => some (t.put name (.tables (elements ++ [[]])))
    | some _ => none

def enterParts (context key : Key) : Assembly Unit :=
  (leads key.dropLast).forM fun parts => do
    imply (context ++ parts)
    enterTable (context ++ parts)

def Expr.isArray : Expr → Bool
  | .array _ => true
  | _ => false

mutual

/-- The value of a name in a table. Tables inside it are built on the way. -/
def evaluate (context : Key) (name : Text) (inArray : Bool) : Expr → Assembly Value
  | .string t => return .string t
  | .integer n => return .integer n
  | .float bits => return .float bits
  | .boolean b => return .boolean b
  | .moment t => return .moment t
  | .array items => do
    classify context name true
    return .array (← evaluateItems context name items)
  | .inline entries => do
    let inner := context ++ [name]
    imply inner
    if inArray then enterElement inner else enterTable inner
    return .table (← evaluateEntries inner entries)

def evaluateItems (context : Key) (name : Text) : List Expr → Assembly (List Value)
  | [] => return []
  | e :: rest => do
    let v ← evaluate context name true e
    return v :: (← evaluateItems context name rest)

def evaluateEntries (context : Key) : List (Key × Expr) → Assembly Entries
  | [] => return []
  | (key, e) :: rest => do
    let outer := context ++ key.dropLast
    let name := key.getLast?.getD []
    enterParts context key
    appear (context ++ key)
    let v ← evaluate outer name false e
    define outer name v
    classify outer name e.isArray
    return (name, v) :: (← evaluateEntries context rest)

end

def assemble : Key → List Statement → Assembly Unit
  | _, [] => return
  | context, .entry key e :: rest => do
    discard (evaluateEntries context [(key, e)])
    assemble context rest
  | _, .header key :: rest => do
    enterTable key
    classify key [] false
    appear key
    assemble key rest
  | _, .element key :: rest => do
    enterElement key
    classify key [] false
    appear key
    assemble key rest

/-- The document of a settings file; none if the text breaks the format or defines a key twice. -/
def Document.read (t : Text) : Option Document := do
  let statements ← readStatements t
  let (_, d) ← (assemble [] statements).run ⟨[], [], [], []⟩
  return d

def quotedByte (b : UInt8) : Text :=
  if b == quote || b == backslash then [backslash, b]
  else if b == 0x08 then text "\\b"
  else if b == 0x09 then text "\\t"
  else if b == 0x0A then text "\\n"
  else if b == 0x0C then text "\\f"
  else if b == 0x0D then text "\\r"
  else if b < 0x20 || b == 0x7F then text "\\u00" ++ Text.hexByte b
  else [b]

/-- A part of a key as it may be written: in quotes unless it needs none. -/
def partText (part : Text) : Text :=
  if !part.isEmpty && part.all isBare then part
  else quote :: part.flatMap quotedByte ++ [quote]

def keyText (key : Key) : Text :=
  Text.join (text ".") (key.map partText)

end TreeCheck.Toml
