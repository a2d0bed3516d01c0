import TreeCheck.Text

/-!
The binary format of snapshots. A value is a byte that tells its form, followed by its content;
numbers are written with the most significant byte first. Lengths are written in the shortest form
and read in any.
-/

namespace TreeCheck.MessagePack

inductive Width where
  | one
  | two
  | four
  | eight
  deriving DecidableEq

def Width.bytes : Width → Nat
  | .one => 1
  | .two => 2
  | .four => 4
  | .eight => 8

inductive Value where
  | nil
  | bool (b : Bool)
  /-- A number that is its own form byte: 0 to 127, or -32 to -1. -/
  | small (b : UInt8)
  | unsigned (w : Width) (n : Nat)
  | signed (w : Width) (n : Nat)
  | float (double : Bool) (n : Nat)
  | string (t : Text)
  | binary (t : Text)
  | array (items : List Value)
  | map (pairs : List (Value × Value))
  | extension (kind : UInt8) (t : Text)
  deriving Inhabited

def bigEndian : Nat → Nat → Text
  | 0, _ => []
  | count + 1, n => bigEndian count (n / 256) ++ [n.toUInt8]

def ofBigEndian (t : Text) : Nat :=
  t.foldl (fun n b => 256 * n + b.toNat) 0

def lengthForm (forms : List (Nat × UInt8)) (n : Nat) : Text :=
  match forms.find? fun (count, _) => n < Nat.pow 256 count with
  | some (count, form) => form :: bigEndian count n
  | none => []

def stringForm (n : Nat) : Text :=
  if n < 32 then [0xA0 + n.toUInt8] else lengthForm [(1, 0xD9), (2, 0xDA), (4, 0xDB)] n

def binaryForm (n : Nat) : Text :=
  lengthForm [(1, 0xC4), (2, 0xC5), (4, 0xC6)] n

def arrayForm (n : Nat) : Text :=
  if n < 16 then [0x90 + n.toUInt8] else lengthForm [(2, 0xDC), (4, 0xDD)] n

def mapForm (n : Nat) : Text :=
  if n < 16 then [0x80 + n.toUInt8] else lengthForm [(2, 0xDE), (4, 0xDF)] n

def extensionForm (n : Nat) : Text :=
  match n with
  | 1 => [0xD4]
  | 2 => [0xD5]
  | 4 => [0xD6]
  | 8 => [0xD7]
  | 16 => [0xD8]
  | _ => lengthForm [(1, 0xC7), (2, 0xC8), (4, 0xC9)] n

def unsignedForm : Width → UInt8
  | .one => 0xCC
  | .two => 0xCD
  | .four => 0xCE
  | .eight => 0xCF

def signedForm : Width → UInt8
  | .one => 0xD0
  | .two => 0xD1
  | .four => 0xD2
  | .eight => 0xD3

mutual

def write : Value → Text
  | .nil => [0xC0]
  | .bool b => [if b then 0xC3 else 0xC2]
  | .small b => [b]
  | .unsigned w n => unsignedForm w :: bigEndian w.bytes n
  | .signed w n => signedForm w :: bigEndian w.bytes n
  | .float double n => if double then 0xCB :: bigEndian 8 n else 0xCA :: bigEndian 4 n
  | .string t => stringForm t.length ++ t
  | .binary t => binaryForm t.length ++ t
  | .array items => arrayForm items.length ++ writeAll items
  | .map pairs => mapForm pairs.length ++ writePairs pairs
  | .extension kind t => extensionForm t.length ++ kind :: t

def writeAll : List Value → Text
  | [] => []
  | v :: rest => write v ++ writeAll rest

def writePairs : List (Value × Value) → Text
  | [] => []
  | (k, v) :: rest => write k ++ write v ++ writePairs rest

end

def take? (count : Nat) (t : Text) : Option (Text × Text) :=
  if count ≤ t.length then some (t.take count, t.drop count) else none

def number? (count : Nat) (t : Text) : Option (Nat × Text) :=
  (take? count t).map fun (bytes, rest) => (ofBigEndian bytes, rest)

inductive Form where
  | done (v : Value)
  | unsigned (w : Width)
  | signed (w : Width)
  | float (double : Bool)
  | string (length : Nat ⊕ Nat)
  | binary (lengthBytes : Nat)
  | array (length : Nat ⊕ Nat)
  | map (length : Nat ⊕ Nat)
  | extension (length : Nat ⊕ Nat)

/-- What a byte announces; one byte is no form. -/
def form? (b : UInt8) : Option Form :=
  if b < 0x80 || 0xE0 ≤ b then some (.done (.small b))
  else if b < 0x90 then some (.map (.inl (b.toNat - 0x80)))
  else if b < 0xA0 then some (.array (.inl (b.toNat - 0x90)))
  else if b < 0xC0 then some (.string (.inl (b.toNat - 0xA0)))
  else
    match b with
    | 0xC0 => some (.done .nil)
    | 0xC2 => some (.done (.bool false))
    | 0xC3 => some (.done (.bool true))
    | 0xC4 => some (.binary 1)
    | 0xC5 => some (.binary 2)
    | 0xC6 => some (.binary 4)
    | 0xC7 => some (.extension (.inr 1))
    | 0xC8 => some (.extension (.inr 2))
    | 0xC9 => some (.extension (.inr 4))
    | 0xCA => some (.float false)
    | 0xCB => some (.float true)
    | 0xCC => some (.unsigned .one)
    | 0xCD => some (.unsigned .two)
    | 0xCE => some (.unsigned .four)
    | 0xCF => some (.unsigned .eight)
    | 0xD0 => some (.signed .one)
    | 0xD1 => some (.signed .two)
    | 0xD2 => some (.signed .four)
    | 0xD3 => some (.signed .eight)
    | 0xD4 => some (.extension (.inl 1))
    | 0xD5 => some (.extension (.inl 2))
    | 0xD6 => some (.extension (.inl 4))
    | 0xD7 => some (.extension (.inl 8))
    | 0xD8 => some (.extension (.inl 16))
    | 0xD9 => some (.string (.inr 1))
    | 0xDA => some (.string (.inr 2))
    | 0xDB => some (.string (.inr 4))
    | 0xDC => some (.array (.inr 2))
    | 0xDD => some (.array (.inr 4))
    | 0xDE => some (.map (.inr 2))
    | 0xDF => some (.map (.inr 4))
    | _ => none

def length? (l : Nat ⊕ Nat) (t : Text) : Option (Nat × Text) :=
  match l with
  | .inl n => some (n, t)
  | .inr count => number? count t

def head? : Text → Option (Form × Text)
  | [] => none
  | b :: t => (form? b).map fun form => (form, t)

/-- What the first byte announces where a map stands. The head of an extension may precede the map
and is passed over. -/
def mapHead? (t : Text) : Option (Form × Text) := do
  let (form, t) ← head? t
  match form with
  | .extension l =>
    let (_, t) ← length? l t
    let (_, t) ← take? 1 t
    head? t
  | form => return (form, t)

def readMany (read : Text → Option (Value × Text)) : Nat → Text → Option (List Value × Text)
  | 0, t => some ([], t)
  | count + 1, t => do
    let (v, t) ← read t
    let (rest, t) ← readMany read count t
    return (v :: rest, t)

def readPairs (read : Text → Option (Value × Text)) :
    Nat → Text → Option (List (Value × Value) × Text)
  | 0, t => some ([], t)
  | count + 1, t => do
    let (k, t) ← read t
    let (v, t) ← read t
    let (rest, t) ← readPairs read count t
    return ((k, v) :: rest, t)

/-- The first value in the bytes, nested at most so deep, and the bytes behind it. -/
def read? : Nat → Text → Option (Value × Text)
  | 0, _ => none
  | _ + 1, [] => none
  | depth + 1, b :: t => do
    match ← form? b with
    | .done v => return (v, t)
    | .unsigned w =>
      let (n, t) ← number? w.bytes t
      return (.unsigned w n, t)
    | .signed w =>
      let (n, t) ← number? w.bytes t
      return (.signed w n, t)
    | .float double =>
      let (n, t) ← number? (if double then 8 else 4) t
      return (.float double n, t)
    | .string l =>
      let (n, t) ← length? l t
      let (content, t) ← take? n t
      return (.string content, t)
    | .binary count =>
      let (n, t) ← number? count t
      let (content, t) ← take? n t
      return (.binary content, t)
    | .array l =>
      let (n, t) ← length? l t
      let (items, t) ← readMany (read? depth) n t
      return (.array items, t)
    | .map l =>
      let (n, t) ← length? l t
      let (pairs, t) ← readPairs (read? depth) n t
      return (.map pairs, t)
    | .extension l =>
      let (n, t) ← length? l t
      let (kind, t) ← take? 1 t
      let (content, t) ← take? n t
      return (.extension (kind.headD 0) content, t)

end TreeCheck.MessagePack
