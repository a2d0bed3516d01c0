import TreeCheck.Text.Utf8

/-!
The characters of a document. A document is UTF-8, or UTF-16 behind a byte order mark. It is loaded
in blocks of bytes; a character that may not stand in a document spoils the whole block it is in, so
the source ends before that block and is marked as broken.
-/

namespace TreeCheck.Yaml

/-- A position: the number of characters before it, and its line and column, from 0. -/
structure Mark where
  index : Nat
  line : Nat
  column : Nat
  deriving DecidableEq, Inhabited

def isBlank (c : Char) : Bool :=
  c == ' ' || c == '\t'

/-- A line break: line feed, carriage return, next line, line or paragraph separator. -/
def isBreak (c : Char) : Bool :=
  c == '\n' || c == '\r' || c.toNat == 0x85 || c.toNat == 0x2028 || c.toNat == 0x2029

def isGap (c : Char) : Bool :=
  isBlank c || isBreak c

def isReadable (c : Char) : Bool :=
  let n := c.toNat
  n == 0x09 || n == 0x0A || n == 0x0D || (0x20 ≤ n && n ≤ 0x7E) || n == 0x85 ||
    (0xA0 ≤ n && n ≤ 0xFFFD) || 0x10000 ≤ n

/-- How bytes write characters: in UTF-8, or as 16-bit values with the more significant byte first
or second. -/
inductive Encoding where
  | utf8
  | utf16 (bigEnd : Bool)

/-- What stands at the front of some bytes: a character of so many bytes, the start of a character
whose other bytes are missing, or neither. -/
inductive Front where
  | char (size : Nat) (c : Char)
  | cut
  | bad

/-- The number of bytes that the first byte of a character announces; none is zero. -/
def announced (b : Nat) : Nat :=
  if b < 0x80 then 1 else if b < 0xC0 then 0 else if b < 0xE0 then 2 else if b < 0xF0 then 3
  else if b < 0xF8 then 4 else 0

def frontUtf8 (t : Text) : Front :=
  match t with
  | [] => .cut
  | b :: rest =>
    if announced b.toNat = 0 then .bad
    else if t.length < announced b.toNat then .cut
    else
      match Text.charAt? b rest with
      | some (c, more) => .char (more + 1) c
      | none => .bad

def word16 (bigEnd : Bool) (a b : UInt8) : Nat :=
  if bigEnd then 256 * a.toNat + b.toNat else 256 * b.toNat + a.toNat

/-- Whether a 16-bit value is the first half of a pair. -/
def isHighHalf (n : Nat) : Bool :=
  0xD800 ≤ n && n < 0xDC00

/-- Whether a 16-bit value is the second half of a pair. -/
def isLowHalf (n : Nat) : Bool :=
  0xDC00 ≤ n && n < 0xE000

def frontUtf16 (bigEnd : Bool) (t : Text) : Front :=
  match t with
  | a :: b :: rest =>
    let w := word16 bigEnd a b
    if isLowHalf w then .bad
    else if !isHighHalf w then .char 2 (Char.ofNat w)
    else
      match rest with
      | c :: d :: _ =>
        let v := word16 bigEnd c d
        if isLowHalf v then .char 4 (Char.ofNat (0x10000 + (w - 0xD800) * 0x400 + (v - 0xDC00)))
        else .bad
      | _ => .cut
  | _ => .cut

/-- The front of bytes, a character that may not stand in a document being none. -/
def Encoding.front (e : Encoding) (t : Text) : Front :=
  let found :=
    match e with
    | .utf8 => frontUtf8 t
    | .utf16 bigEnd => frontUtf16 bigEnd t
  match found with
  | .char size c => if isReadable c then .char size c else .bad
  | other => other

def blockSize : Nat := 512

def maxSize : Nat := 4

/-- The blocks before the first spoiled one, and whether there is a spoiled one or the bytes end
within a character. `skip` bytes belong to the last character, the block has room for `room` more
behind them, and `current` holds its characters, newest first. A character that does not fit in is
left to the next block. -/
def blocksFrom (e : Encoding) : (skip room : Nat) → (current : List Char) → Text →
    List (List Char) × Bool
  | _, _, current, [] => ([current.reverse], false)
  | skip + 1, room, current, _ :: rest => blocksFrom e skip room current rest
  | 0, room, current, b :: rest =>
    match e.front ((b :: rest).take (min room maxSize)) with
    | .char size c => blocksFrom e (size - 1) (room - size) (c :: current) rest
    | .bad => ([], true)
    | .cut =>
      if (b :: rest).length ≤ room then ([current.reverse], true)
      else
        match e.front ((b :: rest).take maxSize) with
        | .char size c =>
          let (more, broken) := blocksFrom e (size - 1) (blockSize - size) [c] rest
          (current.reverse :: more, broken)
        | _ => ([current.reverse], true)

structure Source where
  blocks : List (List Char)
  broken : Bool

/-- The source of a document. The byte order mark belongs to the first block. -/
def Source.read (t : Text) : Source :=
  let blocks := fun (e : Encoding) (size : Nat) (rest : Text) =>
    blocksFrom e 0 (blockSize - size) [] rest
  let (blocks, broken) :=
    match t with
    | 0xFF :: 0xFE :: rest => blocks (.utf16 false) 2 rest
    | 0xFE :: 0xFF :: rest => blocks (.utf16 true) 2 rest
    | 0xEF :: 0xBB :: 0xBF :: rest => blocks .utf8 3 rest
    | _ => blocks .utf8 0 t
  ⟨blocks, broken⟩

end TreeCheck.Yaml
