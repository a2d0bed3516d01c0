/-!
Texts are byte strings. Names, paths, messages and file contents may hold bytes that are no valid
UTF-8, and every comparison and every order of the program is bytewise, so a text is its list of
bytes; `Text.Utf8` reads characters from it where characters matter.
-/

namespace TreeCheck

abbrev Text := List UInt8

def text (s : String) : Text :=
  s.toUTF8.data.toList

namespace Text

def ofNat (n : Nat) : Text :=
  text (Nat.repr n)

def ofInt : Int → Text
  | .ofNat n => ofNat n
  | .negSucc n => text "-" ++ ofNat (n + 1)

def ofAscii (c : Char) : Text :=
  [c.toNat.toUInt8]

def ascii (b : UInt8) : Char :=
  Char.ofNat b.toNat

def join (separator : Text) : List Text → Text
  | [] => []
  | [t] => t
  | t :: rest => t ++ separator ++ join separator rest

/-- What follows `lead`, if the text starts with it. -/
def dropLead? : (lead t : Text) → Option Text
  | [], t => some t
  | _ :: _, [] => none
  | a :: lead, b :: t => if a == b then dropLead? lead t else none

def startsWith (t lead : Text) : Bool :=
  (dropLead? lead t).isSome

/-- What precedes `tail`, if the text ends with it. -/
def dropTail? (tail t : Text) : Option Text :=
  (dropLead? tail.reverse t.reverse).map List.reverse

/-- The parts between occurrences of one byte; there is always at least one part. -/
def splitOn (sep : UInt8) : Text → List Text
  | [] => [[]]
  | b :: rest =>
    if b == sep then [] :: splitOn sep rest
    else
      match splitOn sep rest with
      | [] => [[b]]
      | part :: parts => (b :: part) :: parts

def cut? (sep : UInt8) : Text → Option (Text × Text)
  | [] => none
  | b :: rest =>
    if b == sep then some ([], rest)
    else (cut? sep rest).map fun (before, after) => (b :: before, after)

/-- Replaces the occurrences of a non-empty `old`, from left to right and without overlap. The
counter is the number of bytes that still belong to the last occurrence. -/
def replaceFrom (old new : Text) : Nat → Text → Text
  | _, [] => []
  | k + 1, _ :: rest => replaceFrom old new k rest
  | 0, b :: rest =>
    if old ≠ [] ∧ startsWith (b :: rest) old then new ++ replaceFrom old new (old.length - 1) rest
    else b :: replaceFrom old new 0 rest

/-- Replaces every occurrence of `old`, from left to right and without overlap. -/
def replace (old new t : Text) : Text :=
  replaceFrom old new 0 t

def contains (part : Text) : Text → Bool
  | [] => part.isEmpty
  | b :: rest => startsWith (b :: rest) part || contains part rest

/-- Bytewise order; a proper initial part comes first. -/
def le : Text → Text → Bool
  | [], _ => true
  | _ :: _, [] => false
  | a :: s, b :: t => if a == b then le s t else a < b

def sort (ts : List Text) : List Text :=
  ts.mergeSort le

/-- The lower case form of an ASCII byte; other bytes are unchanged. -/
def lowerByte (b : UInt8) : UInt8 :=
  if 0x41 ≤ b && b ≤ 0x5A then b + 0x20 else b

/-- Whether the byte is one of the digits `0` to `9`. -/
def isDigit (b : UInt8) : Bool :=
  0x30 ≤ b && b ≤ 0x39

def hexDigit (n : Nat) : UInt8 :=
  if n < 10 then (0x30 + n).toUInt8 else (0x57 + n).toUInt8

def hexByte (b : UInt8) : Text :=
  [hexDigit (b.toNat / 16), hexDigit (b.toNat % 16)]

def hex (t : Text) : Text :=
  t.flatMap hexByte

/-- The number written in hexadecimal with at least `width` digits. -/
def hexNat (width n : Nat) : Text :=
  let digits := (Nat.toDigits 16 n).map fun c => c.toNat.toUInt8
  List.replicate (width - digits.length) 0x30 ++ digits

def hexValue? (b : UInt8) : Option Nat :=
  if isDigit b then some (b.toNat - 0x30)
  else if 0x61 ≤ b && b ≤ 0x66 then some (b.toNat - 0x57)
  else if 0x41 ≤ b && b ≤ 0x46 then some (b.toNat - 0x37)
  else none

def ofHex? : Text → Option Text
  | [] => some []
  | [_] => none
  | a :: b :: rest => do
    let high ← hexValue? a
    let low ← hexValue? b
    let bytes ← ofHex? rest
    return (16 * high + low).toUInt8 :: bytes

/-- The text as a string, if it is valid UTF-8. -/
def toString? (t : Text) : Option String :=
  String.fromUTF8? ⟨t.toArray⟩

def toNat? (t : Text) : Option Nat :=
  if t.isEmpty || !t.all isDigit then none
  else some (t.foldl (fun n b => 10 * n + (b.toNat - 0x30)) 0)

end Text

end TreeCheck
