import TreeCheck.Text

/-!
Reading characters from texts. A text is cut into pieces: the well-formed characters, and single
bytes that belong to none. Overlong forms, surrogates and values above the last code point are no
characters.
-/

namespace TreeCheck.Text

/-- A piece of a text: a character, or a byte that is part of no character. -/
inductive Piece where
  | char (c : Char)
  | stray (b : UInt8)
  deriving DecidableEq

def tailBits? (b : UInt8) : Option Nat :=
  if 0x80 ≤ b && b ≤ 0xBF then some (b.toNat - 0x80) else none

/-- The character whose first byte is `b` and whose other bytes lead `rest`, with the number of
bytes it takes from `rest`. -/
def charAt? (b : UInt8) (rest : Text) : Option (Char × Nat) :=
  if b < 0x80 then some (Char.ofNat b.toNat, 0)
  else if b < 0xC2 then none
  else if b < 0xE0 then
    match rest with
    | b₁ :: _ => do
      let t₁ ← tailBits? b₁
      return (Char.ofNat ((b.toNat - 0xC0) * 0x40 + t₁), 1)
    | _ => none
  else if b < 0xF0 then
    match rest with
    | b₁ :: b₂ :: _ => do
      let t₁ ← tailBits? b₁
      let t₂ ← tailBits? b₂
      let code := (b.toNat - 0xE0) * 0x1000 + t₁ * 0x40 + t₂
      if code < 0x800 || (0xD800 ≤ code && code ≤ 0xDFFF) then none
      else return (Char.ofNat code, 2)
    | _ => none
  else if b < 0xF5 then
    match rest with
    | b₁ :: b₂ :: b₃ :: _ => do
      let t₁ ← tailBits? b₁
      let t₂ ← tailBits? b₂
      let t₃ ← tailBits? b₃
      let code := (b.toNat - 0xF0) * 0x40000 + t₁ * 0x1000 + t₂ * 0x40 + t₃
      if code < 0x10000 || 0x10FFFF < code then none
      else return (Char.ofNat code, 3)
    | _ => none
  else none

def piecesFrom : Nat → Text → List Piece
  | _, [] => []
  | k + 1, _ :: rest => piecesFrom k rest
  | 0, b :: rest =>
    match charAt? b rest with
    | some (c, k) => .char c :: piecesFrom k rest
    | none => .stray b :: piecesFrom 0 rest

def pieces (t : Text) : List Piece :=
  piecesFrom 0 t

def replacement : Char :=
  Char.ofNat 0xFFFD

def Piece.shown : Piece → Char
  | .char c => c
  | .stray _ => replacement

def chars (t : Text) : List Char :=
  (pieces t).map Piece.shown

def ofChar (c : Char) : Text :=
  String.utf8EncodeChar c

/-- The UTF-8 bytes of a piece: a stray byte stands for itself. -/
def ofPiece : Piece → Text
  | .char c => ofChar c
  | .stray b => [b]

def ofChars (cs : List Char) : Text :=
  cs.flatMap ofChar

def isUtf8 (t : Text) : Bool :=
  (pieces t).all fun
    | .char _ => true
    | .stray _ => false

end TreeCheck.Text
