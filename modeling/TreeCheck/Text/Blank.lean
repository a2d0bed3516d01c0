import TreeCheck.Text.Utf8

/-!
White space in the sense of the character property, and trimming it from both ends of a text.
-/

namespace TreeCheck.Text

def isBlank (c : Char) : Bool :=
  let n := c.toNat
  (0x09 ≤ n && n ≤ 0x0D) || n == 0x20 || n == 0x85 || n == 0xA0 || n == 0x1680 ||
    (0x2000 ≤ n && n ≤ 0x200A) || n == 0x2028 || n == 0x2029 || n == 0x202F || n == 0x205F ||
    n == 0x3000

/-- Whether a piece is white space; a stray byte never is. -/
def Piece.isBlank : Piece → Bool
  | .char c => Text.isBlank c
  | .stray _ => false

def trim (t : Text) : Text :=
  let inner := (pieces t).dropWhile Piece.isBlank
  ((inner.reverse.dropWhile Piece.isBlank).reverse).flatMap ofPiece

end TreeCheck.Text
