/-!
Sets of characters given by run lengths. A set is written as the number of code points outside it,
then inside it, then outside it again, and so on, from code point zero. The numbers are written in
base 36 and stand apart by blanks or line ends, which keeps the tables of character properties
short.
-/

namespace TreeCheck.Text

/-- The value of a base 36 digit; other characters have none. -/
def digit36? (c : Char) : Option Nat :=
  if c.isDigit then some (c.toNat - 48)
  else if c.isLower then some (c.toNat - 87)
  else none

/-- The numbers of a table written in base 36. The accumulator holds the number being read. -/
def readNumbers : Option Nat → List Char → List Nat
  | none, [] => []
  | some n, [] => [n]
  | pending, c :: rest =>
    match digit36? c, pending with
    | some d, some n => readNumbers (some (36 * n + d)) rest
    | some d, none => readNumbers (some d) rest
    | none, some n => n :: readNumbers none rest
    | none, none => readNumbers none rest

/-- The numbers of a table written in base 36. -/
def numbers (table : String) : List Nat :=
  readNumbers none table.toList

structure Ranges where
  lengths : List Nat

namespace Ranges

def read (table : String) : Ranges :=
  ⟨numbers table⟩

/-- Whether the code point `n` places after the start of the first run is inside. -/
def inside : List Nat → Nat → Bool
  | outer :: inner :: rest, n =>
    if n < outer then false
    else if n < outer + inner then true
    else inside rest (n - (outer + inner))
  | _, _ => false

def contains (set : Ranges) (c : Char) : Bool :=
  inside set.lengths c.toNat

end Ranges

end TreeCheck.Text
