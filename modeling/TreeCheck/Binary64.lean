import TreeCheck.Text

/-!
Numbers in the 64-bit binary format, given by their bits: rounding exact quotients and decimals to
the nearest number of the format, and writing such a number in decimal, either with a fixed number
of places or with the fewest digits that read back. All arithmetic is exact.
-/

namespace TreeCheck.Binary64

def divRound (num den : Nat) : Nat :=
  let q := num / den
  let r := num % den
  if den < 2 * r ∨ (2 * r = den ∧ q % 2 = 1) then q + 1 else q

def scale (num den : Nat) : Int → Nat × Nat
  | .ofNat e => (num * Nat.pow 2 e, den)
  | .negSucc e => (num, den * Nat.pow 2 (e + 1))

def leastExponent : Int := -1074

def exponentOf (num den : Nat) : Int :=
  let guess : Int := (Nat.log2 num : Int) - (Nat.log2 den : Int) - 52
  let (n, d) := scale num den (-guess)
  let q := n / d
  max leastExponent
    (if Nat.pow 2 53 ≤ q then guess + 1 else if q < Nat.pow 2 52 then guess - 1 else guess)

/-- The bits of the number nearest to a quotient, a half to the even one; nothing if it is too
large for the format. -/
def ofRatio? (num den : Nat) : Option UInt64 :=
  if num = 0 then some 0
  else
    let e := exponentOf num den
    let (n, d) := scale num den (-e)
    let m := divRound n d
    let (m, e) := if m = Nat.pow 2 53 then (Nat.pow 2 52, e + 1) else (m, e)
    if 971 < e then none
    else if m < Nat.pow 2 52 then some m.toUInt64
    else some ((e + 1075).toNat * Nat.pow 2 52 + (m - Nat.pow 2 52)).toUInt64

def signBit : UInt64 := 0x8000000000000000

def withSign (negative : Bool) (bits : UInt64) : UInt64 :=
  if negative then bits ||| signBit else bits

def infinity : UInt64 := 0x7FF0000000000000

def nan : UInt64 := 0x7FF8000000000001

def isNaN (bits : UInt64) : Bool :=
  infinity < bits &&& ~~~signBit

/-- The nearest number to a decimal: digits times a power of ten. -/
def ofDecimal? (negative : Bool) (digits : Nat) (exponent : Int) : Option UInt64 :=
  let bits :=
    match exponent with
    | .ofNat e => ofRatio? (digits * Nat.pow 10 e) 1
    | .negSucc e => ofRatio? digits (Nat.pow 10 (e + 1))
  bits.map (withSign negative)

/-- The nearest number to an integer of 64 bits. -/
def ofInt (n : Int) : UInt64 :=
  withSign (n < 0) ((ofRatio? n.natAbs 1).getD infinity)

def isNegative (bits : UInt64) : Bool :=
  bits &&& signBit != 0

def parts (bits : UInt64) : Nat × Int :=
  let size := (bits &&& ~~~signBit).toNat
  let e : Nat := size / Nat.pow 2 52
  let m : Nat := size % Nat.pow 2 52
  if e = 0 then (m, leastExponent) else (m + Nat.pow 2 52, (e : Int) - 1075)

def ratio (bits : UInt64) : Nat × Nat :=
  let (m, e) := parts bits
  scale m 1 e

def divBy (bits : UInt64) (n : Nat) : UInt64 :=
  let (num, den) := ratio bits
  withSign (isNegative bits) ((ofRatio? num (den * n)).getD infinity)

/-- Decimal digits with a point before the last `places` of them. -/
def pointed (places : Nat) (digits : Nat) : Text :=
  let t := Text.ofNat digits
  let t := List.replicate (places + 1 - t.length) 0x30 ++ t
  if places = 0 then t
  else t.take (t.length - places) ++ text "." ++ t.drop (t.length - places)

/-- A finite number with a fixed number of places, the exact value rounded with a half to even. -/
def toFixed (places : Nat) (bits : UInt64) : Text :=
  let (num, den) := ratio bits
  (if isNegative bits then text "-" else []) ++
    pointed places (divRound (num * Nat.pow 10 places) den)

/-- The ends of the interval of values that round to a number, as numerators over one
denominator, with the numerator of the value itself between them. -/
def interval (bits : UInt64) : Nat × Nat × Nat × Nat :=
  let (m, e) := parts bits
  let below := if m = Nat.pow 2 52 ∧ leastExponent < e then 1 else 2
  let (unit, den) := scale 1 4 e
  (unit * (4 * m - below), unit * (4 * m), unit * (4 * m + 2), den)

def readsBack (bits : UInt64) (low high value : Nat) : Bool :=
  if (parts bits).1 % 2 = 0 then low ≤ value && value ≤ high else low < value && value < high

/-- The digits and the power of ten of the nearest decimal on the grid of `10 ^ exponent` that
reads back. -/
def onGrid? (bits : UInt64) (exponent : Int) : Option (Nat × Int) :=
  let (low, value, high, den) := interval bits
  let (up, down) : Nat × Nat :=
    match exponent with
    | .ofNat e => (Nat.pow 10 e, 1)
    | .negSucc e => (1, Nat.pow 10 (e + 1))
  let step := up * den
  let floor := value * down / step
  let fits (d : Nat) : Bool := readsBack bits (low * down) (high * down) (d * step)
  let nearer := if 2 * (value * down - floor * step) ≤ step then floor else floor + 1
  let other := if nearer = floor then floor + 1 else floor
  if fits nearer then some (nearer, exponent)
  else if fits other then some (other, exponent)
  else none

def search (bits : UInt64) : Nat → Int → Nat × Int
  | 0, exponent => (0, exponent)
  | n + 1, exponent =>
    match onGrid? bits exponent with
    | some (0, _) | none => search bits n (exponent - 1)
    | some found => found

/-- Digits without final zeros, and the power of ten that makes up for them. -/
def strip : Nat → Nat → Int → Nat × Int
  | 0, digits, exponent => (digits, exponent)
  | n + 1, digits, exponent =>
    if digits % 10 = 0 ∧ digits ≠ 0 then strip n (digits / 10) (exponent + 1)
    else (digits, exponent)

def shortest (bits : UInt64) : Nat × Int :=
  let (num, den) := ratio bits
  if num = 0 then (0, 0)
  else
    let top : Int := ((Nat.toDigits 10 (num / den)).length : Int)
    let (digits, exponent) := search bits 400 top
    strip 400 digits exponent

/-- A finite number as data formats write it: the fewest digits that read back, positional. -/
def toText (bits : UInt64) : Text :=
  let (digits, exponent) := shortest bits
  (if isNegative bits then text "-" else []) ++
    match exponent with
    | .ofNat e => Text.ofNat (digits * Nat.pow 10 e)
    | .negSucc e => pointed (e + 1) digits

end TreeCheck.Binary64
