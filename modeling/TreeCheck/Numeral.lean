import TreeCheck.Binary64
import TreeCheck.Text

/-!
Numbers as they are written in documents and on the command line. An integer may carry a base mark
(`0x`, `0o`, `0b`, or a leading zero for octal), and underscores may stand between digits. A number
beyond its limit is told apart from a text that is no number.
-/

namespace TreeCheck.Numeral

inductive Refusal where
  | malformed
  | outOfRange
  deriving DecidableEq

/-- The value of a digit in some base up to 36. -/
def digit? (b : UInt8) : Option Nat :=
  let l := Text.lowerByte b
  if Text.isDigit b then some (b.toNat - 0x30)
  else if 0x61 ≤ l && l ≤ 0x7A then some (l.toNat - 0x57)
  else none

def isUnderscore (b : UInt8) : Bool :=
  b == 0x5F

/-- The value of digits in a base, up to a limit. The first thing wrong decides. -/
def digits (base limit value : Nat) : Text → Except Refusal Nat
  | [] => .ok value
  | b :: rest =>
    match digit? b with
    | none => .error .malformed
    | some d =>
      if d ≥ base then .error .malformed
      else if value * base + d > limit then .error .outOfRange
      else digits base limit (value * base + d) rest

def naturalIn (base limit : Nat) (t : Text) : Except Refusal Nat :=
  if t.isEmpty then .error .malformed else digits base limit 0 t

def baseOf (t : Text) : Nat × Text :=
  match t with
  | 0x30 :: m :: d :: rest =>
    match Text.lowerByte m with
    | 0x62 => (2, d :: rest)
    | 0x6F => (8, d :: rest)
    | 0x78 => (16, d :: rest)
    | _ => (8, m :: d :: rest)
  | 0x30 :: rest => (8, rest)
  | _ => (10, t)

def unsigned (t : Text) : Text :=
  match t with
  | 0x2B :: rest => rest
  | 0x2D :: rest => rest
  | _ => t

/-- Whether every underscore from here on stands between two digits. `digitBefore` says whether a
digit precedes, `open` whether an underscore does. -/
def separates (isDigit : UInt8 → Bool) : (digitBefore underscored : Bool) → Text → Bool
  | _, underscored, [] => !underscored
  | digitBefore, underscored, b :: rest =>
    if isDigit b then separates isDigit true false rest
    else if isUnderscore b then digitBefore && separates isDigit false true rest
    else !underscored && separates isDigit false false rest

/-- Whether the underscores of a number only separate digits; a base mark counts as a digit. -/
def underscoresSeparate (t : Text) : Bool :=
  let t := unsigned t
  match t with
  | 0x30 :: m :: rest =>
    match Text.lowerByte m with
    | 0x62 | 0x6F => separates Text.isDigit true false rest
    | 0x78 => separates (fun b => (Text.hexValue? b).isSome) true false rest
    | _ => separates Text.isDigit false false t
  | _ => separates Text.isDigit false false t

def natural (limit : Nat) (t : Text) : Except Refusal Nat :=
  if t.isEmpty then .error .malformed
  else
    let (base, ds) := baseOf t
    match digits base limit 0 (ds.filter fun b => !isUnderscore b) with
    | .error r => .error r
    | .ok n =>
      if ds.any isUnderscore && !underscoresSeparate t then .error .malformed else .ok n

/-- A natural number with a sign, cut to the range of a signed number of 64 bits. -/
def signed (negative : Bool) (n : Nat) : Except Refusal Int :=
  if negative then if n ≤ Nat.pow 2 63 then .ok (-n) else .error .outOfRange
  else if n < Nat.pow 2 63 then .ok n
  else .error .outOfRange

/-- A signed number of 64 bits, read by a reader of natural numbers below 2^64. -/
def integerBy (read : Nat → Text → Except Refusal Nat) (t : Text) : Except Refusal Int := do
  let n ← read (Nat.pow 2 64 - 1) (unsigned t)
  signed (t.head? == some 0x2D) n

/-- A signed number of 64 bits whose start announces its base. -/
def integer (t : Text) : Except Refusal Int :=
  integerBy natural t

/-- The digits of an exponent; past five digits more do not matter. -/
def exponentOf (digits : Text) : Nat :=
  digits.foldl (fun e b => if e < 10000 then 10 * e + (b.toNat - 0x30) else e) 0

/-- The parts of a decimal number without sign: the digits before and after the point, and the
exponent. -/
def decimalParts? (t : Text) : Option (Text × Text × Int) :=
  let (whole, rest) := t.span Text.isDigit
  let (fraction, rest) :=
    match rest with
    | 0x2E :: rest => rest.span Text.isDigit
    | _ => ([], rest)
  if whole.isEmpty && fraction.isEmpty then none
  else
    match rest with
    | [] => some (whole, fraction, 0)
    | e :: rest =>
      if Text.lowerByte e != 0x65 then none
      else
        let ds := unsigned rest
        if ds.isEmpty || !ds.all Text.isDigit then none
        else
          let n := exponentOf ds
          some (whole, fraction, if rest.head? == some 0x2D then -n else n)

/-- The double nearest to a decimal number; none if the text is no such number or the number is
too large. -/
def decimal? (t : Text) : Option UInt64 := do
  if t.any isUnderscore && !underscoresSeparate t then none
  let (whole, fraction, exponent) ← decimalParts? (unsigned (t.filter fun b => !isUnderscore b))
  let mantissa := (whole ++ fraction).foldl (fun n b => 10 * n + (b.toNat - 0x30)) 0
  Binary64.ofDecimal? (t.head? == some 0x2D) mantissa (exponent - fraction.length)

end TreeCheck.Numeral
