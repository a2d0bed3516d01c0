import TreeCheck.Text

/-!
The parts of written dates and times: existing dates, times of day and distances from universal
time. Each reader gives the text that follows what it read. Numbers have two digits; where they
need not be padded, one digit will do.
-/

namespace TreeCheck.Timestamp

def short? (t : Text) : Option (Nat × Text) :=
  match t with
  | a :: b :: rest =>
    if !Text.isDigit a then none
    else if Text.isDigit b then some (10 * (a.toNat - 0x30) + (b.toNat - 0x30), rest)
    else some (a.toNat - 0x30, b :: rest)
  | [a] => if Text.isDigit a then some (a.toNat - 0x30, []) else none
  | [] => none

def number? (padded : Bool) (t : Text) : Option (Nat × Text) := do
  let (n, rest) ← short? t
  if padded && rest.length + 2 != t.length then none else some (n, rest)

def after? (b : UInt8) (t : Text) : Option Text :=
  Text.dropLead? [b] t

def daysIn (year month : Nat) : Nat :=
  let leap := year % 4 == 0 && (year % 100 != 0 || year % 400 == 0)
  match month with
  | 2 => if leap then 29 else 28
  | 4 | 6 | 9 | 11 => 30
  | _ => 31

def date? (padded : Bool) (t : Text) : Option Text := do
  let (digits, rest) := t.span Text.isDigit
  if digits.length != 4 then none
  let year ← Text.toNat? digits
  let rest ← after? 0x2D rest
  let (month, rest) ← number? padded rest
  let rest ← after? 0x2D rest
  let (day, rest) ← number? padded rest
  if 1 ≤ month && month ≤ 12 && 1 ≤ day && day ≤ daysIn year month then some rest else none

/-- A time of day with an optional fraction of a second. The hour is never padded. -/
def clock? (padded : Bool) (t : Text) : Option Text := do
  let (hour, rest) ← short? t
  let rest ← after? 0x3A rest
  let (minute, rest) ← number? padded rest
  let rest ← after? 0x3A rest
  let (second, rest) ← number? padded rest
  if hour ≥ 24 || minute ≥ 60 || second ≥ 60 then none
  match rest with
  | point :: d :: more =>
    if (point == 0x2E || point == 0x2C) && Text.isDigit d then some (more.dropWhile Text.isDigit)
    else some rest
  | _ => some rest

/-- A distance from universal time: `Z`, or hours and minutes with a sign. -/
def isZone (t : Text) : Bool :=
  match t with
  | [0x5A] => true
  | [sign, a, b, colon, c, d] =>
    (sign == 0x2B || sign == 0x2D) && colon == 0x3A && [a, b, c, d].all Text.isDigit &&
      10 * (a.toNat - 0x30) + (b.toNat - 0x30) ≤ 24 && 10 * (c.toNat - 0x30) + (d.toNat - 0x30) ≤ 60
  | _ => false

end TreeCheck.Timestamp
