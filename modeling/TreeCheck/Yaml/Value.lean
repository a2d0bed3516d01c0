import TreeCheck.Numeral
import TreeCheck.Yaml.Timestamp
import TreeCheck.Yaml.Token

/-!
What a scalar means. The text of a plain scalar decides its kind; quotes make it a string, and an
explicit tag must agree with what the text says.
-/

namespace TreeCheck.Yaml

inductive Value where
  | null
  | bool (b : Bool)
  | int (n : Int)
  | float (bits : UInt64)
  | timestamp
  | string
  deriving DecidableEq

def Value.tag : Value → Text
  | .null => text "!!null"
  | .bool _ => text "!!bool"
  | .int _ => text "!!int"
  | .float _ => text "!!float"
  | .timestamp => text "!!timestamp"
  | .string => text "!!str"

def Value.words : List (String × Value) :=
  [("true", .bool true), ("True", .bool true), ("TRUE", .bool true), ("false", .bool false),
    ("False", .bool false), ("FALSE", .bool false), ("", .null), ("~", .null), ("null", .null),
    ("Null", .null), ("NULL", .null), (".nan", .float Binary64.nan), (".NaN", .float Binary64.nan),
    (".NAN", .float Binary64.nan), (".inf", .float Binary64.infinity),
    (".Inf", .float Binary64.infinity), (".INF", .float Binary64.infinity),
    ("+.inf", .float Binary64.infinity), ("+.Inf", .float Binary64.infinity),
    ("+.INF", .float Binary64.infinity),
    ("-.inf", .float (Binary64.withSign true Binary64.infinity)),
    ("-.Inf", .float (Binary64.withSign true Binary64.infinity)),
    ("-.INF", .float (Binary64.withSign true Binary64.infinity))]

/-- A number in a fixed base, signed or up to 64 bits. -/
def inBase? (base : Nat) (t : Text) : Option Int :=
  match Numeral.integerBy (Numeral.naturalIn base) t with
  | .ok n => some n
  | .error _ => ((Numeral.naturalIn base (Nat.pow 2 64 - 1) t).toOption).map Int.ofNat

/-- A number after a base mark, where the sign may also stand behind the mark. -/
def marked? (mark : String) (base : Nat) (t : Text) : Option Int :=
  match Text.dropLead? (text mark) t, Text.dropLead? (text "-" ++ text mark) t with
  | some rest, _ => inBase? base rest
  | none, some rest => (Numeral.integerBy (Numeral.naturalIn base) (text "-" ++ rest)).toOption
  | none, none => none

/-- The number that a text starting with a digit or a sign stands for, its underscores removed. -/
def number? (t : Text) : Option Value :=
  match (Numeral.integer t).toOption, (Numeral.natural (Nat.pow 2 64 - 1) t).toOption with
  | some n, _ => some (.int n)
  | none, some n => some (.int n)
  | none, none =>
    match Numeral.decimal? t with
    | some bits => some (.float bits)
    | none => ((marked? "0b" 2 t).or (marked? "0o" 8 t)).map .int

/-- The meaning of a text that no quotes mark as a string. Dates are recognised on demand. -/
def Value.ofText (dated : Bool) (t : Text) : Value :=
  match words.find? fun (w, _) => text w == t with
  | some (_, v) => v
  | none =>
    match t with
    | [] => .null
    | b :: _ =>
      if b == 0x2E then
        match Numeral.decimal? t with
        | some bits => .float bits
        | none => .string
      else if Text.isDigit b || b == 0x2B || b == 0x2D then
        if dated && isTimestamp t then .timestamp
        else (number? (t.filter fun b => !Numeral.isUnderscore b)).getD .string
      else .string

def longTag : Text :=
  text "tag:yaml.org,2002:"

def shortTag (tag : Text) : Text :=
  match Text.dropLead? longTag tag with
  | some name => text "!!" ++ name
  | none => tag

/-- The tag of a scalar: the given one, or the one that its style and text imply. -/
def tagOf (explicit value : Text) (style : Style) : Text :=
  if explicit != [] && explicit != text "!" then shortTag explicit
  else if style.isQuoted then text "!!str"
  else if value == text "<<" then text "!!merge"
  else (Value.ofText true value).tag

/-- A scalar: where it starts, its short tag, its text and how it is written. Lines and columns of
places count from 1. -/
structure Scalar where
  line : Nat
  column : Nat
  tag : Text
  value : Text
  style : Style
  deriving DecidableEq, Inhabited

namespace Scalar

def isNull (s : Scalar) : Bool :=
  s.tag == text "!!null"

/-- The value of a scalar that is no string; none if its tag and its text disagree. A whole number
may be tagged as a float. -/
def read? (s : Scalar) : Option Value :=
  let v := Value.ofText (s.tag == text "!!timestamp") s.value
  if v.tag == s.tag then some v
  else
    match v with
    | .int n =>
      if s.tag == text "!!float" && n < Nat.pow 2 63 then some (.float (Binary64.ofInt n)) else none
    | _ => none

def sextet? (b : UInt8) : Option Nat :=
  let n := b.toNat
  if 0x41 ≤ n && n ≤ 0x5A then some (n - 0x41)
  else if 0x61 ≤ n && n ≤ 0x7A then some (n - 0x61 + 26)
  else if 0x30 ≤ n && n ≤ 0x39 then some (n - 0x30 + 52)
  else if n == 0x2B then some 62
  else if n == 0x2F then some 63
  else none

/-- The bytes written in base64, four digits for three bytes, the last group filled up. -/
def unbase64? : Text → Option Text
  | [] => some []
  | [a, b, 0x3D, 0x3D] => do
    let n := (← sextet? a) * 64 + (← sextet? b)
    return [(n / 16).toUInt8]
  | [a, b, c, 0x3D] => do
    let n := ((← sextet? a) * 64 + (← sextet? b)) * 64 + (← sextet? c)
    return [(n / 1024).toUInt8, (n / 4).toUInt8]
  | a :: b :: c :: d :: rest => do
    let n := (((← sextet? a) * 64 + (← sextet? b)) * 64 + (← sextet? c)) * 64 + (← sextet? d)
    let more ← unbase64? rest
    return (n / 65536).toUInt8 :: (n / 256).toUInt8 :: n.toUInt8 :: more
  | _ => none

def yesOrNo? (t : Text) : Option Bool :=
  if ["y", "Y", "yes", "Yes", "YES", "on", "On", "ON"].any fun w => text w == t then some true
  else if ["n", "N", "no", "No", "NO", "off", "Off", "OFF"].any fun w => text w == t then some false
  else none

/-- Whether the text of a scalar has to agree with its tag. The text under any other tag is a
string, whatever it looks like. -/
def isChecked (s : Scalar) : Bool :=
  ["!!bool", "!!int", "!!float", "!!null", "!!timestamp"].any fun tag => text tag == s.tag

/-- The scalar as a truth value; nothing counts as false, and strings may say yes or no. -/
def toBool? (s : Scalar) : Option Bool :=
  if s.isChecked then
    match s.read? with
    | some .null => some false
    | some (.bool b) => some b
    | _ => none
  else if s.tag == text "!!binary" then
    (unbase64? (s.value.filter fun b => b != 0x0A && b != 0x0D)).bind yesOrNo?
  else yesOrNo? s.value

/-- The scalar as a signed number of 64 bits. -/
def toInt? (s : Scalar) : Option Int :=
  match s.read? with
  | some (.int n) => if n < Nat.pow 2 63 then some n else none
  | _ => none

def toFloat? (s : Scalar) : Option UInt64 :=
  match s.read? with
  | some (.float bits) => some bits
  | _ => none

end Scalar

end TreeCheck.Yaml
