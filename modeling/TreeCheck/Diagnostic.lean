import TreeCheck.Span
import TreeCheck.Text.Case
import TreeCheck.Text.Quoted

/-!
Diagnostics: what a check has to say about a position, how grave it is and under which code, with
notes that point at other positions.
-/

namespace TreeCheck

/-- How grave a diagnostic is, by number: higher is graver. -/
structure Severity where
  level : Nat
  deriving DecidableEq, Inhabited

namespace Severity

def info : Severity := ⟨0⟩
def warning : Severity := ⟨1⟩
def error : Severity := ⟨2⟩

def name (s : Severity) : String :=
  match s.level with
  | 0 => "INFO"
  | 1 => "WARNING"
  | 2 => "ERROR"
  | _ => "UNKNOWN"

def word (s : Severity) : String :=
  match s.level with
  | 0 => "info"
  | 1 => "warning"
  | 2 => "error"
  | _ => "unknown"

def ofName? (t : Text) : Option Severity :=
  let upper := (Text.chars t).map Text.upperAscii
  [info, warning, error].find? fun s => upper == s.name.toList

def unknownName (t : Text) : Text :=
  text "unknown severity " ++ Text.quoted t

end Severity

structure Code where
  number : Nat
  deriving DecidableEq, Inhabited

namespace Code

def malformed : Code := ⟨2001⟩
def unknownOperator : Code := ⟨2002⟩
def semantic : Code := ⟨3001⟩
def duplicateBinding : Code := ⟨3002⟩
def scopeUnderflow : Code := ⟨3003⟩
def shadowing : Code := ⟨3004⟩
def unresolvedSymbol : Code := ⟨3005⟩
def unresolvedType : Code := ⟨3006⟩
def notImplemented : Code := ⟨3007⟩
def typeRedefined : Code := ⟨3008⟩
def typeMismatch : Code := ⟨3009⟩
def notCallable : Code := ⟨3010⟩
def argumentCount : Code := ⟨3011⟩
def unknownMember : Code := ⟨3012⟩
def globalRedefined : Code := ⟨3013⟩
def timings : Code := ⟨9001⟩

def titles : List (Nat × String) :=
  [(2000, "Input information"), (2001, "Malformed syntax tree document"),
    (2002, "Unknown operator"), (3000, "Semantic information"), (3001, "Semantic error"),
    (3002, "Duplicate binding"), (3003, "Scope underflow"),
    (3004, "Binding shadows an outer binding"), (3005, "Unresolved identifier"),
    (3006, "Unresolved type"), (3007, "Not implemented"), (3008, "Type redefinition"),
    (3009, "Type mismatch"), (3010, "Value is not callable"),
    (3011, "Wrong number of arguments"), (3012, "Unknown member"),
    (3013, "Global binding redefined"), (9000, "Observability information"),
    (9001, "Phase timings")]

def title (c : Code) : Text :=
  text (((titles.find? (·.1 == c.number)).map (·.2)).getD "Unknown error")

/-- The code as shown to the user: the area it belongs to and its number. -/
def id (c : Code) : Text :=
  if 2000 ≤ c.number && c.number < 3000 then text "INP" ++ Text.ofNat c.number
  else if 3000 ≤ c.number && c.number < 4000 then text "SEM" ++ Text.ofNat c.number
  else if 9000 ≤ c.number && c.number < 10000 then text "OBS" ++ Text.ofNat c.number
  else text "E0000"

def toText (c : Code) : Text :=
  text "[" ++ c.id ++ text "]: " ++ c.title

end Code

structure Note where
  place : Span
  message : Text
  deriving DecidableEq, Inhabited

structure Diagnostic where
  severity : Severity
  code : Code
  message : Text
  primary : Span
  notes : List Note
  deriving DecidableEq

instance : Inhabited Diagnostic := ⟨⟨.info, ⟨0⟩, [], .zero, []⟩⟩

namespace Diagnostic

def error (code : Code) (primary : Span) (message : Text) : Diagnostic :=
  ⟨.error, code, message, primary, []⟩

def warning (code : Code) (primary : Span) (message : Text) : Diagnostic :=
  ⟨.warning, code, message, primary, []⟩

def withNote (d : Diagnostic) (place : Span) (message : Text) : Diagnostic :=
  { d with notes := d.notes ++ [⟨place, message⟩] }

/-- The text by which repeated diagnostics are recognised: code, position and message. -/
def key (d : Diagnostic) : Text :=
  d.code.id ++ text ":" ++ d.primary.toText ++ text ":" ++ d.message

/-- The order of diagnostics: by position, then the graver first, then by code. -/
def before (a b : Diagnostic) : Bool :=
  if a.primary ≠ b.primary then a.primary.before b.primary
  else if a.severity ≠ b.severity then b.severity.level < a.severity.level
  else a.code.number < b.code.number

end Diagnostic

end TreeCheck
