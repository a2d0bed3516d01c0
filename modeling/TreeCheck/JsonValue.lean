import TreeCheck.Binary64
import TreeCheck.Text.Utf8

/-!
JSON values and their texts: in one line, or with one member to a line and two spaces per level.
Fields keep the order in which they are given.
-/

namespace TreeCheck

inductive JsonValue where
  | bool (b : Bool)
  | int (n : Int)
  | float (bits : UInt64)
  | string (t : Text)
  | array (items : List JsonValue)
  | object (fields : List (Text × JsonValue))

namespace JsonValue

/-- One character inside a JSON string. Characters that mean something in markup, and the two
separators that end lines, are escaped too. -/
def escapeChar (c : Char) : Text :=
  let n := c.toNat
  if c == '"' then text "\\\""
  else if c == '\\' then text "\\\\"
  else if n == 0x08 then text "\\b"
  else if n == 0x0C then text "\\f"
  else if n == 0x0A then text "\\n"
  else if n == 0x0D then text "\\r"
  else if n == 0x09 then text "\\t"
  else if n < 0x20 || c == '<' || c == '>' || c == '&' || n == 0x2028 || n == 0x2029 then
    text "\\u" ++ Text.hexNat 4 n
  else Text.ofChar c

/-- One piece of a text inside a JSON string; a stray byte is shown as the escaped replacement
character. -/
def escapePiece : Text.Piece → Text
  | .char c => escapeChar c
  | .stray _ => text "\\ufffd"

def quote (t : Text) : Text :=
  text "\"" ++ (Text.pieces t).flatMap escapePiece ++ text "\""

inductive Layout where
  | compact
  | indented

def Layout.lead (l : Layout) (level : Nat) : Text :=
  match l with
  | .compact => []
  | .indented => text "\n" ++ List.replicate (2 * level) 0x20

def Layout.colon : Layout → Text
  | .compact => text ":"
  | .indented => text ": "

def bracketed (l : Layout) (level : Nat) (first last : String) (members : List Text) : Text :=
  if members.isEmpty then text first ++ text last
  else
    text first ++ Text.join (text ",") (members.map fun m => l.lead (level + 1) ++ m) ++
      l.lead level ++ text last

mutual

def write (l : Layout) (level : Nat) : JsonValue → Text
  | .bool b => text (if b then "true" else "false")
  | .int n => Text.ofInt n
  | .float bits => Binary64.toText bits
  | .string t => quote t
  | .array items => bracketed l level "[" "]" (writeItems l level items)
  | .object fields => bracketed l level "\x7b" "\x7d" (writeFields l level fields)

def writeItems (l : Layout) (level : Nat) : List JsonValue → List Text
  | [] => []
  | v :: rest => write l (level + 1) v :: writeItems l level rest

def writeFields (l : Layout) (level : Nat) : List (Text × JsonValue) → List Text
  | [] => []
  | (k, v) :: rest =>
    (quote k ++ l.colon ++ write l (level + 1) v) :: writeFields l level rest

end

def compact (v : JsonValue) : Text :=
  write .compact 0 v

def lines (v : JsonValue) : Text :=
  write .indented 0 v ++ text "\n"

end JsonValue

end TreeCheck
