import TreeCheck.Numeral
import TreeCheck.Text.Utf8
import TreeCheck.Timestamp

/-!
Settings files are read as statements: table headers, headers of list elements, and entries of a
key and a value. A reader gives what it read and the text that follows, or nothing for a text that
breaks the format.
-/

namespace TreeCheck.Toml

/-- A key: its parts from the outermost to the innermost. -/
abbrev Key := List Text

inductive Expr where
  | string (t : Text)
  | integer (n : Int)
  | float (bits : UInt64)
  | boolean (b : Bool)
  | moment (t : Text)
  | array (items : List Expr)
  | inline (entries : List (Key × Expr))

inductive Statement where
  | entry (key : Key) (value : Expr)
  | header (key : Key)
  /-- The entries after it belong to a new element of a list of tables. -/
  | element (key : Key)

abbrev Reader := StateT Text Option

/-! Characters. -/

def isBlank (b : UInt8) : Bool :=
  b == 0x20 || b == 0x09

def isBreak (b : UInt8) : Bool :=
  b == 0x0A || b == 0x0D

/-- A letter, a digit, an underscore or a hyphen: what a key may hold without quotes. -/
def isBare (b : UInt8) : Bool :=
  Text.isDigit b || (0x61 ≤ Text.lowerByte b && Text.lowerByte b ≤ 0x7A) || b == 0x5F || b == 0x2D

/-- Whether a piece may stand in a settings file. Control characters may not, but for tabs and line
ends, nor may the replacement character. -/
def isAllowed : Text.Piece → Bool
  | .char c => (0x20 ≤ c.toNat || c == '\t' || c == '\n' || c == '\r') && c.toNat != 0x7F &&
      c != Text.replacement
  | .stray _ => false

def returnsPaired : Text → Bool
  | [] => true
  | 0x0D :: rest => rest.head? == some 0x0A && returnsPaired rest
  | _ :: rest => returnsPaired rest

def isClean (t : Text) : Bool :=
  (Text.pieces t).all isAllowed && returnsPaired t

/-! Pieces of statements. -/

def look : Reader (Option UInt8) :=
  return (← get).head?

def next : Reader UInt8 := do
  match ← get with
  | [] => failure
  | b :: rest =>
    set rest
    return b

def expect (b : UInt8) : Reader Unit := do
  if (← next) != b then failure

def many (class? : UInt8 → Bool) : Reader Text :=
  modifyGet fun t => t.span class?

def skipBlanks : Reader Unit :=
  discard (many isBlank)

def skipLine : Reader Unit :=
  discard (many fun b => !isBreak b)

/-- The text after blanks, line ends and comments. The flag says whether a comment is open. -/
def afterGaps : (comment : Bool) → Text → Text
  | _, [] => []
  | true, b :: rest => afterGaps (!isBreak b) rest
  | false, b :: rest =>
    if b == 0x23 then afterGaps true rest
    else if isBlank b || isBreak b then afterGaps false rest
    else b :: rest

def skipGaps : Reader Unit :=
  modify (afterGaps false)

/-! Strings. -/

def quote : UInt8 := 0x22

def apostrophe : UInt8 := 0x27

def backslash : UInt8 := 0x5C

/-- The content of a string on one line, as it is written, and what follows its closing quote. A
backslash takes the byte after it along where it starts an escape. -/
def lineBody (close : UInt8) : Text → Option (Text × Text)
  | [] => none
  | b :: rest =>
    if b == close then some ([], rest)
    else if isBreak b then none
    else if b == backslash && close == quote then
      match rest with
      | [] => none
      | c :: rest =>
        if isBreak c then none
        else (lineBody close rest).map fun (body, after) => (b :: c :: body, after)
    else (lineBody close rest).map fun (body, after) => (b :: body, after)

/-- The content of a string over several lines, as it is written, and what follows its three
closing quotes. One or two quotes more belong to the content. `seen` is the content read so far,
the last byte first. -/
def blockBody (close : UInt8) (seen : Text) : Text → Option (Text × Text)
  | [] => none
  | b :: rest =>
    if b == backslash && close == quote then
      match rest with
      | [] => none
      | c :: rest => blockBody close (c :: b :: seen) rest
    else if b == close && rest.take 2 == [close, close] then
      if (rest.drop 2).head? != some close then some (seen.reverse, rest.drop 2)
      else if seen.take 2 == [close, close] &&
          !(close == quote && (seen.drop 2).head? == some backslash) then none
      else blockBody close (b :: seen) rest
    else blockBody close (b :: seen) rest

def dropFirstBreak (t : Text) : Text :=
  match t with
  | 0x0A :: rest => rest
  | 0x0D :: 0x0A :: rest => rest
  | _ => t

def dropLineEnds (t : Text) : Text :=
  match t with
  | [] => []
  | b :: rest =>
    if b != backslash then b :: dropLineEnds rest
    else if rest.head? == some backslash then b :: backslash :: dropLineEnds rest.tail
    else if (rest.takeWhile fun c => isBlank c || isBreak c).contains 0x0A then
      dropLineEnds (rest.dropWhile fun c => isBlank c || isBreak c)
    else b :: dropLineEnds rest
termination_by t.length
decreasing_by
  · simp only [List.length_cons]
    omega
  · simp only [List.length_tail, List.length_cons]
    omega
  · have := (rest.dropWhile_suffix fun c => isBlank c || isBreak c).length_le
    simp only [List.length_cons]
    omega
  · simp only [List.length_cons]
    omega

def hexChar? (digits : Text) : Option Char := do
  let code ← (digits.mapM Text.hexValue?).map fun ds => ds.foldl (fun n d => 16 * n + d) 0
  if h : code.isValidChar then some ⟨code.toUInt32, by
    simpa [UInt32.isValidChar, Nat.toUInt32, Nat.mod_eq_of_lt (show code < 4294967296 by
      unfold Nat.isValidChar at h
      omega)] using h⟩
  else none

/-- What the byte after a backslash stands for, unless it announces digits. -/
def escapeChar? (b : UInt8) : Option Char :=
  match Text.ascii b with
  | 'b' => some '\x08'
  | 't' => some '\t'
  | 'n' => some '\n'
  | 'f' => some '\x0c'
  | 'r' => some '\r'
  | '"' => some '"'
  | '\\' => some '\\'
  | _ => none

/-- The text that an escape stands for, and how many bytes after the backslash it takes. -/
def escape? (t : Text) : Option (Text × Nat) := do
  match t with
  | [] => none
  | b :: rest =>
    let count := if b == 0x75 then 4 else if b == 0x55 then 8 else 0
    if count == 0 then return (Text.ofChar (← escapeChar? b), 1)
    else if rest.length < count then none
    else return (Text.ofChar (← hexChar? (rest.take count)), count + 1)

/-- The text with its escapes resolved. The counter is the number of bytes that still belong to the
last escape. -/
def unescape : Nat → Text → Option Text
  | _, [] => some []
  | k + 1, _ :: rest => unescape k rest
  | 0, b :: rest =>
    if b == backslash then do
      let (t, count) ← escape? rest
      return t ++ (← unescape count rest)
    else (unescape 0 rest).map (b :: ·)

def lineString (close : UInt8) : Reader Text := do
  let (body, rest) ← lineBody close (← get)
  set rest
  if close == quote then unescape 0 body else return body

def blockString (close : UInt8) : Reader Text := do
  let (body, rest) ← blockBody close [] (← get)
  set rest
  let body := dropFirstBreak body
  if close == quote then unescape 0 (dropLineEnds body) else return body

def string (close : UInt8) : Reader Text := do
  if (← get).take 2 == [close, close] then
    modify (·.drop 2)
    blockString close
  else lineString close

/-! Keys. -/

def keyPart : Reader Text := do
  let b ← look
  if b == some quote || b == some apostrophe then lineString (← next)
  else
    let part ← many isBare
    if part.isEmpty then failure else return part

/-- Reads the parts of a key up to a closing byte, which is read too. The first argument bounds
their number. -/
def keyParts (close : UInt8) : Nat → Reader Key
  | 0 => failure
  | n + 1 => do
    skipBlanks
    let part ← keyPart
    skipBlanks
    let b ← next
    if b == close then return [part]
    else if b == 0x2E then return part :: (← keyParts close n)
    else failure

def key (close : UInt8) : Reader Key := do
  keyParts close ((← get).length + 1)

/-! Numbers, dates and times. -/

def underscoresFit : (digitBefore : Bool) → Text → Bool
  | digitBefore, [] => digitBefore
  | digitBefore, b :: rest =>
    (b != 0x5F || digitBefore) && underscoresFit (Text.hexValue? b).isSome rest

def hasLeadingZero (t : Text) : Bool :=
  match t with
  | 0x30 :: b :: _ => b != 0x62 && b != 0x6F && b != 0x78
  | s :: 0x30 :: _ :: _ => s == 0x2B || s == 0x2D
  | _ => false

def integer? (t : Text) : Option Int :=
  if underscoresFit false t && !hasLeadingZero t then (Numeral.integer t).toOption else none

def floatParts (t : Text) : List Text :=
  ((Text.splitOn 0x2E t).flatMap fun p => (Text.splitOn 0x65 p).flatMap (Text.splitOn 0x45)).filter
    fun p => !p.isEmpty

def pointsFit : Text → Bool
  | [] => true
  | 0x2E :: rest => rest.head?.any Text.isDigit && pointsFit rest
  | _ :: rest => pointsFit rest

def float? (t : Text) : Option UInt64 :=
  let parts := floatParts t
  if parts.all (underscoresFit false) && !parts.head?.any hasLeadingZero && pointsFit t then
    Numeral.decimal? (t.filter fun b => !Numeral.isUnderscore b)
  else none

def isMoment (t : Text) : Bool :=
  (Timestamp.clock? true t).any List.isEmpty ||
    (Timestamp.date? true t).any fun
      | [] => true
      | 0x54 :: rest =>
        (Timestamp.clock? true rest).any fun zone => zone.isEmpty || Timestamp.isZone zone
      | _ => false

def isMomentByte (b : UInt8) : Bool :=
  Text.isDigit b || "-:Tt .Zz+".contains (Text.ascii b)

def moment (digits : Text) : Reader Expr := do
  let word := digits ++ (← many isMomentByte)
  let word := (word.reverse.dropWhile (· == 0x20)).reverse
  let word := word.map fun b =>
    if b == 0x74 || b == 0x20 then 0x54 else if b == 0x7A then 0x5A else b
  if isMoment word then return .moment word else failure

def basedInteger (mark : UInt8) : Reader Expr := do
  let base := if mark == 0x62 then 2 else if mark == 0x6F then 8 else 16
  let isDigit := fun b => (Numeral.digit? b).any (· < base)
  let digits ← many fun b => isDigit b || b == 0x5F
  if digits.head?.any isDigit then
    return .integer (← integer? (0x30 :: mark :: digits))
  else failure

def decimalNumber (sign : Text) : Reader Expr := do
  let digits ← many fun b => Text.isDigit b || b == 0x5F
  if !digits.head?.any Text.isDigit then failure
  let b ← look
  if b == some 0x2E || b == some 0x65 || b == some 0x45 then
    let more ← many fun b => Text.isDigit b || "_.-+eE".contains (Text.ascii b)
    return .float (← float? (sign ++ digits ++ more))
  else if sign.isEmpty && (b == some 0x2D || b == some 0x3A) && digits != [0x30] &&
      digits.all Text.isDigit then moment digits
  else return .integer (← integer? (sign ++ digits))

def number (sign : Text) : Reader Expr := do
  match ← get with
  | 0x30 :: mark :: rest =>
    if mark == 0x62 || mark == 0x6F || mark == 0x78 then
      if sign.isEmpty then
        set rest
        basedInteger mark
      else failure
    else decimalNumber sign
  | _ => decimalNumber sign

/-! Values. -/

def words : List (String × Expr) :=
  [("true", .boolean true), ("false", .boolean false), ("inf", .float Binary64.infinity),
    ("nan", .float Binary64.nan)]

/-- The value with a sign in front; only numbers have one. -/
def Expr.signed? (e : Expr) (sign : Text) : Option Expr :=
  match e with
  | .float bits => some (.float (Binary64.withSign (sign == text "-") bits))
  | _ => if sign.isEmpty then some e else none

def word (sign : Text) : Reader Expr := do
  let t ← get
  let (e, rest) ← words.findSome? fun (w, e) =>
    (Text.dropLead? (text w) t).map fun rest => (e, rest)
  set rest
  e.signed? sign

mutual

/-- Reads a value; the argument bounds how deep values are nested and how many follow. -/
def value : Nat → Reader Expr
  | 0 => failure
  | n + 1 => do
    skipBlanks
    match ← look with
    | none => failure
    | some b =>
      if Text.isDigit b then number []
      else if b == 0x5B then
        discard next
        return .array (← arrayItems n)
      else if b == 0x7B then
        discard next
        skipBlanks
        if (← look) == some 0x7D then
          discard next
          return .inline []
        else return .inline (← inlineEntries n)
      else if b == quote || b == apostrophe then return .string (← string (← next))
      else if b == 0x2B || b == 0x2D then
        discard next
        if (← look).any Text.isDigit then number [b] else word [b]
      else word []

/-- Reads the items of an array up to its end. A comma may follow the last one. -/
def arrayItems : Nat → Reader (List Expr)
  | 0 => failure
  | n + 1 => do
    skipGaps
    if (← look) == some 0x5D then
      discard next
      return []
    else
      let item ← value n
      skipGaps
      let b ← next
      if b == 0x5D then return [item]
      else if b == 0x2C then return item :: (← arrayItems n)
      else failure

/-- Reads the entries of a table on one line up to its end. No comma may follow the last one. -/
def inlineEntries : Nat → Reader (List (Key × Expr))
  | 0 => failure
  | n + 1 => do
    let k ← key 0x3D
    let v ← value n
    skipBlanks
    let b ← next
    if b == 0x7D then return [(k, v)]
    else if b == 0x2C then return (k, v) :: (← inlineEntries n)
    else failure

end

/-! Statements. -/

def header : Reader Statement := do
  if (← look) == some 0x5B then
    discard next
    let k ← key 0x5D
    expect 0x5D
    return .element k
  else return .header (← key 0x5D)

def statement : Reader Statement := do
  if (← look) == some 0x5B then
    discard next
    header
  else
    let k ← key 0x3D
    return .entry k (← value (2 * (← get).length + 2))

/-- Skips what may follow a statement on its line: blanks and a comment. -/
def lineEnd : Reader Unit := do
  skipBlanks
  if (← look) == some 0x23 then skipLine
  if !(← look).all isBreak then failure

/-- Reads statements up to the end. The argument bounds their number. -/
def statements : Nat → Reader (List Statement)
  | 0 => failure
  | n + 1 => do
    skipGaps
    if (← get).isEmpty then return []
    else
      let s ← statement
      lineEnd
      return s :: (← statements n)

def dropMark (t : Text) : Text :=
  match t with
  | 0xFF :: 0xFE :: rest => rest
  | 0xFE :: 0xFF :: rest => rest
  | 0xEF :: 0xBB :: 0xBF :: rest => rest
  | _ => t

/-- The statements of a settings file; none if the text breaks the format. -/
def readStatements (t : Text) : Option (List Statement) :=
  let t := dropMark t
  if isClean t then ((statements (t.length + 1)).run t).map (·.1) else none

end TreeCheck.Toml
