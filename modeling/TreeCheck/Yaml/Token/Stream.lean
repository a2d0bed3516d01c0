import TreeCheck.Yaml.Token.Comment
import TreeCheck.Yaml.Token.Lexeme

/-!
From characters to tokens. Whether a word is a key shows only at the colon behind it, so the
scanner remembers for every level of brackets the token that may still turn out to be a key, and
puts the key token in front of it afterwards. A token is released for reading once two more tokens
follow and it can no longer become a key; a fault of the source takes away only the tokens that
were not released before it was met.

Tokens wait in a row of slots. A slot is free again once its token is released, but the row is
closed up only when it is full; a row full of waiting tokens becomes longer. An absent value behind
a colon between brackets is placed at the token that is found in the slot of the colon.
-/

namespace TreeCheck.Yaml

structure PendingKey where
  number : Nat
  /-- Whether the line can only go on as a key. -/
  required : Bool
  mark : Mark
  /-- Whether the token waits for the decision. -/
  held : Bool

/-- A level of brackets: the number of the last token that could be a key there, and that key if
it is still possible. -/
structure Level where
  number : Nat
  key : Option PendingKey

/-- The state of the scanner. Tokens, levels and indentations are kept newest first. -/
structure Scanner where
  cursor : Cursor
  keyAllowed : Bool := true
  level : Level := ⟨0, none⟩
  outer : List Level := []
  depth : Nat := 0
  indent : Int := -1
  indents : List Int := []
  tokens : List Token := []
  count : Nat := 0
  released : Nat := 0
  slots : Nat := 0
  /-- The number of the token that the first slot is for. -/
  first : Nat := 0
  firstBefore : Nat := 0
  ends : Nat := 0

namespace Scanner

def maxDepth : Nat := 10000

def mark (s : Scanner) : Mark :=
  s.cursor.mark

def inFlow (s : Scanner) : Bool :=
  s.depth != 0

def fault (s : Scanner) (p : Problem) : Fault :=
  ⟨s.mark.line, p⟩

def rowLengths : List Nat :=
  [1, 2, 4, 8, 18, 37, 75, 151, 341, 625, 1024]

def withSlot (s : Scanner) : Scanner :=
  if s.count < s.first + s.slots then s
  else if s.first < s.released then { s with first := s.released }
  else { s with slots := (rowLengths.find? (s.slots < ·)).getD (2 * s.slots) }

def push (s : Scanner) (t : Token) : Scanner :=
  { s.withSlot with tokens := t :: s.tokens, count := s.count + 1 }

/-- Adds a token in front of the token with a number, or after all others if that one was
released. -/
def insert (s : Scanner) (number : Nat) (t : Token) : Scanner :=
  if number < s.released then s.push t
  else
    let newer := s.count - number
    { s.withSlot with
      tokens := s.tokens.take newer ++ t :: s.tokens.drop newer, count := s.count + 1 }

def reading {α : Type} (s : Scanner) (scan : Scan α) : Except Fault (α × Scanner) := do
  let (a, cursor) ← scan.run s.cursor
  return (a, { s with cursor })

def take (s : Scanner) (scan : Scan TokenKind) : Except Fault Scanner := do
  let (kind, t) ← s.reading scan
  return t.push (Token.span kind s.mark t.mark)

def takeMark (s : Scanner) (size : Nat) (kind : TokenKind) : Except Fault Scanner :=
  s.take do
    Scan.skipMany size
    return kind

/-! Comments and blanks. -/

/-- Whether comments stand behind a colon; a comma between brackets is passed over. -/
def afterColon (s : Scanner) : Bool :=
  match s.tokens with
  | t :: older =>
    if t.kind = .flowEntry then older.head?.any (·.kind = .value) else t.kind = .value
  | [] => false

/-- Goes on to the first character of the next token. Tabs count as blanks only where no key may
start; a new line outside brackets may start a key. Where the last loading happened in front of a
byte order mark, the first character of a line is passed over. The result tells whether a key may
start, and the comments on the way, newest first. -/
def toNextFor (s : Scanner) : Nat → Bool → List Comment → Scan (Bool × List Comment)
  | 0, keyAllowed, comments => return (keyAllowed, comments)
  | steps + 1, keyAllowed, comments => do
    Scan.need 1
    let c ← get
    if c.mark.column = 0 && c.atOrderMark then Scan.skip
    Scan.skipWhile fun c => c == ' ' || ((s.inFlow || !keyAllowed) && c == '\t')
    let comments ←
      if (← Scan.look 0) == some '#' then
        Scan.comments s.inFlow s.indent s.afterColon s.mark comments
      else pure comments
    if (← Scan.look 0).any isBreak then
      Scan.need 2
      discard Scan.readBreak
      toNextFor s steps (keyAllowed || !s.inFlow) comments
    else return (keyAllowed, comments)

/-! Keys. -/

/-- Whether the colon of a key would come too late at this position: on another line, or more than
1024 characters on. -/
def PendingKey.isStale (k : PendingKey) (now : Mark) : Bool :=
  k.mark.line < now.line || k.mark.index + 1024 < now.index

/-- Gives up the possible key of this level; a required one is missed. -/
def dropKey (s : Scanner) : Except Fault Scanner :=
  match s.level.key with
  | some k =>
    if k.required then .error (s.fault .missingColon)
    else .ok { s with level := ⟨s.level.number, none⟩ }
  | none => .ok s

def saveKey (s : Scanner) : Except Fault Scanner := do
  if !s.keyAllowed then return s
  let t ← s.dropKey
  let required := !s.inFlow && s.indent == s.mark.column
  return { t with level := ⟨s.count, some ⟨s.count, required, s.mark, true⟩⟩ }

def validKey (s : Scanner) : Except Fault (Option PendingKey) :=
  match s.level.key with
  | none => .ok none
  | some k =>
    if PendingKey.isStale k s.mark then
      if k.required then .error (s.fault .missingColon) else .ok none
    else .ok (some k)

/-! Indentation. -/

/-- Where the end of a block collection stands: in front of the comments with its indentation, as
long as nothing but comments stands between them and `stop`, else where it was found before. -/
def endFrom (indent : Int) : (stop : Int) → (found : Int × Mark) → List Comment → Int × Mark
  | _, found, [] => found
  | stop, found, c :: older =>
    if c.stop < stop then found
    else
      let found : Int × Mark := if c.start.column == indent + 1
        then (c.start.index, c.start) else found
      endFrom indent c.gap found older

/-- Ends the block collections that are indented more than a column. The number beside the mark
says how far back the search for comments goes. -/
def unrollFrom (column : Int) (comments : List Comment) (s : Scanner) (found : Int × Mark) :
    List Int → Scanner
  | [] => s
  | outer :: more =>
    if s.indent > column then
      let found := endFrom s.indent found.1 found comments
      unrollFrom column comments
        { s.push (Token.point .blockEnd found.2) with indent := outer, indents := more } found more
    else s

/-- Ends the block collections that are indented more than a column, at a mark or in front of
comments; brackets ignore indentation. -/
def unroll (s : Scanner) (column : Int) (mark : Mark) (comments : List Comment) : Scanner :=
  if s.inFlow then s else s.unrollFrom column comments (mark.index - 1, mark) s.indents

/-- Starts a block collection at a column, if it is deeper than the one that is open. The start
token goes in front of the numbered token, or after all others. -/
def roll (s : Scanner) (kind : TokenKind) (mark : Mark) (number : Option Nat) :
    Except Fault Scanner :=
  if s.inFlow || s.indent ≥ mark.column then .ok s
  else if s.indents.length ≥ maxDepth then .error (s.fault .tooDeep)
  else
    let t := { s with indent := mark.column, indents := s.indent :: s.indents }
    let token := Token.point kind mark
    .ok (match number with
      | some n => t.insert n token
      | none => t.push token)

/-! The single tokens. -/

def fetchEnd (s : Scanner) (comments : List Comment) : Except Fault Scanner := do
  let m := s.mark
  let m := if m.column == 0 then m else ⟨m.index, m.line + 1, 0⟩
  let s ← ({ s with cursor := { s.cursor with mark := m } }.unroll (-1) m comments).dropKey
  return { s with keyAllowed := false, ends := s.ends + 1 }.push (Token.point .streamEnd m)

def fetchDirective (s : Scanner) (comments : List Comment) : Except Fault Scanner := do
  let s ← (s.unroll (-1) s.mark comments).dropKey
  let s := { s with keyAllowed := false }
  s.take Scan.directive

def fetchDocumentMark (s : Scanner) (comments : List Comment) (kind : TokenKind) :
    Except Fault Scanner := do
  let s ← (s.unroll (-1) s.mark comments).dropKey
  let s := { s with keyAllowed := false }
  s.takeMark 3 kind

def fetchOpening (s : Scanner) (kind : TokenKind) : Except Fault Scanner := do
  let s ← s.saveKey
  if s.depth ≥ maxDepth then throw (s.fault .tooDeep)
  let s := { s with
    keyAllowed := true, depth := s.depth + 1
    level := ⟨s.count, none⟩, outer := s.level :: s.outer }
  s.takeMark 1 kind

def Level.unheld (l : Level) (number : Nat) : Level :=
  { l with key := l.key.map fun k => if k.number == number then { k with held := false } else k }

/-- A closing bracket. A bracket pair in which nothing could be a key does not wait for a colon
behind it. -/
def fetchClosing (s : Scanner) (kind : TokenKind) : Except Fault Scanner := do
  let s ← s.dropKey
  let s := { s with keyAllowed := false }
  match s.outer with
  | [] => s.takeMark 1 kind
  | level :: outer =>
    let s := { s with depth := s.depth - 1, level := Level.unheld level s.level.number, outer }
    s.takeMark 1 kind

def fetchFlowEntry (s : Scanner) : Except Fault Scanner := do
  let s ← s.dropKey
  let s := { s with keyAllowed := true }
  s.takeMark 1 .flowEntry

def fetchBlockEntry (s : Scanner) : Except Fault Scanner := do
  if !s.inFlow && !s.keyAllowed then throw (s.fault .misplacedEntry)
  let s ← (← s.roll .blockSequenceStart s.mark none).dropKey
  let s := { s with keyAllowed := true }
  s.takeMark 1 .blockEntry

def fetchKey (s : Scanner) : Except Fault Scanner := do
  if !s.inFlow && !s.keyAllowed then throw (s.fault .misplacedKey)
  let s ← (← s.roll .blockMappingStart s.mark none).dropKey
  let s := { s with keyAllowed := !s.inFlow }
  s.takeMark 1 .key

/-- A colon. If a key is still possible, it is one, and its token goes in front of it. -/
def fetchValue (s : Scanner) : Except Fault Scanner := do
  match ← s.validKey with
  | some k =>
    let s := s.insert k.number (Token.point .key k.mark)
    let s ← s.roll .blockMappingStart k.mark (some k.number)
    let s := { s with keyAllowed := false, level := ⟨s.level.number, none⟩ }
    s.takeMark 1 .value
  | none =>
    let s := { s with level := ⟨s.level.number, none⟩ }
    if !s.inFlow && !s.keyAllowed then throw (s.fault .misplacedValue)
    let s ← s.roll .blockMappingStart s.mark none
    let s := { s with keyAllowed := !s.inFlow }
    s.takeMark 1 .value

/-- A token that may be a key: saves that, and forbids a key right behind it. -/
def beforeWord (s : Scanner) : Except Fault Scanner := do
  return { ← s.saveKey with keyAllowed := false }

def fetchAnchor (s : Scanner) (kind : Text → TokenKind) : Except Fault Scanner := do
  (← s.beforeWord).take (return kind (← Scan.anchorName))

def fetchTag (s : Scanner) : Except Fault Scanner := do
  (← s.beforeWord).take do
    let (handle, suffix) ← Scan.tagParts
    return .tag handle suffix

def fetchBlockScalar (s : Scanner) (folded : Bool) : Except Fault Scanner := do
  let s ← s.dropKey
  let s := { s with keyAllowed := true }
  s.take do
    let chars ← Scan.blockScalar folded s.indent
    return .scalar (Text.ofChars chars) (if folded then .folded else .literal)

def fetchQuoted (s : Scanner) (single : Bool) : Except Fault Scanner := do
  (← s.beforeWord).take do
    let chars ← Scan.quotedScalar single
    return .scalar (Text.ofChars chars) (if single then .single else .double)

/-- A plain scalar; if a line ended after it, a key may follow. -/
def fetchPlain (s : Scanner) : Except Fault Scanner := do
  let s ← s.beforeWord
  let (plain, t) ← s.reading (Scan.plainScalar s.inFlow (s.indent + 1))
  let t := t.push (Token.span (.scalar (Text.ofChars plain.chars) .plain) s.mark t.mark)
  return { t with keyAllowed := plain.broke }

def isIndicator (c : Char) : Bool :=
  ['-', '?', ':', ',', '[', ']', '\x7b', '\x7d', '#', '&', '*', '!', '|', '>', '\'', '"', '%', '@',
    '\x60'].contains c

def startsPlain (inFlow : Bool) (c : Char) (following : Option Char) : Bool :=
  !(isGap c || isIndicator c) || (c == '-' && !following.any isBlank) ||
    (!inFlow && (c == '?' || c == ':') && !Scan.endsWord following)

def fetchAt (s : Scanner) (c : Char) (following : Option Char) : Except Fault Scanner :=
  let spaced := s.inFlow || Scan.endsWord following
  match c with
  | '[' => s.fetchOpening .flowSequenceStart
  | '\x7b' => s.fetchOpening .flowMappingStart
  | ']' => s.fetchClosing .flowSequenceEnd
  | '\x7d' => s.fetchClosing .flowMappingEnd
  | ',' => s.fetchFlowEntry
  | '*' => s.fetchAnchor .alias
  | '&' => s.fetchAnchor .anchor
  | '!' => s.fetchTag
  | '\'' => s.fetchQuoted true
  | '"' => s.fetchQuoted false
  | _ =>
    if c == '-' && Scan.endsWord following then s.fetchBlockEntry
    else if c == '?' && spaced then s.fetchKey
    else if c == ':' && spaced then s.fetchValue
    else if c == '|' && !s.inFlow then s.fetchBlockScalar false
    else if c == '>' && !s.inFlow then s.fetchBlockScalar true
    else if startsPlain s.inFlow c following then s.fetchPlain
    else .error (s.fault .strangeCharacter)

/-- Passes over a comment behind the last token on its line. A dash leaves the comment to the item
behind it. -/
def passLineComment (s : Scanner) : Except Fault Scanner :=
  if s.tokens.head?.any (·.kind = .blockEntry) then .ok s
  else (s.reading Scan.lineComment).map Prod.snd

def fetchNext (s : Scanner) : Except Fault Scanner := do
  let ((keyAllowed, comments), t) ← s.reading do
    s.toNextFor (← Scan.fuel) s.keyAllowed []
  let t := { t with keyAllowed }.unroll t.mark.column s.mark comments
  let (_, t) ← t.reading (Scan.need 4)
  let (edge, _) ← t.reading (return (← Scan.atDocumentMark '-', ← Scan.atDocumentMark '.'))
  match t.cursor.rest with
  | [] => t.fetchEnd comments
  | c :: following =>
    if t.mark.column == 0 && c == '%' then t.fetchDirective comments
    else if edge.1 then t.fetchDocumentMark comments .documentStart
    else if edge.2 then t.fetchDocumentMark comments .documentEnd
    else (← t.fetchAt c following.head?).passLineComment

/-- The next token; the start of the source is the first one. -/
def fetch (s : Scanner) : Except Fault Scanner := do
  let (_, s) ← s.reading (Scan.need 1)
  if s.count == 0 then return s.push (Token.point .streamStart s.mark) else s.fetchNext

def holder (s : Scanner) : Option PendingKey :=
  (s.level :: s.outer).findSome? fun l =>
    l.key.filter fun k => k.held && k.number == s.released

def token? (s : Scanner) (number : Nat) : Option Token :=
  if number < s.count then s.tokens[s.count - 1 - number]? else none

/-- Releases the next token. If the row was closed up for it, another token may have come into the
slot of the token before it. -/
def releaseNext (s : Scanner) : Scanner :=
  let t := { s with released := s.released + 1, firstBefore := s.first }
  if s.first = s.firstBefore then t
  else
    match s.token? (s.first + (s.released - 1 - s.firstBefore)) with
    | none => t
    | some found =>
      let place := fun (token : Token) => { token with valueAt := found.start }
      { t with tokens := s.tokens.modify (s.count - s.released) place }

/-- Releases the tokens that can be read now; a required key that is too late is a fault. -/
def release : Nat → Scanner → Scanner × Option Fault
  | 0, s => (s, none)
  | fuel + 1, s =>
    if s.count < s.released + 3 then (s, none)
    else
      match s.holder with
      | none => release fuel s.releaseNext
      | some k =>
        if !PendingKey.isStale k s.mark then (s, none)
        else if k.required then (s, some (s.fault .missingColon))
        else
          let forget := fun (l : Level) =>
            { l with key := l.key.filter fun j => j.number != k.number }
          release fuel
            { s.releaseNext with level := forget s.level, outer := s.outer.map forget }

def taken (s : Scanner) : List Token :=
  (s.tokens.drop (s.count - s.released)).reverse

/-- Fetches and releases tokens until the end of the source or a fault. -/
def run : Nat → Scanner → List Token × Fault
  | 0, s => (s.taken, s.fault .unexpectedToken)
  | fuel + 1, s =>
    match s.fetch with
    | .error f => (s.taken, f)
    | .ok t =>
      match release (t.count - t.released) t with
      | (t, some f) => (t.taken, f)
      | (t, none) => if t.ends ≥ 3 then (t.taken, t.fault .unexpectedToken) else run fuel t

end Scanner

/-- The tokens of a source: those that can be read, and the fault that is met behind them. -/
structure TokenStream where
  tokens : List Token
  fault : Fault

def TokenStream.ofSource (s : Source) : TokenStream :=
  let cursor := Cursor.start s
  let (tokens, fault) := Scanner.run (cursor.left + 5) { cursor }
  ⟨tokens, fault⟩

end TreeCheck.Yaml
