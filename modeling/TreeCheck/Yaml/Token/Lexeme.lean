import TreeCheck.Yaml.Cursor

/-!
Reading single lexemes: words, quoted and block scalars, anchors, tags and directives. Each reader
starts at the first character of the lexeme and ends behind its last one.
-/

namespace TreeCheck.Yaml

namespace Scan

def isNameChar (c : Char) : Bool :=
  c.isAlphanum || c == '_' || c == '-'

/-! Gaps between words. -/

/-- What stands between two words of a scalar: blanks on one line, or line breaks. A gap behind an
escaped line break is joined. The breaks are kept newest first, and so are the blanks. -/
structure Gap where
  joined : Bool := false
  blanks : List Char := []
  breaks : List Char := []

def Gap.broke (g : Gap) : Bool :=
  g.joined || !g.breaks.isEmpty

/-- A single line feed becomes a space, further breaks are kept, and blanks beside a break go. An
escaped line break leaves nothing. -/
def Gap.folded (g : Gap) : List Char :=
  if g.joined then g.breaks.reverse
  else
    match g.breaks.reverse with
    | [] => g.blanks.reverse
    | first :: more =>
      if first == '\n' then (if more.isEmpty then [' '] else more) else first :: more

/-- Reads the gap from here on. Behind a line break a tab may not stand left of the indentation. -/
def gapFor (indent : Int) : Nat → Gap → Scan Gap
  | 0, gap => return gap
  | steps + 1, gap => do
    need 1
    match ← look 0 with
    | none => return gap
    | some c =>
      if isBlank c then
        if gap.broke && (← mark).column < indent && c == '\t' then fail .misplacedTab
        skip
        gapFor indent steps (if gap.broke then gap else { gap with blanks := c :: gap.blanks })
      else if isBreak c then
        need 2
        let b ← readBreak
        gapFor indent steps { gap with breaks := b.toList ++ gap.breaks }
      else return gap

def readGap (indent : Int) (joined : Bool) : Scan Gap := do
  gapFor indent (← fuel) { joined }

/-! Plain scalars. -/

def isFlowIndicator (c : Char) : Bool :=
  c == ',' || c == '?' || c == '[' || c == ']' || c == '\x7b' || c == '\x7d'

/-- Reads the word that stands first. The characters before are given newest first, and so is the
word. -/
def plainWordFor (inFlow : Bool) : Nat → List Char → Scan (List Char)
  | 0, word => return word
  | steps + 1, word => do
    match ← look 0 with
    | none => return word
    | some c =>
      if isGap c || (c == ':' && endsWord (← look 1)) || (inFlow && isFlowIndicator c) then
        return word
      skip
      need 2
      plainWordFor inFlow steps (c :: word)

/-- What a plain scalar consists of: its text, and whether a line ended after it. -/
structure Plain where
  chars : List Char
  broke : Bool

/-- Reads the words of a plain scalar from here on, given the gap before and the text before that,
newest first. A word below the indentation, a comment or a document mark ends the scalar. -/
def plainFor (inFlow : Bool) (indent : Int) : Nat → Gap → List Char → Scan Plain
  | 0, gap, before => return ⟨before.reverse, gap.broke⟩
  | steps + 1, gap, before => do
    need 4
    if (← atDocumentEdge) || (← look 0) == some '#' then return ⟨before.reverse, gap.broke⟩
    let word ← plainWordFor inFlow (← fuel) []
    if word.isEmpty then return ⟨before.reverse, gap.broke⟩
    let before := word ++ gap.folded.reverse ++ before
    if !(← look 0).any isGap then return ⟨before.reverse, false⟩
    let gap ← readGap indent false
    if !inFlow && (← mark).column < indent then return ⟨before.reverse, gap.broke⟩
    plainFor inFlow indent steps gap before

def plainScalar (inFlow : Bool) (indent : Int) : Scan Plain := do
  plainFor inFlow indent (← fuel) {} []

/-! Quoted scalars. -/

def escaped? (c : Char) : Option Char :=
  match c with
  | '0' => some (Char.ofNat 0)
  | 'a' => some (Char.ofNat 0x07)
  | 'b' => some (Char.ofNat 0x08)
  | 't' | '\t' => some '\t'
  | 'n' => some '\n'
  | 'v' => some (Char.ofNat 0x0B)
  | 'f' => some (Char.ofNat 0x0C)
  | 'r' => some '\r'
  | 'e' => some (Char.ofNat 0x1B)
  | ' ' => some ' '
  | '"' => some '"'
  | '\'' => some '\''
  | '\\' => some '\\'
  | 'N' => some (Char.ofNat 0x85)
  | '_' => some (Char.ofNat 0xA0)
  | 'L' => some (Char.ofNat 0x2028)
  | 'P' => some (Char.ofNat 0x2029)
  | _ => none

def codeLength? (c : Char) : Option Nat :=
  match c with
  | 'x' => some 2
  | 'u' => some 4
  | 'U' => some 8
  | _ => none

def hexDigit? (c : Char) : Option Nat :=
  if c.toNat < 0x80 then Text.hexValue? c.toNat.toUInt8 else none

/-- The number written by exactly `count` hexadecimal digits. -/
def hexNumber? (value : Nat) : Nat → List Char → Option Nat
  | 0, _ => some value
  | _ + 1, [] => none
  | count + 1, c :: rest => do
    let digit ← hexDigit? c
    hexNumber? (16 * value + digit) count rest

def charOf? (code : Nat) : Option Char :=
  if h : code.isValidChar then some (Char.ofNatAux code h) else none

/-- Reads an escape from its backslash; an escaped line break stands for no character. -/
def escape : Scan (Option Char) := do
  match ← look 1 with
  | none => fail .badEscape
  | some c =>
    if isBreak c then
      need 3
      skip
      discard readBreak
      return none
    else
      match escaped? c, codeLength? c with
      | some meant, _ =>
        skipMany 2
        return some meant
      | none, none => fail .badEscape
      | none, some count =>
        skipMany 2
        need count
        match (hexNumber? 0 count (← get).rest).bind charOf? with
        | none => fail .badEscape
        | some meant =>
          skipMany count
          return some meant

/-- Reads the word that stands first in a quoted scalar, and tells whether an escaped line break
ended it. The characters before are given newest first, and so is the word. -/
def quotedWordFor (single : Bool) : Nat → List Char → Scan (List Char × Bool)
  | 0, word => return (word, false)
  | steps + 1, word => do
    match ← look 0 with
    | none => return (word, false)
    | some c =>
      if isGap c then return (word, false)
      else if single && c == '\'' then
        if (← look 1) != some '\'' then return (word, false)
        skipMany 2
        need 2
        quotedWordFor single steps ('\'' :: word)
      else if !single && c == '"' then return (word, false)
      else if !single && c == '\\' then
        match ← escape with
        | none => return (word, true)
        | some meant =>
          need 2
          quotedWordFor single steps (meant :: word)
      else
        skip
        need 2
        quotedWordFor single steps (c :: word)

/-- Reads the text of a quoted scalar up to and with its closing quote. The text before is given
newest first. -/
def quotedFor (single : Bool) : Nat → List Char → Scan (List Char)
  | 0, _ => fail .openQuotes
  | steps + 1, before => do
    need 4
    if ← atDocumentEdge then fail .indicatorInQuotes
    if (← look 0).isNone then fail .openQuotes
    let (word, joined) ← quotedWordFor single (← fuel) []
    let before := word ++ before
    need 1
    if (← look 0) == some (if single then '\'' else '"') then
      skip
      return before.reverse
    let gap ← readGap 0 joined
    quotedFor single steps (gap.folded.reverse ++ before)

def quotedScalar (single : Bool) : Scan (List Char) := do
  skip
  quotedFor single (← fuel) []

/-! Block scalars. -/

/-- What happens to the line breaks at the end of a block scalar. -/
inductive Chomp where
  | strip
  | clip
  | keep
  deriving DecidableEq

def chomp? : Scan (Option Chomp) := do
  need 1
  match ← look 0 with
  | some '+' =>
    skip
    return some .keep
  | some '-' =>
    skip
    return some .strip
  | _ => return none

/-- Reads an indentation indicator, if a digit stands here; zero is refused. -/
def increment? : Scan (Option Nat) := do
  need 1
  match ← look 0 with
  | some c =>
    if c == '0' then fail .badBlockHeader
    else if c.isDigit then
      skip
      return some (c.toNat - '0'.toNat)
    else return none
  | none => return none

/-- Reads the two indicators of a block header in either order; 0 stands for no indentation
indicator. -/
def blockHeader : Scan (Chomp × Nat) := do
  match ← chomp? with
  | some chomp => return (chomp, (← increment?).getD 0)
  | none =>
    match ← increment? with
    | none => return (.clip, 0)
    | some n => return ((← chomp?).getD .clip, n)

/-- Passes over the spaces left of an indentation; indentation 0 stands for all spaces. -/
def skipIndentFor (indent : Nat) : Nat → Scan PUnit
  | 0 => return
  | steps + 1 => do
    need 1
    if (indent == 0 || (← mark).column < indent) && (← look 0) == some ' ' then
      skip
      skipIndentFor indent steps

/-- Reads empty lines: their breaks behind those before, newest first, and the widest indentation
seen. -/
def emptyLinesFor (indent : Nat) : Nat → Nat → List Char → Scan (List Char × Nat)
  | 0, widest, breaks => return (breaks, widest)
  | steps + 1, widest, breaks => do
    skipIndentFor indent (← fuel)
    let column := (← mark).column
    if (indent == 0 || column < indent) && (← look 0) == some '\t' then fail .misplacedTab
    if !(← look 0).any isBreak then return (breaks, max widest column)
    need 2
    let b ← readBreak
    emptyLinesFor indent steps (max widest column) (b.toList ++ breaks)

/-- Reads empty lines: their breaks, newest first, and the widest indentation seen. -/
def emptyLines (indent : Nat) : Scan (List Char × Nat) := do
  emptyLinesFor indent (← fuel) 0 []

/-- What a block scalar ends with: the break of its last line and the empty lines after it, newest
first. -/
structure BlockTail where
  last : Option Char
  breaks : List Char

/-- Reads the lines of a block scalar from here on. The text before is given newest first, and so is
the text; the tail is apart. -/
def blockLinesFor (folded : Bool) (indent : Nat) :
    Nat → Bool → BlockTail → List Char → Scan (List Char × BlockTail)
  | 0, _, tail, before => return (before, tail)
  | steps + 1, afterBlank, tail, before => do
    need 1
    let first ← look 0
    if first.isNone || (← mark).column != indent then return (before, tail)
    let blank := first.any isBlank
    let lead :=
      if folded && !afterBlank && !blank && tail.last == some '\n' then
        (if tail.breaks.isEmpty then [' '] else [])
      else tail.last.toList
    let line ← takeWhile fun c => !isBreak c
    need 2
    let last ← readBreak
    let (breaks, _) ← emptyLines indent
    blockLinesFor folded indent steps blank ⟨last, breaks⟩
      (line.reverse ++ tail.breaks ++ lead ++ before)

def finishLine (p : Problem) : Scan PUnit := do
  skipWhile isBlank
  if (← look 0) == some '#' then skipWhile fun c => !isBreak c
  if !(← look 0).all isBreak then fail p
  if (← look 0).isSome then
    need 2
    discard readBreak

/-- Reads a block scalar from its indicator. The indentation is given by the header or by the first
line that is not empty. -/
def blockScalar (folded : Bool) (indent : Int) : Scan (List Char) := do
  skip
  let (chomp, increment) ← blockHeader
  finishLine .badBlockHeader
  let given := if increment == 0 then 0 else (max indent 0).toNat + increment
  let (breaks, widest) ← emptyLines given
  let width := if given == 0 then max widest (max (indent + 1) 1).toNat else given
  let (chars, tail) ← blockLinesFor folded width (← fuel) false ⟨none, breaks⟩ []
  let last := if chomp == .strip then [] else tail.last.toList
  let breaks := if chomp == .keep then tail.breaks else []
  return (breaks ++ last ++ chars).reverse

/-! Anchors, tags and directives. -/

def anchorName : Scan Text := do
  skip
  let name ← takeWhile isNameChar
  let ends :=
    match ← look 0 with
    | none => true
    | some c => isGap c || c == '?' || c == ':' || c == ',' || c == ']' || c == '\x7d' ||
        c == '%' || c == '@' || c == '\x60'
  if name.isEmpty || !ends then fail .badAnchor
  return Text.ofChars name

def isTagChar (c : Char) : Bool :=
  isNameChar c || [';', '/', '?', ':', '@', '&', '=', '+', '$', ',', '.', '!', '~', '*', '\'', '(',
    ')', '[', ']', '%'].contains c

def octet : Scan Nat := do
  need 3
  match (← get).rest with
  | '%' :: digits =>
    match hexNumber? 0 2 digits with
    | some n =>
      skipMany 3
      return n
    | none => fail .badTag
  | _ => fail .badTag

def trailingOctets : Nat → Scan Text
  | 0 => return []
  | count + 1 => do
    let n ← octet
    if n / 0x40 != 2 then fail .badTag
    return n.toUInt8 :: (← trailingOctets count)

/-- Reads the text of a tag, given the text before it, newest byte first. -/
def tagTextFor : Nat → Text → Scan Text
  | 0, before => return before.reverse
  | steps + 1, before => do
    need 1
    match ← look 0 with
    | none => return before.reverse
    | some c =>
      if c == '%' then
        let n ← octet
        if announced n == 0 then fail .badTag
        let more ← trailingOctets (announced n - 1)
        tagTextFor steps (more.reverse ++ n.toUInt8 :: before)
      else if isTagChar c then
        skip
        tagTextFor steps ((Text.ofChar c).reverse ++ before)
      else return before.reverse

def tagText : Scan Text := do
  tagTextFor (← fuel) []

/-- Reads the handle of a tag: an exclamation mark, a name, and a second mark if one follows. -/
def tagHandle : Scan Text := do
  skip
  let name ← takeWhile isNameChar
  let lead := text "!" ++ Text.ofChars name
  if (← look 0) == some '!' then
    skip
    return lead ++ text "!"
  else return lead

def isFullHandle (handle : Text) : Bool :=
  handle.length > 1 && handle.getLast? == some 0x21

/-- Reads the handle and the suffix of a tag. A verbatim tag and the lone mark have an empty
handle. -/
def tagBody : Scan (Text × Text) := do
  need 2
  if (← look 1) == some '<' then
    skipMany 2
    let suffix ← tagText
    if suffix.isEmpty || (← look 0) != some '>' then fail .badTag
    skip
    return ([], suffix)
  else
    let handle ← tagHandle
    let suffix ← tagText
    if isFullHandle handle then
      if suffix.isEmpty then fail .badTag
      return (handle, suffix)
    else
      let suffix := handle.drop 1 ++ suffix
      if suffix.isEmpty then return ([], text "!") else return (text "!", suffix)

def tagParts : Scan (Text × Text) := do
  let parts ← tagBody
  need 1
  if !endsWord (← look 0) then fail .badTag
  return parts

def shortNumber : Scan Nat := do
  let digits ← takeWhile Char.isDigit
  if digits.isEmpty || digits.length > 2 then fail .badDirective
  return digits.foldl (fun n c => 10 * n + (c.toNat - '0'.toNat)) 0

def versionValue : Scan TokenKind := do
  skipWhile isBlank
  let major ← shortNumber
  if (← look 0) != some '.' then fail .badDirective
  skip
  return .version major (← shortNumber)

def tagValue : Scan TokenKind := do
  skipWhile isBlank
  if (← look 0) != some '!' then fail .badDirective
  let handle ← tagHandle
  if !isFullHandle handle && handle.length != 1 then fail .badDirective
  need 1
  if !(← look 0).any isBlank then fail .badDirective
  skipWhile isBlank
  let lead ← tagText
  if lead.isEmpty || !endsWord (← look 0) then fail .badDirective
  return .tagDirective handle lead

def directive : Scan TokenKind := do
  skip
  let name ← takeWhile isNameChar
  if name.isEmpty || !endsWord (← look 0) then fail .badDirective
  let kind ←
    if name == ['Y', 'A', 'M', 'L'] then versionValue
    else if name == ['T', 'A', 'G'] then tagValue
    else fail .badDirective
  finishLine .badDirective
  return kind

end Scan

end TreeCheck.Yaml
