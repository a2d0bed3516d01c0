import TreeCheck.Yaml.Token

/-!
Reading a source from left to right. Characters are asked for before they are looked at; what is
not loaded yet is then loaded, block by block. A fault of the source is met only when a spoiled
block would have to be loaded.
-/

namespace TreeCheck.Yaml

structure Cursor where
  rest : List Char
  blocks : List (List Char)
  broken : Bool
  /-- How often more was asked for than the source has. -/
  beyond : Nat
  /-- Whether the last loading happened in front of a byte order mark. -/
  atOrderMark : Bool
  mark : Mark
  breaks : Nat
  left : Nat

namespace Cursor

def start (s : Source) : Cursor :=
  ⟨[], s.blocks, s.broken, 0, false, ⟨0, 0, 0⟩, 0, s.blocks.flatten.length⟩

def hasItems (count : Nat) (items : List Char) : Bool :=
  count ≤ (items.take count).length

/-- Whether so many characters were asked for before, and are loaded as far as there are any. -/
def has (c : Cursor) (count : Nat) : Bool :=
  hasItems count c.rest || (c.beyond != 0 && count ≤ c.rest.length + c.beyond)

/-- The characters with so many blocks behind them that there are `count`, and the other blocks. -/
def fill (count : Nat) (rest : List Char) : List (List Char) → List Char × List (List Char)
  | [] => (rest, [])
  | block :: more =>
    if hasItems count rest then (rest, block :: more) else fill count (rest ++ block) more

def orderMark : Char :=
  Char.ofNat 0xFEFF

/-- The cursor with at least so many characters loaded, or all there are; none if a spoiled block
stands in the way. -/
def load? (c : Cursor) (count : Nat) : Option Cursor :=
  if c.has count then some c
  else
    let (rest, blocks) := fill count c.rest c.blocks
    let loaded := { c with rest, blocks, atOrderMark := rest.head? == some orderMark }
    if hasItems count rest then some loaded
    else if c.broken then none
    else some { loaded with beyond := c.beyond + 1 }

def step (c : Cursor) : Cursor :=
  let breaks := if c.rest.head?.any isBlank then c.breaks else 0
  { c with
    rest := c.rest.tail, breaks, left := c.left - 1
    beyond := if c.rest.isEmpty then c.beyond - 1 else c.beyond
    mark := ⟨c.mark.index + 1, c.mark.line, c.mark.column + 1⟩ }

def stepLine (c : Cursor) (size : Nat) : Cursor :=
  { c with
    rest := c.rest.drop size, breaks := c.breaks + 1, left := c.left - size
    mark := ⟨c.mark.index + size, c.mark.line + 1, 0⟩ }

end Cursor

abbrev Scan := StateT Cursor (Except Fault)

namespace Scan

def fail {α : Type} (p : Problem) : Scan α := do
  throw ⟨(← get).mark.line, p⟩

def need (count : Nat) : Scan PUnit := do
  match (← get).load? count with
  | some c => set c
  | none => fail .unreadable

/-- The character at a distance; none behind the end. -/
def look (distance : Nat) : Scan (Option Char) :=
  return (← get).rest[distance]?

def mark : Scan Mark :=
  return (← get).mark

def fuel : Scan Nat :=
  return (← get).left + 1

def skip : Scan PUnit :=
  modify Cursor.step

def skipMany : Nat → Scan PUnit
  | 0 => return
  | count + 1 => do
    skip
    skipMany count

/-- The break that a line break stands for; only the two separators are kept as they are. -/
def breakChar (c : Char) : Char :=
  if c.toNat == 0x2028 || c.toNat == 0x2029 then c else '\n'

def readBreak : Scan (Option Char) := do
  match (← get).rest with
  | [] => return none
  | c :: rest =>
    if !isBreak c then return none
    modify fun cursor => cursor.stepLine (if c == '\r' && rest.head? == some '\n' then 2 else 1)
    return some (breakChar c)

def skipWhileFor (kind : Char → Bool) : Nat → Scan PUnit
  | 0 => return
  | steps + 1 => do
    need 1
    if (← look 0).any kind then
      skip
      skipWhileFor kind steps

def skipWhile (kind : Char → Bool) : Scan PUnit := do
  skipWhileFor kind (← fuel)

/-- Reads characters of a kind, asking for one at a time. The characters before them are given
newest first. -/
def takeWhileFor (kind : Char → Bool) : Nat → List Char → Scan (List Char)
  | 0, taken => return taken.reverse
  | steps + 1, taken => do
    need 1
    match ← look 0 with
    | some c =>
      if kind c then
        skip
        takeWhileFor kind steps (c :: taken)
      else return taken.reverse
    | none => return taken.reverse

def takeWhile (kind : Char → Bool) : Scan (List Char) := do
  takeWhileFor kind (← fuel) []

/-- Whether a word ends before this character: a blank, a line break or the end. -/
def endsWord : Option Char → Bool
  | none => true
  | some c => isGap c

def atDocumentMark (c : Char) : Scan Bool := do
  let cursor ← get
  return cursor.mark.column == 0 && cursor.rest.take 3 == [c, c, c] &&
    endsWord cursor.rest[3]?

def atDocumentEdge : Scan Bool :=
  return (← atDocumentMark '-') || (← atDocumentMark '.')

end Scan

end TreeCheck.Yaml
