import TreeCheck.Yaml.Cursor

/-!
Passing over comments. Comments that follow each other with only blanks and line breaks between them
are passed over together and kept apart as comments only where the layout says so: a comment that
belongs to what stands before it ends at an empty line or where the next one is indented otherwise.
The places of comments matter to the ends of block collections, which stand in front of the comments
that are indented like them.
-/

namespace TreeCheck.Yaml

/-- A comment: where the gap in front of it starts, where it starts, its column counted from 1, and
where it ends. -/
structure Comment where
  gap : Nat
  start : Mark
  stop : Nat

structure Surroundings where
  inFlow : Bool
  indent : Nat
  afterColon : Bool
  /-- The line on which a comment still belongs to the token before it, if there is one. -/
  footLine : Option Nat

/-- The state of looking ahead for further comments: how far, the line and the column there, the
start of the comment under way, and the comments so far, newest first. -/
structure Outlook where
  distance : Nat
  line : Nat
  column : Nat
  firstBreak : Bool
  afterBreak : Bool
  gap : Nat
  current : Option Mark
  found : List Comment

namespace Outlook

def reach : Nat := 512

def close (o : Outlook) (index : Nat) : Outlook :=
  match o.current with
  | none => o
  | some start =>
    { o with gap := index, current := none, found := ⟨o.gap, start, index⟩ :: o.found }

def isDedented (around : Surroundings) (column : Nat) : Bool :=
  column - 1 < around.indent

/-- Whether the comment under way ends at the first empty line behind it. -/
def endsAtBreak (o : Outlook) (around : Surroundings) : Bool :=
  o.firstBreak && o.current.any fun start =>
    (some start.line == around.footLine && !around.afterColon) || isDedented around start.column

def atBreak (o : Outlook) (around : Surroundings) (index : Nat) : Outlook :=
  if !o.afterBreak && o.endsAtBreak around then o.close index else o

def atWord (o : Outlook) (around : Surroundings) (index : Nat) : Outlook :=
  if isDedented around o.column && o.current.any fun start => o.column != start.column then
    o.close index
  else o

def nextLine (o : Outlook) : Outlook :=
  { o with firstBreak := false, afterBreak := true, column := 0, line := o.line + 1 }

end Outlook

namespace Scan

/-- Looks ahead for the next comment; tells whether there is one. A line break of more than one byte
ends the search behind its first byte. -/
def lookAhead (around : Surroundings) : Nat → Outlook → Scan (Bool × Outlook)
  | 0, o => return (false, o)
  | steps + 1, o => do
    need (o.distance + 1)
    let o := { o with column := o.column + 1 }
    let further := fun (o : Outlook) => { o with distance := o.distance + 1 }
    let index := (← mark).index + o.distance
    match ← look o.distance with
    | none => return (false, o.atBreak around index)
    | some c =>
      if isBlank c then lookAhead around steps (further o)
      else if around.inFlow && (c == ']' || c == '\x7d') then return (false, o.close index)
      else if isBreak c then
        let o := further (o.atBreak around index).nextLine
        if c.toNat < 0x80 then lookAhead around steps o
        else if steps = 0 then return (false, o)
        else
          need (o.distance + 1)
          return (false, { o with column := 1 }.atWord around (index + 1))
      else
        let o := o.atWord around index
        return (c == '#', o)

def passComment (index : Nat) : Nat → Scan PUnit
  | 0 => return
  | steps + 1 => do
    need 1
    match ← look 0 with
    | none => return
    | some c =>
      if !isBreak c then
        skip
        passComment index steps
      else if (← mark).index < index then
        need 2
        discard readBreak
        passComment index steps

def commentsFor (around : Surroundings) : Nat → Outlook → Scan (List Comment)
  | 0, o => return o.found
  | steps + 1, o => do
    let (more, o) ← lookAhead around (Outlook.reach - o.distance) o
    let index := (← mark).index + o.distance
    if more then
      passComment index (← fuel)
      commentsFor around steps { o with
        distance := 1, line := (← mark).line, column := 0, afterBreak := false
        current := some (o.current.getD ⟨index, o.line, o.column⟩) }
    else return (o.close (index - 1)).found

/-- Passes over the comments from here on, and puts them in front of the older ones. The gap in
front of the first one starts at the given mark. -/
def comments (inFlow : Bool) (indent : Int) (afterColon : Bool) (gap : Mark)
    (older : List Comment) : Scan (List Comment) := do
  let c ← get
  let footLine :=
    if gap.column = 0 then none
    else if c.breaks = 0 && c.mark.column > 1 then some (c.mark.line + 2)
    else some (c.mark.line + 1 - c.breaks)
  commentsFor ⟨inFlow, indent.toNat, afterColon, footLine⟩ (← fuel)
    { distance := 0, line := c.mark.line, column := c.mark.column, firstBreak := c.breaks ≤ 1
      afterBreak := false, gap := gap.index, current := none, found := older }

/-- The distance of the first character that is no blank, looked for no further than comments. -/
def blanksAhead : Nat → Nat → Scan Nat
  | 0, distance => return distance
  | steps + 1, distance => do
    need (distance + 1)
    if (← look distance).any isBlank then blanksAhead steps (distance + 1) else return distance

def lineComment : Scan PUnit := do
  if (← get).breaks = 0 then
    let distance ← blanksAhead Outlook.reach 0
    if distance < Outlook.reach && (← look distance) == some '#' then
      passComment ((← mark).index + distance) (← fuel)

end Scan

end TreeCheck.Yaml
