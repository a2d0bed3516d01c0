import TreeCheck.Command.Flag
import TreeCheck.Text.Case

/-!
The commands, their flags, and how the words of a command line select one of them. The command is
the first word that is neither a flag nor the value of one.
-/

namespace TreeCheck.Command

inductive Verb where
  | check
  | symbols
  | version
  | help
  | completion
  deriving DecidableEq

def Verb.all : List Verb :=
  [check, symbols, version, help, completion]

def Verb.name : Verb → String
  | check => "check"
  | symbols => "symbols"
  | version => "version"
  | help => "help"
  | completion => "completion"

def Verb.ofName? (name : Text) : Option Verb :=
  all.find? fun v => text v.name == name

def commonFlags : List Flag :=
  [⟨"color", .word, none⟩, ⟨"log-level", .word, none⟩, ⟨"config", .word, none⟩,
    ⟨"max-diagnostics", .integer, none⟩, ⟨"jobs", .integer, none⟩, ⟨"cpu-profile", .word, none⟩,
    ⟨"mem-profile", .word, none⟩, ⟨"runtime-trace", .word, none⟩]

def helpFlag : Flag :=
  ⟨"help", .switch, some 'h'⟩

def versionFlag : Flag :=
  ⟨"version", .switch, some 'v'⟩

def Verb.ownFlags : Verb → List Flag
  | check =>
    [⟨"format", .word, none⟩, ⟨"snapshot", .word, none⟩, ⟨"warn-shadow", .switch, none⟩,
      ⟨"warn-redefine", .switch, none⟩, ⟨"timings", .switch, none⟩, ⟨"with-notes", .switch, none⟩,
      ⟨"no-source", .switch, none⟩, ⟨"fullpath", .switch, none⟩]
  | symbols => [⟨"scope", .numbers, none⟩]
  | version =>
    [⟨"hash", .switch, none⟩, ⟨"date", .switch, none⟩, ⟨"full", .switch, none⟩,
      ⟨"format", .word, none⟩]
  | help | completion => []

/-- The flags of a command; without a command the version can be asked for. -/
def flagsOf : Option Verb → List Flag
  | some verb => commonFlags ++ verb.ownFlags ++ [helpFlag]
  | none => commonFlags ++ [helpFlag, versionFlag]

/-- Whether the word after this one is its value, as far as the flags of all commands tell. None of
them is a switch, and unknown flags count as flags with a value. -/
def takesNext (word : Text) : Bool :=
  !word.any (· == 0x3D) &&
    (Text.startsWith word (text "--") || (Text.startsWith word (text "-") && word.length == 2))

/-- The words that are neither flags nor values of flags. The last word of all is never looked at
after a flag that takes it. -/
def bareWords : List Text → List Text
  | [] => []
  | word :: rest =>
    if word == text "--" then []
    else if takesNext word then
      match rest with
      | _ :: next :: rest => bareWords (next :: rest)
      | _ => []
    else if word.isEmpty || word.head? == some 0x2D then bareWords rest
    else word :: bareWords rest

def withoutCommand (name : Text) : List Text → List Text
  | [] => []
  | word :: rest =>
    if word == text "--" then word :: rest
    else if takesNext word then
      match rest with
      | value :: rest => word :: value :: withoutCommand name rest
      | [] => [word]
    else if word == name then rest
    else word :: withoutCommand name rest

/-- One row of the table of distances: the distances of a text from all initial parts of another,
shortest first, from the row for the text without its last byte. -/
def nextRow (b : UInt8) (above : Nat) (left : Nat) : Text → List Nat → List Nat
  | c :: other, up :: row =>
    let here := if b == c then above else min (min up left) above + 1
    here :: nextRow b up here other row
  | _, _ => []

def distance (s t : Text) : Nat :=
  let start := List.range (t.length + 1)
  let last := s.foldl (fun row b =>
    let first := row.headD 0
    (first + 1) :: nextRow b first (first + 1) t row.tail) start
  last.getLast?.getD 0

def similarTo (name : Text) : List Text :=
  let name := Text.lower name
  ((Verb.all.filter (· ≠ .help)).map fun v => text v.name).filter fun other =>
    distance name other ≤ 2 || Text.startsWith other name

def select (words : List Text) : Except Misuse (Option Verb × List Text) :=
  match bareWords words with
  | [] => .ok (none, words)
  | name :: _ =>
    match Verb.ofName? name with
    | some verb => .ok (some verb, withoutCommand name words)
    | none => .error (.unknownCommand name (similarTo name))

def Verb.checkCount (count : Nat) : Verb → Except Misuse Unit
  | check => if count < 1 then .error (.tooFew 1 count) else .ok ()
  | symbols => if count = 1 then .ok () else .error (.wrongCount 1 count)
  | _ => .ok ()

end TreeCheck.Command
