import TreeCheck.Numeral
import TreeCheck.Text.Quoted

/-!
Flags on the command line. A flag is a word of two hyphens and its name, with its value after an
equals sign or in the next word; a switch needs no value. Short forms of switches stand after one
hyphen, several of them together. All other words are arguments, and so is every word after two
hyphens alone.
-/

namespace TreeCheck.Command

inductive Kind where
  | word
  | integer
  | switch
  /-- Numbers between commas; every use adds some. -/
  | numbers
  deriving DecidableEq

structure Flag where
  name : String
  kind : Kind
  short : Option Char := none

inductive Value where
  | word (t : Text)
  | integer (n : Int)
  | switch (b : Bool)
  | numbers (ns : List Nat)

/-- A value that could not be read: by which reader, and why. -/
structure BadValue where
  reader : String
  word : Text
  reason : Numeral.Refusal

def BadValue.message (b : BadValue) : Text :=
  text "strconv." ++ text b.reader ++ text ": parsing " ++ Text.quoted b.word ++ text ": " ++
    match b.reason with
    | .malformed => text "invalid syntax"
    | .outOfRange => text "value out of range"

inductive Misuse where
  | badFlag (word : Text)
  | unknownFlag (name : Text)
  | unknownShort (first : UInt8) (shorts : Text)
  | noValue (flag : Flag)
  | badValue (value : Text) (flag : Flag) (cause : BadValue)
  | unknownCommand (name : Text) (similar : List Text)
  | tooFew (least got : Nat)
  | wrongCount (want got : Nat)

def Flag.toText (f : Flag) : Text :=
  match f.short with
  | some c => text "-" ++ Text.ofChar c ++ text ", --" ++ text f.name
  | none => text "--" ++ text f.name

/-- The character shown for the first byte of short forms: the byte itself in ASCII, and else the
first byte of the character with its number. -/
def shownShort (b : UInt8) : Char :=
  Char.ofNat (((Text.ofChar (Char.ofNat b.toNat)).head?.getD 0).toNat)

def programName : Text := text "lumen"

def Misuse.message : Misuse → Text
  | .badFlag word => text "bad flag syntax: " ++ word
  | .unknownFlag name => text "unknown flag: --" ++ name
  | .unknownShort first shorts =>
    text "unknown shorthand flag: " ++ Text.quotedChar (shownShort first) ++ text " in -" ++ shorts
  | .noValue flag => text "flag needs an argument: --" ++ text flag.name
  | .badValue value flag cause =>
    text "invalid argument " ++ Text.quoted value ++ text " for " ++ Text.quoted flag.toText ++
      text " flag: " ++ cause.message
  | .unknownCommand name similar =>
    text "unknown command " ++ Text.quoted name ++ text " for " ++ Text.quoted programName ++
      (if similar.isEmpty then []
      else text "\n\nDid you mean this?\n" ++
        similar.flatMap fun s => text "\t" ++ s ++ text "\n")
  | .tooFew least got =>
    text "requires at least " ++ Text.ofNat least ++ text " arg(s), only received " ++
      Text.ofNat got
  | .wrongCount want got =>
    text "accepts " ++ Text.ofNat want ++ text " arg(s), received " ++ Text.ofNat got

def yesWords : List Text :=
  ["1", "t", "T", "TRUE", "true", "True"].map text

def noWords : List Text :=
  ["0", "f", "F", "FALSE", "false", "False"].map text

def Kind.read (t : Text) : Kind → Except BadValue Value
  | .word => .ok (.word t)
  | .integer =>
    match Numeral.integer t with
    | .ok n => .ok (.integer n)
    | .error reason => .error ⟨"ParseInt", t, reason⟩
  | .switch =>
    if yesWords.contains t then .ok (.switch true)
    else if noWords.contains t then .ok (.switch false)
    else .error ⟨"ParseBool", t, .malformed⟩
  | .numbers => do
    let ns ← (Text.splitOn 0x2C t).mapM fun part =>
      match Numeral.naturalIn 10 (Nat.pow 2 64 - 1) part with
      | .ok n => .ok n
      | .error reason => .error ⟨"ParseUint", part, reason⟩
    return .numbers ns

/-- The words of a command line, told apart: the flags with their values, and the arguments. -/
structure Words where
  given : List (String × Value) := []
  arguments : List Text := []

namespace Words

def give (w : Words) (f : Flag) (t : Text) : Except Misuse Words :=
  match f.kind.read t with
  | .ok v => .ok { w with given := w.given ++ [(f.name, v)] }
  | .error cause => .error (.badValue t f cause)

/-- Reads short forms. Those that start like the flags of a test runner are passed over. -/
def readShorts (flags : List Flag) (w : Words) : Text → Except Misuse Words
  | [] => .ok w
  | b :: rest =>
    if Text.startsWith (b :: rest) (text "test.") then .ok w
    else
      match flags.find? fun f => f.short == some (Text.ascii b) with
      | none => .error (.unknownShort b (b :: rest))
      | some f =>
        if rest.head? == some 0x3D && rest.length > 1 then w.give f rest.tail
        else do
          let w ← w.give f (text "true")
          readShorts flags w rest

def read (flags : List Flag) (w : Words) : List Text → Except Misuse Words
  | [] => .ok w
  | word :: rest =>
    match word with
    | 0x2D :: 0x2D :: name =>
      if name.isEmpty then .ok { w with arguments := w.arguments ++ rest }
      else if name.head? == some 0x2D || name.head? == some 0x3D then .error (.badFlag word)
      else
        let (name, value) :=
          match Text.cut? 0x3D name with
          | some (name, value) => (name, some value)
          | none => (name, none)
        match flags.find? fun f => text f.name == name, value with
        | none, _ => .error (.unknownFlag name)
        | some f, some value => do read flags (← w.give f value) rest
        | some f, none =>
          if f.kind = .switch then do read flags (← w.give f (text "true")) rest
          else
            match rest with
            | [] => .error (.noValue f)
            | value :: rest => do read flags (← w.give f value) rest
    | 0x2D :: b :: shorts => do read flags (← readShorts flags w (b :: shorts)) rest
    | _ => read flags { w with arguments := w.arguments ++ [word] } rest

def find? (w : Words) (name : String) : Option Value :=
  (w.given.reverse.find? (·.1 == name)).map (·.2)

def word? (w : Words) (name : String) : Option Text :=
  match w.find? name with
  | some (.word t) => some t
  | _ => none

def integer? (w : Words) (name : String) : Option Int :=
  match w.find? name with
  | some (.integer n) => some n
  | _ => none

/-- Whether a switch is on; it may be on by itself. -/
def isOn (w : Words) (name : String) (byItself : Bool) : Bool :=
  match w.find? name with
  | some (.switch b) => b
  | _ => byItself

/-- All numbers that a flag was given; none if it was not used. -/
def numbers? (w : Words) (name : String) : Option (List Nat) :=
  let lists := w.given.filterMap fun
    | (n, .numbers ns) => if n == name then some ns else none
    | _ => none
  if lists.isEmpty then none else some lists.flatten

end Words

end TreeCheck.Command
