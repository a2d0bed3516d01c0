import TreeCheck.Build
import TreeCheck.Command.Line
import TreeCheck.Render.Pretty
import TreeCheck.Render.Report
import TreeCheck.Render.Table
import TreeCheck.Settings
import TreeCheck.Snapshot

/-!
The program as a function: from the words of the command line and the files to what is printed, how
the files have changed, and why the run failed if it did. The documents of a run are checked one
after the other, which is one of the schedules that the number of jobs allows.
-/

namespace TreeCheck.Command

inductive Failure where
  | reported
  | misuse (m : Misuse)
  | noSettings (f : Settings.Failure)
  | unknownColor (value : Text)
  | unknownLevel (value : Text) (reason : Log.Level.Refusal)
  | noProfile (what : String) (error : FileError)
  | noMemoryProfile (error : FileError)
  | unknownFormat (value : Text)
  | unsupportedFormat (value : Text)
  | noInput (error : FileError)
  | noDocuments (arguments : List Text)
  | unchecked (f : Session.Failure)
  | noTables (path : Text)
  | noSnapshot (path : Text) (error : FileError)

def Failure.message : Failure → Text
  | .reported => text "errors reported"
  | .misuse m => m.message
  | .noSettings f => f.message
  | .unknownColor value =>
    text "invalid --color value " ++ Text.quoted value ++ text " (expected auto|on|off)"
  | .unknownLevel value reason =>
    text "invalid --log-level value " ++ Text.quoted value ++ text ": " ++ reason.message
  | .noProfile what e => text "failed to start " ++ text what ++ text ": " ++ e.message
  | .noMemoryProfile e => e.message
  | .unknownFormat value =>
    text "unknown format " ++ Text.quoted value ++ text " (must be pretty or json)"
  | .unsupportedFormat value =>
    text "unsupported format " ++ Text.quoted value ++ text " (must be pretty or json)"
  | .noInput e => text "driver: " ++ e.message
  | .noDocuments arguments =>
    text "no .yaml documents found in " ++ Text.join (text ", ") arguments
  | .unchecked f => f.message
  | .noTables path => path ++ text ": no symbol tables, the document is malformed"
  | .noSnapshot path e => text "snapshot " ++ path ++ text ": " ++ e.message

structure Console where
  disk : Disk
  output : Text := []
  errors : Text := []
  /-- Where a profile is to be written at the end; empty for none. -/
  memoryProfile : Text := []

abbrev Run (α : Type) := EStateM Failure Console α

def print (t : Text) : Run Unit :=
  modify fun c => { c with output := c.output ++ t }

def printError (t : Text) : Run Unit :=
  modify fun c => { c with errors := c.errors ++ t }

def orFail {ε α : Type} (cause : ε → Failure) : Except ε α → Run α
  | .ok a => return a
  | .error e => throw (cause e)

/-- The settings of a run: those of the settings file, and over them those of the flags. -/
def settingsOf (w : Words) (disk : Disk) : Except Settings.Failure Settings := do
  let path := (w.word? "config").getD []
  let s ← if path.isEmpty then Settings.discover disk [] else Settings.load disk path
  return { s with
    color := (w.word? "color").getD s.color
    level := (w.word? "log-level").getD s.level
    limit := (w.integer? "max-diagnostics").getD s.limit
    jobs := (w.integer? "jobs").getD s.jobs }

/-- Whether the output is coloured. It goes to no terminal, so by itself it is not. -/
def wantsColors (value : Text) : Except Failure Bool :=
  let word := Text.lower value
  if word == text "on" then .ok true
  else if word == text "off" || word == text "auto" || word.isEmpty then .ok false
  else .error (.unknownColor value)

def startProfile (what : String) (path : Text) : Run Unit := do
  if !path.isEmpty then
    let disk ← orFail (.noProfile what) ((← get).disk.write path [])
    modify fun c => { c with disk }

/-- What a command needs to know: its words, the settings, and whether output is coloured. -/
structure Setup where
  words : Words
  settings : Settings
  colors : Bool

def prepare (w : Words) : Run Setup := do
  let settings ← orFail .noSettings (settingsOf w (← get).disk)
  let colors ← orFail id (wantsColors settings.color)
  discard (orFail (.unknownLevel settings.level) (Log.Level.ofText settings.level))
  startProfile "cpu profile" ((w.word? "cpu-profile").getD [])
  startProfile "trace" ((w.word? "runtime-trace").getD [])
  modify fun c => { c with memoryProfile := (w.word? "mem-profile").getD [] }
  return ⟨w, settings, colors⟩

def Setup.options (s : Setup) : Session.Options :=
  { limit := s.settings.limit
    warnings := ⟨s.settings.shadowing || s.words.isOn "warn-shadow" false,
      s.settings.redefinition || s.words.isOn "warn-redefine" false⟩
    timings := s.words.isOn "timings" false }

def failOnErrors (bags : List Bag) : Run Unit := do
  if bags.any Bag.hasErrors then throw .reported

def writeSnapshots (dir : Text) (shared : Session.Shared) (results : List Session.Result) :
    Run Unit :=
  results.forM fun r => do
    match Snapshot.ofResult? r shared with
    | none => return
    | some s =>
      let path := Path.join dir (Snapshot.fileName r.path)
      let disk ← orFail (.noSnapshot r.path) (s.writeTo (← get).disk path)
      modify fun c => { c with disk }

/-- The listing of a bag; nothing for an empty one. -/
def listing (o : Render.PrettyOptions) (files : Render.Files) (b : Bag) : Text :=
  if b.items.isEmpty then [] else Render.pretty o files b

/-- The report of all results, by path. Of the results of one path the last one is shown. -/
def combinedReport (o : Render.ReportOptions) (files : Render.Files)
    (results : List Session.Result) : JsonValue :=
  let paths := Session.compact (Text.sort (results.map (·.path)))
  .object (paths.filterMap fun path =>
    (results.reverse.find? (·.path == path)).map fun r =>
      (path, Render.report o files (some r.bag)))

def runCheck (s : Setup) : Run Unit := do
  let w := s.words
  let chosen := Text.lower ((w.word? "format").getD [])
  let format := if chosen.isEmpty then s.settings.format else chosen
  if !Settings.formats.contains format then throw (.unknownFormat format)
  let disk := (← get).disk
  let paths ← orFail .noInput (Session.listInputs disk w.arguments)
  if paths.isEmpty then throw (.noDocuments w.arguments)
  let (results, shared) ← orFail .unchecked (Session.checkFiles s.options disk .fresh paths)
  let mode := if w.isOn "fullpath" false then Render.PathMode.absolute else .given
  let notes := w.isOn "with-notes" true
  let files : Render.Files := ⟨some shared.files, disk.cwdPath⟩
  if format == text "pretty" then
    let source := s.settings.source && !w.isOn "no-source" false
    results.forM fun r => print (listing ⟨s.colors, mode, notes, source⟩ files r.bag)
  else print (combinedReport ⟨mode, 0, notes⟩ files results).lines
  let dir := (w.word? "snapshot").getD []
  if !dir.isEmpty then writeSnapshots dir shared results
  failOnErrors (results.map (·.bag))

def runSymbols (s : Setup) : Run Unit := do
  let disk := (← get).disk
  let path := s.words.arguments.headD []
  let (r, shared) ← orFail .unchecked (Session.checkFile s.options disk .fresh path)
  printError (listing ⟨false, .given, true, false⟩ ⟨some shared.files, disk.cwdPath⟩ r.bag)
  match r.context with
  | none => throw (.noTables path)
  | some ctx =>
    let scopes := (s.words.numbers? "scope").map fun ns => ns.map (· % Nat.pow 2 32)
    print (Render.table ⟨s.colors, scopes⟩ shared.names ctx.tables)
    failOnErrors [r.bag]

def orUnknown (t : Text) : Text :=
  if t.isEmpty then text "unknown" else t

def runVersion (s : Setup) (b : Build) : Run Unit := do
  let w := s.words
  let given := (w.word? "format").getD (text "pretty")
  let format := Text.lower given
  let full := w.isOn "full" false
  let commit := if full || w.isOn "hash" false then [orUnknown b.commit] else []
  let date := if full || w.isOn "date" false then [orUnknown b.date] else []
  if format == text "pretty" then
    print (programName ++ text " " ++ Build.banner b.version s.colors ++ text "\n" ++
      commit.flatMap (fun t => text "commit: " ++ t ++ text "\n") ++
      date.flatMap fun t => text "built:  " ++ t ++ text "\n")
  else if format == text "json" then
    print (JsonValue.object ([(text "tool", .string programName),
        (text "version", .string b.version)] ++
      commit.map (fun t => (text "git_commit", .string t)) ++
      date.map fun t => (text "build_date", .string t))).lines
  else throw (.unsupportedFormat given)

def usage : Text :=
  text "Lumen resolves names, scopes and types over syntax tree documents " ++
    text "and reports diagnostics\n\nUsage:\n" ++ ((Verb.all.filter (· ≠ .help)).flatMap fun v =>
      text "  " ++ programName ++ text " " ++ text v.name ++ text " [flags]\n")

def start (b : Build) (words : List Text) : Run Unit := do
  let (verb, words) ← orFail .misuse (select words)
  let w ← orFail .misuse (Words.read (flagsOf verb) {} words)
  if w.isOn "help" false then print usage
  else
    match verb with
    | none =>
      if w.isOn "version" false then
        print (programName ++ text " version " ++ b.version ++ text "\n")
      else print usage
    | some .help | some .completion => print usage
    | some verb =>
      orFail .misuse (verb.checkCount w.arguments.length)
      let s ← prepare w
      match verb with
      | .check => runCheck s
      | .symbols => runSymbols s
      | _ => runVersion s b

def finish : Run Unit := do
  let c ← get
  if !c.memoryProfile.isEmpty then
    set { c with disk := ← orFail .noMemoryProfile (c.disk.write c.memoryProfile []) }

structure Outcome where
  disk : Disk
  output : Text
  errors : Text
  failure : Option Failure

/-- Runs the program on some words and files, to its end. The first failure counts. -/
def run (b : Build) (disk : Disk) (words : List Text) : Outcome :=
  let (failure, console) := match (start b.trimmed words).run { disk } with
    | .ok _ c => (none, c)
    | .error f c => (some f, c)
  let (late, console) := match finish.run console with
    | .ok _ c => (none, c)
    | .error f c => (some f, c)
  ⟨console.disk, console.output, console.errors, failure.or late⟩

end TreeCheck.Command
