import TreeCheck.Load

/-!
Reading in turns. The interner may be shared with readings of other files that go on at the same
time, so a reading does not hold it: it goes on until it needs the handle of a text, and waits for
the answer. The rules are those of every reading; all else that reading has come to is its own.
-/

namespace TreeCheck

namespace Load

/-- A computation up to its next question, which is about the handle of a text. -/
inductive Asking (α : Type) where
  | done (a : α)
  | ask (t : Text) (next : Handle → Asking α)

namespace Asking

variable {α β : Type}

def bind (x : Asking α) (f : α → Asking β) : Asking β :=
  match x with
  | done a => f a
  | ask t next => ask t fun h => (next h).bind f

instance : Monad Asking where
  pure := done
  bind := bind

def serve : Asking α → Interner → α × Interner
  | done a, names => (a, names)
  | ask t next, names => (next (names.intern t).1).serve (names.intern t).2

end Asking

/-- What a reading has come to, but for the names. -/
structure Progress where
  emitted : Array Diagnostic
  aliased : Nat
  next : Nat

end Load

abbrev Turnwise := ReaderT Load.Env (StateT Load.Progress Load.Asking)

namespace Load

namespace Turnwise

def spanOf (n : Yaml.Node) : Turnwise Span :=
  return ⟨(← read).file, n.place.line, n.place.column⟩

def siteAt (n : Yaml.Node) : Turnwise Site := do
  let span ← spanOf n
  let id ← modifyGet fun p => (p.next, { p with next := p.next + 1 })
  return ⟨id, span⟩

def report (code : Code) (n : Yaml.Node) (message : Text) : Turnwise Unit := do
  let span ← spanOf n
  modify fun p => { p with emitted := p.emitted.push (.error code span message) }

def intern (name : Text) : Turnwise Handle :=
  fun _ p => .ask (Text.normal name) fun h => .done (h, p)

instance : Reading Turnwise where
  spanOf := spanOf
  siteAt := siteAt
  report := report
  intern := intern

def countAliased (n : Yaml.Node) : Turnwise Bool := do
  if !(← read).throughAlias then return false
  let count ← modifyGet fun p => (p.aliased + 1, { p with aliased := p.aliased + 1 })
  if count ≤ maxAliased then return false
  if count = maxAliased + 1 then
    fail n (text "document expands more than " ++ Text.ofNat maxAliased ++
      text " nodes through aliases")
  return true

instance : Following Turnwise where
  exceeds := countAliased
  target? number := return (← read).document.target? number
  throughAlias x := withReader (fun env => { env with throughAlias := true }) x

end Turnwise

/-- What reading a file finds out, but for the names. -/
structure Findings where
  tree : Tree
  diagnostics : List Diagnostic
  failure : Option Failure

def Findings.under (found : Findings) (names : Interner) : Outcome :=
  ⟨found.tree, names, found.diagnostics, found.failure⟩

def turnsOf (f : SourceFile) (d : Yaml.Document) : Asking Findings := do
  let (nodes, p) ← ((rootOf d : Turnwise _).run ⟨f.id, d, false⟩).run ⟨#[], 0, 0⟩
  return {
    tree := ⟨f.id, f.path, nodes⟩, diagnostics := p.emitted.toList,
    failure := if p.emitted.isEmpty then none else some (.malformed f.path p.emitted.size) }

def turns (f : SourceFile) : Asking Findings :=
  match Yaml.Document.read f.content with
  | .error fault => .done ⟨⟨f.id, f.path, []⟩, [], some (.syntaxFault f.path fault)⟩
  | .ok none => .done ⟨⟨f.id, f.path, []⟩, [], none⟩
  | .ok (some d) => turnsOf f d

end Load

end TreeCheck
