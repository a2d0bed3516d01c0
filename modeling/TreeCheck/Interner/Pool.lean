import TreeCheck.Interner

/-!
Interners that several clients use at the same time. A pool keeps its texts by handle and, beside
them, the handles by text. Clients touch it under a lock only: every call is one turn under the
lock, except that interning a text that was not found takes a second turn, in which the text is
looked for once more before it is added. Between two turns of a client the others may have any
number of theirs.
-/

namespace TreeCheck

/-- The texts of an interner by handle, and the handles by text, newest first. -/
structure Pool where
  texts : List Text
  handles : List (Text × Handle)

namespace Pool

def capacity : Nat := Nat.pow 2 32

def probe (p : Pool) (t : Text) : Option Handle :=
  p.handles.lookup t

/-- Looks for a text once more, and adds it if it is still missing; none if it would have to be
added and there is no handle left for it. -/
def add? (p : Pool) (t : Text) : Option (Handle × Pool) :=
  match p.probe t with
  | some h => some (h, p)
  | none =>
    let h := p.texts.length
    if h < capacity then some (h, ⟨p.texts ++ [t], (t, h) :: p.handles⟩) else none

/-- The handle of a text, which is added if it is new, with nothing between the two turns. -/
def intern? (p : Pool) (t : Text) : Option (Handle × Pool) :=
  match p.probe t with
  | some h => some (h, p)
  | none => p.add? t

def find? (p : Pool) (h : Handle) : Option Text :=
  p.texts[h]?

def size (p : Pool) : Nat :=
  p.texts.length

/-- The texts of the pool, as an interner that a single client has for itself. -/
def interner (p : Pool) : Interner :=
  ⟨p.texts⟩

def blank : Pool :=
  ⟨[[]], [([], Handle.none)]⟩

/-- The pool that every run starts with: the well-known names are interned one after the other. -/
def fresh : Pool :=
  (wellKnown.map text).foldl (fun p t => (p.intern? t).elim p Prod.snd) blank

/-- What a client can ask for. -/
inductive Call where
  | intern (t : Text)
  | lookup (h : Handle)
  | has (h : Handle)
  | size
  | copy

inductive Answer where
  | handle (h : Handle)
  | full
  | found (t : Option Text)
  | known (b : Bool)
  | count (n : Nat)
  | table (texts : List Text)
  deriving DecidableEq

def Answer.ofAdded : Option (Handle × Pool) → Answer
  | some (h, _) => .handle h
  | none => .full

/-- A turn of a call under the lock: what the call ends with, unless it needs another turn, and the
pool after it. `missed` says that the text was looked for in a turn before, and not found. -/
def turn (p : Pool) (call : Call) (missed : Bool) : Option Answer × Pool :=
  match call with
  | .intern t =>
    if missed then
      let added := p.add? t
      (some (.ofAdded added), added.elim p Prod.snd)
    else ((p.probe t).map .handle, p)
  | .lookup h => (some (.found (p.find? h)), p)
  | .has h => (some (.known (h < p.size)), p)
  | .size => (some (.count p.size), p)
  | .copy => (some (.table p.texts), p)

/-- What a client still has to do: its calls, one after the other, and whether the text of the first
one was looked for and not found. -/
structure Client where
  calls : List Call
  missed : Bool

structure Reply where
  client : Nat
  call : Call
  answer : Answer

/-- A pool, its clients by number, and the calls that have ended so far, newest first. -/
structure Sharing where
  pool : Pool
  clients : List Client
  replies : List Reply

namespace Sharing

def start (calls : List (List Call)) : Sharing :=
  ⟨fresh, calls.map fun own => ⟨own, false⟩, []⟩

/-- The turn of a client; nothing happens if there is no such client or it has nothing to do. -/
def step (s : Sharing) (client : Nat) : Sharing :=
  match s.clients[client]? with
  | some ⟨call :: rest, missed⟩ =>
    match s.pool.turn call missed with
    | (none, pool) => { s with pool, clients := s.clients.set client ⟨call :: rest, true⟩ }
    | (some answer, pool) =>
      { pool, clients := s.clients.set client ⟨rest, false⟩,
        replies := ⟨client, call, answer⟩ :: s.replies }
  | _ => s

def run (s : Sharing) (schedule : List Nat) : Sharing :=
  schedule.foldl step s

end Sharing

end Pool

end TreeCheck
