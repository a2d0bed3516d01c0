import TreeCheck.Text

/-!
Names as handles. An interner hands out a handle for every text it is given and the same handle
for the same text; handles are never taken back. Handle zero is the empty text and marks an absent
name, and the handles after it are the names that the checker refers to directly.
-/

namespace TreeCheck

/-- A handle: the position of a name in its interner. -/
abbrev Handle := Nat

def Handle.none : Handle := 0

def Handle.isValid (h : Handle) : Bool :=
  h != Handle.none

/-- The names every interner starts with, in the order of their handles from one on: the hooks of
a class and the built-in scalar types. -/
def wellKnown : List String :=
  ["init", "param", "var", "func", "pre", "post", "final", "validate", "int", "float", "bool",
    "string", "nil"]

/-- The handle of the built-in type name `int`. -/
def Handle.int : Handle := 9

/-- The handle of the built-in type name `float`. -/
def Handle.float : Handle := 10

/-- The handle of the built-in type name `bool`. -/
def Handle.bool : Handle := 11

/-- The handle of the built-in type name `string`. -/
def Handle.string : Handle := 12

/-- The handle of the built-in type name `nil`. -/
def Handle.nil : Handle := 13

/-- The texts handed out so far; the handle of a text is its position. -/
structure Interner where
  names : List Text

namespace Interner

def fresh : Interner :=
  ⟨[] :: wellKnown.map text⟩

instance : Inhabited Interner := ⟨fresh⟩

def probe (names : Interner) (t : Text) : Option Handle :=
  names.names.idxOf? t

/-- The handle of a text, which is added if it is new. There is no bound here; that a pool of
handles has an end is part of `Pool`. -/
def intern (names : Interner) (t : Text) : Handle × Interner :=
  match names.probe t with
  | some h => (h, names)
  | none => (names.names.length, ⟨names.names ++ [t]⟩)

def find? (names : Interner) (h : Handle) : Option Text :=
  names.names[h]?

def size (names : Interner) : Nat :=
  names.names.length

def has (names : Interner) (h : Handle) : Bool :=
  h < names.size

/-- The message about a handle that this interner never produced. -/
def invalid (h : Handle) : Text :=
  text "source: invalid string ID " ++ Text.ofNat h

def nameless (h : Handle) : Text :=
  text "#" ++ Text.ofNat h

/-- The name of a handle in messages; unknown handles and the absent name show their number. -/
def display (names : Interner) (h : Handle) : Text :=
  match names.find? h with
  | some [] | none => nameless h
  | some t => t

end Interner

def displayWith : Option Interner → Handle → Text
  | some names, h => names.display h
  | none, h => Interner.nameless h

end TreeCheck
