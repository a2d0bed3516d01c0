/-!
Finite maps from handles to values, kept as a list of entries with ascending keys. Two tables with
the same bindings are the same list, and the entries come in the order in which tables are shown.
-/

namespace TreeCheck

/-- A finite map from natural numbers, as entries with ascending keys. -/
structure Table (α : Type) where
  entries : List (Nat × α)

namespace Table

variable {α β : Type}

def empty : Table α :=
  ⟨[]⟩

instance : Inhabited (Table α) := ⟨empty⟩

def lookup (key : Nat) : List (Nat × α) → Option α
  | [] => none
  | (k, a) :: rest => if k = key then some a else lookup key rest

def find? (t : Table α) (key : Nat) : Option α :=
  lookup key t.entries

def contains (t : Table α) (key : Nat) : Bool :=
  (t.find? key).isSome

/-- Entries with one more, before the first entry with a higher key; a value already under the
key is replaced. -/
def place (key : Nat) (a : α) : List (Nat × α) → List (Nat × α)
  | [] => [(key, a)]
  | (k, b) :: rest =>
    if k < key then (k, b) :: place key a rest
    else if k = key then (key, a) :: rest
    else (key, a) :: (k, b) :: rest

def insert (t : Table α) (key : Nat) (a : α) : Table α :=
  ⟨place key a t.entries⟩

def keys (t : Table α) : List Nat :=
  t.entries.map (·.1)

def size (t : Table α) : Nat :=
  t.entries.length

/-- The table of the given entries; a later one wins over an earlier one of the same key. -/
def ofList (entries : List (Nat × α)) : Table α :=
  entries.foldl (fun t (key, a) => t.insert key a) empty

theorem lookup_place (key other : Nat) (a : α) (entries : List (Nat × α)) :
    lookup other (place key a entries) = if other = key then some a else lookup other entries := by
  induction entries with
  | nil => simp [place, lookup, eq_comm]
  | cons entry rest ih =>
    obtain ⟨k, b⟩ := entry
    simp only [place]
    split
    · simp only [lookup, ih]
      grind
    · split <;> simp only [lookup] <;> grind

theorem find?_insert (t : Table α) (key other : Nat) (a : α) :
    (t.insert key a).find? other = if other = key then some a else t.find? other :=
  lookup_place key other a t.entries

end Table

end TreeCheck
