import Mathlib.Data.List.Induction
import Mathlib.Order.Bounds.Basic
import TreeCheck.FileSet
import TreeCheck.Proofs.Path.Clean

/-!
What a file set has after additions. The additions are numbered from one on; under its number each
one is found as it was made, whatever was added since; and under a path, however it is spelled, the
latest addition is found. The path of a document is one of the spellings, so it leads to the
document or to a later one.
-/

namespace TreeCheck.FileSet

inductive Addition where
  | add (path content : Text) (flags : UInt8)
  | inMemory (path content : Text)

namespace Addition

def path : Addition → Text
  | add p _ _ => p
  | inMemory p _ => p

def content : Addition → Text
  | add _ c _ => c
  | inMemory _ c => c

def flags : Addition → UInt8
  | add _ _ f => f
  | inMemory _ _ => SourceFile.inMemory

def file (a : Addition) (id : Nat) : SourceFile :=
  ⟨id, Path.clean a.path, a.content, a.flags⟩

end Addition

/-- The number that an addition returns, and the documents after it. -/
def perform (fs : FileSet) : Addition → Nat × FileSet
  | .add p c f => fs.add p c f
  | .inMemory p c => fs.addInMemory p c

/-- The numbers that additions return, and the documents after them, when there were none. -/
def performAll (calls : List Addition) : List Nat × FileSet :=
  calls.foldl (fun (ids, fs) a => let (id, after) := fs.perform a; (ids ++ [id], after)) ([], empty)

/-! ### One addition -/

section One

variable (fs : FileSet) (a : Addition)

theorem perform_eq : fs.perform a =
    (fs.files.length + 1, ⟨fs.files ++ [a.file (fs.files.length + 1)]⟩) := by
  cases a with
  | add => rfl
  | inMemory => rfl

/-- A path leads to the addition if it cleans to the same path, and else to where it led before. -/
theorem latest?_perform (p : Text) : (fs.perform a).2.latest? p =
    if Path.clean a.path = Path.clean p then some (fs.files.length + 1) else fs.latest? p := by
  rw [perform_eq, latest?, latest?]
  dsimp only
  rw [List.reverse_append, List.reverse_singleton, List.singleton_append, List.find?_cons]
  by_cases same : Path.clean a.path = Path.clean p
  · simp [Addition.file, same]
  · have other : ((a.file (fs.files.length + 1)).path == Path.clean p) = false :=
      beq_eq_false_iff_ne.mpr same
    rw [other, if_neg same]

end One

/-! ### All additions -/

section All

variable (calls : List Addition)

theorem performAll_concat (a : Addition) : performAll (calls ++ [a]) =
    ((performAll calls).1 ++ [((performAll calls).2.perform a).1],
      ((performAll calls).2.perform a).2) := by
  rw [performAll, List.foldl_append]
  rfl

theorem performAll_files :
    (performAll calls).2.files = calls.mapIdx fun n a => a.file (n + 1) := by
  induction calls using List.reverseRecOn with
  | nil => rfl
  | append_singleton calls a ih =>
    rw [performAll_concat, perform_eq, ih, List.length_mapIdx, List.mapIdx_concat]

theorem performAll_ids : (performAll calls).1 = List.range' 1 calls.length := by
  induction calls using List.reverseRecOn with
  | nil => rfl
  | append_singleton calls a ih =>
    rw [performAll_concat, perform_eq, ih, performAll_files, List.length_mapIdx,
      List.length_append, List.length_singleton, List.range'_concat]
    simp [Nat.add_comm]

theorem get?_performAll (n : Nat) :
    (performAll calls).2.get? (n + 1) = calls[n]?.map fun a => a.file (n + 1) := by
  rw [get?, performAll_files, List.getElem?_mapIdx]

/-! ### The latest addition for a path -/

/-- The numbers of the additions whose path cleans to the same path as the given one. -/
def idsAt (p : Text) : Set Nat :=
  {id | ∃ n a, calls[n]? = some a ∧ id = n + 1 ∧ Path.clean a.path = Path.clean p}

variable {calls} {p : Text} {id : Nat}

theorem le_of_mem_idsAt (member : id ∈ idsAt calls p) : id ≤ calls.length := by
  obtain ⟨n, a, found, rfl, -⟩ := member
  exact (List.getElem?_eq_some_iff.mp found).1

theorem mem_idsAt_concat {a : Addition} : id ∈ idsAt (calls ++ [a]) p ↔
    id ∈ idsAt calls p ∨ id = calls.length + 1 ∧ Path.clean a.path = Path.clean p := by
  constructor
  · rintro ⟨n, b, found, rfl, same⟩
    rcases Nat.lt_or_ge n calls.length with early | late
    · rw [List.getElem?_append_left early] at found
      exact .inl ⟨n, b, found, rfl, same⟩
    · have bound := (List.getElem?_eq_some_iff.mp found).1
      rw [List.length_append, List.length_singleton] at bound
      obtain rfl : n = calls.length := by omega
      rw [List.getElem?_concat_length] at found
      exact .inr ⟨rfl, Option.some.inj found ▸ same⟩
  · rintro (⟨n, b, found, rfl, same⟩ | ⟨rfl, same⟩)
    · have early := (List.getElem?_eq_some_iff.mp found).1
      exact ⟨n, b, (List.getElem?_append_left early).trans found, rfl, same⟩
    · exact ⟨calls.length, a, List.getElem?_concat_length, rfl, same⟩

theorem latest?_concat (calls : List Addition) (a : Addition) (p : Text) :
    (performAll (calls ++ [a])).2.latest? p =
      if Path.clean a.path = Path.clean p then some (calls.length + 1)
      else (performAll calls).2.latest? p := by
  rw [performAll_concat, latest?_perform, performAll_files, List.length_mapIdx]

theorem latest?_eq_some_iff :
    (performAll calls).2.latest? p = some id ↔ IsGreatest (idsAt calls p) id := by
  induction calls using List.reverseRecOn with
  | nil =>
    have empty : id ∉ idsAt [] p := fun ⟨n, a, found, _⟩ => by simp at found
    exact iff_of_false (by simp [performAll, latest?, FileSet.empty]) fun greatest =>
      empty greatest.1
  | append_singleton calls a ih =>
    rw [latest?_concat]
    split
    next same =>
      have greatest : IsGreatest (idsAt (calls ++ [a]) p) (calls.length + 1) := by
        refine ⟨mem_idsAt_concat.mpr (.inr ⟨rfl, same⟩), fun other member => ?_⟩
        rcases mem_idsAt_concat.mp member with early | ⟨rfl, _⟩
        · exact Nat.le_succ_of_le (le_of_mem_idsAt early)
        · exact le_rfl
      rw [Option.some.injEq]
      refine ⟨fun equal => equal ▸ greatest, greatest.unique⟩
    next other =>
      have kept : idsAt (calls ++ [a]) p = idsAt calls p := by
        ext other
        rw [mem_idsAt_concat]
        simp [*]
      rw [kept, ih]

theorem latest?_eq_none_iff : (performAll calls).2.latest? p = none ↔
    ∀ a ∈ calls, Path.clean a.path ≠ Path.clean p := by
  induction calls using List.reverseRecOn with
  | nil => simp [performAll, latest?, FileSet.empty]
  | append_singleton calls a ih =>
    rw [latest?_concat, List.forall_mem_append, List.forall_mem_singleton]
    split
    next same => simp [same]
    next other => simp [other, ih]

theorem latest?_path {f : SourceFile} (found : (performAll calls).2.get? id = some f) :
    ∃ latest, (performAll calls).2.latest? f.path = some latest ∧ id ≤ latest := by
  cases id with
  | zero => cases found
  | succ n =>
    rw [get?_performAll] at found
    obtain ⟨a, call, rfl⟩ := Option.map_eq_some_iff.mp found
    have same : Path.clean a.path = Path.clean (a.file (n + 1)).path :=
      (Path.clean_clean a.path).symm
    cases filed : (performAll calls).2.latest? (a.file (n + 1)).path with
    | none => exact absurd same (latest?_eq_none_iff.mp filed a (List.mem_of_getElem? call))
    | some latest =>
      exact ⟨latest, rfl, (latest?_eq_some_iff.mp filed).2 ⟨n, a, call, rfl, same⟩⟩

end All

/-- After any additions, by whichever call and with whatever paths and contents: they returned the
numbers from one on; under its number each addition is found with its cleaned path, content and
marks, and under other numbers there is nothing; a path leads to the greatest number of an addition
whose path cleans to the same path, and nowhere exactly if there is none; the path of a document
leads to it or to a later one; and a cleaned path is clean. -/
theorem additions_are_found (calls : List Addition) :
    let ids := (performAll calls).1
    let fs := (performAll calls).2
    ids = List.range' 1 calls.length ∧
    (∀ n a, calls[n]? = some a →
      fs.get? (n + 1) = some ⟨n + 1, Path.clean a.path, a.content, a.flags⟩) ∧
    (∀ id, id ∉ ids → fs.get? id = none) ∧
    (∀ p id, fs.latest? p = some id ↔ IsGreatest (idsAt calls p) id) ∧
    (∀ p, fs.latest? p = none ↔ ∀ a ∈ calls, Path.clean a.path ≠ Path.clean p) ∧
    (∀ id f, fs.get? id = some f → ∃ latest, fs.latest? f.path = some latest ∧ id ≤ latest) ∧
    ∀ p, Path.clean (Path.clean p) = Path.clean p := by
  intro ids fs
  refine ⟨performAll_ids calls, fun n a call => ?_, fun id other => ?_, fun p id =>
    latest?_eq_some_iff, fun p => latest?_eq_none_iff, fun id f => latest?_path, Path.clean_clean⟩
  · exact (get?_performAll calls n).trans (congrArg _ call)
  · cases id with
    | zero => rfl
    | succ n =>
      have beyond : calls.length ≤ n := by
        have numbers : ids = List.range' 1 calls.length := performAll_ids calls
        rw [numbers, List.mem_range'_1] at other
        omega
      exact (get?_performAll calls n).trans (congrArg _ (List.getElem?_eq_none beyond))

end TreeCheck.FileSet
