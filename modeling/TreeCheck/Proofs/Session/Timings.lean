import Mathlib
import TreeCheck.Proofs.Session.Verdict

/-!
What timings do to a result. They stand behind everything else in the bag, whether or not it was
full, and change nothing that stands before them. Only the number of refused diagnostics grows when
the bag was full: the timings are refused first, and taken all the same.
-/

namespace TreeCheck

namespace Bag

theorem length_within_le {limit : Int} (limited : 0 < limit) (ds : List Diagnostic) :
    (within limit ds).length ≤ limit.toNat := by
  rw [within, if_pos limited]
  exact List.length_take_le _ _

end Bag

namespace Session

/-! ### One more entry -/

section Entry

variable (b : Bag) (entry : Diagnostic)

/-- The entry has been counted as refused if there was no room for it. -/
theorem withTimings_dropped :
    (withTimings b entry).dropped = b.dropped + if b.isFull then 1 else 0 := by
  have none : ((Bag.empty 0).add entry).dropped = 0 := rfl
  unfold withTimings
  split
  next full =>
    have refused : (b.add entry).dropped = b.dropped + 1 := by rw [Bag.add, if_pos full]
    rw [Bag.merge, none, refused]
  next room => rw [Bag.add, if_neg room, Nat.add_zero]

theorem withTimings_limit :
    (withTimings b entry).limit = if b.isFull then (b.items.size : Int) + 1 else b.limit := by
  have single : ((Bag.empty 0).add entry).items.size = 1 := rfl
  unfold withTimings
  split
  next full =>
    obtain ⟨limited, reached⟩ := Bag.isFull_iff.mp full
    obtain ⟨items, limit⟩ := Bag.add_of_full (d := entry) full
    have moved : b.limit < b.items.size + 1 := by omega
    simp [Bag.merge, items, limit, single, limited, moved]
  next room => exact (Bag.add_of_room room).2

theorem withTimings_hasErrors (file : Nat) (w : Stopwatch) :
    (withTimings b (timingEntry file w)).hasErrors ↔ b.hasErrors := by
  have info : (timingEntry file w).severity ≠ .error := by
    have same : (timingEntry file w).severity = .info := rfl
    rw [same]
    decide
  rw [Bag.hasErrors_iff, Bag.hasErrors_iff, withTimings_items]
  constructor
  · rintro ⟨d, member, error⟩
    rcases List.mem_append.mp member with before | last
    · exact ⟨d, before, error⟩
    · rw [List.mem_singleton.mp last] at error
      exact absurd error info
  · rintro ⟨d, member, error⟩
    exact ⟨d, List.mem_append_left _ member, error⟩

end Entry

/-! ### Results with and without timings -/

variable {o : Options}

def Result.timed (r : Result) : Result :=
  { r with bag := withTimings r.bag (timingEntry r.file r.stopwatch) }

theorem checkSource_timings (o : Options) (f : SourceFile) (names : Interner) :
    checkSource { o with timings := true } f names =
      ((checkSource { o with timings := false } f names).1.timed,
        (checkSource { o with timings := false } f names).2) := by
  unfold checkSource
  dsimp only
  cases (Load.ofFile f names).failure with
  | some failure => cases failure <;> rfl
  | none =>
    unfold passed
    dsimp only
    split
    · rfl
    · rfl

/-- A check with timings fails where the check without them fails, and gives its result with the
timings otherwise. -/
theorem checkFile_timings (o : Options) (disk : Disk) (s : Shared) (path : Text) :
    checkFile { o with timings := true } disk s path =
      (checkFile { o with timings := false } disk s path).map fun (r, after) =>
        (r.timed, after) := by
  by_cases going : o.canceled
  · have stopped (timings : Bool) : checkFile { o with timings } disk s path = .error .canceled :=
      if_pos going
    rw [stopped, stopped]
    rfl
  · cases read : disk.read path with
    | error e =>
      have failed (timings : Bool) :
          checkFile { o with timings } disk s path = .error (.unreadable path e) := by
        unfold checkFile
        rw [if_neg going, read]
      rw [failed, failed]
      rfl
    | ok bytes =>
      have checked (timings : Bool) := @checkFile_eq { o with timings } disk path bytes going read s
      rw [checked, checked, checkSource_timings]
      rfl

theorem checkFile_timed {disk : Disk} {s after : Shared} {path : Text} {plain : Result}
    (checked : checkFile { o with timings := false } disk s path = .ok (plain, after)) :
    checkFile { o with timings := true } disk s path = .ok (plain.timed, after) := by
  rw [checkFile_timings, checked]
  rfl

/-- The bag of a result is made from the diagnostics that were emitted, whatever the pass. -/
theorem checkSource_bag (o : Options) (f : SourceFile) (names : Interner) :
    ∃ w emitted, (checkSource o f names).1.bag = finishBag o f.id w emitted := by
  unfold checkSource
  dsimp only
  cases (Load.ofFile f names).failure with
  | some failure => exact ⟨_, _, rfl⟩
  | none =>
    unfold passed
    dsimp only
    split
    · exact ⟨_, _, rfl⟩
    · exact ⟨_, _, rfl⟩

theorem finishBag_size (untimed : ¬o.timings) (file : Nat) (w : Stopwatch)
    (emitted : List Diagnostic) :
    (finishBag o file w emitted).items.size =
      (Bag.distinct [] (Bag.within o.limit emitted)).length := by
  unfold finishBag
  rw [if_neg untimed, ← Bag.addAll_items]
  simp [Bag.sort, Bag.dedup]

/-- Without timings a bag is full if it holds exactly as many diagnostics as the limit allows. -/
theorem finishBag_isFull (untimed : ¬o.timings) (file : Nat) (w : Stopwatch)
    (emitted : List Diagnostic) :
    (finishBag o file w emitted).isFull ↔
      0 < o.limit ∧ ((finishBag o file w emitted).items.size : Int) = o.limit := by
  have limit : (finishBag o file w emitted).limit = o.limit := by
    unfold finishBag
    rw [if_neg untimed]
    exact Bag.addAll_limit _ _
  rw [Bag.isFull_iff, limit, finishBag_size untimed]
  refine and_congr_right fun limited => ?_
  have kept := (Bag.distinct_sublist [] (Bag.within o.limit emitted)).length_le
  have taken := Bag.length_within_le limited emitted
  omega

theorem checkFile_isFull (untimed : ¬o.timings) {disk : Disk} {s after : Shared} {path : Text}
    {r : Result} (checked : checkFile o disk s path = .ok (r, after)) :
    r.bag.isFull ↔ 0 < o.limit ∧ r.bag.items.size = o.limit := by
  obtain ⟨_, bytes, _, rfl, _⟩ := checkFile_ok checked
  obtain ⟨w, emitted, bag⟩ := checkSource_bag o (sourceAt s path bytes) s.names
  rw [bag]
  exact finishBag_isFull untimed _ w emitted

theorem timings_id : Code.timings.id = text "OBS9001" := by
  decide

/-- A check with timings fails where the check without them fails, and else gives the same result
but for the bag. There the timings follow behind everything else, as an information with their code,
and there are errors exactly if there are errors without them. As many diagnostics count as refused
as without timings, and one more exactly if the bag without timings holds as many as its limit. -/
theorem timings_go_to_the_end (o : Options) (disk : Disk) (s : Shared) (path : Text) :
    (∀ failure, checkFile { o with timings := true } disk s path = .error failure ↔
      checkFile { o with timings := false } disk s path = .error failure) ∧
    ∀ plain after, checkFile { o with timings := false } disk s path = .ok (plain, after) →
      ∃ bag entry, checkFile { o with timings := true } disk s path =
          .ok ({ plain with bag }, after) ∧
        bag.items = plain.bag.items.push entry ∧
        entry.code.id = text "OBS9001" ∧ entry.severity = .info ∧
        (bag.hasErrors ↔ plain.bag.hasErrors) ∧
        bag.dropped = plain.bag.dropped + (if plain.bag.isFull then 1 else 0) ∧
        bag.limit =
          (if plain.bag.isFull then (plain.bag.items.size : Int) + 1 else plain.bag.limit) ∧
        (plain.bag.isFull ↔ 0 < o.limit ∧ plain.bag.items.size = o.limit) := by
  constructor
  · intro failure
    rw [checkFile_timings]
    cases checkFile { o with timings := false } disk s path with
    | error e => exact Iff.rfl
    | ok outcome => exact ⟨nofun, nofun⟩
  · intro plain after checked
    have full := checkFile_isFull (o := { o with timings := false }) Bool.false_ne_true checked
    refine ⟨_, timingEntry plain.file plain.stopwatch, checkFile_timed checked, ?_, timings_id, rfl,
      withTimings_hasErrors _ _ _, withTimings_dropped _ _, withTimings_limit _ _, full⟩
    apply Array.toList_inj.mp
    rw [withTimings_items, Array.toList_push]

/-! ### A bag that is full before the timings -/

section Boundary

def unknownName : Text :=
  text "- a\n"

def unknownNameDisk : Disk :=
  ⟨[([text "t.yaml"], .file unknownName)], []⟩

def unknownNameSource : SourceFile :=
  ⟨1, text "t.yaml", unknownName, 0⟩

theorem unknownName_said : (said ⟨false, false⟩ unknownNameSource .fresh).length = 1 := by
  decide +kernel

theorem unknownName_checked (standard : o.pass = Check.tree) (going : ¬o.canceled)
    (untimed : ¬o.timings) (silent : o.warnings = ⟨false, false⟩)
    (room : ∀ d, Bag.within o.limit [d] = [d]) {path : Text}
    (read : unknownNameDisk.read path = .ok unknownName)
    (source : sourceAt .fresh path unknownName = unknownNameSource) :
    ∃ plain after, checkFile o unknownNameDisk .fresh path = .ok (plain, after) ∧
      plain.bag.items.size = 1 := by
  have names : Shared.fresh.names = .fresh := rfl
  have checked := checkFile_eq going read .fresh
  rw [source, names] at checked
  obtain ⟨-, w, bag⟩ := checkSource_said standard unknownNameSource .fresh
  obtain ⟨d, said⟩ := List.length_eq_one_iff.mp unknownName_said
  refine ⟨_, _, checked, ?_⟩
  rw [bag, silent, said, finishBag_size untimed, room]
  simp [Bag.distinct]

/-- The options with room for one diagnostic. -/
def roomForOne : Options :=
  { limit := 1, warnings := ⟨false, false⟩, timings := false }

theorem unknownName_fills : ∃ plain after,
    checkFile roomForOne unknownNameDisk .fresh (text "t.yaml") = .ok (plain, after) ∧
      plain.bag.items.size = 1 ∧ plain.bag.isFull := by
  have untimed : ¬roomForOne.timings := Bool.false_ne_true
  have read : unknownNameDisk.read (text "t.yaml") = .ok unknownName := rfl
  obtain ⟨plain, after, checked, size⟩ := unknownName_checked (o := roomForOne) rfl
    Bool.false_ne_true untimed rfl (fun _ => rfl) read rfl
  refine ⟨plain, after, checked, size, (checkFile_isFull untimed checked).mpr ?_⟩
  rw [size]
  exact ⟨Int.one_pos, rfl⟩

/-- With room for one diagnostic, which is taken up by the error about the name, the timings count
as refused, although they are in the bag. -/
theorem full_bag_counts_timings :
    ∃ plain timed after,
      checkFile { limit := 1, warnings := ⟨false, false⟩, timings := false } unknownNameDisk .fresh
        (text "t.yaml") = .ok (plain, after) ∧
      checkFile { limit := 1, warnings := ⟨false, false⟩, timings := true } unknownNameDisk .fresh
        (text "t.yaml") = .ok (timed, after) ∧
      timed.bag.items.size = 2 ∧ timed.bag.dropped ≠ plain.bag.dropped := by
  obtain ⟨plain, after, checked, size, full⟩ := unknownName_fills
  refine ⟨plain, plain.timed, after, checked, @checkFile_timed roomForOne _ _ _ _ _ checked, ?_, ?_⟩
  · have items := congrArg List.length
      (withTimings_items plain.bag (timingEntry plain.file plain.stopwatch))
    rwa [List.length_append, Array.length_toList, Array.length_toList, size] at items
  · have dropped := withTimings_dropped plain.bag (timingEntry plain.file plain.stopwatch)
    rw [if_pos full] at dropped
    exact fun same => Nat.succ_ne_self _ (dropped.symm.trans same)

end Boundary

end Session

end TreeCheck
