import TreeCheck.Proofs.Diagnostic.Distinct
import TreeCheck.Proofs.Session.Timings

/-!
What takes up the room in a bag. The limit counts diagnostics as they are emitted, and repetitions
are removed only afterwards; so a repeated diagnostic takes room from a later one and then leaves it
empty. A limited bag holds as many diagnostics as it could exactly if nothing was repeated while
there was room, or nothing new was said after that.
-/

namespace TreeCheck.Session

variable {o : Options}

/-! ### What a bag without timings holds -/

def saidCodes : List Code :=
  [.malformed, .unknownOperator, .shadowing, .globalRedefined] ++ Check.errorCodes

theorem said_codes_apart (warnings : Check.Options) (f : SourceFile) (names : Interner) :
    Bag.CodesApart (said warnings f names) := by
  have told : ∀ c ∈ saidCodes, ∀ e ∈ saidCodes, c.id = e.id → c = e := by decide
  have among {d : Diagnostic} (found : Said d) : d.code ∈ saidCodes := by
    rcases found with objection | mistake | doubt
    · rcases objection.2 with code | code <;> simp [code, saidCodes]
    · exact List.mem_append_right _ mistake.code_mem
    · rcases doubt.code_eq with code | code | ⟨code, _⟩ <;> simp [code, saidCodes, Check.errorCodes]
  intro d member e other
  exact told _ (among (said_of_mem member)) _ (among (said_of_mem other))

theorem finishBag_items (untimed : ¬o.timings) (file : Nat) (w : Stopwatch)
    (emitted : List Diagnostic) :
    (finishBag o file w emitted).items.toList.Perm
      (Bag.distinct [] (Bag.within o.limit emitted)) := by
  unfold finishBag
  rw [if_neg untimed, ← Bag.addAll_items]
  exact List.mergeSort_perm _ _

theorem finishBag_dropped (untimed : ¬o.timings) (file : Nat) (w : Stopwatch)
    (emitted : List Diagnostic) :
    (finishBag o file w emitted).dropped =
      emitted.length - (Bag.within o.limit emitted).length := by
  unfold finishBag
  rw [if_neg untimed]
  exact Bag.addAll_dropped o.limit emitted

/-- The bag of a result without timings holds one diagnostic for each thing that was said while
there was room, and counts as refused what was said after that. -/
theorem checkFile_room (standard : o.pass = Check.tree) (untimed : ¬o.timings) {disk : Disk}
    {s after : Shared} {path : Text} {result : Result}
    (checked : checkFile o disk s path = .ok (result, after)) :
    Bag.NoRepeats result.bag.items.toList ∧
    result.bag.items.size = Bag.variety (Bag.within o.limit (saidAt o.warnings disk s path)) ∧
    result.bag.dropped = (saidAt o.warnings disk s path).length -
      (Bag.within o.limit (saidAt o.warnings disk s path)).length := by
  obtain ⟨_, bytes, read, rfl, -⟩ := checkFile_ok checked
  obtain ⟨-, w, bag⟩ := checkSource_said standard (sourceAt s path bytes) s.names
  have told : saidAt o.warnings disk s path = said o.warnings (sourceAt s path bytes) s.names := by
    rw [saidAt, read]
  rw [bag, told]
  have apart := said_codes_apart o.warnings (sourceAt s path bytes) s.names
  have kept := finishBag_items untimed (sourceAt s path bytes).id w
    (said o.warnings (sourceAt s path bytes) s.names)
  refine ⟨?_, ?_, finishBag_dropped untimed _ w _⟩
  · exact (kept.map Diagnostic.saying).nodup_iff.mpr (Bag.noRepeats_distinct [] _)
  · rw [finishBag_size untimed, Bag.length_distinct]
    exact apart.subset fun d member => Bag.mem_within member

/-! ### The same check under a limit and without -/

/-- Under a limit, a bag holds one diagnostic for each different thing among the first ones said, as
many as the limit counts, and refuses the others. So whenever it has refused one it holds as many as
its limit, exactly if all that was said fits or nothing is repeated within the limit; and it holds
as many as the limit and the same bag without a limit allow, exactly if nothing is repeated within
the limit or nothing new is said behind it. -/
theorem limit_counts_repetitions {m : Nat} (limited : 0 < m) {warnings : Check.Options}
    {disk : Disk} {s after : Shared} {path : Text} {result : Result}
    (checked : checkFile { limit := m, warnings, timings := false } disk s path =
      .ok (result, after)) :
    ∃ full, checkFile { limit := 0, warnings, timings := false } disk s path = .ok (full, after) ∧
      Bag.NoRepeats full.bag.items.toList ∧
      full.bag.items.size = Bag.variety (saidAt warnings disk s path) ∧
      result.bag.items.size = Bag.variety ((saidAt warnings disk s path).take m) ∧
      result.bag.dropped = (saidAt warnings disk s path).length - m ∧
      ((0 < result.bag.dropped → result.bag.items.size = m) ↔
        (saidAt warnings disk s path).length ≤ m ∨
          Bag.NoRepeats ((saidAt warnings disk s path).take m)) ∧
      (result.bag.items.size = min m full.bag.items.size ↔
        Bag.NoRepeats ((saidAt warnings disk s path).take m) ∨
          ∀ d ∈ (saidAt warnings disk s path).drop m, ∃ e ∈ (saidAt warnings disk s path).take m,
            d.saying = e.saying) := by
  obtain ⟨full, unlimited⟩ := checkFile_unlimited checked
  have first (ds : List Diagnostic) : Bag.within m ds = ds.take m := by
    rw [Bag.within, if_pos (Int.natCast_pos.mpr limited), Int.toNat_natCast]
  have all (ds : List Diagnostic) : Bag.within 0 ds = ds := rfl
  obtain ⟨-, size, dropped⟩ := checkFile_room rfl Bool.false_ne_true checked
  obtain ⟨apart, whole, -⟩ := checkFile_room rfl Bool.false_ne_true unlimited
  simp only [first, all] at size dropped whole
  have refused : result.bag.dropped = (saidAt warnings disk s path).length - m := by
    rw [dropped, List.length_take]
    omega
  refine ⟨full, unlimited, apart, whole, size, refused, ?_, ?_⟩
  · rw [refused, size, Nat.sub_pos_iff_lt]
    exact Bag.variety_take_full_iff m _
  · rw [size, whole]
    exact Bag.variety_take_eq_min_iff m _

/-! ### A repetition that takes room -/

section Repetition

/-- A class with two super types that are not known, the first of them named twice. -/
def repeatedSuper : Text :=
  text "- {class: C, supers: [A, A, B]}\n"

def repeatedSuperSource : SourceFile :=
  ⟨1, text "t.yaml", repeatedSuper, 0⟩

def repeatedSuperNames : Interner :=
  ⟨Interner.fresh.names ++ [text "C", text "A", text "B"]⟩

def repeatedSuperDisk : Disk :=
  ⟨[([text "t.yaml"], .file repeatedSuper)], []⟩

def unknownSuper (super : Handle) : Diagnostic :=
  .error .unresolvedType ⟨1, 1, 3⟩
    (text "unknown super type " ++ repeatedSuperNames.display super ++
      text " of " ++ repeatedSuperNames.display 14)

theorem unknownSuper_saying_ne : (unknownSuper 16).saying ≠ (unknownSuper 15).saying := by
  have names : repeatedSuperNames.display 16 ≠ repeatedSuperNames.display 15 := by decide
  simp [Diagnostic.saying, unknownSuper, Diagnostic.error, names]

theorem repeatedSuperSource_said : said ⟨false, false⟩ repeatedSuperSource .fresh =
    [unknownSuper 15, unknownSuper 15, unknownSuper 16] := by
  decide +kernel

theorem repeatedSuper_said : saidAt ⟨false, false⟩ repeatedSuperDisk .fresh (text "t.yaml") =
    [unknownSuper 15, unknownSuper 15, unknownSuper 16] := by
  have read : repeatedSuperDisk.read (text "t.yaml") = .ok repeatedSuper := rfl
  have source : sourceAt .fresh (text "t.yaml") repeatedSuper = repeatedSuperSource := rfl
  rw [saidAt, read]
  dsimp only
  rw [source]
  exact repeatedSuperSource_said

theorem repeatedSuper_checked (limit : Int) : ∃ result after,
    checkFile { limit, warnings := ⟨false, false⟩, timings := false } repeatedSuperDisk .fresh
      (text "t.yaml") = .ok (result, after) := by
  have read : repeatedSuperDisk.read (text "t.yaml") = .ok repeatedSuper := rfl
  exact ⟨_, _, checkFile_eq (o := { limit, warnings := ⟨false, false⟩, timings := false })
    Bool.false_ne_true read .fresh⟩

/-- With room for all three reports of the document, two are left, and none is refused. -/
theorem repeatedSuper_fits : ∃ result after,
    checkFile { limit := (3 : Nat), warnings := ⟨false, false⟩, timings := false } repeatedSuperDisk
      .fresh (text "t.yaml") = .ok (result, after) ∧
    result.bag.items.size = 2 ∧ result.bag.dropped = 0 := by
  obtain ⟨result, after, checked⟩ := repeatedSuper_checked (3 : Nat)
  have three : 0 < 3 := Nat.zero_lt_succ 2
  obtain ⟨full, -, -, -, size, dropped, -, -⟩ := limit_counts_repetitions three checked
  rw [repeatedSuper_said] at size dropped
  refine ⟨result, after, checked, size.trans ?_, dropped⟩
  simp [Bag.variety, unknownSuper_saying_ne.symm]

/-- With room for two reports, the first one takes it twice and the report about the other super
type is refused; so one is left, where two were allowed and are there to be said. -/
theorem repeated_report_takes_room : ∃ limited full after,
    checkFile { limit := 2, warnings := ⟨false, false⟩, timings := false } repeatedSuperDisk .fresh
      (text "t.yaml") = .ok (limited, after) ∧
    checkFile { limit := 0, warnings := ⟨false, false⟩, timings := false } repeatedSuperDisk .fresh
      (text "t.yaml") = .ok (full, after) ∧
    0 < limited.bag.dropped ∧ limited.bag.items.size = 1 ∧ full.bag.items.size = 2 := by
  obtain ⟨limited, after, checked⟩ := repeatedSuper_checked 2
  obtain ⟨full, unlimited⟩ := checkFile_unlimited checked
  obtain ⟨-, size, dropped⟩ := checkFile_room rfl Bool.false_ne_true checked
  obtain ⟨-, whole, -⟩ := checkFile_room rfl Bool.false_ne_true unlimited
  have two (ds : List Diagnostic) : Bag.within 2 ds = ds.take 2 := rfl
  have all (ds : List Diagnostic) : Bag.within 0 ds = ds := rfl
  simp only [repeatedSuper_said, two, all] at size dropped whole
  refine ⟨limited, full, after, checked, unlimited, ?_, size.trans ?_, whole.trans ?_⟩
  · rw [dropped]
    decide
  · simp [Bag.variety]
  · simp [Bag.variety, unknownSuper_saying_ne.symm]

end Repetition

end TreeCheck.Session
