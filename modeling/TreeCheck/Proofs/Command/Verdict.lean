import Mathlib
import TreeCheck.Command
import TreeCheck.Proofs.Session.Verdict

/-!
When a command ends with the failure that errors were reported. Nothing but its last step can fail
for this reason, and that step looks at the bags of the results.
-/

namespace TreeCheck.Command

variable {α β : Type}

/-- The step may fail, but not because errors were reported. -/
def Unreported (x : Run α) : Prop :=
  ∀ c d, x.run c ≠ .error .reported d

/-- A verdict decides how the command ends from a console: it reports errors only if the verdict
holds, and succeeds only if it does not. Other failures are left open. -/
def Decides (x : Run Unit) (c : Console) (verdict : Prop) : Prop :=
  match x.run c with
  | .ok _ _ => ¬verdict
  | .error failure _ => failure = .reported → verdict

namespace Unreported

theorem pure (a : α) : Unreported (Pure.pure a) :=
  fun _ _ same => nomatch same

theorem modify (f : Console → Console) : Unreported (modify f) :=
  fun _ _ same => nomatch same

theorem throw {failure : Failure} (other : failure ≠ .reported) :
    Unreported (throw failure : Run α) := by
  intro c d same
  cases same
  exact other rfl

theorem bind {x : Run α} {f : α → Run β} (first : Unreported x)
    (rest : ∀ a, Unreported (f a)) : Unreported (x >>= f) := by
  intro c d same
  rw [EStateM.run_bind] at same
  cases ends : x.run c with
  | ok a e =>
    rw [ends] at same
    exact rest a e d same
  | error failure e =>
    rw [ends] at same
    cases same
    exact first c d ends

theorem forM {xs : List β} {g : β → Run Unit} (each : ∀ b, Unreported (g b)) :
    Unreported (xs.forM g) := by
  induction xs with
  | nil => exact pure ()
  | cons b rest ih => exact bind (each b) fun _ => ih

end Unreported

theorem orFail_unreported {ε : Type} {cause : ε → Failure} (other : ∀ e, cause e ≠ .reported)
    (result : Except ε α) : Unreported (orFail cause result) := by
  cases result with
  | ok a => exact .pure a
  | error e => exact .throw (other e)

theorem orFail_ok {ε : Type} {cause : ε → Failure} {result : Except ε α} {c d : Console} {a : α}
    (ends : (orFail cause result).run c = .ok a d) : result = .ok a ∧ d = c := by
  cases result with
  | ok b =>
    cases ends
    exact ⟨rfl, rfl⟩
  | error e => cases ends

theorem writeSnapshots_unreported (dir : Text) (shared : Session.Shared)
    (results : List Session.Result) : Unreported (writeSnapshots dir shared results) := by
  refine .forM fun r => ?_
  split
  · exact .pure ()
  · refine .bind (fun _ _ same => nomatch same) fun _ => ?_
    exact .bind (orFail_unreported (by nofun) _) fun _ => .modify _

namespace Decides

variable {c : Console} {verdict : Prop}

theorem next {x : Run α} {f : α → Run Unit} (quiet : Unreported x)
    (rest : ∀ a d, x.run c = .ok a d → Decides (f a) d verdict) :
    Decides (x >>= f) c verdict := by
  rw [Decides, EStateM.run_bind]
  cases ends : x.run c with
  | ok a d => exact rest a d ends
  | error failure d => exact fun same => absurd (same ▸ ends) (quiet c d)

theorem refused {p : Prop} [Decidable p] {failure : Failure} {k : Unit → Run Unit}
    (other : failure ≠ .reported) (rest : Decides (k ()) c verdict) :
    Decides (if p then throw failure >>= k else k ()) c verdict := by
  split
  · exact next (.throw other) fun _ _ ends => nomatch ends
  · exact rest

theorem either {p : Prop} [Decidable p] {x y : Run Unit} (first : Decides x c verdict)
    (second : Decides y c verdict) : Decides (if p then x else y) c verdict := by
  split
  · exact first
  · exact second

theorem guarded {p : Prop} [Decidable p] {x : Run Unit} {k : Unit → Run Unit}
    (quiet : Unreported x) (rest : ∀ d, Decides (k ()) d verdict) :
    Decides (if p then x >>= k else k ()) c verdict := by
  split
  · exact next quiet fun _ d _ => rest d
  · exact rest c

end Decides

theorem failOnErrors_decides (results : List Session.Result) (c : Console) :
    Decides (failOnErrors (results.map (·.bag))) c (∃ r ∈ results, r.bag.hasErrors) := by
  unfold failOnErrors
  rw [List.any_map]
  by_cases found : results.any (Bag.hasErrors ∘ (·.bag))
  · rw [if_pos found]
    exact fun _ => List.any_eq_true.mp found
  · rw [if_neg found]
    exact fun erroneous => found (List.any_eq_true.mpr erroneous)

/-- What a check command says at its end depends on whether about one of its files an error was said
while there was room in the bag. -/
theorem runCheck_decides (s : Setup) {c : Console} {paths : List Text}
    (listed : Session.listInputs c.disk s.words.arguments = .ok paths) :
    Decides (runCheck s) c
      (∃ ds ∈ Session.saidAtAll s.options.warnings c.disk .fresh paths,
        Session.Erroneous (Bag.within s.options.limit ds)) := by
  unfold runCheck
  refine .refused (by nofun) ?_
  -- The inputs and the results are read off the disk that the command finds.
  refine .next (fun _ _ same => nomatch same) fun _ _ found => ?_
  cases found
  refine .next (orFail_unreported (by nofun) _) fun given d ends => ?_
  obtain ⟨inputs, rfl⟩ := orFail_ok ends
  cases listed.symm.trans inputs
  refine .refused (by nofun) ?_
  refine .next (orFail_unreported (by nofun) _) fun outcome e ends => ?_
  obtain ⟨checked, rfl⟩ := orFail_ok ends
  obtain ⟨results, shared⟩ := outcome
  rw [← Session.checkFiles_hasErrors rfl checked]
  have last (d : Console) : Decides (do
      if !((s.words.word? "snapshot").getD []).isEmpty then
        writeSnapshots ((s.words.word? "snapshot").getD []) shared results
      failOnErrors (results.map (·.bag))) d (∃ r ∈ results, r.bag.hasErrors) :=
    .guarded (writeSnapshots_unreported _ _ _) (failOnErrors_decides results)
  refine .either ?_ ?_
  · exact .next (.forM fun r => .modify _) fun _ d _ => last d
  · exact .next (.modify _) fun _ d _ => last d

open Session in
/-- A file counts as erroneous exactly when an error is said about it while there is room in its
bag; without a limit, exactly when an error is said at all. So a limit leaves the outcome as it is
exactly if the errors, where there are any, do not all come after the bag is full. The check command
fails for reported errors exactly when one of its files counts as erroneous, unless it fails
before. -/
theorem errors_count_while_there_is_room (limit : Int) (warnings : Check.Options) (timings : Bool)
    (setup : Setup) (c : Console) :
    (∀ (disk : Disk) (s after : Shared) (path : Text) (result : Result),
      checkFile { limit, warnings, timings } disk s path = .ok (result, after) →
        (result.bag.hasErrors ↔ Erroneous (Bag.within limit (saidAt warnings disk s path))) ∧
        ∃ full, checkFile { limit := 0, warnings, timings } disk s path = .ok (full, after) ∧
          (full.bag.hasErrors ↔ Erroneous (saidAt warnings disk s path)) ∧
          ((result.bag.hasErrors ↔ full.bag.hasErrors) ↔
            (Erroneous (saidAt warnings disk s path) →
              Erroneous (Bag.within limit (saidAt warnings disk s path))))) ∧
    ∀ paths : List Text, listInputs c.disk setup.words.arguments = .ok paths →
      Decides (runCheck setup) c
        (∃ ds ∈ saidAtAll setup.options.warnings c.disk .fresh paths,
          Erroneous (Bag.within setup.options.limit ds)) := by
  refine ⟨fun disk s after path result checked => ?_,
    fun paths listed => runCheck_decides setup listed⟩
  have limited : result.bag.hasErrors ↔
      Erroneous (Bag.within limit (saidAt warnings disk s path)) :=
    (checkFile_hasErrors rfl checked).1
  obtain ⟨full, unlimited⟩ := checkFile_unlimited checked
  have all : full.bag.hasErrors ↔ Erroneous (saidAt warnings disk s path) :=
    (checkFile_hasErrors rfl unlimited).1
  refine ⟨limited, full, unlimited, all, ?_⟩
  have fewer (found : Erroneous (Bag.within limit (saidAt warnings disk s path))) :
      Erroneous (saidAt warnings disk s path) := by
    obtain ⟨d, member, error⟩ := found
    exact ⟨d, Bag.mem_within member, error⟩
  rw [limited, all]
  exact ⟨fun same => same.mpr, fun kept => ⟨fewer, kept⟩⟩

/-! ### A bag that is full before the error -/

section FullBag

open Session

/-- A document about which a warning is said, and then an error: a struct cannot be the type of its
own field, and the default of the field is no name that is known. -/
def hiddenError : Text :=
  text "- {struct: P, fields: [{name: x, type: P, default: b}]}\n"

def hiddenSource : SourceFile :=
  ⟨1, text "t.yaml", hiddenError, 0⟩

theorem hiddenSource_said :
    (said ⟨false, false⟩ hiddenSource .fresh).map (·.severity) = [.warning, .error] := by
  decide +kernel

def hiddenDisk : Disk :=
  ⟨[([text "t.yaml"], .file hiddenError)], []⟩

/-- With room for one diagnostic the document does not count as erroneous, without a limit it
does. -/
theorem full_bag_hides_error :
    ∃ limited full after,
      checkFile { limit := 1, warnings := ⟨false, false⟩, timings := false } hiddenDisk .fresh
        (text "t.yaml") = .ok (limited, after) ∧
      checkFile { limit := 0, warnings := ⟨false, false⟩, timings := false } hiddenDisk .fresh
        (text "t.yaml") = .ok (full, after) ∧
      ¬limited.bag.hasErrors ∧ full.bag.hasErrors := by
  have read : hiddenDisk.read (text "t.yaml") = .ok hiddenError := rfl
  have source : sourceAt .fresh (text "t.yaml") hiddenError = hiddenSource := rfl
  have severities : (saidAt ⟨false, false⟩ hiddenDisk .fresh (text "t.yaml")).map (·.severity) =
      [.warning, .error] := by
    rw [saidAt, read]
    dsimp only
    rw [source]
    exact hiddenSource_said
  have erroneous_iff (ds : List Diagnostic) :
      Erroneous ds ↔ Severity.error ∈ ds.map (·.severity) := by
    simp [Erroneous]
  have limited := checkFile_eq (o := { limit := 1, warnings := ⟨false, false⟩, timings := false })
    Bool.false_ne_true read .fresh
  have full := checkFile_eq (o := { limit := 0, warnings := ⟨false, false⟩, timings := false })
    Bool.false_ne_true read .fresh
  refine ⟨_, _, _, limited, full, ?_, ?_⟩
  · rw [(checkFile_hasErrors rfl limited).1, erroneous_iff]
    have first (ds : List Diagnostic) : (Bag.within 1 ds).map (·.severity) =
        (ds.map (·.severity)).take 1 := List.map_take
    rw [first, severities]
    decide
  · rw [(checkFile_hasErrors rfl full).1, erroneous_iff]
    have all (ds : List Diagnostic) : Bag.within 0 ds = ds := rfl
    rw [all, severities]
    decide

end FullBag

end TreeCheck.Command
