import TreeCheck.Proofs.Command.Verdict
import TreeCheck.Proofs.Session.Alone
import TreeCheck.Proofs.Session.Timings
import TreeCheck.Proofs.Text.Order

/-!
What a check reports in its two formats. The listing goes through the results one by one, the report
keeps one result for every path. So both report the same diagnostics exactly if only the last result
of each path has any; inputs that are spelled differently can be one path.
-/

namespace TreeCheck

/-! ### Reading a report -/

namespace JsonValue

/-- The members of an object; other values have none. -/
def members : JsonValue → List (Text × JsonValue)
  | .object fields => fields
  | _ => []

def member? (v : JsonValue) (key : String) : Option JsonValue :=
  (v.members.find? (·.1 == text key)).map (·.2)

/-- The number under a key; zero if there is none. -/
def number (v : JsonValue) (key : String) : Int :=
  match v.member? key with
  | some (.int n) => n
  | _ => 0

def list (v : JsonValue) (key : String) : List JsonValue :=
  match v.member? key with
  | some (.array items) => items
  | _ => []

def counted (doc : JsonValue) : Int :=
  (doc.members.map (·.2.number "count")).sum

def listed (doc : JsonValue) : List JsonValue :=
  doc.members.flatMap (·.2.list "diagnostics")

end JsonValue

namespace Render

variable {o : ReportOptions}

theorem report_list (unlimited : o.limit = 0) (files : Files) (b : Bag) :
    (report o files (some b)).list "diagnostics" =
      b.items.toList.map (diagnosticValue o files) := by
  unfold report admitted
  rw [unlimited]
  rfl

theorem report_number (unlimited : o.limit = 0) (files : Files) (b : Bag) :
    (report o files (some b)).number "count" = b.items.size := by
  have count : (report o files (some b)).number "count" = ((admitted o b).length : Int) := rfl
  rw [count, admitted, unlimited, if_neg (Int.lt_irrefl 0), Array.length_toList]

end Render

namespace Session

/-! ### The last result of every path -/

/-- The results without those whose path a later one has as well. -/
def lasts : List Result → List Result
  | [] => []
  | r :: rest => if rest.any (·.path == r.path) then lasts rest else r :: lasts rest

def Unhidden (results : List Result) : Prop :=
  results.Pairwise fun r later => r.path = later.path → r.bag.items.size = 0

variable {r : Result} {results rest : List Result} {path : Text}

theorem lasts_of_later (later : ∃ q ∈ rest, q.path = r.path) : lasts (r :: rest) = lasts rest := by
  simpa [lasts] using later

theorem lasts_of_last (last : ¬∃ q ∈ rest, q.path = r.path) :
    lasts (r :: rest) = r :: lasts rest := by
  simpa [lasts] using last

theorem of_find?_path (found : results.reverse.find? (·.path == path) = some r) :
    r ∈ results ∧ r.path = path := by
  have same := List.find?_some found
  exact ⟨List.mem_reverse.mp (List.mem_of_find?_eq_some found), beq_iff_eq.mp same⟩

theorem lasts_subset (results : List Result) : lasts results ⊆ results := by
  induction results with
  | nil => exact List.Subset.refl _
  | cons r rest ih =>
    by_cases later : ∃ q ∈ rest, q.path = r.path
    · rw [lasts_of_later later]
      exact List.subset_cons_of_subset r ih
    · rw [lasts_of_last later]
      exact List.cons_subset_cons r ih

theorem lasts_paths_nodup (results : List Result) : ((lasts results).map (·.path)).Nodup := by
  induction results with
  | nil => exact .nil
  | cons r rest ih =>
    by_cases later : ∃ q ∈ rest, q.path = r.path
    · rwa [lasts_of_later later]
    · rw [lasts_of_last later]
      refine List.nodup_cons.mpr ⟨fun again => later ?_, ih⟩
      obtain ⟨q, member, same⟩ := List.mem_map.mp again
      exact ⟨q, lasts_subset rest member, same⟩

theorem mem_lasts : r ∈ lasts results ↔ results.reverse.find? (·.path == r.path) = some r := by
  induction results with
  | nil => simp [lasts]
  | cons first rest ih =>
    rw [List.reverse_cons, List.find?_append]
    by_cases later : ∃ q ∈ rest, q.path = first.path
    · rw [lasts_of_later later, ih]
      cases found : rest.reverse.find? (·.path == r.path) with
      | some _ => rfl
      | none =>
        -- The path of the first result is found in the rest, so it is not the one looked for.
        obtain ⟨last, member, same⟩ := later
        have absent := List.find?_eq_none.mp found last (List.mem_reverse.mpr member)
        rw [same] at absent
        simp [absent]
    · rw [lasts_of_last later, List.mem_cons, ih]
      cases found : rest.reverse.find? (·.path == r.path) with
      | some q =>
        refine ⟨fun either => either.resolve_left ?_, .inr⟩
        rintro rfl
        exact later ⟨q, of_find?_path found⟩
      | none =>
        by_cases same : first.path = r.path
        · simp [same, eq_comm]
        · have other : r ≠ first := fun equal => same (congrArg _ equal.symm)
          simp [same, other]

/-- The results of a report: of each path the last one, by path. -/
def shownResults (results : List Result) : List Result :=
  (compact (Text.sort (results.map (·.path)))).filterMap fun path =>
    results.reverse.find? (·.path == path)

theorem mem_shownResults : r ∈ shownResults results ↔ r ∈ lasts results := by
  rw [mem_lasts, shownResults, List.mem_filterMap]
  constructor
  · rintro ⟨path, _, found⟩
    rwa [(of_find?_path found).2]
  · intro found
    have member := (of_find?_path found).1
    exact ⟨r.path, mem_compact.mpr (Text.mem_sort.mpr (List.mem_map_of_mem member)), found⟩

theorem shownResults_nodup (results : List Result) : (shownResults results).Nodup := by
  refine (compact_nodup (Text.sort_pairwise _)).filterMap fun path path' r found found' => ?_
  exact (of_find?_path found).2.symm.trans (of_find?_path found').2

theorem shownResults_perm (results : List Result) : (shownResults results).Perm (lasts results) :=
  (List.perm_ext_iff_of_nodup (shownResults_nodup results) (lasts_paths_nodup results).of_map).mpr
    fun _ => mem_shownResults

def diagnosticsOf (results : List Result) : List Diagnostic :=
  results.flatMap (·.bag.items.toList)

theorem diagnosticsOf_cons (r : Result) (rest : List Result) :
    diagnosticsOf (r :: rest) = r.bag.items.toList ++ diagnosticsOf rest :=
  List.flatMap_cons

theorem length_diagnosticsOf_cons (r : Result) (rest : List Result) :
    (diagnosticsOf (r :: rest)).length = r.bag.items.size + (diagnosticsOf rest).length := by
  rw [diagnosticsOf_cons, List.length_append, Array.length_toList]

theorem diagnosticsOf_shownResults (results : List Result) :
    (diagnosticsOf (shownResults results)).Perm (diagnosticsOf (lasts results)) :=
  (shownResults_perm results).flatMap_right _

theorem length_diagnosticsOf_lasts (results : List Result) :
    (diagnosticsOf (lasts results)).length ≤ (diagnosticsOf results).length := by
  induction results with
  | nil => exact Nat.le_refl _
  | cons r rest ih =>
    by_cases later : ∃ q ∈ rest, q.path = r.path
    · rw [lasts_of_later later, length_diagnosticsOf_cons]
      exact Nat.le_add_left_of_le ih
    · rw [lasts_of_last later, length_diagnosticsOf_cons, length_diagnosticsOf_cons]
      exact Nat.add_le_add_left ih _

/-- The last results have as many diagnostics as all results exactly if no other result has any. -/
theorem length_diagnosticsOf_lasts_eq :
    (diagnosticsOf (lasts results)).length = (diagnosticsOf results).length ↔ Unhidden results := by
  induction results with
  | nil => exact iff_of_true rfl .nil
  | cons r rest ih =>
    rw [Unhidden, List.pairwise_cons, ← Unhidden, ← ih]
    by_cases later : ∃ q ∈ rest, q.path = r.path
    · obtain ⟨q, member, same⟩ := later
      have hidden : (∀ q ∈ rest, r.path = q.path → r.bag.items.size = 0) ↔
          r.bag.items.size = 0 :=
        ⟨fun each => each q member same.symm, fun none _ _ _ => none⟩
      have fewer := length_diagnosticsOf_lasts rest
      rw [hidden, lasts_of_later ⟨q, member, same⟩, length_diagnosticsOf_cons]
      omega
    · have each : ∀ q ∈ rest, r.path = q.path → r.bag.items.size = 0 :=
        fun q member same => absurd ⟨q, member, same.symm⟩ later
      rw [and_iff_right each, lasts_of_last later, length_diagnosticsOf_cons,
        length_diagnosticsOf_cons, Nat.add_left_cancel_iff]

theorem diagnosticsOf_lasts (unhidden : Unhidden results) :
    diagnosticsOf (lasts results) = diagnosticsOf results := by
  induction results with
  | nil => rfl
  | cons r rest ih =>
    obtain ⟨first, rest_unhidden⟩ := List.pairwise_cons.mp unhidden
    by_cases later : ∃ q ∈ rest, q.path = r.path
    · obtain ⟨q, member, same⟩ := later
      have none : r.bag.items.toList = [] := by
        rw [← List.length_eq_zero_iff, Array.length_toList]
        exact first q member same.symm
      rw [lasts_of_later ⟨q, member, same⟩, diagnosticsOf_cons, none, List.nil_append,
        ih rest_unhidden]
    · rw [lasts_of_last later, diagnosticsOf_cons, diagnosticsOf_cons, ih rest_unhidden]

theorem unhidden_of_nodup (distinct : (results.map (·.path)).Nodup) : Unhidden results :=
  (List.pairwise_map.mp distinct).imp fun different same => absurd same different

end Session

namespace Command

open Session

/-! ### The combined report -/

section Report

variable {o : Render.ReportOptions} (unlimited : o.limit = 0) (files : Render.Files)
variable {results : List Result}

theorem combinedReport_members (o : Render.ReportOptions) :
    (combinedReport o files results).members =
      (shownResults results).map fun r => (r.path, Render.report o files (some r.bag)) := by
  rw [shownResults, List.map_filterMap]
  refine List.filterMap_congr fun path _ => Option.map_congr fun r found => ?_
  rw [(of_find?_path found).2]

include unlimited in
theorem combinedReport_counted : (combinedReport o files results).counted =
    (diagnosticsOf (lasts results)).length := by
  have each (rs : List Result) :
      (rs.map fun r => (Render.report o files (some r.bag)).number "count").sum =
        ((diagnosticsOf rs).length : Int) := by
    induction rs with
    | nil => rfl
    | cons r rest ih =>
      rw [List.map_cons, List.sum_cons, ih, Render.report_number unlimited,
        length_diagnosticsOf_cons, Nat.cast_add]
  rw [JsonValue.counted, combinedReport_members, List.map_map, Function.comp_def, each,
    (diagnosticsOf_shownResults results).length_eq]

include unlimited in
theorem combinedReport_listed : (combinedReport o files results).listed.Perm
    ((diagnosticsOf (lasts results)).map (Render.diagnosticValue o files)) := by
  have listed : (combinedReport o files results).listed =
      (diagnosticsOf (shownResults results)).map (Render.diagnosticValue o files) := by
    rw [JsonValue.listed, combinedReport_members, List.flatMap_map, diagnosticsOf,
      List.map_flatMap]
    exact List.flatMap_congr fun r _ => Render.report_list unlimited files r.bag
  rw [listed]
  exact (diagnosticsOf_shownResults results).map _

end Report

/-! ### Where results stand -/

theorem checkSource_path (o : Options) (f : SourceFile) (names : Interner) :
    (checkSource o f names).1.path = f.path := by
  unfold checkSource
  dsimp only
  split
  · rfl
  · unfold passed
    dsimp only
    split <;> rfl

theorem sourceAt_path (s : Shared) (path bytes : Text) :
    (sourceAt s path bytes).path = Path.clean path := by
  obtain ⟨content, flags, added⟩ := addRead_eq path bytes
  rw [sourceAt, added]
  dsimp only
  rw [get?_add]
  rfl

/-! ### What a run prints -/

section Printing

variable {α β : Type} {c d : Console}

def printed (x : Run α) (c : Console) : Text :=
  match x.run c with
  | .ok _ d => d.output
  | .error _ d => d.output

/-- The step prints nothing. -/
def Silent (x : Run α) : Prop :=
  ∀ c, printed x c = c.output

theorem printed_bind {x : Run α} {f : α → Run β} {a : α} (ends : x.run c = .ok a d) :
    printed (x >>= f) c = printed (f a) d := by
  rw [printed, EStateM.run_bind, ends]
  rfl

theorem printed_accepted {p : Prop} [Decidable p] {failure : Failure} {k : Unit → Run Unit}
    (holds : ¬p) : printed (if p then throw failure >>= k else k ()) c = printed (k ()) c := by
  rw [if_neg holds]

namespace Silent

theorem pure (a : α) : Silent (Pure.pure a) :=
  fun _ => rfl

theorem throw (failure : Failure) : Silent (throw failure : Run α) :=
  fun _ => rfl

theorem get : Silent (MonadState.get : Run Console) :=
  fun _ => rfl

theorem bind {x : Run α} {f : α → Run β} (first : Silent x) (rest : ∀ a, Silent (f a)) :
    Silent (x >>= f) := by
  intro c
  have before := first c
  rw [printed, EStateM.run_bind]
  rw [printed] at before
  cases ends : x.run c with
  | ok a d =>
    rw [ends] at before
    exact (rest a d).trans before
  | error failure d =>
    rw [ends] at before
    exact before

theorem forM {xs : List β} {g : β → Run Unit} (each : ∀ b, Silent (g b)) :
    Silent (xs.forM g) := by
  induction xs with
  | nil => exact pure ()
  | cons b rest ih => exact bind (each b) fun _ => ih

end Silent

theorem orFail_silent {ε : Type} (cause : ε → Failure) (result : Except ε α) :
    Silent (orFail cause result) := by
  cases result with
  | ok a => exact .pure a
  | error e => exact .throw (cause e)

theorem writeSnapshots_silent (dir : Text) (shared : Shared) (results : List Result) :
    Silent (writeSnapshots dir shared results) := by
  refine .forM fun r => ?_
  split
  · exact .pure ()
  · refine .bind .get fun _ => .bind (orFail_silent _ _) fun disk => fun _ => rfl

theorem failOnErrors_silent (bags : List Bag) : Silent (failOnErrors bags) := by
  unfold failOnErrors
  split
  · exact .throw _
  · exact .pure ()

theorem run_print_each (f : β → Text) (xs : List β) (c : Console) :
    (xs.forM fun x => print (f x)).run c =
      .ok () { c with output := c.output ++ xs.flatMap f } := by
  induction xs generalizing c with
  | nil =>
    rw [List.flatMap_nil, List.append_nil]
    rfl
  | cons x rest ih =>
    have first : (print (f x)).run c = .ok () { c with output := c.output ++ f x } := rfl
    have others : ((x :: rest).forM fun x => print (f x)) =
        print (f x) >>= fun _ => rest.forM fun x => print (f x) := rfl
    rw [others, EStateM.run_bind, first]
    dsimp only
    rw [ih, List.flatMap_cons, List.append_assoc]

end Printing

namespace Setup

def mode (s : Setup) : Render.PathMode :=
  if s.words.isOn "fullpath" false then .absolute else .given

def prettyOptions (s : Setup) : Render.PrettyOptions :=
  ⟨s.colors, s.mode, s.words.isOn "with-notes" true,
    s.settings.source && !s.words.isOn "no-source" false⟩

def reportOptions (s : Setup) : Render.ReportOptions :=
  ⟨s.mode, 0, s.words.isOn "with-notes" true⟩

/-- The format that is asked for. -/
def format (s : Setup) : Text :=
  let chosen := Text.lower ((s.words.word? "format").getD [])
  if chosen.isEmpty then s.settings.format else chosen

def inFormat (s : Setup) (format : String) : Setup :=
  { s with words := { s.words with
      given := s.words.given ++ [("format", .word (text format))] } }

variable (s : Setup) (format : String)

theorem find?_inFormat {name : String} (other : "format" ≠ name) :
    (s.inFormat format).words.find? name = s.words.find? name := by
  simp [inFormat, Words.find?, other]

theorem isOn_inFormat {name : String} (other : "format" ≠ name) (byItself : Bool) :
    (s.inFormat format).words.isOn name byItself = s.words.isOn name byItself := by
  rw [Words.isOn, find?_inFormat s format other, Words.isOn]

theorem options_inFormat : (s.inFormat format).options = s.options := by
  have on (name : String) (other : "format" ≠ name) := isOn_inFormat s format other false
  rw [options, on "warn-shadow" (by decide), on "warn-redefine" (by decide),
    on "timings" (by decide)]
  rfl

theorem mode_inFormat : (s.inFormat format).mode = s.mode := by
  rw [mode, isOn_inFormat s format (by decide), mode]

theorem prettyOptions_inFormat : (s.inFormat format).prettyOptions = s.prettyOptions := by
  rw [prettyOptions, mode_inFormat, isOn_inFormat s format (by decide),
    isOn_inFormat s format (by decide)]
  rfl

theorem reportOptions_inFormat : (s.inFormat format).reportOptions = s.reportOptions := by
  rw [reportOptions, mode_inFormat, isOn_inFormat s format (by decide)]
  rfl

theorem format_inFormat {format : String} (lower : Text.lower (text format) = text format)
    (given : (text format).isEmpty = false) : (s.inFormat format).format = text format := by
  have chosen : (s.inFormat format).words.word? "format" = some (text format) := by
    simp [inFormat, Words.word?, Words.find?]
  rw [Setup.format, chosen]
  simp [lower, given]

end Setup

def filesOf (shared : Shared) (c : Console) : Render.Files :=
  ⟨some shared.files, c.disk.cwdPath⟩

theorem runCheck_prints {s : Setup} {c : Console} {paths : List Text} {results : List Result}
    {shared : Shared} (known : Settings.formats.contains s.format)
    (inputs : listInputs c.disk s.words.arguments = .ok paths) (given : paths ≠ [])
    (checked : checkFiles s.options c.disk .fresh paths = .ok (results, shared)) :
    printed (runCheck s) c = c.output ++
      if s.format == text "pretty" then
        results.flatMap fun r => listing s.prettyOptions (filesOf shared c) r.bag
      else (combinedReport s.reportOptions (filesOf shared c) results).lines := by
  have last (d : Console) : printed (do
      if !((s.words.word? "snapshot").getD []).isEmpty then
        writeSnapshots ((s.words.word? "snapshot").getD []) shared results
      failOnErrors (results.map (·.bag))) d = d.output := by
    dsimp only
    split
    · exact Silent.bind (writeSnapshots_silent _ _ _) (fun _ => failOnErrors_silent _) d
    · exact failOnErrors_silent _ d
  have valid : ¬(!Settings.formats.contains s.format) = true := by
    rw [known]
    decide
  have some : ¬paths.isEmpty = true := fun none => given (List.isEmpty_iff.mp none)
  have here : (get : Run Console).run c = .ok c c := rfl
  have found : (orFail .noInput (listInputs c.disk s.words.arguments)).run c = .ok paths c := by
    rw [inputs]
    rfl
  have checks : (orFail .unchecked (checkFiles s.options c.disk .fresh paths)).run c =
      .ok (results, shared) c := by
    rw [checked]
    rfl
  unfold runCheck
  refine (printed_accepted valid).trans ?_
  refine (printed_bind here).trans ?_
  refine (printed_bind found).trans ?_
  refine (printed_accepted some).trans ?_
  refine (printed_bind checks).trans ?_
  by_cases pretty : s.format == text "pretty"
  · rw [if_pos pretty]
    refine (congrArg (fun x => printed x c) (if_pos pretty)).trans ?_
    exact (printed_bind (run_print_each _ results c)).trans (last _)
  · rw [if_neg pretty]
    refine (congrArg (fun x => printed x c) (if_neg pretty)).trans ?_
    let report := (combinedReport s.reportOptions (filesOf shared c) results).lines
    have reports : (print report).run c = .ok () { c with output := c.output ++ report } := rfl
    exact (printed_bind reports).trans (last _)

section Formats

variable {s : Setup} {c : Console} {paths : List Text} {results : List Result} {shared : Shared}
  (inputs : listInputs c.disk s.words.arguments = .ok paths) (given : paths ≠ [])
  (checked : checkFiles s.options c.disk .fresh paths = .ok (results, shared))

include inputs given checked

theorem inFormat_prints {format : String} (known : Settings.formats.contains (text format))
    (lower : Text.lower (text format) = text format) (word : (text format).isEmpty = false) :
    printed (runCheck (s.inFormat format)) c = c.output ++
      if text format == text "pretty" then
        results.flatMap fun r => listing s.prettyOptions (filesOf shared c) r.bag
      else (combinedReport s.reportOptions (filesOf shared c) results).lines := by
  have chosen := s.format_inFormat lower word
  have valid : Settings.formats.contains (s.inFormat format).format := chosen.symm ▸ known
  have same : checkFiles (s.inFormat format).options c.disk .fresh paths = .ok (results, shared) :=
    s.options_inFormat format ▸ checked
  rw [runCheck_prints valid inputs given same, chosen, s.prettyOptions_inFormat,
    s.reportOptions_inFormat]

theorem prints_pretty : printed (runCheck (s.inFormat "pretty")) c = c.output ++
    results.flatMap fun r => listing s.prettyOptions (filesOf shared c) r.bag :=
  inFormat_prints inputs given checked (by decide) (by decide) (by decide)

theorem prints_report : printed (runCheck (s.inFormat "json")) c = c.output ++
    (combinedReport s.reportOptions (filesOf shared c) results).lines :=
  inFormat_prints inputs given checked (by decide) (by decide) (by decide)

end Formats

theorem checkFiles_paths {o : Options} {disk : Disk} {s after : Shared} {paths : List Text}
    {results : List Result} (checked : checkFiles o disk s paths = .ok (results, after)) :
    results.map (·.path) = paths.map Path.clean := by
  induction paths generalizing s results with
  | nil =>
    cases checked
    rfl
  | cons path rest ih =>
    simp only [checkFiles, bind, Except.bind] at checked
    split at checked
    · cases checked
    next outcome first =>
    split at checked
    · cases checked
    next outcomes others =>
    cases checked
    obtain ⟨_, bytes, _, same, _⟩ := checkFile_ok first
    rw [List.map_cons, List.map_cons, ih others, same, checkSource_path, sourceAt_path]

/-! ### One file in two spellings -/

def spelledTwice : Setup :=
  ⟨{ arguments := [text "t.yaml", text "./t.yaml"] }, {}, false⟩

def spellings : List Text :=
  [text "./t.yaml", text "t.yaml"]

theorem spelledTwice_inputs :
    listInputs unknownNameDisk spelledTwice.words.arguments = .ok spellings := by
  cbv

theorem spellings_read {path : Text} (given : path ∈ spellings) :
    unknownNameDisk.read path = .ok unknownName ∧
      sourceAt .fresh path unknownName = unknownNameSource := by
  rcases List.mem_pair.mp given with rfl | rfl
  · exact ⟨rfl, rfl⟩
  · exact ⟨rfl, rfl⟩

theorem spellings_checked : ∃ first second shared,
    checkFiles spelledTwice.options unknownNameDisk .fresh spellings =
      .ok ([first, second], shared) ∧
    first.bag.items.size = 1 ∧ second.bag.items.size = 1 ∧ first.path = second.path := by
  have each {path : Text} (given : path ∈ spellings) := unknownName_checked
    (o := spelledTwice.options) rfl Bool.false_ne_true Bool.false_ne_true rfl (fun _ => rfl)
    (spellings_read given).1 (spellings_read given).2
  have size {last : Interner} {path : Text} {r : Result} (given : path ∈ spellings)
      (alone : Alone spelledTwice.options unknownNameDisk .fresh last path r) :
      r.bag.items.size = 1 := by
    obtain ⟨plain, _, checked, one⟩ := each given
    obtain ⟨_, _, _, same, _, alike⟩ := alone
    cases checked.symm.trans same
    rw [alike.bag.size_eq, one]
  obtain ⟨results, shared, checked, _, alone⟩ := checkFiles_alone (o := spelledTwice.options) rfl
    nofun (u := .fresh) Interner.fresh_sound (fun path given => ⟨_, (spellings_read given).1⟩)
    (s := .fresh) Interner.fresh_sound
  obtain ⟨first, _, one, later, rfl⟩ := List.forall₂_cons_left_iff.mp alone
  obtain ⟨second, _, two, none, rfl⟩ := List.forall₂_cons_left_iff.mp later
  cases none
  -- Both spellings have the same cleaned path.
  have cleaned : spellings.map Path.clean = [text "t.yaml", text "t.yaml"] := by decide
  obtain ⟨path, tail⟩ := List.cons.inj ((checkFiles_paths checked).trans cleaned)
  obtain ⟨path', _⟩ := List.cons.inj tail
  exact ⟨first, second, shared, checked, size (by decide) one, size (by decide) two,
    path.trans path'.symm⟩

def unknownNameConsole : Console :=
  { disk := unknownNameDisk }

/-! ### The two formats of a check -/

/-- A check whose inputs can all be read prints in the one format the listings of all results, and
in the other the report of the last result of every path. So the report counts as many diagnostics
as are listed, and gives the same ones equally often, exactly if only the last result of each path
has any; this is so if no two inputs are the same path in different spellings. -/
theorem formats_report_what_is_not_hidden (s : Setup) (c : Console) (paths : List Text)
    (inputs : listInputs c.disk s.words.arguments = .ok paths) (given : paths ≠ [])
    (readable : ∀ path ∈ paths, ∃ bytes, c.disk.read path = .ok bytes) :
    ∃ (results : List Result) (shared : Shared) (doc : JsonValue),
      checkFiles s.options c.disk .fresh paths = .ok (results, shared) ∧
      results.map (·.path) = paths.map Path.clean ∧
      printed (runCheck (s.inFormat "pretty")) c = c.output ++ results.flatMap (fun r =>
        listing s.prettyOptions (filesOf shared c) r.bag) ∧
      printed (runCheck (s.inFormat "json")) c = c.output ++ doc.lines ∧
      (doc.counted = (diagnosticsOf results).length ↔ Unhidden results) ∧
      (doc.listed.Perm ((diagnosticsOf results).map
        (Render.diagnosticValue s.reportOptions (filesOf shared c))) ↔ Unhidden results) ∧
      ((paths.map Path.clean).Nodup → Unhidden results) := by
  obtain ⟨results, shared, checked, _⟩ := checkFiles_alone (o := s.options) rfl nofun
    (u := .fresh) Interner.fresh_sound readable (s := .fresh) Interner.fresh_sound
  let files := filesOf shared c
  have paths_eq := checkFiles_paths checked
  have counted : (combinedReport s.reportOptions files results).counted = _ :=
    combinedReport_counted rfl files
  have listed : (combinedReport s.reportOptions files results).listed.Perm _ :=
    combinedReport_listed rfl files
  refine ⟨results, shared, combinedReport s.reportOptions files results, checked, paths_eq,
    prints_pretty inputs given checked, prints_report inputs given checked, ?_, ?_, ?_⟩
  · rw [counted, Nat.cast_inj, length_diagnosticsOf_lasts_eq]
  · constructor
    · intro same
      have lengths := (listed.symm.trans same).length_eq
      rw [List.length_map, List.length_map] at lengths
      exact length_diagnosticsOf_lasts_eq.mp lengths
    · intro unhidden
      rwa [diagnosticsOf_lasts unhidden] at listed
  · intro distinct
    exact unhidden_of_nodup (paths_eq ▸ distinct)

theorem formats_of_spelledTwice :
    listInputs unknownNameConsole.disk spelledTwice.words.arguments = .ok spellings ∧
    spellings ≠ [] ∧ (∀ path ∈ spellings, ∃ bytes, unknownNameConsole.disk.read path = .ok bytes) ∧
    ∃ (results : List Result) (shared : Shared) (doc : JsonValue),
      checkFiles spelledTwice.options unknownNameConsole.disk .fresh spellings =
        .ok (results, shared) ∧
      results.map (·.path) = spellings.map Path.clean ∧
      printed (runCheck (spelledTwice.inFormat "pretty")) unknownNameConsole =
        unknownNameConsole.output ++ results.flatMap (fun r =>
          listing spelledTwice.prettyOptions (filesOf shared unknownNameConsole) r.bag) ∧
      printed (runCheck (spelledTwice.inFormat "json")) unknownNameConsole =
        unknownNameConsole.output ++ doc.lines ∧
      (doc.counted = (diagnosticsOf results).length ↔ Unhidden results) ∧
      (doc.listed.Perm ((diagnosticsOf results).map (Render.diagnosticValue
        spelledTwice.reportOptions (filesOf shared unknownNameConsole))) ↔ Unhidden results) ∧
      ((spellings.map Path.clean).Nodup → Unhidden results) :=
  have readable (path : Text) (given : path ∈ spellings) :
      ∃ bytes, unknownNameConsole.disk.read path = .ok bytes :=
    ⟨unknownName, (spellings_read given).1⟩
  ⟨spelledTwice_inputs, List.cons_ne_nil _ _, readable,
    formats_report_what_is_not_hidden spelledTwice unknownNameConsole spellings spelledTwice_inputs
      (List.cons_ne_nil _ _) readable⟩

/-- Of a file that is given in two spellings the listing shows the diagnostic twice, the report
counts it once. -/
theorem second_spelling_hides_first :
    ∃ (results : List Result) (shared : Shared) (doc : JsonValue),
      checkFiles spelledTwice.options unknownNameDisk .fresh spellings = .ok (results, shared) ∧
      printed (runCheck (spelledTwice.inFormat "pretty")) unknownNameConsole =
        results.flatMap (fun r =>
          listing spelledTwice.prettyOptions (filesOf shared unknownNameConsole) r.bag) ∧
      printed (runCheck (spelledTwice.inFormat "json")) unknownNameConsole = doc.lines ∧
      (diagnosticsOf results).length = 2 ∧ doc.counted = 1 := by
  obtain ⟨first, second, shared, checked, one, two, same⟩ := spellings_checked
  have inputs : listInputs unknownNameConsole.disk spelledTwice.words.arguments = .ok spellings :=
    spelledTwice_inputs
  have given : spellings ≠ [] := List.cons_ne_nil _ _
  have shown : lasts [first, second] = [second] :=
    (lasts_of_later ⟨second, List.mem_singleton_self _, same.symm⟩).trans
      (lasts_of_last (by simp))
  have empty : unknownNameConsole.output = [] := rfl
  have pretty := prints_pretty inputs given checked
  have report := prints_report inputs given checked
  rw [empty, List.nil_append] at pretty report
  refine ⟨[first, second], shared, _, checked, pretty, report, ?_, ?_⟩
  · rw [length_diagnosticsOf_cons, length_diagnosticsOf_cons, one, two]
    rfl
  · rw [combinedReport_counted rfl, shown, length_diagnosticsOf_cons, two]
    rfl

end Command

end TreeCheck
