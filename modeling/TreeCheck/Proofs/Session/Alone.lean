import TreeCheck.Proofs.Check.Alike
import TreeCheck.Proofs.Load.Histories
import TreeCheck.Proofs.Session.Said

/-!
Results stand alone. What a file is read as and what its check finds out depends neither on the
texts that were interned before nor on the number of the file; so a file of a run has the result
that it has when it is checked alone, up to handles and file numbers.
-/

namespace TreeCheck

/-! ### Positions in two files -/

theorem Likeness.between_ordered (names names' : Interner) (file file' : Nat) :
    (Likeness.between names names' file file').Ordered where
  unique := by
    rintro ⟨_, line, col⟩ ⟨_, line', col'⟩ ⟨_, _, _⟩ ⟨_, _, _⟩ ⟨rfl, rfl, rfl, rfl⟩
      ⟨rfl, rfl, rfl, rfl⟩
    simp
  before := by
    rintro ⟨_, line, col⟩ ⟨_, line', col'⟩ ⟨_, _, _⟩ ⟨_, _, _⟩ ⟨rfl, rfl, rfl, rfl⟩
      ⟨rfl, rfl, rfl, rfl⟩
    simp [Span.before]

namespace Session

variable {names names' : Interner}

/-! ### The check of one source file -/

/-- The passes over the trees of a source file, read under two interners and under two numbers, come
to their ends and find out the same. -/
theorem pass_alike (warnings : Check.Options) (f : SourceFile) (id : Nat) (sound : names.Sound)
    (sound' : names'.Sound) :
    ∃ s s',
      (Check.tree ⟨(Load.ofFile f names).names, warnings⟩ (Load.ofFile f names).tree).run
        (.start .fresh) = .ok () s ∧
      (Check.tree ⟨(Load.ofFile { f with id } names').names, warnings⟩
        (Load.ofFile { f with id } names').tree).run (.start .fresh) = .ok () s' ∧
      s.Alike (.between (Load.ofFile f names).names (Load.ofFile { f with id } names').names f.id
        id) s' := by
  have after := (Load.ofFile_extends f names).2 sound
  have after' := (Load.ofFile_extends { f with id } names').2 sound'
  have consistent := Likeness.between_consistent f.id id after after'
  have fresh := Context.fresh_alike consistent fun h known =>
    Likeness.between_fresh f.id id after after' (by revert h; decide)
  obtain ⟨s, ends, _⟩ := pass_ends warnings f names
  obtain ⟨s', ends', _⟩ := pass_ends warnings { f with id } names'
  have conform := Check.tree_conform (Check.alike_steps consistent warnings)
    ⟨fun ⟨inner⟩ => inner, .layer⟩ (Load.ofFile_alike f id sound sound').nodes _ _ (.start fresh)
  rw [ends, ends'] at conform
  cases conform with
  | ok _ alike => exact ⟨s, s', ends, ends', alike⟩

structure Result.Alike (l : Likeness) (r r' : Result) : Prop where
  path_eq : r.path = r'.path
  tree_path_eq : r.tree.path = r'.tree.path
  nodes : List.Forall₂ (Option.Rel (Node.Alike l)) r.tree.nodes r'.tree.nodes
  bag : r.bag.Alike l r'.bag
  context : Option.Rel (Context.Alike l) r.context r'.context
  checked : Option.Rel (Check.State.Alike l) r.checked r'.checked
  stopwatch_eq : r.stopwatch = r'.stopwatch
  aborted_eq : r.aborted = r'.aborted

theorem withTimings_alike {l : Likeness} {b c : Bag} (alike : b.Alike l c) {d e : Diagnostic}
    (told : d.Alike l e) : (withTimings b d).Alike l (withTimings c e) := by
  have single : ((Bag.empty 0).add d).Alike l ((Bag.empty 0).add e) :=
    Bag.Alike.add ⟨.nil, rfl, rfl⟩ told
  unfold withTimings
  rw [alike.isFull_eq]
  split
  · exact (alike.add told).merge single
  · exact alike.add told

theorem finishBag_alike (o : Options) (file file' : Nat) (w : Stopwatch) {ds es : List Diagnostic}
    (told : List.Forall₂ (Diagnostic.Alike (.between names names' file file')) ds es) :
    (finishBag o file w ds).Alike (.between names names' file file') (finishBag o file' w es) := by
  have ordered := Likeness.between_ordered names names' file file'
  have empty : (Bag.empty o.limit).Alike (.between names names' file file') (.empty o.limit) :=
    ⟨.nil, rfl, rfl⟩
  have bag := ((empty.addAll told).dedup ordered).sort ordered
  unfold finishBag
  dsimp only
  split
  · refine withTimings_alike bag ⟨rfl, rfl, rfl, ⟨rfl, rfl, rfl, rfl⟩, ?_⟩
    exact .cons ⟨rfl, .inr ⟨rfl, rfl⟩⟩ .nil
  · exact bag

theorem checkSource_alike {o : Options} (standard : o.pass = Check.tree) (f : SourceFile) (id : Nat)
    (sound : names.Sound) (sound' : names'.Sound) :
    (checkSource o f names).1.Alike
      (.between (Load.ofFile f names).names (Load.ofFile { f with id } names').names f.id id)
      (checkSource o { f with id } names').1 := by
  obtain ⟨path_eq, nodes, diagnostics, failure_eq⟩ := Load.ofFile_alike f id sound sound'
  obtain ⟨s, s', ends, ends', alike⟩ := pass_alike o.warnings f id sound sound'
  unfold checkSource
  dsimp only
  rw [← failure_eq]
  cases (Load.ofFile f names).failure with
  | none =>
    have told := List.rel_append diagnostics alike.emitted
    simp only [passed, standard, ends, ends', alike.ctx.last_eq, nodes.length_eq]
    exact ⟨rfl, path_eq, nodes, finishBag_alike o _ _ _ told, .some alike.ctx, .some alike, rfl,
      rfl⟩
  | some failure =>
    have unreadable (message : Text) := List.rel_append diagnostics (.cons
      (.error .malformed (⟨rfl, rfl, rfl, rfl⟩ : (Likeness.between (Load.ofFile f names).names
        (Load.ofFile { f with id } names').names f.id id).span ⟨f.id, 0, 0⟩ ⟨id, 0, 0⟩)
        (rfl : message = message)) .nil)
    cases failure with
    | malformed path count =>
      exact ⟨rfl, path_eq, nodes, finishBag_alike o _ _ _ diagnostics, .none, .none, rfl, rfl⟩
    | noFile | syntaxFault =>
      exact ⟨rfl, path_eq, nodes, finishBag_alike o _ _ _ (unreadable _), .none, .none, rfl, rfl⟩

/-! ### Files of a run -/

theorem get?_add (files : FileSet) (path content : Text) (flags : UInt8) :
    (files.add path content flags).2.get? (files.add path content flags).1 =
      some ⟨files.files.length + 1, Path.clean path, content, flags⟩ :=
  List.getElem?_concat_length

theorem addRead_eq (path bytes : Text) : ∃ content flags, ∀ files : FileSet,
    files.addRead path bytes = files.add path content flags := by
  unfold FileSet.addRead
  cases Text.dropLead? FileSet.byteOrderMark bytes with
  | some rest => dsimp only; split <;> exact ⟨_, _, fun _ => rfl⟩
  | none => dsimp only; split <;> exact ⟨_, _, fun _ => rfl⟩

/-- What the contents at a path become depends on the files before in nothing but the number. -/
theorem sourceAt_eq (s t : Shared) (path bytes : Text) :
    sourceAt t path bytes = { sourceAt s path bytes with id := (sourceAt t path bytes).id } := by
  obtain ⟨content, flags, added⟩ := addRead_eq path bytes
  have source (u : Shared) : sourceAt u path bytes =
      ⟨u.files.files.length + 1, Path.clean path, content, flags⟩ := by
    rw [sourceAt, added]
    dsimp only
    rw [get?_add]
    rfl
  rw [source, source]

theorem get?_sourceAt (s : Shared) (path bytes : Text) :
    (s.reading path bytes).files.get? (sourceAt s path bytes).id =
      some (sourceAt s path bytes) := by
  obtain ⟨content, flags, added⟩ := addRead_eq path bytes
  have filed := get?_add s.files path content flags
  rw [Shared.reading, sourceAt, added]
  dsimp only
  rw [filed]
  exact filed

structure Shared.Extends (s t : Shared) : Prop where
  files : s.files.files <+: t.files.files
  names : s.names.names <+: t.names.names

theorem Shared.Extends.refl (s : Shared) : s.Extends s :=
  ⟨List.prefix_refl _, List.prefix_refl _⟩

theorem Shared.Extends.trans {s t u : Shared} (first : s.Extends t) (second : t.Extends u) :
    s.Extends u :=
  ⟨first.files.trans second.files, first.names.trans second.names⟩

theorem Shared.Extends.get? {s t : Shared} (grown : s.Extends t) {id : Nat} {f : SourceFile}
    (found : s.files.get? id = some f) : t.files.get? id = some f := by
  obtain ⟨more, same⟩ := grown.files
  cases id with
  | zero => cases found
  | succ n =>
    rw [FileSet.get?] at found ⊢
    rw [← same, List.getElem?_append_left (List.getElem?_eq_some_iff.mp found).1, found]

theorem Shared.extends_reading (s : Shared) (path bytes : Text) :
    s.Extends (s.reading path bytes) := by
  obtain ⟨content, flags, added⟩ := addRead_eq path bytes
  refine ⟨?_, (Load.ofFile_extends _ _).1⟩
  rw [Shared.reading, added]
  exact List.prefix_append _ _

/-- The result is the one that the file at the path has when it is checked alone, up to file numbers
and handles. Handles of the result are those of some interner that was only added to since. -/
def Alone (o : Options) (disk : Disk) (u : Shared) (last : Interner) (path : Text)
    (result : Result) : Prop :=
  ∃ alone after names, checkFile o disk u path = .ok (alone, after) ∧
    names.names <+: last.names ∧
    result.Alike (.between names after.names result.file alone.file) alone

theorem Alone.later {o : Options} {disk : Disk} {u : Shared} {last later : Interner} {path : Text}
    {result : Result} (alone : Alone o disk u last path result)
    (grown : last.names <+: later.names) : Alone o disk u later path result := by
  obtain ⟨other, after, names, checked, before, alike⟩ := alone
  exact ⟨other, after, names, checked, before.trans grown, alike⟩

theorem checkSource_file (o : Options) (f : SourceFile) (names : Interner) :
    (checkSource o f names).1.file = f.id := by
  unfold checkSource
  dsimp only
  split
  · rfl
  · unfold passed
    dsimp only
    split <;> rfl

theorem checkFile_alone {o : Options} (standard : o.pass = Check.tree) (going : ¬o.canceled)
    {disk : Disk} {path bytes : Text} (read : disk.read path = .ok bytes) {s u : Shared}
    (sound : s.names.Sound) (sound' : u.names.Sound) :
    Alone o disk u (s.reading path bytes).names path
      (checkSource o (sourceAt s path bytes) s.names).1 := by
  refine ⟨_, _, _, checkFile_eq going read u, List.prefix_refl _, ?_⟩
  have alike := checkSource_alike standard (sourceAt s path bytes) (sourceAt u path bytes).id sound
    sound'
  rw [← sourceAt_eq] at alike
  rw [checkSource_file, checkSource_file]
  exact alike

/-- The file at a path was read and checked at some point of a run, with this result; what the run
shared then has been kept. -/
def Drawn (o : Options) (disk : Disk) (now : Shared) (path : Text) (result : Result) : Prop :=
  ∃ s bytes, s.names.Sound ∧ disk.read path = .ok bytes ∧
    result = (checkSource o (sourceAt s path bytes) s.names).1 ∧
    (s.reading path bytes).Extends now

theorem Drawn.later {o : Options} {disk : Disk} {now later : Shared} {path : Text}
    {result : Result} (drawn : Drawn o disk now path result) (grown : now.Extends later) :
    Drawn o disk later path result := by
  obtain ⟨s, bytes, sound, read, same, kept⟩ := drawn
  exact ⟨s, bytes, sound, read, same, kept.trans grown⟩

theorem Drawn.alone {o : Options} (standard : o.pass = Check.tree) (going : ¬o.canceled)
    {disk : Disk} {now : Shared} {path : Text} {result : Result}
    (drawn : Drawn o disk now path result) {u : Shared} (sound' : u.names.Sound) :
    Alone o disk u now.names path result := by
  obtain ⟨s, bytes, sound, read, rfl, kept⟩ := drawn
  exact (checkFile_alone standard going read sound sound').later kept.names

theorem checkFiles_alone {o : Options} (standard : o.pass = Check.tree) (going : ¬o.canceled)
    {disk : Disk} {u : Shared} (sound' : u.names.Sound) {paths : List Text}
    (readable : ∀ path ∈ paths, ∃ bytes, disk.read path = .ok bytes) {s : Shared}
    (sound : s.names.Sound) :
    ∃ results after, checkFiles o disk s paths = .ok (results, after) ∧
      s.names.names <+: after.names.names ∧
      List.Forall₂ (Alone o disk u after.names) paths results := by
  induction paths generalizing s with
  | nil => exact ⟨[], s, rfl, List.prefix_refl _, .nil⟩
  | cons path rest ih =>
    obtain ⟨bytes, read⟩ := readable path List.mem_cons_self
    have grows := Load.ofFile_extends (sourceAt s path bytes) s.names
    obtain ⟨results, after, checked, grown, alone⟩ := ih
      (fun path member => readable path (List.mem_cons_of_mem _ member))
      (s := s.reading path bytes) (grows.2 sound)
    refine ⟨_ :: results, after, ?_, grows.1.trans grown,
      .cons ((checkFile_alone standard going read sound sound').later grown) alone⟩
    simp only [checkFiles, checkFile_eq going read s, bind, Except.bind, checked]
    rfl

end Session

end TreeCheck
