import TreeCheck.Proofs.Check.Coverage
import TreeCheck.Proofs.Session.Parallel
import TreeCheck.Snapshot

/-!
Snapshots are self-contained. Every handle in the tables of a snapshot is one of its own strings: a
name that the checked document gives, in its normal form, or the name of a built-in type. The check
of a file brings no other handles into its tables than those of the declarations and definitions in
its tree, these are the names that the document gives, and a handle keeps its name whatever is read
afterwards.
-/

namespace TreeCheck

namespace Snapshot

def builtinNames : List (Handle × Text) :=
  [(.int, text "int"), (.float, text "float"), (.bool, text "bool"), (.string, text "string"),
    (.nil, text "nil")]

/-- The handle is that of a string of the snapshot, and not the absent name. -/
def Knows (snap : Snapshot) (h : Handle) : Prop :=
  h ≠ .none ∧ h < snap.strings.length

/-- The snapshot knows the handle, and its name is the normal form of the one that the document of
the file gives at the position. -/
structure Names (snap : Snapshot) (f : SourceFile) (h : Handle) (p : Span) : Prop where
  known : snap.Knows h
  given : ∃ d n s, Yaml.Document.read f.content = .ok (some d) ∧ d.Has n ∧
    p = Load.Source.spanOf ⟨f.id, d⟩ n ∧ Load.GivesName n s ∧ snap.name h = Text.normal s.value

/-- The name is declared by a node of the tree, and the document gives it there. -/
def Declared (snap : Snapshot) (f : SourceFile) (t : Tree) (h : Handle) : Prop :=
  ∃ n ∈ t.visits, ∃ p, (h, p) ∈ n.declares ∧ snap.Names f h p

/-- The name is that of an object type which a node of the tree defines, and the document gives it
there. -/
def Defined (snap : Snapshot) (f : SourceFile) (t : Tree) (h : Handle) : Prop :=
  ∃ n ∈ t.visits, ∃ p, n.defines? = some (h, p) ∧ snap.Names f h p

/-- What is said of the things in the tables: bound names are declared in the document, and types
are registered under built-in names and names that are defined there; wherever there is the name of
an object type inside a type, in whatever payload, it is defined there too. -/
def traits (snap : Snapshot) (f : SourceFile) (t : Tree) : Traits where
  type ty := ∀ part : Ty, part.Inside ty → ∀ o, part.object? = some o → snap.Defined f t o.name
  bound h := snap.Declared f t h
  registered h := (snap.Knows h ∧ (h, snap.name h) ∈ builtinNames) ∨ snap.Defined f t h

/-- No string of the snapshot stands twice, and its tables have no handles but names of the document
and of built-in types. -/
structure SelfContained (snap : Snapshot) (f : SourceFile) (t : Tree) : Prop where
  distinct : snap.strings.Nodup
  tables : snap.tables.Bear (snap.traits f t)

variable {snap : Snapshot} {f : SourceFile} {t : Tree}

/-! ### Names and strings -/

theorem name_of_find? {names : Interner} (strings : snap.strings = names.names) {h : Handle}
    {text : Text} (found : names.find? h = some text) :
    h < snap.strings.length ∧ snap.name h = text := by
  rw [Interner.find?] at found
  rw [name, strings, List.getD_eq_getElem?_getD, found]
  exact ⟨(List.getElem?_eq_some_iff.mp found).1, rfl⟩

theorem names_of_source {names last : Interner} {d : Yaml.Document} {h : Handle} {p : Span}
    (read : Yaml.Document.read f.content = .ok (some d)) (sound : last.Sound)
    (grown : names.names <+: last.names) (strings : snap.strings = last.names)
    (written : Load.Source.Names ⟨f.id, d⟩ names h p) : snap.Names f h p := by
  obtain ⟨n, s, has, place, gives, given, found⟩ := written
  have kept := Interner.find?_of_prefix grown found
  obtain ⟨within, same⟩ := name_of_find? strings kept
  refine ⟨⟨?_, within⟩, d, n, s, read, has, place, gives, same⟩
  rintro rfl
  have empty : last.find? .none = some [] :=
    Interner.find?_of_prefix sound.start (rfl : Interner.fresh.find? .none = some [])
  exact Text.normal_ne_nil given (Option.some.inj (kept.symm.trans empty))

theorem ofResult?_of_context {r : Session.Result} {ctx : Context} (present : r.context = some ctx)
    (ended : r.aborted = none) (s : Session.Shared) : ∃ snap, ofResult? r s = some snap ∧
      snap.strings = s.names.names ∧ snap.tables = ctx.tables := by
  rw [ofResult?, present, ended]
  exact ⟨_, rfl, rfl, rfl⟩

/-! ### The tables of a check -/

theorem traits_suit
    (named : ∀ n ∈ t.visits, ∀ h p, (h, p) ∈ n.declares ∨ n.defines? = some (h, p) →
      snap.Names f h p) : (snap.traits f t).Suits (· ∈ t.visits) where
  ofKind _ := by
    intro part inside o payload
    rw [inside.of_ofKind] at payload
    cases payload
  vector elem := by
    intro part inside o payload
    rcases inside.of_vector with rfl | inner
    · cases payload
    · exact elem part inner o payload
  lambda result args := by
    intro part inside o payload
    rcases inside.of_lambda with rfl | inner | ⟨arg, member, inner⟩
    · cases payload
    · exact result part inner o payload
    · exact args arg member part inner o payload
  inside whole part := fun inner deeper => whole inner (deeper.trans part)
  declared node said := ⟨_, node, _, said, named _ node _ _ (.inl said)⟩
  defined node said := .inr ⟨_, node, _, said, named _ node _ _ (.inr said)⟩
  object node said above := by
    intro part inside o payload
    rcases inside.of_object with rfl | ⟨super, member, inner⟩
    · cases payload
      exact ⟨_, node, _, said, named _ node _ _ (.inr said)⟩
    · exact above super member part inner o payload

theorem fresh_bear {last : Interner} (sound : last.Sound) (strings : snap.strings = last.names) :
    Context.fresh.tables.Bear (snap.traits f t) where
  globals _ member := absurd member List.not_mem_nil
  scopes _ member := absurd member List.not_mem_nil
  types := by
    intro entry member
    have builtin : ∃ text k, (entry.1, text) ∈ builtinNames ∧ entry.1 ≠ Handle.none ∧
        Interner.fresh.find? entry.1 = some text ∧ entry.2 = .ofKind k := by
      have all : ∀ entry ∈ Context.builtinTypes, ∃ text k, (entry.1, text) ∈ builtinNames ∧
          entry.1 ≠ Handle.none ∧ Interner.fresh.find? entry.1 = some text ∧
          entry.2 = .ofKind k := by
        simp only [Context.builtinTypes, List.forall_mem_cons]
        refine ⟨⟨text "int", .integer, ?_⟩, ⟨text "float", .float, ?_⟩, ⟨text "bool", .boolean, ?_⟩,
          ⟨text "string", .string, ?_⟩, ⟨text "nil", .nil, ?_⟩,
          List.forall_mem_nil _⟩
        all_goals exact ⟨by decide, by decide, by decide, rfl⟩
      exact all entry member
    obtain ⟨text, k, listed, valid, found, same⟩ := builtin
    obtain ⟨within, shown⟩ :=
      name_of_find? strings (Interner.find?_of_prefix sound.start found)
    refine ⟨.inl ⟨⟨valid, within⟩, shown ▸ listed⟩, fun part inside o payload => ?_⟩
    rw [same] at inside
    rw [inside.of_ofKind] at payload
    cases payload

end Snapshot

namespace Session

/-! ### Source files -/

theorem checkSource_bear {o : Options} (standard : o.pass = Check.tree) {f : SourceFile}
    {names last : Interner} {snap : Snapshot} (sound : last.Sound)
    (grown : (Load.ofFile f names).names.names <+: last.names)
    (strings : snap.strings = last.names) {ctx : Context}
    (begun : (checkSource o f names).1.context = some ctx) :
    ctx.tables.Bear (snap.traits f (checkSource o f names).1.tree) := by
  unfold checkSource at begun ⊢
  dsimp only at begun ⊢
  cases reading : (Load.ofFile f names).failure with
  | some failure =>
    rw [reading] at begun
    cases begun
  | none =>
    obtain ⟨s, ends, -⟩ := pass_ends o.warnings f names
    simp only [reading, passed, standard, ends, Option.some.injEq] at begun ⊢
    subst begun
    have origins : (∀ n ∈ (Load.ofFile f names).tree.visits, ∀ h p,
          (h, p) ∈ n.declares ∨ n.defines? = some (h, p) → snap.Names f h p) ∧
        ∀ n ∈ (Load.ofFile f names).tree.visits, ∀ a ∈ n.accessors,
          a.isField = true → a.args = [] := by
      rcases Load.ofFile_cases f names with ⟨d, read, source⟩ | ⟨blank, -⟩
      · refine ⟨fun n member h p said => ?_, source.bare⟩
        exact Snapshot.names_of_source read sound grown strings
          (source.names reading n member h p said)
      · rw [blank]
        exact ⟨List.forall_mem_nil _, List.forall_mem_nil _⟩
    have suits := Snapshot.traits_suit origins.1
    have start : (Check.State.start .fresh).Bears (snap.traits f (Load.ofFile f names).tree) :=
      ⟨Snapshot.fresh_bear sound strings, List.forall_mem_nil _⟩
    exact (Check.tree_accounts _ suits origins.2 _ start _ _ ends).2.1.1

/-! ### Files of a run -/

theorem checkFiles_drawn {o : Options} {disk : Disk} {paths : List Text} {s after : Shared}
    {results : List Result} (checked : checkFiles o disk s paths = .ok (results, after))
    (sound : s.names.Sound) :
    s.Extends after ∧ after.names.Sound ∧ ∀ r ∈ results, ∃ path, Drawn o disk after path r := by
  induction paths generalizing s results with
  | nil =>
    cases checked
    exact ⟨.refl _, sound, nofun⟩
  | cons path rest ih =>
    simp only [checkFiles, bind, Except.bind] at checked
    cases first : checkFile o disk s path with
    | error failure =>
      rw [first] at checked
      cases checked
    | ok one =>
      obtain ⟨-, bytes, read, result, next⟩ := checkFile_ok first
      rw [first] at checked
      dsimp only at checked
      cases later : checkFiles o disk one.2 rest with
      | error failure =>
        rw [later] at checked
        cases checked
      | ok others =>
        rw [later] at checked
        cases checked
        rw [next] at later
        obtain ⟨grown, sound', each⟩ := ih later ((Load.ofFile_extends _ _).2 sound)
        refine ⟨(s.extends_reading path bytes).trans grown, sound', ?_⟩
        exact List.forall_mem_cons.mpr ⟨⟨path, s, bytes, sound, read, result, grown⟩, each⟩

theorem Drawn.selfContained {o : Options} (standard : o.pass = Check.tree) {disk : Disk}
    {now : Shared} {path : Text} {r : Result} (drawn : Drawn o disk now path r)
    (sound : now.names.Sound) (begun : r.context ≠ none) :
    ∃ f snap, now.files.get? r.file = some f ∧ Snapshot.ofResult? r now = some snap ∧
      snap.SelfContained f r.tree := by
  obtain ⟨s, bytes, -, -, rfl, grown⟩ := drawn
  obtain ⟨ctx, present⟩ := Option.ne_none_iff_exists'.mp begun
  have ended := (checkSource_said standard (sourceAt s path bytes) s.names).1
  obtain ⟨snap, taken, strings, tables⟩ := Snapshot.ofResult?_of_context present ended now
  refine ⟨sourceAt s path bytes, snap, ?_, taken, strings ▸ sound.nodup, ?_⟩
  · rw [checkSource_file]
    exact grown.get? (get?_sourceAt s path bytes)
  · rw [tables]
    exact checkSource_bear standard sound grown.names strings present

end Session

/-- In a run over files, from whatever files and names, every file whose check is begun is checked
to the end, and the snapshot of its result is self-contained: no string stands twice, and whatever
handle there is in the tables, as a bound name, as the name of a registered type or as the name of
an object type at any depth inside a type, is a handle of the strings and not the absent one, and
stands for the normal form of the name that the document gives where it is declared or defined, or
for the name of a built-in type. This holds of files that are checked one after the other, and of
files that are checked at the same time, with names that other clients may have used before:
whatever turns they have, and whether the snapshot is taken after the run or while other files still
go on. -/
theorem snapshots_are_self_contained :
    (∀ (limit : Int) (warnings : Check.Options) (timings : Bool) (disk : Disk) (files : FileSet)
      (texts paths : List Text) (results : List Session.Result) (after : Session.Shared),
      Session.checkFiles { limit, warnings, timings } disk ⟨files, .after texts⟩ paths =
          .ok (results, after) →
        ∀ r ∈ results, r.context ≠ none → ∃ f snap, after.files.get? r.file = some f ∧
          Snapshot.ofResult? r after = some snap ∧ snap.SelfContained f r.tree) ∧
    (∀ (limit : Int) (warnings : Check.Options) (timings : Bool) (disk : Disk) (slots : Nat)
      (files : FileSet) (clients : List (List Pool.Call)) (before : List Nat) (paths : List Text)
      (schedule : List Session.Turn),
      let o : Session.Options := { limit, warnings, timings }
      let pool := ((Pool.Sharing.start clients).run before).pool
      let now := (Session.Parallel.start o files pool paths).run o disk slots schedule
      ∀ r ∈ now.results, r.context ≠ none → ∃ f snap, now.files.get? r.file = some f ∧
        Snapshot.ofResult? r now.shared = some snap ∧ snap.SelfContained f r.tree) := by
  constructor
  · intro limit warnings timings disk files texts paths results after checked r member begun
    obtain ⟨-, sound, each⟩ := Session.checkFiles_drawn checked (Interner.after_sound texts)
    obtain ⟨path, drawn⟩ := each r member
    exact drawn.selfContained rfl sound begun
  · intro limit warnings timings disk slots files clients before paths schedule o pool now r member
      begun
    have shared : pool.Sound := ((Pool.Sharing.start_sound clients).run before).1.pool
    have start : (Session.Parallel.start o files pool paths).Sound o disk :=
      Session.Parallel.start_sound shared paths
    have sound := (start.run slots schedule).1
    obtain ⟨path, -, drawn⟩ := sound.drawn member
    exact drawn.selfContained rfl sound.pool.interner begun

/-- Two documents: the one uses a name, the other defines an object type and a global of it. -/
def definingGlobals : Disk where
  entries := [([text "a"], .file (text "- x\n")),
    ([text "b"], .file (text "- {struct: S}\n- {def: y, value: {make: S}}\n"))]
  cwd := []

/-- Turns in which the first file looks for its name, and the second adds its two names before the
first adds it. -/
def overtakingTurns : List Session.Turn :=
  [0, 1, 1, 1, 0, 0, 1, 0, 1, 1, 1, 0, 1, 1, 0].map .file

theorem defining_globals_is_self_contained :
    let o : Session.Options := { limit := 1, warnings := ⟨true, true⟩, timings := false }
    let paths := [text "a", text "b"]
    let pool := ((Pool.Sharing.start [[.intern (text "z")]]).run [0, 0]).pool
    let now := (Session.Parallel.start o .empty pool paths).run o definingGlobals 2 overtakingTurns
    let keys (r : Session.Result) := r.context.map fun ctx => ctx.globals.keys
    (∃ results after,
      Session.checkFiles o definingGlobals ⟨.empty, .after [text "z"]⟩ paths =
        .ok (results, after) ∧
      results.map keys = [some [], some [17]] ∧
      ∀ r ∈ results, r.context ≠ none ∧ ∃ f snap, after.files.get? r.file = some f ∧
        Snapshot.ofResult? r after = some snap ∧ snap.SelfContained f r.tree) ∧
    now.results.map keys = [some [], some [16]] ∧
    ∀ r ∈ now.results, r.context ≠ none ∧ ∃ f snap, now.files.get? r.file = some f ∧
      Snapshot.ofResult? r now.shared = some snap ∧ snap.SelfContained f r.tree := by
  intro o paths pool now keys
  have begun {results : List Session.Result} {k : List Handle}
      (all : results.map keys = [some [], some k]) : ∀ r ∈ results, r.context ≠ none := by
    intro r member missing
    have among : keys r ∈ results.map keys := List.mem_map_of_mem member
    have absent : keys r = none := by
      show r.context.map _ = none
      rw [missing]
      rfl
    rw [all, absent] at among
    simp at among
  constructor
  · have globals :
        (match Session.checkFiles o definingGlobals ⟨.empty, .after [text "z"]⟩ paths with
        | .ok (results, _) => results.map keys
        | .error _ => []) = [some [], some [17]] := by
      decide +kernel
    split at globals
    next results after checked =>
      refine ⟨results, after, checked, globals, fun r member => ?_⟩
      have present := begun globals r member
      exact ⟨present, snapshots_are_self_contained.1 _ _ _ _ _ _ _ _ _ checked r member present⟩
    next => cases globals
  · have globals : now.results.map keys = [some [], some [16]] := by decide +kernel
    refine ⟨globals, fun r member => ?_⟩
    have present := begun globals r member
    exact ⟨present, snapshots_are_self_contained.2 _ _ _ _ _ _ _ _ _ overtakingTurns r member
      present⟩

end TreeCheck
