import TreeCheck.Load

/-!
What holds of everything that reading gives. A step `Reads` a result of some kind if its result is
of that kind from wherever it starts, and if all that it adds to the diagnostics are errors about
the document.
-/

namespace TreeCheck.Load

variable {α β : Type}

def Objection (d : Diagnostic) : Prop :=
  d.severity = .error ∧ (d.code = .malformed ∨ d.code = .unknownOperator)

def State.Objecting (s : State) : Prop :=
  ∀ d ∈ s.emitted.toList, Objection d

/-- The step gives a result that satisfies `post`, and adds nothing but errors about the
document. -/
def Reads (x : Load α) (post : α → Prop) : Prop :=
  ∀ env s, s.Objecting → post (x.run env s).1 ∧ State.Objecting (x.run env s).2

/-- A step of whose result nothing is said. -/
abbrev ReadsAny (x : Load α) : Prop :=
  Reads x fun _ => True

/-- A step that gives a part of some kind, or none. -/
abbrev ReadsPart (x : Load (Option α)) (post : α → Prop) : Prop :=
  Reads x fun found => ∀ a ∈ found, post a

namespace Reads

variable {x : Load α} {f : α → Load β} {post : α → Prop} {goal : β → Prop}

theorem pure {a : α} (holds : post a) : Reads (Pure.pure a) post :=
  fun _ _ objecting => ⟨holds, objecting⟩

theorem bind (first : Reads x post) (rest : ∀ a, post a → Reads (f a) goal) :
    Reads (x >>= f) goal := by
  intro env s objecting
  obtain ⟨holds, kept⟩ := first env s objecting
  exact rest _ holds env _ kept

theorem skip (first : ReadsAny x) (rest : ∀ a, Reads (f a) goal) : Reads (x >>= f) goal :=
  first.bind fun a _ => rest a

theorem mono {weaker : α → Prop} (reads : Reads x post) (implies : ∀ a, post a → weaker a) :
    Reads x weaker :=
  fun env s objecting => ⟨implies _ (reads env s objecting).1, (reads env s objecting).2⟩

theorem any (reads : Reads x post) : ReadsAny x :=
  reads.mono fun _ _ => trivial

theorem map {g : α → β} (reads : Reads x post) (holds : ∀ a, post a → goal (g a)) :
    Reads (g <$> x) goal :=
  reads.bind fun a found => pure (holds a found)

theorem withReader {g : Env → Env} (reads : Reads x post) :
    Reads (MonadWithReaderOf.withReader g x) post :=
  fun env s objecting => reads (g env) s objecting

theorem mapM {xs : List β} {g : β → Load α} (each : ∀ b ∈ xs, Reads (g b) post) :
    Reads (xs.mapM g) fun results => ∀ a ∈ results, post a := by
  induction xs with
  | nil => exact pure fun _ member => absurd member List.not_mem_nil
  | cons b rest ih =>
    rw [List.mapM_cons]
    refine (each b List.mem_cons_self).bind fun a first => ?_
    refine (ih fun c member => each c (List.mem_cons_of_mem _ member)).bind fun results others => ?_
    refine pure ?_
    rintro c (_ | ⟨_, member⟩)
    · exact first
    · exact others c member

theorem forM {xs : List β} {g : β → Load Unit} (each : ∀ b ∈ xs, ReadsAny (g b)) :
    ReadsAny (xs.forM g) := by
  induction xs with
  | nil => exact pure trivial
  | cons b rest ih =>
    refine skip (each b List.mem_cons_self) fun _ => ih fun c member => ?_
    exact each c (List.mem_cons_of_mem _ member)

theorem some {a : α} (holds : post a) : ReadsPart (Pure.pure (Option.some a)) post :=
  pure fun _ found => Option.some.inj found ▸ holds

theorem none : ReadsPart (Pure.pure Option.none) post :=
  pure fun _ found => nomatch found

theorem parts {xs : List Yaml.Node} {g : Yaml.Node → Load (Option α)}
    (each : ∀ n, ReadsPart (g n) post) :
    Reads (xs.mapM g) fun results => ∀ a ∈ results.filterMap (·), post a := by
  refine (mapM fun n _ => each n).mono fun results holds a member => ?_
  obtain ⟨found, among, present⟩ := List.mem_filterMap.mp member
  exact holds found among a present

end Reads

/-! ### The smallest parts -/

theorem environment_reads : ReadsAny (read : Load Env) :=
  fun _ _ objecting => ⟨trivial, objecting⟩

theorem spanOf_reads (n : Yaml.Node) : ReadsAny (spanOf n) :=
  fun _ _ objecting => ⟨trivial, objecting⟩

theorem siteAt_reads (n : Yaml.Node) : ReadsAny (siteAt n) :=
  fun _ _ objecting => ⟨trivial, objecting⟩

theorem intern_reads (name : Text) : ReadsAny (intern name) :=
  fun _ _ objecting => ⟨trivial, objecting⟩

theorem report_reads {code : Code} (documents : code = .malformed ∨ code = .unknownOperator)
    (n : Yaml.Node) (message : Text) : ReadsAny (report code n message) := by
  intro env s objecting
  refine ⟨trivial, fun d member => ?_⟩
  rcases List.mem_append.mp (Array.toList_push ▸ member) with old | new
  · exact objecting d old
  · rw [List.mem_singleton.mp new]
    exact ⟨rfl, documents⟩

theorem fail_reads (n : Yaml.Node) (message : Text) : ReadsAny (fail n message) :=
  report_reads (.inl rfl) n message

theorem failed_reads {a : α} {post : α → Prop} (n : Yaml.Node) (message : Text) (holds : post a) :
    Reads (do fail n message; return a) post :=
  .skip (fail_reads n message) fun _ => .pure holds

theorem refused_reads {post : α → Prop} (n : Yaml.Node) (message : Text) :
    ReadsPart (do fail n message; return none) post :=
  failed_reads n message fun _ found => nomatch found

theorem nameOf_reads (n : Yaml.Node) (what : Text) : ReadsAny (nameOf n what) := by
  unfold nameOf
  split
  · split
    · exact .skip (intern_reads _) fun _ => .pure trivial
    · exact failed_reads _ _ trivial
  · exact failed_reads _ _ trivial

theorem itemsOf_reads (n : Yaml.Node) (what : Text) : ReadsAny (itemsOf n what) := by
  unfold itemsOf
  split
  · exact .pure trivial
  split
  · exact .pure trivial
  · exact failed_reads _ _ trivial

theorem modifierOf_reads (n : Yaml.Node) : ReadsAny (modifierOf n) := by
  unfold modifierOf
  split
  · exact .pure trivial
  · exact failed_reads _ _ trivial

/-! ### Mappings -/

theorem entriesFrom_reads (kind : Text) (entries : List Entry)
    (pairs : List (Yaml.Node × Yaml.Node)) : ReadsAny (entriesFrom kind entries pairs) := by
  induction pairs generalizing entries with
  | nil => exact .pure trivial
  | cons pair rest ih =>
    unfold entriesFrom
    split
    · split
      · exact .skip (fail_reads _ _) fun _ => .skip (ih entries) fun _ => .pure trivial
      · exact ih _
    · exact .skip (fail_reads _ _) fun _ => .skip (ih entries) fun _ => .pure trivial

theorem mappingOf_reads (n : Yaml.Node) (kind : Text) : ReadsAny (mappingOf n kind) := by
  unfold mappingOf
  split
  · exact .skip (entriesFrom_reads _ _ _) fun _ => .pure trivial
  · exact failed_reads _ _ trivial

/-- A part that a mapping describes; what is no mapping describes none. -/
theorem described_reads {post : α → Prop} {f : Mapping → Load (Option α)}
    (each : ∀ m, ReadsPart (f m) post) (n : Yaml.Node) (kind : Text) :
    ReadsPart (do
      match ← mappingOf n kind with
      | none => return none
      | some m => f m) post := by
  refine .skip (mappingOf_reads n kind) fun mapping => ?_
  split
  · exact .none
  · exact each _

namespace Mapping

variable (m : Mapping)

theorem require_reads (key : String) : ReadsAny (m.require key) := by
  unfold require
  split
  · exact .pure trivial
  · exact failed_reads _ _ trivial

theorem name_reads (key : String) : ReadsAny (m.name key) := by
  refine .skip (m.require_reads key) fun found => ?_
  split
  · exact .skip (nameOf_reads _ _) fun _ => .pure trivial
  · exact .pure trivial

theorem name?_reads (key : String) : ReadsAny (m.name? key) := by
  unfold name?
  split
  · split
    · exact .pure trivial
    · exact .skip (nameOf_reads _ _) fun _ => .pure trivial
  · exact .pure trivial

theorem flag_reads (key : String) : ReadsAny (m.flag key) := by
  unfold flag
  split
  · exact .pure trivial
  split
  · split
    · exact .pure trivial
    · exact failed_reads _ _ trivial
  · exact failed_reads _ _ trivial

theorem items_reads (key : String) : ReadsAny (m.items key) := by
  unfold items
  split
  · exact itemsOf_reads _ _
  · exact .pure trivial

theorem modifiers_reads (key : String) : ReadsAny (m.modifiers key) :=
  .skip (m.items_reads key) fun _ =>
    .skip (Reads.mapM fun n _ => modifierOf_reads n).any fun _ => .pure trivial

theorem finish_reads (known : List String) : ReadsAny (m.finish known) := by
  refine .forM fun e _ => ?_
  split
  · exact fail_reads _ _
  · exact .pure trivial

end Mapping

end TreeCheck.Load
