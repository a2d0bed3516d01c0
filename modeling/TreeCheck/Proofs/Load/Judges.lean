import TreeCheck.Proofs.Load.Grammar
import TreeCheck.Proofs.Text.Normal

/-!
Reading as a judgement. A step `Judges` a property if it adds a diagnostic exactly where the
property fails. Diagnostics are never taken back, so steps in a row judge the conjunction of what
each of them does. The readers of names, lists and other slots of mappings judge whether what they
read derives from the form of the slot.

Nodes reached through aliases are counted and refused beyond a number, so the judgement is about
reading that does not go through aliases.
-/

namespace TreeCheck

/-- The absent name is the empty text, as in every interner that arises from the fresh one. -/
def Interner.Rooted (names : Interner) : Prop :=
  names.find? Handle.none = some []

namespace Interner

variable {names : Interner} {t : Text}

theorem rooted_fresh : fresh.Rooted :=
  rfl

theorem Rooted.intern (rooted : names.Rooted) (t : Text) : (names.intern t).2.Rooted := by
  unfold Interner.intern
  split
  · exact rooted
  · unfold Rooted find? at rooted ⊢
    rw [List.getElem?_append_left (List.getElem?_eq_some_iff.mp rooted).1]
    exact rooted

theorem Rooted.intern_isValid (rooted : names.Rooted) (given : t ≠ []) :
    (names.intern t).1.isValid := by
  obtain ⟨within, first⟩ := List.getElem?_eq_some_iff.mp rooted
  have nonzero : (names.intern t).1 ≠ Handle.none := by
    unfold Interner.intern
    split
    next h found =>
      intro zero
      obtain ⟨inside, same, _⟩ := List.idxOf?_eq_some_iff.mp found
      apply given
      rw [← same, ← first]
      simp only [show h = Handle.none from zero]
    next =>
      intro zero
      have empty : names.names.length = 0 := zero
      omega
  simpa [Handle.isValid] using nonzero

end Interner

namespace Load

open Grammar (Form Slot Record Derives DistinctKeys Keyed Decodes needs allows)

variable {α β : Type}

structure Verdict (s : State) (result : α × State) (good : Prop) (post : α → Prop) : Prop where
  given : post result.1
  rooted : result.2.names.Rooted
  grows : s.emitted.size ≤ result.2.emitted.size
  decides : result.2.emitted.size = s.emitted.size ↔ good

/-- The step adds no diagnostic exactly if the property holds; its result satisfies `post` in
either case. -/
def Judges (x : Load α) (good : Prop) (post : α → Prop) : Prop :=
  ∀ (env : Env) (s : State), env.throughAlias = false → s.names.Rooted →
    Verdict s (x.run env s) good post

/-- A step of whose result nothing is said. -/
abbrev Decides (x : Load α) (good : Prop) : Prop :=
  Judges x good fun _ => True

namespace Judges

variable {x : Load α} {f : α → Load β} {good all later : Prop} {post : α → Prop} {goal : β → Prop}

theorem of_run (quiet : ∀ env s, s.names.Rooted →
    post (x.run env s).1 ∧ (x.run env s).2.names.Rooted ∧ (x.run env s).2.emitted = s.emitted) :
    Judges x True post := by
  intro env s _ rooted
  obtain ⟨holds, kept, same⟩ := quiet env s rooted
  exact ⟨holds, kept, Nat.le_of_eq (by rw [same]), by simp [same]⟩

theorem pure {a : α} (holds : post a) : Judges (Pure.pure a) True post :=
  of_run fun _ _ rooted => ⟨holds, rooted, rfl⟩

theorem congr (judges : Judges x good post) (same : all ↔ good) : Judges x all post := by
  intro env s direct rooted
  have verdict := judges env s direct rooted
  exact { verdict with decides := verdict.decides.trans same.symm }

theorem mono {weaker : α → Prop} (judges : Judges x good post) (implies : ∀ a, post a → weaker a) :
    Judges x good weaker := by
  intro env s direct rooted
  have verdict := judges env s direct rooted
  exact { verdict with given := implies _ verdict.given }

theorem any (judges : Judges x good post) : Decides x good :=
  judges.mono fun _ _ => trivial

/-- Two steps in a row. What the second one judges may depend on the result of the first. -/
theorem bind {more : α → Prop} (first : Judges x good post)
    (rest : ∀ a, post a → Judges (f a) (more a) goal)
    (both : ∀ a, post a → (all ↔ good ∧ more a)) : Judges (x >>= f) all goal := by
  intro env s direct rooted
  have one := first env s direct rooted
  have two := rest _ one.given env _ direct one.rooted
  have run : (x >>= f).run env s = (f (x.run env s).1).run env (x.run env s).2 := rfl
  rw [run]
  have growsFirst := one.grows
  have growsRest := two.grows
  refine ⟨two.given, two.rooted, Nat.le_trans growsFirst growsRest, ?_⟩
  rw [both _ one.given, ← one.decides, ← two.decides]
  omega

theorem next (first : Judges x good post) (rest : ∀ a, post a → Judges (f a) later goal) :
    Judges (x >>= f) (good ∧ later) goal :=
  first.bind rest fun _ _ => Iff.rfl

theorem skip (first : Judges x True post) (rest : ∀ a, Judges (f a) later goal) :
    Judges (x >>= f) later goal :=
  first.bind (fun a _ => rest a) fun _ _ => by rw [true_and]

theorem done (first : Judges x good post) (rest : ∀ a, post a → Judges (f a) True goal) :
    Judges (x >>= f) good goal :=
  first.bind rest fun _ _ => by rw [and_true]

theorem map {g : α → β} (judges : Judges x good post) (holds : ∀ a, post a → goal (g a)) :
    Judges (g <$> x) good goal :=
  judges.done fun a found => pure (holds a found)

theorem mapM {xs : List β} {g : β → Load α} {each : β → Prop}
    (judges : ∀ b ∈ xs, Decides (g b) (each b)) : Decides (xs.mapM g) (∀ b ∈ xs, each b) := by
  induction xs with
  | nil => exact (pure trivial).congr (by simp)
  | cons b rest ih =>
    rw [List.mapM_cons]
    have later := ih fun c member => judges c (List.mem_cons_of_mem _ member)
    refine ((judges b List.mem_cons_self).next fun a _ => ?_).congr List.forall_mem_cons
    exact later.done fun _ _ => pure trivial

theorem forM {xs : List β} {g : β → Load Unit} {each : β → Prop}
    (judges : ∀ b ∈ xs, Decides (g b) (each b)) : Decides (xs.forM g) (∀ b ∈ xs, each b) := by
  induction xs with
  | nil => exact (pure trivial).congr (by simp)
  | cons b rest ih =>
    have later := ih fun c member => judges c (List.mem_cons_of_mem _ member)
    exact ((judges b List.mem_cons_self).next fun _ _ => later).congr List.forall_mem_cons

end Judges

/-! ### The smallest parts -/

theorem spanOf_judges (n : Yaml.Node) : Decides (spanOf n) True :=
  .of_run fun _ _ rooted => ⟨trivial, rooted, rfl⟩

theorem siteAt_judges (n : Yaml.Node) : Decides (siteAt n) True :=
  .of_run fun _ _ rooted => ⟨trivial, rooted, rfl⟩

theorem placeholder_judges (n : Yaml.Node) :
    Judges (placeholder n) True fun node => ∃ site, node = .nil site :=
  .of_run fun _ _ rooted => ⟨⟨_, rfl⟩, rooted, rfl⟩

theorem intern_judges {name : Text} (given : name ≠ []) :
    Judges (intern name) True fun h => h.isValid := by
  apply Judges.of_run
  intro _ s rooted
  have valid := rooted.intern_isValid (Text.normal_ne_nil given)
  exact ⟨valid, rooted.intern _, rfl⟩

theorem report_judges (code : Code) (n : Yaml.Node) (message : Text) :
    Decides (report code n message) False := by
  intro env s _ rooted
  have pushed : ((report code n message).run env s).2.emitted.size = s.emitted.size + 1 :=
    Array.size_push _
  exact ⟨trivial, rooted, by omega, by rw [pushed]; simp⟩

theorem reported_judges {x : Load α} {good : Prop} {post : α → Prop} (after : Judges x good post)
    (code : Code) (n : Yaml.Node) (message : Text) :
    Judges (do report code n message; x) False post :=
  (report_judges code n message).bind (fun _ _ => after) fun _ _ => by rw [false_and]

theorem passed_judges {a : α} {good : Prop} {post : α → Prop} (fine : good) (holds : post a) :
    Judges (pure a) good post :=
  (Judges.pure holds).congr (iff_true_intro fine)

theorem failed_judges {a : α} {good : Prop} {post : α → Prop} (wrong : ¬good) (holds : post a)
    (n : Yaml.Node) (message : Text) : Judges (do fail n message; return a) good post :=
  (reported_judges (.pure holds) .malformed n message).congr (iff_false_intro wrong)

theorem nameOf_judges (n : Yaml.Node) (what : Text) :
    Judges (nameOf n what) (Derives .name n) fun found =>
      (found.isSome ↔ Derives .name n) ∧ ∀ h ∈ found, h.isValid := by
  have refused (none : ¬Derives .name n) :
      Judges (do fail n (what ++ text " must be a name"); return Option.none) (Derives .name n)
        fun found : Option Handle => (found.isSome ↔ Derives .name n) ∧ ∀ h ∈ found, h.isValid := by
    apply failed_judges none
    simp [none]
  unfold nameOf
  split
  next s =>
    split
    next written =>
      obtain ⟨present, given⟩ : s.isNull = false ∧ s.value ≠ [] := by simpa using written
      have derived : Derives .name (.scalar s) := .name present given
      refine ((intern_judges given).done fun h valid => ?_).congr (iff_true_intro derived)
      exact .pure ⟨by simp [derived], fun _ found => Option.some.inj found ▸ valid⟩
    next unwritten =>
      apply refused
      intro derived
      obtain ⟨t, same, present, given⟩ := Grammar.derives_name.mp derived
      cases same
      exact unwritten (by simp [present, given])
  next other =>
    apply refused
    intro derived
    obtain ⟨s, same, _⟩ := Grammar.derives_name.mp derived
    exact other s same

theorem found_word {words : List String} {t : Text} :
    (∃ index, words.findIdx? (fun word => text word == t) = some index) ↔
      ∃ word ∈ words, t = text word := by
  rw [← Option.isSome_iff_exists, List.findIdx?_isSome, List.any_eq_true]
  constructor
  · rintro ⟨word, member, same⟩
    exact ⟨word, member, (eq_of_beq same).symm⟩
  · rintro ⟨word, member, rfl⟩
    exact ⟨word, member, beq_self_eq_true _⟩

theorem derives_word_scalar {words : List String} {s : Yaml.Scalar} :
    Derives (.word words) (.scalar s) ↔ ∃ word ∈ words, s.value = text word := by
  rw [Grammar.derives_word]
  simp

theorem modifierOf_judges (n : Yaml.Node) :
    Decides (modifierOf n) (Derives (.word Modifier.names) n) := by
  unfold modifierOf
  split
  next s m found =>
    obtain ⟨index, found, _⟩ := Option.map_eq_some_iff.mp found
    exact passed_judges (derives_word_scalar.mpr (found_word.mp ⟨index, found⟩)) trivial
  next unknown =>
    refine failed_judges (fun derived => ?_) trivial _ _
    obtain ⟨s, rfl, word⟩ := Grammar.derives_word.mp derived
    obtain ⟨index, found⟩ := found_word.mpr word
    exact unknown s ⟨index + 1⟩ rfl (by simp [Modifier.ofName?, Yaml.Node.text, found])

/-! ### Lists -/

/-- All that is written directly below a node is small; aliases are not followed. -/
def Parts (small : Yaml.Node → Prop) : Yaml.Node → Prop
  | .scalar _ => True
  | .sequence _ items => ∀ item ∈ items, small item
  | .mapping _ pairs => ∀ pair ∈ pairs, small pair.2
  | .alias _ _ _ => False

/-- The items make up something that holds for a form of items exactly if it is sound as a list
and all of them derive from the form. -/
def Lists (small : Yaml.Node → Prop) (sound : Prop) (holds : Form → Prop)
    (items : List Yaml.Node) : Prop :=
  (∀ n ∈ items, small n) ∧ ∀ form, holds form ↔ sound ∧ ∀ n ∈ items, Derives form n

/-- A sequence, or nothing. -/
def IsList (n : Yaml.Node) : Prop :=
  n.isNull ∨ ∃ place items, n = .sequence place items

theorem derives_list {form : Form} {n : Yaml.Node} :
    Derives (.list form) n ↔
      n.isNull ∨ ∃ place items, n = .sequence place items ∧ ∀ item ∈ items, Derives form item := by
  unfold Form.list Form.optional
  rw [Grammar.derives_either, Grammar.derives_null, Grammar.derives_sequence]

theorem itemsOf_judges {small : Yaml.Node → Prop} {n : Yaml.Node} (parts : Parts small n)
    (what : Text) :
    Judges (itemsOf n what) (IsList n)
      (Lists small (IsList n) fun form => Derives (.list form) n) := by
  unfold itemsOf
  split
  next place items =>
    have list : IsList (.sequence place items) := .inr ⟨place, items, rfl⟩
    apply passed_judges list
    refine ⟨parts, fun form => derives_list.trans ?_⟩
    constructor
    · rintro (null | ⟨_, _, same, each⟩)
      · cases null
      · cases same
        exact ⟨list, each⟩
    · rintro ⟨_, each⟩
      exact .inr ⟨place, items, rfl, each⟩
  next other =>
    have single (form : Form) : Derives (.list form) n ↔ IsList n := by
      rw [derives_list]
      constructor
      · rintro (null | ⟨place, items, same, _⟩)
        · exact .inl null
        · exact absurd same (other place items)
      · rintro (null | ⟨place, items, same⟩)
        · exact .inl null
        · exact absurd same (other place items)
    have empty : Lists small (IsList n) (fun form => Derives (.list form) n) [] :=
      ⟨by simp, fun form => by simp [single]⟩
    split
    next null => exact passed_judges (.inl null) empty
    next present =>
      refine failed_judges ?_ empty n _
      rintro (null | ⟨place, items, same⟩)
      · exact present null
      · exact other place items same

/-! ### Slots of mappings -/

namespace Mapping

/-- The mapping has what the slot needs, and what it has there derives from the form. -/
def Holds (m : Mapping) (slot : Slot) : Prop :=
  (slot.required → m.has slot.key) ∧ ∀ v, m.get? slot.key = some v → Derives slot.form v

def Knows (m : Mapping) (known : List String) : Prop :=
  ∀ e ∈ m.entries, ∃ key ∈ known, text key = e.key

def Follows (m : Mapping) (slots : List Slot) (more : Prop) : Prop :=
  (∀ slot ∈ slots, m.Holds slot) ∧ more

/-- The slots of one of the alternatives hold, and there are no other keys. -/
def Describes (m : Mapping) (described : Record) : Prop :=
  ∃ slots ∈ described.alternatives, m.Follows slots (m.Knows (slots.map (·.key)))

variable {m : Mapping} {key : String} {form : Form} {v : Yaml.Node}

theorem holds_of_get (own : m.get? key = some v) (required : Bool) :
    m.Holds ⟨key, required, form⟩ ↔ Derives form v := by
  simp [Holds, has, own]

theorem holds_of_absent (absent : m.get? key = none) {required : Bool} :
    m.Holds ⟨key, required, form⟩ ↔ required = false := by
  simp [Holds, has, absent]

theorem holds_allows :
    m.Holds (allows key form) ↔ ∀ v, m.get? key = some v → Derives form v := by
  simp [Holds, allows]

theorem follows_nil {more : Prop} : m.Follows [] more ↔ more := by
  simp [Follows]

theorem follows_cons {slot : Slot} {slots : List Slot} {more : Prop} :
    m.Follows (slot :: slots) more ↔ m.Holds slot ∧ m.Follows slots more := by
  unfold Follows
  rw [List.forall_mem_cons, and_assoc]

theorem follows_append (slots others : List Slot) {more : Prop} :
    m.Follows (slots ++ others) more ↔ m.Follows slots True ∧ m.Follows others more := by
  simp only [Follows, List.forall_mem_append, and_true, and_assoc]

theorem follows_iff {slots : List Slot} {more : Prop} :
    m.Follows slots more ↔ m.Follows slots True ∧ m.Follows [] more := by
  simpa using follows_append slots []

theorem describes_of_single {described : Record} {slots : List Slot}
    (only : described.alternatives = [slots]) :
    m.Describes described ↔ m.Follows slots (m.Knows (slots.map (·.key))) := by
  unfold Describes
  rw [only]
  simp

theorem describes_of_couple {described : Record} {slots others : List Slot}
    (both : described.alternatives = [slots, others]) :
    m.Describes described ↔ m.Follows slots (m.Knows (slots.map (·.key))) ∨
      m.Follows others (m.Knows (others.map (·.key))) := by
  unfold Describes
  rw [both]
  simp

theorem get?_of_knows {known : List String} (knows : m.Knows known) (key : String)
    (other : key ∉ known) : m.get? key = none := by
  unfold get?
  rw [Option.map_eq_none_iff, List.find?_eq_none]
  intro e member same
  obtain ⟨own, among, value⟩ := knows e member
  have equal : own = key := Text.text_injective (value.trans (eq_of_beq same))
  exact other (equal ▸ among)

theorem Knows.without {known : List String} (knows : m.Knows known) (absent : m.get? key = none) :
    m.Knows (known.filter (· != key)) := by
  intro e member
  obtain ⟨own, among, value⟩ := knows e member
  refine ⟨own, List.mem_filter.mpr ⟨among, ?_⟩, value⟩
  rw [bne_iff_ne]
  rintro rfl
  have unfound := List.find?_eq_none.mp (Option.map_eq_none_iff.mp absent) e member
  exact unfound (beq_iff_eq.mpr value.symm)

theorem require_judges (m : Mapping) (key : String) :
    Judges (m.require key) (m.has key) fun found => found = m.get? key := by
  unfold require
  split
  next v own =>
    have present : m.has key := by simp [has, own]
    exact passed_judges present own.symm
  next absent =>
    have missing : ¬m.has key := by simp [has, absent]
    refine failed_judges missing ?_ _ _
    exact absent.symm

theorem required_judges {g : Yaml.Node → Load α} {x : Load α} {post : α → Prop}
    (present : ∀ v, m.get? key = some v → Judges (g v) (Derives form v) post)
    (absent : m.get? key = none → Judges x True post) :
    Judges (do match ← m.require key with
      | some v => g v
      | none => x) (m.Holds (needs key form)) post := by
  have rest (found : Option Yaml.Node) (same : found = m.get? key) :
      Judges (match found with
        | some v => g v
        | none => x) (∀ v, m.get? key = some v → Derives form v) post := by
    cases found with
    | none => exact (absent same.symm).congr (by simp [← same])
    | some v => exact (present v same.symm).congr (by simp [← same])
  apply (m.require_judges key).bind rest
  intro _ _
  simp [Holds, needs]

theorem optional_judges {g : Yaml.Node → Load α} {x : Load α} {post : α → Prop}
    (present : ∀ v, m.get? key = some v → Judges (g v) (Derives form v) post)
    (absent : m.get? key = none → Judges x True post) :
    Judges (match m.get? key with
      | some v => g v
      | none => x) (m.Holds (allows key form)) post := by
  cases own : m.get? key with
  | none => exact (absent own).congr (by simp [holds_of_absent own, allows])
  | some v => exact (present v own).congr (holds_of_get own false)

theorem name_judges (m : Mapping) (key : String) :
    Decides (m.name key) (m.Holds (needs key .name)) :=
  required_judges (fun v _ => (nameOf_judges v _).done fun _ _ => .pure trivial)
    fun _ => .pure trivial

theorem derives_optional {n : Yaml.Node} :
    Derives (.optional form) n ↔ n.isNull ∨ Derives form n := by
  unfold Form.optional
  rw [Grammar.derives_either, Grammar.derives_null]

theorem name?_judges (m : Mapping) (key : String) :
    Judges (m.name? key) (m.Holds (allows key (.optional .name))) fun h =>
      h.isValid ↔ ∃ v, m.get? key = some v ∧ Derives .name v := by
  apply optional_judges
  · intro v own
    have value : (∃ w, m.get? key = some w ∧ Derives .name w) ↔ Derives .name v := by simp [own]
    split
    next null =>
      have unnamed : ¬Derives .name v := by
        intro derived
        obtain ⟨s, rfl, present, _⟩ := Grammar.derives_name.mp derived
        exact absurd (null.symm.trans present) (by decide)
      refine passed_judges (derives_optional.mpr (.inl null)) ?_
      rw [value]
      exact iff_of_false (by decide) unnamed
    next present =>
      have judged := (nameOf_judges v (m.path key)).congr
        (show Derives (.optional .name) v ↔ Derives .name v by simp [derives_optional, present])
      refine judged.done fun found holds => .pure ?_
      rw [value, ← holds.1]
      cases found with
      | none => exact iff_of_false (by decide) (by simp)
      | some h => exact iff_of_true (holds.2 h rfl) rfl
  · intro absent
    refine .pure ?_
    simp [absent, Handle.isValid]

theorem flag_judges (m : Mapping) (key : String) :
    Decides (m.flag key) (m.Holds (allows key .flag)) := by
  unfold flag
  split
  next absent => exact passed_judges ((holds_of_absent absent).mpr rfl) trivial
  next v own =>
    apply Judges.congr _ (holds_of_get own false)
    split
    next s =>
      split
      next b decoded => exact passed_judges (.flag decoded) trivial
      next unknown =>
        refine failed_judges (fun derived => ?_) trivial _ _
        obtain ⟨_, same, b, decoded⟩ := Grammar.derives_flag.mp derived
        cases same
        exact unknown b decoded
    next other =>
      refine failed_judges (fun derived => ?_) trivial _ _
      obtain ⟨s, same, _⟩ := Grammar.derives_flag.mp derived
      exact other s same

theorem finish_judges (m : Mapping) (known : List String) :
    Decides (m.finish known) (m.Follows [] (m.Knows known)) := by
  have all : Decides (m.finish known) (m.Knows known) := by
    refine Judges.forM fun e _ => ?_
    by_cases among : known.any fun k => text k == e.key
    · rw [if_neg (by simp [among])]
      exact passed_judges (by simpa using among) trivial
    · rw [if_pos (by simp [among])]
      exact (report_judges _ _ _).congr (iff_false_intro (by simpa using among))
  exact all.congr follows_nil

/-! A mapping is read slot by slot, in the order of the slots. -/

variable {slot : Slot} {slots : List Slot} {more : Prop} {x : Load α} {f : α → Load β}
  {goal : β → Prop} {post : α → Prop}

theorem slot_judges (first : Judges x (m.Holds slot) post)
    (rest : ∀ a, post a → Judges (f a) (m.Follows slots more) goal) :
    Judges (x >>= f) (m.Follows (slot :: slots) more) goal :=
  first.bind rest fun _ _ => follows_cons

variable {small : Yaml.Node → Prop}

/-- A slot that holds a list is read in two steps: the items of the list, and each of them. -/
theorem list_judges {item : Load (List Yaml.Node)} {sound : Prop} {required : Bool}
    {each : List Yaml.Node → Load α}
    (items : Judges item sound (Lists small sound fun form => m.Holds ⟨key, required, .list form⟩))
    (judges : ∀ list, (∀ n ∈ list, small n) →
      Decides (each list) (∀ n ∈ list, Derives form n))
    (rest : ∀ a, Judges (f a) (m.Follows slots more) goal) :
    Judges (do f (← each (← item))) (m.Follows (⟨key, required, .list form⟩ :: slots) more)
      goal := by
  apply items.bind (fun list lists => (judges list lists.1).next fun a _ => rest a)
  intro list lists
  have whole : m.Holds ⟨key, required, .list form⟩ ↔ _ := lists.2 form
  rw [follows_cons, whole, and_assoc]

variable (closed : ∀ n, small n → Parts small n) (within : ∀ e ∈ m.entries, small e.value)

include within in
theorem small_of_get (own : m.get? key = some v) : small v := by
  obtain ⟨e, found, rfl⟩ := Option.map_eq_some_iff.mp own
  exact within e (List.mem_of_find?_eq_some found)

include closed within

theorem items_judges (key : String) :
    Judges (m.items key) (∀ v, m.get? key = some v → IsList v)
      (Lists small (∀ v, m.get? key = some v → IsList v) fun form =>
        m.Holds (allows key (.list form))) := by
  unfold items
  split
  next v own =>
    have parts := closed v (small_of_get within own)
    have same : (∀ w, m.get? key = some w → IsList w) ↔ IsList v := by simp [own]
    rw [same]
    refine (itemsOf_judges parts _).mono fun list lists => ⟨lists.1, fun form => ?_⟩
    exact (holds_of_get own false).trans (lists.2 form)
  next absent =>
    refine passed_judges (by simp [absent]) ⟨by simp, fun form => ?_⟩
    simp [absent, allows, holds_of_absent absent]

theorem ownItems_judges (own : m.get? key = some v) (what : Text) :
    Judges (itemsOf v what) (IsList v)
      (Lists small (IsList v) fun form => m.Holds (needs key (.list form))) := by
  have parts := closed v (small_of_get within own)
  refine (itemsOf_judges parts what).mono fun list lists => ⟨lists.1, fun form => ?_⟩
  exact (holds_of_get own true).trans (lists.2 form)

theorem modifiers_judges (key : String) :
    Decides (m.modifiers key) (m.Holds (allows key .modifiers)) := by
  apply (items_judges closed within key).bind
  · intro list _
    exact (Judges.mapM fun n _ => modifierOf_judges n).done fun _ _ => .pure trivial
  · intro list lists
    exact lists.2 _

end Mapping

end Load

end TreeCheck
