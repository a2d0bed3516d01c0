import TreeCheck.Proofs.Load.Described

/-!
Every rule of reading judges whether the document node it is given derives from the form of its
place, provided that the reader of the nodes below does so for the smaller ones.
-/

namespace TreeCheck

def Node.isFunction : Node → Bool
  | .function _ => true
  | _ => false

namespace Load

open Grammar (Form Slot Record Derives Decodes Keyed needs allows)
open Mapping (slot_judges list_judges items_judges ownItems_judges)

/-- The reader of the nodes below judges small document nodes, and what is small has small parts.
A document node that derives is read as a function exactly if it is a method. -/
structure Judge (below : Yaml.Node → Load Node) (small : Yaml.Node → Prop) : Prop where
  closed : ∀ n, small n → Parts small n
  judges : ∀ n, small n → Judges (below n) (Derives .node n) fun node =>
    Derives .node n → (node.isFunction ↔ Derives .method n)

/-! ### Scalars -/

theorem text_inj {s t : String} : text s = text t ↔ s = t :=
  ⟨Text.text_injective, congrArg text⟩

theorem decodes_iff {kind : String} {s : Yaml.Scalar} :
    Decodes kind s ↔ kind = "bool" ∧ s.tag = text "!!bool" ∧ s.toBool?.isSome ∨
      kind = "int" ∧ s.tag = text "!!int" ∧ s.toInt?.isSome ∨
      kind = "float" ∧ s.tag = text "!!float" ∧ s.toFloat?.isSome := by
  constructor
  · rintro (⟨tag, decoded⟩ | ⟨tag, decoded⟩ | ⟨tag, decoded⟩)
    · exact .inl ⟨rfl, tag, decoded ▸ rfl⟩
    · exact .inr (.inl ⟨rfl, tag, decoded ▸ rfl⟩)
    · exact .inr (.inr ⟨rfl, tag, decoded ▸ rfl⟩)
  · rintro (⟨rfl, tag, decoded⟩ | ⟨rfl, tag, decoded⟩ | ⟨rfl, tag, decoded⟩)
    · exact .bool tag (Option.some_get decoded).symm
    · exact .int tag (Option.some_get decoded).symm
    · exact .float tag (Option.some_get decoded).symm

theorem scalarOf_judges (s : Yaml.Scalar) :
    Judges (scalarOf s) (Derives .node (.scalar s)) fun node =>
      node.isFunction = false ∧ ∀ kind, isLiteral kind node ↔ Decodes kind s := by
  have read {make : Site → Node} (derived : Derives .node (.scalar s))
      (leaf : ∀ site, (make site).isFunction = false)
      (decodes : ∀ site kind, isLiteral kind (make site) ↔ Decodes kind s) :
      Judges (do return make (← siteAt (.scalar s))) (Derives .node (.scalar s)) fun node =>
        node.isFunction = false ∧ ∀ kind, isLiteral kind node ↔ Decodes kind s := by
    apply Judges.congr _ (iff_true_intro derived)
    exact .skip (siteAt_judges _) fun site => .pure ⟨leaf site, decodes site⟩
  have refused (underived : ¬Derives .node (.scalar s)) (message : Text) :
      Judges (do fail (.scalar s) message; placeholder (.scalar s)) (Derives .node (.scalar s))
        fun node => node.isFunction = false ∧ ∀ kind, isLiteral kind node ↔ Decodes kind s := by
    apply Judges.congr _ (iff_false_intro underived)
    apply reported_judges ((placeholder_judges _).mono _)
    rintro _ ⟨site, rfl⟩
    exact ⟨rfl, fun kind => iff_of_false nofun fun decodes => underived (.constant decodes)⟩
  unfold scalarOf
  dsimp only
  split
  next tag =>
    rw [beq_iff_eq] at tag
    apply read (.nothing (by simp [Yaml.Scalar.isNull, tag])) (fun _ => rfl)
    simp [isLiteral, decodes_iff, tag, text_inj]
  next notNull =>
  rw [beq_iff_eq] at notNull
  split
  next tag =>
    rw [beq_iff_eq] at tag
    split
    next b decoded =>
      apply read (.constant (.bool tag decoded)) (fun _ => rfl)
      simp [isLiteral, decodes_iff, tag, text_inj, decoded]
    next undecoded =>
      apply refused
      simp [Grammar.derives_node_scalar, decodes_iff, Yaml.Scalar.isNull, tag, text_inj, undecoded]
  split
  next tag =>
    rw [beq_iff_eq] at tag
    split
    next v decoded =>
      apply read (.constant (.int tag decoded)) (fun _ => rfl)
      simp [isLiteral, decodes_iff, tag, text_inj, decoded]
    next undecoded =>
      apply refused
      simp [Grammar.derives_node_scalar, decodes_iff, Yaml.Scalar.isNull, tag, text_inj, undecoded]
  split
  next tag =>
    rw [beq_iff_eq] at tag
    split
    next bits decoded =>
      apply read (.constant (.float tag decoded)) (fun _ => rfl)
      simp [isLiteral, decodes_iff, tag, text_inj, decoded]
    next undecoded =>
      apply refused
      simp [Grammar.derives_node_scalar, decodes_iff, Yaml.Scalar.isNull, tag, text_inj, undecoded]
  split
  next tag =>
    rw [beq_iff_eq] at tag
    split
    next quoted =>
      apply read (.quoted tag quoted) (fun _ => rfl)
      simp [isLiteral, decodes_iff, tag, text_inj]
    next unquoted =>
      split
      next empty =>
        apply refused
        simp [Grammar.derives_node_scalar, decodes_iff, Yaml.Scalar.isNull, tag, text_inj,
          unquoted, List.isEmpty_iff.mp empty]
      next given =>
        rw [List.isEmpty_iff] at given
        apply Judges.congr _ (iff_true_intro (.plain tag (Bool.not_eq_true _ ▸ unquoted) given))
        refine .skip (siteAt_judges _) fun _ => .skip (intern_judges given) fun _ => .pure ⟨rfl, ?_⟩
        simp [isLiteral, decodes_iff, tag, text_inj]
  next notBool notInt notFloat notString =>
    rw [beq_iff_eq] at notBool notInt notFloat notString
    apply refused
    simp [Grammar.derives_node_scalar, decodes_iff, Yaml.Scalar.isNull, notNull, notBool, notInt,
      notFloat, notString]

theorem literalOf_judges (kind : String) (v : Yaml.Node) :
    Judges (literalOf kind v) (Derives (.literal kind) v) fun found =>
      found.any Node.isFunction = false := by
  unfold literalOf
  split
  next s =>
    apply (scalarOf_judges s).bind
    · rintro node ⟨leaf, decodes⟩
      split
      next literal => exact passed_judges literal leaf
      next other => exact failed_judges other (by rfl) _ _
    · rintro node ⟨_, decodes⟩
      rw [decodes kind, Grammar.derives_literal]
      constructor
      · rintro ⟨_, same, decoded⟩
        cases same
        exact ⟨.constant decoded, decoded⟩
      · rintro ⟨_, decoded⟩
        exact ⟨s, rfl, decoded⟩
  next other =>
    refine failed_judges (fun derived => ?_) (by rfl) _ _
    obtain ⟨s, same, _⟩ := Grammar.derives_literal.mp derived
    exact other s same

section

variable {below : Yaml.Node → Load Node} {small : Yaml.Node → Prop} (judge : Judge below small)
include judge

omit judge in
theorem each_judges {α : Type} {g : Yaml.Node → Load α} {form : Form}
    (reads : ∀ n, small n → Decides (g n) (Derives form n)) (items : List Yaml.Node)
    (smaller : ∀ n ∈ items, small n) : Decides (items.mapM g) (∀ n ∈ items, Derives form n) :=
  .mapM fun n member => reads n (smaller n member)

theorem nodesOf_judges (items : List Yaml.Node) (smaller : ∀ n ∈ items, small n) :
    Decides (nodesOf below items) (∀ n ∈ items, Derives .node n) :=
  each_judges (fun n small => (judge.judges n small).map fun _ _ => trivial) items smaller

theorem bodyOf_judges {n : Yaml.Node} (smaller : small n) :
    Decides (bodyOf below n) (Derives .body n) := by
  apply Judges.congr _ Grammar.derives_body
  unfold bodyOf
  split
  next place items =>
    apply Judges.congr _ Grammar.derives_node_sequence
    refine .skip (siteAt_judges _) fun _ => ?_
    exact (nodesOf_judges judge items (judge.closed _ smaller)).done fun _ _ => .pure trivial
  next => exact (judge.judges n smaller).any

/-! ### Parts of nodes -/

section

variable {m : Mapping} (within : ∀ e ∈ m.entries, small e.value)
include within

theorem Mapping.node_judges (key : String) :
    Decides (m.node below key) (m.Holds (needs key .node)) :=
  Mapping.required_judges (fun _ own => (judge.judges _ (Mapping.small_of_get within own)).any)
    fun _ => (placeholder_judges _).any

theorem Mapping.node?_judges (key : String) :
    Judges (m.node? below key) (m.Holds (allows key .node)) fun found =>
      found.isSome = m.has key := by
  apply Mapping.optional_judges
  · intro _ own
    refine (judge.judges _ (Mapping.small_of_get within own)).map fun _ _ => ?_
    simp [Mapping.has, own]
  · intro absent
    exact .pure (by simp [Mapping.has, absent])

theorem Mapping.body_judges (key : String) :
    Decides (m.body below key) (m.Holds (needs key .body)) :=
  Mapping.required_judges (fun _ own => bodyOf_judges judge (Mapping.small_of_get within own))
    fun _ => (placeholder_judges _).any

theorem Mapping.body?_judges (key : String) :
    Decides (m.body? below key) (m.Holds (allows key .body)) := by
  apply Mapping.optional_judges
  · intro _ own
    exact (bodyOf_judges judge (Mapping.small_of_get within own)).map fun _ _ => trivial
  · exact fun _ => .pure trivial

end

omit judge in
theorem derives_named {described : Record} {s : Yaml.Scalar} :
    Derives (.either .name (.record described)) (.scalar s) ↔ Derives .name (.scalar s) := by
  rw [Grammar.derives_either]
  apply or_iff_left
  intro derivation
  obtain ⟨place, pairs, same⟩ := Grammar.mapping_of_record derivation
  cases same

omit judge in
theorem derives_unnamed {described : Record} {n : Yaml.Node} (other : ∀ s, n ≠ .scalar s) :
    Derives (.either .name (.record described)) n ↔ Derives (.record described) n := by
  rw [Grammar.derives_either]
  apply or_iff_right
  intro derivation
  obtain ⟨s, same, _⟩ := Grammar.derives_name.mp derivation
  exact other s same

omit judge in
theorem alone_judges {α : Type} {described : Record} {s : Yaml.Scalar} {what : Text}
    {make : Span → Handle → α} :
    Decides (do
      match ← nameOf (.scalar s) what with
      | some h => return some (make (← spanOf (.scalar s)) h)
      | none => return none) (Derives (.either .name (.record described)) (.scalar s)) := by
  apply Judges.congr _ derives_named
  refine (nameOf_judges _ _).done fun found _ => ?_
  cases found with
  | none => exact .pure trivial
  | some h => exact .skip (spanOf_judges _) fun _ => .pure trivial

theorem paramOf_judges {n : Yaml.Node} (smaller : small n) :
    Decides (paramOf below n) (Derives .parameter n) := by
  unfold paramOf
  split
  next => exact alone_judges
  next other =>
    apply Judges.congr _ (derives_unnamed other)
    refine described_judges fun m writes => ?_
    have within := writes.within (judge.closed n smaller)
    apply Judges.congr _ (Mapping.describes_of_single rfl)
    refine slot_judges (m.name_judges _) fun _ _ => slot_judges (m.name?_judges _) fun _ _ => ?_
    refine slot_judges (Mapping.node?_judges judge within _) fun _ _ => ?_
    refine slot_judges (m.flag_judges _) fun _ _ => slot_judges (m.flag_judges _) fun _ _ => ?_
    refine slot_judges (m.flag_judges _) fun _ _ => (m.finish_judges _).done fun _ _ => ?_
    exact .skip (spanOf_judges _) fun _ => .pure trivial

theorem fieldOf_judges {n : Yaml.Node} (smaller : small n) :
    Decides (fieldOf below n) (Derives .field n) := by
  unfold fieldOf
  split
  next => exact alone_judges
  next other =>
    apply Judges.congr _ (derives_unnamed other)
    refine described_judges fun m writes => ?_
    have within := writes.within (judge.closed n smaller)
    apply Judges.congr _ (Mapping.describes_of_single rfl)
    refine slot_judges (m.name_judges _) fun _ _ => ?_
    refine slot_judges (Mapping.modifiers_judges judge.closed within _) fun _ _ => ?_
    refine slot_judges (m.name?_judges _) fun _ _ => ?_
    refine slot_judges (Mapping.node?_judges judge within _) fun _ _ => ?_
    refine (m.finish_judges _).done fun _ _ => ?_
    exact .skip (spanOf_judges _) fun _ => .pure trivial

theorem fieldsOf_judges (items : List Yaml.Node) (smaller : ∀ n ∈ items, small n) :
    Decides (fieldsOf below items) (∀ n ∈ items, Derives .field n) :=
  (each_judges (fun _ => fieldOf_judges judge) items smaller).done fun _ _ => .pure trivial

theorem argumentOf_judges {n : Yaml.Node} (smaller : small n) :
    Decides (argumentOf below n) (Derives .argument n) := by
  unfold argumentOf
  extract_lets named
  have described (derivation : Derives (.record .namedArgument) n) : named = true := by
    cases derivation with
    | record alternative distinct known required =>
      cases List.mem_singleton.mp alternative
      obtain ⟨pair, member, keyed⟩ := required _ List.mem_cons_self rfl
      exact List.any_eq_true.mpr ⟨pair, member, beq_iff_eq.mpr keyed.text_eq⟩
  split
  next unnamed =>
    have only : Derives .argument n ↔ Derives .node n := by
      unfold Form.argument
      rw [Grammar.derives_either]
      apply or_iff_left
      intro derivation
      simp [described derivation] at unnamed
    apply Judges.congr _ only
    exact (judge.judges n smaller).done fun _ _ => .pure trivial
  next given =>
    have only : Derives .argument n ↔ Derives (.record .namedArgument) n := by
      unfold Form.argument
      rw [Grammar.derives_either]
      apply or_iff_right
      intro derivation
      cases n with
      | mapping place pairs =>
        obtain ⟨pair, member, same⟩ : ∃ pair ∈ pairs, (pair.1.text == text "named") = true := by
          simpa [named] using given
        exact Grammar.not_named derivation pair member (eq_of_beq same)
      | _ => exact given rfl
    apply Judges.congr _ only
    refine described_judges fun m writes => ?_
    have within := writes.within (judge.closed n smaller)
    apply Judges.congr _ (Mapping.describes_of_single rfl)
    refine slot_judges (m.name_judges _) fun _ _ => ?_
    refine slot_judges (Mapping.node_judges judge within _) fun _ _ => ?_
    exact (m.finish_judges _).done fun _ _ => .pure trivial

theorem argumentsOf_judges (items : List Yaml.Node) (smaller : ∀ n ∈ items, small n) :
    Decides (argumentsOf below items) (∀ n ∈ items, Derives .argument n) :=
  (each_judges (fun _ => argumentOf_judges judge) items smaller).done fun _ _ => .pure trivial

theorem initializerOf_judges {n : Yaml.Node} (smaller : small n) :
    Decides (initializerOf below n) (Derives (.record .initializer) n) := by
  refine described_judges fun m writes => ?_
  have within := writes.within (judge.closed n smaller)
  apply Judges.congr _ (Mapping.describes_of_single rfl)
  refine slot_judges (m.name_judges _) fun _ _ => ?_
  refine slot_judges (Mapping.node_judges judge within _) fun _ _ => ?_
  exact (m.finish_judges _).done fun _ _ => .pure trivial

theorem branchOf_judges {n : Yaml.Node} (smaller : small n) :
    Decides (branchOf below n) (Derives (.record .branch) n) := by
  refine described_judges fun m writes => ?_
  have within := writes.within (judge.closed n smaller)
  apply Judges.congr _ (Mapping.describes_of_single rfl)
  refine slot_judges (Mapping.node_judges judge within _) fun _ _ => ?_
  refine slot_judges (Mapping.body_judges judge within _) fun _ _ => ?_
  exact (m.finish_judges _).done fun _ _ => .pure trivial

/-- A member access is by field or by method, never by both. -/
theorem accessorOf_judges {n : Yaml.Node} (smaller : small n) :
    Decides (accessorOf below n) (Derives (.record .accessor) n) := by
  refine described_judges fun m writes => ?_
  have within := writes.within (judge.closed n smaller)
  have either : m.Describes .accessor ↔ _ := Mapping.describes_of_couple rfl
  have byField (follows : m.Follows [needs "field" .name] (m.Knows ["field"])) :
      m.has "field" ∧ ¬m.has "method" := by
    refine ⟨(follows.1 _ List.mem_cons_self).1 rfl, ?_⟩
    simp [Mapping.has, Mapping.get?_of_knows follows.2 "method" (by decide)]
  have byMethod (follows : m.Follows [needs "method" .name, allows "args" (.list .argument)]
      (m.Knows ["method", "args"])) : m.has "method" ∧ ¬m.has "field" := by
    refine ⟨(follows.1 _ List.mem_cons_self).1 rfl, ?_⟩
    simp [Mapping.has, Mapping.get?_of_knows follows.2 "field" (by decide)]
  split
  next fieldOnly =>
    rw [Bool.and_eq_true, Bool.not_eq_true'] at fieldOnly
    apply Judges.congr _ (either.trans (or_iff_left _))
    · refine slot_judges (m.name_judges _) fun _ _ => (m.finish_judges _).done fun _ _ => ?_
      exact .skip (spanOf_judges _) fun _ => .pure trivial
    · exact fun follows => (byMethod follows).2 fieldOnly.1
  next notField =>
  split
  next methodOnly =>
    rw [Bool.and_eq_true, Bool.not_eq_true'] at methodOnly
    apply Judges.congr _ (either.trans (or_iff_right _))
    · refine slot_judges (m.name_judges _) fun _ _ => ?_
      refine list_judges (items_judges judge.closed within _) (argumentsOf_judges judge) fun _ => ?_
      refine (m.finish_judges _).done fun _ _ => ?_
      exact .skip (spanOf_judges _) fun _ => .pure trivial
    · exact fun follows => (byField follows).2 methodOnly.1
  next notMethod =>
    refine failed_judges (fun describes => ?_) trivial _ _
    rcases either.mp describes with follows | follows
    · exact notField (by simp [byField follows])
    · exact notMethod (by simp [byMethod follows])

theorem accessorsOf_judges (items : List Yaml.Node) (smaller : ∀ n ∈ items, small n) :
    Decides (accessorsOf below items) (∀ n ∈ items, Derives (.record .accessor) n) :=
  (each_judges (fun _ => accessorOf_judges judge) items smaller).done fun _ _ => .pure trivial

theorem methodOf_judges {n : Yaml.Node} (smaller : small n) :
    Decides (methodOf below n) (Derives .method n) := by
  apply (judge.judges n smaller).bind
  · intro node _
    show Decides _ (node.isFunction = true)
    split
    · exact passed_judges rfl trivial
    next other =>
      refine failed_judges (fun function => ?_) trivial _ _
      cases node with
      | function f => exact other f rfl
      | _ => cases function
  · intro node function
    constructor
    · intro derivation
      obtain ⟨place, pairs, rfl⟩ := Grammar.mapping_of_record derivation
      have derived := Grammar.derives_node_mapping.mpr ⟨_, derivation⟩
      exact ⟨derived, (function derived).mpr derivation⟩
    · rintro ⟨derived, isFunction⟩
      exact (function derived).mp isFunction

section

variable {m : Mapping} (within : ∀ e ∈ m.entries, small e.value)
include within

theorem lambdaOf_judges {params : List Yaml.Node} (smaller : ∀ n ∈ params, small n) :
    Decides (lambdaOf below m params)
      (m.Holds (allows "mods" .modifiers) ∧ m.Holds (allows "returns" (.optional .name)) ∧
        (∀ n ∈ params, Derives .parameter n) ∧ m.Holds (allows "body" .body)) := by
  refine .skip (siteAt_judges _) fun _ => ?_
  refine (Mapping.modifiers_judges judge.closed within _).next fun _ _ => ?_
  refine (m.name?_judges _).next fun _ _ => ?_
  refine (each_judges (fun _ => paramOf_judges judge) params smaller).next fun _ _ => ?_
  exact (Mapping.body?_judges judge within _).done fun _ _ => .pure trivial

theorem lambda_judges {α : Type} {key : String} {required : Bool} {more sound : Prop}
    {item : Load (List Yaml.Node)} {f : Lambda Node → Load α} {goal : α → Prop}
    (items : Judges item sound (Lists small sound fun form => m.Holds ⟨key, required, .list form⟩))
    (rest : ∀ l, Judges (f l) (m.Follows [] more) goal) :
    Judges (do f (← lambdaOf below m (← item)))
      (m.Follows (Grammar.lambdaSlots ⟨key, required, .list .parameter⟩) more) goal := by
  apply items.bind (fun list lists => (lambdaOf_judges judge within lists.1).next fun l _ => rest l)
  intro list lists
  have whole : m.Holds ⟨key, required, .list .parameter⟩ ↔ _ := lists.2 .parameter
  simp only [Grammar.lambdaSlots, Mapping.follows_cons, whole]
  constructor
  · rintro ⟨⟨sound, params⟩, mods, returns, body, rest⟩
    exact ⟨sound, ⟨mods, returns, params, body⟩, rest⟩
  · rintro ⟨sound, ⟨mods, returns, params, body⟩, rest⟩
    exact ⟨⟨sound, params⟩, mods, returns, body, rest⟩

theorem chainOf_judges (key : String) :
    Decides (chainOf below m key)
      (m.Follows [needs key .name, allows "access" (.list (.record .accessor))] True) := by
  refine .skip (siteAt_judges _) fun _ => slot_judges (m.name_judges _) fun _ _ => ?_
  refine list_judges (items_judges judge.closed within _) (accessorsOf_judges judge) fun _ => ?_
  exact passed_judges (Mapping.follows_nil.mpr trivial) trivial

end

theorem initOf_judges {n : Yaml.Node} (smaller : small n) :
    Decides (initOf below n) (Derives (.record .initial) n) := by
  refine described_judges fun m writes => ?_
  have within := writes.within (judge.closed n smaller)
  apply Judges.congr _ (Mapping.describes_of_single rfl)
  refine lambda_judges judge within (items_judges judge.closed within _) fun _ => ?_
  exact (m.finish_judges _).done fun _ _ => .pure trivial

theorem classOf_judges {m : Mapping} (within : ∀ e ∈ m.entries, small e.value) :
    Judges (classOf below m)
      (m.Follows [needs "class" .name, allows "supers" (.list .name), allows "params" .modifiers,
        allows "fields" (.list .field), allows "init" (.list (.record .initial)),
        allows "methods" (.list .method), allows "pre" .body, allows "post" .body,
        allows "final" .body, allows "validate" .body] True)
      fun node => node.isFunction = false := by
  have items (key : String) := items_judges judge.closed within key
  have body (key : String) := Mapping.body?_judges judge within key
  refine slot_judges (m.name_judges _) fun _ _ => .skip (siteAt_judges _) fun _ => ?_
  refine list_judges (items _) (each_judges fun n _ => (nameOf_judges n _).any) fun _ => ?_
  refine slot_judges (Mapping.modifiers_judges judge.closed within _) fun _ _ => ?_
  refine list_judges (items _) (fieldsOf_judges judge) fun _ => ?_
  refine list_judges (items _) (each_judges fun _ => initOf_judges judge) fun _ => ?_
  refine list_judges (items _) (each_judges fun _ => methodOf_judges judge) fun _ => ?_
  refine slot_judges (body _) fun _ _ => slot_judges (body _) fun _ _ => ?_
  refine slot_judges (body _) fun _ _ => slot_judges (body _) fun _ _ => ?_
  exact passed_judges (Mapping.follows_nil.mpr trivial) rfl

/-! ### Kinds of nodes -/

section

variable {m : Mapping} (within : ∀ e ∈ m.entries, small e.value) {v : Yaml.Node}
include within

omit within in
theorem consOf_judges (smaller : small v) :
    Judges (consOf below m v) (Derives (.couple .node) v) fun found =>
      found.any Node.isFunction = false := by
  by_cases listed : ∃ place items, v = .sequence place items
  · obtain ⟨place, items, rfl⟩ := listed
    have smalls : ∀ n ∈ items, small n := judge.closed _ smaller
    have read : Judges (itemsOf (.sequence place items) (text "cons")) True fun list =>
        list = items := .pure rfl
    apply read.bind _ fun _ _ => (true_and _).symm.to_iff
    rintro _ rfl
    split
    next a b =>
      have pair : Derives (.couple .node) (.sequence place [a, b]) ↔
          Derives .node a ∧ Derives .node b := by simp [Grammar.derives_couple]
      apply Judges.congr _ pair
      refine (judge.judges a (smalls a (by simp))).next fun _ _ => ?_
      refine (judge.judges b (smalls b (by simp))).done fun _ _ => ?_
      exact .skip (siteAt_judges _) fun _ => .pure rfl
    next other =>
      refine failed_judges (fun derivation => ?_) (by rfl) _ _
      obtain ⟨_, a, b, same, _⟩ := Grammar.derives_couple.mp derivation
      cases same
      exact other a b rfl
  · have unpaired : ¬Derives (.couple .node) v := by
      intro derivation
      obtain ⟨place, a, b, same, _⟩ := Grammar.derives_couple.mp derivation
      exact listed ⟨place, [a, b], same⟩
    -- What is no sequence has no items, be it nothing or reported.
    have empty : Judges (itemsOf v (text "cons")) v.isNull fun list => list = [] := by
      unfold itemsOf
      split
      next place items => exact absurd ⟨place, items, rfl⟩ listed
      next =>
        split
        next null => exact passed_judges null rfl
        next present => exact failed_judges present (by rfl) _ _
    apply Judges.congr _ (show Derives (.couple .node) v ↔ v.isNull ∧ False by simp [unpaired])
    apply empty.next
    rintro _ rfl
    exact failed_judges not_false (by rfl) v _

theorem operationOf_judges (own : m.get? "op" = some v) :
    Judges (operationOf below m v)
      (m.Follows [needs "op" (.word Operator.symbols), allows "args" .nodes] True) fun found =>
        found.any Node.isFunction = false := by
  unfold operationOf
  split
  next s op found =>
    have known : m.Holds (needs "op" (.word Operator.symbols)) := by
      obtain ⟨index, found, _⟩ := Option.map_eq_some_iff.mp found
      exact (Mapping.holds_of_get own true).mpr
        (derives_word_scalar.mpr (found_word.mp ⟨index, found⟩))
    apply Judges.congr _ (Mapping.follows_cons.trans (and_iff_right known))
    have items := items_judges judge.closed within "args"
    refine list_judges items (nodesOf_judges judge) fun operands => ?_
    refine .skip (siteAt_judges _) fun _ => ?_
    apply passed_judges (Mapping.follows_nil.mpr trivial)
    split <;> rfl
  next unknown =>
    have wrong : ¬m.Holds (needs "op" (.word Operator.symbols)) := by
      intro holds
      obtain ⟨s, same, word⟩ := Grammar.derives_word.mp ((Mapping.holds_of_get own true).mp holds)
      obtain ⟨index, found⟩ := found_word.mpr word
      cases same
      exact unknown s ⟨index + 1⟩ rfl (by simp [Operator.ofSymbol?, Yaml.Node.text, found])
    apply Judges.congr _ (iff_false_intro fun follows => wrong (Mapping.follows_cons.mp follows).1)
    apply reported_judges ((items_judges judge.closed within "args").done _)
    exact fun _ _ => .pure rfl

theorem randomOf_judges (own : m.get? "rand" = some v) :
    Judges (randomOf below m v) (m.Describes (.node "rand")) fun found =>
      found.any Node.isFunction = false := by
  apply Judges.congr _ (Mapping.describes_of_single rfl)
  unfold randomOf
  extract_lets kind
  have word : m.Holds (needs "rand" (.word ["int", "float"])) ↔ kind.isSome := by
    apply (Mapping.holds_of_get own true).trans
    cases v with
    | scalar s =>
      rw [derives_word_scalar]
      by_cases isInt : s.value = text "int"
      · simp [kind, isInt]
      · by_cases isFloat : s.value = text "float"
        · simp [kind, isFloat, text_inj]
        · simp [kind, isInt, isFloat]
    | _ => simp [kind, Grammar.derives_word]
  clear_value kind
  cases kind with
  | none =>
    have wrong : ¬m.Holds (needs "rand" (.word ["int", "float"])) := by simp [word]
    apply Judges.congr _ (iff_false_intro fun follows => wrong (Mapping.follows_cons.mp follows).1)
    apply reported_judges ((m.finish_judges ["rand"]).done _)
    exact fun _ _ => .pure rfl
  | some isFloat =>
    apply Judges.congr _ (Mapping.follows_cons.trans (and_iff_right (word.mpr rfl)))
    refine slot_judges (Mapping.node?_judges judge within _) fun _ _ => ?_
    refine slot_judges (Mapping.node?_judges judge within _) fun _ _ => ?_
    refine (m.finish_judges _).done fun _ _ => .skip (siteAt_judges _) fun _ => .pure rfl

omit judge within in
/-- A list access is by an index or by a pattern; a pattern that is nothing does not count. -/
theorem describes_access (own : m.get? "at" = some v) :
    m.Describes (.node "at") ↔
      (Derives .node v ∧ m.Holds (allows "index" .node) ∧
        m.Holds (allows "pattern" (.optional .name)) ∧
        (m.has "index" ↔ ¬∃ w, m.get? "pattern" = some w ∧ Derives .name w)) ∧
      m.Knows ["at", "index", "pattern"] := by
  have target (form : Form) : m.Holds (needs "at" form) ↔ Derives form v :=
    Mapping.holds_of_get own true
  apply (Mapping.describes_of_couple rfl).trans
  simp only [Mapping.follows_cons, Mapping.follows_nil, target, Mapping.holds_allows]
  constructor
  · rintro (⟨derived, index, pattern, knows⟩ | ⟨derived, pattern, knows⟩)
    · refine ⟨⟨derived, index.2, fun w found => ?_, ?_⟩, knows⟩
      · exact Mapping.derives_optional.mpr (.inl (Grammar.derives_null.mp (pattern w found)))
      · refine iff_of_true (index.1 rfl) ?_
        rintro ⟨w, found, named⟩
        obtain ⟨s, rfl, present, _⟩ := Grammar.derives_name.mp named
        have null := Grammar.derives_null.mp (pattern _ found)
        exact absurd (null.symm.trans present) (by decide)
    · have noIndex : m.get? "index" = none := Mapping.get?_of_knows knows "index" (by decide)
      obtain ⟨w, found⟩ := Option.isSome_iff_exists.mp (pattern.1 rfl)
      refine ⟨⟨derived, by simp [noIndex], fun w found => ?_, ?_⟩, ?_⟩
      · exact Mapping.derives_optional.mpr (.inr (pattern.2 w found))
      · apply iff_of_false (by simp [Mapping.has, noIndex])
        exact not_not.mpr ⟨w, found, pattern.2 w found⟩
      · intro e member
        obtain ⟨key, among, same⟩ := knows e member
        have subset : ["at", "pattern"] ⊆ ["at", "index", "pattern"] := by decide
        exact ⟨key, subset among, same⟩
  · rintro ⟨⟨derived, index, pattern, exactly⟩, knows⟩
    by_cases indexed : m.has "index"
    · refine .inl ⟨derived, ⟨fun _ => indexed, index⟩, fun w found => ?_, knows⟩
      rcases Mapping.derives_optional.mp (pattern w found) with null | named
      · exact .null null
      · exact absurd ⟨w, found, named⟩ (exactly.mp indexed)
    · obtain ⟨w, found, named⟩ := not_not.mp (mt exactly.mpr indexed)
      have noIndex : m.get? "index" = none := by simpa [Mapping.has] using indexed
      exact .inr ⟨derived, (Mapping.holds_of_get found true).mpr named, knows.without noIndex⟩

theorem accessOf_judges (own : m.get? "at" = some v) :
    Judges (accessOf below m v)
      (Derives .node v ∧ m.Holds (allows "index" .node) ∧
        m.Holds (allows "pattern" (.optional .name)) ∧
        (m.has "index" ↔ ¬∃ w, m.get? "pattern" = some w ∧ Derives .name w))
      fun found => found.any Node.isFunction = false := by
  refine (judge.judges v (Mapping.small_of_get within own)).next fun _ _ => ?_
  refine (Mapping.node?_judges judge within "index").next fun index indexed => ?_
  refine (m.name?_judges "pattern").next fun pattern named => ?_
  rw [← indexed, ← named]
  split
  next equal =>
    rw [beq_iff_eq] at equal
    refine failed_judges ?_ (by rfl) _ _
    rw [equal]
    exact iff_not_self
  next different =>
    have exactly : index.isSome = true ↔ ¬pattern.isValid = true := by
      cases first : index.isSome <;> cases second : pattern.isValid <;>
        simp [first, second] at different ⊢
    apply Judges.congr _ (iff_true_intro exactly)
    exact .skip (siteAt_judges _) fun _ => .pure rfl

omit judge within in
/-- The end of most kinds: unknown keys are reported, and the node is built from its parts. -/
theorem built_judges {known : List String} {make : Site → Node} {post : Option Node → Prop}
    (holds : ∀ site, post (some (make site))) :
    Judges (do m.finish known; return some (make (← siteAt m.origin)))
      (m.Follows [] (m.Knows known)) post :=
  (m.finish_judges known).done fun _ _ => .skip (siteAt_judges _) fun site => .pure (holds site)

omit judge within in
theorem given_judges {known : List String} {found : Option Node} {post : Option Node → Prop}
    (holds : post found) :
    Judges (do m.finish known; return found) (m.Follows [] (m.Knows known)) post :=
  (m.finish_judges known).done fun _ _ => .pure holds

/-- A mapping of a kind is judged by the slots of the kind, and it is read as a function exactly
if its kind is that of functions. -/
theorem kindOf_judges {kind : String} (known : kind ∈ kindKeys) (own : m.get? kind = some v) :
    Judges (kindOf below m kind v) (m.Describes (.node kind)) fun found =>
      found.any Node.isFunction = (kind == "func") := by
  have smaller := Mapping.small_of_get within own
  have node (key : String) := Mapping.node_judges judge within key
  have node? (key : String) := Mapping.node?_judges judge within key
  have body (key : String) := Mapping.body_judges judge within key
  have body? (key : String) := Mapping.body?_judges judge within key
  have modifiers (key : String) := Mapping.modifiers_judges judge.closed within key
  have items (key : String) := items_judges judge.closed within key
  have ownItems (what : Text) := ownItems_judges judge.closed within own what
  have ownSlot {form : Form} : m.Holds (needs kind form) ↔ Derives form v :=
    Mapping.holds_of_get own true
  have ownNode := (judge.judges v smaller).congr ownSlot
  unfold kindOf
  dsimp only
  split
  -- int, float, bool
  case h_1 | h_2 | h_3 =>
    apply Judges.congr _ (Mapping.describes_of_single rfl)
    exact slot_judges ((literalOf_judges _ v).congr ownSlot) fun _ leaf => given_judges leaf
  -- string
  case h_4 =>
    apply Judges.congr _ (Mapping.describes_of_single rfl)
    apply Judges.congr _ (Mapping.follows_cons.trans (and_congr_left fun _ => ownSlot))
    split
    · apply Judges.congr _ (and_iff_right .scalar)
      exact built_judges fun _ => rfl
    next other =>
      have wrong : ¬Derives .scalar v := by
        intro derivation
        obtain ⟨s, same⟩ := Grammar.derives_scalar.mp derivation
        exact other s same
      apply Judges.congr _ (iff_false_intro fun follows => wrong follows.1)
      apply reported_judges
      exact given_judges rfl
  -- nil, quote, pair
  case h_5 | h_6 | h_7 =>
    apply Judges.congr _ (Mapping.describes_of_single rfl)
    apply Judges.congr _ (Mapping.follows_cons.trans (and_iff_right (ownSlot.mpr .anything)))
    exact built_judges fun _ => rfl
  -- vector, do, list
  case h_8 | h_16 | h_22 =>
    apply Judges.congr _ (Mapping.describes_of_single rfl)
    refine list_judges (ownItems _) (nodesOf_judges judge) fun _ => ?_
    exact built_judges fun _ => rfl
  -- ref
  · apply Judges.congr _ (Mapping.describes_of_single rfl)
    refine slot_judges ((nameOf_judges v _).congr ownSlot) fun found _ => ?_
    refine (m.finish_judges _).done fun _ _ => ?_
    cases found with
    | none => exact .pure rfl
    | some h => exact .skip (siteAt_judges _) fun _ => .pure rfl
  -- def
  · apply Judges.congr _ (Mapping.describes_of_single rfl)
    refine slot_judges (m.name_judges _) fun _ _ => slot_judges (modifiers _) fun _ _ => ?_
    refine slot_judges (node _) fun _ _ => slot_judges (m.name?_judges _) fun _ _ => ?_
    exact built_judges fun _ => rfl
  -- lambda
  · apply Judges.congr _ (Mapping.describes_of_single rfl)
    exact lambda_judges judge within (ownItems _) fun _ => given_judges rfl
  -- func
  · apply Judges.congr _ (Mapping.describes_of_single rfl)
    refine slot_judges (m.name_judges _) fun _ _ => ?_
    exact lambda_judges judge within (items _) fun _ => built_judges fun _ => rfl
  -- struct
  · apply Judges.congr _ (Mapping.describes_of_single rfl)
    refine slot_judges (m.name_judges _) fun _ _ => ?_
    refine list_judges (items _) (fieldsOf_judges judge) fun _ => ?_
    exact built_judges fun _ => rfl
  -- class
  · apply Judges.congr _ ((Mapping.describes_of_single rfl).trans Mapping.follows_iff)
    exact (classOf_judges judge within).next fun _ leaf => given_judges leaf
  -- set
  · apply Judges.congr _ (Mapping.describes_of_single rfl)
    refine slot_judges (m.name_judges _) fun _ _ => slot_judges (node _) fun _ _ => ?_
    exact built_judges fun _ => rfl
  -- print
  · apply Judges.congr _ (Mapping.describes_of_single rfl)
    exact slot_judges ownNode fun _ _ => built_judges fun _ => rfl
  -- if
  · apply Judges.congr _ (Mapping.describes_of_single rfl)
    refine slot_judges ownNode fun _ _ => slot_judges (body _) fun _ _ => ?_
    exact slot_judges (body? _) fun _ _ => built_judges fun _ => rfl
  -- cond
  · apply Judges.congr _ (Mapping.describes_of_single rfl)
    refine list_judges (ownItems _) (each_judges fun _ => branchOf_judges judge) fun _ => ?_
    exact slot_judges (body? _) fun _ _ => built_judges fun _ => rfl
  -- while
  · apply Judges.congr _ (Mapping.describes_of_single rfl)
    refine slot_judges ownNode fun _ _ => slot_judges (body? _) fun _ _ => ?_
    exact slot_judges (m.flag_judges _) fun _ _ => built_judges fun _ => rfl
  -- cons
  · apply Judges.congr _ (Mapping.describes_of_single rfl)
    exact slot_judges ((consOf_judges judge smaller).congr ownSlot) fun _ leaf => given_judges leaf
  -- at
  · apply Judges.congr _ (describes_access own)
    refine (accessOf_judges judge within own).next fun _ leaf => ?_
    exact (given_judges leaf).congr Mapping.follows_nil.symm
  -- call, make
  case h_24 | h_30 =>
    apply Judges.congr _ (Mapping.describes_of_single rfl)
    refine slot_judges (m.name_judges _) fun _ _ => ?_
    refine list_judges (items _) (argumentsOf_judges judge) fun _ => ?_
    exact built_judges fun _ => rfl
  -- invoke
  · apply Judges.congr _ (Mapping.describes_of_single rfl)
    refine slot_judges ownNode fun _ _ => ?_
    refine list_judges (items _) (accessorsOf_judges judge) fun _ => ?_
    refine list_judges (items _) (argumentsOf_judges judge) fun _ => ?_
    exact built_judges fun _ => rfl
  -- get
  · apply Judges.congr _ ((Mapping.describes_of_single rfl).trans Mapping.follows_iff)
    exact (chainOf_judges judge within _).next fun _ _ => given_judges rfl
  -- put
  · apply Judges.congr _ (Mapping.describes_of_single rfl)
    apply Judges.congr _ (Mapping.follows_append [_, _] [_])
    refine (chainOf_judges judge within _).next fun _ _ => slot_judges (node _) fun _ _ => ?_
    exact built_judges fun _ => rfl
  -- rand
  · exact randomOf_judges judge within own
  -- new
  · apply Judges.congr _ (Mapping.describes_of_single rfl)
    refine slot_judges (m.name_judges _) fun _ _ => ?_
    refine list_judges (items _) (each_judges fun _ => initializerOf_judges judge) fun _ => ?_
    exact built_judges fun _ => rfl
  -- op
  · have last : kind = "op" := by
      simp only [imp_false] at *
      simpa [kindKeys, *] using known
    subst last
    apply Judges.congr _ ((Mapping.describes_of_single rfl).trans Mapping.follows_iff)
    exact (operationOf_judges judge within own).next fun _ leaf => given_judges leaf

end

/-! ### Nodes -/

omit judge in
theorem kindKey?_iff {k : Yaml.Node} {kind : String} :
    kindKey? k = some kind ↔ Keyed k kind ∧ kind ∈ kindKeys := by
  unfold kindKey? Keyed
  split
  next s =>
    constructor
    · intro found
      have same := List.find?_some found
      exact ⟨⟨s, rfl, (eq_of_beq same).symm⟩, List.mem_of_find?_eq_some found⟩
    · rintro ⟨⟨_, same, value⟩, known⟩
      cases same
      cases found : kindKeys.find? fun k => text k == s.value with
      | none => exact absurd (beq_iff_eq.mpr value.symm) (List.find?_eq_none.mp found kind known)
      | some other =>
        have same := List.find?_some found
        rw [beq_iff_eq] at same
        rw [Text.text_injective (same.trans value)]
  next other =>
    constructor
    · nofun
    · rintro ⟨⟨s, same, _⟩, _⟩
      exact absurd same (other s)

/-- The kinds that the keys of a mapping name, after one that was found before. -/
def kindsNamed (found : Option String) (pairs : List (Yaml.Node × Yaml.Node)) : List String :=
  found.toList ++ pairs.filterMap fun pair => kindKey? pair.1

omit judge in
theorem kindIn_judges (n : Yaml.Node) (found : Option String)
    (pairs : List (Yaml.Node × Yaml.Node)) :
    Judges (kindIn n found pairs) (∃ kind, kindsNamed found pairs = [kind]) fun result =>
      ∀ kind, result = some kind ↔ kindsNamed found pairs = [kind] := by
  induction pairs generalizing found with
  | nil =>
    cases found with
    | some kind => exact passed_judges ⟨kind, rfl⟩ (by simp [kindsNamed])
    | none => exact failed_judges (by simp [kindsNamed]) (by simp [kindsNamed]) _ _
  | cons pair rest ih =>
    cases key : kindKey? pair.1 with
    | none =>
      have same : kindsNamed found (pair :: rest) = kindsNamed found rest := by
        simp [kindsNamed, key]
      rw [same]
      cases found <;> simpa only [kindIn, key] using ih _
    | some other =>
      cases found with
      | none =>
        have same : kindsNamed none (pair :: rest) = kindsNamed (some other) rest := by
          simp [kindsNamed, key]
        rw [same]
        simpa only [kindIn, key] using ih (some other)
      | some kind =>
        simp only [kindIn, key]
        exact failed_judges (by simp [kindsNamed, key]) (by simp [kindsNamed, key]) _ _

omit judge in
theorem kindsNamed_of_record {kind : String} {place : Yaml.Place}
    {pairs : List (Yaml.Node × Yaml.Node)}
    (derivation : Derives (.record (.node kind)) (.mapping place pairs)) :
    kindsNamed none pairs = [kind] := by
  have only := Grammar.only_kind derivation
  cases derivation with
  | record alternative distinct _ required =>
    have production := Grammar.mem_productions alternative
    have known : kind ∈ kindKeys := by
      rw [← Grammar.kinds_eq]
      exact List.mem_eraseDups.mpr (List.mem_map_of_mem production)
    obtain ⟨slot, among, needed, rfl : slot.key = kind⟩ := (Grammar.kind_of_slot _ production).1
    obtain ⟨pair, member, keyed⟩ := required slot among needed
    -- The kind is among those named, every one named is that kind, and keys are distinct.
    have named : slot.key ∈ kindsNamed none pairs :=
      List.mem_filterMap.mpr ⟨pair, member, kindKey?_iff.mpr ⟨keyed, known⟩⟩
    have all : ∀ other ∈ kindsNamed none pairs, other = slot.key := by
      intro other found
      obtain ⟨pair, member, key⟩ := List.mem_filterMap.mp found
      obtain ⟨keyed, known⟩ := kindKey?_iff.mp key
      exact only pair member other (Grammar.kinds_eq ▸ known) keyed
    have once : (kindsNamed none pairs).Nodup := by
      refine List.Pairwise.filterMap _ ?_ (List.pairwise_map.mp distinct.2)
      rintro first second different kind here _ there rfl
      apply different
      rw [(kindKey?_iff.mp here).1.text_eq, (kindKey?_iff.mp there).1.text_eq]
    have repeated := List.eq_replicate_of_mem all
    have atMost : (kindsNamed none pairs).length ≤ 1 := by
      rw [repeated] at once
      exact List.nodup_replicate.mp once
    have atLeast := List.length_pos_of_mem named
    rw [repeated, show (kindsNamed none pairs).length = 1 by omega]
    rfl

omit judge in
theorem derives_of_single {kind : String} {place : Yaml.Place}
    {pairs : List (Yaml.Node × Yaml.Node)} (single : kindsNamed none pairs = [kind]) :
    Derives .node (.mapping place pairs) ↔
      Derives (.record (.node kind)) (.mapping place pairs) := by
  rw [Grammar.derives_node_mapping]
  constructor
  · rintro ⟨other, described⟩
    cases single.symm.trans (kindsNamed_of_record described)
    exact described
  · exact fun described => ⟨kind, described⟩

omit judge in
theorem get?_of_single {kind : String} {place : Yaml.Place} {what : Text} {m : Mapping}
    {pairs : List (Yaml.Node × Yaml.Node)} (single : kindsNamed none pairs = [kind])
    (writes : Writes (.mapping place pairs) what m) :
    kind ∈ kindKeys ∧ ∃ v, m.get? kind = some v := by
  have among : kind ∈ kindsNamed none pairs := by
    rw [single]
    exact List.mem_cons_self
  obtain ⟨pair, member, key⟩ := List.mem_filterMap.mp among
  obtain ⟨keyed, known⟩ := kindKey?_iff.mp key
  obtain ⟨_, _, same, distinct, rfl⟩ := writes
  cases same
  exact ⟨known, pair.2, (get?_iff distinct _ kind _).mpr ⟨pair, member, keyed, rfl⟩⟩

theorem compoundOf?_judges {place : Yaml.Place} {pairs : List (Yaml.Node × Yaml.Node)}
    (parts : Parts small (.mapping place pairs)) :
    Judges (compoundOf? below (.mapping place pairs) pairs) (Derives .node (.mapping place pairs))
      fun found => Derives .node (.mapping place pairs) →
        (found.any Node.isFunction ↔ Derives .method (.mapping place pairs)) := by
  have both (result : Option String)
      (named : ∀ kind, result = some kind ↔ kindsNamed none pairs = [kind]) :
      Derives .node (.mapping place pairs) ↔ (∃ kind, kindsNamed none pairs = [kind]) ∧
        ∀ kind, result = some kind → Derives (.record (.node kind)) (.mapping place pairs) := by
    constructor
    · intro derived
      obtain ⟨kind, described⟩ := Grammar.derives_node_mapping.mp derived
      refine ⟨⟨kind, kindsNamed_of_record described⟩, fun other same => ?_⟩
      exact (derives_of_single ((named other).mp same)).mp derived
    · rintro ⟨⟨kind, single⟩, all⟩
      exact (derives_of_single single).mpr (all kind ((named kind).mpr single))
  apply (kindIn_judges (.mapping place pairs) none pairs).bind _ both
  intro result named
  cases result with
  | none =>
    refine passed_judges (by simp) fun derived => ?_
    obtain ⟨kind, described⟩ := Grammar.derives_node_mapping.mp derived
    have found := (named kind).mpr (kindsNamed_of_record described)
    cases found
  | some kind =>
    have single := (named kind).mp rfl
    apply Judges.congr _ (show _ ↔ Derives (.record (.node kind)) (.mapping place pairs) by simp)
    apply describing_judges
    · intro m writes
      have within := writes.within parts
      obtain ⟨known, v, own⟩ := get?_of_single single writes
      simp only [own]
      refine (kindOf_judges judge within known own).mono fun found function derived => ?_
      rw [function, beq_iff_eq]
      constructor
      · rintro rfl
        exact (derives_of_single single).mp derived
      · intro method
        exact (List.cons.inj (single.symm.trans (kindsNamed_of_record method))).1
    · intro unwritten derived
      have described := (derives_of_single single).mp derived
      exact absurd (writes_of_record described _) unwritten

theorem compoundOf_judges {place : Yaml.Place} {pairs : List (Yaml.Node × Yaml.Node)}
    (parts : Parts small (.mapping place pairs)) :
    Judges (compoundOf below (.mapping place pairs) pairs) (Derives .node (.mapping place pairs))
      fun node => Derives .node (.mapping place pairs) →
        (node.isFunction ↔ Derives .method (.mapping place pairs)) := by
  refine (compoundOf?_judges judge parts).done fun found function => ?_
  cases found with
  | none =>
    apply (placeholder_judges _).mono
    rintro _ ⟨site, rfl⟩
    exact function
  | some node => exact .pure function

omit judge in
theorem countAliased_judges (n : Yaml.Node) :
    Judges (countAliased n) True fun exceeded => exceeded = false := by
  rintro ⟨file, document, through⟩ s direct rooted
  cases direct
  exact ⟨rfl, rooted, Nat.le_refl _, iff_true_intro rfl⟩

theorem nodeStep_judges {n : Yaml.Node} (parts : Parts small n) :
    Judges (nodeStep below n) (Derives .node n) fun node =>
      Derives .node n → (node.isFunction ↔ Derives .method n) := by
  have plain {node : Node} (leaf : node.isFunction = false)
      (other : ∀ place pairs, n ≠ .mapping place pairs) :
      node.isFunction ↔ Derives .method n := by
    refine iff_of_false (by simp [leaf]) fun derivation => ?_
    obtain ⟨place, pairs, same⟩ := Grammar.mapping_of_record derivation
    exact other place pairs same
  apply (countAliased_judges n).bind _ fun _ _ => (true_and _).symm.to_iff
  rintro _ rfl
  cases n with
  | scalar s =>
    exact (scalarOf_judges s).mono fun node leaf _ => plain leaf.1 nofun
  | sequence place items =>
    apply Judges.congr _ Grammar.derives_node_sequence
    refine .skip (siteAt_judges _) fun _ => ?_
    refine (nodesOf_judges judge items parts).done fun _ _ => .pure fun _ => plain rfl nofun
  | mapping place pairs => exact compoundOf_judges judge parts
  | _ => exact parts.elim

end

end Load

end TreeCheck
