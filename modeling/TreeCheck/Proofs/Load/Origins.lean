import TreeCheck.Proofs.Load.Harvest
import TreeCheck.Proofs.Load.Plan

/-!
Where the parts of a tree come from. Rule by rule, what is read goes into the node that is handed
on, each number and each child once; so in the tree of a file no number stands twice, every position
is the position of a node of its document, and if nothing was objected to, every declared name is
written there.
-/

namespace TreeCheck.Load

open Node (allVisits)

variable {α : Type} {o : Source}

/-! ### Nodes from what was read -/

abbrev CollectsNode (o : Source) (x : Load Node) : Prop :=
  Collects o ∅ x (fun _ => True) fun n => .ofNodes [n]

abbrev CollectsPart (o : Source) (given : Harvest) (x : Load (Option α)) (post : α → Prop)
    (new : α → Harvest) : Prop :=
  Collects o given x (fun found => ∀ a ∈ found, post a) fun found => .gather new found.toList

abbrev CollectsSlot (o : Source) (given : Harvest) (x : Load (Option Node)) : Prop :=
  CollectsPart o given x (fun _ => True) fun n => .ofNodes [n]

/-- A node is made of what was read, its number and its position included. -/
structure Made (h : Harvest) (n : Node) : Prop where
  own : h.ids = [n.id]
  kids : n.children.Perm h.nodes
  spans : ∀ p ∈ n.spans, p ∈ h.spans
  bare : ∀ a ∈ n.accessors, a.isField = true → a.args = []
  names : ∀ x, x ∈ n.declares ∨ n.defines? = some x → x ∈ h.names

/-- A node that keeps no position but its own, accesses no members and declares nothing. -/
structure Plain (n : Node) : Prop where
  spans : n.spans = [n.span]
  accessors : n.accessors = []
  declares : n.declares = []
  defines : n.defines? = none

theorem Made.holds {h : Harvest} {n : Node} (made : Made h n) {low : Nat} {s : State}
    (held : o.Holds low s h) : o.Holds low s (.ofNodes [n]) :=
  held.node (made.own ▸ .refl _) made.kids.subperm made.spans made.bare made.names

theorem Plain.made {n : Node} {site : Site} {h : Harvest} (plain : Plain n) (same : n.site = site)
    (spent : h.ids = []) (kids : n.children.Perm h.nodes) : Made (h ++ .ofSite site) n := by
  subst same
  refine ⟨?_, ?_, ?_, ?_, ?_⟩
  · rw [Harvest.append_ids, spent]
    rfl
  · show n.children.Perm (h.nodes ++ [])
    rwa [List.append_nil]
  · rw [plain.spans]
    exact fun p own => List.mem_append_right _ own
  · rw [plain.accessors]
    nofun
  · rw [plain.declares, plain.defines]
    rintro x (member | defined)
    · cases member
    · cases defined

theorem made_collects {n : Yaml.Node} {given : Harvest} {make : Site → Node}
    (has : o.document.Has n)
    (made : ∀ site, site.span = o.spanOf n → Made (given ++ .ofSite site) (make site)) :
    Collects o given (do return make (← siteAt n)) (fun _ => True) fun n => .ofNodes [n] :=
  (siteAt_collects has).bind fun site placed =>
    .pure trivial fun _ _ held => (made site placed).holds held

theorem madeSlot_collects {n : Yaml.Node} {given : Harvest} {make : Site → Node}
    (has : o.document.Has n)
    (made : ∀ site, site.span = o.spanOf n → Made (given ++ .ofSite site) (make site)) :
    CollectsSlot o given (do return some (make (← siteAt n))) :=
  (siteAt_collects has).bind fun site placed =>
    .some trivial fun _ _ held => (made site placed).holds held

theorem placeholder_collects {n : Yaml.Node} (has : o.document.Has n) :
    CollectsNode o (placeholder n) :=
  made_collects has fun _ _ => Plain.made ⟨rfl, rfl, rfl, rfl⟩ rfl rfl (.refl _)

theorem scalarOf_collects {s : Yaml.Scalar} (has : o.document.Has (.scalar s)) :
    CollectsNode o (scalarOf s) := by
  have replaced (message : Text) :
      CollectsNode o (do fail (.scalar s) message; placeholder (.scalar s)) :=
    .skip (fail_passes has _) fun _ _ => placeholder_collects has
  have literal {make : Site → Node} (made : ∀ site, Made (∅ ++ .ofSite site) (make site)) :
      CollectsNode o (do return make (← siteAt (.scalar s))) :=
    made_collects has fun site _ => made site
  unfold scalarOf
  dsimp only
  split
  · exact literal fun _ => Plain.made ⟨rfl, rfl, rfl, rfl⟩ rfl rfl (.refl _)
  split
  · split
    · exact literal fun _ => Plain.made ⟨rfl, rfl, rfl, rfl⟩ rfl rfl (.refl _)
    · exact replaced _
  split
  · split
    · exact literal fun _ => Plain.made ⟨rfl, rfl, rfl, rfl⟩ rfl rfl (.refl _)
    · exact replaced _
  split
  · split
    · exact literal fun _ => Plain.made ⟨rfl, rfl, rfl, rfl⟩ rfl rfl (.refl _)
    · exact replaced _
  split
  · split
    · exact literal fun _ => Plain.made ⟨rfl, rfl, rfl, rfl⟩ rfl rfl (.refl _)
    split
    · exact replaced _
    · refine (siteAt_collects has).bind fun site _ => .skip (intern_passes _) fun h _ => ?_
      refine .pure trivial fun _ _ held => Made.holds ?_ held
      exact Plain.made ⟨rfl, rfl, rfl, rfl⟩ rfl rfl (.refl _)
  · exact replaced _

/-! ### What the parts of nodes bring -/

namespace Harvest

/-- What a parameter brings: its default, its position and its name. -/
def ofParam (p : Param Node) : Harvest :=
  ⟨[], p.default.toList, [p.span], [(p.name, p.span)]⟩

def ofField (f : Field Node) : Harvest :=
  ⟨[], f.default.toList, [f.span], [(f.name, f.span)]⟩

def ofAccessor (a : Accessor Node) : Harvest :=
  ⟨[], Node.ofArguments a.args, [a.span], []⟩

def ofMethod (f : Function Node) : Harvest :=
  ⟨[], [.function f], [], [(f.name, f.site.span)]⟩

theorem gather_slots (slots : List α) (slot : α → Option Node) :
    gather (fun a => ofNodes (slot a).toList) slots = ofNodes (slots.filterMap slot) := by
  simp [gather, ofNodes, List.filterMap_eq_flatMap_toList]

theorem gather_nodes (make : α → Node) (parts : List α) :
    gather (fun a => ofNodes [make a]) parts = ofNodes (parts.map make) := by
  simp [gather, ofNodes, List.map_eq_flatMap]

theorem gather_params (params : List (Param Node)) :
    gather ofParam params = ⟨[], params.filterMap (·.default), params.map (·.span),
      params.map fun p => (p.name, p.span)⟩ := by
  simp [gather, ofParam, List.filterMap_eq_flatMap_toList, List.map_eq_flatMap]

theorem gather_fields (fields : List (Field Node)) :
    gather ofField fields = ⟨[], fields.filterMap (·.default), fields.map (·.span),
      fields.map fun f => (f.name, f.span)⟩ := by
  simp [gather, ofField, List.filterMap_eq_flatMap_toList, List.map_eq_flatMap]

theorem gather_accessors (accessors : List (Accessor Node)) :
    gather ofAccessor accessors =
      ⟨[], Node.ofAccessors accessors, accessors.map (·.span), []⟩ := by
  simp [gather, ofAccessor, Node.ofAccessors, List.map_eq_flatMap]

theorem gather_branches (branches : List (Branch Node)) :
    gather (fun b => ofNodes (b.guard.toList ++ b.body.toList)) branches =
      ofNodes (Node.ofBranches branches) := by
  simp [gather, ofNodes, Node.ofBranches]

theorem gather_methods (methods : List (Function Node)) :
    gather ofMethod methods = ⟨[], methods.map .function, [],
      methods.map fun f => (f.name, f.site.span)⟩ := by
  simp [gather, ofMethod, List.map_eq_flatMap]

end Harvest

theorem Source.Holds.declared {low : Nat} {s : State} {name : Handle} {p : Span}
    {nodes : List Node}
    (held : o.Holds low s (∅ ++ .ofName name p ++ .ofNodes nodes ++ .ofSpan p)) :
    o.Holds low s ⟨[], nodes, [p], [(name, p)]⟩ := by
  have same : nodes.Subperm (nodes ++ []) := (List.Perm.of_eq (List.append_nil _).symm).subperm
  exact held.part (.refl _) same (fun _ member => member) fun _ member => member

section

variable {below : Yaml.Node → Load Node}
  (collects : ∀ n, o.document.Has n → CollectsNode o (below n))
include collects

theorem nodesOf_collects {items : List Yaml.Node} (has : ∀ n ∈ items, o.document.Has n) :
    Collects o ∅ (nodesOf below items) (fun _ => True) fun slots =>
      .ofNodes (slots.filterMap (·)) := by
  have each : ∀ n ∈ items, Collects o ∅ (some <$> below n) (fun _ => True) fun slot =>
      .ofNodes slot.toList := by
    intro n member
    rw [map_eq_pure_bind]
    exact (collects n (has n member)).bind fun _ _ => .pure trivial fun _ _ held => held
  refine ((Collects.mapM each).mono fun _ _ => trivial).turn ?_
  intro slots low s held
  rwa [Harvest.gather_slots] at held

theorem bodyOf_collects {n : Yaml.Node} (has : o.document.Has n) :
    CollectsNode o (bodyOf below n) := by
  unfold bodyOf
  split
  next place items =>
    refine (siteAt_collects has).bind fun site _ => ?_
    refine (nodesOf_collects collects (has_items has)).bind fun slots _ => ?_
    refine .pure trivial fun _ _ held => Made.holds ?_ held.comm
    exact Plain.made ⟨rfl, rfl, rfl, rfl⟩ rfl rfl (.refl _)
  next => exact collects n has

namespace Mapping

variable {m : Mapping} (source : m.From o)
include source

theorem node_collects (key : String) : CollectsNode o (m.node below key) := by
  refine .skip (require_passes source key) fun found has => ?_
  split
  next v => exact collects v (has v rfl)
  next => exact placeholder_collects source.has

theorem node?_collects (key : String) :
    Collects o ∅ (m.node? below key) (fun _ => True) fun slot => .ofNodes slot.toList := by
  unfold node?
  split
  next v found =>
    rw [map_eq_pure_bind]
    exact (collects v (source.get found).1).bind fun _ _ => .pure trivial fun _ _ held => held
  next => exact .pure trivial fun _ _ held => held

theorem body_collects (key : String) : CollectsNode o (m.body below key) := by
  refine .skip (require_passes source key) fun found has => ?_
  split
  next v => exact bodyOf_collects collects (has v rfl)
  next => exact placeholder_collects source.has

theorem body?_collects (key : String) :
    Collects o ∅ (m.body? below key) (fun _ => True) fun slot => .ofNodes slot.toList := by
  unfold body?
  split
  next v found =>
    rw [map_eq_pure_bind]
    exact (bodyOf_collects collects (source.get found).1).bind fun _ _ =>
      .pure trivial fun _ _ held => held
  next => exact .pure trivial fun _ _ held => held

end Mapping

/-! ### Parts of nodes -/

theorem paramOf_collects {n : Yaml.Node} (has : o.document.Has n) :
    CollectsPart o ∅ (paramOf below n) (fun _ => True) .ofParam := by
  unfold paramOf
  split
  · refine (nameOf_collects has has (fun v same => same ▸ .own v) _).bind fun name _ => ?_
    split
    · refine (spanOf_collects has).bind fun p placed => .some trivial fun _ _ held => ?_
      subst placed
      exact held
    · exact .none
  · refine described_collects (fun m source same => ?_) has _
    subst same
    refine (Mapping.name_collects source (by decide)).bind fun name _ => ?_
    refine .skip (Mapping.name?_passes source _) fun _ _ => ?_
    refine (Mapping.node?_collects collects source _).bind fun default _ => ?_
    refine .skip (Mapping.flag_passes source _) fun _ _ => ?_
    refine .skip (Mapping.flag_passes source _) fun _ _ => ?_
    refine .skip (Mapping.flag_passes source _) fun _ _ => ?_
    refine .skip (Mapping.finish_passes source _) fun _ _ => ?_
    refine (spanOf_collects has).bind fun p placed => .some trivial fun _ _ held => ?_
    subst placed
    exact held.declared

theorem fieldOf_collects {n : Yaml.Node} (has : o.document.Has n) :
    CollectsPart o ∅ (fieldOf below n) (fun _ => True) .ofField := by
  unfold fieldOf
  split
  · refine (nameOf_collects has has (fun v same => same ▸ .own v) _).bind fun name _ => ?_
    split
    · refine (spanOf_collects has).bind fun p placed => .some trivial fun _ _ held => ?_
      subst placed
      exact held
    · exact .none
  · refine described_collects (fun m source same => ?_) has _
    subst same
    refine (Mapping.name_collects source (by decide)).bind fun name _ => ?_
    refine .skip (Mapping.modifiers_passes source _) fun _ _ => ?_
    refine .skip (Mapping.name?_passes source _) fun _ _ => ?_
    refine (Mapping.node?_collects collects source _).bind fun default _ => ?_
    refine .skip (Mapping.finish_passes source _) fun _ _ => ?_
    refine (spanOf_collects has).bind fun p placed => .some trivial fun _ _ held => ?_
    subst placed
    exact held.declared

theorem fieldsOf_collects {items : List Yaml.Node} (has : ∀ n ∈ items, o.document.Has n) :
    Collects o ∅ (fieldsOf below items) (fun _ => True) fun fields =>
      ⟨[], fields.filterMap (·.default), fields.map (·.span),
        fields.map fun f => (f.name, f.span)⟩ :=
  (Collects.parts Harvest.gather_fields fun n member =>
    fieldOf_collects collects (has n member)).bind
    fun _ _ => .pure trivial fun _ _ held => held

theorem argumentOf_collects {n : Yaml.Node} (has : o.document.Has n) :
    CollectsPart o ∅ (argumentOf below n) (fun _ => True) fun a => .ofNodes a.value.toList := by
  unfold argumentOf
  extract_lets named
  split
  · exact (collects n has).bind fun node _ => .some trivial fun _ _ held => held
  · refine described_collects (fun m source _ => ?_) has _
    refine .skip (Mapping.name_passes source _) fun _ _ => ?_
    refine (Mapping.node_collects collects source _).bind fun value _ => ?_
    refine .skip (Mapping.finish_passes source _) fun _ _ => ?_
    exact .some trivial fun _ _ held => held

theorem argumentsOf_collects {items : List Yaml.Node} (has : ∀ n ∈ items, o.document.Has n) :
    Collects o ∅ (argumentsOf below items) (fun _ => True) fun args =>
      .ofNodes (Node.ofArguments args) :=
  (Collects.parts (Harvest.gather_slots · (·.value)) fun n member =>
    argumentOf_collects collects (has n member)).bind
      fun _ _ => .pure trivial fun _ _ held => held

theorem initializerOf_collects {n : Yaml.Node} (has : o.document.Has n) :
    CollectsPart o ∅ (initializerOf below n) (fun _ => True) fun a => .ofNodes a.value.toList := by
  refine described_collects (fun m source _ => ?_) has _
  refine .skip (Mapping.name_passes source _) fun _ _ => ?_
  refine (Mapping.node_collects collects source _).bind fun value _ => ?_
  refine .skip (Mapping.finish_passes source _) fun _ _ => ?_
  exact .some trivial fun _ _ held => held

theorem accessorOf_collects {n : Yaml.Node} (has : o.document.Has n) :
    CollectsPart o ∅ (accessorOf below n) (fun a => a.isField = true → a.args = [])
      .ofAccessor := by
  refine described_collects (fun m source _ => ?_) has _
  split
  · refine .skip (Mapping.name_passes source _) fun _ _ => ?_
    refine .skip (Mapping.finish_passes source _) fun _ _ => ?_
    exact (spanOf_collects has).bind fun p _ => .some (fun _ => rfl) fun _ _ held => held
  split
  · refine .skip (Mapping.name_passes source _) fun _ _ => ?_
    refine .skip (Mapping.items_passes source _) fun items among => ?_
    refine (argumentsOf_collects collects among).bind fun args _ => ?_
    refine .skip (Mapping.finish_passes source _) fun _ _ => ?_
    refine (spanOf_collects has).bind fun p _ => .some nofun fun _ _ held => ?_
    have same : (Node.ofArguments args).Subperm (Node.ofArguments args ++ []) :=
      (List.Perm.of_eq (List.append_nil _).symm).subperm
    exact held.part (.refl _) same (fun _ member => member) fun _ member => member
  · exact .skip (fail_passes has _) fun _ _ => .none

theorem accessorsOf_collects {items : List Yaml.Node} (has : ∀ n ∈ items, o.document.Has n) :
    Collects o ∅ (accessorsOf below items)
      (fun accessors => ∀ a ∈ accessors, a.isField = true → a.args = []) fun accessors =>
        ⟨[], Node.ofAccessors accessors, accessors.map (·.span), []⟩ :=
  (Collects.parts Harvest.gather_accessors fun n member =>
    accessorOf_collects collects (has n member)).bind
      fun _ bare => .pure bare fun _ _ held => held

theorem branchOf_collects {n : Yaml.Node} (has : o.document.Has n) :
    CollectsPart o ∅ (branchOf below n) (fun _ => True) fun b =>
      .ofNodes (b.guard.toList ++ b.body.toList) := by
  refine described_collects (fun m source _ => ?_) has _
  refine (Mapping.node_collects collects source _).bind fun guard _ => ?_
  refine (Mapping.body_collects collects source _).bind fun body _ => ?_
  refine .skip (Mapping.finish_passes source _) fun _ _ => ?_
  exact .some trivial fun _ _ held => held

theorem lambdaOf_collects {m : Mapping} (source : m.From o) {params : List Yaml.Node}
    (has : ∀ n ∈ params, o.document.Has n) :
    Collects o ∅ (lambdaOf below m params) (fun _ => True) fun l => .ofNodes [.lambda l] := by
  refine (siteAt_collects source.has).bind fun site _ => ?_
  refine .skip (Mapping.modifiers_passes source _) fun _ _ => ?_
  refine .skip (Mapping.name?_passes source _) fun _ _ => ?_
  refine (Collects.parts Harvest.gather_params fun n member =>
    paramOf_collects collects (has n member)).bind fun params _ => ?_
  refine (Mapping.body?_collects collects source _).bind fun body _ => ?_
  refine .pure trivial fun _ _ held => Made.holds ?_ held
  refine ⟨rfl, .refl _, fun p kept => ?_, nofun, ?_⟩
  · exact List.mem_append_left _ kept
  · rintro x (declared | defined)
    · exact List.mem_append_left _ declared
    · cases defined

theorem initOf_collects {n : Yaml.Node} (has : o.document.Has n) :
    CollectsPart o ∅ (initOf below n) (fun _ => True) fun l => .ofNodes [.lambda l] := by
  refine described_collects (fun m source _ => ?_) has _
  refine .skip (Mapping.items_passes source _) fun items among => ?_
  refine (lambdaOf_collects collects source among).bind fun l _ => ?_
  refine .skip (Mapping.finish_passes source _) fun _ _ => ?_
  exact .some trivial fun _ _ held => held

theorem methodOf_collects {n : Yaml.Node} (has : o.document.Has n) :
    CollectsPart o ∅ (methodOf below n) (fun _ => True) .ofMethod := by
  refine (collects n has).bind fun node _ => ?_
  split
  next f =>
    refine .some trivial fun low s held =>
      ⟨held.fresh, held.spans, held.nodes, fun none x member => ?_⟩
    have here : Node.function f ∈ allVisits [.function f] := by
      rw [Node.allVisits_single]
      exact List.mem_cons_self
    rw [List.mem_singleton.mp member]
    exact (held.nodes _ here).names none _ _ (.inl List.mem_cons_self)
  next => exact .skip (fail_passes has _) fun _ _ => .none

theorem chainOf_collects {m : Mapping} (source : m.From o) (key : String) :
    Collects o ∅ (chainOf below m key) (fun _ => True) fun c => .ofNodes [.member c] := by
  refine (siteAt_collects source.has).bind fun site _ => ?_
  refine .skip (Mapping.name_passes source _) fun _ _ => ?_
  refine .skip (Mapping.items_passes source _) fun items among => ?_
  refine (accessorsOf_collects collects among).bind fun accessors bare => ?_
  refine .pure trivial fun _ _ held => Made.holds ?_ held
  refine ⟨rfl, .refl _, fun p kept => kept, bare, ?_⟩
  · rintro x (declared | defined)
    · cases declared
    · cases defined

theorem classOf_collects {m : Mapping} (source : m.From o) :
    CollectsNode o (classOf below m) := by
  refine (Mapping.name_collects source (by decide)).bind fun name _ => ?_
  refine (siteAt_collects source.has).bind fun site placed => ?_
  refine .skip (Mapping.items_passes source _) fun _ among => ?_
  refine .skip (.mapM_passes fun n member => nameOf_passes (among n member) _) fun _ _ => ?_
  refine .skip (Mapping.modifiers_passes source _) fun _ _ => ?_
  refine .skip (Mapping.items_passes source _) fun items among => ?_
  refine (fieldsOf_collects collects among).bind fun fields _ => ?_
  refine .skip (Mapping.items_passes source _) fun _ among => ?_
  refine (Collects.parts (Harvest.gather_nodes Node.lambda) fun n member =>
    initOf_collects collects (among n member)).bind fun init _ => ?_
  refine .skip (Mapping.items_passes source _) fun _ among => ?_
  refine (Collects.parts Harvest.gather_methods fun n member =>
    methodOf_collects collects (among n member)).bind fun methods _ => ?_
  refine (Mapping.body?_collects collects source _).bind fun preInit _ => ?_
  refine (Mapping.body?_collects collects source _).bind fun postInit _ => ?_
  refine (Mapping.body?_collects collects source _).bind fun final _ => ?_
  refine (Mapping.body?_collects collects source _).bind fun validate _ => ?_
  refine .pure trivial fun _ _ held => Made.holds ?_ held
  refine ⟨rfl, .of_eq ?_, fun p kept => ?_, nofun, ?_⟩
  · simp [Node.children, Harvest.ofSite, Harvest.ofName]
  · simpa [Node.spans, Harvest.ofSite, Harvest.ofName] using kept
  · rintro x (declared | defined)
    · have said : x = (name, o.spanOf m.origin) ∨ x ∈ Node.declares _ := .inr declared
      simpa [Node.declares, Harvest.ofSite, Harvest.ofName] using said
    · cases defined
      simp [Harvest.ofSite, Harvest.ofName, placed]

/-! ### Kinds of nodes -/

omit collects in
theorem literalOf_collects (kind : String) {v : Yaml.Node} (has : o.document.Has v) :
    CollectsSlot o ∅ (literalOf kind v) := by
  unfold literalOf
  split
  · refine (scalarOf_collects has).bind fun n _ => ?_
    split
    · exact .some trivial fun _ _ held => held
    · exact .skip (fail_passes has _) fun _ _ => .none
  · exact .skip (fail_passes has _) fun _ _ => .none

theorem operationOf_collects {m : Mapping} (source : m.From o) {v : Yaml.Node}
    (has : o.document.Has v) : CollectsSlot o ∅ (operationOf below m v) := by
  unfold operationOf
  split
  next op _ =>
    refine .skip (Mapping.items_passes source _) fun items among => ?_
    refine (nodesOf_collects collects among).bind fun operands _ => ?_
    refine madeSlot_collects source.has fun site _ => ?_
    by_cases list : op = .list
    · rw [if_pos list]
      exact Plain.made ⟨rfl, rfl, rfl, rfl⟩ rfl rfl (.refl _)
    · rw [if_neg list]
      exact Plain.made ⟨rfl, rfl, rfl, rfl⟩ rfl rfl (.refl _)
  next =>
    refine .skip (report_passes _ has _) fun _ _ => ?_
    exact .skip (Mapping.items_passes source _) fun _ _ => .none

theorem randomOf_collects {m : Mapping} (source : m.From o) {v : Yaml.Node}
    (has : o.document.Has v) : CollectsSlot o ∅ (randomOf below m v) := by
  unfold randomOf
  extract_lets kind
  cases kind with
  | none =>
    refine .skip (fail_passes has _) fun _ _ => ?_
    exact .skip (Mapping.finish_passes source _) fun _ _ => .none
  | some isFloat =>
    refine (Mapping.node?_collects collects source _).bind fun lower _ => ?_
    refine (Mapping.node?_collects collects source _).bind fun upper _ => ?_
    refine .skip (Mapping.finish_passes source _) fun _ _ => ?_
    exact madeSlot_collects source.has fun site _ =>
      Plain.made ⟨rfl, rfl, rfl, rfl⟩ rfl rfl (.refl _)

theorem accessOf_collects {m : Mapping} (source : m.From o) {v : Yaml.Node}
    (has : o.document.Has v) : CollectsSlot o ∅ (accessOf below m v) := by
  refine (collects v has).bind fun target _ => ?_
  refine (Mapping.node?_collects collects source _).bind fun index _ => ?_
  refine .skip (Mapping.name?_passes source _) fun pattern _ => ?_
  split
  · exact .skip (fail_passes source.has _) fun _ _ => .none
  · exact madeSlot_collects source.has fun site _ =>
      Plain.made ⟨rfl, rfl, rfl, rfl⟩ rfl rfl List.perm_append_comm

theorem consOf_collects {m : Mapping} (source : m.From o) {v : Yaml.Node}
    (has : o.document.Has v) : CollectsSlot o ∅ (consOf below m v) := by
  refine .skip (itemsOf_passes has _) fun items among => ?_
  split
  next a b =>
    refine (collects a (among a (by simp))).bind fun car _ => ?_
    refine (collects b (among b (by simp))).bind fun cdr _ => ?_
    exact madeSlot_collects source.has fun site _ =>
      Plain.made ⟨rfl, rfl, rfl, rfl⟩ rfl rfl (.refl _)
  next => exact .skip (fail_passes has _) fun _ _ => .none

theorem kindOf_collects {m : Mapping} (source : m.From o) (kind : String) {v : Yaml.Node}
    (has : o.document.Has v) : CollectsSlot o ∅ (kindOf below m kind v) := by
  -- The end of most kinds: unknown keys are reported, and the node is built from its parts.
  have built {given : Harvest} {known : List String} {make : Site → Node}
      (made : ∀ site, site.span = o.spanOf m.origin → Made (given ++ .ofSite site) (make site)) :
      CollectsSlot o given (do m.finish known; return some (make (← siteAt m.origin))) :=
    .skip (Mapping.finish_passes source known) fun _ _ => madeSlot_collects source.has made
  -- The end of the others: the node was built before.
  have found {given : Harvest} {known : List String} {n : Option Node}
      (same : given = .gather (fun n => .ofNodes [n]) n.toList) :
      CollectsSlot o given (do m.finish known; return n) :=
    .skip (Mapping.finish_passes source known) fun _ _ =>
      .pure (fun _ _ => trivial) fun _ _ held => same ▸ held
  unfold kindOf
  dsimp only
  split
  -- int, float, bool
  · exact (literalOf_collects _ has).bind fun _ _ => found rfl
  · exact (literalOf_collects _ has).bind fun _ _ => found rfl
  · exact (literalOf_collects _ has).bind fun _ _ => found rfl
  -- string
  · split
    · exact built fun _ _ => Plain.made ⟨rfl, rfl, rfl, rfl⟩ rfl rfl (.refl _)
    · refine .skip (fail_passes has _) fun _ _ => ?_
      exact .skip (Mapping.finish_passes source _) fun _ _ => .none
  -- nil, quote, pair
  · exact built fun _ _ => Plain.made ⟨rfl, rfl, rfl, rfl⟩ rfl rfl (.refl _)
  · exact built fun _ _ => Plain.made ⟨rfl, rfl, rfl, rfl⟩ rfl rfl (.refl _)
  · exact built fun _ _ => Plain.made ⟨rfl, rfl, rfl, rfl⟩ rfl rfl (.refl _)
  -- vector
  · refine .skip (itemsOf_passes has _) fun items among => ?_
    refine (nodesOf_collects collects among).bind fun elems _ => built fun _ _ => ?_
    exact Plain.made ⟨rfl, rfl, rfl, rfl⟩ rfl rfl (.refl _)
  -- ref
  · refine .skip (nameOf_passes has _) fun name _ => ?_
    refine .skip (Mapping.finish_passes source _) fun _ _ => ?_
    split
    · exact madeSlot_collects source.has fun _ _ =>
        Plain.made ⟨rfl, rfl, rfl, rfl⟩ rfl rfl (.refl _)
    · exact .none
  -- def
  · refine (Mapping.name_collects source (by decide)).bind fun name _ => ?_
    refine .skip (Mapping.modifiers_passes source _) fun _ _ => ?_
    refine (Mapping.node_collects collects source _).bind fun value _ => ?_
    refine .skip (Mapping.name?_passes source _) fun _ _ => built fun site placed => ?_
    refine ⟨rfl, .refl _, fun p kept => kept, nofun, ?_⟩
    rintro x (declared | defined)
    · exact placed ▸ declared
    · cases defined
  -- lambda
  · refine .skip (itemsOf_passes has _) fun items among => ?_
    refine (lambdaOf_collects collects source among).bind fun l _ => ?_
    refine .skip (Mapping.finish_passes source _) fun _ _ => ?_
    exact .some trivial fun _ _ held => held
  -- func
  · refine (Mapping.name_collects source (by decide)).bind fun name _ => ?_
    refine .skip (Mapping.items_passes source _) fun items among => ?_
    refine (lambdaOf_collects collects source among).bind fun l _ => built fun site placed => ?_
    refine ⟨rfl, .refl _, fun p kept => kept, nofun, ?_⟩
    rintro x (declared | defined)
    · exact placed ▸ declared
    · cases defined
  -- struct
  · refine (Mapping.name_collects source (by decide)).bind fun name _ => ?_
    refine .skip (Mapping.items_passes source _) fun items among => ?_
    refine (fieldsOf_collects collects among).bind fun fields _ => built fun site placed => ?_
    refine ⟨rfl, .of_eq (List.append_nil _).symm, ?_, nofun, ?_⟩
    · exact fun p kept => (List.mem_cons.mp kept).elim
        (fun own => List.mem_append_right _ (own ▸ List.mem_cons_self))
        fun field => List.mem_append_left _ field
    · rintro x (declared | defined)
      · cases declared
      · cases defined
        exact placed ▸ List.mem_cons_self
  -- class
  · refine (classOf_collects collects source).bind fun n _ => ?_
    refine .skip (Mapping.finish_passes source _) fun _ _ => ?_
    exact .some trivial fun _ _ held => held
  -- set
  · refine .skip (Mapping.name_passes source _) fun _ _ => ?_
    refine (Mapping.node_collects collects source _).bind fun value _ => built fun _ _ => ?_
    exact Plain.made ⟨rfl, rfl, rfl, rfl⟩ rfl rfl (.refl _)
  -- do
  · refine .skip (itemsOf_passes has _) fun items among => ?_
    refine (nodesOf_collects collects among).bind fun exprs _ => built fun _ _ => ?_
    exact Plain.made ⟨rfl, rfl, rfl, rfl⟩ rfl rfl (.refl _)
  -- print
  · refine (collects v has).bind fun expr _ => built fun _ _ => ?_
    exact Plain.made ⟨rfl, rfl, rfl, rfl⟩ rfl rfl (.refl _)
  -- if
  · refine (collects v has).bind fun guard _ => ?_
    refine (Mapping.body_collects collects source _).bind fun body _ => ?_
    refine (Mapping.body?_collects collects source _).bind fun otherwise _ => built fun _ _ => ?_
    exact Plain.made ⟨rfl, rfl, rfl, rfl⟩ rfl rfl (.refl _)
  -- cond
  · refine .skip (itemsOf_passes has _) fun items among => ?_
    refine (Collects.parts Harvest.gather_branches fun n member =>
      branchOf_collects collects (among n member)).bind fun branches _ => ?_
    refine (Mapping.body?_collects collects source _).bind fun otherwise _ => built fun _ _ => ?_
    exact Plain.made ⟨rfl, rfl, rfl, rfl⟩ rfl rfl (.refl _)
  -- while
  · refine (collects v has).bind fun guard _ => ?_
    refine (Mapping.body?_collects collects source _).bind fun body _ => ?_
    refine .skip (Mapping.flag_passes source _) fun _ _ => built fun _ _ => ?_
    exact Plain.made ⟨rfl, rfl, rfl, rfl⟩ rfl rfl (.refl _)
  -- cons
  · exact (consOf_collects collects source has).bind fun _ _ => found rfl
  -- list
  · refine .skip (itemsOf_passes has _) fun items among => ?_
    refine (nodesOf_collects collects among).bind fun operands _ => built fun _ _ => ?_
    exact Plain.made ⟨rfl, rfl, rfl, rfl⟩ rfl rfl (.refl _)
  -- at
  · exact (accessOf_collects collects source has).bind fun _ _ => found rfl
  -- call
  · refine .skip (Mapping.name_passes source _) fun _ _ => ?_
    refine .skip (Mapping.items_passes source _) fun items among => ?_
    refine (argumentsOf_collects collects among).bind fun args _ => built fun _ _ => ?_
    exact Plain.made ⟨rfl, rfl, rfl, rfl⟩ rfl rfl (.refl _)
  -- invoke
  · refine (collects v has).bind fun callee _ => ?_
    refine .skip (Mapping.items_passes source _) fun items among => ?_
    refine (accessorsOf_collects collects among).bind fun accessors bare => ?_
    refine .skip (Mapping.items_passes source _) fun items among => ?_
    refine (argumentsOf_collects collects among).bind fun args _ => built fun site _ => ?_
    refine ⟨rfl, .of_eq (List.append_nil _).symm, ?_, bare, ?_⟩
    · intro p kept
      simpa [Node.spans, Harvest.ofSite, or_comm] using kept
    · rintro x (declared | defined)
      · cases declared
      · cases defined
  -- get
  · refine (chainOf_collects collects source _).bind fun chain _ => ?_
    refine .skip (Mapping.finish_passes source _) fun _ _ => ?_
    exact .some trivial fun _ _ held => held
  -- put
  · refine (chainOf_collects collects source _).bind fun chain _ => ?_
    refine (Mapping.node_collects collects source _).bind fun value _ => built fun _ _ => ?_
    exact Plain.made ⟨rfl, rfl, rfl, rfl⟩ rfl rfl (.refl _)
  -- rand
  · exact randomOf_collects collects source has
  -- new
  · refine .skip (Mapping.name_passes source _) fun _ _ => ?_
    refine .skip (Mapping.items_passes source _) fun items among => ?_
    refine (Collects.parts (Harvest.gather_slots · (·.value)) fun n member =>
      initializerOf_collects collects (among n member)).bind fun args _ => built fun _ _ => ?_
    exact Plain.made ⟨rfl, rfl, rfl, rfl⟩ rfl rfl (.refl _)
  -- make
  · refine .skip (Mapping.name_passes source _) fun _ _ => ?_
    refine .skip (Mapping.items_passes source _) fun items among => ?_
    refine (argumentsOf_collects collects among).bind fun args _ => built fun _ _ => ?_
    exact Plain.made ⟨rfl, rfl, rfl, rfl⟩ rfl rfl (.refl _)
  -- op
  · exact (operationOf_collects collects source has).bind fun _ _ => found rfl

omit collects in
theorem kindIn_passes {n : Yaml.Node} (has : o.document.Has n) (found : Option String)
    {pairs : List (Yaml.Node × Yaml.Node)} (keys : ∀ pair ∈ pairs, o.document.Has pair.1) :
    Passes o (kindIn n found pairs) fun _ => True := by
  induction pairs generalizing found with
  | nil =>
    cases found with
    | some kind => exact .pure trivial fun _ _ held => held
    | none => exact failed_collects has _ trivial rfl
  | cons pair rest ih =>
    have later := fun found =>
      ih found fun other member => keys other (List.mem_cons_of_mem _ member)
    cases key : kindKey? pair.1 with
    | none => cases found <;> simpa only [kindIn, key] using later _
    | some other =>
      cases found with
      | none => simpa only [kindIn, key] using later (some other)
      | some kind =>
        simp only [kindIn, key]
        exact failed_collects (keys pair List.mem_cons_self) _ trivial rfl

theorem compoundOf_collects {place : Yaml.Place} {pairs : List (Yaml.Node × Yaml.Node)}
    (has : o.document.Has (.mapping place pairs)) :
    CollectsNode o (compoundOf below (.mapping place pairs) pairs) := by
  have keys : ∀ pair ∈ pairs, o.document.Has pair.1 :=
    fun _ member => (Yaml.Node.Inside.key member .self).trans has
  have described : CollectsSlot o ∅ (compoundOf? below (.mapping place pairs) pairs) := by
    refine .skip (kindIn_passes has none keys) fun kind _ => ?_
    split
    next => exact .none
    next kind =>
      refine described_collects (fun m source _ => ?_) has _
      split
      next v found => exact kindOf_collects collects source kind (source.get found).1
      next => exact .none
  refine described.bind fun found _ => ?_
  split
  next n => exact .pure trivial fun _ _ held => held
  next => exact placeholder_collects has

theorem writtenOf_collects {n : Yaml.Node} (has : o.document.Has n) :
    CollectsNode o (writtenOf below n) := by
  cases n with
  | scalar s => exact scalarOf_collects has
  | sequence place items =>
    refine (siteAt_collects has).bind fun site _ => ?_
    refine (nodesOf_collects collects (has_items has)).bind fun slots _ => ?_
    refine .pure trivial fun _ _ held => Made.holds ?_ held.comm
    exact Plain.made ⟨rfl, rfl, rfl, rfl⟩ rfl rfl (.refl _)
  | mapping place pairs => exact compoundOf_collects collects has
  | «alias» place name number =>
    exact .skip (fail_passes has _) fun _ _ => placeholder_collects has

omit collects in
theorem environment_passes : Passes o (read : Load Env) fun env => env.source = o :=
  fun _ reads _ _ held => ⟨.refl, reads, held⟩

omit collects in
theorem countAliased_passes {n : Yaml.Node} (has : o.document.Has n) :
    Passes o (countAliased n) fun _ => True := by
  refine .skip environment_passes fun env _ => ?_
  split
  · exact .pure trivial fun _ _ held => held
  have counted : Passes o (modifyGet fun s : State =>
      (s.aliased + 1, { s with aliased := s.aliased + 1 }) : Load Nat) fun _ => True :=
    fun _ _ _ s held => ⟨⟨Nat.le_refl _, List.prefix_refl _, [], (List.append_nil _).symm, nofun⟩,
      trivial, .empty held.fresh.order⟩
  refine .skip counted fun count _ => ?_
  split
  · exact .pure trivial fun _ _ held => held
  split
  · exact failed_collects has _ trivial rfl
  · exact .pure trivial fun _ _ held => held

theorem nodeStep_collects (closed : o.document.Closed) {n : Yaml.Node} (has : o.document.Has n) :
    CollectsNode o (nodeStep below n) := by
  refine .skip (countAliased_passes has) fun exceeded _ => ?_
  split
  · exact placeholder_collects has
  split
  next place name number =>
    have target : Passes o (Following.target? number : Load (Option Yaml.Node)) fun found =>
        ∀ t ∈ found, o.document.Has t := by
      refine .skip environment_passes fun env reads => .pure ?_ fun _ _ held => held
      rintro t found
      subst reads
      exact closed.target found
    refine .skip target fun found inside => ?_
    split
    next t => exact (collects t (inside t rfl)).withReader fun _ => rfl
    next => exact writtenOf_collects collects has
  · exact writtenOf_collects collects has

end

theorem node_collects (closed : o.document.Closed) (depth : Nat) {n : Yaml.Node}
    (has : o.document.Has n) : CollectsNode o (node depth n) := by
  induction depth generalizing n with
  | zero => exact placeholder_collects has
  | succ depth ih => exact nodeStep_collects (fun _ inside => ih inside) closed has

theorem rootOf_collects {d : Yaml.Document} (closed : d.Closed) (file : Nat) :
    Collects ⟨file, d⟩ ∅ (rootOf d) (fun _ => True)
      fun slots => .ofNodes (slots.filterMap (·)) := by
  have has : d.Has d.root := .self
  unfold rootOf
  split
  next place items same =>
    have whole : d.Has (.sequence place items) := same ▸ has
    exact nodesOf_collects (fun _ inside => node_collects (o := ⟨file, d⟩) closed _ inside)
      (has_items (o := ⟨file, d⟩) whole)
  · split
    · exact .skip (fail_passes (o := ⟨file, d⟩) has _) fun _ _ =>
        .pure trivial fun _ _ held => held
    · exact .pure trivial fun _ _ held => held

/-! ### Whole files -/

/-- What was read comes from the document: the numbers in the tree are distinct, what a node keeps
is from the document, and what was objected to stands there. -/
structure Outcome.From (out : Outcome) (o : Source) : Prop where
  distinct : (out.tree.visits.map Node.id).Nodup
  spans : ∀ n ∈ out.tree.visits, ∀ p ∈ n.spans, o.Position p
  bare : ∀ n ∈ out.tree.visits, ∀ a ∈ n.accessors, a.isField = true → a.args = []
  names : out.failure = none → ∀ n ∈ out.tree.visits, ∀ h p,
    (h, p) ∈ n.declares ∨ n.defines? = some (h, p) → o.Names out.names h p
  objects : ∀ d ∈ out.diagnostics, o.Objects d

theorem ofDocument_from (f : SourceFile) (names : Interner) {d : Yaml.Document}
    (closed : d.Closed) : (ofDocument f names d).From ⟨f.id, d⟩ := by
  have start : (⟨f.id, d⟩ : Source).Holds 0 ⟨names, #[], 0, 0⟩ ∅ := .empty (Nat.le_refl _)
  obtain ⟨before, -, held⟩ := rootOf_collects closed f.id ⟨f.id, d, false⟩ rfl 0 _ start
  rw [ofDocument_eq]
  refine ⟨held.fresh.nodup, ?_, ?_, ?_, ?_⟩
  · exact fun n member => (held.nodes n member).spans
  · exact fun n member => (held.nodes n member).bare
  · intro sound n member
    refine (held.nodes n member).names ?_
    by_contra objected
    simp [outcomeOf, objected] at sound
  · intro x member
    obtain ⟨added, told, objects⟩ := before.emitted
    refine objects x ?_
    have all : _ = [] ++ added := told
    exact List.nil_append added ▸ all ▸ member

/-- A file is read from its document, or has none and then neither a tree nor anything to object
to. -/
theorem ofFile_cases (f : SourceFile) (names : Interner) :
    (∃ d, Yaml.Document.read f.content = .ok (some d) ∧ (ofFile f names).From ⟨f.id, d⟩) ∨
      (ofFile f names).tree.visits = [] ∧ (ofFile f names).diagnostics = [] := by
  unfold ofFile
  split
  · exact .inr ⟨rfl, rfl⟩
  · exact .inr ⟨rfl, rfl⟩
  next d read => exact .inl ⟨d, read, ofDocument_from f names (Yaml.Document.read_closed read)⟩

end TreeCheck.Load
