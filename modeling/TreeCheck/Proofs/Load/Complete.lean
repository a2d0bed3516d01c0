import TreeCheck.Proofs.Load.Reads
import TreeCheck.Proofs.Tree.Complete

/-!
Every tree that is read is complete. Malformed nodes are replaced and malformed parts are left out,
so what a reader hands on is complete wherever it comes from; nothing is asked of the document.
-/

namespace TreeCheck.Load

open Node (AllComplete)

theorem placeholder_reads (n : Yaml.Node) : Reads (placeholder n) Node.Complete :=
  .skip (siteAt_reads n) fun _ => .pure (.of_children trivial .nil)

theorem scalarOf_reads (s : Yaml.Scalar) : Reads (scalarOf s) Node.Complete := by
  have replaced (message : Text) :
      Reads (do fail (.scalar s) message; placeholder (.scalar s)) Node.Complete :=
    .skip (fail_reads _ _) fun _ => placeholder_reads _
  have literal {make : Site → Node} (leaf : ∀ site, (make site).Complete) :
      Reads (do return make (← siteAt (.scalar s))) Node.Complete :=
    .skip (siteAt_reads _) fun site => .pure (leaf site)
  unfold scalarOf
  dsimp only
  split
  · exact literal fun _ => .of_children trivial .nil
  split
  · split
    · exact literal fun _ => .of_children trivial .nil
    · exact replaced _
  split
  · split
    · exact literal fun _ => .of_children trivial .nil
    · exact replaced _
  split
  · split
    · exact literal fun _ => .of_children trivial .nil
    · exact replaced _
  split
  · split
    · exact literal fun _ => .of_children trivial .nil
    split
    · exact replaced _
    · exact .skip (siteAt_reads _) fun _ => .skip (intern_reads _) fun _ =>
        .pure (.of_children trivial .nil)
  · exact replaced _

section

variable {below : Yaml.Node → Load Node} (reads : ∀ n, Reads (below n) Node.Complete)
include reads

theorem nodesOf_reads (items : List Yaml.Node) :
    Reads (nodesOf below items) fun slots =>
      (∀ slot ∈ slots, slot ≠ none) ∧ AllComplete (slots.filterMap (·)) := by
  have each : Reads (nodesOf below items) fun slots =>
      ∀ slot ∈ slots, slot ≠ none ∧ ∀ n ∈ slot, Node.Complete n :=
    .mapM fun n _ => (reads n).map fun node complete =>
      ⟨Option.some_ne_none node, fun _ found => Option.some.inj found ▸ complete⟩
  exact each.mono fun slots holds =>
    ⟨fun slot member => (holds slot member).1, .slots fun slot member => (holds slot member).2⟩

theorem bodyOf_reads (n : Yaml.Node) : Reads (bodyOf below n) Node.Complete := by
  unfold bodyOf
  split
  · refine .skip (siteAt_reads _) fun site => (nodesOf_reads reads _).bind fun slots complete => ?_
    exact .pure (.of_children trivial complete.2)
  · exact reads n

theorem Mapping.node_reads (m : Mapping) (key : String) :
    Reads (m.node below key) Node.Complete := by
  refine .skip (m.require_reads key) fun found => ?_
  split
  · exact reads _
  · exact placeholder_reads _

theorem Mapping.node?_reads (m : Mapping) (key : String) :
    ReadsPart (m.node? below key) Node.Complete := by
  unfold Mapping.node?
  split
  · exact (reads _).map fun node complete _ found => Option.some.inj found ▸ complete
  · exact .none

theorem Mapping.body_reads (m : Mapping) (key : String) :
    Reads (m.body below key) Node.Complete := by
  refine .skip (m.require_reads key) fun found => ?_
  split
  · exact bodyOf_reads reads _
  · exact placeholder_reads _

theorem Mapping.body?_reads (m : Mapping) (key : String) :
    ReadsPart (m.body? below key) Node.Complete := by
  unfold Mapping.body?
  split
  · exact (bodyOf_reads reads _).map fun node complete _ found => Option.some.inj found ▸ complete
  · exact .none

/-! ### Parts of nodes -/

theorem paramOf_reads (n : Yaml.Node) :
    ReadsPart (paramOf below n) fun p => ∀ d ∈ p.default, Node.Complete d := by
  unfold paramOf
  split
  · refine .skip (nameOf_reads _ _) fun name => ?_
    split
    · exact .skip (spanOf_reads _) fun _ => .some fun _ found => nomatch found
    · exact .none
  · refine described_reads (fun m => ?_) n _
    refine .skip (m.name_reads _) fun _ => .skip (m.name?_reads _) fun _ => ?_
    refine (m.node?_reads reads _).bind fun default complete => ?_
    refine .skip (m.flag_reads _) fun _ => .skip (m.flag_reads _) fun _ => ?_
    refine .skip (m.flag_reads _) fun _ => .skip (m.finish_reads _) fun _ => ?_
    exact .skip (spanOf_reads _) fun _ => .some complete

theorem fieldOf_reads (n : Yaml.Node) :
    ReadsPart (fieldOf below n) fun f => ∀ d ∈ f.default, Node.Complete d := by
  unfold fieldOf
  split
  · refine .skip (nameOf_reads _ _) fun name => ?_
    split
    · exact .skip (spanOf_reads _) fun _ => .some fun _ found => nomatch found
    · exact .none
  · refine described_reads (fun m => ?_) n _
    refine .skip (m.name_reads _) fun _ => .skip (m.modifiers_reads _) fun _ => ?_
    refine .skip (m.name?_reads _) fun _ => ?_
    refine (m.node?_reads reads _).bind fun default complete => ?_
    exact .skip (m.finish_reads _) fun _ => .skip (spanOf_reads _) fun _ => .some complete

theorem fieldsOf_reads (items : List Yaml.Node) :
    Reads (fieldsOf below items) fun fields => AllComplete (fields.filterMap (·.default)) :=
  (Reads.parts (fieldOf_reads reads)).bind fun _ complete => .pure (.slots complete)

theorem lambdaOf_reads (m : Mapping) (params : List Yaml.Node) :
    Reads (lambdaOf below m params) fun l => (Node.lambda l).Complete := by
  refine .skip (siteAt_reads _) fun _ => .skip (m.modifiers_reads _) fun _ => ?_
  refine .skip (m.name?_reads _) fun _ => ?_
  refine (Reads.parts (paramOf_reads reads)).bind fun params defaults => ?_
  refine (m.body?_reads reads _).bind fun body complete => ?_
  exact .pure (.of_children trivial (.append (.slots defaults) (.slot complete)))

theorem argumentOf_reads (n : Yaml.Node) :
    ReadsPart (argumentOf below n) fun a => ∀ v ∈ a.value, Node.Complete v := by
  have value {node : Node} {name : Handle} (complete : node.Complete) :
      ReadsPart (pure (some (⟨some node, name⟩ : Argument Node))) fun a =>
        ∀ v ∈ a.value, Node.Complete v :=
    .some fun _ found => Option.some.inj found ▸ complete
  unfold argumentOf
  extract_lets named
  split
  · exact (reads n).bind fun node complete => value complete
  · refine described_reads (fun m => ?_) n _
    refine .skip (m.name_reads _) fun _ => (m.node_reads reads _).bind fun node complete => ?_
    exact .skip (m.finish_reads _) fun _ => value complete

theorem argumentsOf_reads (items : List Yaml.Node) :
    Reads (argumentsOf below items) fun args => AllComplete (Node.ofArguments args) :=
  (Reads.parts (argumentOf_reads reads)).bind fun _ complete => .pure (.slots complete)

theorem initializerOf_reads (n : Yaml.Node) :
    ReadsPart (initializerOf below n) fun a => ∀ v ∈ a.value, Node.Complete v := by
  refine described_reads (fun m => ?_) n _
  refine .skip (m.name_reads _) fun _ => (m.node_reads reads _).bind fun node complete => ?_
  refine .skip (m.finish_reads _) fun _ => .some fun _ found => ?_
  exact Option.some.inj found ▸ complete

theorem accessorOf_reads (n : Yaml.Node) :
    ReadsPart (accessorOf below n) fun a => AllComplete (Node.ofArguments a.args) := by
  refine described_reads (fun m => ?_) n _
  split
  · refine .skip (m.name_reads _) fun _ => .skip (m.finish_reads _) fun _ => ?_
    exact .skip (spanOf_reads _) fun _ => .some .nil
  split
  · refine .skip (m.name_reads _) fun _ => .skip (m.items_reads _) fun items => ?_
    refine (argumentsOf_reads reads items).bind fun args complete => ?_
    exact .skip (m.finish_reads _) fun _ => .skip (spanOf_reads _) fun _ => .some complete
  · exact refused_reads _ _

theorem accessorsOf_reads (items : List Yaml.Node) :
    Reads (accessorsOf below items) fun accessors => AllComplete (Node.ofAccessors accessors) :=
  (Reads.parts (accessorOf_reads reads)).bind fun _ complete => .pure (.flatMap complete)

theorem branchOf_reads (n : Yaml.Node) :
    ReadsPart (branchOf below n) fun b => AllComplete (b.guard.toList ++ b.body.toList) := by
  refine described_reads (fun m => ?_) n _
  refine (m.node_reads reads _).bind fun guard first => ?_
  refine (m.body_reads reads _).bind fun body second => ?_
  exact .skip (m.finish_reads _) fun _ => .some (.append (.single first) (.single second))

theorem initOf_reads (n : Yaml.Node) :
    ReadsPart (initOf below n) fun l => (Node.lambda l).Complete := by
  refine described_reads (fun m => ?_) n _
  refine .skip (m.items_reads _) fun items => ?_
  refine (lambdaOf_reads reads m items).bind fun l complete => ?_
  exact .skip (m.finish_reads _) fun _ => .some complete

theorem methodOf_reads (n : Yaml.Node) :
    ReadsPart (methodOf below n) fun f => (Node.function f).Complete := by
  refine (reads n).bind fun node complete => ?_
  split
  · exact .some complete
  · exact refused_reads _ _

theorem chainOf_reads (m : Mapping) (key : String) :
    Reads (chainOf below m key) fun c => (Node.member c).Complete := by
  refine .skip (siteAt_reads _) fun _ => .skip (m.name_reads _) fun _ => ?_
  refine .skip (m.items_reads _) fun items => ?_
  refine (accessorsOf_reads reads items).bind fun accessors complete => ?_
  exact .pure (.of_children trivial complete)

theorem classOf_reads (m : Mapping) : Reads (classOf below m) Node.Complete := by
  refine .skip (m.name_reads _) fun _ => .skip (siteAt_reads _) fun _ => ?_
  refine .skip (m.items_reads _) fun _ => ?_
  refine .skip (Reads.mapM fun n _ => nameOf_reads n _).any fun _ => ?_
  refine .skip (m.modifiers_reads _) fun _ => .skip (m.items_reads _) fun items => ?_
  refine (fieldsOf_reads reads items).bind fun fields defaults => ?_
  refine .skip (m.items_reads _) fun _ => ?_
  refine (Reads.parts (initOf_reads reads)).bind fun init lambdas => ?_
  refine .skip (m.items_reads _) fun _ => ?_
  refine (Reads.parts (methodOf_reads reads)).bind fun methods functions => ?_
  refine (m.body?_reads reads _).bind fun preInit pre => ?_
  refine (m.body?_reads reads _).bind fun postInit post => ?_
  refine (m.body?_reads reads _).bind fun final last => ?_
  refine (m.body?_reads reads _).bind fun validate valid => ?_
  refine .pure (.of_children trivial ?_)
  refine .append (.append (.append defaults (.map lambdas)) (.map functions)) ?_
  exact .append (.append (.append (.slot pre) (.slot post)) (.slot last)) (.slot valid)

/-! ### Kinds of nodes -/

omit reads in
theorem literalOf_reads (kind : String) (v : Yaml.Node) :
    ReadsPart (literalOf kind v) Node.Complete := by
  unfold literalOf
  split
  · refine (scalarOf_reads _).bind fun n complete => ?_
    split
    · exact .some complete
    · exact refused_reads _ _
  · exact refused_reads _ _

theorem operationOf_reads (m : Mapping) (v : Yaml.Node) :
    ReadsPart (operationOf below m v) Node.Complete := by
  unfold operationOf
  split
  next op _ =>
    refine .skip (m.items_reads _) fun items => ?_
    refine (nodesOf_reads reads items).bind fun operands complete => ?_
    refine .skip (siteAt_reads _) fun site => .some ?_
    by_cases list : op = .list
    · rw [if_pos list]
      exact .of_children trivial complete.2
    · rw [if_neg list]
      exact .of_children complete.1 complete.2
  next =>
    exact .skip (report_reads (.inr rfl) _ _) fun _ => .skip (m.items_reads _) fun _ => .none

theorem randomOf_reads (m : Mapping) (v : Yaml.Node) :
    ReadsPart (randomOf below m v) Node.Complete := by
  unfold randomOf
  extract_lets kind
  cases kind with
  | none => exact .skip (fail_reads _ _) fun _ => .skip (m.finish_reads _) fun _ => .none
  | some isFloat =>
    refine (m.node?_reads reads _).bind fun lower first => ?_
    refine (m.node?_reads reads _).bind fun upper second => ?_
    refine .skip (m.finish_reads _) fun _ => .skip (siteAt_reads _) fun _ => .some ?_
    exact .of_children trivial (.append (.slot first) (.slot second))

theorem accessOf_reads (m : Mapping) (v : Yaml.Node) :
    ReadsPart (accessOf below m v) Node.Complete := by
  refine (reads v).bind fun target complete => (m.node?_reads reads _).bind fun index found => ?_
  refine .skip (m.name?_reads _) fun pattern => ?_
  split
  · exact refused_reads _ _
  · refine .skip (siteAt_reads _) fun _ => .some ?_
    exact .of_children trivial (.append (.slot found) (.single complete))

theorem consOf_reads (m : Mapping) (v : Yaml.Node) :
    ReadsPart (consOf below m v) Node.Complete := by
  refine .skip (itemsOf_reads _ _) fun items => ?_
  split
  · refine (reads _).bind fun car first => (reads _).bind fun cdr second => ?_
    refine .skip (siteAt_reads _) fun _ => .some ?_
    exact .of_children trivial (.append (.single first) (.single second))
  · exact refused_reads _ _

theorem kindOf_reads (m : Mapping) (kind : String) (v : Yaml.Node) :
    ReadsPart (kindOf below m kind v) Node.Complete := by
  -- The end of most kinds: unknown keys are reported, and the node is built from its parts.
  have built {known : List String} {make : Site → Node} (complete : ∀ site, (make site).Complete) :
      ReadsPart (do m.finish known; return some (make (← siteAt m.origin))) Node.Complete :=
    .skip (m.finish_reads known) fun _ => .skip (siteAt_reads _) fun site => .some (complete site)
  -- The end of the others: the node was built before.
  have given {known : List String} {found : Option Node} (complete : ∀ n ∈ found, n.Complete) :
      ReadsPart (do m.finish known; return found) Node.Complete :=
    .skip (m.finish_reads known) fun _ => .pure complete
  unfold kindOf
  dsimp only
  split
  -- int, float, bool
  · exact (literalOf_reads _ v).bind fun _ complete => given complete
  · exact (literalOf_reads _ v).bind fun _ complete => given complete
  · exact (literalOf_reads _ v).bind fun _ complete => given complete
  -- string
  · split
    · exact built fun _ => .of_children trivial .nil
    · exact .skip (fail_reads _ _) fun _ => .skip (m.finish_reads _) fun _ => .none
  -- nil, quote, pair
  · exact built fun _ => .of_children trivial .nil
  · exact built fun _ => .of_children trivial .nil
  · exact built fun _ => .of_children trivial .nil
  -- vector
  · refine .skip (itemsOf_reads _ _) fun items => ?_
    refine (nodesOf_reads reads items).bind fun elems complete => ?_
    exact built fun _ => .of_children complete.1 complete.2
  -- ref
  · refine .skip (nameOf_reads _ _) fun name => .skip (m.finish_reads _) fun _ => ?_
    split
    · exact .skip (siteAt_reads _) fun _ => .some (.of_children trivial .nil)
    · exact .none
  -- def
  · refine .skip (m.name_reads _) fun _ => .skip (m.modifiers_reads _) fun _ => ?_
    refine (m.node_reads reads _).bind fun value complete => .skip (m.name?_reads _) fun _ => ?_
    exact built fun _ => .of_children trivial (.single complete)
  -- lambda
  · refine .skip (itemsOf_reads _ _) fun items => ?_
    refine (lambdaOf_reads reads m items).bind fun l complete => ?_
    exact .skip (m.finish_reads _) fun _ => .some complete
  -- func
  · refine .skip (m.name_reads _) fun _ => .skip (m.items_reads _) fun items => ?_
    refine (lambdaOf_reads reads m items).bind fun l complete => ?_
    exact built fun _ => .of_children trivial (.single complete)
  -- struct
  · refine .skip (m.name_reads _) fun _ => .skip (m.items_reads _) fun items => ?_
    refine (fieldsOf_reads reads items).bind fun fields complete => ?_
    exact built fun _ => .of_children trivial complete
  -- class
  · refine (classOf_reads reads m).bind fun n complete => ?_
    exact .skip (m.finish_reads _) fun _ => .some complete
  -- set
  · refine .skip (m.name_reads _) fun _ => (m.node_reads reads _).bind fun value complete => ?_
    exact built fun _ => .of_children trivial (.single complete)
  -- do
  · refine .skip (itemsOf_reads _ _) fun items => ?_
    refine (nodesOf_reads reads items).bind fun exprs complete => ?_
    exact built fun _ => .of_children trivial complete.2
  -- print
  · refine (reads v).bind fun expr complete => ?_
    exact built fun _ => .of_children trivial (.single complete)
  -- if
  · refine (reads v).bind fun guard first => (m.body_reads reads _).bind fun body second => ?_
    refine (m.body?_reads reads _).bind fun otherwise third => built fun _ => ?_
    exact .of_children trivial (.append (.append (.single first) (.single second)) (.slot third))
  -- cond
  · refine .skip (itemsOf_reads _ _) fun items => ?_
    refine (Reads.parts (branchOf_reads reads)).bind fun branches first => ?_
    refine (m.body?_reads reads _).bind fun otherwise second => built fun _ => ?_
    exact .of_children trivial (.append (.flatMap first) (.slot second))
  -- while
  · refine (reads v).bind fun guard first => (m.body?_reads reads _).bind fun body second => ?_
    refine .skip (m.flag_reads _) fun _ => built fun _ => ?_
    exact .of_children trivial (.append (.single first) (.slot second))
  -- cons
  · exact (consOf_reads reads m v).bind fun _ complete => given complete
  -- list
  · refine .skip (itemsOf_reads _ _) fun items => ?_
    refine (nodesOf_reads reads items).bind fun operands complete => ?_
    exact built fun _ => .of_children trivial complete.2
  -- at
  · exact (accessOf_reads reads m v).bind fun _ complete => given complete
  -- call
  · refine .skip (m.name_reads _) fun _ => .skip (m.items_reads _) fun items => ?_
    refine (argumentsOf_reads reads items).bind fun args complete => ?_
    exact built fun _ => .of_children trivial complete
  -- invoke
  · refine (reads v).bind fun callee first => .skip (m.items_reads _) fun items => ?_
    refine (accessorsOf_reads reads items).bind fun accessors second => ?_
    refine .skip (m.items_reads _) fun items => ?_
    refine (argumentsOf_reads reads items).bind fun args third => built fun _ => ?_
    exact .of_children trivial (.append (.append (.single first) second) third)
  -- get
  · refine (chainOf_reads reads m _).bind fun chain complete => ?_
    exact .skip (m.finish_reads _) fun _ => .some complete
  -- put
  · refine (chainOf_reads reads m _).bind fun chain first => ?_
    refine (m.node_reads reads _).bind fun value second => built fun _ => ?_
    exact .of_children trivial (.append (.single first) (.single second))
  -- rand
  · exact randomOf_reads reads m v
  -- new
  · refine .skip (m.name_reads _) fun _ => .skip (m.items_reads _) fun items => ?_
    refine (Reads.parts (initializerOf_reads reads)).bind fun args complete => ?_
    exact built fun _ => .of_children trivial (.slots complete)
  -- make
  · refine .skip (m.name_reads _) fun _ => .skip (m.items_reads _) fun items => ?_
    refine (argumentsOf_reads reads items).bind fun args complete => ?_
    exact built fun _ => .of_children trivial complete
  -- op
  · exact (operationOf_reads reads m v).bind fun _ complete => given complete

omit reads in
theorem kindIn_reads (n : Yaml.Node) (found : Option String)
    (pairs : List (Yaml.Node × Yaml.Node)) : ReadsAny (kindIn n found pairs) := by
  induction pairs generalizing found with
  | nil =>
    cases found with
    | some kind => exact .pure trivial
    | none => exact failed_reads _ _ trivial
  | cons pair rest ih =>
    cases key : kindKey? pair.1 with
    | none => cases found <;> simpa only [kindIn, key] using ih _
    | some other =>
      cases found with
      | none => simpa only [kindIn, key] using ih (some other)
      | some kind =>
        simp only [kindIn, key]
        exact failed_reads _ _ trivial

theorem compoundOf_reads (n : Yaml.Node) (pairs : List (Yaml.Node × Yaml.Node)) :
    Reads (compoundOf below n pairs) Node.Complete := by
  have described : ReadsPart (compoundOf? below n pairs) Node.Complete := by
    refine .skip (kindIn_reads n none pairs) fun kind => ?_
    split
    · exact .none
    refine .skip (mappingOf_reads _ _) fun mapping => ?_
    split
    · exact .none
    split
    · exact kindOf_reads reads _ _ _
    · exact .none
  refine described.bind fun found complete => ?_
  split
  · exact .pure (complete _ rfl)
  · exact placeholder_reads n

omit reads in
theorem countAliased_reads (n : Yaml.Node) : ReadsAny (countAliased n) := by
  refine .skip environment_reads fun env => ?_
  split
  · exact .pure trivial
  have counted : ReadsAny (modifyGet fun s : State =>
      (s.aliased + 1, { s with aliased := s.aliased + 1 }) : Load Nat) :=
    fun _ _ objecting => ⟨trivial, objecting⟩
  refine .skip counted fun count => ?_
  split
  · exact .pure trivial
  split
  · exact failed_reads _ _ trivial
  · exact .pure trivial

theorem writtenOf_reads (n : Yaml.Node) : Reads (writtenOf below n) Node.Complete := by
  unfold writtenOf
  split
  · exact scalarOf_reads _
  · refine .skip (siteAt_reads _) fun _ => (nodesOf_reads reads _).bind fun elems complete => ?_
    exact .pure (.of_children complete.1 complete.2)
  · exact compoundOf_reads reads _ _
  · exact .skip (fail_reads _ _) fun _ => placeholder_reads _

theorem nodeStep_reads (n : Yaml.Node) : Reads (nodeStep below n) Node.Complete := by
  refine .skip (countAliased_reads n) fun exceeded => ?_
  split
  · exact placeholder_reads n
  split
  · refine .skip (environment_reads.bind fun env _ => .pure trivial) fun target => ?_
    split
    · exact (reads _).withReader
    · exact writtenOf_reads reads _
  · exact writtenOf_reads reads _

end

theorem node_reads (depth : Nat) (n : Yaml.Node) : Reads (node depth n) Node.Complete := by
  induction depth generalizing n with
  | zero => exact placeholder_reads n
  | succ depth ih => exact nodeStep_reads ih n

theorem rootOf_reads (d : Yaml.Document) :
    Reads (rootOf d) fun slots => AllComplete (slots.filterMap (·)) := by
  unfold rootOf
  split
  · exact (nodesOf_reads (node_reads _) _).mono fun _ complete => complete.2
  · split
    · exact .skip (fail_reads _ _) fun _ => .pure .nil
    · exact .pure .nil

theorem ofFile_complete (f : SourceFile) (names : Interner) :
    (ofFile f names).tree.Complete ∧ ∀ d ∈ (ofFile f names).diagnostics, Objection d := by
  have empty : Tree.Complete ⟨f.id, f.path, []⟩ := fun _ member => absurd member List.not_mem_nil
  unfold ofFile
  split
  · exact ⟨empty, fun _ member => absurd member List.not_mem_nil⟩
  · exact ⟨empty, fun _ member => absurd member List.not_mem_nil⟩
  next d _ =>
    obtain ⟨complete, objecting⟩ := rootOf_reads d ⟨f.id, d, false⟩ ⟨names, #[], 0, 0⟩
      fun _ member => absurd member List.not_mem_nil
    refine ⟨Tree.complete_iff.mpr fun n member => ?_, objecting⟩
    exact complete n (List.mem_filterMap.mpr ⟨some n, member, rfl⟩)

end TreeCheck.Load
