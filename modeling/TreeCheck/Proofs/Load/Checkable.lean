import TreeCheck.Proofs.Check.Depth
import TreeCheck.Proofs.Load.Complete

/-!
Every file can be checked, whether its document is sound or not. Reading puts one node at the top
for each item of the document, whatever the item is, and the check of what was read never asks an
absent node for its position. So a check comes to its end on every file, on every context.
-/

namespace TreeCheck.Load

/-- The items of the document in a text; none where there is no sequence at the root. -/
def itemsIn (content : Text) : List Yaml.Node :=
  match Yaml.Document.read content with
  | .ok (some ⟨.sequence _ items, _⟩) => items
  | _ => []

theorem nodesOf_present (below : Yaml.Node → Load Node) (items : List Yaml.Node) (env : Env)
    (s : State) : ∃ nodes : List Node,
      ((nodesOf below items).run env s).1 = nodes.map some ∧ nodes.length = items.length := by
  induction items generalizing s with
  | nil => exact ⟨[], rfl, rfl⟩
  | cons item rest ih =>
    obtain ⟨nodes, later, same⟩ := ih ((below item).run env s).2
    refine ⟨((below item).run env s).1 :: nodes, ?_, congrArg (· + 1) same⟩
    unfold nodesOf
    rw [List.mapM_cons, List.map_cons, ← later]
    rfl

theorem rootOf_scalar (s : Yaml.Scalar) (anchors : Table Yaml.Node) (env : Env) (state : State) :
    ((rootOf ⟨.scalar s, anchors⟩ : Load _).run env state).1 = [] := by
  unfold rootOf
  by_cases null : (Yaml.Node.scalar s).isNull
  · simp only [null]
    rfl
  · simp only [null]
    rfl

theorem ofFile_present (f : SourceFile) (names : Interner) : ∃ nodes : List Node,
    (ofFile f names).tree.nodes = nodes.map some ∧ nodes.length = (itemsIn f.content).length := by
  unfold ofFile itemsIn
  cases Yaml.Document.read f.content with
  | error fault => exact ⟨[], rfl, rfl⟩
  | ok found =>
    cases found with
    | none => exact ⟨[], rfl, rfl⟩
    | some d =>
      obtain ⟨root, anchors⟩ := d
      cases root with
      | sequence place items => exact nodesOf_present _ _ _ _
      | scalar s => exact ⟨[], rootOf_scalar s anchors _ _, rfl⟩
      | _ => exact ⟨[], rfl, rfl⟩

/-- The tree of a file has exactly one node at the top for each item of the document, and no vector
element or operand in it is absent, whatever the failure of reading. On every context and for every
choice of warnings its check comes to its end, and so by looking at the whole tree: the bound on
the depth could be any other beyond the number of nodes. -/
theorem files_check_to_the_end (f : SourceFile) (names : Interner) :
    (∃ nodes : List Node, (ofFile f names).tree.nodes = nodes.map some ∧
      nodes.length = (itemsIn f.content).length) ∧
    (ofFile f names).tree.Complete ∧
    ∀ env : Check.Env,
      (∀ ctx : Context, ∃ s, (Check.tree env (ofFile f names).tree).run (.start ctx) = .ok () s) ∧
      ∀ depth > (ofFile f names).tree.visits.length,
        ((ofFile f names).tree.nodes.forM fun slot => discard (Check.expr env depth slot)) =
          Check.tree env (ofFile f names).tree := by
  have complete := (ofFile_complete f names).1
  refine ⟨ofFile_present f names, complete, fun env => ⟨fun ctx => ?_, fun depth enough => ?_⟩⟩
  · obtain ⟨s, ends, _⟩ := Check.tree_ends env complete (.start ctx)
    exact ⟨s, ends⟩
  · exact Check.tree_stable env _ enough

/-- A sum of which the only operand is of no kind. -/
def malformedSum : SourceFile :=
  ⟨0, text "t.yaml", text "- op: +\n  args:\n  - what: 3\n", 0⟩

theorem malformedSum_checks :
    let env : Check.Env := ⟨.fresh, ⟨true, true⟩⟩
    let tree := (ofFile malformedSum .fresh).tree
    tree.nodes.length = 1 ∧
      (∃ s, (Check.tree env tree).run (.start .fresh) = .ok () s) ∧
      (tree.nodes.forM fun slot => discard (Check.expr env (tree.visits.length + 1) slot)) =
        Check.tree env tree := by
  intro env tree
  obtain ⟨⟨nodes, present, length⟩, _, checks⟩ := files_check_to_the_end malformedSum .fresh
  have single : (itemsIn malformedSum.content).length = 1 := by decide +kernel
  have deeper := Nat.lt_succ_self tree.visits.length
  refine ⟨?_, (checks env).1 .fresh, (checks env).2 _ deeper⟩
  rw [present, List.length_map, length, single]

end TreeCheck.Load
