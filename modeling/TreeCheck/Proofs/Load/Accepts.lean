import TreeCheck.Proofs.Load.Complete
import TreeCheck.Proofs.Load.Rules

/-!
Reading accepts exactly what the grammar derives. Without aliases the bound on the depth of reading
is never met, as it exceeds the height of the document; so by induction on the height every
document node is judged, and a document of nodes is accepted exactly if all of them derive.
-/

namespace TreeCheck

namespace Yaml

inductive Node.AliasFree : Node → Prop
  | scalar {s : Scalar} : AliasFree (.scalar s)
  | sequence {place : Place} {items : List Node} :
    (∀ n ∈ items, AliasFree n) → AliasFree (.sequence place items)
  | mapping {place : Place} {pairs : List (Node × Node)} :
    (∀ pair ∈ pairs, AliasFree pair.1) → (∀ pair ∈ pairs, AliasFree pair.2) →
      AliasFree (.mapping place pairs)

theorem height_le_of_mem {n : Node} {items : List Node} (member : n ∈ items) :
    n.height ≤ heightOf items := by
  induction items with
  | nil => cases member
  | cons first rest ih =>
    rw [heightOf]
    rcases List.mem_cons.mp member with rfl | later
    · omega
    · have := ih later
      omega

theorem height_le_of_mem_pairs {pair : Node × Node} {pairs : List (Node × Node)}
    (member : pair ∈ pairs) : pair.2.height ≤ heightOfPairs pairs := by
  induction pairs with
  | nil => cases member
  | cons first rest ih =>
    rw [heightOfPairs]
    rcases List.mem_cons.mp member with rfl | later
    · omega
    · have := ih later
      omega

theorem Node.height_pos (n : Node) : 0 < n.height := by
  cases n <;> simp [Node.height]

end Yaml

namespace Load

open Grammar (Derives needs)

def Within (depth : Nat) (n : Yaml.Node) : Prop :=
  n.AliasFree ∧ n.height ≤ depth

theorem Within.parts {depth : Nat} {n : Yaml.Node} (within : Within (depth + 1) n) :
    Parts (Within depth) n := by
  obtain ⟨free, height⟩ := within
  cases free with
  | scalar => trivial
  | sequence items =>
    intro item member
    have lower := Yaml.height_le_of_mem member
    rw [Yaml.Node.height] at height
    exact ⟨items item member, by omega⟩
  | mapping _ values =>
    intro pair member
    have lower := Yaml.height_le_of_mem_pairs member
    rw [Yaml.Node.height] at height
    exact ⟨values pair member, by omega⟩

theorem Within.closed {depth : Nat} (n : Yaml.Node) (within : Within depth n) :
    Parts (Within depth) n := by
  have higher : Within (depth + 1) n := ⟨within.1, Nat.le_succ_of_le within.2⟩
  exact higher.parts

theorem node_judge (depth : Nat) : Judge (node depth) (Within depth) := by
  refine ⟨Within.closed, ?_⟩
  induction depth with
  | zero =>
    -- No document node is that low, so there is nothing to judge.
    intro n within
    have positive := n.height_pos
    have height := within.2
    omega
  | succ depth ih =>
    intro n within
    exact nodeStep_judges ⟨Within.closed, ih⟩ within.parts

theorem rootOf_judges {d : Yaml.Document} {place : Yaml.Place} {items : List Yaml.Node}
    (root : d.root = .sequence place items) (free : d.root.AliasFree) :
    Decides (rootOf d) (∀ item ∈ items, Derives .node item) := by
  unfold rootOf
  rw [root] at free ⊢
  apply nodesOf_judges (node_judge _)
  intro item member
  have lower := Yaml.height_le_of_mem member
  cases free with
  | sequence items =>
    refine ⟨items item member, ?_⟩
    rw [Yaml.Node.height]
    omega

theorem ofDocument_failure (f : SourceFile) (names : Interner) (d : Yaml.Document) :
    (ofDocument f names d).failure = if (ofDocument f names d).diagnostics = [] then none
      else some (.malformed f.path (ofDocument f names d).diagnostics.length) := by
  unfold ofDocument
  generalize ((rootOf d : Load _).run ⟨f.id, d, false⟩).run ⟨names, #[], 0, 0⟩ = result
  obtain ⟨nodes, s⟩ := result
  simp

theorem ofFile_of_read {f : SourceFile} {d : Yaml.Document}
    (read : Yaml.Document.read f.content = .ok (some d)) (names : Interner) :
    ofFile f names = ofDocument f names d := by
  unfold ofFile
  rw [read]

/-- A document without aliases whose root is a sequence is accepted exactly if all of its items
derive as nodes. Otherwise it is malformed, and the failure counts the diagnostics, of which there
is at least one and which are all about the document. The absent name stays the empty text. -/
theorem accepts_exactly_the_grammar (f : SourceFile) {names : Interner} (rooted : names.Rooted)
    {d : Yaml.Document} {place : Yaml.Place} {items : List Yaml.Node}
    (root : d.root = .sequence place items) (free : d.root.AliasFree) :
    ((ofDocument f names d).failure = none ↔ ∀ item ∈ items, Derives .node item) ∧
    (∀ failure, (ofDocument f names d).failure = some failure →
      failure = .malformed f.path (ofDocument f names d).diagnostics.length ∧
        (ofDocument f names d).diagnostics ≠ []) ∧
    ((ofDocument f names d).failure = none → (ofDocument f names d).diagnostics = []) ∧
    (∀ said ∈ (ofDocument f names d).diagnostics, Objection said) ∧
    (ofDocument f names d).names.Rooted ∧
    (Yaml.Document.read f.content = .ok (some d) → ofFile f names = ofDocument f names d) := by
  have verdict := rootOf_judges root free ⟨f.id, d, false⟩ ⟨names, #[], 0, 0⟩ rfl rooted
  have objecting := (rootOf_reads d ⟨f.id, d, false⟩ ⟨names, #[], 0, 0⟩
    fun _ member => absurd member List.not_mem_nil).2
  have failure := ofDocument_failure f names d
  have silent : (ofDocument f names d).diagnostics = [] ↔ ∀ item ∈ items, Derives .node item := by
    rw [← verdict.decides, ← List.length_eq_zero_iff]
    exact Iff.rfl
  refine ⟨?_, ?_, ?_, objecting, verdict.rooted, fun read => ofFile_of_read read names⟩
  · rw [failure, ← silent]
    simp
  · intro cause failed
    rw [failure] at failed
    split at failed
    · cases failed
    next spoken => exact ⟨(Option.some.inj failed).symm, spoken⟩
  · intro accepted
    rw [failure] at accepted
    split at accepted
    next quiet => exact quiet
    · cases accepted

def identifier (name : String) : Yaml.Node :=
  .scalar ⟨1, 1, text "!!str", text name, .plain⟩

def patternAccess : Yaml.Node :=
  .mapping ⟨1, 1⟩ [(identifier "at", identifier "rows"), (identifier "pattern", identifier "key")]

theorem patternAccess_accepted :
    (ofDocument ⟨0, text "t.yaml", [], 0⟩ .fresh
      ⟨.sequence ⟨1, 1⟩ [patternAccess], .empty⟩).failure = none := by
  have scalar (name : String) : (identifier name).AliasFree := .scalar
  have free : (Yaml.Node.sequence ⟨1, 1⟩ [patternAccess]).AliasFree := by
    refine .sequence fun n member => ?_
    rw [List.mem_singleton.mp member]
    exact .mapping (by simp [scalar]) (by simp [scalar])
  have keyed (name key : String) : Grammar.Keyed (identifier name) key ↔ name = key := by
    simp [Grammar.Keyed, identifier, text_inj]
  have derived : Derives (.record (.node "at")) patternAccess := by
    have alternative : [needs "at" .node, needs "pattern" .name] ∈
        (Grammar.Record.node "at").alternatives := by decide
    refine .record alternative ⟨?_, by decide⟩ ?_ ?_ ?_
    · simp [identifier]
    · simp [keyed, needs]
    · simp [keyed, needs]
    · have rows : Derives .node (identifier "rows") := .plain rfl rfl (by decide)
      have key : Derives .name (identifier "key") := .name (by decide) (by decide)
      simp [keyed, needs, rows, key]
  refine (accepts_exactly_the_grammar _ Interner.rooted_fresh rfl free).1.mpr fun item member => ?_
  rw [List.mem_singleton.mp member]
  exact Grammar.derives_node_mapping.mpr ⟨"at", derived⟩

end Load

end TreeCheck
