import TreeCheck.Check.Expr
import TreeCheck.Log
import TreeCheck.Tree.Walk

/-!
The semantic check of a whole tree, node by node in the order of the source.
-/

namespace TreeCheck.Check

/-- Checks the nodes at the top of a tree. The number of its nodes bounds its height. -/
def tree (env : Env) (t : Tree) : Check Unit :=
  let depth := t.visits.length + 1
  t.nodes.forM fun n => discard (expr env depth n)

inductive Event where
  | started (path : Text) (nodes : Nat)
  | unbalanced (depth want : Nat)
  | finished (path : Text) (scopes types : Nat)

def Event.entry : Event → Log.Entry
  | .started path nodes =>
    ⟨.debug, "sema start", [("file", .string path), ("nodes", .int nodes)]⟩
  | .unbalanced depth want =>
    ⟨.error, "unbalanced scopes after sema", [("depth", .int depth), ("want", .int want)]⟩
  | .finished path scopes types =>
    ⟨.debug, "sema done", [("file", .string path), ("scopes", .int scopes), ("types", .int types)]⟩

def events (t : Tree) (before after : Context) : List Event :=
  .started t.path t.nodes.length ::
    (if after.depth = before.depth then [] else [.unbalanced after.depth before.depth]) ++
      [.finished t.path after.last after.types.size]

def State.recorded (s : State) : Nat :=
  (s.types.toList.map (·.1)).eraseDups.length

end TreeCheck.Check
