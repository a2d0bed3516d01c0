import TreeCheck.Proofs.Load.Rules
import TreeCheck.Proofs.Tree.Alike

/-!
Two readings side by side. The steps of the one run in one monad and those of the other in another;
a `Link` is any relation between such runs that the steps of reading respect. The documents may
differ too: what may stand in a place of a document is a `Spot`, and two documents are `Similar` if
they agree in all spots but those of nodes, where a relation between nodes takes over.
-/

namespace TreeCheck

namespace Grammar

/-- What a place of a document is for, as far as nodes may stand in it or below it. -/
inductive Spot where
  | node
  | body
  | argument
  | method
  | items (each : Spot)
  | record (described : Record)
  | other
  deriving DecidableEq

/-- What a place of a form is for. -/
def Form.spot : Form → Spot
  | .node => .node
  | .body => .body
  | .sequence item | .couple item => .items item.spot
  | .either .node _ => .argument
  | .either _ form => form.spot
  | .record (.node _) => .method
  | .record described => .record described
  | _ => .other

/-- What the value under a key is for, by the slots of what the mapping describes. -/
def Record.spot (described : Record) (key : Text) : Spot :=
  match described.alternatives.flatten.find? fun slot => text slot.key == key with
  | some slot => slot.form.spot
  | none => .other

/-- The same for a key that is given as a string. -/
def Record.spotOf (described : Record) (key : String) : Spot :=
  match described.alternatives.flatten.find? fun slot => slot.key == key with
  | some slot => slot.form.spot
  | none => .other

theorem Record.spot_text (described : Record) (key : String) :
    described.spot (text key) = described.spotOf key := by
  have same : (fun slot : Slot => text slot.key == text key) = fun slot => slot.key == key := by
    funext slot
    rw [Bool.eq_iff_iff, beq_iff_eq, beq_iff_eq, Load.text_inj]
  rw [spot, spotOf, same]

/-- What the value under a key is for, in a mapping that stands for a node. -/
def nodeSpot (pairs : List (Yaml.Node × Yaml.Node)) (key : Text) : Spot :=
  match Load.kindsNamed none pairs with
  | [kind] => (Record.node kind).spot key
  | _ => .other

end Grammar

namespace Load

open Grammar (Spot Record)

/-- The message does not begin as the one about aliases does. -/
def Told (message : Text) : Prop :=
  3 ≤ message.length ∧ message.take 3 ≠ text "doc"

instance : DecidablePred Told := fun _ => inferInstanceAs (Decidable (_ ∧ _))

/-- With a blank or a dot after it, the text may begin a message. -/
def Opens (opening : Text) : Prop :=
  2 ≤ opening.length ∧ opening.take 3 ≠ text "doc"

instance : DecidablePred Opens := fun _ => inferInstanceAs (Decidable (_ ∧ _))

theorem Told.append {a : Text} (told : Told a) (b : Text) : Told (a ++ b) := by
  obtain ⟨long, other⟩ := told
  refine ⟨by rw [List.length_append]; omega, ?_⟩
  rwa [List.take_append_of_le_length long]

theorem Opens.told {opening rest : Text} (opens : Opens opening)
    (stop : rest.head? = some 32 ∨ rest.head? = some 46) : Told (opening ++ rest) := by
  obtain ⟨long, other⟩ := opens
  match rest with
  | [] => simp at stop
  | b :: rest =>
    refine ⟨by rw [List.length_append, List.length_cons]; omega, ?_⟩
    by_cases short : opening.length = 2
    · obtain ⟨x, y, rfl⟩ := List.length_eq_two.mp short
      intro same
      have third : [x, y, b][2]? = (text "doc")[2]? := congrArg (·[2]?) same
      have stopped : b = 99 := Option.some.inj (third.trans (by decide))
      simp [stopped] at stop
    · rwa [List.take_append_of_le_length (by omega)]

theorem opens_kind : ∀ kind ∈ kindKeys, Opens (text kind) := by
  decide +kernel

/-- Whether a document node is a mapping with the key of a named argument. -/
def isNamed : Yaml.Node → Bool
  | .mapping _ pairs => pairs.any fun (k, _) => k.text == text "named"
  | _ => false

section

variable (like : Spot → Yaml.Node → Yaml.Node → Prop)

/-- The two lists of pairs have the same keys, and under each key what is alike in its spot. -/
def PairsLike (spot : Text → Spot) :
    List (Yaml.Node × Yaml.Node) → List (Yaml.Node × Yaml.Node) → Prop :=
  List.Forall₂ fun a b => a.1 = b.1 ∧ like (spot a.1.text) a.2 b.2

/-- The two document nodes are alike, part by part, as far as nodes are written by themselves. -/
inductive WrittenLike : Yaml.Node → Yaml.Node → Prop
  | scalar (s : Yaml.Scalar) : WrittenLike (.scalar s) (.scalar s)
  | alias (place : Yaml.Place) (name : Text) (number : Nat) :
    WrittenLike (.alias place name number) (.alias place name number)
  | sequence (place : Yaml.Place) {xs ys : List Yaml.Node} :
    List.Forall₂ (like .node) xs ys → WrittenLike (.sequence place xs) (.sequence place ys)
  | mapping (place : Yaml.Place) {xs ys : List (Yaml.Node × Yaml.Node)} :
    PairsLike like (Grammar.nodeSpot xs) xs ys →
      WrittenLike (.mapping place xs) (.mapping place ys)

/-- The relation takes documents apart as the rules of reading do. -/
structure Similar : Prop where
  other {n m : Yaml.Node} : like .other n m → n = m
  items {each : Spot} {n m : Yaml.Node} : like (.items each) n m →
    (n = m ∧ ∀ place xs, n ≠ .sequence place xs) ∨
      ∃ place xs ys, n = .sequence place xs ∧ m = .sequence place ys ∧
        List.Forall₂ (like each) xs ys
  record {described : Record} {n m : Yaml.Node} : like (.record described) n m →
    (n = m ∧ ∀ place xs, n ≠ .mapping place xs) ∨
      ∃ place xs ys, n = .mapping place xs ∧ m = .mapping place ys ∧
        PairsLike like described.spot xs ys
  body {n m : Yaml.Node} : like .body n m →
    ((∀ place xs, n ≠ .sequence place xs) ∧ (∀ place xs, m ≠ .sequence place xs) ∧
        like .node n m) ∨
      ∃ place xs ys, n = .sequence place xs ∧ m = .sequence place ys ∧
        List.Forall₂ (like .node) xs ys
  argument {n m : Yaml.Node} : like .argument n m →
    (isNamed n = false ∧ isNamed m = false ∧ like .node n m) ∨
      isNamed n = true ∧ isNamed m = true ∧ like (.record .namedArgument) n m

end

/-- A relation between runs in two monads that the steps of reading respect. -/
structure Link (M N : Type → Type) [Reading M] [Reading N] (l : Likeness) where
  Sim {α β : Type} (post : α → β → Prop) (x : M α) (y : N β) : Prop
  pure {α β : Type} {post : α → β → Prop} {a : α} {b : β} :
    post a b → Sim post (Pure.pure a) (Pure.pure b)
  bind {α β γ δ : Type} {post : α → β → Prop} {goal : γ → δ → Prop} {x : M α} {y : N β}
      {f : α → M γ} {g : β → N δ} :
    Sim post x y → (∀ a b, post a b → Sim goal (f a) (g b)) → Sim goal (x >>= f) (y >>= g)
  spanOf {n m : Yaml.Node} :
    n.place = m.place → Sim l.span (Reading.spanOf n) (Reading.spanOf m)
  siteAt {n m : Yaml.Node} :
    n.place = m.place → Sim (Site.Alike l) (Reading.siteAt n) (Reading.siteAt m)
  report {n m : Yaml.Node} (code : Code) {message : Text} :
    n.place = m.place → Told message →
      Sim (fun _ _ => True) (Reading.report code n message) (Reading.report code m message)
  intern (name : Text) : Sim l.handle (Reading.intern name) (Reading.intern name)
  absent : l.handle .none .none
  valid {h k : Handle} : l.handle h k → h.isValid = k.isValid

namespace Link

variable {M N : Type → Type} [Reading M] [Reading N] {l : Likeness} (L : Link M N l)
  {α β γ δ : Type} {post : α → β → Prop} {goal : γ → δ → Prop}

theorem same {x : M α} {y : N α} {f : α → M γ} {g : α → N δ} (first : L.Sim Eq x y)
    (rest : ∀ a, L.Sim goal (f a) (g a)) : L.Sim goal (x >>= f) (y >>= g) :=
  L.bind first fun a _ same => same ▸ rest a

theorem fail {n m : Yaml.Node} {message : Text} (same : n.place = m.place)
    (told : Told message) : L.Sim (fun _ _ => True) (Load.fail n message) (Load.fail m message) :=
  L.report .malformed same told

theorem failed {n m : Yaml.Node} {message : Text} {a : α} {b : β} (same : n.place = m.place)
    (told : Told message) (holds : post a b) :
    L.Sim post (do Load.fail n message; return a) (do Load.fail m message; return b) :=
  L.bind (L.fail same told) fun _ _ _ => L.pure holds

theorem forM {like : γ → δ → Prop} {xs : List γ} {ys : List δ} {f : γ → M Unit} {g : δ → N Unit}
    (alike : List.Forall₂ like xs ys)
    (each : ∀ x y, like x y → L.Sim (fun _ _ => True) (f x) (g y)) :
    L.Sim (fun _ _ => True) (xs.forM f) (ys.forM g) := by
  induction alike with
  | nil => exact L.pure trivial
  | cons first _ ih => exact L.bind (each _ _ first) fun _ _ _ => ih

theorem present {xs : List (Option α)} {ys : List (Option β)}
    (alike : List.Forall₂ (Option.Rel post) xs ys) :
    List.Forall₂ post (xs.filterMap (·)) (ys.filterMap (·)) := by
  induction alike with
  | nil => exact .nil
  | cons first _ ih =>
    cases first with
    | none => exact ih
    | some here => exact .cons here ih

variable [LawfulMonad M] [LawfulMonad N]

theorem mono {weaker : α → β → Prop} {x : M α} {y : N β} (sim : L.Sim post x y)
    (implies : ∀ a b, post a b → weaker a b) : L.Sim weaker x y := by
  rw [← bind_pure x, ← bind_pure y]
  exact L.bind sim fun a b holds => L.pure (implies a b holds)

theorem map {x : M α} {y : N β} {f : α → γ} {g : β → δ} (sim : L.Sim post x y)
    (holds : ∀ a b, post a b → goal (f a) (g b)) : L.Sim goal (f <$> x) (g <$> y) := by
  rw [map_eq_pure_bind, map_eq_pure_bind]
  exact L.bind sim fun a b found => L.pure (holds a b found)

theorem mapM {like : γ → δ → Prop} {xs : List γ} {ys : List δ} {f : γ → M α} {g : δ → N β}
    (alike : List.Forall₂ like xs ys) (each : ∀ x y, like x y → L.Sim post (f x) (g y)) :
    L.Sim (List.Forall₂ post) (xs.mapM f) (ys.mapM g) := by
  induction alike with
  | nil =>
    rw [List.mapM_nil, List.mapM_nil]
    exact L.pure .nil
  | cons first _ ih =>
    rw [List.mapM_cons, List.mapM_cons]
    refine L.bind (each _ _ first) fun a b here => ?_
    exact L.bind ih fun as bs later => L.pure (.cons here later)

end Link

/-- The readers of the nodes below respect a link between what similar documents write, and nodes
are related if they are so layer by layer. A method is told at its place, unless it is one. -/
structure Coupling {M N : Type → Type} [Reading M] [Reading N] {l : Likeness} (L : Link M N l)
    (node : Node → Node → Prop) (like : Spot → Yaml.Node → Yaml.Node → Prop)
    (below : Yaml.Node → M Node) (other : Yaml.Node → N Node) : Prop where
  layer {a b : Node} : node a b ↔ Node.Layer l node a b
  similar : Similar like
  sim {n m : Yaml.Node} : like .node n m → L.Sim node (below n) (other m)
  method {n m : Yaml.Node} : like .method n m →
    L.Sim (fun a b => node a b ∧ (n.place = m.place ∨ a.isFunction)) (below n) (other m)

end Load

end TreeCheck
