import TreeCheck.Proofs.Load.Expansion

/-!
Aliases beside copies. A document without cyclic aliases is read like the one in which every alias
is replaced by a copy of what it refers to, as long as aliases stand only for nodes. An alias of a
sequence in the place of a body is read as a vector and not as a block, so these are left out, and
so are aliases of named arguments, and of methods that are none.
-/

namespace TreeCheck

namespace Yaml

/-- The node with every alias replaced by a copy of the node it refers to. There is none if
aliases are followed without end, or lead nowhere. -/
def Document.copy? (d : Document) : Nat → Node → Option Node
  | 0, _ => none
  | _ + 1, .scalar s => some (.scalar s)
  | steps + 1, .sequence place items => (items.mapM (d.copy? steps)).map (.sequence place)
  | steps + 1, .mapping place pairs =>
    (pairs.mapM fun (k, v) => do return (← d.copy? steps k, ← d.copy? steps v)).map (.mapping place)
  | steps + 1, .alias _ _ number => (d.target? number).bind (d.copy? steps)

def Document.Copies (d : Document) (n m : Node) : Prop :=
  ∃ steps, d.copy? steps n = some m

theorem forall₂_of_mapM {α β : Type} {f : α → Option β} {xs : List α} {ys : List β}
    (all : xs.mapM f = some ys) : List.Forall₂ (fun x y => f x = some y) xs ys := by
  induction xs generalizing ys with
  | nil =>
    cases all
    exact .nil
  | cons x xs ih =>
    rw [List.mapM_cons, Option.bind_eq_bind, Option.bind_eq_some_iff] at all
    obtain ⟨y, first, all⟩ := all
    rw [Option.bind_eq_bind, Option.bind_eq_some_iff] at all
    obtain ⟨ys', later, same⟩ := all
    cases same
    exact .cons first (ih later)

theorem eq_of_forall₂ {α : Type} {like : α → α → Prop} {xs ys : List α}
    (alike : List.Forall₂ like xs ys) (same : ∀ x ∈ xs, ∀ y, like x y → x = y) : xs = ys := by
  induction alike with
  | nil => rfl
  | cons first _ ih =>
    rw [same _ List.mem_cons_self _ first,
      ih fun x member => same x (List.mem_cons_of_mem _ member)]

namespace Document.Copies

variable {d : Document} {n m : Node}

theorem scalar {s : Scalar} (copies : d.Copies (.scalar s) m) : m = .scalar s := by
  obtain ⟨steps | steps, copied⟩ := copies
  · cases copied
  · exact (Option.some.inj copied).symm

theorem sequence {place : Place} {xs : List Node} (copies : d.Copies (.sequence place xs) m) :
    ∃ ys, m = .sequence place ys ∧ List.Forall₂ d.Copies xs ys := by
  obtain ⟨steps | steps, copied⟩ := copies
  · cases copied
  · obtain ⟨ys, all, same⟩ := Option.map_eq_some_iff.mp copied
    exact ⟨ys, same.symm, (forall₂_of_mapM all).imp fun _ _ found => ⟨steps, found⟩⟩

theorem mapping {place : Place} {xs : List (Node × Node)}
    (copies : d.Copies (.mapping place xs) m) :
    ∃ ys, m = .mapping place ys ∧
      List.Forall₂ (fun a b => d.Copies a.1 b.1 ∧ d.Copies a.2 b.2) xs ys := by
  obtain ⟨steps | steps, copied⟩ := copies
  · cases copied
  · obtain ⟨ys, all, same⟩ := Option.map_eq_some_iff.mp copied
    refine ⟨ys, same.symm, (forall₂_of_mapM all).imp fun a b found => ?_⟩
    obtain ⟨k, key, found⟩ := Option.bind_eq_some_iff.mp found
    obtain ⟨v, value, same⟩ := Option.bind_eq_some_iff.mp found
    cases same
    exact ⟨⟨steps, key⟩, steps, value⟩

theorem target {place : Place} {name : Text} {number : Nat}
    (copies : d.Copies (.alias place name number) m) :
    ∃ target, d.target? number = some target ∧ d.Copies target m := by
  obtain ⟨steps | steps, copied⟩ := copies
  · cases copied
  · obtain ⟨target, found, copied⟩ := Option.bind_eq_some_iff.mp copied
    exact ⟨target, found, steps, copied⟩

theorem resolved (copies : d.Copies n m) (place : Place) (name : Text) (number : Nat) :
    m ≠ .alias place name number := by
  obtain ⟨steps, copied⟩ := copies
  rintro rfl
  induction steps generalizing n with
  | zero => cases copied
  | succ steps ih =>
    cases n with
    | scalar s => cases copied
    | sequence place xs =>
      obtain ⟨ys, _, same⟩ := Option.map_eq_some_iff.mp copied
      cases same
    | mapping place xs =>
      obtain ⟨ys, _, same⟩ := Option.map_eq_some_iff.mp copied
      cases same
    | _ =>
      obtain ⟨target, _, copied⟩ := Option.bind_eq_some_iff.mp copied
      exact ih copied

theorem eq_of_aliasFree (free : n.AliasFree) : ∀ {m}, d.Copies n m → n = m := by
  induction free with
  | scalar => exact fun copies => copies.scalar.symm
  | sequence _ ih =>
    intro m copies
    obtain ⟨ys, rfl, alike⟩ := copies.sequence
    rw [eq_of_forall₂ alike fun n member _ copies => ih n member copies]
  | mapping _ _ keys values =>
    intro m copies
    obtain ⟨ys, rfl, alike⟩ := copies.mapping
    rw [eq_of_forall₂ alike fun pair member _ copies =>
      Prod.ext (keys pair member copies.1) (values pair member copies.2)]

end Document.Copies

end Yaml

def Node.isBlock : Node → Bool
  | .block .. => true
  | _ => false

namespace Load

open Grammar (Spot Record)
open Yaml (Document)

/-- What a document node stands for, aliases followed. -/
inductive Stands (d : Document) : Yaml.Node → Yaml.Node → Prop
  | own {n : Yaml.Node} : (∀ place name number, n ≠ .alias place name number) → Stands d n n
  | reference {place : Yaml.Place} {name : Text} {number : Nat} {target n : Yaml.Node} :
    d.target? number = some target → Stands d target n → Stands d (.alias place name number) n

/-- Aliases stand only where a node or a body is expected. None in the place of a body stands for
a sequence, none among arguments for a named one, and none among methods for another node. -/
inductive Placed (d : Document) : Spot → Yaml.Node → Prop
  | other {n : Yaml.Node} : n.AliasFree → Placed d .other n
  | items {each : Spot} {place : Yaml.Place} {items : List Yaml.Node} :
    (∀ n ∈ items, Placed d each n) → Placed d (.items each) (.sequence place items)
  | unlisted {each : Spot} {n : Yaml.Node} :
    n.AliasFree → (∀ place items, n ≠ .sequence place items) → Placed d (.items each) n
  | record {described : Record} {place : Yaml.Place} {pairs : List (Yaml.Node × Yaml.Node)} :
    (∀ pair ∈ pairs, pair.1.AliasFree) →
      (∀ pair ∈ pairs, Placed d (described.spot pair.1.text) pair.2) →
      Placed d (.record described) (.mapping place pairs)
  | undescribed {described : Record} {n : Yaml.Node} :
    n.AliasFree → (∀ place pairs, n ≠ .mapping place pairs) → Placed d (.record described) n
  | scalar {s : Yaml.Scalar} : Placed d .node (.scalar s)
  | vector {place : Yaml.Place} {items : List Yaml.Node} :
    (∀ n ∈ items, Placed d .node n) → Placed d .node (.sequence place items)
  | compound {place : Yaml.Place} {pairs : List (Yaml.Node × Yaml.Node)} :
    (∀ pair ∈ pairs, pair.1.AliasFree) →
      (∀ pair ∈ pairs, Placed d (Grammar.nodeSpot pairs pair.1.text) pair.2) →
      Placed d .node (.mapping place pairs)
  | reference {place : Yaml.Place} {name : Text} {number : Nat} {target : Yaml.Node} :
    d.target? number = some target → Placed d .node target →
      Placed d .node (.alias place name number)
  | block {place : Yaml.Place} {items : List Yaml.Node} :
    (∀ n ∈ items, Placed d .node n) → Placed d .body (.sequence place items)
  | body {n : Yaml.Node} :
    (∀ place items, ¬Stands d n (.sequence place items)) → Placed d .node n → Placed d .body n
  | argument {n : Yaml.Node} :
    (∀ m, Stands d n m → isNamed m = false) → Placed d .node n → Placed d .argument n
  | named {n : Yaml.Node} :
    isNamed n → Placed d (.record .namedArgument) n → Placed d .argument n
  | method {n : Yaml.Node} :
    (∀ m, Stands d n m → n = m ∨ ∃ place pairs, m = .mapping place pairs ∧
      kindsNamed none pairs = ["func"] ∧ Grammar.DistinctKeys pairs) →
      Placed d .node n → Placed d .method n

def CopyLike (d : Document) (spot : Spot) (n m : Yaml.Node) : Prop :=
  Placed d spot n ∧ d.Copies n m

section

variable {d : Document} {n m : Yaml.Node}

theorem copyLike_items {xs ys : List Yaml.Node} {spot : Spot} (placed : ∀ n ∈ xs, Placed d spot n)
    (copies : List.Forall₂ d.Copies xs ys) : List.Forall₂ (CopyLike d spot) xs ys := by
  induction copies with
  | nil => exact .nil
  | cons first _ ih =>
    refine .cons ⟨placed _ List.mem_cons_self, first⟩ (ih fun n member => ?_)
    exact placed n (List.mem_cons_of_mem _ member)

theorem copyLike_pairs {xs ys : List (Yaml.Node × Yaml.Node)} {spot : Text → Spot}
    (keys : ∀ pair ∈ xs, pair.1.AliasFree)
    (values : ∀ pair ∈ xs, Placed d (spot pair.1.text) pair.2)
    (copies : List.Forall₂ (fun a b => d.Copies a.1 b.1 ∧ d.Copies a.2 b.2) xs ys) :
    PairsLike (CopyLike d) spot xs ys := by
  induction copies with
  | nil => exact .nil
  | cons first _ ih =>
    refine .cons ⟨?_, values _ List.mem_cons_self, first.2⟩ (ih ?_ ?_)
    · exact first.1.eq_of_aliasFree (keys _ List.mem_cons_self)
    · exact fun pair member => keys pair (List.mem_cons_of_mem _ member)
    · exact fun pair member => values pair (List.mem_cons_of_mem _ member)

theorem copyLike_written (alike : CopyLike d .node n m)
    (own : ∀ place name number, n ≠ .alias place name number) : WrittenLike (CopyLike d) n m := by
  obtain ⟨placed, copies⟩ := alike
  cases placed with
  | scalar =>
    cases copies.scalar
    exact .scalar _
  | vector items =>
    obtain ⟨ys, rfl, each⟩ := copies.sequence
    exact .sequence _ (copyLike_items items each)
  | compound keys values =>
    obtain ⟨ys, rfl, each⟩ := copies.mapping
    exact .mapping _ (copyLike_pairs keys values each)
  | _ => exact absurd rfl (own _ _ _)

theorem stands_of_copies (copies : d.Copies n m) : ∃ own, Stands d n own ∧ d.Copies own m := by
  obtain ⟨steps, copied⟩ := copies
  induction steps generalizing n with
  | zero => cases copied
  | succ steps ih =>
    cases n with
    | scalar s => exact ⟨_, .own nofun, _, copied⟩
    | sequence place items => exact ⟨_, .own nofun, _, copied⟩
    | mapping place pairs => exact ⟨_, .own nofun, _, copied⟩
    | _ =>
      obtain ⟨target, found, copied⟩ := Option.bind_eq_some_iff.mp copied
      obtain ⟨own, stands, copies⟩ := ih copied
      exact ⟨own, .reference found stands, copies⟩

theorem Stands.resolved {own : Yaml.Node} (stands : Stands d n own) :
    ∀ place name number, own ≠ .alias place name number := by
  induction stands with
  | own resolved => exact resolved
  | reference _ _ ih => exact ih

theorem Stands.placed {own : Yaml.Node} (stands : Stands d n own) (placed : Placed d .node n) :
    Placed d .node own := by
  induction stands with
  | own _ => exact placed
  | reference found _ ih =>
    cases placed with
    | reference found' placed =>
      cases found.symm.trans found'
      exact ih placed

theorem isNamed_eq {spot : Text → Spot} {place : Yaml.Place} {xs ys : List (Yaml.Node × Yaml.Node)}
    (pairs : PairsLike (CopyLike d) spot xs ys) :
    isNamed (.mapping place xs) = isNamed (.mapping place ys) := by
  show (xs.any fun pair => pair.1.text == text "named") =
    ys.any fun pair => pair.1.text == text "named"
  induction pairs with
  | nil => rfl
  | cons first _ ih => rw [List.any_cons, List.any_cons, ih, first.1]

theorem isNamed_copy (alike : CopyLike d .node n m)
    (unnamed : ∀ own, Stands d n own → isNamed own = false) : isNamed m = false := by
  obtain ⟨placed, copies⟩ := alike
  obtain ⟨own, stands, copies⟩ := stands_of_copies copies
  have unnamed := unnamed own stands
  cases copyLike_written ⟨stands.placed placed, copies⟩ stands.resolved with
  | mapping place pairs => rwa [isNamed_eq pairs] at unnamed
  | _ => rfl

theorem copyLike_similar : Similar (CopyLike d) where
  other := by
    rintro n m ⟨⟨free⟩, copies⟩
    exact copies.eq_of_aliasFree free
  items := by
    rintro each n m ⟨placed, copies⟩
    cases placed with
    | items placed =>
      obtain ⟨ys, rfl, each⟩ := copies.sequence
      exact .inr ⟨_, _, ys, rfl, rfl, copyLike_items placed each⟩
    | unlisted free unlisted => exact .inl ⟨copies.eq_of_aliasFree free, unlisted⟩
  record := by
    rintro described n m ⟨placed, copies⟩
    cases placed with
    | record keys values =>
      obtain ⟨ys, rfl, each⟩ := copies.mapping
      exact .inr ⟨_, _, ys, rfl, rfl, copyLike_pairs keys values each⟩
    | undescribed free undescribed => exact .inl ⟨copies.eq_of_aliasFree free, undescribed⟩
  body := by
    rintro n m ⟨placed, copies⟩
    cases placed with
    | block placed =>
      obtain ⟨ys, rfl, each⟩ := copies.sequence
      exact .inr ⟨_, _, ys, rfl, rfl, copyLike_items placed each⟩
    | body unlisted placed =>
      refine .inl ⟨?_, ?_, placed, copies⟩
      · rintro place items rfl
        exact unlisted place items (.own nofun)
      · rintro place items rfl
        obtain ⟨own, stands, copies⟩ := stands_of_copies copies
        cases copyLike_written ⟨stands.placed placed, copies⟩ stands.resolved with
        | sequence => exact unlisted _ _ stands
  argument := by
    rintro n m ⟨placed, copies⟩
    cases placed with
    | argument unnamed placed =>
      refine .inl ⟨?_, isNamed_copy ⟨placed, copies⟩ unnamed, placed, copies⟩
      cases n with
      | mapping place pairs => exact unnamed _ (.own nofun)
      | _ => rfl
    | named given placed =>
      refine .inr ⟨given, ?_, placed, copies⟩
      cases placed with
      | record keys values =>
        obtain ⟨ys, rfl, each⟩ := copies.mapping
        rwa [isNamed_eq (copyLike_pairs keys values each)] at given
      | undescribed _ undescribed =>
        cases n with
        | mapping place pairs => exact absurd rfl (undescribed place pairs)
        | _ => cases given

end

/-! ### Methods -/

section

variable {reader : Yaml.Node → Load Node} {place : Yaml.Place}
  {pairs : List (Yaml.Node × Yaml.Node)}

theorem entriesFrom_fresh (kind : Text) {entries : List Entry} (fresh : FreshKeys entries pairs) :
    (entriesFrom kind entries pairs : Load _) =
      pure (entries.reverse ++ pairs.map entryOf, true) := by
  induction pairs generalizing entries with
  | nil => simp [entriesFrom]
  | cons pair rest ih =>
    obtain ⟨k, v⟩ := pair
    obtain ⟨s, rfl : k = .scalar s⟩ := fresh.1.1 _ List.mem_cons_self
    obtain ⟨new, later⟩ := freshKeys_cons.mp fresh
    have absent : (entries.any fun e => e.key == s.value) = false := by
      simpa using new
    rw [entriesFrom, absent, if_neg Bool.false_ne_true, ih later]
    simp [entryOf, Yaml.Node.text]

theorem kindIn_single (n : Yaml.Node) {found : Option String} {kind : String}
    (single : kindsNamed found pairs = [kind]) :
    (kindIn n found pairs : Load _) = pure (some kind) := by
  induction pairs generalizing found with
  | nil =>
    cases found with
    | none => cases single
    | some other =>
      cases single
      rfl
  | cons pair rest ih =>
    obtain ⟨k, v⟩ := pair
    cases key : kindKey? k with
    | none =>
      have single : kindsNamed found rest = [kind] := by
        simpa [kindsNamed, key] using single
      cases found <;> simpa only [kindIn, key] using ih single
    | some other =>
      cases found with
      | none =>
        have single : kindsNamed (some other) rest = [kind] := by
          simpa [kindsNamed, key] using single
        simpa only [kindIn, key] using ih single
      | some first => simp [kindsNamed, key] at single

theorem function_of_single (single : kindsNamed none pairs = ["func"])
    (distinct : Grammar.DistinctKeys pairs) (env : Env) (s : State) :
    ((writtenOf reader (.mapping place pairs)).run env s).1.isFunction = true := by
  have fresh : FreshKeys [] pairs := ⟨distinct, by simp⟩
  let m : Mapping := ⟨.mapping place pairs, text "func", pairs.map entryOf⟩
  have writes : Writes (.mapping place pairs) (text "func") m := ⟨place, pairs, rfl, distinct, rfl⟩
  obtain ⟨_, v, held⟩ := get?_of_single single writes
  have mapped : (mappingOf (.mapping place pairs) (text "func") : Load _) = pure (some m) := by
    unfold mappingOf
    dsimp only
    rw [entriesFrom_fresh _ fresh]
    rfl
  have read : compoundOf? reader (.mapping place pairs) pairs = kindOf reader m "func" v := by
    unfold compoundOf?
    rw [kindIn_single _ single, pure_bind]
    dsimp only
    rw [mapped, pure_bind]
    dsimp only
    rw [held]
  unfold writtenOf
  dsimp only
  rw [compoundOf, read]
  rfl

end

theorem keys_eq {like : Spot → Yaml.Node → Yaml.Node → Prop} {spot : Text → Spot}
    {xs ys : List (Yaml.Node × Yaml.Node)} (pairs : PairsLike like spot xs ys) :
    xs.map (·.1) = ys.map (·.1) := by
  induction pairs with
  | nil => rfl
  | cons first _ ih => rw [List.map_cons, List.map_cons, ih, first.1]

theorem method_of_copy {d : Document} {n m : Yaml.Node} (alike : CopyLike d .method n m) :
    CopyLike d .node n m ∧ (n.place = m.place ∨ ∃ place pairs, m = .mapping place pairs ∧
      kindsNamed none pairs = ["func"] ∧ Grammar.DistinctKeys pairs) := by
  obtain ⟨placed, copies⟩ := alike
  cases placed with
  | method function placed =>
    refine ⟨⟨placed, copies⟩, ?_⟩
    obtain ⟨own, stands, copied⟩ := stands_of_copies copies
    have written := copyLike_written ⟨stands.placed placed, copied⟩ stands.resolved
    rcases function own stands with rfl | ⟨place, xs, rfl, single, distinct⟩
    · left
      cases written <;> rfl
    · right
      cases written with
      | @mapping _ _ ys pairs =>
        have same := keys_eq pairs
        refine ⟨place, ys, rfl, ?_, ?_, ?_⟩
        · have named (zs : List (Yaml.Node × Yaml.Node)) :
              kindsNamed none zs = (zs.map (·.1)).filterMap kindKey? := by
            simp [kindsNamed, List.filterMap_map]
          rw [named, ← same, ← named]
          exact single
        · intro pair member
          have among : pair.1 ∈ xs.map (·.1) := same ▸ List.mem_map_of_mem member
          obtain ⟨other, member, key⟩ := List.mem_map.mp among
          exact key ▸ distinct.1 other member
        · have texts (zs : List (Yaml.Node × Yaml.Node)) :
              (zs.map fun pair => pair.1.text) = (zs.map (·.1)).map Yaml.Node.text := by
            simp
          rw [texts, ← same, ← texts]
          exact distinct.2

/-! ### Reading -/

/-- The states are the same, but for the count of aliased nodes. -/
structure Copying (count : Nat) (s s' : State) : Prop where
  reached : count ≤ s.aliased
  names : s.names = s'.names
  emitted : s.emitted = s'.emitted
  next : s.next = s'.next

def InBound (s _ : State) : Prop :=
  s.aliased ≤ maxAliased

theorem copying_paired {env env' : Env} (file : env.file = env'.file) (count : Nat) :
    Paired .same env env' (Copying count) InBound where
  span place := by
    show env.spanAt place = env'.spanAt place
    rw [Env.spanAt, Env.spanAt, file]
  next related :=
    ⟨related.next, related.reached, related.names, related.emitted, congrArg (· + 1) related.next⟩
  report code place message related := by
    refine ⟨related.reached, related.names, ?_, related.next⟩
    rw [State.told, State.told, Env.spanAt, Env.spanAt, file, related.emitted]
  intern t related _ := by
    rw [related.names]
    exact ⟨rfl, related.reached, rfl, related.emitted, related.next⟩
  back first _ near := Nat.le_trans first.aliased near

section

variable {d : Document} {env env' : Env} (direct : env'.throughAlias = false)
include direct

theorem written_copies (file : env.file = env'.file) {depth depth' count : Nat}
    {n m : Yaml.Node} (alike : CopyLike d .node n m)
    (own : ∀ place name number, n ≠ .alias place name number) (high : m.height ≤ depth' + 1)
    (read : ∀ child other, CopyLike d .node child other → child.height < n.height →
      other.height < m.height →
      Conform env env' (Copying count) InBound Eq (node depth child) (node depth' other)) :
    Conform env env' (Copying count) InBound Eq (writtenOf (node depth) n)
      (writtenOf (node depth') m) := by
  let lower (top child : Yaml.Node) : Prop := child.height < top.height
  have closed (top n : Yaml.Node) (under : lower top n) (child : Yaml.Node)
      (member : child ∈ n.children) : lower top child :=
    Nat.lt_trans (Yaml.Node.height_lt_of_child member) under
  refine writtenOf_conform (copying_paired file count) rfl (congrArg Handle.isValid)
    (by rw [Node.layer_same]) (inside_similar copyLike_similar (closed n) (closed m))
    (.inr ⟨node_grows depth, node_grows depth'⟩) ?_
    (inside_written (copyLike_written alike own)
      (fun _ => Yaml.Node.height_lt_of_child) fun _ => Yaml.Node.height_lt_of_child)
  rintro child other given (⟨alike, low, low'⟩ | ⟨alike, low, low'⟩)
  · exact read child other alike low low'
  · obtain ⟨alike, placed⟩ := method_of_copy alike
    intro s s' related near
    obtain ⟨same, kept⟩ := read child other alike low low' s s' related near
    refine ⟨⟨same, placed.imp_right ?_⟩, kept⟩
    rintro ⟨place, pairs, rfl, single, distinct⟩
    rw [same]
    match depth' with
    | 0 =>
      have positive := (Yaml.Node.mapping place pairs).height_pos
      have low' : (Yaml.Node.mapping place pairs).height < m.height := low'
      omega
    | depth' + 1 =>
      have own (target : Yaml.Node) : ¬env'.Refers (.mapping place pairs) target := by
        rintro ⟨_, _, _, same, _⟩
        cases same
      rw [node_written _ direct own]
      exact function_of_single single distinct env' s'

theorem node_copies (depth : Nat) : ∀ {depth' : Nat} {env : Env} {count : Nat}
    {n m : Yaml.Node}, env.document = d → env.file = env'.file →
      CopyLike d .node n m → m.height ≤ depth' → (∀ s, count ≤ s.aliased → Deep depth env n s) →
      Conform env env' (Copying count) InBound Eq (node depth n) (node depth' m) := by
  induction depth with
  | zero =>
    intro depth' env count n m _ _ _ _ deep s s' related _
    exact absurd (deep s related.reached).pos (Nat.lt_irrefl 0)
  | succ depth ih =>
    intro depth' env count n m document file alike high deep s s' related near
    have deep := deep s related.reached
    by_cases room : s.HasRoom env
    swap
    · -- A node that is cut off would exceed the bound.
      obtain ⟨_, full⟩ := State.full_of_not_room room
      rw [node_full n room] at near
      have exceeded : s.aliased + 1 ≤ maxAliased := near
      omega
    have counted : Copying (s.counted env).aliased (s.counted env) s' :=
      ⟨Nat.le_refl _, related.names, related.emitted, related.next⟩
    have later {t t' : State} (kept : Copying (s.counted env).aliased t t') :
        Copying count t t' := by
      have grown : s.aliased ≤ (s.counted env).aliased := State.extends_counted.aliased
      have before := related.reached
      exact ⟨Nat.le_trans (Nat.le_trans before grown) kept.reached, kept.names, kept.emitted,
        kept.next⟩
    rw [node_room n room] at near ⊢
    by_cases refers : ∃ target, env.Refers n target
    · obtain ⟨target, refers⟩ := refers
      rw [followed_target _ _ refers] at near ⊢
      have alike : CopyLike d .node target m := by
        obtain ⟨place, name, number, rfl, found⟩ := refers
        obtain ⟨placed, copies⟩ := alike
        obtain ⟨other, found', copies⟩ := copies.target
        cases placed with
        | reference found'' placed =>
          rw [document, found'] at found
          cases found
          cases found'.symm.trans found''
          exact ⟨placed, copies⟩
      have deeper (t : State) (reached : (s.counted env).aliased ≤ t.aliased) :
          Deep depth env.through target t :=
        (deep.through room).later reached
      have document : env.through.document = d := document
      obtain ⟨same, kept⟩ := ih document file alike high deeper _ _ counted near
      exact ⟨same, later kept⟩
    · have refers := not_exists.mp refers
      have own (place : Yaml.Place) (name : Text) (number : Nat) :
          n ≠ .alias place name number := by
        rintro rfl
        obtain ⟨target, found, _⟩ := alike.2.target
        exact refers target ⟨place, name, number, rfl, document ▸ found⟩
      rw [followed_written _ _ refers] at near ⊢
      match depth' with
      | 0 => exact absurd m.height_pos (Nat.not_lt.mpr high)
      | depth' + 1 =>
      have written : (node (depth' + 1) m : Load Node).run env' s' =
          (writtenOf (node depth') m : Load Node).run env' s' := by
        apply node_written m direct
        rintro target ⟨place, name, number, rfl, _⟩
        exact alike.2.resolved place name number rfl
      rw [written] at near ⊢
      have read (child other : Yaml.Node) (alike : CopyLike d .node child other)
          (low : child.height < n.height) (low' : other.height < m.height) :
          Conform env env' (Copying (s.counted env).aliased) InBound Eq (node depth child)
            (node depth' other) :=
        ih document file alike (by omega) fun t reached => deep.down room low reached
      have conform := written_copies direct file alike own high read
      obtain ⟨same, kept⟩ := conform _ _ counted near
      exact ⟨same, later kept⟩

end

theorem inBound_of_untold {f : SourceFile} {names : Interner} {d : Document}
    (untold : expansions (ofDocument f names d).diagnostics = 0) :
    ((rootOf d : Load _).run ⟨f.id, d, false⟩ ⟨names, #[], 0, 0⟩).2.aliased ≤ maxAliased := by
  obtain ⟨state, _, faithful⟩ := rootOf_logged d ⟨f.id, d, false⟩ [] _ (.start names)
  have told := faithful.told
  rw [state] at told
  by_contra exceeded
  rw [if_pos (Nat.not_le.mp exceeded)] at told
  exact absurd (told.symm.trans untold) (by decide)

/-- A document in which aliases are well placed is read like the one with copies in their places:
the same tree with the same positions, names and diagnostics, and the same failure. -/
theorem aliases_read_like_copies (f : SourceFile) (names : Interner) {d d' : Document}
    (placed : Placed d (.items .node) d.root) (copies : d.Copies d.root d'.root)
    (untold : expansions (ofDocument f names d).diagnostics = 0) :
    ofDocument f names d = ofDocument f names d' := by
  let env : Env := ⟨f.id, d, false⟩
  let env' : Env := ⟨f.id, d', false⟩
  let small (top n : Yaml.Node) : Prop := n.height ≤ top.height
  have closed (top n : Yaml.Node) (under : small top n) (child : Yaml.Node)
      (member : child ∈ n.children) : small top child :=
    Nat.le_trans (Nat.le_of_lt (Yaml.Node.height_lt_of_child member)) under
  have read (n m : Yaml.Node)
      (alike : Inside (CopyLike d) (small d.root) (small d'.root) .node n m) :
      Conform env env' (Copying 0) InBound Eq (node (d.root.height + maxAliased + 2) n)
        (node (d'.root.height + maxAliased + 2) m) := by
    obtain ⟨alike, low : n.height ≤ d.root.height, low' : m.height ≤ d'.root.height⟩ := alike
    refine node_copies rfl _ rfl rfl alike (by omega) fun s _ => ?_
    show n.height + maxAliased < d.root.height + maxAliased + 2
    omega
  have paired : Paired .same env env' (Copying 0) InBound :=
    copying_paired (show env.file = env'.file from rfl) 0
  have conform := rootBy_conform paired
    (inside_similar copyLike_similar (closed d.root) (closed d'.root)) (node_grows _)
    (node_grows _) read ⟨⟨placed, copies⟩, Nat.le_refl _, Nat.le_refl _⟩
  rw [← rootOf_eq, ← rootOf_eq] at conform
  have start : Copying 0 ⟨names, #[], 0, 0⟩ ⟨names, #[], 0, 0⟩ := ⟨Nat.le_refl _, rfl, rfl, rfl⟩
  obtain ⟨nodes, kept⟩ := conform _ _ start (inBound_of_untold untold)
  rw [Option.rel_same, List.forall₂_eq_eq_eq] at nodes
  rw [ofDocument_eq, ofDocument_eq, outcomeOf, outcomeOf, nodes, kept.names, kept.emitted]

/-- A document of a node, which the number zero is for, and a loop with a body. -/
def loopBeside (first body : Yaml.Node) : Document :=
  ⟨.sequence ⟨1, 1⟩ [first, .mapping ⟨2, 3⟩ [(identifier "while", identifier "x"),
    (identifier "body", body)]], ⟨[(0, first)]⟩⟩

def again : Yaml.Node :=
  .alias ⟨2, 20⟩ (text "b") 0

theorem aliased_body_reads_like_copy :
    ofDocument ⟨0, text "t.yaml", [], 0⟩ .fresh (loopBeside (identifier "x") again) =
      ofDocument ⟨0, text "t.yaml", [], 0⟩ .fresh
        (loopBeside (identifier "x") (identifier "x")) := by
  have unlisted (place : Yaml.Place) (items : List Yaml.Node) :
      ¬Stands (loopBeside (identifier "x") again) again (.sequence place items) := by
    rintro (_ | ⟨found, stands⟩)
    cases found
    cases stands
  have placed : Placed (loopBeside (identifier "x") again) (.items .node)
      (loopBeside (identifier "x") again).root := by
    refine .items fun n member => ?_
    rcases List.mem_pair.mp member with rfl | rfl
    · exact .scalar
    · refine .compound (fun pair member => ?_) fun pair member => ?_
      · rcases List.mem_pair.mp member with rfl | rfl <;> exact .scalar
      · rcases List.mem_pair.mp member with rfl | rfl
        · exact .scalar
        · exact .body unlisted (.reference rfl .scalar)
  exact aliases_read_like_copies _ _ placed ⟨4, rfl⟩ (by decide +kernel)

def loopBodies (nodes : List (Option Node)) : List Node :=
  nodes.filterMap fun
    | some (.loop _ _ body _) => body
    | _ => none

/-- Through an alias a sequence is no block where a body is expected, but its copy is one. -/
theorem aliased_block_reads_as_vector :
    let listed : Yaml.Node := .sequence ⟨1, 3⟩ [identifier "x"]
    let aliased := ofDocument ⟨0, text "t.yaml", [], 0⟩ .fresh (loopBeside listed again)
    let copied := ofDocument ⟨0, text "t.yaml", [], 0⟩ .fresh (loopBeside listed listed)
    (loopBeside listed again).Copies (loopBeside listed again).root
        (loopBeside listed listed).root ∧
      (Record.node "while").spot (text "body") = .body ∧
      aliased.diagnostics.length = 0 ∧ copied.diagnostics.length = 0 ∧
      (loopBodies aliased.tree.nodes).map Node.isBlock = [false] ∧
      (loopBodies copied.tree.nodes).map Node.isBlock = [true] := by
  refine ⟨⟨5, rfl⟩, Record.spot_text _ _, ?_⟩
  decide +kernel

end Load

end TreeCheck
