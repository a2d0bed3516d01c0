import TreeCheck.Proofs.Context.Sound
import TreeCheck.Yaml.Node.Parse

/-!
The nodes of a document. Every node that the grammar completes goes into the node around it, so what
an alias refers to stands inside the root of its document; and every node starts at a mark, so that
its line is known.
-/

namespace TreeCheck.Yaml

namespace Node

/-- The first node is the second one, or stands somewhere in its items, keys and values. -/
inductive Inside (part : Node) : Node → Prop
  | self : Inside part part
  | item {place : Place} {items : List Node} {n : Node} :
      n ∈ items → Inside part n → Inside part (.sequence place items)
  | key {place : Place} {pairs : List (Node × Node)} {pair : Node × Node} :
      pair ∈ pairs → Inside part pair.1 → Inside part (.mapping place pairs)
  | value {place : Place} {pairs : List (Node × Node)} {pair : Node × Node} :
      pair ∈ pairs → Inside part pair.2 → Inside part (.mapping place pairs)

theorem Inside.trans {a b c : Node} (inner : Inside a b) (outer : Inside b c) : Inside a c := by
  induction outer with
  | self => exact inner
  | item member _ ih => exact .item member ih
  | key member _ ih => exact .key member ih
  | value member _ ih => exact .value member ih

def Placed (n : Node) : Prop :=
  ∀ part, Inside part n → 0 < part.place.line

theorem placed_scalar {s : Scalar} (known : 0 < s.line) : (scalar s).Placed := by
  intro part inside
  cases inside
  exact known

theorem placed_alias {place : Place} {name : Text} {target : Nat} (known : 0 < place.line) :
    (Node.alias place name target).Placed := by
  intro part inside
  cases inside
  exact known

theorem placed_sequence {place : Place} {items : List Node} (known : 0 < place.line)
    (all : ∀ n ∈ items, n.Placed) : (sequence place items).Placed := by
  intro part inside
  cases inside with
  | self => exact known
  | item member inner => exact all _ member part inner

theorem placed_mapping {place : Place} {pairs : List (Node × Node)} (known : 0 < place.line)
    (all : ∀ pair ∈ pairs, pair.1.Placed ∧ pair.2.Placed) : (mapping place pairs).Placed := by
  intro part inside
  cases inside with
  | self => exact known
  | key member inner => exact (all _ member).1 part inner
  | value member inner => exact (all _ member).2 part inner

end Node

def Document.Has (d : Document) (n : Node) : Prop :=
  n.Inside d.root

/-- The document is closed under its aliases, and knows where its nodes stand. -/
structure Document.Closed (d : Document) : Prop where
  target {number : Nat} {n : Node} : d.target? number = some n → d.Has n
  placed : d.root.Placed

/-! ### What reading gathers -/

namespace Read

variable {α β : Type}

def Held (nodes : List Node) (n : Node) : Prop :=
  ∃ m ∈ nodes, n.Inside m

theorem Held.trans {n : Node} {nodes others : List Node} (held : Held nodes n)
    (all : ∀ m ∈ nodes, Held others m) : Held others n := by
  obtain ⟨m, member, inside⟩ := held
  obtain ⟨k, among, outer⟩ := all m member
  exact ⟨k, among, inside.trans outer⟩

theorem held_of_mem {n : Node} {nodes : List Node} (member : n ∈ nodes) : Held nodes n :=
  ⟨n, member, .self⟩

/-- The step hands on nodes whose lines are known. The nodes it was given stand inside these, and so
do the nodes that it completes under an anchor. -/
def Gathers (given : List Node) (x : Read α) (nodes : α → List Node) : Prop :=
  (∀ n ∈ given, n.Placed) → ∀ r a r', x.run r = .ok (a, r') →
    (∀ n ∈ nodes a, n.Placed) ∧ (∀ n ∈ given, Held (nodes a) n) ∧
      ∀ e ∈ r'.anchored.entries, e ∈ r.anchored.entries ∨ Held (nodes a) e.2

/-- The step hands on no nodes and completes none. -/
abbrev Passes (x : Read α) : Prop :=
  Gathers [] x fun _ => []

namespace Gathers

variable {given : List Node} {x : Read α} {f : α → Read β} {nodes : α → List Node}
  {goal : β → List Node}

theorem pure {a : α} (placed : (∀ n ∈ given, n.Placed) → ∀ n ∈ nodes a, n.Placed)
    (held : ∀ n ∈ given, Held (nodes a) n) : Gathers given (Pure.pure a) nodes := by
  intro known r b r' run
  cases run
  exact ⟨placed known, held, fun _ old => .inl old⟩

theorem bind (first : Gathers [] x nodes) (rest : ∀ a, Gathers (nodes a ++ given) (f a) goal) :
    Gathers given (x >>= f) goal := by
  intro known r b last run
  rw [StateT.run_bind] at run
  cases step : x.run r with
  | error fault =>
    rw [step] at run
    cases run
  | ok result =>
    obtain ⟨a, r'⟩ := result
    rw [step] at run
    obtain ⟨placed, -, added⟩ := first (fun _ member => absurd member List.not_mem_nil) r a r' step
    have all : ∀ n ∈ nodes a ++ given, n.Placed := fun n member =>
      (List.mem_append.mp member).elim (placed n) (known n)
    obtain ⟨handed, held, later⟩ := rest a all r' b last run
    refine ⟨handed, fun n member => held n (List.mem_append_right _ member), fun e entry => ?_⟩
    rcases later e entry with before | inside
    · rcases added e before with old | inside
      · exact .inl old
      · exact .inr (inside.trans fun m member => held m (List.mem_append_left _ member))
    · exact .inr inside

theorem after (first : Passes x) (rest : ∀ a, Gathers given (f a) goal) :
    Gathers given (x >>= f) goal :=
  first.bind rest

theorem throw {fault : Fault} : Gathers given (MonadExcept.throw fault : Read α) nodes := by
  intro _ r a r' run
  cases run

end Gathers

/-! ### Steps -/

theorem passes_of_kept {x : Read α}
    (kept : ∀ r a r', x.run r = .ok (a, r') → r'.anchored = r.anchored) : Passes x := by
  intro _ r a r' run
  refine ⟨fun _ member => absurd member List.not_mem_nil,
    fun _ member => absurd member List.not_mem_nil, fun e entry => .inl ?_⟩
  rwa [kept r a r' run] at entry

theorem get_passes : Passes (get : Read Reader) :=
  passes_of_kept fun _ _ _ run => by cases run; rfl

theorem skip_passes : Passes skip :=
  passes_of_kept fun _ _ _ run => by cases run; rfl

theorem peek_passes : Passes peek := by
  refine .after get_passes fun r => ?_
  split
  · exact .pure (fun _ => nofun) nofun
  · exact .throw

theorem fail_gathers {given : List Node} {nodes : α → List Node} (p : Problem) :
    Gathers given (fail p) nodes :=
  .after peek_passes fun _ => .throw

theorem properties_pass : Passes properties := by
  have done {a : Option Text × Option (Text × Text)} : Passes (pure a : Read _) :=
    .pure (fun _ => nofun) nofun
  refine .after peek_passes fun t => ?_
  split
  · refine .after skip_passes fun _ => .after peek_passes fun _ => ?_
    split
    · exact .after skip_passes fun _ => done
    · exact done
  · refine .after skip_passes fun _ => .after peek_passes fun _ => ?_
    split
    · exact .after skip_passes fun _ => done
    · exact done
  · exact done

theorem expand_passes (handle suffix : Text) : Passes (expand handle suffix) := by
  have done {a : Text} : Passes (pure a : Read _) := .pure (fun _ => nofun) nofun
  unfold expand
  split
  · exact done
  · refine .after get_passes fun r => ?_
    split
    · exact done
    · exact fail_gathers _

theorem tagIn_passes (tag : Option (Text × Text)) : Passes (tagIn tag) := by
  cases tag with
  | none => exact .pure (fun _ => nofun) nofun
  | some pair => exact expand_passes pair.1 pair.2

theorem aliasNode_gathers (m : Mark) (name : Text) :
    Gathers [] (aliasNode m name) fun n => [n] := by
  refine .after get_passes fun r => ?_
  split
  · refine .pure (fun _ n member => ?_) nofun
    rw [List.mem_singleton.mp member]
    exact Node.placed_alias (Nat.succ_pos _)
  · exact .throw

theorem complete_gathers {given : List Node} {number : Option Nat} {n : Node}
    (placed : (∀ m ∈ given, m.Placed) → n.Placed) (inside : ∀ m ∈ given, m.Inside n) :
    Gathers given (complete number n) fun m => [m] := by
  intro known r a r' run
  have held {m : Node} (inner : m.Inside n) : Held [n] m := ⟨n, List.mem_singleton.mpr rfl, inner⟩
  cases number with
  | none =>
    cases run
    exact ⟨fun m member => List.mem_singleton.mp member ▸ placed known,
      fun m member => held (inside m member), fun _ entry => .inl entry⟩
  | some k =>
    cases run
    refine ⟨fun m member => List.mem_singleton.mp member ▸ placed known,
      fun m member => held (inside m member), fun e entry => ?_⟩
    rcases Table.mem_insert entry with rfl | old
    · exact .inr (held .self)
    · exact .inl old

theorem placed_emptyAt (m : Mark) : (emptyAt m).Placed :=
  Node.placed_scalar (Nat.succ_pos _)

theorem emptyAt_gathers (m : Mark) : Gathers [] (pure (emptyAt m) : Read Node) fun n => [n] :=
  .pure (fun _ _ member => List.mem_singleton.mp member ▸ placed_emptyAt m) nofun

/-! ### The grammar -/

def both (pairs : List (Node × Node)) : List Node :=
  pairs.flatMap fun pair => [pair.1, pair.2]

structure Level (fuel : Nat) : Prop where
  node (block loose : Bool) : Gathers [] (node block loose fuel) fun n => [n]
  blockItems : Gathers [] (blockItems fuel) id
  looseItems : Gathers [] (looseItems fuel) id
  blockPairs : Gathers [] (blockPairs fuel) both
  flowItems (first : Bool) : Gathers [] (flowItems first fuel) id
  flowPair : Gathers [] (flowPair fuel) fun pair => [pair.1, pair.2]
  flowPairs (first : Bool) : Gathers [] (flowPairs first fuel) both

theorem sequence_gathers {items : Read (List Node)} (gathers : Gathers [] items id)
    (number : Option Nat) {place : Place} (known : 0 < place.line) :
    Gathers [] (do complete number (.sequence place (← items))) fun n => [n] := by
  refine gathers.bind fun items => complete_gathers ?_ ?_
  · intro placed
    exact Node.placed_sequence known fun n member => placed n (List.mem_append_left _ member)
  · intro n member
    rw [List.append_nil] at member
    exact .item member .self

theorem mapping_gathers {pairs : Read (List (Node × Node))} (gathers : Gathers [] pairs both)
    (number : Option Nat) {place : Place} (known : 0 < place.line) :
    Gathers [] (do complete number (.mapping place (← pairs))) fun n => [n] := by
  refine gathers.bind fun pairs => complete_gathers ?_ ?_
  · intro placed
    refine Node.placed_mapping known fun pair member => ⟨placed _ ?_, placed _ ?_⟩
    · simp only [both, List.append_nil, List.mem_flatMap]
      exact ⟨pair, member, List.mem_cons_self⟩
    · simp only [both, List.append_nil, List.mem_flatMap]
      exact ⟨pair, member, List.mem_cons_of_mem _ List.mem_cons_self⟩
  · intro n member
    simp only [both, List.append_nil, List.mem_flatMap, List.mem_cons, List.not_mem_nil,
      or_false] at member
    obtain ⟨pair, among, rfl | rfl⟩ := member
    · exact .key among .self
    · exact .value among .self

theorem around_gathers {given : List Node} {n : Node} {rest : Read (List Node)}
    (placed : (∀ m ∈ given, m.Placed) → n.Placed) (inside : ∀ m ∈ given, m.Inside n)
    (gathers : Gathers [] rest id) : Gathers given (do return n :: (← rest)) id := by
  refine gathers.bind fun items => .pure ?_ ?_
  · intro known m member
    rcases List.mem_cons.mp member with rfl | later
    · exact placed fun k among => known k (List.mem_append_right _ among)
    · exact known m (List.mem_append_left _ later)
  · intro m member
    rcases List.mem_append.mp member with later | among
    · exact held_of_mem (List.mem_cons_of_mem _ later)
    · exact ⟨n, List.mem_cons_self, inside m among⟩

theorem cons_gathers {item : Node} {rest : Read (List Node)} (gathers : Gathers [] rest id) :
    Gathers [item] (do return item :: (← rest)) id := by
  refine around_gathers (fun placed => placed item List.mem_cons_self) ?_ gathers
  intro n member
  rw [List.mem_singleton.mp member]
  exact .self

theorem pair_gathers {key value : Node} {rest : Read (List (Node × Node))}
    (gathers : Gathers [] rest both) :
    Gathers [value, key] (do return (key, value) :: (← rest)) both := by
  refine gathers.bind fun pairs => .pure ?_ ?_
  · intro placed n member
    apply placed n
    simp only [both, List.flatMap_cons, List.mem_append, List.mem_cons, List.not_mem_nil,
      or_false] at member ⊢
    grind
  · intro n member
    apply held_of_mem
    simp only [both, List.flatMap_cons, List.mem_append, List.mem_cons, List.not_mem_nil,
      or_false] at member ⊢
    grind

theorem unless_gathers {given : List Node} {c : Prop} [Decidable c] {p : Problem}
    {rest : PUnit → Read α} {nodes : α → List Node} (gathers : ∀ u, Gathers given (rest u) nodes) :
    Gathers given (if c then fail p >>= rest else rest ⟨⟩) nodes := by
  split
  · exact .after (fail_gathers p) gathers
  · exact gathers _

theorem expected_gathers {c : Prop} [Decidable c] {kind : TokenKind} {rest : PUnit → Read α}
    {nodes : α → List Node} (gathers : ∀ u, Gathers [] (rest u) nodes) :
    Gathers []
      (if c then do
        let t ← peek
        if (t.kind != kind) = true then
          (fail .unexpectedToken : Read PUnit) >>= fun _ => skip >>= rest
        else skip >>= rest
      else rest ⟨⟩) nodes := by
  split
  · exact .after peek_passes fun _ => unless_gathers fun _ => .after skip_passes gathers
  · exact gathers _

section

variable {fuel : Nat} (level : Level fuel)
include level

theorem node_gathers (block loose : Bool) :
    Gathers [] (node block loose (fuel + 1)) fun n => [n] := by
  rw [node]
  refine .after peek_passes fun first => ?_
  split
  · refine (aliasNode_gathers _ _).bind fun n => .after skip_passes fun _ => ?_
    exact .pure (fun placed m member => placed m (List.mem_append_left _ member))
      fun m member => held_of_mem (by simpa using member)
  · refine .after properties_pass fun found => ?_
    obtain ⟨anchor, tag⟩ := found
    refine .after (tagIn_passes tag) fun tag => ?_
    extract_lets place content
    have known : 0 < place.line := Nat.succ_pos _
    have scalar {number : Option Nat} {tag value : Text} {style : Style} :
        Gathers [] (complete number (.scalar ⟨place.line, place.column, tag, value, style⟩))
          fun n => [n] :=
      complete_gathers (fun _ => Node.placed_scalar known) nofun
    have gathers (number : Option Nat) : Gathers [] (content number) fun n => [n] := by
      refine .after peek_passes fun next => ?_
      split
      · exact sequence_gathers level.looseItems number known
      · exact .after skip_passes fun _ => scalar
      · exact .after skip_passes fun _ => sequence_gathers (level.flowItems true) number known
      · exact .after skip_passes fun _ => mapping_gathers (level.flowPairs true) number known
      · exact .after skip_passes fun _ => sequence_gathers level.blockItems number known
      · exact .after skip_passes fun _ => mapping_gathers level.blockPairs number known
      · split
        · exact scalar
        · exact fail_gathers _
    split
    · exact .after (passes_of_kept fun _ _ _ run => by cases run; rfl) gathers
    · exact .after (.pure (fun _ => nofun) nofun) gathers

theorem blockItems_gathers : Gathers [] (blockItems (fuel + 1)) id := by
  rw [blockItems]
  refine .after peek_passes fun t => ?_
  split
  · refine .after skip_passes fun _ => .after peek_passes fun next => ?_
    extract_lets rest
    have gathers (item : Node) : Gathers [item] (rest item) id := cons_gathers level.blockItems
    split
    · exact (emptyAt_gathers _).bind gathers
    · exact (emptyAt_gathers _).bind gathers
    · exact (level.node true false).bind gathers
  · exact .after skip_passes fun _ => .pure (fun _ => nofun) nofun
  · exact fail_gathers _

theorem looseItems_gathers : Gathers [] (looseItems (fuel + 1)) id := by
  rw [looseItems]
  refine .after peek_passes fun t => ?_
  split
  · refine .after skip_passes fun _ => .after peek_passes fun next => ?_
    extract_lets rest
    have gathers (item : Node) : Gathers [item] (rest item) id := cons_gathers level.looseItems
    split
    iterate 4 exact (emptyAt_gathers _).bind gathers
    exact (level.node true false).bind gathers
  · exact .pure (fun _ => nofun) nofun

theorem blockPairs_gathers : Gathers [] (blockPairs (fuel + 1)) both := by
  rw [blockPairs]
  refine .after peek_passes fun t => ?_
  split
  · refine .after skip_passes fun _ => .after peek_passes fun next => ?_
    extract_lets afterKey
    have gathers (key : Node) : Gathers [key] (afterKey key) both := by
      refine .after peek_passes fun v => ?_
      extract_lets afterValue
      have gathers (value : Node) : Gathers [value, key] (afterValue value) both :=
        pair_gathers level.blockPairs
      split
      · refine .after skip_passes fun _ => .after peek_passes fun _ => ?_
        split
        iterate 3 exact (emptyAt_gathers _).bind gathers
        exact (level.node true true).bind gathers
      · exact (emptyAt_gathers _).bind gathers
    split
    iterate 3 exact (emptyAt_gathers _).bind gathers
    exact (level.node true true).bind gathers
  · exact .after skip_passes fun _ => .pure (fun _ => nofun) nofun
  · exact fail_gathers _

theorem flowItems_gathers (first : Bool) : Gathers [] (flowItems first (fuel + 1)) id := by
  have ends : Gathers [] (do skip; return [] : Read (List Node)) id :=
    .after skip_passes fun _ => .pure (fun _ => nofun) nofun
  rw [flowItems]
  refine .after peek_passes fun _ => ?_
  split
  · exact ends
  refine expected_gathers fun _ => .after peek_passes fun t => ?_
  split
  · exact ends
  · refine .after skip_passes fun _ => level.flowPair.bind fun pair => ?_
    refine around_gathers ?_ ?_ (level.flowItems false)
    · intro placed
      refine Node.placed_mapping (Nat.succ_pos _) fun other member => ?_
      rw [List.mem_singleton.mp member]
      exact ⟨placed _ (by simp), placed _ (by simp)⟩
    · intro n member
      simp only [List.append_nil, List.mem_cons, List.not_mem_nil, or_false] at member
      rcases member with rfl | rfl
      · exact .key List.mem_cons_self .self
      · exact .value List.mem_cons_self .self
  · exact (level.node false false).bind fun item => cons_gathers (level.flowItems false)

theorem flowPair_gathers : Gathers [] (flowPair (fuel + 1)) fun pair => [pair.1, pair.2] := by
  rw [flowPair]
  refine .after peek_passes fun t => ?_
  extract_lets afterKey
  have gathers (key : Node) : Gathers [key] (afterKey key) fun pair => [pair.1, pair.2] := by
    have done {value : Node} : Gathers [value, key] (pure (key, value) : Read (Node × Node))
        fun pair => [pair.1, pair.2] :=
      .pure (fun placed n member => placed n (by grind)) fun n member =>
        held_of_mem (by grind)
    have empty {m : Mark} : Gathers [key] (pure (key, emptyAt m) : Read (Node × Node))
        fun pair => [pair.1, pair.2] :=
      (emptyAt_gathers m).bind fun value => done
    refine .after peek_passes fun v => ?_
    split
    · refine .after skip_passes fun _ => .after peek_passes fun _ => ?_
      split
      · exact empty
      · exact empty
      · exact (level.node false false).bind fun value => done
    · exact empty
  split
  iterate 3 exact .after skip_passes fun _ => (emptyAt_gathers _).bind gathers
  exact (level.node false false).bind gathers

theorem flowPairs_gathers (first : Bool) : Gathers [] (flowPairs first (fuel + 1)) both := by
  have ends : Gathers [] (do skip; return [] : Read (List (Node × Node))) both :=
    .after skip_passes fun _ => .pure (fun _ => nofun) nofun
  rw [flowPairs]
  refine .after peek_passes fun _ => ?_
  split
  · exact ends
  refine expected_gathers fun _ => .after peek_passes fun t => ?_
  split
  · exact ends
  · refine .after skip_passes fun _ => .after peek_passes fun t => ?_
    extract_lets afterKey
    have gathers (key : Node) : Gathers [key] (afterKey key) both := by
      refine .after peek_passes fun v => ?_
      extract_lets afterValue
      have gathers (value : Node) : Gathers [value, key] (afterValue value) both :=
        pair_gathers (level.flowPairs false)
      split
      · refine .after skip_passes fun _ => .after peek_passes fun w => ?_
        split
        iterate 2 exact (emptyAt_gathers _).bind gathers
        exact (level.node false false).bind gathers
      · exact (emptyAt_gathers _).bind gathers
    split
    iterate 3 exact (emptyAt_gathers _).bind gathers
    exact (level.node false false).bind gathers
  · refine (level.node false false).bind fun key => .after peek_passes fun v => ?_
    exact (emptyAt_gathers v.start).bind fun value => pair_gathers (level.flowPairs false)

end

theorem level (fuel : Nat) : Level fuel := by
  induction fuel with
  | zero =>
    constructor
    all_goals
      intros
      exact fail_gathers _
  | succ fuel ih =>
    exact ⟨node_gathers ih, blockItems_gathers ih, looseItems_gathers ih, blockPairs_gathers ih,
      flowItems_gathers ih, flowPair_gathers ih, flowPairs_gathers ih⟩

/-! ### Documents -/

theorem directives_pass (versioned : Bool) (fuel : Nat) : Passes (directives versioned fuel) := by
  induction fuel generalizing versioned with
  | zero => exact fail_gathers _
  | succ fuel ih =>
    rw [directives]
    refine .after peek_passes fun t => ?_
    split
    · exact unless_gathers fun _ => unless_gathers fun _ => .after skip_passes fun _ => ih true
    · refine .after get_passes fun r => unless_gathers fun _ => ?_
      refine .after (passes_of_kept fun _ _ _ run => by cases run; rfl) fun _ => ?_
      exact .after skip_passes fun _ => ih versioned
    · exact .pure (fun _ => nofun) nofun

theorem firstDocument_gathers (fuel : Nat) : Gathers [] (firstDocument fuel) Option.toList := by
  unfold firstDocument
  refine .after peek_passes fun start => unless_gathers fun _ => .after skip_passes fun _ => ?_
  refine .after peek_passes fun t => ?_
  extract_lets explicit last rooted marked content
  have ended (root : Node) : Gathers [root] (last root) Option.toList :=
    .after peek_passes fun _ =>
      .pure (fun placed n member => placed n member) fun n member => held_of_mem member
  have root (u : PUnit) : Gathers [] (rooted u) Option.toList := by
    refine .after peek_passes fun t => ?_
    split
    iterate 5 exact (emptyAt_gathers _).bind ended
    exact ((level fuel).node true false).bind ended
  have gathers (u : PUnit) : Gathers [] (content u) Option.toList :=
    .after (passes_of_kept fun _ _ _ run => by cases run; rfl) fun _ => expected_gathers root
  split
  · exact .pure (fun _ => nofun) nofun
  split
  · exact .after (directives_pass false fuel) gathers
  · exact gathers ()

end Read

theorem Document.read_closed {t : Text} {d : Document} (read : Document.read t = .ok (some d)) :
    d.Closed := by
  unfold Document.read Document.ofTokens at read
  generalize TokenStream.ofSource _ = stream at read
  cases run : (Read.firstDocument (4 * stream.tokens.length + 8)).run
      ⟨stream.tokens, stream.fault, [], [], 0, .empty⟩ with
  | error fault =>
    simp only [run] at read
    cases read
  | ok result =>
    obtain ⟨root, r⟩ := result
    simp only [run] at read
    obtain ⟨n, rfl, rfl⟩ : ∃ n, root = some n ∧ d = ⟨n, r.anchored⟩ := by
      cases root with
      | none => cases read
      | some n => exact ⟨n, rfl, by cases read; rfl⟩
    obtain ⟨placed, -, added⟩ := Read.firstDocument_gathers _ nofun _ _ _ run
    refine ⟨?_, placed n (by simp)⟩
    intro number m found
    rcases added _ (Table.mem_of_find? found) with old | ⟨root, member, inside⟩
    · cases old
    · rwa [show root = n by simpa using member] at inside

end TreeCheck.Yaml
