import TreeCheck.Proofs.Load.Coupling

/-!
Every rule of reading respects a link between two readings, if the readers of the nodes below do.
-/

namespace TreeCheck.Load

open Grammar (Spot Record)

variable {M N : Type → Type} [Reading M] [Reading N] {l : Likeness} (L : Link M N l)

/-! ### The smallest parts -/

theorem nameOf_sim (n : Yaml.Node) {what : Text} (told : Told (what ++ text " must be a name")) :
    L.Sim (Option.Rel l.handle) (nameOf n what) (nameOf n what) := by
  cases n with
  | scalar s =>
    simp only [nameOf]
    split
    · exact L.bind (L.intern s.value) fun h k same => L.pure (.some same)
    · exact L.failed rfl told .none
  | _ => exact L.failed rfl told .none

theorem modifierOf_sim (n : Yaml.Node) :
    L.Sim (Option.Rel Eq) (modifierOf n) (modifierOf n) := by
  have found : L.Sim (Option.Rel Eq) (do
      fail n (text "unknown modifier " ++ Text.quoted n.text)
      return (none : Option Modifier)) (do
      fail n (text "unknown modifier " ++ Text.quoted n.text)
      return none) := L.failed rfl (.append (by decide) _) .none
  unfold modifierOf
  cases n with
  | scalar s =>
    cases known : Modifier.ofName? (Yaml.Node.scalar s).text with
    | some m => exact L.pure (.some rfl)
    | none => exact found
  | _ => exact found

theorem placeholder_sim {n m : Yaml.Node} (same : n.place = m.place)
    {node : Node → Node → Prop} (layer : ∀ {a b}, Node.Layer l node a b → node a b) :
    L.Sim node (placeholder n) (placeholder m) :=
  L.bind (L.siteAt same) fun _ _ site => L.pure (layer (.nil site))

theorem scalarOf_sim (s : Yaml.Scalar) {node : Node → Node → Prop}
    (layer : ∀ {a b}, Node.Layer l node a b → node a b) :
    L.Sim node (scalarOf s) (scalarOf s) := by
  have literal {make : Site → Node}
      (made : ∀ {s t : Site}, s.Alike l t → Node.Layer l node (make s) (make t)) :
      L.Sim node (do return make (← Reading.siteAt (.scalar s)))
        (do return make (← Reading.siteAt (.scalar s))) :=
    L.bind (L.siteAt rfl) fun _ _ site => L.pure (layer (made site))
  have replaced {message : Text} (told : Told message) :
      L.Sim node (do fail (.scalar s) message; placeholder (.scalar s))
        (do fail (.scalar s) message; placeholder (.scalar s)) :=
    L.bind (L.fail rfl told) fun _ _ _ => placeholder_sim L rfl layer
  unfold scalarOf
  dsimp only
  split
  · exact literal .nil
  split
  · split
    next b _ => exact literal (.boolean b)
    next => exact replaced (.append (by decide) _)
  split
  · split
    next v _ => exact literal (.integer v)
    next => exact replaced (.append (by decide) _)
  split
  · split
    next bits _ => exact literal (.float bits)
    next => exact replaced (.append (by decide) _)
  split
  · split
    · exact literal (.string s.value)
    split
    · exact replaced (by decide)
    · refine L.bind (L.siteAt rfl) fun _ _ site => ?_
      exact L.bind (L.intern s.value) fun _ _ name => L.pure (layer (.ident site name))
  · exact replaced (.append (by decide) _)

/-! ### Mappings -/

section

variable {like : Spot → Yaml.Node → Yaml.Node → Prop}

/-- The two entries have the same key, and what is alike in its spot under it. -/
def EntryLike (like : Spot → Yaml.Node → Yaml.Node → Prop) (spot : Text → Spot) (a b : Entry) :
    Prop :=
  a.key = b.key ∧ a.keyNode = b.keyNode ∧ like (spot a.key) a.value b.value

/-- The two mappings describe the same, with values that are alike in their spots. -/
structure Mapping.Like (like : Spot → Yaml.Node → Yaml.Node → Prop) (spot : Text → Spot)
    (m m' : Mapping) : Prop where
  place_eq : m.origin.place = m'.origin.place
  kind_eq : m.kind = m'.kind
  opens : Opens m'.kind
  entries : List.Forall₂ (EntryLike like spot) m.entries m'.entries

theorem any_key_eq {spot : Text → Spot} {as bs : List Entry}
    (alike : List.Forall₂ (EntryLike like spot) as bs) (key : Text) :
    (as.any fun e => e.key == key) = bs.any fun e => e.key == key := by
  induction alike with
  | nil => rfl
  | cons first _ ih => rw [List.any_cons, List.any_cons, ih, first.1]

theorem entriesFrom_sim (kind : Text) {spot : Text → Spot} {as bs : List Entry}
    {xs ys : List (Yaml.Node × Yaml.Node)} (before : List.Forall₂ (EntryLike like spot) as bs)
    (pairs : PairsLike like spot xs ys) :
    L.Sim (fun a b => List.Forall₂ (EntryLike like spot) a.1 b.1 ∧ a.2 = b.2)
      (entriesFrom kind as xs) (entriesFrom kind bs ys) := by
  induction pairs generalizing as bs with
  | nil => exact L.pure ⟨List.rel_reverse before, rfl⟩
  | @cons x y xs ys first rest ih =>
    obtain ⟨k, v⟩ := x
    obtain ⟨k', w⟩ := y
    obtain ⟨rfl : k = k', alike⟩ := first
    have refused {message : Text} (told : Told message) :
        L.Sim (fun a b => List.Forall₂ (EntryLike like spot) a.1 b.1 ∧ a.2 = b.2)
          (do fail k message; return ((← entriesFrom kind as xs).1, false))
          (do fail k message; return ((← entriesFrom kind bs ys).1, false)) :=
      L.bind (L.fail rfl told) fun _ _ _ =>
        L.bind (ih before) fun _ _ found => L.pure ⟨found.1, rfl⟩
    cases k with
    | scalar s =>
      simp only [entriesFrom, any_key_eq before s.value]
      split
      · exact refused ((Told.append (.append (by decide) _) _).append _)
      · exact ih (.cons ⟨rfl, rfl, alike⟩ before)
    | _ => exact refused ((Told.append (by decide) _).append _)

theorem mappingOf_sim {place : Yaml.Place} {xs ys : List (Yaml.Node × Yaml.Node)} {kind : Text}
    (opens : Opens kind) {spot : Text → Spot} (pairs : PairsLike like spot xs ys) :
    L.Sim (Option.Rel (Mapping.Like like spot)) (mappingOf (.mapping place xs) kind)
      (mappingOf (.mapping place ys) kind) := by
  refine L.bind (entriesFrom_sim L kind .nil pairs) fun a b found => ?_
  obtain ⟨entries, sound⟩ := a
  obtain ⟨entries', sound'⟩ := b
  obtain ⟨alike, rfl : sound = sound'⟩ := found
  cases sound with
  | true => exact L.pure (.some ⟨rfl, rfl, opens, alike⟩)
  | false => exact L.pure .none

namespace Mapping

variable {spot : Text → Spot} {m m' : Mapping} (alike : Mapping.Like like spot m m')
include alike

theorem Like.get (key : String) :
    Option.Rel (like (spot (text key))) (m.get? key) (m'.get? key) := by
  have entries := alike.entries
  unfold get?
  generalize m.entries = as, m'.entries = bs at entries
  induction entries with
  | nil => exact .none
  | @cons a b as bs first _ ih =>
    rw [List.find?_cons, List.find?_cons, first.1]
    split
    next found =>
      rw [beq_iff_eq] at found
      exact .some (found ▸ first.1 ▸ first.2.2)
    next => exact ih

omit alike in
theorem Like.path_eq (alike : Mapping.Like like spot m m') (key : String) :
    m.path key = m'.path key := by
  rw [path, path, alike.kind_eq]

theorem Like.told (key : String) (message : Text) : Told (m'.path key ++ message) :=
  ((alike.opens.told (by decide)).append _).append _

theorem require_sim (key : String) :
    L.Sim (Option.Rel (like (spot (text key)))) (m.require key) (m'.require key) := by
  have found := alike.get key
  unfold require
  generalize m.get? key = x, m'.get? key = y at found
  cases found with
  | some same => exact L.pure (.some same)
  | none =>
    rw [alike.kind_eq]
    exact L.failed alike.place_eq ((alike.opens.told (by decide)).append _) .none

theorem finish_sim (known : List String) :
    L.Sim (fun _ _ => True) (m.finish known) (m'.finish known) := by
  refine L.forM alike.entries fun a b same => ?_
  rw [same.1, same.2.1, alike.kind_eq]
  split
  · exact L.fail rfl ((Told.append (.append (by decide) _) _).append _)
  · exact L.pure trivial

variable (similar : Similar like)
include similar

theorem name_sim {key : String} (other : spot (text key) = .other) :
    L.Sim l.handle (m.name key) (m'.name key) := by
  refine L.bind (m.require_sim L alike key) fun x y found => ?_
  cases found with
  | none => exact L.pure L.absent
  | some same =>
    rw [other] at same
    rw [similar.other same, alike.path_eq]
    refine L.bind (nameOf_sim L _ (alike.told _ _)) fun h k named => L.pure ?_
    cases named with
    | none => exact L.absent
    | some named => exact named

theorem name?_sim {key : String} (other : spot (text key) = .other) :
    L.Sim l.handle (m.name? key) (m'.name? key) := by
  have found := alike.get key
  unfold name?
  rw [alike.path_eq]
  generalize m.get? key = x, m'.get? key = y at found
  cases found with
  | none => exact L.pure L.absent
  | some same =>
    rw [other] at same
    rw [similar.other same]
    dsimp only
    split
    · exact L.pure L.absent
    · refine L.bind (nameOf_sim L _ (alike.told _ _)) fun h k named => L.pure ?_
      cases named with
      | none => exact L.absent
      | some named => exact named

theorem flag_sim {key : String} (other : spot (text key) = .other) :
    L.Sim Eq (m.flag key) (m'.flag key) := by
  have found := alike.get key
  unfold flag
  rw [alike.path_eq]
  generalize m.get? key = x, m'.get? key = y at found
  cases found with
  | none => exact L.pure rfl
  | @some v _ same =>
    rw [other] at same
    cases similar.other same
    cases v with
    | scalar s =>
      dsimp only
      split
      · exact L.pure rfl
      · exact L.failed rfl (alike.told _ _) rfl
    | _ => exact L.failed rfl (alike.told _ _) rfl

omit alike in
theorem itemsOf_sim {each : Spot} {n n' : Yaml.Node} (same : like (.items each) n n')
    {what : Text} (told : Told (what ++ text " must be a sequence")) :
    L.Sim (List.Forall₂ (like each)) (itemsOf n what) (itemsOf n' what) := by
  rcases similar.items same with ⟨rfl, unlisted⟩ | ⟨place, xs, ys, rfl, rfl, items⟩
  · unfold itemsOf
    split
    next place items => exact absurd rfl (unlisted place items)
    next =>
      split
      · exact L.pure .nil
      · exact L.failed rfl told .nil
  · exact L.pure items

theorem items_sim {key : String} {each : Spot} (listed : spot (text key) = .items each) :
    L.Sim (List.Forall₂ (like each)) (m.items key) (m'.items key) := by
  have found := alike.get key
  unfold items
  rw [alike.path_eq]
  generalize m.get? key = x, m'.get? key = y at found
  cases found with
  | none => exact L.pure .nil
  | some same => exact itemsOf_sim L similar (listed ▸ same) (alike.told _ _)

theorem modifiers_sim [LawfulMonad M] [LawfulMonad N] {key : String}
    (listed : spot (text key) = .items .other) :
    L.Sim Eq (m.modifiers key) (m'.modifiers key) := by
  refine L.bind (items_sim L alike similar listed) fun xs ys items => ?_
  have each (x y : Yaml.Node) (same : like .other x y) :
      L.Sim (Option.Rel Eq) (modifierOf x) (modifierOf y) := by
    rw [similar.other same]
    exact modifierOf_sim L y
  refine L.bind (L.mapM items each) fun as bs found => L.pure ?_
  simpa using Link.present found

end Mapping

end

/-! ### Nodes below -/

section

variable {L} [LawfulMonad M] [LawfulMonad N] {node : Node → Node → Prop}
  {like : Spot → Yaml.Node → Yaml.Node → Prop} {below : Yaml.Node → M Node}
  {other : Yaml.Node → N Node} (c : Coupling L node like below other)
include c

theorem nodesOf_sim {xs ys : List Yaml.Node} (items : List.Forall₂ (like .node) xs ys) :
    L.Sim (List.Forall₂ (Option.Rel node)) (nodesOf below xs) (nodesOf other ys) :=
  L.mapM items fun _ _ same => L.map (c.sim same) fun _ _ alike => .some alike

omit [LawfulMonad M] [LawfulMonad N] in
theorem replaced_sim {n m : Yaml.Node} (same : n.place = m.place) :
    L.Sim node (placeholder n) (placeholder m) :=
  placeholder_sim L same c.layer.mpr

theorem bodyOf_sim {n m : Yaml.Node} (same : like .body n m) :
    L.Sim node (bodyOf below n) (bodyOf other m) := by
  rcases c.similar.body same with ⟨unlisted, unlisted', alike⟩ | ⟨place, xs, ys, rfl, rfl, items⟩
  · unfold bodyOf
    split
    next place items => exact absurd rfl (unlisted place items)
    next => exact c.sim alike
  · refine L.bind (L.siteAt rfl) fun _ _ site => ?_
    exact L.bind (nodesOf_sim c items) fun _ _ alike => L.pure (c.layer.mpr (.block site alike))

section

variable {spot : Text → Spot} {m m' : Mapping} (alike : Mapping.Like like spot m m') {key : String}
include alike

omit [LawfulMonad M] [LawfulMonad N] in
theorem Mapping.node_sim (place : spot (text key) = .node) :
    L.Sim node (m.node below key) (m'.node other key) := by
  refine L.bind (m.require_sim L alike key) fun x y found => ?_
  cases found with
  | none => exact replaced_sim c alike.place_eq
  | some same => exact c.sim (place ▸ same)

theorem Mapping.node?_sim (place : spot (text key) = .node) :
    L.Sim (Option.Rel node) (m.node? below key) (m'.node? other key) := by
  have found := alike.get key
  unfold Mapping.node?
  generalize m.get? key = x, m'.get? key = y at found
  cases found with
  | none => exact L.pure .none
  | some same => exact L.map (c.sim (place ▸ same)) fun _ _ alike => .some alike

theorem Mapping.body_sim (place : spot (text key) = .body) :
    L.Sim node (m.body below key) (m'.body other key) := by
  refine L.bind (m.require_sim L alike key) fun x y found => ?_
  cases found with
  | none => exact replaced_sim c alike.place_eq
  | some same => exact bodyOf_sim c (place ▸ same)

theorem Mapping.body?_sim (place : spot (text key) = .body) :
    L.Sim (Option.Rel node) (m.body? below key) (m'.body? other key) := by
  have found := alike.get key
  unfold Mapping.body?
  generalize m.get? key = x, m'.get? key = y at found
  cases found with
  | none => exact L.pure .none
  | some same => exact L.map (bodyOf_sim c (place ▸ same)) fun _ _ alike => .some alike

end

/-! ### Parts of nodes -/

omit [LawfulMonad M] [LawfulMonad N] in
/-- A part that a mapping describes; what is no mapping describes none. -/
theorem described_sim {α β : Type} {post : α → β → Prop} {described : Record} {n n' : Yaml.Node}
    {f : Mapping → M (Option α)} {g : Mapping → N (Option β)} (same : like (.record described) n n')
    {what : Text} (opens : Opens what)
    (each : ∀ m m', n.place = n'.place → Mapping.Like like described.spot m m' →
      L.Sim (Option.Rel post) (f m) (g m')) :
    L.Sim (Option.Rel post)
      (do match ← mappingOf n what with | none => return none | some m => f m)
      (do match ← mappingOf n' what with | none => return none | some m => g m) := by
  rcases c.similar.record same with ⟨rfl, unmapped⟩ | ⟨place, xs, ys, rfl, rfl, pairs⟩
  · have refused : L.Sim (Option.Rel (Mapping.Like like described.spot)) (mappingOf n what)
        (mappingOf n what) := by
      unfold mappingOf
      split
      next place pairs => exact absurd rfl (unmapped place pairs)
      next => exact L.failed rfl (opens.told (by decide)) .none
    refine L.bind refused fun x y found => ?_
    cases found with
    | none => exact L.pure .none
    | some alike => exact each _ _ rfl alike
  · refine L.bind (mappingOf_sim L opens pairs) fun x y found => ?_
    cases found with
    | none => exact L.pure .none
    | some alike => exact each _ _ rfl alike

omit [LawfulMonad M] [LawfulMonad N] in
theorem alone_or_described {described : Record} {n n' : Yaml.Node}
    (same : like (.record described) n n') :
    (∃ s, n = .scalar s ∧ n' = .scalar s) ∨ (∀ s, n ≠ .scalar s) ∧ ∀ s, n' ≠ .scalar s := by
  rcases c.similar.record same with ⟨rfl, _⟩ | ⟨place, xs, ys, rfl, rfl, _⟩
  · cases n with
    | scalar s => exact .inl ⟨s, rfl, rfl⟩
    | _ => exact .inr ⟨nofun, nofun⟩
  · exact .inr ⟨nofun, nofun⟩

theorem paramOf_sim {n n' : Yaml.Node} (same : like (.record .parameter) n n') :
    L.Sim (Option.Rel (Param.Alike l node)) (paramOf below n) (paramOf other n') := by
  rcases alone_or_described c same with ⟨s, rfl, rfl⟩ | ⟨left, right⟩
  · refine L.bind (nameOf_sim L _ (by decide)) fun x y found => ?_
    cases found with
    | none => exact L.pure .none
    | some name =>
      refine L.bind (L.spanOf rfl) fun _ _ span => L.pure (.some ?_)
      exact .intro _ _ _ span name .none L.absent
  · unfold paramOf
    split
    next s => exact absurd rfl (left s)
    next =>
    refine described_sim c same (by decide) fun m m' place alike => ?_
    have flag {key : String} (is : Record.parameter.spot (text key) = .other) :=
      m.flag_sim L alike c.similar is
    refine L.bind (m.name_sim L alike c.similar (Record.spot_text _ _)) fun _ _ name => ?_
    refine L.bind (m.name?_sim L alike c.similar (Record.spot_text _ _)) fun _ _ declared => ?_
    refine L.bind (m.node?_sim c alike (Record.spot_text _ _)) fun _ _ default => ?_
    refine L.same (flag (Record.spot_text _ _)) fun isOptional => ?_
    refine L.same (flag (Record.spot_text _ _)) fun isDynamic => ?_
    refine L.same (flag (Record.spot_text _ _)) fun isMutable => ?_
    refine L.bind (m.finish_sim L alike _) fun _ _ _ => ?_
    refine L.bind (L.spanOf place) fun _ _ span => L.pure (.some ?_)
    exact .intro _ _ _ span name default declared

theorem fieldOf_sim {n n' : Yaml.Node} (same : like (.record .field) n n') :
    L.Sim (Option.Rel (Field.Alike l node)) (fieldOf below n) (fieldOf other n') := by
  rcases alone_or_described c same with ⟨s, rfl, rfl⟩ | ⟨left, right⟩
  · refine L.bind (nameOf_sim L _ (by decide)) fun x y found => ?_
    cases found with
    | none => exact L.pure .none
    | some name =>
      refine L.bind (L.spanOf rfl) fun _ _ span => L.pure (.some ?_)
      exact .intro _ span name L.absent .none
  · unfold fieldOf
    split
    next s => exact absurd rfl (left s)
    next =>
    refine described_sim c same (by decide) fun m m' place alike => ?_
    refine L.bind (m.name_sim L alike c.similar (Record.spot_text _ _)) fun _ _ name => ?_
    refine L.same (m.modifiers_sim L alike c.similar (Record.spot_text _ _)) fun modifiers => ?_
    refine L.bind (m.name?_sim L alike c.similar (Record.spot_text _ _)) fun _ _ declared => ?_
    refine L.bind (m.node?_sim c alike (Record.spot_text _ _)) fun _ _ default => ?_
    refine L.bind (m.finish_sim L alike _) fun _ _ _ => ?_
    refine L.bind (L.spanOf place) fun _ _ span => L.pure (.some ?_)
    exact .intro _ span name declared default

theorem fieldsOf_sim {xs ys : List Yaml.Node}
    (items : List.Forall₂ (like (.record .field)) xs ys) :
    L.Sim (List.Forall₂ (Field.Alike l node)) (fieldsOf below xs) (fieldsOf other ys) :=
  L.bind (L.mapM items fun _ _ same => fieldOf_sim c same) fun _ _ found =>
    L.pure (Link.present found)

omit [LawfulMonad M] [LawfulMonad N] in
theorem argumentOf_sim {n n' : Yaml.Node} (same : like .argument n n') :
    L.Sim (Option.Rel (Argument.Alike l node)) (argumentOf below n) (argumentOf other n') := by
  have named {K : Type → Type} [Reading K] (reader : Yaml.Node → K Node) (n : Yaml.Node) :
      argumentOf reader n = if !isNamed n then do return some ⟨some (← reader n), .none⟩
        else do
          match ← mappingOf n (text "named argument") with
          | none => return none
          | some m =>
            let name ← m.name "named"
            let value ← m.node reader "value"
            m.finish ["named", "value"]
            return some ⟨some value, name⟩ := by
    cases n <;> rfl
  rw [named, named]
  rcases c.similar.argument same with ⟨plain, plain', alike⟩ | ⟨given, given', alike⟩
  · rw [plain, plain']
    exact L.bind (c.sim alike) fun _ _ value => L.pure (.some (.intro (.some value) L.absent))
  · rw [given, given']
    refine described_sim c alike (by decide) fun m m' _ alike => ?_
    refine L.bind (m.name_sim L alike c.similar (Record.spot_text _ _)) fun _ _ name => ?_
    refine L.bind (m.node_sim c alike (Record.spot_text _ _)) fun _ _ value => ?_
    refine L.bind (m.finish_sim L alike _) fun _ _ _ => L.pure (.some ?_)
    exact .intro (.some value) name

theorem argumentsOf_sim {xs ys : List Yaml.Node} (items : List.Forall₂ (like .argument) xs ys) :
    L.Sim (List.Forall₂ (Argument.Alike l node)) (argumentsOf below xs) (argumentsOf other ys) :=
  L.bind (L.mapM items fun _ _ same => argumentOf_sim c same) fun _ _ found =>
    L.pure (Link.present found)

omit [LawfulMonad M] [LawfulMonad N] in
theorem initializerOf_sim {n n' : Yaml.Node} (same : like (.record .initializer) n n') :
    L.Sim (Option.Rel (Initializer.Alike l node)) (initializerOf below n)
      (initializerOf other n') := by
  refine described_sim c same (by decide) fun m m' _ alike => ?_
  refine L.bind (m.name_sim L alike c.similar (Record.spot_text _ _)) fun _ _ name => ?_
  refine L.bind (m.node_sim c alike (Record.spot_text _ _)) fun _ _ value => ?_
  refine L.bind (m.finish_sim L alike _) fun _ _ _ => L.pure (.some ?_)
  exact .intro name (.some value)

theorem branchOf_sim {n n' : Yaml.Node} (same : like (.record .branch) n n') :
    L.Sim (Option.Rel (Branch.Alike node)) (branchOf below n) (branchOf other n') := by
  refine described_sim c same (by decide) fun m m' _ alike => ?_
  refine L.bind (m.node_sim c alike (Record.spot_text _ _)) fun _ _ guard => ?_
  refine L.bind (m.body_sim c alike (Record.spot_text _ _)) fun _ _ body => ?_
  refine L.bind (m.finish_sim L alike _) fun _ _ _ => L.pure (.some ?_)
  exact .intro (.some guard) (.some body)

omit c [Reading M] [Reading N] [LawfulMonad M] [LawfulMonad N] in
theorem Mapping.Like.has_eq {spot : Text → Spot} {m m' : Mapping}
    (alike : Mapping.Like like spot m m') (key : String) : m.has key = m'.has key := by
  have found := alike.get key
  unfold Mapping.has
  generalize m.get? key = x, m'.get? key = y at found
  cases found <;> rfl

theorem accessorOf_sim {n n' : Yaml.Node} (same : like (.record .accessor) n n') :
    L.Sim (Option.Rel (Accessor.Alike l node)) (accessorOf below n) (accessorOf other n') := by
  refine described_sim c same (by decide) fun m m' place alike => ?_
  rw [alike.has_eq, alike.has_eq]
  split
  · refine L.bind (m.name_sim L alike c.similar (Record.spot_text _ _)) fun _ _ name => ?_
    refine L.bind (m.finish_sim L alike _) fun _ _ _ => ?_
    exact L.bind (L.spanOf place) fun _ _ span => L.pure (.some (.intro _ span name .nil))
  split
  · refine L.bind (m.name_sim L alike c.similar (Record.spot_text _ _)) fun _ _ name => ?_
    refine L.bind (m.items_sim L alike c.similar (Record.spot_text _ _)) fun _ _ items => ?_
    refine L.bind (argumentsOf_sim c items) fun _ _ args => ?_
    refine L.bind (m.finish_sim L alike _) fun _ _ _ => ?_
    exact L.bind (L.spanOf place) fun _ _ span => L.pure (.some (.intro _ span name args))
  · exact L.failed place (by decide) .none

theorem accessorsOf_sim {xs ys : List Yaml.Node}
    (items : List.Forall₂ (like (.record .accessor)) xs ys) :
    L.Sim (List.Forall₂ (Accessor.Alike l node)) (accessorsOf below xs) (accessorsOf other ys) :=
  L.bind (L.mapM items fun _ _ same => accessorOf_sim c same) fun _ _ found =>
    L.pure (Link.present found)

omit [LawfulMonad M] [LawfulMonad N] in
theorem methodOf_sim {n n' : Yaml.Node} (same : like .method n n') :
    L.Sim (Option.Rel (Function.Alike l node)) (methodOf below n) (methodOf other n') := by
  refine L.bind (c.method same) fun a b read => ?_
  obtain ⟨alike, told⟩ := read
  cases c.layer.mp alike with
  | function defined => exact L.pure (.some defined)
  | _ => exact L.failed (told.resolve_right nofun) (by decide) .none

section

variable {spot : Text → Spot} {m m' : Mapping} (alike : Mapping.Like like spot m m')
include alike

theorem lambdaOf_sim {xs ys : List Yaml.Node}
    (params : List.Forall₂ (like (.record .parameter)) xs ys)
    (mods : spot (text "mods") = .items .other) (returns : spot (text "returns") = .other)
    (body : spot (text "body") = .body) :
    L.Sim (Lambda.Alike l node) (lambdaOf below m xs) (lambdaOf other m' ys) := by
  refine L.bind (L.siteAt alike.place_eq) fun _ _ site => ?_
  refine L.same (m.modifiers_sim L alike c.similar mods) fun modifiers => ?_
  refine L.bind (m.name?_sim L alike c.similar returns) fun _ _ declared => ?_
  refine L.bind (L.mapM params fun _ _ same => paramOf_sim c same) fun _ _ params => ?_
  refine L.bind (m.body?_sim c alike body) fun _ _ body => L.pure ?_
  exact .intro modifiers site (Link.present params) body declared

theorem chainOf_sim {key : String} (own : spot (text key) = .other)
    (access : spot (text "access") = .items (.record .accessor)) :
    L.Sim (Chain.Alike l node) (chainOf below m key) (chainOf other m' key) := by
  refine L.bind (L.siteAt alike.place_eq) fun _ _ site => ?_
  refine L.bind (m.name_sim L alike c.similar own) fun _ _ name => ?_
  refine L.bind (m.items_sim L alike c.similar access) fun _ _ items => ?_
  exact L.bind (accessorsOf_sim c items) fun _ _ accessors => L.pure (.intro site name accessors)

end

theorem initOf_sim {n n' : Yaml.Node} (same : like (.record .initial) n n') :
    L.Sim (Option.Rel (Lambda.Alike l node)) (initOf below n) (initOf other n') := by
  refine described_sim c same (by decide) fun m m' _ alike => ?_
  refine L.bind (m.items_sim L alike c.similar (Record.spot_text _ _)) fun _ _ params => ?_
  refine L.bind (lambdaOf_sim c alike params (Record.spot_text _ _) (Record.spot_text _ _)
    (Record.spot_text _ _)) fun _ _ lambda => ?_
  exact L.bind (m.finish_sim L alike _) fun _ _ _ => L.pure (.some lambda)

/-! ### Kinds of nodes -/

omit c [Reading M] [Reading N] [LawfulMonad M] [LawfulMonad N] in
theorem isLiteral_eq {a b : Node} (layer : Node.Layer l node a b) (kind : String) :
    isLiteral kind a = isLiteral kind b := by
  cases layer <;> rfl

omit [LawfulMonad M] [LawfulMonad N] in
theorem literalOf_sim {kind : String} (opens : Opens (text kind)) (v : Yaml.Node) :
    L.Sim (Option.Rel node) (literalOf kind v) (literalOf kind v) := by
  cases v with
  | scalar s =>
    refine L.bind (scalarOf_sim L s c.layer.mpr) fun a b alike => ?_
    rw [isLiteral_eq (c.layer.mp alike)]
    split
    · exact L.pure (.some alike)
    · exact L.failed rfl ((opens.told (by decide)).append _) .none
  | _ => exact L.failed rfl (opens.told (by decide)) .none

section

variable {m m' : Mapping}

theorem classOf_sim (alike : Mapping.Like like (Record.node "class").spot m m') :
    L.Sim node (classOf below m) (classOf other m') := by
  have items {key : String} {each : Spot}
      (is : (Record.node "class").spot (text key) = .items each) :=
    m.items_sim L alike c.similar is
  have body {key : String} (is : (Record.node "class").spot (text key) = .body) :=
    m.body?_sim c alike is
  refine L.bind (m.name_sim L alike c.similar (Record.spot_text _ _)) fun _ _ name => ?_
  refine L.bind (L.siteAt alike.place_eq) fun _ _ site => ?_
  refine L.bind (items (Record.spot_text _ _)) fun _ _ listed => ?_
  have superOf_sim (x y : Yaml.Node) (same : like .other x y) :
      L.Sim (Option.Rel l.handle) (superOf x) (superOf y) := by
    rw [c.similar.other same]
    exact nameOf_sim L y (by decide)
  refine L.bind (L.mapM listed superOf_sim) fun _ _ supers => ?_
  refine L.same (m.modifiers_sim L alike c.similar (Record.spot_text _ _)) fun params => ?_
  refine L.bind (items (Record.spot_text _ _)) fun _ _ listed => ?_
  refine L.bind (fieldsOf_sim c listed) fun _ _ fields => ?_
  refine L.bind (items (Record.spot_text _ _)) fun _ _ listed => ?_
  refine L.bind (L.mapM listed fun _ _ same => initOf_sim c same) fun _ _ init => ?_
  refine L.bind (items (Record.spot_text _ _)) fun _ _ listed => ?_
  refine L.bind (L.mapM listed fun _ _ same => methodOf_sim c same) fun _ _ methods => ?_
  refine L.bind (body (Record.spot_text _ _)) fun _ _ pre => ?_
  refine L.bind (body (Record.spot_text _ _)) fun _ _ post => ?_
  refine L.bind (body (Record.spot_text _ _)) fun _ _ final => ?_
  refine L.bind (body (Record.spot_text _ _)) fun _ _ validate => L.pure (c.layer.mpr ?_)
  exact .cls site (.intro params name (Link.present supers) fields (Link.present init)
    (Link.present methods) pre post final validate)

variable {v v' : Yaml.Node}

theorem operationOf_sim (alike : Mapping.Like like (Record.node "op").spot m m') :
    L.Sim (Option.Rel node) (operationOf below m v) (operationOf other m' v) := by
  have items := m.items_sim L alike c.similar (Record.spot_text _ "args")
  have refused : L.Sim (Option.Rel node)
      (do
        Reading.report .unknownOperator v (text "unknown operator " ++ Text.quoted v.text)
        let _ ← m.items "args"
        return none)
      (do
        Reading.report .unknownOperator v (text "unknown operator " ++ Text.quoted v.text)
        let _ ← m'.items "args"
        return none) :=
    L.bind (L.report _ rfl (.append (by decide) _)) fun _ _ _ =>
      L.bind items fun _ _ _ => L.pure .none
  unfold operationOf
  cases v with
  | scalar s =>
    cases known : Operator.ofSymbol? (Yaml.Node.scalar s).text with
    | none => exact refused
    | some op =>
      refine L.bind items fun _ _ listed => ?_
      refine L.bind (nodesOf_sim c listed) fun _ _ operands => ?_
      refine L.bind (L.siteAt alike.place_eq) fun _ _ site => L.pure (.some (c.layer.mpr ?_))
      split
      · exact .list op site operands
      · exact .operation op site operands
  | _ => exact refused

theorem randomOf_sim (alike : Mapping.Like like (Record.node "rand").spot m m') :
    L.Sim (Option.Rel node) (randomOf below m v) (randomOf other m' v) := by
  unfold randomOf
  extract_lets kind
  cases kind with
  | none =>
    refine L.bind (L.fail rfl (by decide)) fun _ _ _ => ?_
    exact L.bind (m.finish_sim L alike _) fun _ _ _ => L.pure .none
  | some isFloat =>
    refine L.bind (m.node?_sim c alike (Record.spot_text _ _)) fun _ _ lower => ?_
    refine L.bind (m.node?_sim c alike (Record.spot_text _ _)) fun _ _ upper => ?_
    refine L.bind (m.finish_sim L alike _) fun _ _ _ => ?_
    refine L.bind (L.siteAt alike.place_eq) fun _ _ site => L.pure (.some (c.layer.mpr ?_))
    exact .random isFloat site lower upper

theorem accessOf_sim (alike : Mapping.Like like (Record.node "at").spot m m')
    (own : like .node v v') :
    L.Sim (Option.Rel node) (accessOf below m v) (accessOf other m' v') := by
  refine L.bind (c.sim own) fun _ _ target => ?_
  refine L.bind (m.node?_sim c alike (Record.spot_text _ _)) fun x y index => ?_
  refine L.bind (m.name?_sim L alike c.similar (Record.spot_text _ _)) fun _ _ pattern => ?_
  have indexed : x.isSome = y.isSome := by cases index <;> rfl
  rw [indexed, L.valid pattern]
  split
  · exact L.failed alike.place_eq (by decide) .none
  · refine L.bind (L.siteAt alike.place_eq) fun _ _ site => L.pure (.some (c.layer.mpr ?_))
    exact .access site index pattern (.some target)

omit [LawfulMonad M] [LawfulMonad N] in
theorem consOf_sim (alike : Mapping.Like like (Record.node "cons").spot m m')
    (own : like (.items .node) v v') :
    L.Sim (Option.Rel node) (consOf below m v) (consOf other m' v') := by
  have place_eq : v.place = v'.place := by
    rcases c.similar.items own with ⟨rfl, _⟩ | ⟨place, _, _, rfl, rfl, _⟩ <;> rfl
  refine L.bind (Mapping.itemsOf_sim L c.similar own (by decide)) fun xs ys items => ?_
  have refused (counted : xs.length = ys.length) : L.Sim (Option.Rel node)
      (do
        fail v (text "cons takes exactly two items, found " ++ Text.ofNat xs.length)
        return none)
      (do
        fail v' (text "cons takes exactly two items, found " ++ Text.ofNat ys.length)
        return none) := by
    rw [counted]
    exact L.failed place_eq (.append (by decide) _) .none
  have counted := items.length_eq
  match xs, ys, items with
  | [], [], _ => exact refused rfl
  | [_], [_], _ => exact refused rfl
  | [_, _], [_, _], .cons first (.cons second .nil) =>
    refine L.bind (c.sim first) fun _ _ car => L.bind (c.sim second) fun _ _ cdr => ?_
    refine L.bind (L.siteAt alike.place_eq) fun _ _ site => L.pure (.some (c.layer.mpr ?_))
    exact .cons site (.some car) (.some cdr)
  | _ :: _ :: _ :: _, _ :: _ :: _ :: _, _ => exact refused counted

theorem kindOf_sim {kind : String} (known : kind ∈ kindKeys)
    (alike : Mapping.Like like (Record.node kind).spot m m')
    (held : like ((Record.node kind).spotOf kind) v v') :
    L.Sim (Option.Rel node) (kindOf below m kind v) (kindOf other m' kind v') := by
  have opens := opens_kind kind known
  have spot (key : String) := Record.spot_text (.node kind) key
  have name {key : String} (is : (Record.node kind).spot (text key) = .other) :=
    m.name_sim L alike c.similar is
  have name? {key : String} (is : (Record.node kind).spot (text key) = .other) :=
    m.name?_sim L alike c.similar is
  have items {key : String} {each : Spot} (is : (Record.node kind).spot (text key) = .items each) :=
    m.items_sim L alike c.similar is
  have value {key : String} (is : (Record.node kind).spot (text key) = .node) :=
    m.node_sim c alike is
  have body? {key : String} (is : (Record.node kind).spot (text key) = .body) :=
    m.body?_sim c alike is
  have same (is : (Record.node kind).spotOf kind = .other) : v = v' := c.similar.other (is ▸ held)
  have own (is : (Record.node kind).spotOf kind = .node) : L.Sim node (below v) (other v') :=
    c.sim (is ▸ held)
  have ownItems {each : Spot} (is : (Record.node kind).spotOf kind = .items each) :
      L.Sim (List.Forall₂ (like each)) (itemsOf v (text kind)) (itemsOf v' (text kind)) :=
    Mapping.itemsOf_sim L c.similar (is ▸ held) (opens.told (by decide))
  have given {known : List String} {x y : Option Node} (read : Option.Rel node x y) :
      L.Sim (Option.Rel node) (do m.finish known; return x) (do m'.finish known; return y) :=
    L.bind (m.finish_sim L alike known) fun _ _ _ => L.pure read
  have built {known : List String} {make make' : Site → Node}
      (made : ∀ {s t : Site}, s.Alike l t → Node.Layer l node (make s) (make' t)) :
      L.Sim (Option.Rel node)
        (do m.finish known; return some (make (← Reading.siteAt m.origin)))
        (do m'.finish known; return some (make' (← Reading.siteAt m'.origin))) :=
    L.bind (m.finish_sim L alike known) fun _ _ _ =>
      L.bind (L.siteAt alike.place_eq) fun _ _ site => L.pure (.some (c.layer.mpr (made site)))
  have literal (w : Yaml.Node) : L.Sim (Option.Rel node)
      (do let n ← literalOf kind w; m.finish [kind]; return n)
      (do let n ← literalOf kind w; m'.finish [kind]; return n) :=
    L.bind (literalOf_sim c opens w) fun _ _ read => given read
  have arguments {known : List String} {make make' : Site → List (Argument Node) → Node}
      (made : ∀ {s t : Site} {xs ys}, s.Alike l t → List.Forall₂ (Argument.Alike l node) xs ys →
        Node.Layer l node (make s xs) (make' t ys))
      (is : (Record.node kind).spot (text "args") = .items .argument) :
      L.Sim (Option.Rel node)
        (do
          let args ← argumentsOf below (← m.items "args")
          m.finish known
          return some (make (← Reading.siteAt m.origin) args))
        (do
          let args ← argumentsOf other (← m'.items "args")
          m'.finish known
          return some (make' (← Reading.siteAt m'.origin) args)) :=
    L.bind (items is) fun _ _ listed =>
      L.bind (argumentsOf_sim c listed) fun _ _ args => built fun site => made site args
  simp only [kindKeys, List.mem_cons, List.not_mem_nil, or_false] at known
  rcases known with rfl | rfl | rfl | rfl | rfl | rfl | rfl | rfl | rfl | rfl | rfl | rfl | rfl |
    rfl | rfl | rfl | rfl | rfl | rfl | rfl | rfl | rfl | rfl | rfl | rfl | rfl | rfl | rfl | rfl |
    rfl | rfl
  -- int, float, bool
  · exact same rfl ▸ literal v
  · exact same rfl ▸ literal v
  · exact same rfl ▸ literal v
  -- string
  · cases same rfl
    cases v with
    | scalar s => exact built (.string s.value)
    | _ => exact L.bind (L.fail rfl (by decide)) fun _ _ _ => given .none
  -- nil, quote, pair
  · exact built .nil
  · exact built .quote
  · exact built .pair
  -- vector
  · refine L.bind (ownItems rfl) fun _ _ listed => ?_
    exact L.bind (nodesOf_sim c listed) fun _ _ elems => built fun site => .vector site elems
  -- ref
  · cases same rfl
    refine L.bind (nameOf_sim L v (by decide)) fun _ _ name => ?_
    refine L.bind (m.finish_sim L alike _) fun _ _ _ => ?_
    cases name with
    | none => exact L.pure .none
    | some name =>
      refine L.bind (L.siteAt alike.place_eq) fun _ _ site => L.pure (.some (c.layer.mpr ?_))
      exact .ident site name
  -- def
  · refine L.bind (name (spot _)) fun _ _ name => ?_
    refine L.same (m.modifiers_sim L alike c.similar (spot _)) fun modifiers => ?_
    refine L.bind (value (spot _)) fun _ _ value => L.bind (name? (spot _)) fun _ _ declared => ?_
    exact built fun site => .define modifiers site name (.some value) declared
  -- lambda
  · refine L.bind (ownItems rfl) fun _ _ params => ?_
    refine L.bind (lambdaOf_sim c alike params (spot _) (spot _) (spot _)) fun _ _ lambda => ?_
    exact given (.some (c.layer.mpr (.lambda lambda)))
  -- func
  · refine L.bind (name (spot _)) fun _ _ name => L.bind (items (spot _)) fun _ _ params => ?_
    refine L.bind (lambdaOf_sim c alike params (spot _) (spot _) (spot _)) fun _ _ lambda => ?_
    exact built fun site => .function (.intro site name (.some lambda))
  -- struct
  · refine L.bind (name (spot _)) fun _ _ name => L.bind (items (spot _)) fun _ _ listed => ?_
    exact L.bind (fieldsOf_sim c listed) fun _ _ fields =>
      built fun site => .struct site name fields
  -- class
  · exact L.bind (classOf_sim c alike) fun _ _ read => given (.some read)
  -- set
  · refine L.bind (name (spot _)) fun _ _ name => L.bind (value (spot _)) fun _ _ value => ?_
    exact built fun site => .assign site name (.some value)
  -- do
  · refine L.bind (ownItems rfl) fun _ _ listed => ?_
    exact L.bind (nodesOf_sim c listed) fun _ _ exprs => built fun site => .block site exprs
  -- print
  · exact L.bind (own rfl) fun _ _ expr => built fun site => .print site (.some expr)
  -- if
  · refine L.bind (own rfl) fun _ _ guard => ?_
    refine L.bind (m.body_sim c alike (spot _)) fun _ _ body => ?_
    refine L.bind (body? (spot _)) fun _ _ otherwise => ?_
    exact built fun site => .cond site (.intro (.some guard) (.some body)) otherwise
  -- cond
  · refine L.bind (ownItems rfl) fun _ _ listed => ?_
    refine L.bind (L.mapM listed fun _ _ same => branchOf_sim c same) fun _ _ branches => ?_
    refine L.bind (body? (spot _)) fun _ _ otherwise => ?_
    exact built fun site => .conds site (Link.present branches) otherwise
  -- while
  · refine L.bind (own rfl) fun _ _ guard => L.bind (body? (spot _)) fun _ _ body => ?_
    refine L.same (m.flag_sim L alike c.similar (spot _)) fun bodyFirst => ?_
    exact built fun site => .loop bodyFirst site (.some guard) body
  -- cons
  · exact L.bind (consOf_sim c alike held) fun _ _ read => given read
  -- list
  · refine L.bind (ownItems rfl) fun _ _ listed => ?_
    exact L.bind (nodesOf_sim c listed) fun _ _ operands => built fun site => .list _ site operands
  -- at
  · exact L.bind (accessOf_sim c alike held) fun _ _ read => given read
  -- call
  · exact L.bind (name (spot _)) fun _ _ name => arguments (fun site => .call site name) (spot _)
  -- invoke
  · refine L.bind (own rfl) fun _ _ callee => L.bind (items (spot _)) fun _ _ listed => ?_
    refine L.bind (accessorsOf_sim c listed) fun _ _ accessors => ?_
    exact arguments (fun site => .invoke site (.some callee) accessors) (spot _)
  -- get
  · exact L.bind (chainOf_sim c alike (spot _) (spot _)) fun _ _ chain =>
      given (.some (c.layer.mpr (.member chain)))
  -- put
  · refine L.bind (chainOf_sim c alike (spot _) (spot _)) fun _ _ chain => ?_
    refine L.bind (value (spot _)) fun _ _ value => ?_
    exact built fun site => .assignMember site (.some chain) (.some value)
  -- rand
  · cases same rfl
    exact randomOf_sim c alike
  -- new
  · refine L.bind (name (spot _)) fun _ _ name => L.bind (items (spot _)) fun _ _ listed => ?_
    refine L.bind (L.mapM listed fun _ _ same => initializerOf_sim c same) fun _ _ args => ?_
    exact built fun site => .create site name (Link.present args)
  -- make
  · exact L.bind (name (spot _)) fun _ _ name =>
      arguments (fun site => .construct site name) (spot _)
  -- op
  · cases same rfl
    exact L.bind (operationOf_sim c alike) fun _ _ read => given read

end

/-! ### Nodes -/

omit c [LawfulMonad M] [LawfulMonad N] in
theorem kindIn_sim {n n' : Yaml.Node} (place : n.place = n'.place) (found : Option String)
    {spot : Text → Spot} {xs ys : List (Yaml.Node × Yaml.Node)}
    (pairs : PairsLike like spot xs ys) :
    L.Sim (fun a b => a = b ∧ ∀ kind, a = some kind → kindsNamed found xs = [kind])
      (kindIn n found xs) (kindIn n' found ys) := by
  induction pairs generalizing found with
  | nil =>
    cases found with
    | some kind => exact L.pure ⟨rfl, fun _ same => by cases same; rfl⟩
    | none => exact L.failed place (by decide) ⟨rfl, nofun⟩
  | @cons x y xs ys first _ ih =>
    obtain ⟨k, v⟩ := x
    obtain ⟨k', w⟩ := y
    obtain ⟨rfl : k = k', _⟩ := first
    cases key : kindKey? k with
    | none =>
      have same : kindsNamed found ((k, v) :: xs) = kindsNamed found xs := by
        simp [kindsNamed, key]
      rw [same]
      cases found <;> simpa only [kindIn, key] using ih _
    | some other =>
      cases found with
      | none =>
        have same : kindsNamed none ((k, v) :: xs) = kindsNamed (some other) xs := by
          simp [kindsNamed, key]
        rw [same]
        simpa only [kindIn, key] using ih (some other)
      | some kind =>
        simp only [kindIn, key]
        exact L.failed rfl ((Told.append (.append (by decide) _) _).append _) ⟨rfl, nofun⟩

theorem compoundOf?_sim {place : Yaml.Place} {xs ys : List (Yaml.Node × Yaml.Node)}
    (pairs : PairsLike like (Grammar.nodeSpot xs) xs ys) :
    L.Sim (Option.Rel node) (compoundOf? below (.mapping place xs) xs)
      (compoundOf? other (.mapping place ys) ys) := by
  have same : (Yaml.Node.mapping place xs).place = (Yaml.Node.mapping place ys).place := rfl
  refine L.bind (kindIn_sim same none pairs) fun x y named => ?_
  obtain ⟨rfl, single⟩ := named
  cases x with
  | none => exact L.pure .none
  | some kind =>
    have single := single kind rfl
    have known : kind ∈ kindKeys := by
      have among : kind ∈ kindsNamed none xs := single ▸ List.mem_cons_self
      obtain ⟨pair, _, key⟩ := List.mem_filterMap.mp among
      exact (kindKey?_iff.mp key).2
    have spot : Grammar.nodeSpot xs = (Record.node kind).spot := by
      funext key
      rw [Grammar.nodeSpot, single]
    rw [spot] at pairs
    refine L.bind (mappingOf_sim L (opens_kind kind known) pairs) fun x y described => ?_
    cases described with
    | none => exact L.pure .none
    | @some m m' alike =>
      have found := alike.get kind
      dsimp only
      generalize m.get? kind = x, m'.get? kind = y at found
      cases found with
      | none => exact L.pure .none
      | some held => exact kindOf_sim c known alike (Record.spot_text _ _ ▸ held)

theorem writtenOf_sim {n m : Yaml.Node} (alike : WrittenLike like n m) :
    L.Sim node (writtenOf below n) (writtenOf other m) := by
  cases alike with
  | scalar s => exact scalarOf_sim L s c.layer.mpr
  | sequence place items =>
    refine L.bind (L.siteAt rfl) fun _ _ site => ?_
    exact L.bind (nodesOf_sim c items) fun _ _ elems => L.pure (c.layer.mpr (.vector site elems))
  | mapping place pairs =>
    refine L.bind (compoundOf?_sim c pairs) fun x y read => ?_
    cases read with
    | none => exact replaced_sim c rfl
    | some read => exact L.pure read
  | _ => exact L.bind (L.fail rfl (by decide)) fun _ _ _ => replaced_sim c rfl

end

end TreeCheck.Load
