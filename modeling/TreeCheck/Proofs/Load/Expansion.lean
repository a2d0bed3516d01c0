import TreeCheck.Proofs.Load.Twin

/-!
Reading through aliases is bounded. Aliases may refer to what encloses them or share their targets,
so a document is a graph; the bound on the depth of reading is never met all the same, since every
way down passes nodes in their own places, of which there are as many as the document is high, and
then nodes reached through aliases, which are counted and cut off beyond a bound.
-/

namespace TreeCheck.Load

open Grammar (Spot)

/-! ### The bound on the depth -/

/-- Reading down to a depth, and from there on by another reader. -/
def nodeOver (bottom : Yaml.Node → Load Node) : Nat → Yaml.Node → Load Node
  | 0, n => bottom n
  | depth + 1, n => nodeStep (nodeOver bottom depth) n

/-- The depth is enough for a document node: no way down from it is longer. -/
def Deep (depth : Nat) (env : Env) (n : Yaml.Node) (s : State) : Prop :=
  if env.throughAlias then 0 < depth ∧ maxAliased < depth + s.aliased
  else n.height + maxAliased < depth

section

variable {depth : Nat} {env : Env} {n : Yaml.Node} {s t : State}

theorem Deep.pos (deep : Deep depth env n s) : 0 < depth := by
  unfold Deep at deep
  split at deep <;> omega

theorem Deep.later (deep : Deep depth env n s) (later : s.aliased ≤ t.aliased) :
    Deep depth env n t := by
  unfold Deep at *
  split
  next through =>
    rw [if_pos through] at deep
    omega
  next direct => rwa [if_neg direct] at deep

theorem Deep.down {child : Yaml.Node} (deep : Deep (depth + 1) env n s) (room : s.HasRoom env)
    (lower : child.height < n.height) (later : (s.counted env).aliased ≤ t.aliased) :
    Deep depth env child t := by
  unfold Deep at *
  unfold State.HasRoom at room
  unfold State.counted at later
  obtain ⟨file, document, through⟩ := env
  cases through with
  | true =>
    have room := room rfl
    simp only [if_true] at *
    omega
  | false =>
    simp only [Bool.false_eq_true, if_false] at *
    omega

theorem Deep.through {target : Yaml.Node} (deep : Deep (depth + 1) env n s)
    (room : s.HasRoom env) : Deep depth env.through target (s.counted env) := by
  have positive := n.height_pos
  unfold Deep State.counted at *
  unfold State.HasRoom at room
  rw [if_pos (show env.through.throughAlias = true from rfl)]
  obtain ⟨file, document, through⟩ := env
  cases through with
  | true =>
    have room := room rfl
    simp only [if_true] at *
    omega
  | false =>
    simp only [Bool.false_eq_true, if_false] at *
    omega

end

theorem same_paired (env : Env) (count : Nat) :
    Paired .same env env (fun s s' => s = s' ∧ count ≤ s.aliased) fun _ _ => True where
  span _ := rfl
  next := by
    rintro s _ ⟨rfl, reached⟩
    exact ⟨rfl, rfl, reached⟩
  report := by
    rintro s _ code place message ⟨rfl, reached⟩
    exact ⟨rfl, reached⟩
  intern := by
    rintro s _ t ⟨rfl, reached⟩ _
    exact ⟨rfl, rfl, reached⟩
  back _ _ _ := trivial

theorem nodeOver_stable (bottom : Yaml.Node → Load Node) (depth : Nat) :
    ∀ {depth' env n s}, Deep depth env n s → Deep depth' env n s →
      (nodeOver bottom depth n).run env s = (node depth' n : Load Node).run env s := by
  induction depth with
  | zero => exact fun deep => absurd deep.pos (Nat.lt_irrefl 0)
  | succ depth ih =>
    intro depth' env n s deep deep'
    match depth' with
    | 0 => exact absurd deep'.pos (Nat.lt_irrefl 0)
    | depth' + 1 =>
    show (nodeStep (nodeOver bottom depth) n).run env s =
      (nodeStep (node depth') n : Load Node).run env s
    by_cases room : s.HasRoom env
    swap
    · rw [nodeStep_full _ n room, nodeStep_full _ n room]
    rw [nodeStep_room _ n room, nodeStep_room _ n room]
    by_cases own : ∃ target, env.Refers n target
    · obtain ⟨target, refers⟩ := own
      rw [followed_target _ _ refers, followed_target _ _ refers]
      exact ih (deep.through room) (deep'.through room)
    rw [followed_written _ _ (not_exists.mp own), followed_written _ _ (not_exists.mp own)]
    -- The nodes below are lower, and the count of aliased nodes does not fall.
    let small (child : Yaml.Node) : Prop := child.height < n.height
    have answered {child other : Yaml.Node} {given : Node → Node → Prop}
        (answers : Answers Eq (Inside Same small fun _ => True) child other given) :
        Conform env env (fun t t' => t = t' ∧ (s.counted env).aliased ≤ t.aliased)
          (fun _ _ => True) given (nodeOver bottom depth child) (node depth' other) := by
      rintro t _ ⟨rfl, later⟩ _
      obtain ⟨rfl, lower, refl⟩ : child = other ∧ small child ∧ ∀ a, given a a := by
        rcases answers with ⟨rfl, lower, _⟩ | ⟨rfl, lower, _⟩
        · exact ⟨rfl, lower, fun _ => rfl⟩
        · exact ⟨rfl, lower, fun _ => ⟨rfl, .inl rfl⟩⟩
      rw [ih (deep.down room lower later) (deep'.down room lower later)]
      exact ⟨refl _, rfl, Nat.le_trans later (node_grows depth' child env t).aliased⟩
    have similar : Similar (Inside Same small fun _ => True) :=
      inside_similar same_similar
        (fun _ lower _ member => Nat.lt_trans (Yaml.Node.height_lt_of_child member) lower)
        fun _ _ _ _ => trivial
    have written : WrittenLike (Inside Same small fun _ => True) n n :=
      inside_written (same_written n) (fun _ member => Yaml.Node.height_lt_of_child member)
        fun _ _ => trivial
    have conform := writtenOf_conform (same_paired env (s.counted env).aliased) rfl
      (congrArg Handle.isValid) (by rw [Node.layer_same]) similar (.inl fun _ _ => trivial)
      answered written
    obtain ⟨result, state, _⟩ := conform _ _ ⟨rfl, Nat.le_refl _⟩ trivial
    exact Prod.ext result state

/-! ### The visits of reading -/

structure Visit where
  node : Yaml.Node
  throughAlias : Bool
  cut : Bool

/-- Steps of reading that keep a log of the document nodes they come to. -/
abbrev Traced := StateT (List Visit) Load

instance : Reading Traced where
  spanOf n := liftM (spanOf n)
  siteAt n := liftM (siteAt n)
  report code n message := liftM (report code n message)
  intern name := liftM (intern name)

instance : Following Traced where
  exceeds n := do
    let cut ← (countAliased n : Load Bool)
    let env ← (read : Load Env)
    modify (· ++ [⟨n, env.throughAlias, cut⟩])
    return cut
  target? number := liftM (Following.target? number : Load (Option Yaml.Node))
  throughAlias x := fun log => withReader Env.through (x.run log : Load (Node × List Visit))

def expansions (emitted : List Diagnostic) : Nat :=
  emitted.countP fun d => d.message == expansionMessage

/-- The log accounts for the state: it has the nodes that were counted, the first of them not cut
off and all others cut off, and no other node was cut off. Going beyond the bound was told once. -/
structure Faithful (log : List Visit) (s : State) : Prop where
  counted : (log.filter (·.throughAlias)).length = s.aliased
  cuts : (log.filter (·.throughAlias)).map (·.cut) =
    List.replicate (min s.aliased maxAliased) false ++
      List.replicate (s.aliased - maxAliased) true
  direct : ∀ v ∈ log, v.cut → v.throughAlias
  told : expansions s.emitted.toList = if maxAliased < s.aliased then 1 else 0

section

variable {log : List Visit} {s : State}

theorem Faithful.start (names : Interner) : Faithful [] ⟨names, #[], 0, 0⟩ where
  counted := rfl
  cuts := by simp
  direct := nofun
  told := (if_neg (Nat.not_lt_zero _)).symm

theorem Faithful.direct_append {v : Visit} (faithful : Faithful log s)
    (direct : v.cut → v.throughAlias) : ∀ w ∈ log ++ [v], w.cut → w.throughAlias := by
  intro w member
  rcases List.mem_append.mp member with before | here
  · exact faithful.direct w before
  · exact List.mem_singleton.mp here ▸ direct

theorem Faithful.uncut (faithful : Faithful log s) :
    ((log.filter (·.throughAlias)).filter (!·.cut)).length ≤ maxAliased := by
  have flags (visits : List Visit) :
      (visits.filter (!·.cut)).length = ((visits.map (·.cut)).filter (!·)).length := by
    rw [List.filter_map, List.length_map]
    rfl
  rw [flags, faithful.cuts, List.filter_append, List.filter_replicate, List.filter_replicate]
  simp only [Bool.not_false, Bool.not_true, if_true, Bool.false_eq_true, if_false, List.append_nil,
    List.length_replicate]
  exact Nat.min_le_right _ _

theorem Faithful.report {d : Diagnostic} (faithful : Faithful log s)
    (other : d.message ≠ expansionMessage) : Faithful log (s.told d) where
  counted := faithful.counted
  cuts := faithful.cuts
  direct := faithful.direct
  told := by
    have same : expansions (s.told d).emitted.toList = expansions s.emitted.toList := by
      simp [expansions, State.told, other]
    exact same.trans faithful.told

theorem Faithful.room {env : Env} (faithful : Faithful log s) (room : s.HasRoom env)
    (n : Yaml.Node) : Faithful (log ++ [⟨n, env.throughAlias, false⟩]) (s.counted env) := by
  obtain ⟨file, document, through⟩ := env
  cases through with
  | false =>
    refine ⟨?_, ?_, ?_, faithful.told⟩
    · simpa [State.counted] using faithful.counted
    · simpa [State.counted] using faithful.cuts
    · exact faithful.direct_append (by simp)
  | true =>
    have room := room rfl
    refine ⟨?_, ?_, ?_, ?_⟩
    · simpa [State.counted] using faithful.counted
    · have before : min s.aliased maxAliased = s.aliased := by omega
      have after : min (s.aliased + 1) maxAliased = s.aliased + 1 := by omega
      have none : s.aliased - maxAliased = 0 := by omega
      have none' : s.aliased + 1 - maxAliased = 0 := by omega
      simp [State.counted, faithful.cuts, before, after, none, none', List.replicate_succ']
    · exact faithful.direct_append (by simp)
    · have told := faithful.told
      rw [if_neg (by omega)] at told
      simp only [State.counted, if_true]
      rw [if_neg (by omega)]
      exact told

theorem Faithful.full {env : Env} (faithful : Faithful log s) (full : ¬s.HasRoom env)
    (n : Yaml.Node) : Faithful (log ++ [⟨n, env.throughAlias, true⟩]) (s.cutOff n env) := by
  obtain ⟨through, full⟩ := State.full_of_not_room full
  rw [through]
  refine ⟨?_, ?_, ?_, ?_⟩
  · simpa [State.cutOff] using faithful.counted
  · have before : min s.aliased maxAliased = maxAliased := by omega
    have after : min (s.aliased + 1) maxAliased = maxAliased := by omega
    have more : s.aliased + 1 - maxAliased = (s.aliased - maxAliased) + 1 := by omega
    simp [State.cutOff, faithful.cuts, before, after, more, List.replicate_succ']
  · exact faithful.direct_append fun _ => rfl
  · have told := faithful.told
    unfold State.cutOff
    rw [if_pos (Nat.lt_succ_of_le full)]
    split
    next first =>
      rw [if_neg (by omega)] at told
      simpa [expansions, Diagnostic.error] using told
    next later =>
      rw [if_pos (by omega)] at told
      exact told

end

theorem Told.ne_expansion {message : Text} (told : Told message) : message ≠ expansionMessage := by
  rintro rfl
  have opening : ¬Told (text "document expands more than ") := by decide
  exact opening ⟨by decide, told.2⟩

/-- Logged steps and plain ones that end in the same state with related results, the log being
faithful. -/
def Logged {α β : Type} (post : α → β → Prop) (x : Traced α) (y : Load β) : Prop :=
  ∀ env log s, Faithful log s →
    let r := (x.run log).run env s
    r.2 = (y.run env s).2 ∧ post r.1.1 (y.run env s).1 ∧ Faithful r.1.2 r.2

theorem Logged.bind {α β γ δ : Type} {post : α → β → Prop} {goal : γ → δ → Prop} {x : Traced α}
    {y : Load β} {f : α → Traced γ} {g : β → Load δ} (first : Logged post x y)
    (rest : ∀ a b, post a b → Logged goal (f a) (g b)) : Logged goal (x >>= f) (y >>= g) := by
  intro env log s faithful
  obtain ⟨state, holds, kept⟩ := first env log s faithful
  obtain ⟨state', holds', kept'⟩ := rest _ _ holds env _ _ kept
  show _ = ((g (y.run env s).1).run env (y.run env s).2).2 ∧
    goal _ ((g (y.run env s).1).run env (y.run env s).2).1 ∧ _
  rw [← state]
  exact ⟨state', holds', kept'⟩

theorem report_logged {n m : Yaml.Node} (code : Code) {message : Text} (same : n.place = m.place)
    (other : message ≠ expansionMessage) :
    Logged (fun _ _ => True) (Reading.report code n message) (report code m message) := by
  intro env log s faithful
  have kept : Faithful log (s.told (.error code (env.spanAt n.place) message)) :=
    faithful.report other
  refine ⟨?_, trivial, kept⟩
  show s.told (.error code (env.spanAt n.place) message) = _
  rw [same]
  rfl

def loggedLink : Link Traced Load .same where
  Sim := Logged
  pure holds _ _ _ faithful := ⟨rfl, holds, faithful⟩
  bind := .bind
  spanOf same env _ _ faithful := ⟨rfl, congrArg env.spanAt same, faithful⟩
  siteAt same env _ _ faithful :=
    ⟨rfl, ⟨rfl, congrArg env.spanAt same⟩, faithful.counted, faithful.cuts, faithful.direct,
      faithful.told⟩
  report code _ same told := report_logged code same told.ne_expansion
  intern _ _ _ _ faithful :=
    ⟨rfl, rfl, faithful.counted, faithful.cuts, faithful.direct, faithful.told⟩
  absent := rfl
  valid := congrArg Handle.isValid

section

variable {reader : Yaml.Node → Traced Node} {reader' : Yaml.Node → Load Node}
  (read : ∀ n, Logged Eq (reader n) (reader' n))
include read

theorem logged_coupling :
    Coupling loggedLink Eq Same reader reader' where
  layer := by rw [Node.layer_same]
  similar := same_similar
  sim := by
    rintro n _ rfl
    exact read n
  method := by
    rintro n _ rfl
    exact loggedLink.mono (read n) fun _ _ alike => ⟨alike, .inl rfl⟩

theorem writtenOf_logged (n : Yaml.Node) :
    Logged Eq (writtenOf reader n) (writtenOf reader' n) :=
  writtenOf_sim (logged_coupling read) (same_written n)

omit read in
theorem exceeds_logged (n : Yaml.Node) :
    Logged Eq (Following.exceeds n) (countAliased n) := by
  intro env log s faithful
  show ((countAliased n).run env s).2 = ((countAliased n).run env s).2 ∧
    ((countAliased n).run env s).1 = ((countAliased n).run env s).1 ∧
    Faithful (log ++ [⟨n, env.throughAlias, ((countAliased n).run env s).1⟩])
      ((countAliased n).run env s).2
  refine ⟨rfl, rfl, ?_⟩
  by_cases room : s.HasRoom env
  · rw [countAliased_room n room]
    exact faithful.room room n
  · rw [countAliased_full n room]
    exact faithful.full room n

theorem nodeStep_logged (n : Yaml.Node) :
    Logged Eq (nodeStep reader n) (nodeStep reader' n) := by
  refine loggedLink.same (exceeds_logged n) fun cut => ?_
  split
  · exact replaced_sim (logged_coupling read) rfl
  split
  next place name number =>
    have looked : Logged Eq (Following.target? number : Traced (Option Yaml.Node))
        (Following.target? number : Load (Option Yaml.Node)) :=
      fun _ _ _ faithful => ⟨rfl, rfl, faithful⟩
    refine loggedLink.same looked fun found => ?_
    cases found with
    | none => exact writtenOf_logged read _
    | some target => exact fun env log s faithful => read target env.through log s faithful
  next => exact writtenOf_logged read n

end

theorem node_logged (depth : Nat) (n : Yaml.Node) :
    Logged Eq (node depth n) (node depth n) := by
  induction depth generalizing n with
  | zero => exact placeholder_sim loggedLink rfl fun layer => Node.layer_same ▸ layer
  | succ depth ih => exact nodeStep_logged ih n

theorem rootOf_logged (d : Yaml.Document) : Logged Eq (rootOf d) (rootOf d) := by
  rw [rootOf_eq, rootOf_eq]
  unfold rootBy
  split
  next place items _ =>
    have read := nodesOf_sim (logged_coupling (node_logged (d.root.height + maxAliased + 2)))
      (same_items .node items)
    rwa [Option.rel_same, List.forall₂_eq_eq_eq] at read
  next =>
    have other : text "document must be a sequence of nodes" ≠ expansionMessage := by decide
    split
    · exact (report_logged _ rfl other).bind fun _ _ _ => loggedLink.pure rfl
    · exact loggedLink.pure rfl

theorem nodesOf_congr {reader reader' : Yaml.Node → Load Node} {items : List Yaml.Node} {env : Env}
    (same : ∀ n ∈ items, ∀ s, (reader n).run env s = (reader' n).run env s) (s : State) :
    (nodesOf reader items).run env s = (nodesOf reader' items).run env s := by
  induction items generalizing s with
  | nil => rfl
  | cons n rest ih =>
    have later := ih fun m member => same m (List.mem_cons_of_mem _ member)
    rw [nodesOf_cons, nodesOf_cons]
    show (do return some ((reader n).run env s).1 :: (← nodesOf reader rest) : Load _).run env
        ((reader n).run env s).2 =
      (do return some ((reader' n).run env s).1 :: (← nodesOf reader' rest) : Load _).run env
        ((reader' n).run env s).2
    rw [same n List.mem_cons_self s]
    generalize (reader' n).run env s = first
    show (some first.1 :: ((nodesOf reader rest).run env first.2).1,
      ((nodesOf reader rest).run env first.2).2) = _
    rw [later]
    rfl

theorem rootBy_congr {reader reader' : Yaml.Node → Load Node} {d : Yaml.Document} {env : Env}
    (same : ∀ n ∈ d.root.children, ∀ s, (reader n).run env s = (reader' n).run env s) (s : State) :
    (rootBy reader d).run env s = (rootBy reader' d).run env s := by
  unfold rootBy
  split
  next place items found =>
    rw [found] at same
    exact nodesOf_congr same s
  next => rfl

theorem rootOf_stable (d : Yaml.Document) (bottom : Yaml.Node → Load Node) {depth : Nat}
    (deep : d.root.height + maxAliased ≤ depth) {env : Env} (direct : env.throughAlias = false)
    (s : State) :
    (rootBy (nodeOver bottom depth) d).run env s = (rootOf d : Load _).run env s := by
  rw [rootOf_eq]
  apply rootBy_congr
  intro n member s
  have lower := Yaml.Node.height_lt_of_child member
  apply nodeOver_stable <;> unfold Deep <;> rw [direct, if_neg Bool.false_ne_true] <;> omega

/-- Reading ends on every document, be its aliases cyclic or shared. Looking deeper, or at what
another reader makes of the nodes at the bottom, changes nothing; of the nodes that are reached
through aliases no more than the bound are read, all later ones are cut off and replaced, no other
node is, and going beyond the bound is told exactly once. -/
theorem expansion_is_bounded (f : SourceFile) (names : Interner) (d : Yaml.Document) :
    let env : Env := ⟨f.id, d, false⟩
    let start : State := ⟨names, #[], 0, 0⟩
    let traced := ((rootOf d : Traced _).run []).run env start
    let visits := traced.1.2
    let aliased := visits.filter (·.throughAlias)
    (traced.1.1, traced.2) = (rootOf d : Load _).run env start ∧
    (∀ bottom depth, d.root.height + maxAliased ≤ depth → ∀ s,
      (rootBy (nodeOver bottom depth) d).run env s = (rootOf d : Load _).run env s) ∧
    (aliased.filter (!·.cut)).length ≤ maxAliased ∧
    aliased.map (·.cut) = List.replicate (min aliased.length maxAliased) false ++
      List.replicate (aliased.length - maxAliased) true ∧
    (∀ v ∈ visits, v.cut → v.throughAlias) ∧
    (∀ (reader : Yaml.Node → Load Node) n s, maxAliased ≤ s.aliased →
      ((nodeStep reader n).run env.through s).1 = .nil ⟨s.next, env.spanAt n.place⟩) ∧
    expansions (ofDocument f names d).diagnostics =
      if maxAliased < aliased.length then 1 else 0 := by
  intro env start traced visits aliased
  obtain ⟨state, result, faithful⟩ := rootOf_logged d env [] start (.start names)
  have counted : aliased.length = traced.2.aliased := faithful.counted
  have cuts := faithful.cuts
  rw [← counted] at cuts
  refine ⟨Prod.ext result state, ?_, ?_, cuts, faithful.direct, ?_, ?_⟩
  · exact fun bottom depth deep s => rootOf_stable d bottom deep rfl s
  · exact faithful.uncut
  · intro reader n s full
    rw [nodeStep_full]
    · rfl
    · exact fun room => Nat.not_lt.mpr full (room rfl)
  · have emitted : (ofDocument f names d).diagnostics = traced.2.emitted.toList := by
      rw [state]
      rfl
    rw [counted, emitted]
    exact faithful.told

end TreeCheck.Load
