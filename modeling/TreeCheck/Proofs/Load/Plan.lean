import TreeCheck.Proofs.Interner.Sound
import TreeCheck.Proofs.Load.Accepts
import TreeCheck.Proofs.Load.Coupled

/-!
Reading as a plan: which steps are taken, each depending on what the steps before it gave, with the
nodes below asked for. The rules are written for every monad, so they give plans too, and running
the plan of a document node is reading it. What a run of reading keeps is thereby shown once, for
plans, and not rule by rule.
-/

namespace TreeCheck

namespace Yaml

def Node.children : Node → List Node
  | .sequence _ items => items
  | .mapping _ pairs => pairs.map (·.2)
  | _ => []

theorem Node.height_lt_of_child {n child : Node} (member : child ∈ n.children) :
    child.height < n.height := by
  cases n with
  | sequence place items =>
    have := height_le_of_mem (show child ∈ items from member)
    rw [Node.height]
    omega
  | mapping place pairs =>
    obtain ⟨pair, among, rfl⟩ := List.mem_map.mp member
    have := height_le_of_mem_pairs among
    rw [Node.height]
    omega
  | _ => cases member

end Yaml

namespace Load

open Grammar (Spot Record)

inductive Plan (α : Type) where
  | done (a : α)
  | span (n : Yaml.Node) (next : Span → Plan α)
  | site (n : Yaml.Node) (next : Site → Plan α)
  | report (code : Code) (n : Yaml.Node) (message : Text) (next : Plan α)
  | intern (name : Text) (next : Handle → Plan α)
  | ask (n : Yaml.Node) (next : Node → Plan α)

namespace Plan

variable {α β γ : Type}

def bind (p : Plan α) (f : α → Plan β) : Plan β :=
  match p with
  | done a => f a
  | span n next => span n fun s => (next s).bind f
  | site n next => site n fun s => (next s).bind f
  | report code n message next => report code n message (next.bind f)
  | intern name next => intern name fun h => (next h).bind f
  | ask n next => ask n fun node => (next node).bind f

instance : Monad Plan where
  pure := done
  bind := bind

theorem bind_eq (p : Plan α) (f : α → Plan β) : p >>= f = p.bind f :=
  rfl

instance : LawfulMonad Plan := by
  refine LawfulMonad.mk' _ ?id_map (fun _ _ => rfl) ?assoc
  case id_map =>
    intro α p
    show p.bind done = p
    induction p with
    | done a => rfl
    | report code n message next ih => rw [bind, ih]
    | _ n next ih => rw [bind]; congr 1; funext x; exact ih x
  case assoc =>
    intro α β γ p f g
    show (p.bind f).bind g = p.bind fun a => (f a).bind g
    induction p with
    | done a => rfl
    | report code n message next ih => rw [bind, bind, bind, ih]
    | _ n next ih => rw [bind, bind, bind]; congr 1; funext x; exact ih x

instance : Reading Plan where
  spanOf n := span n done
  siteAt n := site n done
  report code n message := report code n message (done ())
  intern name := intern name done

/-- The plan of asking for a node below. -/
def asked (n : Yaml.Node) : Plan Node :=
  ask n done

variable (reader : Yaml.Node → Load Node)

def run : Plan α → Load α
  | done a => pure a
  | span n next => spanOf n >>= fun s => (next s).run
  | site n next => siteAt n >>= fun s => (next s).run
  | report code n message next => Load.report code n message >>= fun _ => next.run
  | intern name next => Load.intern name >>= fun h => (next h).run
  | ask n next => reader n >>= fun node => (next node).run

theorem run_bind (p : Plan α) (f : α → Plan β) :
    (p >>= f).run reader = p.run reader >>= fun a => (f a).run reader := by
  rw [bind_eq]
  induction p with
  | done a => rfl
  | report code n message next ih => simp only [bind, run, ih, bind_assoc]
  | _ n next ih => simp only [bind, run, ih, bind_assoc]

theorem run_map (p : Plan α) (f : α → β) : (f <$> p).run reader = f <$> p.run reader := by
  rw [map_eq_pure_bind, run_bind, map_eq_pure_bind]
  rfl

end Plan

/-! ### A document beside itself -/

def Same (_ : Spot) (n m : Yaml.Node) : Prop :=
  n = m

theorem same_items (spot : Spot) (items : List Yaml.Node) :
    List.Forall₂ (Same spot) items items :=
  List.forall₂_same.mpr fun _ _ => rfl

theorem same_pairs (spot : Text → Spot) (pairs : List (Yaml.Node × Yaml.Node)) :
    PairsLike Same spot pairs pairs :=
  List.forall₂_same.mpr fun _ _ => ⟨rfl, rfl⟩

theorem same_similar : Similar Same where
  other := id
  items := by
    rintro each n _ rfl
    cases n with
    | sequence place items => exact .inr ⟨place, items, items, rfl, rfl, same_items each items⟩
    | _ => exact .inl ⟨rfl, nofun⟩
  record := by
    rintro described n _ rfl
    cases n with
    | mapping place pairs => exact .inr ⟨place, pairs, pairs, rfl, rfl, same_pairs _ pairs⟩
    | _ => exact .inl ⟨rfl, nofun⟩
  body := by
    rintro n _ rfl
    cases n with
    | sequence place items => exact .inr ⟨place, items, items, rfl, rfl, same_items .node items⟩
    | _ => exact .inl ⟨nofun, nofun, rfl⟩
  argument := by
    rintro n _ rfl
    cases named : isNamed n with
    | true => exact .inr ⟨rfl, rfl, rfl⟩
    | false => exact .inl ⟨rfl, rfl, rfl⟩

theorem same_written (n : Yaml.Node) : WrittenLike Same n n := by
  cases n with
  | scalar s => exact .scalar s
  | sequence place items => exact .sequence place (same_items .node items)
  | mapping place pairs => exact .mapping place (same_pairs _ pairs)
  | _ => exact .alias ..

/-! ### Every rule is a plan that is run -/

section

variable (reader : Yaml.Node → Load Node)

/-- A plan and a step of reading that come from one plan for both, whose results are related. -/
def Plan.link : Link Plan Load .same where
  Sim {α β} post p x := ∃ both : Plan {ab : α × β // post ab.1 ab.2},
    p = (fun ab => ab.1.1) <$> both ∧ x = (fun ab => ab.1.2) <$> both.run reader
  pure holds := ⟨.done ⟨(_, _), holds⟩, rfl, rfl⟩
  bind := by
    rintro α β γ δ post goal _ _ f g ⟨both, rfl, rfl⟩ rest
    choose next left right using fun ab : {ab : α × β // post ab.1 ab.2} => rest _ _ ab.2
    refine ⟨both >>= next, ?_, ?_⟩
    · simp only [map_bind, bind_map_left, left]
    · simp only [Plan.run_bind, map_bind, bind_map_left, right]
  spanOf {n m} same := by
    refine ⟨.span n fun s => .done ⟨(s, s), rfl⟩, rfl, ?_⟩
    show spanOf m = spanOf n
    rw [spanOf, spanOf, same]
  siteAt {n m} same := by
    refine ⟨.site n fun s => .done ⟨(s, s), Site.alike_same ▸ rfl⟩, rfl, ?_⟩
    show siteAt m = siteAt n
    rw [siteAt, siteAt, spanOf, spanOf, same]
  report {n m} code message same _ := by
    refine ⟨.report code n message (.done ⟨((), ()), trivial⟩), rfl, ?_⟩
    show Load.report code m message = Load.report code n message
    rw [Load.report, Load.report, spanOf, spanOf, same]
  intern name := ⟨.intern name fun h => .done ⟨(h, h), rfl⟩, rfl, rfl⟩
  absent := rfl
  valid := congrArg _

theorem writtenOf_eq_run (n : Yaml.Node) :
    writtenOf reader n = (writtenOf Plan.asked n).run reader := by
  have coupling : Coupling (Plan.link reader) Eq Same Plan.asked reader := {
    layer := by rw [Node.layer_same]
    similar := same_similar
    sim := by
      rintro n _ rfl
      exact ⟨.ask n fun node => .done ⟨(node, node), rfl⟩, rfl, rfl⟩
    method := by
      rintro n _ rfl
      exact ⟨.ask n fun node => .done ⟨(node, node), rfl, .inl rfl⟩, rfl, rfl⟩ }
  obtain ⟨both, left, right⟩ := writtenOf_sim coupling (same_written n)
  have same : (fun ab : {ab : Node × Node // ab.1 = ab.2} => ab.1.1) = fun ab => ab.1.2 :=
    funext fun ab => ab.2
  rw [left, right, Plan.run_map, same]

end

/-! ### What reading only adds to -/

/-- Names and the count of aliased nodes only grow from the one state to the other, and the interner
stays sound. -/
structure State.Extends (s t : State) : Prop where
  names : s.names.names <+: t.names.names
  aliased : s.aliased ≤ t.aliased
  sound : s.names.Sound → t.names.Sound

theorem State.Extends.refl (s : State) : s.Extends s :=
  ⟨List.prefix_refl _, Nat.le_refl _, id⟩

theorem State.Extends.trans {s t u : State} (first : s.Extends t) (second : t.Extends u) :
    s.Extends u :=
  ⟨first.names.trans second.names, Nat.le_trans first.aliased second.aliased,
    fun sound => second.sound (first.sound sound)⟩

/-- The step only adds to the state. -/
def Grows {α : Type} (x : Load α) : Prop :=
  ∀ (env : Env) (s : State), s.Extends (x.run env s).2

section

variable {α β : Type}

theorem Grows.pure (a : α) : Grows (Pure.pure a) :=
  fun _ s => .refl s

theorem Grows.bind {x : Load α} {f : α → Load β} (first : Grows x) (rest : ∀ a, Grows (f a)) :
    Grows (x >>= f) :=
  fun env s => (first env s).trans (rest _ env _)

theorem spanOf_grows (n : Yaml.Node) : Grows (spanOf n) :=
  fun _ s => .refl s

theorem siteAt_grows (n : Yaml.Node) : Grows (siteAt n) :=
  fun _ s => ⟨List.prefix_refl _, Nat.le_refl s.aliased, id⟩

theorem report_grows (code : Code) (n : Yaml.Node) (message : Text) :
    Grows (report code n message) :=
  fun _ s => ⟨List.prefix_refl _, Nat.le_refl s.aliased, id⟩

theorem intern_grows (name : Text) : Grows (intern name) :=
  fun _ s => ⟨s.names.intern_extends _, Nat.le_refl s.aliased, fun sound => sound.intern _⟩

variable {reader : Yaml.Node → Load Node}

theorem Plan.run_grows (grows : ∀ n, Grows (reader n)) (p : Plan α) : Grows (p.run reader) := by
  induction p with
  | done a => exact .pure a
  | span n next ih => exact (spanOf_grows n).bind ih
  | site n next ih => exact (siteAt_grows n).bind ih
  | report code n message next ih => exact (report_grows code n message).bind fun _ => ih
  | intern name next ih => exact (intern_grows name).bind ih
  | ask n next ih => exact (grows n).bind ih

theorem writtenOf_grows (grows : ∀ n, Grows (reader n)) (n : Yaml.Node) :
    Grows (writtenOf reader n) := by
  rw [writtenOf_eq_run]
  exact Plan.run_grows grows _

end

/-! ### Following aliases -/

/-- The node that a document node stands for, not counted. -/
def followed (reader : Yaml.Node → Load Node) (n : Yaml.Node) : Load Node := do
  match n with
  | .alias _ _ number =>
    match (← read).document.target? number with
    | some target => withReader (fun env => { env with throughAlias := true }) (reader target)
    | none => writtenOf reader n
  | _ => writtenOf reader n

def Env.Refers (env : Env) (n target : Yaml.Node) : Prop :=
  ∃ place name number, n = .alias place name number ∧ env.document.target? number = some target

def Env.spanAt (env : Env) (place : Yaml.Place) : Span :=
  ⟨env.file, place.line, place.column⟩

def Env.through (env : Env) : Env :=
  { env with throughAlias := true }

section

variable (reader : Yaml.Node → Load Node) (n : Yaml.Node) (env : Env) (s : State)

theorem nodeStep_eq :
    nodeStep reader n = (do if ← countAliased n then placeholder n else followed reader n) := by
  cases n <;> rfl

variable {n env} in
theorem followed_target {target : Yaml.Node} (refers : env.Refers n target) :
    (followed reader n).run env s = (reader target).run env.through s := by
  obtain ⟨place, name, number, rfl, found⟩ := refers
  show (match env.document.target? number with
    | some target => withReader (fun env => { env with throughAlias := true }) (reader target)
    | none => writtenOf reader _ : Load Node).run env s = _
  rw [found]
  rfl

variable {n env} in
theorem followed_written (own : ∀ target, ¬env.Refers n target) :
    (followed reader n).run env s = (writtenOf reader n).run env s := by
  unfold followed
  split
  next place name number =>
    show (match env.document.target? number with
      | some target => withReader (fun env => { env with throughAlias := true }) (reader target)
      | none => writtenOf reader _ : Load Node).run env s = _
    split
    next target found => exact absurd ⟨place, name, number, rfl, found⟩ (own target)
    next => rfl
  next => rfl

def expansionMessage : Text :=
  text "document expands more than " ++ Text.ofNat maxAliased ++ text " nodes through aliases"

/-- The state with the node counted, if it is reached through an alias. -/
def State.counted : State :=
  { s with aliased := if env.throughAlias then s.aliased + 1 else s.aliased }

/-- The state after a node was cut off. The first one is reported. -/
def State.cutOff : State :=
  { s with
    aliased := s.aliased + 1
    emitted := if s.aliased = maxAliased then
        s.emitted.push (.error .malformed (env.spanAt n.place) expansionMessage)
      else s.emitted }

/-- There is room for one more node, if it has to be counted. -/
def State.HasRoom : Prop :=
  env.throughAlias = true → s.aliased < maxAliased

variable {env s}

theorem State.extends_counted : s.Extends (s.counted env) := by
  refine ⟨List.prefix_refl _, ?_, id⟩
  unfold State.counted
  split <;> simp

theorem State.full_of_not_room (full : ¬s.HasRoom env) :
    env.throughAlias = true ∧ maxAliased ≤ s.aliased := by
  unfold State.HasRoom at full
  rw [Classical.not_imp, Nat.not_lt] at full
  exact full

theorem countAliased_room (room : s.HasRoom env) :
    (countAliased n).run env s = (false, s.counted env) := by
  obtain ⟨file, document, through⟩ := env
  cases through with
  | false => rfl
  | true =>
    show (if s.aliased + 1 ≤ maxAliased then pure false else _ : Load Bool).run _ _ = _
    rw [if_pos (Nat.succ_le_of_lt (room rfl))]
    rfl

theorem countAliased_full (full : ¬s.HasRoom env) :
    (countAliased n).run env s = (true, s.cutOff n env) := by
  obtain ⟨through, full⟩ := State.full_of_not_room full
  obtain ⟨file, document, through⟩ := env
  cases through
  show (if s.aliased + 1 ≤ maxAliased then pure false else (do
    if s.aliased + 1 = maxAliased + 1 then fail n expansionMessage
    return true) : Load Bool).run _ _ = _
  rw [if_neg (by omega)]
  unfold State.cutOff
  by_cases first : s.aliased = maxAliased
  · rw [if_pos first, if_pos (by omega)]
    rfl
  · rw [if_neg first, if_neg (by omega)]
    rfl

theorem nodeStep_run :
    (nodeStep reader n).run env s = (if ((countAliased n).run env s).1 then placeholder n
      else followed reader n : Load Node).run env ((countAliased n).run env s).2 := by
  rw [nodeStep_eq]
  rfl

theorem nodeStep_room (room : s.HasRoom env) :
    (nodeStep reader n).run env s = (followed reader n).run env (s.counted env) := by
  rw [nodeStep_run, countAliased_room n room]
  rfl

theorem nodeStep_full (full : ¬s.HasRoom env) :
    (nodeStep reader n).run env s = (placeholder n : Load Node).run env (s.cutOff n env) := by
  rw [nodeStep_run, countAliased_full n full]
  rfl

variable {reader}

theorem nodeStep_grows (grows : ∀ n, Grows (reader n)) : Grows (nodeStep reader n) := by
  have follows : Grows (followed reader n) := by
    intro env s
    by_cases own : ∃ target, env.Refers n target
    · obtain ⟨target, refers⟩ := own
      rw [followed_target reader s refers]
      exact grows target _ s
    · rw [followed_written reader s (not_exists.mp own)]
      exact writtenOf_grows grows n env s
  intro env s
  by_cases room : s.HasRoom env
  · rw [nodeStep_room reader n room]
    exact State.extends_counted.trans (follows env _)
  · rw [nodeStep_full reader n room]
    exact ⟨List.prefix_refl _, Nat.le_succ _, id⟩

theorem node_room {depth : Nat} (room : s.HasRoom env) :
    (node (depth + 1) n : Load Node).run env s =
      (followed (node depth) n).run env (s.counted env) :=
  nodeStep_room _ n room

theorem node_full {depth : Nat} (full : ¬s.HasRoom env) :
    (node (depth + 1) n : Load Node).run env s =
      (placeholder n : Load Node).run env (s.cutOff n env) :=
  nodeStep_full _ n full

theorem node_written {depth : Nat} (direct : env.throughAlias = false)
    (own : ∀ target, ¬env.Refers n target) :
    (node (depth + 1) n : Load Node).run env s =
      (writtenOf (node depth) n : Load Node).run env s := by
  have uncounted : s.counted env = s := by rw [State.counted, direct]; rfl
  rw [node_room n (fun through => absurd (direct.symm.trans through) (by decide)),
    followed_written _ _ own, uncounted]

theorem node_grows (depth : Nat) : ∀ n, Grows (node depth n) := by
  induction depth with
  | zero => exact fun n => (siteAt_grows n).bind fun _ => .pure _
  | succ depth ih => exact fun n => nodeStep_grows n ih

theorem nodesOf_cons (reader : Yaml.Node → Load Node) (rest : List Yaml.Node) :
    nodesOf reader (n :: rest) = (do
      let node ← reader n
      return some node :: (← nodesOf reader rest)) := by
  unfold nodesOf
  rw [List.mapM_cons, bind_map_left]

theorem nodesOf_grows (grows : ∀ n, Grows (reader n)) (items : List Yaml.Node) :
    Grows (nodesOf reader items) := by
  induction items with
  | nil => exact .pure _
  | cons n rest ih =>
    rw [nodesOf_cons]
    exact (grows n).bind fun _ => ih.bind fun _ => .pure _

end

def rootBy {M : Type → Type} [Reading M] (reader : Yaml.Node → M Node) (d : Yaml.Document) :
    M (List (Option Node)) := do
  match d.root with
  | .sequence _ items => nodesOf reader items
  | n =>
    if !n.isNull then fail n (text "document must be a sequence of nodes")
    return []

theorem rootOf_eq {M : Type → Type} [Following M] (d : Yaml.Document) :
    (rootOf d : M _) = rootBy (node (d.root.height + maxAliased + 2)) d := by
  obtain ⟨root, anchors⟩ := d
  cases root <;> rfl

def outcomeOf (f : SourceFile) (last : List (Option Node) × State) : Outcome where
  tree := ⟨f.id, f.path, last.1⟩
  names := last.2.names
  diagnostics := last.2.emitted.toList
  failure := if last.2.emitted.isEmpty then none else
    some (.malformed f.path last.2.emitted.size)

theorem ofDocument_eq (f : SourceFile) (names : Interner) (d : Yaml.Document) :
    ofDocument f names d =
      outcomeOf f ((rootOf d : Load _).run ⟨f.id, d, false⟩ ⟨names, #[], 0, 0⟩) :=
  rfl

end Load

end TreeCheck
