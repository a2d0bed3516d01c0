import TreeCheck.Proofs.Load.Plan

/-!
Two runs of reading, step by step. Plans are alike if they take the same steps as long as the
answers are related; two runs of such plans keep any relation between states that the single steps
keep. Some relations hold only if the runs do not go too far, say in the names that they add: what
is assumed of the last states then has to hold of all states before.
-/

namespace TreeCheck.Load

open Grammar (Spot)

section

/-- Two plans that take the same steps while their answers are related; `answers` says how the
nodes below are. -/
inductive Plan.Alike (l : Likeness)
    (answers : Yaml.Node → Yaml.Node → (Node → Node → Prop) → Prop) {α β : Type}
    (post : α → β → Prop) : Plan α → Plan β → Prop
  | done {a : α} {b : β} : post a b → Alike l answers post (.done a) (.done b)
  | span {n m : Yaml.Node} {next : Span → Plan α} {next' : Span → Plan β} :
    n.place = m.place → (∀ s t, l.span s t → Alike l answers post (next s) (next' t)) →
      Alike l answers post (.span n next) (.span m next')
  | site {n m : Yaml.Node} {next : Site → Plan α} {next' : Site → Plan β} :
    n.place = m.place → (∀ s t, Site.Alike l s t → Alike l answers post (next s) (next' t)) →
      Alike l answers post (.site n next) (.site m next')
  | report {n m : Yaml.Node} (code : Code) {message : Text} {next : Plan α} {next' : Plan β} :
    n.place = m.place → Told message → Alike l answers post next next' →
      Alike l answers post (.report code n message next) (.report code m message next')
  | intern (name : Text) {next : Handle → Plan α} {next' : Handle → Plan β} :
    (∀ h k, l.handle h k → Alike l answers post (next h) (next' k)) →
      Alike l answers post (.intern name next) (.intern name next')
  | ask {n m : Yaml.Node} {given : Node → Node → Prop} {next : Node → Plan α}
      {next' : Node → Plan β} :
    answers n m given → (∀ a b, given a b → Alike l answers post (next a) (next' b)) →
      Alike l answers post (.ask n next) (.ask m next')

variable {l : Likeness} {answers : Yaml.Node → Yaml.Node → (Node → Node → Prop) → Prop}

theorem Plan.Alike.bind {α β γ δ : Type} {post : α → β → Prop} {goal : γ → δ → Prop} {p : Plan α}
    {q : Plan β} {f : α → Plan γ} {g : β → Plan δ} (first : Plan.Alike l answers post p q)
    (rest : ∀ a b, post a b → Plan.Alike l answers goal (f a) (g b)) :
    Plan.Alike l answers goal (p >>= f) (q >>= g) := by
  induction first with
  | done holds => exact rest _ _ holds
  | span same _ ih => exact .span same ih
  | site same _ ih => exact .site same ih
  | report code same told _ ih => exact .report code same told ih
  | intern name _ ih => exact .intern name ih
  | ask given _ ih => exact .ask given ih

def Plan.alike (absent : l.handle .none .none)
    (valid : ∀ {h k : Handle}, l.handle h k → h.isValid = k.isValid)
    (answers : Yaml.Node → Yaml.Node → (Node → Node → Prop) → Prop) : Link Plan Plan l where
  Sim := Plan.Alike l answers
  pure := .done
  bind := .bind
  spanOf same := .span same fun _ _ => .done
  siteAt same := .site same fun _ _ => .done
  report code _ same told := .report code same told (.done trivial)
  intern name := .intern name fun _ _ => .done
  absent := absent
  valid := valid

/-- How the nodes below are related, if they are alike in their spots. -/
inductive Answers (node : Node → Node → Prop) (like : Spot → Yaml.Node → Yaml.Node → Prop)
    (n m : Yaml.Node) : (Node → Node → Prop) → Prop
  | node : like .node n m → Answers node like n m node
  | method : like .method n m →
    Answers node like n m fun a b => node a b ∧ (n.place = m.place ∨ a.isFunction)

theorem written_alike {node : Node → Node → Prop} {like : Spot → Yaml.Node → Yaml.Node → Prop}
    (absent : l.handle .none .none) (valid : ∀ {h k : Handle}, l.handle h k → h.isValid = k.isValid)
    (layer : ∀ {a b : Node}, node a b ↔ Node.Layer l node a b) (similar : Similar like)
    {n m : Yaml.Node} (written : WrittenLike like n m) :
    Plan.Alike l (Answers node like) node (writtenOf Plan.asked n) (writtenOf Plan.asked m) := by
  let link := Plan.alike absent valid (Answers node like)
  have coupling : Coupling link node like Plan.asked Plan.asked := {
    layer := layer
    similar := similar
    sim := fun same => .ask (.node same) fun _ _ => .done
    method := fun same => .ask (.method same) fun _ _ holds => .done holds }
  exact writtenOf_sim coupling written

end

/-! ### Runs -/

/-- From related states the two steps end in related states with related results, unless they go
too far. -/
def Conform (env env' : Env) (rel within : State → State → Prop) {α β : Type}
    (post : α → β → Prop) (x : Load α) (y : Load β) : Prop :=
  ∀ s s', rel s s' → within (x.run env s).2 (y.run env' s').2 →
    post (x.run env s).1 (y.run env' s').1 ∧ rel (x.run env s).2 (y.run env' s').2

def State.told (s : State) (d : Diagnostic) : State :=
  { s with emitted := s.emitted.push d }

structure Paired (l : Likeness) (env env' : Env) (rel within : State → State → Prop) : Prop where
  span (place : Yaml.Place) : l.span (env.spanAt place) (env'.spanAt place)
  next {s s' : State} : rel s s' →
    s.next = s'.next ∧ rel { s with next := s.next + 1 } { s' with next := s'.next + 1 }
  report {s s' : State} (code : Code) (place : Yaml.Place) (message : Text) : rel s s' →
    rel (s.told (.error code (env.spanAt place) message))
      (s'.told (.error code (env'.spanAt place) message))
  intern {s s' : State} (t : Text) : rel s s' →
    within { s with names := (s.names.intern t).2 } { s' with names := (s'.names.intern t).2 } →
      l.handle (s.names.intern t).1 (s'.names.intern t).1 ∧
        rel { s with names := (s.names.intern t).2 } { s' with names := (s'.names.intern t).2 }
  back {s s' t t' : State} : s.Extends t → s'.Extends t' → within t t' → within s s'

section

variable {l : Likeness} {env env' : Env} {rel within : State → State → Prop}
  (paired : Paired l env env' rel within) {α β γ δ : Type} {post : α → β → Prop}
  {goal : γ → δ → Prop}
include paired

theorem Paired.span_of {n m : Yaml.Node} (same : n.place = m.place) :
    l.span (env.spanAt n.place) (env'.spanAt m.place) :=
  same ▸ paired.span n.place

theorem report_conform {n m : Yaml.Node} (code : Code) (message : Text)
    (same : n.place = m.place) :
    Conform env env' rel within (fun _ _ => True) (report code n message)
      (report code m message) := by
  intro s s' related _
  have kept := paired.report code n.place message related
  nth_rewrite 2 [same] at kept
  exact ⟨trivial, kept⟩

theorem Conform.bind {x : Load α} {y : Load β} {f : α → Load γ} {g : β → Load δ}
    (first : Conform env env' rel within post x y)
    (rest : ∀ a b, post a b → Conform env env' rel within goal (f a) (g b))
    (onward : (∀ s s', within s s') ∨ (∀ a, Grows (f a)) ∧ ∀ b, Grows (g b)) :
    Conform env env' rel within goal (x >>= f) (y >>= g) := by
  intro s s' related near
  have nearer : within (x.run env s).2 (y.run env' s').2 := by
    rcases onward with always | ⟨grows, grows'⟩
    · exact always _ _
    · exact paired.back (grows _ env _) (grows' _ env' _) near
  obtain ⟨holds, kept⟩ := first s s' related nearer
  exact rest _ _ holds _ _ kept near

theorem Plan.Alike.conform {answers : Yaml.Node → Yaml.Node → (Node → Node → Prop) → Prop}
    {reader reader' : Yaml.Node → Load Node} {p : Plan α} {q : Plan β}
    (alike : Plan.Alike l answers post p q)
    (onward : (∀ s s', within s s') ∨ (∀ n, Grows (reader n)) ∧ ∀ n, Grows (reader' n))
    (answered : ∀ {n m given}, answers n m given →
      Conform env env' rel within given (reader n) (reader' m)) :
    Conform env env' rel within post (p.run reader) (q.run reader') := by
  have next {γ δ : Type} {step : γ → δ → Prop} {x : Load γ} {y : Load δ} {f : γ → Plan α}
      {g : δ → Plan β} (first : Conform env env' rel within step x y)
      (rest : ∀ a b, step a b →
        Conform env env' rel within post ((f a).run reader) ((g b).run reader')) :
      Conform env env' rel within post (do (f (← x)).run reader) (do (g (← y)).run reader') := by
    refine .bind paired first rest (onward.imp_right fun grows => ⟨fun a => ?_, fun b => ?_⟩)
    · exact (f a).run_grows grows.1
    · exact (g b).run_grows grows.2
  induction alike with
  | done holds => exact fun _ _ related _ => ⟨holds, related⟩
  | span same _ ih =>
    exact next (fun s s' related _ => ⟨paired.span_of same, related⟩) ih
  | site same _ ih =>
    refine next (fun s s' related _ => ?_) ih
    obtain ⟨id_eq, kept⟩ := paired.next related
    exact ⟨⟨id_eq, paired.span_of same⟩, kept⟩
  | report code same _ _ ih =>
    exact next (report_conform paired code _ same) fun _ _ _ => ih
  | intern name _ ih =>
    exact next (fun s s' related near => paired.intern _ related near) ih
  | ask given _ ih => exact next (answered given) ih

theorem writtenOf_conform {node : Node → Node → Prop}
    {like : Spot → Yaml.Node → Yaml.Node → Prop} (absent : l.handle .none .none)
    (valid : ∀ {h k : Handle}, l.handle h k → h.isValid = k.isValid)
    (layer : ∀ {a b : Node}, node a b ↔ Node.Layer l node a b) (similar : Similar like)
    {reader reader' : Yaml.Node → Load Node}
    (onward : (∀ s s', within s s') ∨ (∀ n, Grows (reader n)) ∧ ∀ n, Grows (reader' n))
    (answered : ∀ {n m given}, Answers node like n m given →
      Conform env env' rel within given (reader n) (reader' m))
    {n m : Yaml.Node} (written : WrittenLike like n m) :
    Conform env env' rel within node (writtenOf reader n) (writtenOf reader' m) := by
  rw [writtenOf_eq_run, writtenOf_eq_run]
  exact (written_alike absent valid layer similar written).conform paired onward answered

theorem nodesOf_conform {node : Node → Node → Prop} {reader reader' : Yaml.Node → Load Node}
    (grows : ∀ n, Grows (reader n)) (grows' : ∀ n, Grows (reader' n)) {xs ys : List Yaml.Node}
    (each : List.Forall₂ (fun n m => Conform env env' rel within node (reader n) (reader' m))
      xs ys) :
    Conform env env' rel within (List.Forall₂ (Option.Rel node)) (nodesOf reader xs)
      (nodesOf reader' ys) := by
  have later {reader : Yaml.Node → Load Node} (grows : ∀ n, Grows (reader n))
      (a : Option Node) (rest : List Yaml.Node) : Grows (do return a :: (← nodesOf reader rest)) :=
    (nodesOf_grows grows rest).bind fun _ => .pure _
  induction each with
  | nil => exact fun _ _ related _ => ⟨.nil, related⟩
  | @cons n m xs ys first _ ih =>
    rw [nodesOf_cons, nodesOf_cons]
    refine .bind paired first (fun a b here => ?_)
      (.inr ⟨fun _ => later grows _ _, fun _ => later grows' _ _⟩)
    refine .bind paired ih (fun as bs others s s' related _ => ?_)
      (.inr ⟨fun _ => .pure _, fun _ => .pure _⟩)
    exact ⟨.cons (.some here) others, related⟩

theorem rootBy_conform {node : Node → Node → Prop} {like : Spot → Yaml.Node → Yaml.Node → Prop}
    (similar : Similar like) {reader reader' : Yaml.Node → Load Node}
    (grows : ∀ n, Grows (reader n)) (grows' : ∀ n, Grows (reader' n))
    (read : ∀ n m, like .node n m → Conform env env' rel within node (reader n) (reader' m))
    {d d' : Yaml.Document} (roots : like (.items .node) d.root d'.root) :
    Conform env env' rel within (List.Forall₂ (Option.Rel node)) (rootBy reader d)
      (rootBy reader' d') := by
  obtain ⟨root, anchors⟩ := d
  obtain ⟨root', anchors'⟩ := d'
  rcases similar.items roots with
    ⟨rfl : root = root', unlisted⟩ | ⟨place, xs, ys, same, same', items⟩
  · have told : Conform env env' rel within (List.Forall₂ (Option.Rel node))
        (do
          if !root.isNull then fail root (text "document must be a sequence of nodes")
          return [])
        (do
          if !root.isNull then fail root (text "document must be a sequence of nodes")
          return []) := by
      split
      · exact .bind paired (report_conform paired .malformed _ rfl)
          (fun _ _ _ _ _ related _ => ⟨.nil, related⟩) (.inr ⟨fun _ => .pure _, fun _ => .pure _⟩)
      · exact fun _ _ related _ => ⟨.nil, related⟩
    cases root with
    | sequence place xs => exact absurd rfl (unlisted place xs)
    | _ => exact told
  · cases same
    cases same'
    exact nodesOf_conform paired grows grows' (items.imp read)

end

/-! ### Smaller parts of documents that are alike -/

def Inside (like : Spot → Yaml.Node → Yaml.Node → Prop) (small small' : Yaml.Node → Prop)
    (spot : Spot) (n m : Yaml.Node) : Prop :=
  like spot n m ∧ small n ∧ small' m

section

variable {like : Spot → Yaml.Node → Yaml.Node → Prop} {small small' : Yaml.Node → Prop}

theorem inside_items {spot : Spot} {xs ys : List Yaml.Node} (items : List.Forall₂ (like spot) xs ys)
    (smaller : ∀ n ∈ xs, small n) (smaller' : ∀ m ∈ ys, small' m) :
    List.Forall₂ (Inside like small small' spot) xs ys := by
  induction items with
  | nil => exact .nil
  | cons first _ ih =>
    refine .cons ⟨first, smaller _ List.mem_cons_self, smaller' _ List.mem_cons_self⟩ (ih ?_ ?_)
    · exact fun n member => smaller n (List.mem_cons_of_mem _ member)
    · exact fun m member => smaller' m (List.mem_cons_of_mem _ member)

theorem inside_pairs {spot : Text → Spot} {xs ys : List (Yaml.Node × Yaml.Node)}
    (pairs : PairsLike like spot xs ys) (smaller : ∀ n ∈ xs.map (·.2), small n)
    (smaller' : ∀ m ∈ ys.map (·.2), small' m) :
    PairsLike (Inside like small small') spot xs ys := by
  unfold PairsLike at *
  induction pairs with
  | nil => exact .nil
  | cons first _ ih =>
    rw [List.map_cons, List.forall_mem_cons] at smaller smaller'
    exact .cons ⟨first.1, first.2, smaller.1, smaller'.1⟩ (ih smaller.2 smaller'.2)

theorem inside_written {n m : Yaml.Node} (written : WrittenLike like n m)
    (smaller : ∀ child ∈ n.children, small child) (smaller' : ∀ child ∈ m.children, small' child) :
    WrittenLike (Inside like small small') n m := by
  cases written with
  | scalar s => exact .scalar s
  | sequence place items => exact .sequence place (inside_items items smaller smaller')
  | mapping place pairs => exact .mapping place (inside_pairs pairs smaller smaller')
  | _ => exact .alias ..

theorem inside_similar (similar : Similar like)
    (closed : ∀ n, small n → ∀ child ∈ n.children, small child)
    (closed' : ∀ n, small' n → ∀ child ∈ n.children, small' child) :
    Similar (Inside like small small') where
  other alike := similar.other alike.1
  items := by
    rintro each n m ⟨alike, holds, holds'⟩
    rcases similar.items alike with same | ⟨place, xs, ys, rfl, rfl, items⟩
    · exact .inl same
    · exact .inr ⟨place, xs, ys, rfl, rfl, inside_items items (closed _ holds) (closed' _ holds')⟩
  record := by
    rintro described n m ⟨alike, holds, holds'⟩
    rcases similar.record alike with same | ⟨place, xs, ys, rfl, rfl, pairs⟩
    · exact .inl same
    · exact .inr ⟨place, xs, ys, rfl, rfl, inside_pairs pairs (closed _ holds) (closed' _ holds')⟩
  body := by
    rintro n m ⟨alike, holds, holds'⟩
    rcases similar.body alike with ⟨left, right, alike⟩ | ⟨place, xs, ys, rfl, rfl, items⟩
    · exact .inl ⟨left, right, alike, holds, holds'⟩
    · exact .inr ⟨place, xs, ys, rfl, rfl, inside_items items (closed _ holds) (closed' _ holds')⟩
  argument := by
    rintro n m ⟨alike, holds, holds'⟩
    rcases similar.argument alike with ⟨left, right, alike⟩ | ⟨left, right, alike⟩
    · exact .inl ⟨left, right, alike, holds, holds'⟩
    · exact .inr ⟨left, right, alike, holds, holds'⟩

end

end TreeCheck.Load
