import TreeCheck.Load.Turns
import TreeCheck.Proofs.Load.Histories

/-!
Reading in turns is reading. If one interner answers all the questions, with nothing in between,
what is found out is what reading finds out. And whoever answers them, and whatever was interned in
between: if every answer is right in an interner of a later time, reading under that interner finds
out the same, and adds nothing to it.
-/

namespace TreeCheck.Load

/-! ### Questions and answers -/

namespace Asking

variable {α β γ : Type}

theorem bind_eq (x : Asking α) (f : α → Asking β) : x >>= f = x.bind f :=
  rfl

instance : LawfulMonad Asking := by
  refine LawfulMonad.mk' _ ?id_map (fun _ _ => rfl) ?assoc
  case id_map =>
    intro α x
    show x.bind done = x
    induction x with
    | done a => rfl
    | ask t next ih => rw [bind]; congr 1; funext h; exact ih h
  case assoc =>
    intro α β γ x f g
    show (x.bind f).bind g = x.bind fun a => (f a).bind g
    induction x with
    | done a => rfl
    | ask t next ih => rw [bind, bind, bind]; congr 1; funext h; exact ih h

theorem serve_bind (x : Asking α) (f : α → Asking β) (names : Interner) :
    (x >>= f).serve names = (f (x.serve names).1).serve (x.serve names).2 := by
  rw [bind_eq]
  induction x generalizing names with
  | done a => rfl
  | ask t next ih => exact ih _ _

/-- Every interner that has grown from the given one leads both computations to the same end. -/
def LeadsTo (names : Interner) (x y : Asking α) : Prop :=
  ∀ later : Interner, later.Sound → names.names <+: later.names → x.serve later = y.serve later

variable {names grown : Interner} {x : Asking α}

theorem LeadsTo.refl (x : Asking α) : x.LeadsTo names x :=
  fun _ _ _ => rfl

theorem LeadsTo.later {y : Asking α} (leads : x.LeadsTo names y)
    (extended : names.names <+: grown.names) : x.LeadsTo grown y :=
  fun later sound kept => leads later sound (extended.trans kept)

/-- An answer that is right leads on: every later interner gives it too, and adds nothing. -/
theorem LeadsTo.answer {t : Text} {next : Handle → Asking α} (leads : x.LeadsTo names (ask t next))
    {h : Handle} (known : names.find? h = some t) : x.LeadsTo names (next h) := by
  intro later sound kept
  rw [leads later sound kept, serve, sound.intern_of_find? (Interner.find?_of_prefix kept known)]

end Asking

/-! ### One interner for all the questions -/

/-- The state of a reading that has come as far, under an interner. -/
def Progress.under (p : Progress) (names : Interner) : State :=
  ⟨names, p.emitted, p.aliased, p.next⟩

/-- From the same state both go on to the same state, with results that are related. -/
def Served {α β : Type} (post : α → β → Prop) (x : Turnwise α) (y : Load β) : Prop :=
  ∀ (env : Env) (p : Progress) (names : Interner),
    post ((x.run env p).serve names).1.1 (y.run env (p.under names)).1 ∧
      (y.run env (p.under names)).2 =
        ((x.run env p).serve names).1.2.under ((x.run env p).serve names).2

section

variable {α β γ δ : Type} {post : α → β → Prop} {goal : γ → δ → Prop}

theorem Served.bind {x : Turnwise α} {y : Load β} {f : α → Turnwise γ} {g : β → Load δ}
    (first : Served post x y) (rest : ∀ a b, post a b → Served goal (f a) (g b)) :
    Served goal (x >>= f) (y >>= g) := by
  intro env p names
  obtain ⟨holds, kept⟩ := first env p names
  have served : ((x >>= f).run env p).serve names =
      ((f ((x.run env p).serve names).1.1).run env ((x.run env p).serve names).1.2).serve
        ((x.run env p).serve names).2 :=
    Asking.serve_bind (x.run env p) _ names
  have read : (y >>= g).run env (p.under names) =
      (g (y.run env (p.under names)).1).run env (y.run env (p.under names)).2 := rfl
  rw [served, read, kept]
  exact rest _ _ holds _ _ _

theorem Served.report {n m : Yaml.Node} (code : Code) (message : Text)
    (same : n.place = m.place) :
    Served (fun _ _ => True) (Turnwise.report code n message) (Load.report code m message) := by
  intro env p names
  refine ⟨trivial, ?_⟩
  show State.mk _ (p.emitted.push (.error code (env.spanAt m.place) message)) _ _ = _
  rw [← same]
  rfl

/-- A reading in turns, all of whose questions are answered from one interner, beside a reading
that holds the interner. -/
def turnwiseLink : Link Turnwise Load .same where
  Sim := Served
  pure holds _ _ _ := ⟨holds, rfl⟩
  bind := .bind
  spanOf same env p names := ⟨congrArg env.spanAt same, rfl⟩
  siteAt {n m} same env p names := by
    refine ⟨?_, rfl⟩
    rw [Site.alike_same]
    exact congrArg (fun place => Site.mk p.next (env.spanAt place)) same
  report code message same _ := .report code message same
  intern name _ _ _ := ⟨rfl, rfl⟩
  absent := rfl
  valid := congrArg _

theorem countAliased_served (n : Yaml.Node) :
    Served Eq (Turnwise.countAliased n) (countAliased n) := by
  have pure (b : Bool) : Served Eq (Pure.pure b) (Pure.pure b) := turnwiseLink.pure rfl
  refine turnwiseLink.same (x := read) (y := read) (fun _ _ _ => ⟨rfl, rfl⟩) fun env => ?_
  split
  · exact pure false
  refine turnwiseLink.same (fun _ _ _ => ⟨rfl, rfl⟩) fun count => ?_
  split
  · exact pure false
  split
  · exact Served.bind (.report .malformed _ (rfl : n.place = n.place)) fun _ _ _ => pure true
  · exact pure true

theorem nodeStep_served {below : Yaml.Node → Turnwise Node} {other : Yaml.Node → Load Node}
    (sim : ∀ n, Served Eq (below n) (other n)) (n : Yaml.Node) :
    Served Eq (nodeStep below n) (nodeStep other n) := by
  have coupling : Coupling turnwiseLink Eq Same below other := {
    layer := by rw [Node.layer_same]
    similar := same_similar
    sim := by
      rintro n _ rfl
      exact sim n
    method := by
      rintro n _ rfl
      exact turnwiseLink.mono (sim n) fun _ _ same => ⟨same, .inl rfl⟩ }
  refine turnwiseLink.same (countAliased_served n) fun cut => ?_
  cases cut with
  | true => exact placeholder_sim turnwiseLink rfl coupling.layer.mpr
  | false =>
    have written := writtenOf_sim coupling (same_written n)
    cases n with
    | «alias» place name number =>
      refine turnwiseLink.same (x := Following.target? number) (y := Following.target? number)
        (fun _ _ _ => ⟨rfl, rfl⟩) fun found => ?_
      cases found with
      | some target => exact fun env p names => sim target env.through p names
      | none => exact written
    | _ => exact written

theorem node_served (depth : Nat) :
    ∀ n, Served Eq (node depth n) (node depth n) := by
  induction depth with
  | zero => exact fun n => placeholder_sim turnwiseLink rfl (by rw [Node.layer_same]; exact id)
  | succ depth ih => exact nodeStep_served ih

theorem rootBy_served {below : Yaml.Node → Turnwise Node} {other : Yaml.Node → Load Node}
    (each : ∀ n, Served Eq (below n) (other n)) (d : Yaml.Document) :
    Served Eq (rootBy below d) (rootBy other d) := by
  obtain ⟨root, anchors⟩ := d
  have told : Served Eq
      (do
        if !root.isNull then fail root (text "document must be a sequence of nodes")
        return ([] : List (Option Node)))
      (do
        if !root.isNull then fail root (text "document must be a sequence of nodes")
        return []) := by
    split
    · exact Served.bind (.report .malformed _ (rfl : root.place = root.place)) fun _ _ _ =>
        turnwiseLink.pure rfl
    · exact turnwiseLink.pure rfl
  cases root with
  | sequence place items =>
    have all : Served (List.Forall₂ Eq) (nodesOf below items) (nodesOf other items) := by
      refine turnwiseLink.mapM (same_items .node items) ?_
      rintro n _ rfl
      exact turnwiseLink.map (each n) fun _ _ => congrArg some
    rwa [List.forall₂_eq_eq_eq] at all
  | _ => exact told

end

/-! ### Whole files -/

theorem turnsOf_serve (f : SourceFile) (d : Yaml.Document) (names : Interner) :
    ((turnsOf f d).serve names).1.under ((turnsOf f d).serve names).2 = ofDocument f names d := by
  have read := rootBy_served (node_served (d.root.height + maxAliased + 2)) d
  rw [← rootOf_eq, ← rootOf_eq] at read
  obtain ⟨nodes, last⟩ := read ⟨f.id, d, false⟩ ⟨#[], 0, 0⟩ names
  have same : (_, _) = (rootOf d : Load _).run ⟨f.id, d, false⟩ ⟨names, #[], 0, 0⟩ :=
    Prod.ext nodes last.symm
  rw [turnsOf, Asking.serve_bind, ofDocument_eq, ← same]
  rfl

theorem turns_serve (f : SourceFile) (names : Interner) :
    ((turns f).serve names).1.under ((turns f).serve names).2 = ofFile f names := by
  unfold turns ofFile
  cases Yaml.Document.read f.content with
  | error fault => rfl
  | ok found =>
    cases found with
    | none => rfl
    | some d => exact turnsOf_serve f d names

/-- Once a reading in turns is done, reading under any later interner finds out the same, and adds
nothing. -/
theorem ofFile_of_leadsTo {f : SourceFile} {names : Interner} {found : Findings}
    (leads : (turns f).LeadsTo names (.done found)) {later : Interner} (sound : later.Sound)
    (kept : names.names <+: later.names) : ofFile f later = found.under later := by
  rw [← turns_serve, leads later sound kept]
  rfl

end TreeCheck.Load
