import Mathlib.Data.List.Nodup
import Mathlib.Data.List.Flatten
import Mathlib.Data.List.Perm.Subperm
import TreeCheck.Proofs.Check.History
import TreeCheck.Proofs.Interner.Sound
import TreeCheck.Proofs.Yaml.Anchors
import TreeCheck.Load

/-!
What reading brings in from a document. Every position that a node keeps is the position of a
document node, every number is handed out once, and where nothing was objected to, a declared name
is one that the document writes at the position of the declaration. A `Harvest` is what has been
read and not yet put into a node; `Collects` says what a step adds to it.
-/

namespace TreeCheck

namespace Node

/-- The positions that a node keeps: its own, and those of its parameters, fields and accessors. -/
def spans : Node → List Span
  | lambda l => l.site.span :: l.params.map (·.span)
  | struct site _ fields => site.span :: fields.map (·.span)
  | cls site c => site.span :: c.fields.map (·.span)
  | invoke site _ accessors _ => site.span :: accessors.map (·.span)
  | member c => c.site.span :: c.accessors.map (·.span)
  | n => [n.span]

def accessors : Node → List (Accessor Node)
  | invoke _ _ accessors _ => accessors
  | member c => c.accessors
  | _ => []

def allVisits (nodes : List Node) : List Node :=
  nodes.flatMap (visits fun _ => true)

theorem allVisits_single (n : Node) : allVisits [n] = n :: allVisits n.children := by
  rw [allVisits, List.flatMap_singleton, visits_eq]
  rfl

theorem allVisits_append (nodes others : List Node) :
    allVisits (nodes ++ others) = allVisits nodes ++ allVisits others :=
  List.flatMap_append

theorem allVisits_subperm {nodes others : List Node} (part : nodes.Subperm others) :
    (allVisits nodes).Subperm (allVisits others) := by
  obtain ⟨middle, perm, sublist⟩ := part
  exact ⟨allVisits middle, perm.flatMap_right _, sublist.flatMap _⟩

theorem map_id_subperm {nodes others : List Node} (part : nodes.Subperm others) :
    ((allVisits nodes).map id).Subperm ((allVisits others).map id) := by
  obtain ⟨middle, perm, sublist⟩ := allVisits_subperm part
  exact ⟨middle.map id, perm.map id, sublist.map id⟩

end Node

open Node (allVisits)

structure Fresh (low high : Nat) (ids : List Nat) : Prop where
  order : low ≤ high
  nodup : ids.Nodup
  bounds : ∀ i ∈ ids, low ≤ i ∧ i < high

namespace Fresh

variable {low mid high : Nat} {ids others : List Nat}

theorem nil (order : low ≤ high) : Fresh low high [] :=
  ⟨order, List.nodup_nil, nofun⟩

theorem append (first : Fresh low mid ids) (second : Fresh mid high others) :
    Fresh low high (ids ++ others) := by
  refine ⟨Nat.le_trans first.order second.order, ?_, ?_⟩
  · refine List.nodup_append.mpr ⟨first.nodup, second.nodup, ?_⟩
    intro i early j late same
    have before := (first.bounds i early).2
    have after := (second.bounds j late).1
    omega
  · intro i member
    have ordered := first.order
    have later := second.order
    rcases List.mem_append.mp member with early | late
    · have := first.bounds i early
      omega
    · have := second.bounds i late
      omega

theorem subperm (fresh : Fresh low high ids) (part : others.Subperm ids) :
    Fresh low high others := by
  obtain ⟨middle, perm, sublist⟩ := part
  refine ⟨fresh.order, perm.nodup_iff.mp (fresh.nodup.sublist sublist), ?_⟩
  intro i member
  exact fresh.bounds i (sublist.subset (perm.mem_iff.mpr member))

end Fresh

namespace Load

variable {α β : Type}

/-! ### Positions and names in a document -/

structure Source where
  file : Nat
  document : Yaml.Document

def Env.source (env : Env) : Source :=
  ⟨env.file, env.document⟩

/-- The keys under which the names of declarations and definitions stand. -/
def nameKeys : List String :=
  ["def", "func", "struct", "class", "name"]

/-- A document node gives a name: it is the name, or has it under one of the keys. -/
inductive GivesName : Yaml.Node → Yaml.Scalar → Prop
  | own (s : Yaml.Scalar) : GivesName (.scalar s) s
  | under {place : Yaml.Place} {pairs : List (Yaml.Node × Yaml.Node)} {key : String}
      {k s : Yaml.Scalar} :
      key ∈ nameKeys → (.scalar k, .scalar s) ∈ pairs → k.value = text key →
      GivesName (.mapping place pairs) s

namespace Source

variable (o : Source)

def spanOf (n : Yaml.Node) : Span :=
  ⟨o.file, n.place.line, n.place.column⟩

def Position (p : Span) : Prop :=
  ∃ n, o.document.Has n ∧ p = o.spanOf n

/-- The handle stands for the normal form of the name that the document gives at the position. -/
def Names (names : Interner) (h : Handle) (p : Span) : Prop :=
  ∃ n s, o.document.Has n ∧ p = o.spanOf n ∧ GivesName n s ∧ s.value ≠ [] ∧
    names.find? h = some (Text.normal s.value)

def Objects (d : Diagnostic) : Prop :=
  o.Position d.primary ∧ d.notes = []

structure Before (s t : State) : Prop where
  next : s.next ≤ t.next
  names : s.names.names <+: t.names.names
  emitted : ∃ added, t.emitted.toList = s.emitted.toList ++ added ∧ ∀ d ∈ added, o.Objects d

/-- What a node keeps comes from the document: its positions, and where nothing was objected to also
the names it declares. No field is accessed with arguments. -/
structure Keeps (s : State) (n : Node) : Prop where
  spans : ∀ p ∈ n.spans, o.Position p
  bare : ∀ a ∈ n.accessors, a.isField = true → a.args = []
  names : s.emitted = #[] → ∀ h p, (h, p) ∈ n.declares ∨ n.defines? = some (h, p) →
    o.Names s.names h p

variable {o} {s t u : State}

theorem Before.refl : o.Before s s :=
  ⟨Nat.le_refl _, List.prefix_refl _, [], (List.append_nil _).symm, nofun⟩

theorem Before.trans (first : o.Before s t) (second : o.Before t u) : o.Before s u := by
  obtain ⟨added, told, objects⟩ := first.emitted
  obtain ⟨more, toldLater, objectsLater⟩ := second.emitted
  refine ⟨Nat.le_trans first.next second.next, first.names.trans second.names, added ++ more,
    ?_, ?_⟩
  · rw [toldLater, told, List.append_assoc]
  · intro d member
    rcases List.mem_append.mp member with early | late
    · exact objects d early
    · exact objectsLater d late

theorem Before.quiet (before : o.Before s t) (none : t.emitted = #[]) : s.emitted = #[] := by
  obtain ⟨added, told, -⟩ := before.emitted
  rw [none] at told
  have empty := (List.append_eq_nil_iff.mp told.symm).1
  simpa using empty

theorem Names.mono {h : Handle} {p : Span} (named : o.Names s.names h p) (before : o.Before s t) :
    o.Names t.names h p := by
  obtain ⟨n, v, has, place, gives, given, found⟩ := named
  exact ⟨n, v, has, place, gives, given, Interner.find?_of_prefix before.names found⟩

theorem Keeps.mono {n : Node} (keeps : o.Keeps s n) (before : o.Before s t) : o.Keeps t n where
  spans := keeps.spans
  bare := keeps.bare
  names none h p said := (keeps.names (before.quiet none) h p said).mono before

end Source

/-! ### Harvests -/

/-- What has been read: numbers handed out, nodes, positions, and names with the positions they
stand at. -/
structure Harvest where
  ids : List Nat
  nodes : List Node
  spans : List Span
  names : List (Handle × Span)

namespace Harvest

instance : EmptyCollection Harvest :=
  ⟨⟨[], [], [], []⟩⟩

instance : Append Harvest :=
  ⟨fun h k => ⟨h.ids ++ k.ids, h.nodes ++ k.nodes, h.spans ++ k.spans, h.names ++ k.names⟩⟩

def ofNodes (nodes : List Node) : Harvest :=
  ⟨[], nodes, [], []⟩

def ofSite (site : Site) : Harvest :=
  ⟨[site.id], [], [site.span], []⟩

def ofSpan (p : Span) : Harvest :=
  ⟨[], [], [p], []⟩

def ofName (h : Handle) (p : Span) : Harvest :=
  ⟨[], [], [], [(h, p)]⟩

def gather (new : α → Harvest) (parts : List α) : Harvest :=
  ⟨parts.flatMap fun a => (new a).ids, parts.flatMap fun a => (new a).nodes,
    parts.flatMap fun a => (new a).spans, parts.flatMap fun a => (new a).names⟩

def allIds (h : Harvest) : List Nat :=
  h.ids ++ (allVisits h.nodes).map Node.id

variable {h k : Harvest} {new : α → Harvest}

@[simp] theorem append_ids : (h ++ k).ids = h.ids ++ k.ids := rfl
@[simp] theorem append_nodes : (h ++ k).nodes = h.nodes ++ k.nodes := rfl
@[simp] theorem append_spans : (h ++ k).spans = h.spans ++ k.spans := rfl
@[simp] theorem append_names : (h ++ k).names = h.names ++ k.names := rfl
@[simp] theorem empty_ids : (∅ : Harvest).ids = [] := rfl
@[simp] theorem empty_nodes : (∅ : Harvest).nodes = [] := rfl
@[simp] theorem empty_spans : (∅ : Harvest).spans = [] := rfl
@[simp] theorem empty_names : (∅ : Harvest).names = [] := rfl
@[simp] theorem ofNodes_ids (nodes : List Node) : (ofNodes nodes).ids = [] := rfl
@[simp] theorem ofNodes_nodes (nodes : List Node) : (ofNodes nodes).nodes = nodes := rfl
@[simp] theorem ofNodes_spans (nodes : List Node) : (ofNodes nodes).spans = [] := rfl
@[simp] theorem ofNodes_names (nodes : List Node) : (ofNodes nodes).names = [] := rfl

@[simp] theorem append_empty (h : Harvest) : h ++ ∅ = h := by
  obtain ⟨ids, nodes, spans, names⟩ := h
  show Harvest.mk _ _ _ _ = _
  simp

@[simp] theorem empty_append (h : Harvest) : ∅ ++ h = h :=
  rfl

@[simp] theorem gather_nil : gather new [] = ∅ :=
  rfl

@[simp] theorem gather_cons (a : α) (parts : List α) :
    gather new (a :: parts) = new a ++ gather new parts :=
  rfl

theorem gather_filterMap (found : List (Option α)) :
    gather (fun o => gather new o.toList) found = gather new (found.filterMap (·)) := by
  induction found with
  | nil => rfl
  | cons o rest ih =>
    cases o with
    | none =>
      rw [gather_cons, ih]
      rfl
    | some a =>
      rw [gather_cons, ih]
      simp

theorem allIds_append_perm (h k : Harvest) : (h ++ k).allIds.Perm (h.allIds ++ k.allIds) := by
  simp only [allIds, append_ids, append_nodes, Node.allVisits_append, List.map_append,
    List.append_assoc]
  apply List.Perm.append_left
  rw [← List.append_assoc, ← List.append_assoc]
  exact List.perm_append_comm.append_right _

end Harvest

/-- The harvest comes from the document, and its numbers were handed out from the bound on. -/
structure Source.Holds (o : Source) (low : Nat) (s : State) (h : Harvest) : Prop where
  fresh : Fresh low s.next h.allIds
  spans : ∀ p ∈ h.spans, o.Position p
  nodes : ∀ n ∈ allVisits h.nodes, o.Keeps s n
  names : s.emitted = #[] → ∀ x ∈ h.names, o.Names s.names x.1 x.2

namespace Source.Holds

variable {o : Source} {low : Nat} {s t : State} {h k : Harvest}

theorem empty (order : low ≤ s.next) : o.Holds low s ∅ :=
  ⟨.nil order, nofun, nofun, fun _ => nofun⟩

theorem append (first : o.Holds low s h) (before : o.Before s t) (second : o.Holds s.next t k) :
    o.Holds low t (h ++ k) where
  fresh := (first.fresh.append second.fresh).subperm (Harvest.allIds_append_perm h k).subperm
  spans p member := (List.mem_append.mp member).elim (first.spans p) (second.spans p)
  nodes n member := by
    rw [Harvest.append_nodes, Node.allVisits_append] at member
    rcases List.mem_append.mp member with early | late
    · exact (first.nodes n early).mono before
    · exact second.nodes n late
  names none x member := by
    rcases List.mem_append.mp member with early | late
    · exact (first.names (before.quiet none) x early).mono before
    · exact second.names none x late

theorem part (holds : o.Holds low s h) (ids : k.ids.Subperm h.ids) (nodes : k.nodes.Subperm h.nodes)
    (spans : ∀ p ∈ k.spans, p ∈ h.spans) (names : ∀ x ∈ k.names, x ∈ h.names) :
    o.Holds low s k where
  fresh := holds.fresh.subperm (ids.append (Node.map_id_subperm nodes))
  spans p member := holds.spans p (spans p member)
  nodes n member := holds.nodes n ((Node.allVisits_subperm nodes).subset member)
  names none x member := holds.names none x (names x member)

theorem comm (held : o.Holds low s (h ++ k)) : o.Holds low s (k ++ h) :=
  held.part List.perm_append_comm.subperm List.perm_append_comm.subperm
    (fun _ member => List.mem_append.mpr (List.mem_append.mp member).symm)
    fun _ member => List.mem_append.mpr (List.mem_append.mp member).symm

theorem node {n : Node} (holds : o.Holds low s h) (own : [n.id].Subperm h.ids)
    (kids : n.children.Subperm h.nodes) (spans : ∀ p ∈ n.spans, p ∈ h.spans)
    (bare : ∀ a ∈ n.accessors, a.isField = true → a.args = [])
    (names : ∀ x, x ∈ n.declares ∨ n.defines? = some x → x ∈ h.names) :
    o.Holds low s (.ofNodes [n]) where
  fresh := by
    refine holds.fresh.subperm ?_
    show ((allVisits [n]).map Node.id).Subperm _
    rw [Node.allVisits_single]
    exact own.append (Node.map_id_subperm kids)
  spans := nofun
  nodes m member := by
    rw [Harvest.ofNodes_nodes, Node.allVisits_single] at member
    rcases List.mem_cons.mp member with rfl | below
    · exact ⟨fun p kept => holds.spans p (spans p kept), bare,
        fun none h p said => holds.names none (h, p) (names (h, p) said)⟩
    · exact holds.nodes m ((Node.allVisits_subperm kids).subset below)
  names _ := nofun

end Source.Holds

/-- From a harvest the step goes on to another one, with a result that satisfies `post`. -/
def Collects (o : Source) (given : Harvest) (x : Load α) (post : α → Prop) (new : α → Harvest) :
    Prop :=
  ∀ env, env.source = o → ∀ low s, o.Holds low s given →
    o.Before s (x.run env s).2 ∧ post (x.run env s).1 ∧
      o.Holds low (x.run env s).2 (new (x.run env s).1)

/-- A step that adds nothing to the harvest. -/
abbrev Passes (o : Source) (x : Load α) (post : α → Prop) : Prop :=
  Collects o ∅ x post fun _ => ∅

namespace Collects

variable {o : Source} {given : Harvest} {x : Load α} {f : α → Load β} {post : α → Prop}
  {new : α → Harvest} {goal : β → Prop} {last : β → Harvest}

theorem pure {a : α} (holds : post a)
    (made : ∀ low s, o.Holds low s given → o.Holds low s (new a)) :
    Collects o given (Pure.pure a) post new :=
  fun _ _ low s held => ⟨.refl, holds, made low s held⟩

theorem bind (first : Collects o ∅ x post new)
    (rest : ∀ a, post a → Collects o (given ++ new a) (f a) goal last) :
    Collects o given (x >>= f) goal last := by
  intro env reads low s held
  obtain ⟨before, holds, added⟩ := first env reads s.next s (.empty (Nat.le_refl _))
  obtain ⟨after, done, kept⟩ := rest _ holds env reads low _ (held.append before added)
  exact ⟨before.trans after, done, kept⟩

theorem skip (first : Passes o x post) (rest : ∀ a, post a → Collects o given (f a) goal last) :
    Collects o given (x >>= f) goal last :=
  first.bind fun a holds => by simpa using rest a holds

theorem mono {weaker : α → Prop} (collects : Collects o given x post new)
    (implies : ∀ a, post a → weaker a) : Collects o given x weaker new := by
  intro env reads low s held
  obtain ⟨before, holds, kept⟩ := collects env reads low s held
  exact ⟨before, implies _ holds, kept⟩

theorem turn {other : α → Harvest} (collects : Collects o given x post new)
    (same : ∀ a low s, o.Holds low s (new a) → o.Holds low s (other a)) :
    Collects o given x post other := by
  intro env reads low s held
  obtain ⟨before, holds, kept⟩ := collects env reads low s held
  exact ⟨before, holds, same _ low _ kept⟩

theorem withReader {g : Env → Env} (collects : Collects o given x post new)
    (same : ∀ env, (g env).source = env.source) :
    Collects o given (MonadWithReaderOf.withReader g x) post new :=
  fun env reads low s held => collects (g env) ((same env).trans reads) low s held

theorem mapM {xs : List β} {g : β → Load α} (each : ∀ b ∈ xs, Collects o ∅ (g b) post new) :
    Collects o ∅ (xs.mapM g) (fun results => ∀ a ∈ results, post a) (.gather new) := by
  induction xs with
  | nil => exact pure nofun fun _ _ held => held
  | cons b rest ih =>
    rw [List.mapM_cons]
    refine (each b List.mem_cons_self).bind fun a first => ?_
    refine (ih fun c member => each c (List.mem_cons_of_mem _ member)).bind fun results others => ?_
    refine pure ?_ fun _ _ held => held
    intro c member
    rcases List.mem_cons.mp member with rfl | later
    · exact first
    · exact others c later

theorem mapM_passes {xs : List β} {g : β → Load α} (each : ∀ b ∈ xs, Passes o (g b) fun _ => True) :
    Passes o (xs.mapM g) fun _ => True :=
  ((mapM each).mono fun _ _ => trivial).turn fun _ _ _ held => .empty held.fresh.order

theorem forM {xs : List β} {g : β → Load Unit} (each : ∀ b ∈ xs, Passes o (g b) fun _ => True) :
    Passes o (xs.forM g) fun _ => True := by
  induction xs with
  | nil => exact pure trivial fun _ _ held => held
  | cons b rest ih =>
    refine skip (each b List.mem_cons_self) fun _ _ => ih fun c member => ?_
    exact each c (List.mem_cons_of_mem _ member)

theorem some {a : α} (holds : post a)
    (made : ∀ low s, o.Holds low s given → o.Holds low s (new a)) :
    Collects o given (Pure.pure (Option.some a)) (fun found => ∀ a ∈ found, post a)
      fun found => .gather new found.toList :=
  pure (fun _ found => Option.some.inj found ▸ holds) fun low s held => by
    simpa using made low s held

theorem none :
    Collects o given (Pure.pure Option.none) (fun found => ∀ a ∈ found, post a)
      fun found => .gather new found.toList :=
  pure nofun fun _ _ held => .empty held.fresh.order

theorem parts {xs : List β} {g : β → Load (Option α)} {whole : List α → Harvest}
    (same : ∀ found, Harvest.gather new found = whole found)
    (each : ∀ b ∈ xs, Collects o ∅ (g b) (fun found => ∀ a ∈ found, post a)
      fun found => .gather new found.toList) :
    Collects o ∅ (xs.mapM g) (fun found => ∀ a ∈ found.filterMap (·), post a)
      fun found => whole (found.filterMap (·)) := by
  refine ((mapM each).mono ?_).turn ?_
  · intro found holds a member
    obtain ⟨part, among, present⟩ := List.mem_filterMap.mp member
    exact holds part among a present
  · intro found low s held
    rwa [← same, ← Harvest.gather_filterMap]

end Collects

/-! ### The smallest parts -/

section

variable {o : Source} {n : Yaml.Node}

theorem spanOf_collects (has : o.document.Has n) :
    Collects o ∅ (spanOf n) (fun p => p = o.spanOf n) .ofSpan := by
  rintro env rfl low s held
  refine ⟨.refl, rfl, ⟨held.fresh, ?_, nofun, fun _ => nofun⟩⟩
  intro p member
  rw [List.mem_singleton.mp member]
  exact ⟨n, has, rfl⟩

theorem siteAt_collects (has : o.document.Has n) :
    Collects o ∅ (siteAt n) (fun site => site.span = o.spanOf n) .ofSite := by
  rintro env rfl low s held
  refine ⟨⟨Nat.le_succ _, List.prefix_refl _, [], (List.append_nil _).symm, nofun⟩, rfl, ?_⟩
  have order := held.fresh.order
  refine ⟨⟨Nat.le_succ_of_le order, List.nodup_singleton _, ?_⟩, ?_, nofun, fun _ => nofun⟩
  · intro i member
    rw [List.mem_singleton.mp member]
    exact ⟨order, Nat.lt_succ_self _⟩
  · intro p member
    rw [List.mem_singleton.mp member]
    exact ⟨n, has, rfl⟩

theorem report_passes (code : Code) (has : o.document.Has n) (message : Text) :
    Passes o (report code n message) fun _ => True := by
  rintro env rfl low s held
  refine ⟨⟨Nat.le_refl _, List.prefix_refl _, [.error code _ message], Array.toList_push, ?_⟩,
    trivial, .empty held.fresh.order⟩
  intro d member
  rw [List.mem_singleton.mp member]
  exact ⟨⟨n, has, rfl⟩, rfl⟩

theorem fail_passes (has : o.document.Has n) (message : Text) :
    Passes o (fail n message) fun _ => True :=
  report_passes .malformed has message

/-- What is malformed is reported and replaced. Any name may then stand in the place of the one that
was not found, as nothing is said of names where something was objected to. -/
theorem failed_collects {a : α} {post : α → Prop} {new : α → Harvest}
    {names : List (Handle × Span)} (has : o.document.Has n) (message : Text) (holds : post a)
    (named : new a = ⟨[], [], [], names⟩) :
    Collects o ∅ (do fail n message; return a) post new := by
  intro env reads low s held
  obtain ⟨before, -, kept⟩ := fail_passes has message env reads low s held
  refine ⟨before, holds, ?_⟩
  show o.Holds low _ (new a)
  rw [named]
  exact ⟨kept.fresh, nofun, nofun, fun none => absurd none Array.push_ne_empty⟩

theorem intern_collects {y : Yaml.Node} {v : Yaml.Scalar} (has : o.document.Has y)
    (gives : GivesName y v) (given : v.value ≠ []) :
    Collects o ∅ (intern v.value) (fun _ => True) fun h => .ofName h (o.spanOf y) := by
  intro env reads low s held
  refine ⟨⟨Nat.le_refl _, s.names.intern_extends _, [], (List.append_nil _).symm, nofun⟩, trivial,
    ⟨held.fresh, nofun, nofun, fun _ x member => ?_⟩⟩
  rw [List.mem_singleton.mp member]
  exact ⟨y, v, has, rfl, gives, given, s.names.find?_intern _⟩

theorem nameOf_collects {y : Yaml.Node} (has : o.document.Has n) (around : o.document.Has y)
    (gives : ∀ v, n = .scalar v → GivesName y v) (what : Text) :
    Collects o ∅ (nameOf n what) (fun _ => True)
      (fun found => .gather (Harvest.ofName · (o.spanOf y)) found.toList) := by
  unfold nameOf
  split
  next v =>
    split
    next present =>
      have given : v.value ≠ [] := by
        simp only [Bool.and_eq_true, Bool.not_eq_true', List.isEmpty_eq_false_iff] at present
        exact present.2
      refine (intern_collects around (gives v rfl) given).bind fun h _ => .pure trivial ?_
      intro low s held
      simpa using held
    next => exact failed_collects has _ trivial rfl
  next => exact failed_collects has _ trivial rfl

theorem intern_passes (name : Text) : Passes o (intern name) fun _ => True := by
  intro env reads low s held
  exact ⟨⟨Nat.le_refl _, s.names.intern_extends _, [], (List.append_nil _).symm, nofun⟩, trivial,
    .empty held.fresh.order⟩

theorem nameOf_passes (has : o.document.Has n) (what : Text) :
    Passes o (nameOf n what) fun _ => True := by
  unfold nameOf
  split
  · split
    · exact .skip (intern_passes _) fun _ _ => .pure trivial fun _ _ held => held
    · exact failed_collects has _ trivial rfl
  · exact failed_collects has _ trivial rfl

theorem has_items {place : Yaml.Place} {items : List Yaml.Node}
    (has : o.document.Has (.sequence place items)) : ∀ item ∈ items, o.document.Has item :=
  fun _ member => (Yaml.Node.Inside.item member .self).trans has

theorem itemsOf_passes (has : o.document.Has n) (what : Text) :
    Passes o (itemsOf n what) fun items => ∀ item ∈ items, o.document.Has item := by
  unfold itemsOf
  split
  · exact .pure (has_items has) fun _ _ held => held
  split
  · exact .pure nofun fun _ _ held => held
  · exact failed_collects has _ nofun rfl

theorem modifierOf_passes (has : o.document.Has n) :
    Passes o (modifierOf n) fun _ => True := by
  unfold modifierOf
  split
  · exact .pure trivial fun _ _ held => held
  · exact failed_collects has _ trivial rfl

end

/-! ### Mappings -/

/-- The mapping is one of the document: its entries are pairs of it, under scalars as keys. -/
structure Mapping.From (m : Mapping) (o : Source) : Prop where
  has : o.document.Has m.origin
  pairs : ∃ place pairs, m.origin = .mapping place pairs ∧
    ∀ e ∈ m.entries, ∃ k : Yaml.Scalar, e.keyNode = .scalar k ∧ k.value = e.key ∧
      (e.keyNode, e.value) ∈ pairs

section

variable {o : Source}

theorem entriesFrom_passes (kind : Text) {place : Yaml.Place}
    {all : List (Yaml.Node × Yaml.Node)} (has : o.document.Has (.mapping place all))
    (entries : List Entry) (pairs : List (Yaml.Node × Yaml.Node))
    (among : ∀ pair ∈ pairs, pair ∈ all)
    (read : ∀ e ∈ entries, ∃ k : Yaml.Scalar, e.keyNode = .scalar k ∧ k.value = e.key ∧
      (e.keyNode, e.value) ∈ all) :
    Passes o (entriesFrom kind entries pairs) fun result =>
      ∀ e ∈ result.1, ∃ k : Yaml.Scalar, e.keyNode = .scalar k ∧ k.value = e.key ∧
        (e.keyNode, e.value) ∈ all := by
  induction pairs generalizing entries with
  | nil => exact .pure (fun e member => read e (List.mem_reverse.mp member)) fun _ _ held => held
  | cons pair rest ih =>
    obtain ⟨k, v⟩ := pair
    have here : (k, v) ∈ all := among _ List.mem_cons_self
    have key : o.document.Has k := (Yaml.Node.Inside.key here .self).trans has
    have later := fun p member => among p (List.mem_cons_of_mem _ member)
    unfold entriesFrom
    split
    next s =>
      split
      · refine .skip (fail_passes key _) fun _ _ => .skip (ih entries later read) fun _ kept => ?_
        exact .pure kept fun _ _ held => held
      · refine ih _ later fun e member => ?_
        rcases List.mem_cons.mp member with rfl | old
        · exact ⟨s, rfl, rfl, here⟩
        · exact read e old
    next =>
      refine .skip (fail_passes key _) fun _ _ => .skip (ih entries later read) fun _ kept => ?_
      exact .pure kept fun _ _ held => held

theorem mappingOf_passes {n : Yaml.Node} (has : o.document.Has n) (kind : Text) :
    Passes o (mappingOf n kind) fun found => ∀ m ∈ found, m.From o ∧ m.origin = n := by
  unfold mappingOf
  split
  next place pairs =>
    refine .skip (entriesFrom_passes kind has [] pairs (fun _ member => member) nofun)
      fun r kept => ?_
    refine .pure ?_ fun _ _ held => held
    intro m member
    split at member
    · cases member
      exact ⟨⟨has, place, pairs, rfl, kept⟩, rfl⟩
    · cases member
  next => exact failed_collects has _ nofun rfl

end

namespace Mapping

variable {o : Source} {m : Mapping} (source : m.From o)
include source

theorem From.get {key : String} {v : Yaml.Node} (found : m.get? key = some v) :
    o.document.Has v ∧ ∃ place pairs, m.origin = .mapping place pairs ∧
      ∃ k : Yaml.Scalar, k.value = text key ∧ (.scalar k, v) ∈ pairs := by
  obtain ⟨e, located, rfl⟩ := Option.map_eq_some_iff.mp found
  obtain ⟨place, pairs, same, kept⟩ := source.pairs
  obtain ⟨k, node, value, member⟩ := kept e (List.mem_of_find?_eq_some located)
  have named : e.key = text key := by simpa using List.find?_some located
  have has : o.document.Has (.mapping place pairs) := same ▸ source.has
  refine ⟨(Yaml.Node.Inside.value member .self).trans has, place, pairs, same, k, ?_, node ▸ member⟩
  rw [value, named]

theorem require_passes (key : String) :
    Passes o (m.require key) fun found => ∀ v ∈ found, o.document.Has v := by
  unfold require
  split
  next v found =>
    refine .pure ?_ fun _ _ held => held
    intro w member
    cases member
    exact (source.get found).1
  next => exact failed_collects source.has _ nofun rfl

theorem name_collects {key : String} (names : key ∈ nameKeys) :
    Collects o ∅ (m.name key) (fun _ => True) fun h => .ofName h (o.spanOf m.origin) := by
  have missing (n : Yaml.Node) (has : o.document.Has n) (message : Text) :
      Collects o ∅ (do fail n message; return Handle.none) (fun _ => True)
        fun h => .ofName h (o.spanOf m.origin) :=
    failed_collects has message trivial rfl
  unfold name require
  cases found : m.get? key with
  | none =>
    simp only [bind_assoc, pure_bind]
    exact missing m.origin source.has _
  | some v =>
    obtain ⟨has, place, pairs, same, k, value, member⟩ := source.get found
    simp only [pure_bind]
    unfold nameOf
    split
    next s =>
      split
      next present =>
        have given : s.value ≠ [] := by
          simp only [Bool.and_eq_true, Bool.not_eq_true', List.isEmpty_eq_false_iff] at present
          exact present.2
        have gives : GivesName m.origin s := same ▸ .under names member value
        simp only [bind_assoc, pure_bind]
        exact (intern_collects source.has gives given).bind fun h _ =>
          .pure trivial fun _ _ held => held
      next =>
        simp only [bind_assoc, pure_bind]
        exact missing _ has _
    next =>
      simp only [bind_assoc, pure_bind]
      exact missing _ has _

theorem name_passes (key : String) : Passes o (m.name key) fun _ => True := by
  refine .skip (require_passes source key) fun found has => ?_
  split
  next v =>
    refine .skip (nameOf_passes (has v rfl) _) fun _ _ => ?_
    exact .pure trivial fun _ _ held => held
  next => exact .pure trivial fun _ _ held => held

theorem name?_passes (key : String) : Passes o (m.name? key) fun _ => True := by
  unfold name?
  split
  next v found =>
    split
    · exact .pure trivial fun _ _ held => held
    · refine .skip (nameOf_passes (source.get found).1 _) fun _ _ => ?_
      exact .pure trivial fun _ _ held => held
  next => exact .pure trivial fun _ _ held => held

theorem flag_passes (key : String) : Passes o (m.flag key) fun _ => True := by
  unfold flag
  split
  next => exact .pure trivial fun _ _ held => held
  next v found =>
    split
    · split
      · exact .pure trivial fun _ _ held => held
      · exact failed_collects (source.get found).1 _ trivial rfl
    · exact failed_collects (source.get found).1 _ trivial rfl

theorem items_passes (key : String) :
    Passes o (m.items key) fun items => ∀ item ∈ items, o.document.Has item := by
  unfold items
  split
  next v found => exact itemsOf_passes (source.get found).1 _
  next => exact .pure nofun fun _ _ held => held

theorem modifiers_passes (key : String) : Passes o (m.modifiers key) fun _ => True := by
  refine .skip (items_passes source key) fun items has => ?_
  refine .skip (.mapM_passes fun n member => modifierOf_passes (has n member)) fun _ _ => ?_
  exact .pure trivial fun _ _ held => held

theorem finish_passes (known : List String) : Passes o (m.finish known) fun _ => True := by
  refine .forM fun e member => ?_
  obtain ⟨place, pairs, same, kept⟩ := source.pairs
  obtain ⟨k, node, -, among⟩ := kept e member
  have has : o.document.Has (.mapping place pairs) := same ▸ source.has
  split
  · exact fail_passes ((Yaml.Node.Inside.key among .self).trans has) _
  · exact .pure trivial fun _ _ held => held

end Mapping

/-- A part that a mapping describes; what is no mapping describes none. -/
theorem described_collects {o : Source} {post : α → Prop} {new : α → Harvest}
    {f : Mapping → Load (Option α)} {n : Yaml.Node}
    (each : ∀ m, Mapping.From m o → m.origin = n →
      Collects o ∅ (f m) (fun found => ∀ a ∈ found, post a) fun found => .gather new found.toList)
    (has : o.document.Has n) (kind : Text) :
    Collects o ∅ (do
      match ← mappingOf n kind with
      | none => return none
      | some m => f m) (fun found => ∀ a ∈ found, post a)
      fun found => .gather new found.toList := by
  refine .skip (mappingOf_passes has kind) fun mapping source => ?_
  split
  next => exact .pure nofun fun _ _ held => held
  next m => exact each m (source m rfl).1 (source m rfl).2

end Load

end TreeCheck
