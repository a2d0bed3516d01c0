import TreeCheck.Proofs.Diagnostic.Alike
import TreeCheck.Proofs.Load.Twin
import TreeCheck.Proofs.Ty.Alike

/-!
Reading one document under two interners. Whatever was interned before, the same texts are interned
in the same order; so the two trees are the same, and the same is reported, up to the handles of the
names and the number of the file.
-/

namespace TreeCheck

/-- Handles stand for the same if they have the same text, and positions if they are the same places
of two files. -/
def Likeness.between (names names' : Interner) (file file' : Nat) : Likeness where
  handle h k := ∃ t, names.find? h = some t ∧ names'.find? k = some t
  span s t := s.file = file ∧ t.file = file' ∧ s.line = t.line ∧ s.col = t.col

section

variable {names names' : Interner} (file file' : Nat) (sound : names.Sound) (sound' : names'.Sound)
include sound sound'

theorem Likeness.between_fresh {h : Handle} (known : h < Interner.fresh.size) :
    (between names names' file file').handle h h := by
  have text : Interner.fresh.find? h = some (Interner.fresh.names.get ⟨h, known⟩) :=
    List.getElem?_eq_getElem known
  exact ⟨_, Interner.find?_of_prefix sound.start text, Interner.find?_of_prefix sound'.start text⟩

theorem Likeness.between_consistent :
    (between names names' file file').Consistent names names' where
  absent := between_fresh file file' sound sound' (by decide)
  unique := by
    rintro h k h' k' ⟨t, here, there⟩ ⟨u, here', there'⟩
    constructor
    · rintro rfl
      cases here.symm.trans here'
      exact sound'.handle_unique there there'
    · rintro rfl
      cases there.symm.trans there'
      exact sound.handle_unique here here'
  display := by
    rintro h k ⟨t, here, there⟩
    cases t with
    | cons b rest => rw [Interner.display, Interner.display, here, there]
    | nil =>
      -- Only the absent name has the empty text.
      have start : Interner.fresh.find? Handle.none = some [] := rfl
      have none := sound.handle_unique here (Interner.find?_of_prefix sound.start start)
      have none' := sound'.handle_unique there (Interner.find?_of_prefix sound'.start start)
      rw [Interner.display, Interner.display, here, there, none, none']

end

namespace Load

variable {names names' : Interner} {file file' : Nat} {d : Yaml.Document}

structure State.Level (l : Likeness) (s t : State) : Prop where
  next_eq : s.next = t.next
  aliased_eq : s.aliased = t.aliased
  emitted : List.Forall₂ (Diagnostic.Alike l) s.emitted.toList t.emitted.toList

/-- The readings have interned no other texts than the two interners have. -/
def Below (names names' : Interner) (s t : State) : Prop :=
  s.names.names <+: names.names ∧ t.names.names <+: names'.names

theorem State.Level.told {l : Likeness} {s t : State} (level : s.Level l t) {a b : Diagnostic}
    (alike : a.Alike l b) : (s.told a).Level l (t.told b) where
  next_eq := level.next_eq
  aliased_eq := level.aliased_eq
  emitted := push_alike level.emitted alike

theorem histories_paired (through : Bool) :
    Paired (.between names names' file file') ⟨file, d, through⟩ ⟨file', d, through⟩
      (State.Level (.between names names' file file')) (Below names names') where
  span _ := ⟨rfl, rfl, rfl, rfl⟩
  next level := ⟨level.next_eq, congrArg (· + 1) level.next_eq, level.aliased_eq, level.emitted⟩
  report code place message level := level.told (.error code ⟨rfl, rfl, rfl, rfl⟩ rfl)
  intern {s t} text level below := by
    refine ⟨⟨text, ?_, ?_⟩, level.next_eq, level.aliased_eq, level.emitted⟩
    · exact Interner.find?_of_prefix below.1 (s.names.find?_intern text)
    · exact Interner.find?_of_prefix below.2 (t.names.find?_intern text)
  back grown grown' below := ⟨grown.names.trans below.1, grown'.names.trans below.2⟩

section

variable {l : Likeness} {s t : State} (level : s.Level l t) (file file' : Nat) (d : Yaml.Document)
  (through : Bool)
include level

theorem State.Level.hasRoom :
    s.HasRoom ⟨file, d, through⟩ ↔ t.HasRoom ⟨file', d, through⟩ := by
  rw [State.HasRoom, State.HasRoom, level.aliased_eq]

theorem State.Level.counted :
    (s.counted ⟨file, d, through⟩).Level l (t.counted ⟨file', d, through⟩) where
  next_eq := level.next_eq
  aliased_eq := by rw [State.counted, State.counted, level.aliased_eq]
  emitted := level.emitted

theorem State.Level.cutOff (n : Yaml.Node)
    (placed : l.span (Env.spanAt ⟨file, d, through⟩ n.place)
      (Env.spanAt ⟨file', d, through⟩ n.place)) :
    (s.cutOff n ⟨file, d, through⟩).Level l (t.cutOff n ⟨file', d, through⟩) where
  next_eq := level.next_eq
  aliased_eq := congrArg (· + 1) level.aliased_eq
  emitted := by
    unfold State.cutOff
    rw [level.aliased_eq]
    split
    · exact (level.told (.error .malformed placed rfl)).emitted
    · exact level.emitted

end

theorem placeholder_histories (through : Bool) (n : Yaml.Node) :
    Conform ⟨file, d, through⟩ ⟨file', d, through⟩ (State.Level (.between names names' file file'))
      (Below names names') (Node.Alike (.between names names' file file'))
      (placeholder n) (placeholder n) := by
  intro s t level _
  have site : Site.Alike (.between names names' file file')
      ⟨s.next, Env.spanAt ⟨file, d, through⟩ n.place⟩
      ⟨t.next, Env.spanAt ⟨file', d, through⟩ n.place⟩ :=
    ⟨level.next_eq, rfl, rfl, rfl, rfl⟩
  exact ⟨.layer (.nil site), congrArg (· + 1) level.next_eq, level.aliased_eq, level.emitted⟩

theorem node_histories (sound : names.Sound) (sound' : names'.Sound) (depth : Nat) :
    ∀ (through : Bool) (n : Yaml.Node),
    Conform ⟨file, d, through⟩ ⟨file', d, through⟩ (State.Level (.between names names' file file'))
      (Below names names') (Node.Alike (.between names names' file file'))
      (node depth n) (node depth n) := by
  induction depth with
  | zero => exact placeholder_histories
  | succ depth ih =>
    intro through n s t level below
    by_cases room : s.HasRoom ⟨file, d, through⟩
    swap
    · have full : ¬t.HasRoom ⟨file', d, through⟩ := fun other =>
        room ((level.hasRoom file file' d through).mpr other)
      rw [node_full n room, node_full n full] at below ⊢
      have cut := level.cutOff file file' d through n ⟨rfl, rfl, rfl, rfl⟩
      exact placeholder_histories through n _ _ cut below
    have room' := (level.hasRoom file file' d through).mp room
    rw [node_room n room, node_room n room'] at below ⊢
    have counted := level.counted file file' d through
    by_cases own : ∃ target, Env.Refers ⟨file, d, through⟩ n target
    · obtain ⟨target, refers⟩ := own
      have refers' : Env.Refers ⟨file', d, through⟩ n target := refers
      rw [followed_target _ _ refers, followed_target _ _ refers'] at below ⊢
      exact ih true target _ _ counted below
    have own' : ∀ target, ¬Env.Refers ⟨file', d, through⟩ n target := not_exists.mp own
    rw [followed_written _ _ (not_exists.mp own), followed_written _ _ own'] at below ⊢
    have consistent := Likeness.between_consistent file file' sound sound'
    have layer {a b : Node} : Node.Alike (.between names names' file file') a b ↔
        Node.Layer (.between names names' file file') (Node.Alike _) a b :=
      ⟨fun ⟨inner⟩ => inner, .layer⟩
    have conform := writtenOf_conform (histories_paired through) consistent.absent
      consistent.isValid layer same_similar (.inr ⟨node_grows depth, node_grows depth⟩) (by
        rintro m _ _ (rfl | rfl)
        · exact ih through m
        · intro u v level below
          obtain ⟨alike, after⟩ := ih through m u v level below
          exact ⟨⟨alike, .inl rfl⟩, after⟩) (same_written n)
    exact conform _ _ counted below

/-! ### Whole files -/

theorem rootBy_grows {reader : Yaml.Node → Load Node} (grows : ∀ n, Grows (reader n))
    (d : Yaml.Document) : Grows (rootBy reader d) := by
  obtain ⟨root, anchors⟩ := d
  have told : Grows (do
      if !root.isNull then fail root (text "document must be a sequence of nodes")
      return ([] : List (Option Node)) : Load _) := by
    split
    · exact (report_grows _ root _).bind fun _ => .pure _
    · exact .pure _
  cases root with
  | sequence place items => exact nodesOf_grows grows items
  | _ => exact told

theorem ofFile_extends (f : SourceFile) (names : Interner) :
    names.names <+: (ofFile f names).names.names ∧
      (names.Sound → (ofFile f names).names.Sound) := by
  unfold ofFile
  split
  · exact ⟨List.prefix_refl _, id⟩
  · exact ⟨List.prefix_refl _, id⟩
  next d _ =>
    have grown := rootBy_grows (node_grows (d.root.height + maxAliased + 2)) d ⟨f.id, d, false⟩
      ⟨names, #[], 0, 0⟩
    rw [ofDocument_eq, rootOf_eq]
    exact ⟨grown.names, grown.sound⟩

structure Outcome.Alike (l : Likeness) (x y : Outcome) : Prop where
  path_eq : x.tree.path = y.tree.path
  nodes : List.Forall₂ (Option.Rel (Node.Alike l)) x.tree.nodes y.tree.nodes
  diagnostics : List.Forall₂ (Diagnostic.Alike l) x.diagnostics y.diagnostics
  failure_eq : x.failure = y.failure

theorem ofDocument_alike (f : SourceFile) (id : Nat) (d : Yaml.Document)
    (sound : (ofDocument f names d).names.Sound)
    (sound' : (ofDocument { f with id } names' d).names.Sound) :
    (ofDocument f names d).Alike
      (.between (ofDocument f names d).names (ofDocument { f with id } names' d).names f.id id)
      (ofDocument { f with id } names' d) := by
  rw [ofDocument_eq, rootOf_eq] at sound sound'
  rw [ofDocument_eq, ofDocument_eq, rootOf_eq]
  let reader : Yaml.Node → Load Node := node (d.root.height + maxAliased + 2)
  let last := (rootBy reader d).run ⟨f.id, d, false⟩ ⟨names, #[], 0, 0⟩
  let last' := (rootBy reader d).run ⟨id, d, false⟩ ⟨names', #[], 0, 0⟩
  have each (n m : Yaml.Node) (same : n = m) : Conform ⟨f.id, d, false⟩ ⟨id, d, false⟩
      (State.Level (.between last.2.names last'.2.names f.id id))
      (Below last.2.names last'.2.names)
      (Node.Alike (.between last.2.names last'.2.names f.id id)) (reader n) (reader m) :=
    same ▸ node_histories sound sound' _ false n
  have conform := rootBy_conform (histories_paired false) same_similar (node_grows _) (node_grows _)
    each (rfl : d.root = d.root)
  obtain ⟨nodes, level⟩ := conform ⟨names, #[], 0, 0⟩ ⟨names', #[], 0, 0⟩ ⟨rfl, rfl, .nil⟩
    ⟨List.prefix_refl _, List.prefix_refl _⟩
  have size : last.2.emitted.size = last'.2.emitted.size := by
    rw [← Array.length_toList, ← Array.length_toList]
    exact level.emitted.length_eq
  refine ⟨rfl, nodes, level.emitted, ?_⟩
  show (if last.2.emitted.isEmpty then none
      else some (Failure.malformed f.path last.2.emitted.size)) =
    if last'.2.emitted.isEmpty then none else some (Failure.malformed f.path last'.2.emitted.size)
  rw [Array.isEmpty, Array.isEmpty, size]

/-- What a file is read as depends neither on what was interned before nor on its number. -/
theorem ofFile_alike (f : SourceFile) (id : Nat) (sound : names.Sound) (sound' : names'.Sound) :
    (ofFile f names).Alike
      (.between (ofFile f names).names (ofFile { f with id } names').names f.id id)
      (ofFile { f with id } names') := by
  have after := (ofFile_extends f names).2 sound
  have after' := (ofFile_extends { f with id } names').2 sound'
  unfold ofFile at *
  dsimp only at *
  cases document : Yaml.Document.read f.content with
  | error fault => exact ⟨rfl, .nil, .nil, rfl⟩
  | ok found =>
    cases found with
    | none => exact ⟨rfl, .nil, .nil, rfl⟩
    | some d =>
      rw [document] at after after'
      exact ofDocument_alike f id d after after'

end Load

end TreeCheck
