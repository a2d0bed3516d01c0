import TreeCheck.Proofs.Check.Alike
import TreeCheck.Proofs.Load.Complete
import TreeCheck.Proofs.Load.Origins

/-!
Where diagnostics stand. A check takes the positions it speaks of from nowhere but the tree. To see
it, the check is set beside itself: a position stands for itself if it is a good one, so a tree with
good positions only is like itself, and what is said about it is like itself too.
-/

namespace TreeCheck

/-- Everything stands for itself, but only the good positions. -/
def Likeness.among (good : Span → Prop) : Likeness :=
  ⟨Eq, fun p q => p = q ∧ good p⟩

theorem Likeness.among_consistent (good : Span → Prop) (names : Interner) :
    (among good).Consistent names names :=
  ⟨rfl, (same_consistent names).unique, (same_consistent names).display⟩

namespace Node

variable {good : Span → Prop}

theorem slot_alike {slot : Option Node}
    (all : ∀ n ∈ slot.toList, Alike (.among good) n n) :
    Option.Rel (Alike (.among good)) slot slot := by
  cases slot with
  | none => exact .none
  | some n => exact .some (all n List.mem_cons_self)

theorem part_alike {β : Type} {slot : β → Option Node} {parts : List β} {b : β} (member : b ∈ parts)
    (all : ∀ n ∈ parts.filterMap slot, Alike (.among good) n n) :
    Option.Rel (Alike (.among good)) (slot b) (slot b) :=
  slot_alike fun n found => all n (List.mem_filterMap.mpr ⟨b, member, Option.mem_toList.mp found⟩)

theorem slots_alike {slots : List (Option Node)}
    (all : ∀ n ∈ slots.filterMap (·), Alike (.among good) n n) :
    List.Forall₂ (Option.Rel (Alike (.among good))) slots slots :=
  List.forall₂_same.mpr fun _ member => part_alike member all

theorem arguments_alike {args : List (Argument Node)}
    (all : ∀ n ∈ ofArguments args, Alike (.among good) n n) :
    List.Forall₂ (Argument.Alike (.among good) (Alike (.among good))) args args :=
  List.forall₂_same.mpr fun _ member => .intro (part_alike member all) rfl

theorem accessors_alike {accessors : List (Accessor Node)}
    (spans : ∀ p ∈ accessors.map (·.span), good p)
    (all : ∀ n ∈ ofAccessors accessors, Alike (.among good) n n) :
    List.Forall₂ (Accessor.Alike (.among good) (Alike (.among good))) accessors accessors := by
  refine List.forall₂_same.mpr fun a member => ?_
  have args : ∀ n ∈ ofArguments a.args, Alike (.among good) n n :=
    fun n found => all n (List.mem_flatMap.mpr ⟨a, member, found⟩)
  exact .intro _ ⟨rfl, spans _ (List.mem_map_of_mem member)⟩ rfl (arguments_alike args)

theorem fields_alike {fields : List (Field Node)} (spans : ∀ p ∈ fields.map (·.span), good p)
    (all : ∀ n ∈ fields.filterMap (·.default), Alike (.among good) n n) :
    List.Forall₂ (Field.Alike (.among good) (Alike (.among good))) fields fields :=
  List.forall₂_same.mpr fun _ member =>
    .intro _ ⟨rfl, spans _ (List.mem_map_of_mem member)⟩ rfl rfl (part_alike member all)

theorem params_alike {params : List (Param Node)} (spans : ∀ p ∈ params.map (·.span), good p)
    (all : ∀ n ∈ params.filterMap (·.default), Alike (.among good) n n) :
    List.Forall₂ (Param.Alike (.among good) (Alike (.among good))) params params :=
  List.forall₂_same.mpr fun _ member =>
    .intro _ _ _ ⟨rfl, spans _ (List.mem_map_of_mem member)⟩ rfl (part_alike member all) rfl

theorem branch_alike {b : Branch Node}
    (all : ∀ n ∈ b.guard.toList ++ b.body.toList, Alike (.among good) n n) :
    Branch.Alike (Alike (.among good)) b b :=
  .intro (slot_alike fun n found => all n (List.mem_append_left _ found))
    (slot_alike fun n found => all n (List.mem_append_right _ found))

theorem initializers_alike {args : List (Initializer Node)}
    (all : ∀ n ∈ args.filterMap (·.value), Alike (.among good) n n) :
    List.Forall₂ (Initializer.Alike (.among good) (Alike (.among good))) args args :=
  List.forall₂_same.mpr fun _ member => .intro rfl (part_alike member all)

theorem lambda_alike {l : Lambda Node} (alike : Alike (.among good) (.lambda l) (.lambda l)) :
    Lambda.Alike (.among good) (Alike (.among good)) l l := by
  obtain ⟨layer⟩ := alike
  cases layer
  assumption

theorem function_alike {f : Function Node}
    (alike : Alike (.among good) (.function f) (.function f)) :
    Function.Alike (.among good) (Alike (.among good)) f f := by
  obtain ⟨layer⟩ := alike
  cases layer
  assumption

theorem chain_alike {c : Chain Node} (alike : Alike (.among good) (.member c) (.member c)) :
    Chain.Alike (.among good) (Alike (.among good)) c c := by
  obtain ⟨layer⟩ := alike
  cases layer
  assumption

theorem class_alike {site : Site} {c : Class Node}
    (spans : ∀ p ∈ (cls site c).spans, good p)
    (all : ∀ n ∈ (cls site c).children, Alike (.among good) n n) :
    Class.Alike (.among good) (Alike (.among good)) c c := by
  have part (n : Node) (found : n ∈ c.fields.filterMap (·.default) ++ c.init.map lambda ++
      c.methods.map function ++ (c.preInit.toList ++ c.postInit.toList ++ c.final.toList ++
        c.validate.toList)) : Alike (.among good) n n := all n found
  simp only [List.mem_append] at part
  have own : ∀ p ∈ c.fields.map (·.span), good p :=
    fun p member => spans p (List.mem_cons_of_mem _ member)
  refine .intro _ rfl (List.forall₂_same.mpr fun _ _ => rfl) (fields_alike own ?_) ?_ ?_ ?_ ?_ ?_ ?_
  · exact fun n found => part n (.inl (.inl (.inl found)))
  · exact List.forall₂_same.mpr fun l member =>
      lambda_alike (part _ (.inl (.inl (.inr (List.mem_map_of_mem member)))))
  · exact List.forall₂_same.mpr fun f member =>
      function_alike (part _ (.inl (.inr (List.mem_map_of_mem member))))
  · exact slot_alike fun n found => part n (.inr (.inl (.inl (.inl found))))
  · exact slot_alike fun n found => part n (.inr (.inl (.inl (.inr found))))
  · exact slot_alike fun n found => part n (.inr (.inl (.inr found)))
  · exact slot_alike fun n found => part n (.inr (.inr found))

theorem layer_alike {n : Node} (spans : ∀ p ∈ n.spans, good p)
    (all : ∀ child ∈ n.children, Alike (.among good) child child) :
    Layer (.among good) (Alike (.among good)) n n := by
  have own : n.span ∈ n.spans := by
    cases n <;> exact List.mem_cons_self
  have site : n.site.Alike (.among good) n.site := ⟨rfl, rfl, spans _ own⟩
  have left {xs ys : List Node} (both : ∀ m ∈ xs ++ ys, Alike (.among good) m m) :
      ∀ m ∈ xs, Alike (.among good) m m := fun m found => both m (List.mem_append_left _ found)
  have right {xs ys : List Node} (both : ∀ m ∈ xs ++ ys, Alike (.among good) m m) :
      ∀ m ∈ ys, Alike (.among good) m m := fun m found => both m (List.mem_append_right _ found)
  cases n with
  | integer => exact .integer _ site
  | float => exact .float _ site
  | boolean => exact .boolean _ site
  | string => exact .string _ site
  | quote => exact .quote site
  | nil => exact .nil site
  | pair => exact .pair site
  | foreign => exact .foreign _ site
  | ident => exact .ident site rfl
  | vector => exact .vector site (slots_alike all)
  | block => exact .block site (slots_alike all)
  | list => exact .list _ site (slots_alike all)
  | operation => exact .operation _ site (slots_alike all)
  | define => exact .define _ site rfl (slot_alike all) rfl
  | assign => exact .assign site rfl (slot_alike all)
  | print => exact .print site (slot_alike all)
  | lambda l =>
    have params : ∀ p ∈ l.params.map (·.span), good p :=
      fun p member => spans p (List.mem_cons_of_mem _ member)
    exact .lambda (.intro _ site (params_alike params (left all)) (slot_alike (right all)) rfl)
  | function f =>
    obtain ⟨place, name, inner⟩ := f
    refine .function (.intro site rfl ?_)
    cases inner with
    | none => exact .none
    | some l => exact .some (lambda_alike (all _ List.mem_cons_self))
  | struct site name fields =>
    have inner : ∀ p ∈ fields.map (·.span), good p :=
      fun p member => spans p (List.mem_cons_of_mem _ member)
    exact .struct ‹_› rfl (fields_alike inner all)
  | cls => exact .cls site (class_alike spans all)
  | cond => exact .cond site (branch_alike (left all)) (slot_alike (right all))
  | conds =>
    refine .conds site (List.forall₂_same.mpr fun b member => branch_alike fun n found => ?_)
      (slot_alike (right all))
    exact left all n (List.mem_flatMap.mpr ⟨b, member, found⟩)
  | loop => exact .loop _ site (slot_alike (left all)) (slot_alike (right all))
  | cons => exact .cons site (slot_alike (left all)) (slot_alike (right all))
  | access => exact .access site (slot_alike (left all)) rfl (slot_alike (right all))
  | random => exact .random _ site (slot_alike (left all)) (slot_alike (right all))
  | call => exact .call site rfl (arguments_alike all)
  | construct => exact .construct site rfl (arguments_alike all)
  | create => exact .create site rfl (initializers_alike all)
  | invoke =>
    have inner := fun p member => spans p (List.mem_cons_of_mem _ member)
    exact .invoke site (slot_alike (left (left all))) (accessors_alike inner (right (left all)))
      (arguments_alike (right all))
  | member c =>
    have inner := fun p member => spans p (List.mem_cons_of_mem _ member)
    exact .member (.intro site rfl (accessors_alike inner all))
  | assignMember place target value =>
    refine .assignMember site ?_ (slot_alike (right all))
    cases target with
    | none => exact .none
    | some c => exact .some (chain_alike (left all _ List.mem_cons_self))

theorem alike_of_spans (n : Node)
    (spans : ∀ m ∈ n.visits fun _ => true, ∀ p ∈ m.spans, good p) :
    Alike (.among good) n n := by
  rw [visits_eq, if_pos rfl] at spans
  refine .layer (layer_alike (spans n List.mem_cons_self) fun child below => ?_)
  have := sizeOf_lt_of_mem_children below
  refine alike_of_spans child fun m found => spans m ?_
  exact List.mem_cons_of_mem _ (List.mem_flatMap.mpr ⟨child, below, found⟩)
termination_by sizeOf n

end Node

/-- The diagnostic is about a good position, and its notes are about good positions or none. -/
structure Diagnostic.Placed (good : Span → Prop) (d : Diagnostic) : Prop where
  primary : good d.primary
  notes : ∀ note ∈ d.notes, note.place = .zero ∨ good note.place

theorem Diagnostic.placed_of_alike {good : Span → Prop} {d : Diagnostic}
    (alike : d.Alike (.among good) d) : d.Placed good where
  primary := alike.primary.2
  notes note member := by
    rcases (List.forall₂_same.mp alike.notes note member).place with known | ⟨zero, -⟩
    · exact .inr known.2
    · exact .inl zero

namespace Check

theorem tree_placed (env : Env) {t : Tree} {good : Span → Prop} (complete : t.Complete)
    (spans : ∀ n ∈ t.visits, ∀ p ∈ n.spans, good p) :
    ∃ s, (tree env t).run (.start .fresh) = .ok () s ∧
      ∀ d ∈ s.emitted.toList, d.Placed good := by
  have consistent := Likeness.among_consistent good env.names
  have fresh := Context.fresh_alike consistent fun h _ => (rfl : h = h)
  have nodes : List.Forall₂ (Option.Rel (Node.Alike (.among good))) t.nodes t.nodes := by
    refine Node.slots_alike fun n member => n.alike_of_spans fun m found => spans m ?_
    exact List.mem_flatMap.mpr ⟨n, member, found⟩
  obtain ⟨s, ends, -⟩ := tree_ends env complete (.start .fresh)
  have conform := tree_conform (alike_steps consistent env.options)
    ⟨fun ⟨inner⟩ => inner, .layer⟩ nodes _ _ (.start fresh)
  rw [ends] at conform
  cases conform with
  | ok _ alike =>
    exact ⟨s, ends, fun d member =>
      Diagnostic.placed_of_alike (List.forall₂_same.mp alike.emitted d member)⟩

/-- Every diagnostic belongs to the file it is about. The check of a file from the fresh context
comes to its end, and whatever was said, by reading the file or by checking its tree, is said about
the position of a node of its document, in that file and on a known line; and every note is about
such a position, or about none. -/
theorem diagnostics_placed (f : SourceFile) (names : Interner) (env : Env) :
    ∃ s, (tree env (Load.ofFile f names).tree).run (.start .fresh) = .ok () s ∧
      ∀ d, d ∈ (Load.ofFile f names).diagnostics ∨ d ∈ s.emitted.toList →
        ∃ doc, Yaml.Document.read f.content = .ok (some doc) ∧
          d.primary.file = f.id ∧ d.primary.isKnown = true ∧
          d.Placed (Load.Source.Position ⟨f.id, doc⟩) := by
  have complete := (Load.ofFile_complete f names).1
  rcases Load.ofFile_cases f names with ⟨doc, read, source⟩ | ⟨blank, silent⟩
  · obtain ⟨s, ends, placed⟩ := tree_placed env complete source.spans
    have known {d : Diagnostic} (placed : d.Placed (Load.Source.Position ⟨f.id, doc⟩)) :
        d.primary.file = f.id ∧ d.primary.isKnown = true := by
      obtain ⟨n, has, same⟩ := placed.primary
      have line : 0 < n.place.line := (Yaml.Document.read_closed read).placed n has
      rw [same]
      exact ⟨rfl, bne_iff_ne.mpr (Nat.ne_of_gt line)⟩
    refine ⟨s, ends, fun d said => ?_⟩
    have about : d.Placed (Load.Source.Position ⟨f.id, doc⟩) := by
      rcases said with reading | checking
      · obtain ⟨primary, bare⟩ := source.objects d reading
        exact ⟨primary, by rw [bare]; nofun⟩
      · exact placed d checking
    exact ⟨doc, read, (known about).1, (known about).2, about⟩
  · have spans : ∀ n ∈ (Load.ofFile f names).tree.visits, ∀ p ∈ n.spans, False := by
      rw [blank]
      nofun
    obtain ⟨s, ends, placed⟩ := tree_placed env complete spans
    refine ⟨s, ends, fun d said => ?_⟩
    rcases said with reading | checking
    · rw [silent] at reading
      cases reading
    · exact (placed d checking).primary.elim

end Check

end TreeCheck
