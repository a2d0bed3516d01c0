import Mathlib.Data.List.Forall2
import TreeCheck.Tree.Walk

/-!
Trees that differ in nothing but their handles and positions. Two readings of one document may hand
out different handles for the same names, and count their files differently; a `Likeness` says which
handles and which positions stand for the same thing, and two trees are alike if they are the same
up to it.
-/

namespace TreeCheck

/-- Which handles, and which positions, stand for the same thing on two sides. -/
structure Likeness where
  handle : Handle → Handle → Prop
  span : Span → Span → Prop

/-- Everything stands for itself alone. -/
def Likeness.same : Likeness :=
  ⟨Eq, Eq⟩

variable {α : Type}

structure Site.Alike (l : Likeness) (a b : Site) : Prop where
  id_eq : a.id = b.id
  span : l.span a.span b.span

inductive Argument.Alike (l : Likeness) (node : α → α → Prop) : Argument α → Argument α → Prop
  | intro {x y : Option α} {name name' : Handle} :
    Option.Rel node x y → l.handle name name' → Alike l node ⟨x, name⟩ ⟨y, name'⟩

inductive Accessor.Alike (l : Likeness) (node : α → α → Prop) : Accessor α → Accessor α → Prop
  | intro {s t : Span} {name name' : Handle} (isField : Bool) {xs ys : List (Argument α)} :
    l.span s t → l.handle name name' → List.Forall₂ (Argument.Alike l node) xs ys →
      Alike l node ⟨s, name, isField, xs⟩ ⟨t, name', isField, ys⟩

inductive Param.Alike (l : Likeness) (node : α → α → Prop) : Param α → Param α → Prop
  | intro {s t : Span} {name name' : Handle} (isOptional : Bool) {x y : Option α}
      (isDynamic isMutable : Bool) {declared declared' : Handle} :
    l.span s t → l.handle name name' → Option.Rel node x y → l.handle declared declared' →
      Alike l node ⟨s, name, isOptional, x, isDynamic, isMutable, declared⟩
        ⟨t, name', isOptional, y, isDynamic, isMutable, declared'⟩

inductive Field.Alike (l : Likeness) (node : α → α → Prop) : Field α → Field α → Prop
  | intro {s t : Span} {name name' : Handle} (modifiers : List Modifier)
      {declared declared' : Handle} {x y : Option α} :
    l.span s t → l.handle name name' → l.handle declared declared' → Option.Rel node x y →
      Alike l node ⟨s, name, modifiers, declared, x⟩ ⟨t, name', modifiers, declared', y⟩

inductive Branch.Alike (node : α → α → Prop) : Branch α → Branch α → Prop
  | intro {guard guard' x y : Option α} :
    Option.Rel node guard guard' → Option.Rel node x y → Alike node ⟨guard, x⟩ ⟨guard', y⟩

inductive Initializer.Alike (l : Likeness) (node : α → α → Prop) :
    Initializer α → Initializer α → Prop
  | intro {name name' : Handle} {x y : Option α} :
    l.handle name name' → Option.Rel node x y → Alike l node ⟨name, x⟩ ⟨name', y⟩

inductive Lambda.Alike (l : Likeness) (node : α → α → Prop) : Lambda α → Lambda α → Prop
  | intro {s t : Site} (modifiers : List Modifier) {xs ys : List (Param α)} {x y : Option α}
      {declared declared' : Handle} :
    s.Alike l t → List.Forall₂ (Param.Alike l node) xs ys → Option.Rel node x y →
      l.handle declared declared' →
        Alike l node ⟨s, modifiers, xs, x, declared⟩ ⟨t, modifiers, ys, y, declared'⟩

inductive Function.Alike (l : Likeness) (node : α → α → Prop) : Function α → Function α → Prop
  | intro {s t : Site} {name name' : Handle} {x y : Option (Lambda α)} :
    s.Alike l t → l.handle name name' → Option.Rel (Lambda.Alike l node) x y →
      Alike l node ⟨s, name, x⟩ ⟨t, name', y⟩

inductive Chain.Alike (l : Likeness) (node : α → α → Prop) : Chain α → Chain α → Prop
  | intro {s t : Site} {name name' : Handle} {xs ys : List (Accessor α)} :
    s.Alike l t → l.handle name name' → List.Forall₂ (Accessor.Alike l node) xs ys →
      Alike l node ⟨s, name, xs⟩ ⟨t, name', ys⟩

inductive Class.Alike (l : Likeness) (node : α → α → Prop) : Class α → Class α → Prop
  | intro {name name' : Handle} {supers supers' : List Handle} (params : List Modifier)
      {fields fields' : List (Field α)} {init init' : List (Lambda α)}
      {methods methods' : List (Function α)} {pre pre' post post' : Option α}
      {final final' validate validate' : Option α} :
    l.handle name name' → List.Forall₂ l.handle supers supers' →
      List.Forall₂ (Field.Alike l node) fields fields' →
      List.Forall₂ (Lambda.Alike l node) init init' →
      List.Forall₂ (Function.Alike l node) methods methods' → Option.Rel node pre pre' →
      Option.Rel node post post' → Option.Rel node final final' →
      Option.Rel node validate validate' →
        Alike l node ⟨name, supers, params, fields, init, methods, pre, post, final, validate⟩
          ⟨name', supers', params, fields', init', methods', pre', post', final', validate'⟩

/-- The two nodes are of one kind, and their parts are the same up to a likeness of handles and
positions and the given relation of the nodes below. -/
inductive Node.Layer (l : Likeness) (node : Node → Node → Prop) : Node → Node → Prop
  | integer {s t : Site} (value : Int) :
    s.Alike l t → Layer l node (.integer s value) (.integer t value)
  | float {s t : Site} (bits : UInt64) : s.Alike l t → Layer l node (.float s bits) (.float t bits)
  | boolean {s t : Site} (value : Bool) :
    s.Alike l t → Layer l node (.boolean s value) (.boolean t value)
  | string {s t : Site} (value : Text) :
    s.Alike l t → Layer l node (.string s value) (.string t value)
  | quote {s t : Site} : s.Alike l t → Layer l node (.quote s) (.quote t)
  | nil {s t : Site} : s.Alike l t → Layer l node (.nil s) (.nil t)
  | pair {s t : Site} : s.Alike l t → Layer l node (.pair s) (.pair t)
  | vector {s t : Site} {xs ys : List (Option Node)} :
    s.Alike l t → List.Forall₂ (Option.Rel node) xs ys → Layer l node (.vector s xs) (.vector t ys)
  | define {s t : Site} {name name' : Handle} (modifiers : List Modifier) {x y : Option Node}
      {declared declared' : Handle} :
    s.Alike l t → l.handle name name' → Option.Rel node x y → l.handle declared declared' →
      Layer l node (.define s name modifiers x declared) (.define t name' modifiers y declared')
  | lambda {a b : Lambda Node} : a.Alike l node b → Layer l node (.lambda a) (.lambda b)
  | function {a b : Function Node} : a.Alike l node b → Layer l node (.function a) (.function b)
  | struct {s t : Site} {name name' : Handle} {xs ys : List (Field Node)} :
    s.Alike l t → l.handle name name' → List.Forall₂ (Field.Alike l node) xs ys →
      Layer l node (.struct s name xs) (.struct t name' ys)
  | cls {s t : Site} {a b : Class Node} :
    s.Alike l t → a.Alike l node b → Layer l node (.cls s a) (.cls t b)
  | assign {s t : Site} {name name' : Handle} {x y : Option Node} :
    s.Alike l t → l.handle name name' → Option.Rel node x y →
      Layer l node (.assign s name x) (.assign t name' y)
  | block {s t : Site} {xs ys : List (Option Node)} :
    s.Alike l t → List.Forall₂ (Option.Rel node) xs ys → Layer l node (.block s xs) (.block t ys)
  | print {s t : Site} {x y : Option Node} :
    s.Alike l t → Option.Rel node x y → Layer l node (.print s x) (.print t y)
  | cond {s t : Site} {a b : Branch Node} {x y : Option Node} :
    s.Alike l t → a.Alike node b → Option.Rel node x y →
      Layer l node (.cond s a x) (.cond t b y)
  | conds {s t : Site} {xs ys : List (Branch Node)} {x y : Option Node} :
    s.Alike l t → List.Forall₂ (Branch.Alike node) xs ys → Option.Rel node x y →
      Layer l node (.conds s xs x) (.conds t ys y)
  | loop {s t : Site} {guard guard' x y : Option Node} (bodyFirst : Bool) :
    s.Alike l t → Option.Rel node guard guard' → Option.Rel node x y →
      Layer l node (.loop s guard x bodyFirst) (.loop t guard' y bodyFirst)
  | cons {s t : Site} {car car' cdr cdr' : Option Node} :
    s.Alike l t → Option.Rel node car car' → Option.Rel node cdr cdr' →
      Layer l node (.cons s car cdr) (.cons t car' cdr')
  | list {s t : Site} (op : Operator) {xs ys : List (Option Node)} :
    s.Alike l t → List.Forall₂ (Option.Rel node) xs ys →
      Layer l node (.list s op xs) (.list t op ys)
  | access {s t : Site} {index index' : Option Node} {pattern pattern' : Handle}
      {x y : Option Node} :
    s.Alike l t → Option.Rel node index index' → l.handle pattern pattern' →
      Option.Rel node x y → Layer l node (.access s index pattern x) (.access t index' pattern' y)
  | call {s t : Site} {name name' : Handle} {xs ys : List (Argument Node)} :
    s.Alike l t → l.handle name name' → List.Forall₂ (Argument.Alike l node) xs ys →
      Layer l node (.call s name xs) (.call t name' ys)
  | invoke {s t : Site} {x y : Option Node} {as bs : List (Accessor Node)}
      {xs ys : List (Argument Node)} :
    s.Alike l t → Option.Rel node x y → List.Forall₂ (Accessor.Alike l node) as bs →
      List.Forall₂ (Argument.Alike l node) xs ys →
        Layer l node (.invoke s x as xs) (.invoke t y bs ys)
  | member {a b : Chain Node} : a.Alike l node b → Layer l node (.member a) (.member b)
  | assignMember {s t : Site} {a b : Option (Chain Node)} {x y : Option Node} :
    s.Alike l t → Option.Rel (Chain.Alike l node) a b → Option.Rel node x y →
      Layer l node (.assignMember s a x) (.assignMember t b y)
  | ident {s t : Site} {name name' : Handle} :
    s.Alike l t → l.handle name name' → Layer l node (.ident s name) (.ident t name')
  | random {s t : Site} (isFloat : Bool) {lower lower' upper upper' : Option Node} :
    s.Alike l t → Option.Rel node lower lower' → Option.Rel node upper upper' →
      Layer l node (.random s isFloat lower upper) (.random t isFloat lower' upper')
  | create {s t : Site} {name name' : Handle} {xs ys : List (Initializer Node)} :
    s.Alike l t → l.handle name name' → List.Forall₂ (Initializer.Alike l node) xs ys →
      Layer l node (.create s name xs) (.create t name' ys)
  | construct {s t : Site} {name name' : Handle} {xs ys : List (Argument Node)} :
    s.Alike l t → l.handle name name' → List.Forall₂ (Argument.Alike l node) xs ys →
      Layer l node (.construct s name xs) (.construct t name' ys)
  | operation {s t : Site} (op : Operator) {xs ys : List (Option Node)} :
    s.Alike l t → List.Forall₂ (Option.Rel node) xs ys →
      Layer l node (.operation s op xs) (.operation t op ys)
  | foreign {s t : Site} (kind : String) :
    s.Alike l t → Layer l node (.foreign s kind) (.foreign t kind)

/-- The two nodes are the same, all the way down, up to a likeness of handles and positions. -/
inductive Node.Alike (l : Likeness) : Node → Node → Prop
  | layer {n m : Node} : Layer l (Alike l) n m → Alike l n m

/-! ### Everything the same -/

@[simp] theorem Likeness.handle_same : Likeness.same.handle = Eq :=
  rfl

@[simp] theorem Option.rel_same : Option.Rel (Eq : α → α → Prop) = Eq := by
  ext x y
  constructor
  · rintro (⟨rfl⟩ | ⟨⟩) <;> rfl
  · rintro rfl
    cases x with
    | none => exact .none
    | some a => exact .some rfl

@[simp] theorem Site.alike_same : Site.Alike .same = Eq := by
  ext ⟨id, span⟩ ⟨id', span'⟩
  constructor
  · rintro ⟨rfl : id = id', rfl : span = span'⟩
    rfl
  · rintro ⟨⟩
    exact ⟨rfl, rfl⟩

@[simp] theorem Argument.alike_same : Argument.Alike .same (Eq : α → α → Prop) = Eq := by
  ext a b
  constructor
  · rintro ⟨value, rfl⟩
    rw [Option.rel_same] at value
    rw [value]
  · rintro rfl
    exact ⟨Option.rel_same ▸ rfl, rfl⟩

@[simp] theorem Accessor.alike_same : Accessor.Alike .same (Eq : α → α → Prop) = Eq := by
  ext a b
  constructor
  · rintro ⟨_, rfl, rfl, args⟩
    rw [Argument.alike_same, List.forall₂_eq_eq_eq] at args
    rw [args]
  · rintro rfl
    refine ⟨_, rfl, rfl, ?_⟩
    rw [Argument.alike_same, List.forall₂_eq_eq_eq]

@[simp] theorem Param.alike_same : Param.Alike .same (Eq : α → α → Prop) = Eq := by
  ext a b
  constructor
  · rintro ⟨_, _, _, rfl, rfl, default, rfl⟩
    rw [Option.rel_same] at default
    rw [default]
  · rintro rfl
    exact ⟨_, _, _, rfl, rfl, Option.rel_same ▸ rfl, rfl⟩

@[simp] theorem Field.alike_same : Field.Alike .same (Eq : α → α → Prop) = Eq := by
  ext a b
  constructor
  · rintro ⟨_, rfl, rfl, rfl, default⟩
    rw [Option.rel_same] at default
    rw [default]
  · rintro rfl
    exact ⟨_, rfl, rfl, rfl, Option.rel_same ▸ rfl⟩

@[simp] theorem Branch.alike_same : Branch.Alike (Eq : α → α → Prop) = Eq := by
  ext a b
  constructor
  · rintro ⟨guard, body⟩
    rw [Option.rel_same] at guard body
    rw [guard, body]
  · rintro rfl
    exact ⟨Option.rel_same ▸ rfl, Option.rel_same ▸ rfl⟩

@[simp] theorem Initializer.alike_same : Initializer.Alike .same (Eq : α → α → Prop) = Eq := by
  ext a b
  constructor
  · rintro ⟨rfl, value⟩
    rw [Option.rel_same] at value
    rw [value]
  · rintro rfl
    exact ⟨rfl, Option.rel_same ▸ rfl⟩

@[simp] theorem Lambda.alike_same : Lambda.Alike .same (Eq : α → α → Prop) = Eq := by
  ext a b
  constructor
  · rintro ⟨_, site, params, body, rfl⟩
    rw [Site.alike_same] at site
    rw [Param.alike_same, List.forall₂_eq_eq_eq] at params
    rw [Option.rel_same] at body
    rw [site, params, body]
  · rintro rfl
    refine ⟨_, ?_, ?_, Option.rel_same ▸ rfl, rfl⟩
    · rw [Site.alike_same]
    · rw [Param.alike_same, List.forall₂_eq_eq_eq]

@[simp] theorem Function.alike_same : Function.Alike .same (Eq : α → α → Prop) = Eq := by
  ext a b
  constructor
  · rintro ⟨site, rfl, lambda⟩
    rw [Site.alike_same] at site
    rw [Lambda.alike_same, Option.rel_same] at lambda
    rw [site, lambda]
  · rintro rfl
    refine ⟨Site.alike_same ▸ rfl, rfl, ?_⟩
    rw [Lambda.alike_same, Option.rel_same]

@[simp] theorem Chain.alike_same : Chain.Alike .same (Eq : α → α → Prop) = Eq := by
  ext a b
  constructor
  · rintro ⟨site, rfl, accessors⟩
    rw [Site.alike_same] at site
    rw [Accessor.alike_same, List.forall₂_eq_eq_eq] at accessors
    rw [site, accessors]
  · rintro rfl
    refine ⟨Site.alike_same ▸ rfl, rfl, ?_⟩
    rw [Accessor.alike_same, List.forall₂_eq_eq_eq]

@[simp] theorem Class.alike_same : Class.Alike .same (Eq : α → α → Prop) = Eq := by
  ext a b
  constructor
  · rintro ⟨_, rfl, supers, fields, init, methods, pre, post, final, validate⟩
    rw [Likeness.handle_same, List.forall₂_eq_eq_eq] at supers
    rw [Field.alike_same, List.forall₂_eq_eq_eq] at fields
    rw [Lambda.alike_same, List.forall₂_eq_eq_eq] at init
    rw [Function.alike_same, List.forall₂_eq_eq_eq] at methods
    rw [Option.rel_same] at pre post final validate
    rw [supers, fields, init, methods, pre, post, final, validate]
  · rintro rfl
    constructor <;> simp

theorem Node.layer_same : Node.Layer .same Eq = Eq := by
  ext n m
  constructor
  · intro layer
    cases layer <;> simp_all
  · rintro rfl
    cases n <;> constructor <;> simp

end TreeCheck
