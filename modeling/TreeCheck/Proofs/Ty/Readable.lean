import TreeCheck.Proofs.Interner.Sound
import TreeCheck.Proofs.Text.Split
import TreeCheck.Proofs.Ty.Normal
import TreeCheck.Ty.Label

/-!
Labels that tell the type. The first byte of a label tells the kind, a name ends where a separator
follows, and every part of a label is followed by a separator or by nothing; so a label can be read
from the left, and wherever it stands, it tells both the type and where it ends. In particular, the
bracket of an arrow is never taken for the end of a vector.
-/

namespace TreeCheck.Ty

def plainKinds : List Kind :=
  [.unresolved, .integer, .float, .boolean, .string, .nil, .pair, .quote]

theorem plain_apart : ∀ k ∈ plainKinds, k ≠ .vector ∧ k ≠ .object ∧ k ≠ .lambda := by
  decide

/-- The bytes that may follow a label inside another one, or might be taken for such: space, comma,
parentheses and angle brackets. -/
def separators : Text :=
  text " ,()<>"

/-- The handle has a name that is not empty and holds no separator. -/
def Named (names : Interner) (h : Handle) : Prop :=
  ∃ name, names.find? h = some name ∧ name ≠ [] ∧ ∀ b ∈ name, b ∉ separators

/-- Types that are nested at most so many levels deep, without super types, with all the parts that
count and with names that can be told from what surrounds them. -/
inductive Readable (names : Interner) : Nat → Ty → Prop
  | plain {levels : Nat} {k : Kind} (e : Option Ty) (o : Option (ObjectOf Ty))
      (s : Option (SignatureOf Ty)) (simple : k ∈ plainKinds) :
      Readable names levels (mk k e o s)
  | vector {levels : Nat} {elem : Ty} (o : Option (ObjectOf Ty)) (s : Option (SignatureOf Ty))
      (inner : Readable names levels elem) :
      Readable names (levels + 1) (mk .vector (some elem) o s)
  | object {levels : Nat} {h : Handle} (e : Option Ty) (s : Option (SignatureOf Ty))
      (named : Named names h) : Readable names levels (mk .object e (some ⟨h, []⟩) s)
  | lambda {levels : Nat} {result : Ty} {args : List Ty} (e : Option Ty)
      (o : Option (ObjectOf Ty)) (inner : Readable names levels result)
      (all : ∀ arg ∈ args, Readable names levels arg) :
      Readable names (levels + 1) (mk .lambda e o (some ⟨some result, args⟩))

section

variable {names : Interner} {levels depth : Nat} {t : Ty}

/-! ### Labels by kind -/

def word (k : Kind) : Text :=
  if k = .unresolved then text "?" else k.toText

theorem labelAt_plain {k : Kind} (e : Option Ty) (o : Option (ObjectOf Ty))
    (s : Option (SignatureOf Ty)) (simple : k ∈ plainKinds) (shallow : depth ≤ labelDepth) :
    labelAt (some names) (mk k e o s) depth = word k := by
  obtain ⟨vector, object, lambda⟩ := plain_apart k simple
  rw [labelAt, if_neg (Nat.not_lt.mpr shallow), if_neg vector, if_neg object, if_neg lambda, word]

theorem labelAt_vector (elem : Ty) (o : Option (ObjectOf Ty)) (s : Option (SignatureOf Ty))
    (shallow : depth ≤ labelDepth) :
    labelAt (some names) (mk .vector (some elem) o s) depth =
      text "vector<" ++ labelAt (some names) elem (depth + 1) ++ text ">" := by
  rw [labelAt, if_neg (Nat.not_lt.mpr shallow), if_pos rfl, labelPart]

theorem labelAt_object (h : Handle) (e : Option Ty) (s : Option (SignatureOf Ty))
    (shallow : depth ≤ labelDepth) :
    labelAt (some names) (mk .object e (some ⟨h, []⟩) s) depth =
      text "object " ++ names.display h := by
  rw [labelAt, if_neg (Nat.not_lt.mpr shallow), if_neg (by decide), if_pos rfl, labelObject,
    displayWith, List.isEmpty_nil, if_pos rfl, List.append_nil]

theorem labelAll_eq_map (types : List Ty) :
    labelAll (some names) types depth = types.map fun t => labelAt (some names) t depth := by
  induction types with
  | nil => rw [labelAll, List.map_nil]
  | cons t rest ih => rw [labelAll, ih, List.map_cons]

theorem labelAt_lambda (result : Ty) (args : List Ty) (e : Option Ty) (o : Option (ObjectOf Ty))
    (shallow : depth ≤ labelDepth) :
    labelAt (some names) (mk .lambda e o (some ⟨some result, args⟩)) depth =
      text "(" ++ Text.join (text ", ") (args.map fun t => labelAt (some names) t (depth + 1)) ++
        text ") -> " ++ labelAt (some names) result (depth + 1) := by
  rw [labelAt, if_neg (Nat.not_lt.mpr shallow), if_neg (by decide), if_neg (by decide), if_pos rfl,
    labelSignature, labelPart, labelAll_eq_map]

/-! ### The first byte of a label -/

def initial (k : Kind) : UInt8 :=
  if k = .lambda then 40 else (word k).headD 0

def labelKinds : List Kind :=
  [.vector, .object, .lambda] ++ plainKinds

theorem initial_inj : ∀ k ∈ labelKinds, ∀ k' ∈ labelKinds, initial k = initial k' → k = k' := by
  decide

theorem initial_ne_closing : ∀ k ∈ labelKinds, initial k ≠ 41 := by
  decide

theorem Readable.kind_mem (readable : Readable names levels t) : t.kind ∈ labelKinds := by
  cases readable with
  | plain e o s simple => exact List.mem_append_right _ simple
  | vector => exact (by decide : Kind.vector ∈ labelKinds)
  | object => exact (by decide : Kind.object ∈ labelKinds)
  | lambda => exact (by decide : Kind.lambda ∈ labelKinds)

theorem word_head : ∀ k ∈ plainKinds, word k = initial k :: (word k).tail := by
  decide

theorem Readable.label_head (readable : Readable names levels t) (shallow : depth ≤ labelDepth) :
    ∃ rest, labelAt (some names) t depth = initial t.kind :: rest := by
  cases readable with
  | plain e o s simple =>
    rw [labelAt_plain e o s simple shallow]
    exact ⟨_, word_head _ simple⟩
  | vector o s inner =>
    rw [labelAt_vector _ o s shallow, List.append_assoc]
    exact ⟨_, rfl⟩
  | object e s named =>
    rw [labelAt_object _ e s shallow]
    exact ⟨_, rfl⟩
  | lambda e o inner all =>
    rw [labelAt_lambda _ _ e o shallow, List.append_assoc, List.append_assoc]
    exact ⟨_, rfl⟩

end

/-! ### Reading labels from the left -/

def Stops (t : Text) : Prop :=
  ∀ b ∈ t.head?, b ∈ separators

/-- Wherever the label of the type stands, it tells the type and where it ends. -/
def Told (names : Interner) (levels : Nat) (a : Ty) : Prop :=
  ∀ {b : Ty} {depth : Nat} {x y : Text}, Readable names levels b → depth + levels ≤ labelDepth →
    Stops x → Stops y →
    labelAt (some names) a depth ++ x = labelAt (some names) b depth ++ y →
    equal a b = true ∧ x = y

section

variable {names : Interner} {levels depth : Nat} {a b t : Ty} {x y : Text}

theorem name_append_inj {name name' : Text} (clean : ∀ b ∈ name, b ∉ separators)
    (clean' : ∀ b ∈ name', b ∉ separators) (stops : Stops x) (stops' : Stops y)
    (same : name ++ x = name' ++ y) : name = name' ∧ x = y := by
  have inside {t : Text} (clean : ∀ b ∈ t, b ∉ separators) :
      ∀ b ∈ t, decide (b ∉ separators) = true :=
    fun b member => decide_eq_true (clean b member)
  have boundary {t : Text} (stops : Stops t) :
      ∀ b ∈ t.head?, decide (b ∉ separators) = false :=
    fun b first => decide_eq_false (not_not_intro (stops b first))
  exact Text.append_inj_of_boundary (inside clean) (inside clean') (boundary stops)
    (boundary stops') same

theorem Named.display_eq {h : Handle} (named : Named names h) :
    names.find? h = some (names.display h) ∧ ∀ b ∈ names.display h, b ∉ separators := by
  obtain ⟨name, found, some, clean⟩ := named
  have shown : names.display h = name := by
    rw [Interner.display, found]
    cases name with
    | nil => exact absurd rfl some
    | cons => rfl
  rw [shown]
  exact ⟨found, clean⟩

/-! ### The parts of readable types -/

theorem Readable.of_vector (readable : Readable names (levels + 1) t) (vector : t.kind = .vector) :
    ∃ elem o s, t = mk .vector (some elem) o s ∧ Readable names levels elem := by
  cases readable with
  | plain e o s simple =>
    cases vector
    exact absurd simple (by decide)
  | vector o s inner => exact ⟨_, o, s, rfl, inner⟩
  | object | lambda => cases vector

theorem Readable.of_object (readable : Readable names levels t) (object : t.kind = .object) :
    ∃ h e s, t = mk .object e (some ⟨h, []⟩) s ∧ Named names h := by
  cases readable with
  | plain e o s simple =>
    cases object
    exact absurd simple (by decide)
  | object e s named => exact ⟨_, e, s, rfl, named⟩
  | vector | lambda => cases object

theorem Readable.of_lambda (readable : Readable names (levels + 1) t) (lambda : t.kind = .lambda) :
    ∃ result args e o, t = mk .lambda e o (some ⟨some result, args⟩) ∧
      Readable names levels result ∧ ∀ arg ∈ args, Readable names levels arg := by
  cases readable with
  | plain e o s simple =>
    cases lambda
    exact absurd simple (by decide)
  | lambda e o inner all => exact ⟨_, _, e, o, rfl, inner, all⟩
  | vector | object => cases lambda

theorem Readable.kind_eq (first : Readable names levels a) (second : Readable names levels b)
    (shallow : depth ≤ labelDepth)
    (same : labelAt (some names) a depth ++ x = labelAt (some names) b depth ++ y) :
    a.kind = b.kind := by
  obtain ⟨rest, label⟩ := first.label_head shallow
  obtain ⟨rest', label'⟩ := second.label_head shallow
  rw [label, label'] at same
  exact initial_inj _ first.kind_mem _ second.kind_mem (List.cons.inj same).1

/-! ### Every readable type is told by its label -/

theorem plain_told {k : Kind} (e : Option Ty) (o : Option (ObjectOf Ty))
    (s : Option (SignatureOf Ty)) (simple : k ∈ plainKinds) :
    Told names levels (mk k e o s) := by
  intro b depth x y readable within _ _ same
  have shallow : depth ≤ labelDepth := by omega
  have kinds := Readable.kind_eq (.plain e o s simple) readable shallow same
  obtain ⟨k', e', o', s'⟩ := b
  cases (kinds : k = k')
  rw [labelAt_plain e o s simple shallow, labelAt_plain e' o' s' simple shallow] at same
  obtain ⟨vector, object, lambda⟩ := plain_apart k simple
  refine ⟨?_, List.append_cancel_left same⟩
  rw [equal, if_neg vector, if_neg object, if_neg lambda, decide_eq_true rfl, Bool.and_true]

theorem vector_told {elem : Ty} (o : Option (ObjectOf Ty)) (s : Option (SignatureOf Ty))
    (inner : Readable names levels elem) (told : Told names levels elem) :
    Told names (levels + 1) (mk .vector (some elem) o s) := by
  intro b depth x y readable within _ _ same
  have shallow : depth ≤ labelDepth := by omega
  have kinds := Readable.kind_eq (.vector o s inner) readable shallow same
  obtain ⟨elem', o', s', rfl, inner'⟩ := readable.of_vector kinds.symm
  rw [labelAt_vector elem o s shallow, labelAt_vector elem' o' s' shallow] at same
  simp only [List.append_assoc] at same
  have closing (rest : Text) : Stops (text ">" ++ rest) := by
    rintro _ ⟨⟩
    decide
  obtain ⟨elems, tails⟩ := told inner' (by omega) (closing x) (closing y)
    (List.append_cancel_left same)
  refine ⟨?_, List.append_cancel_left tails⟩
  rw [equal, equalPart]
  exact elems

theorem object_told (sound : names.Sound) {h : Handle} (e : Option Ty)
    (s : Option (SignatureOf Ty)) (named : Named names h) :
    Told names levels (mk .object e (some ⟨h, []⟩) s) := by
  intro b depth x y readable within stops stops' same
  have shallow : depth ≤ labelDepth := by omega
  have kinds := Readable.kind_eq (.object e s named) readable shallow same
  obtain ⟨h', e', s', rfl, named'⟩ := readable.of_object kinds.symm
  rw [labelAt_object h e s shallow, labelAt_object h' e' s' shallow] at same
  simp only [List.append_assoc] at same
  obtain ⟨found, clean⟩ := named.display_eq
  obtain ⟨found', clean'⟩ := named'.display_eq
  obtain ⟨shown, tails⟩ := name_append_inj clean clean' stops stops'
    (List.append_cancel_left same)
  cases sound.handle_unique found (shown ▸ found')
  refine ⟨?_, tails⟩
  rw [equal, if_neg (by decide), if_pos rfl, equalObject, equalAll, decide_eq_true rfl,
    decide_eq_true rfl]
  rfl

/-- The labels of the arguments after the first, each after a comma. -/
def further (names : Interner) (depth : Nat) (args : List Ty) : Text :=
  args.flatMap fun t => text ", " ++ labelAt (some names) t depth

theorem stops_further (depth : Nat) (args : List Ty) (rest : Text) :
    Stops (further names depth args ++ (text ")" ++ rest)) := by
  cases args with
  | nil =>
    rintro _ ⟨⟩
    decide
  | cons =>
    rintro _ ⟨⟩
    decide

theorem further_cons (depth : Nat) (arg : Ty) (rest : List Ty) :
    further names depth (arg :: rest) =
      text ", " ++ (labelAt (some names) arg depth ++ further names depth rest) := by
  rw [further, List.flatMap_cons, List.append_assoc, further]

theorem further_told {args args' : List Ty} (readable : ∀ arg ∈ args', Readable names levels arg)
    (told : ∀ arg ∈ args, Told names levels arg) (within : depth + levels ≤ labelDepth)
    (same : further names depth args ++ (text ")" ++ x) =
      further names depth args' ++ (text ")" ++ y)) :
    equalAll args args' = true ∧ x = y := by
  induction args generalizing args' with
  | nil =>
    cases args' with
    | nil =>
      refine ⟨?_, List.append_cancel_left (List.append_cancel_left same)⟩
      rw [equalAll]
    | cons => cases (List.cons.inj same).1
  | cons arg rest ih =>
    cases args' with
    | nil => cases (List.cons.inj same).1
    | cons arg' rest' =>
      rw [further_cons, further_cons] at same
      simp only [List.append_assoc] at same
      obtain ⟨heads, tails⟩ := told arg List.mem_cons_self (readable arg' List.mem_cons_self)
        within (stops_further depth rest x) (stops_further depth rest' y)
        (List.append_cancel_left same)
      obtain ⟨others, rests⟩ := ih (fun t member => readable t (List.mem_cons_of_mem _ member))
        (fun t member => told t (List.mem_cons_of_mem _ member)) tails
      refine ⟨?_, rests⟩
      rw [equalAll, heads, others, Bool.true_and]

theorem join_labels (depth : Nat) (arg : Ty) (rest : List Ty) :
    Text.join (text ", ") ((arg :: rest).map fun t => labelAt (some names) t depth) =
      labelAt (some names) arg depth ++ further names depth rest := by
  rw [List.map_cons, Text.join_eq_flatMap, List.flatMap_map, further]

/-- The label of a first argument is never taken for the end of the arguments. -/
theorem Readable.label_ne_closing (readable : Readable names levels t)
    (shallow : depth ≤ labelDepth) : labelAt (some names) t depth ++ x ≠ text ")" ++ y := by
  obtain ⟨rest, label⟩ := readable.label_head shallow
  rw [label]
  intro same
  exact initial_ne_closing _ readable.kind_mem (List.cons.inj same).1

theorem args_told {args args' : List Ty} (readable : ∀ arg ∈ args, Readable names levels arg)
    (readable' : ∀ arg ∈ args', Readable names levels arg)
    (told : ∀ arg ∈ args, Told names levels arg) (within : depth + levels ≤ labelDepth)
    (same : Text.join (text ", ") (args.map fun t => labelAt (some names) t depth) ++
        (text ")" ++ x) =
      Text.join (text ", ") (args'.map fun t => labelAt (some names) t depth) ++
        (text ")" ++ y)) :
    equalAll args args' = true ∧ x = y := by
  have shallow : depth ≤ labelDepth := by omega
  cases args with
  | nil =>
    cases args' with
    | nil =>
      refine ⟨?_, List.append_cancel_left (List.append_cancel_left same)⟩
      rw [equalAll]
    | cons arg' rest' =>
      rw [join_labels, List.append_assoc] at same
      exact absurd same.symm ((readable' arg' List.mem_cons_self).label_ne_closing shallow)
  | cons arg rest =>
    cases args' with
    | nil =>
      rw [join_labels, List.append_assoc] at same
      exact absurd same ((readable arg List.mem_cons_self).label_ne_closing shallow)
    | cons arg' rest' =>
      -- with a comma before them too, the first arguments are read as all others
      rw [join_labels, join_labels] at same
      refine further_told readable' told within ?_
      simpa only [further_cons, List.append_assoc] using congrArg (text ", " ++ ·) same

theorem lambda_told {result : Ty} {args : List Ty} (e : Option Ty) (o : Option (ObjectOf Ty))
    (inner : Readable names levels result) (all : ∀ arg ∈ args, Readable names levels arg)
    (told : Told names levels result) (allTold : ∀ arg ∈ args, Told names levels arg) :
    Told names (levels + 1) (mk .lambda e o (some ⟨some result, args⟩)) := by
  intro b depth x y readable within stops stops' same
  have shallow : depth ≤ labelDepth := by omega
  have below : depth + 1 + levels ≤ labelDepth := by omega
  have kinds := Readable.kind_eq (.lambda e o inner all) readable shallow same
  obtain ⟨result', args', e', o', rfl, inner', all'⟩ := readable.of_lambda kinds.symm
  have arrow : text ") -> " = text ")" ++ text " -> " := by decide
  rw [labelAt_lambda result args e o shallow, labelAt_lambda result' args' e' o' shallow,
    arrow] at same
  simp only [List.append_assoc] at same
  obtain ⟨params, tails⟩ := args_told all all' allTold below (List.append_cancel_left same)
  obtain ⟨results, rests⟩ := told inner' below stops stops' (List.append_cancel_left tails)
  refine ⟨?_, rests⟩
  rw [equal, equalSignature, equalPart, results, params]
  rfl

/-- By induction on the type: every rule for a kind hands on to its parts what may follow them. -/
theorem Readable.told (sound : names.Sound) (readable : Readable names levels t) :
    Told names levels t := by
  induction readable with
  | plain e o s simple => exact plain_told e o s simple
  | vector o s inner ih => exact vector_told o s inner ih
  | object e s named => exact object_told sound e s named
  | lambda e o inner all ih allTold => exact lambda_told e o inner all ih allTold

theorem Readable.equal_of_label (sound : names.Sound) (first : Readable names labelDepth a)
    (second : Readable names labelDepth b) (same : a.label (some names) = b.label (some names)) :
    equal a b = true := by
  have nothing : Stops [] := fun _ absent => nomatch absent
  refine (first.told sound second (Nat.le_of_eq (Nat.zero_add labelDepth)) nothing nothing ?_).1
  rw [List.append_nil, List.append_nil]
  exact same

end

end TreeCheck.Ty
