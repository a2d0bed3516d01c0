import TreeCheck.Load
import TreeCheck.Proofs.Diagnostic.Key

/-!
The grammar of documents, as data. A slot of a mapping has a key and a form, and is needed or only
allowed; the kinds of nodes and their parts are listed with their slots, some with alternatives.
What derives from a form is said by an inductive relation, independently of how documents are read.
-/

namespace TreeCheck.Grammar

/-- What a mapping may describe: a node of a kind, or a part of a node. -/
inductive Record where
  | node (kind : String)
  | parameter | field | namedArgument | initializer | accessor | branch | initial
  deriving DecidableEq

inductive Form where
  | anything
  | null
  | scalar
  | literal (kind : String)
  | word (words : List String)
  | name
  | flag
  | node
  | body
  | sequence (item : Form)
  | couple (item : Form)
  | either (first second : Form)
  | record (described : Record)
  deriving DecidableEq

structure Slot where
  key : String
  required : Bool
  form : Form
  deriving DecidableEq

def needs (key : String) (form : Form) : Slot :=
  ⟨key, true, form⟩

def allows (key : String) (form : Form) : Slot :=
  ⟨key, false, form⟩

namespace Form

def optional (form : Form) : Form := .either .null form

def list (item : Form) : Form := .optional (.sequence item)

def nodes : Form := .list .node

def modifiers : Form := .list (.word Modifier.names)

def parameter : Form := .either .name (.record .parameter)

def field : Form := .either .name (.record .field)

def argument : Form := .either .node (.record .namedArgument)

def method : Form := .record (.node "func")

end Form

/-- The slots of a lambda that is written with its parameters under some key. -/
def lambdaSlots (params : Slot) : List Slot :=
  [params, allows "mods" .modifiers, allows "returns" (.optional .name), allows "body" .body]

/-- The kinds of nodes, each with the slots of a mapping of that kind. A list access comes in two
ways: by an index, or by a pattern; a null pattern is none. -/
def productions : List (String × List Slot) :=
  [("int", [needs "int" (.literal "int")]),
    ("float", [needs "float" (.literal "float")]),
    ("bool", [needs "bool" (.literal "bool")]),
    ("string", [needs "string" .scalar]),
    ("nil", [needs "nil" .anything]),
    ("quote", [needs "quote" .anything]),
    ("pair", [needs "pair" .anything]),
    ("vector", [needs "vector" .nodes]),
    ("ref", [needs "ref" .name]),
    ("def", [needs "def" .name, allows "mods" .modifiers, needs "value" .node,
      allows "type" (.optional .name)]),
    ("lambda", lambdaSlots (needs "lambda" (.list .parameter))),
    ("func", needs "func" .name :: lambdaSlots (allows "params" (.list .parameter))),
    ("struct", [needs "struct" .name, allows "fields" (.list .field)]),
    ("class", [needs "class" .name, allows "supers" (.list .name), allows "params" .modifiers,
      allows "fields" (.list .field), allows "init" (.list (.record .initial)),
      allows "methods" (.list .method), allows "pre" .body, allows "post" .body,
      allows "final" .body, allows "validate" .body]),
    ("set", [needs "set" .name, needs "value" .node]),
    ("do", [needs "do" .nodes]),
    ("print", [needs "print" .node]),
    ("if", [needs "if" .node, needs "then" .body, allows "else" .body]),
    ("cond", [needs "cond" (.list (.record .branch)), allows "else" .body]),
    ("while", [needs "while" .node, allows "body" .body, allows "dowhile" .flag]),
    ("cons", [needs "cons" (.couple .node)]),
    ("list", [needs "list" .nodes]),
    ("at", [needs "at" .node, needs "index" .node, allows "pattern" .null]),
    ("at", [needs "at" .node, needs "pattern" .name]),
    ("call", [needs "call" .name, allows "args" (.list .argument)]),
    ("invoke", [needs "invoke" .node, allows "access" (.list (.record .accessor)),
      allows "args" (.list .argument)]),
    ("get", [needs "get" .name, allows "access" (.list (.record .accessor))]),
    ("put", [needs "put" .name, allows "access" (.list (.record .accessor)),
      needs "value" .node]),
    ("rand", [needs "rand" (.word ["int", "float"]), allows "lower" .node, allows "upper" .node]),
    ("new", [needs "new" .name, allows "args" (.list (.record .initializer))]),
    ("make", [needs "make" .name, allows "args" (.list .argument)]),
    ("op", [needs "op" (.word Operator.symbols), allows "args" .nodes])]

def kinds : List String :=
  (productions.map (·.1)).eraseDups

/-- The slots of a mapping, by what it describes; one list for each alternative. -/
def Record.alternatives : Record → List (List Slot)
  | .node kind => (productions.filter (·.1 == kind)).map (·.2)
  | .parameter => [[needs "name" .name, allows "type" (.optional .name), allows "default" .node,
      allows "optional" .flag, allows "dyn" .flag, allows "mut" .flag]]
  | .field => [[needs "name" .name, allows "mods" .modifiers, allows "type" (.optional .name),
      allows "default" .node]]
  | .namedArgument => [[needs "named" .name, needs "value" .node]]
  | .initializer => [[needs "name" .name, needs "value" .node]]
  | .accessor => [[needs "field" .name], [needs "method" .name, allows "args" (.list .argument)]]
  | .branch => [[needs "when" .node, needs "then" .body]]
  | .initial => [lambdaSlots (allows "params" (.list .parameter))]

def Keyed (n : Yaml.Node) (key : String) : Prop :=
  ∃ s, n = .scalar s ∧ s.value = text key

def DistinctKeys (pairs : List (Yaml.Node × Yaml.Node)) : Prop :=
  (∀ pair ∈ pairs, ∃ s, pair.1 = .scalar s) ∧ (pairs.map fun pair => pair.1.text).Nodup

/-- The scalar can be decoded as a literal of the kind that its tag says. -/
inductive Decodes : String → Yaml.Scalar → Prop
  | bool {s : Yaml.Scalar} {b : Bool} :
    s.tag = text "!!bool" → s.toBool? = some b → Decodes "bool" s
  | int {s : Yaml.Scalar} {n : Int} : s.tag = text "!!int" → s.toInt? = some n → Decodes "int" s
  | float {s : Yaml.Scalar} {bits : UInt64} :
    s.tag = text "!!float" → s.toFloat? = some bits → Decodes "float" s

inductive Derives : Form → Yaml.Node → Prop
  | anything {n : Yaml.Node} : Derives .anything n
  | null {n : Yaml.Node} : n.isNull → Derives .null n
  | scalar {s : Yaml.Scalar} : Derives .scalar (.scalar s)
  | literal {kind : String} {s : Yaml.Scalar} : Decodes kind s → Derives (.literal kind) (.scalar s)
  | word {words : List String} {word : String} {s : Yaml.Scalar} :
    word ∈ words → s.value = text word → Derives (.word words) (.scalar s)
  | name {s : Yaml.Scalar} : s.isNull = false → s.value ≠ [] → Derives .name (.scalar s)
  -- What decodes as a truth value: null is false, and strings may say yes or no.
  | flag {s : Yaml.Scalar} {b : Bool} : s.toBool? = some b → Derives .flag (.scalar s)
  | sequence {item : Form} {place : Yaml.Place} {items : List Yaml.Node} :
    (∀ n ∈ items, Derives item n) → Derives (.sequence item) (.sequence place items)
  | couple {item : Form} {place : Yaml.Place} {first second : Yaml.Node} :
    Derives item first → Derives item second →
      Derives (.couple item) (.sequence place [first, second])
  | first {first second : Form} {n : Yaml.Node} : Derives first n → Derives (.either first second) n
  | second {first second : Form} {n : Yaml.Node} :
    Derives second n → Derives (.either first second) n
  -- A mapping follows one of the alternatives: its keys are distinct, each belongs to a slot,
  -- what is needed is there, and every value derives from the form of its slot.
  | record {described : Record} {slots : List Slot} {place : Yaml.Place}
      {pairs : List (Yaml.Node × Yaml.Node)} :
    slots ∈ described.alternatives → DistinctKeys pairs →
      (∀ pair ∈ pairs, ∃ slot ∈ slots, Keyed pair.1 slot.key) →
      (∀ slot ∈ slots, slot.required → ∃ pair ∈ pairs, Keyed pair.1 slot.key) →
      (∀ slot ∈ slots, ∀ pair ∈ pairs, Keyed pair.1 slot.key → Derives slot.form pair.2) →
      Derives (.record described) (.mapping place pairs)
  -- Nodes: literals, strings and identifiers, vectors, and mappings of exactly one kind.
  | nothing {s : Yaml.Scalar} : s.isNull → Derives .node (.scalar s)
  | constant {kind : String} {s : Yaml.Scalar} : Decodes kind s → Derives .node (.scalar s)
  | quoted {s : Yaml.Scalar} :
    s.tag = text "!!str" → s.style.isQuoted → Derives .node (.scalar s)
  | plain {s : Yaml.Scalar} :
    s.tag = text "!!str" → s.style.isQuoted = false → s.value ≠ [] → Derives .node (.scalar s)
  | vector {place : Yaml.Place} {items : List Yaml.Node} :
    (∀ n ∈ items, Derives .node n) → Derives .node (.sequence place items)
  | compound {kind : String} {place : Yaml.Place} {pairs : List (Yaml.Node × Yaml.Node)} :
    (∀ pair ∈ pairs, ∀ other ∈ kinds, Keyed pair.1 other → other = kind) →
      Derives (.record (.node kind)) (.mapping place pairs) → Derives .node (.mapping place pairs)
  -- Bodies: a sequence is a block there.
  | block {place : Yaml.Place} {items : List Yaml.Node} :
    (∀ n ∈ items, Derives .node n) → Derives .body (.sequence place items)
  | expression {n : Yaml.Node} : Derives .node n → Derives .body n

/-! ### The table of kinds -/

theorem kinds_eq : kinds = Load.kindKeys := by decide +kernel

/-- Every mapping of a kind needs the key of the kind, and has no slot for that of another. -/
theorem kind_of_slot : ∀ production ∈ productions,
    (∃ slot ∈ production.2, slot.required ∧ slot.key = production.1) ∧
      ∀ slot ∈ production.2, slot.key ∈ kinds → slot.key = production.1 := by
  decide +kernel

theorem named_of_slot : ∀ production ∈ productions, ∀ slot ∈ production.2, slot.key ≠ "named" := by
  decide +kernel

theorem mem_productions {kind : String} {slots : List Slot}
    (alternative : slots ∈ (Record.node kind).alternatives) : (kind, slots) ∈ productions := by
  obtain ⟨production, found, rfl⟩ := List.mem_map.mp alternative
  obtain ⟨member, same⟩ := List.mem_filter.mp found
  rw [← eq_of_beq same]
  exact member

example : kinds.length = 31 := by decide +kernel

/-! ### What derivations look like -/

variable {n : Yaml.Node} {s : Yaml.Scalar}

@[simp] theorem derives_anything : Derives .anything n :=
  .anything

@[simp] theorem derives_null : Derives .null n ↔ n.isNull := by
  constructor
  · intro derivation
    cases derivation
    assumption
  · exact .null

theorem derives_either {first second : Form} :
    Derives (.either first second) n ↔ Derives first n ∨ Derives second n := by
  constructor
  · intro derivation
    cases derivation with
    | first left => exact .inl left
    | second right => exact .inr right
  · rintro (left | right)
    · exact .first left
    · exact .second right

theorem derives_scalar : Derives .scalar n ↔ ∃ s, n = .scalar s := by
  constructor
  · intro derivation
    cases derivation with
    | scalar => exact ⟨_, rfl⟩
  · rintro ⟨s, rfl⟩
    exact .scalar

theorem derives_literal {kind : String} :
    Derives (.literal kind) n ↔ ∃ s, n = .scalar s ∧ Decodes kind s := by
  constructor
  · intro derivation
    cases derivation with
    | literal decodes => exact ⟨_, rfl, decodes⟩
  · rintro ⟨s, rfl, decodes⟩
    exact .literal decodes

theorem derives_word {words : List String} :
    Derives (.word words) n ↔ ∃ s, n = .scalar s ∧ ∃ word ∈ words, s.value = text word := by
  constructor
  · intro derivation
    cases derivation with
    | word member same => exact ⟨_, rfl, _, member, same⟩
  · rintro ⟨s, rfl, word, member, same⟩
    exact .word member same

theorem derives_name :
    Derives .name n ↔ ∃ s, n = .scalar s ∧ s.isNull = false ∧ s.value ≠ [] := by
  constructor
  · intro derivation
    cases derivation with
    | name present given => exact ⟨_, rfl, present, given⟩
  · rintro ⟨s, rfl, present, given⟩
    exact .name present given

theorem derives_flag : Derives .flag n ↔ ∃ s, n = .scalar s ∧ ∃ b, s.toBool? = some b := by
  constructor
  · intro derivation
    cases derivation with
    | flag decoded => exact ⟨_, rfl, _, decoded⟩
  · rintro ⟨s, rfl, b, decoded⟩
    exact .flag decoded

theorem derives_sequence {item : Form} :
    Derives (.sequence item) n ↔
      ∃ place items, n = .sequence place items ∧ ∀ m ∈ items, Derives item m := by
  constructor
  · intro derivation
    cases derivation with
    | sequence each => exact ⟨_, _, rfl, each⟩
  · rintro ⟨place, items, rfl, each⟩
    exact .sequence each

theorem derives_couple {item : Form} :
    Derives (.couple item) n ↔ ∃ place first second,
      n = .sequence place [first, second] ∧ Derives item first ∧ Derives item second := by
  constructor
  · intro derivation
    cases derivation with
    | couple left right => exact ⟨_, _, _, rfl, left, right⟩
  · rintro ⟨place, first, second, rfl, left, right⟩
    exact .couple left right

/-- A sequence is a body exactly if it is a vector, so bodies and nodes are the same documents. -/
theorem derives_body : Derives .body n ↔ Derives .node n := by
  constructor
  · intro derivation
    cases derivation with
    | block each => exact .vector each
    | expression derived => exact derived
  · exact .expression

theorem derives_node_sequence {place : Yaml.Place} {items : List Yaml.Node} :
    Derives .node (.sequence place items) ↔ ∀ m ∈ items, Derives .node m := by
  constructor
  · intro derivation
    cases derivation
    assumption
  · exact .vector

theorem derives_node_scalar :
    Derives .node (.scalar s) ↔ s.isNull ∨ (∃ kind, Decodes kind s) ∨
      s.tag = text "!!str" ∧ (s.style.isQuoted ∨ s.value ≠ []) := by
  constructor
  · intro derivation
    cases derivation with
    | nothing null => exact .inl null
    | constant decodes => exact .inr (.inl ⟨_, decodes⟩)
    | quoted tag quoted => exact .inr (.inr ⟨tag, .inl quoted⟩)
    | plain tag _ given => exact .inr (.inr ⟨tag, .inr given⟩)
  · rintro (null | ⟨kind, decodes⟩ | ⟨tag, quoted | given⟩)
    · exact .nothing null
    · exact .constant decodes
    · exact .quoted tag quoted
    · by_cases quoted : s.style.isQuoted
      · exact .quoted tag quoted
      · exact .plain tag (Bool.not_eq_true _ ▸ quoted) given

theorem Keyed.text_eq {key : String} (keyed : Keyed n key) : n.text = text key := by
  obtain ⟨s, rfl, value⟩ := keyed
  exact value

theorem only_kind {kind : String} {place : Yaml.Place} {pairs : List (Yaml.Node × Yaml.Node)}
    (derivation : Derives (.record (.node kind)) (.mapping place pairs)) :
    ∀ pair ∈ pairs, ∀ other ∈ kinds, Keyed pair.1 other → other = kind := by
  intro pair member other named keyed
  cases derivation with
  | record alternative distinct known =>
    obtain ⟨slot, among, own⟩ := known pair member
    have same : slot.key = other := Text.text_injective (own.text_eq.symm.trans keyed.text_eq)
    have production := (kind_of_slot _ (mem_productions alternative)).2 slot among
    rw [← same]
    exact production (same ▸ named)

theorem derives_node_mapping {place : Yaml.Place} {pairs : List (Yaml.Node × Yaml.Node)} :
    Derives .node (.mapping place pairs) ↔
      ∃ kind, Derives (.record (.node kind)) (.mapping place pairs) := by
  constructor
  · intro derivation
    cases derivation with
    | compound _ derived => exact ⟨_, derived⟩
  · rintro ⟨kind, derived⟩
    exact .compound (only_kind derived) derived

theorem not_named {place : Yaml.Place} {pairs : List (Yaml.Node × Yaml.Node)}
    (derivation : Derives .node (.mapping place pairs)) :
    ∀ pair ∈ pairs, pair.1.text ≠ text "named" := by
  intro pair member same
  obtain ⟨kind, described⟩ := derives_node_mapping.mp derivation
  cases described with
  | record alternative _ known =>
    obtain ⟨slot, among, keyed⟩ := known pair member
    apply named_of_slot _ (mem_productions alternative) slot among
    exact Text.text_injective (keyed.text_eq.symm.trans same)

theorem mapping_of_record {described : Record} (derivation : Derives (.record described) n) :
    ∃ place pairs, n = .mapping place pairs := by
  cases derivation
  exact ⟨_, _, rfl⟩

end TreeCheck.Grammar
