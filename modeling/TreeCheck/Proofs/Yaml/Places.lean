import TreeCheck.Proofs.Yaml.Anchors
import TreeCheck.Proofs.Yaml.Marks

/-!
Where the nodes of a document stand. The grammar places every node at a mark of some token, so the
nodes of a document are within the lines of its source. Only what is absent is placed at the end of
a block collection or of the source, which may be below all characters.
-/

namespace TreeCheck.Yaml

variable {extent : Extent}

namespace Node

/-- Whether the node stands for a key or a value that is absent. -/
def IsAbsent (n : Node) : Prop :=
  ∃ m, n = Read.emptyAt m

/-- The node and all inside it have a column and stand within the lines of a source, and on one that
has characters unless they are absent. -/
def Fits (extent : Extent) (n : Node) : Prop :=
  ∀ part, Inside part n → 0 < part.place.column ∧ part.place.line ≤ extent.last + 1 ∧
    (part.place.line ≤ extent.inner + 1 ∨ part.IsAbsent)

def PlaceFits (extent : Extent) (p : Place) : Prop :=
  0 < p.column ∧ p.line ≤ extent.inner + 1

theorem place_fits {m : Mark} (line : m.line ≤ extent.inner) : PlaceFits extent m.place :=
  ⟨Nat.succ_pos _, Nat.succ_le_succ line⟩

theorem PlaceFits.part {p : Place} (here : PlaceFits extent p) (n : Node) :
    0 < p.column ∧ p.line ≤ extent.last + 1 ∧ (p.line ≤ extent.inner + 1 ∨ n.IsAbsent) :=
  ⟨here.1, Nat.le_trans here.2 (Nat.succ_le_succ extent.inner_le), .inl here.2⟩

theorem fits_scalar {s : Scalar} (here : PlaceFits extent s.place) : (scalar s).Fits extent := by
  intro part inside
  cases inside
  exact here.part _

theorem fits_alias {place : Place} {name : Text} {target : Nat} (here : PlaceFits extent place) :
    (Node.alias place name target).Fits extent := by
  intro part inside
  cases inside
  exact here.part _

theorem fits_sequence {place : Place} {items : List Node} (here : PlaceFits extent place)
    (all : ∀ n ∈ items, n.Fits extent) : (sequence place items).Fits extent := by
  intro part inside
  cases inside with
  | self => exact here.part _
  | item member inner => exact all _ member part inner

theorem fits_mapping {place : Place} {pairs : List (Node × Node)} (here : PlaceFits extent place)
    (all : ∀ pair ∈ pairs, pair.1.Fits extent ∧ pair.2.Fits extent) :
    (mapping place pairs).Fits extent := by
  intro part inside
  cases inside with
  | self => exact here.part _
  | key member inner => exact (all _ member).1 part inner
  | value member inner => exact (all _ member).2 part inner

end Node

namespace Read

variable {α β : Type}

/-- The tokens still to be read are within the lines of a source. -/
def TokensFit (extent : Extent) (r : Reader) : Prop :=
  ∀ t ∈ r.tokens, t.Fits extent

/-- From tokens within the lines of a source, the step reads something of a kind, and leaves such
tokens. -/
def Yields (extent : Extent) (x : Read α) (goal : α → Prop) : Prop :=
  ∀ r a r', TokensFit extent r → x.run r = .ok (a, r') → TokensFit extent r' ∧ goal a

namespace Yields

variable {x : Read α} {f : α → Read β} {between : α → Prop} {goal : β → Prop}

theorem pure {a : α} (holds : between a) : Yields extent (Pure.pure a : Read α) between := by
  intro r b r' fits run
  cases run
  exact ⟨fits, holds⟩

theorem throw (fault : Fault) : Yields extent (MonadExcept.throw fault : Read α) between :=
  fun _ _ _ _ run => nomatch run

theorem bind (first : Yields extent x between) (rest : ∀ a, between a → Yields extent (f a) goal) :
    Yields extent (x >>= f) goal := by
  intro r b r' fits run
  rw [StateT.run_bind] at run
  cases step : x.run r with
  | error fault =>
    rw [step] at run
    cases run
  | ok result =>
    rw [step] at run
    obtain ⟨fits, holds⟩ := first r result.1 result.2 fits step
    exact rest result.1 holds result.2 b r' fits run

theorem after (first : Yields extent x fun _ => True) (rest : ∀ a, Yields extent (f a) goal) :
    Yields extent (x >>= f) goal :=
  first.bind fun a _ => rest a

end Yields

/-! ### Steps -/

theorem get_yields : Yields extent (get : Read Reader) (TokensFit extent) := by
  intro r a r' fits run
  cases run
  exact ⟨fits, fits⟩

theorem modify_yields {g : Reader → Reader} (same : ∀ r, (g r).tokens = r.tokens) :
    Yields extent (modify g : Read PUnit) fun _ => True := by
  intro r a r' fits run
  cases run
  exact ⟨fun t member => fits t (same r ▸ member), trivial⟩

theorem skip_yields : Yields extent skip fun _ => True := by
  intro r a r' fits run
  cases run
  exact ⟨fun t member => fits t (List.mem_of_mem_tail member), trivial⟩

theorem peek_yields : Yields extent peek (Token.Fits extent) := by
  refine get_yields.bind fun r fits => ?_
  split
  next t rest tokens => exact .pure (fits t (tokens ▸ List.mem_cons_self))
  next => exact .throw _

theorem fail_yields {goal : α → Prop} (p : Problem) : Yields extent (fail p) goal :=
  peek_yields.bind fun _ _ => .throw _

theorem register_yields (name : Text) : Yields extent (some <$> register name) fun _ => True := by
  intro r a r' fits run
  cases run
  exact ⟨fits, trivial⟩

theorem complete_yields {number : Option Nat} {n : Node} (fits : n.Fits extent) :
    Yields extent (complete number n) (Node.Fits extent) := by
  cases number with
  | none => exact .pure fits
  | some k => exact .after (modify_yields fun _ => rfl) fun _ => .pure fits

theorem aliasNode_yields {m : Mark} (line : m.line ≤ extent.inner) (name : Text) :
    Yields extent (aliasNode m name) (Node.Fits extent) := by
  refine get_yields.bind fun r _ => ?_
  split
  · exact .pure (Node.fits_alias (Node.place_fits line))
  · exact .throw _

theorem peek_after {f : Token → Read β} {goal : β → Prop} (rest : ∀ t, Yields extent (f t) goal) :
    Yields extent (peek >>= f) goal :=
  peek_yields.bind fun t _ => rest t

theorem peek_nil {r : Reader} (none : r.tokens = []) : peek.run r = .error r.fault := by
  obtain ⟨tokens, _⟩ := r
  cases none
  rfl

theorem peek_cons {r : Reader} {t : Token} {rest : List Token} (next : r.tokens = t :: rest) :
    peek.run r = .ok (t, r) := by
  obtain ⟨tokens, _⟩ := r
  cases next
  rfl

/-- Where nothing can be read at the tokens that stand for no characters, the next token stands on a
line that has some. -/
theorem peek_inner {f : Token → Read β} {goal : β → Prop}
    (edges : ∀ {r t rest}, r.tokens = t :: rest → t.kind.isEdge = true →
      ∃ fault, (f t).run r = .error fault)
    (rest : ∀ t, t.start.line ≤ extent.inner → Yields extent (f t) goal) :
    Yields extent (peek >>= f) goal := by
  intro r a r' fits run
  rw [StateT.run_bind] at run
  cases tokens : r.tokens with
  | nil =>
    rw [peek_nil tokens] at run
    cases run
  | cons t others =>
    rw [peek_cons tokens] at run
    cases edge : t.kind.isEdge with
    | true =>
      obtain ⟨fault, fails⟩ := edges tokens edge
      cases fails.symm.trans run
    | false =>
      have inner := (fits t (tokens ▸ List.mem_cons_self)).inner edge
      exact rest t inner r a r' fits run

theorem properties_yields : Yields extent properties fun _ => True := by
  refine peek_after fun t => ?_
  split
  · refine skip_yields.after fun _ => peek_after fun _ => ?_
    split
    · exact skip_yields.after fun _ => .pure trivial
    · exact .pure trivial
  · refine skip_yields.after fun _ => peek_after fun _ => ?_
    split
    · exact skip_yields.after fun _ => .pure trivial
    · exact .pure trivial
  · exact .pure trivial

theorem tagIn_yields (tag : Option (Text × Text)) : Yields extent (tagIn tag) fun _ => True := by
  cases tag with
  | none => exact .pure trivial
  | some pair =>
    unfold tagIn expand
    dsimp only
    split
    · exact .pure trivial
    · refine get_yields.bind fun r _ => ?_
      split
      · exact .pure trivial
      · exact fail_yields _

theorem emptyAt_fits {m : Mark} (line : m.line ≤ extent.last) : (emptyAt m).Fits extent := by
  intro part inside
  cases inside
  exact ⟨Nat.succ_pos _, Nat.succ_le_succ line, .inr ⟨m, rfl⟩⟩

/-! ### The grammar -/

def ItemsFit (extent : Extent) (items : List Node) : Prop :=
  ∀ n ∈ items, n.Fits extent

def PairFits (extent : Extent) (pair : Node × Node) : Prop :=
  pair.1.Fits extent ∧ pair.2.Fits extent

def PairsFit (extent : Extent) (pairs : List (Node × Node)) : Prop :=
  ∀ pair ∈ pairs, PairFits extent pair

theorem ItemsFit.nil {extent : Extent} : ItemsFit extent [] :=
  fun _ member => absurd member List.not_mem_nil

theorem PairsFit.nil {extent : Extent} : PairsFit extent [] :=
  fun _ member => absurd member List.not_mem_nil

/-- The rules of the grammar, to a depth, read nodes within the lines of a source. -/
structure Placing (extent : Extent) (fuel : Nat) : Prop where
  node (block loose : Bool) : Yields extent (node block loose fuel) (Node.Fits extent)
  blockItems : Yields extent (blockItems fuel) (ItemsFit extent)
  looseItems : Yields extent (looseItems fuel) (ItemsFit extent)
  blockPairs : Yields extent (blockPairs fuel) (PairsFit extent)
  flowItems (first : Bool) : Yields extent (flowItems first fuel) (ItemsFit extent)
  flowPair : Yields extent (flowPair fuel) (PairFits extent)
  flowPairs (first : Bool) : Yields extent (flowPairs first fuel) (PairsFit extent)

theorem cons_yields {item : Node} (fits : item.Fits extent) {rest : Read (List Node)}
    (yields : Yields extent rest (ItemsFit extent)) :
    Yields extent (do return item :: (← rest)) (ItemsFit extent) :=
  yields.bind fun _ others => .pure (List.forall_mem_cons.mpr ⟨fits, others⟩)

theorem pair_yields {pair : Node × Node} (fits : PairFits extent pair)
    {rest : Read (List (Node × Node))} (yields : Yields extent rest (PairsFit extent)) :
    Yields extent (do return pair :: (← rest)) (PairsFit extent) :=
  yields.bind fun _ others => .pure (List.forall_mem_cons.mpr ⟨fits, others⟩)

theorem unless_yields {c : Prop} [Decidable c] {p : Problem} {rest : PUnit → Read α}
    {goal : α → Prop} (yields : ∀ u, Yields extent (rest u) goal) :
    Yields extent (if c then fail p >>= rest else rest ⟨⟩) goal := by
  split
  · exact .after (fail_yields p) yields
  · exact yields _

theorem expected_yields {c : Prop} [Decidable c] {kind : TokenKind} {rest : PUnit → Read α}
    {goal : α → Prop} (yields : ∀ u, Yields extent (rest u) goal) :
    Yields extent
      (if c then do
        let t ← peek
        if (t.kind != kind) = true then
          (fail .unexpectedToken : Read PUnit) >>= fun _ => skip >>= rest
        else skip >>= rest
      else rest ⟨⟩) goal := by
  split
  · exact peek_after fun _ => unless_yields fun _ => skip_yields.after yields
  · exact yields _

section

variable {fuel : Nat} (placing : Placing extent fuel)
include placing

theorem node_yields (block loose : Bool) :
    Yields extent (node block loose (fuel + 1)) (Node.Fits extent) := by
  rw [node]
  refine peek_inner (@fun r t _ next edge => ?_) fun first inner => ?_
  · obtain ⟨tokens, _⟩ := r
    cases next
    obtain ⟨kind, _⟩ := t
    cases kind with
    | streamStart | streamEnd | blockEnd => exact ⟨_, rfl⟩
    | _ => cases edge
  split
  · exact (aliasNode_yields inner _).bind fun n here => skip_yields.after fun _ => .pure here
  · refine properties_yields.after ?_
    rintro ⟨anchor, tag⟩
    refine (tagIn_yields tag).after fun tag => ?_
    extract_lets place content
    have here : Node.PlaceFits extent place := Node.place_fits inner
    have scalar {number : Option Nat} {tag value : Text} {style : Style} :
        Yields extent (complete number (.scalar ⟨place.line, place.column, tag, value, style⟩))
          (Node.Fits extent) :=
      complete_yields (Node.fits_scalar here)
    have sequence (number : Option Nat) {items : Read (List Node)}
        (yields : Yields extent items (ItemsFit extent)) :
        Yields extent (do complete number (.sequence place (← items))) (Node.Fits extent) :=
      yields.bind fun _ all => complete_yields (Node.fits_sequence here all)
    have mapping (number : Option Nat) {pairs : Read (List (Node × Node))}
        (yields : Yields extent pairs (PairsFit extent)) :
        Yields extent (do complete number (.mapping place (← pairs))) (Node.Fits extent) :=
      yields.bind fun _ all => complete_yields (Node.fits_mapping here all)
    have yields (number : Option Nat) : Yields extent (content number) (Node.Fits extent) := by
      refine peek_after fun next => ?_
      split
      · exact sequence number placing.looseItems
      · exact skip_yields.after fun _ => scalar
      · exact skip_yields.after fun _ => sequence number (placing.flowItems true)
      · exact skip_yields.after fun _ => mapping number (placing.flowPairs true)
      · exact skip_yields.after fun _ => sequence number placing.blockItems
      · exact skip_yields.after fun _ => mapping number placing.blockPairs
      · split
        · exact scalar
        · exact fail_yields _
    split
    next name => exact (register_yields name).after yields
    next => exact .after (.pure trivial) yields

theorem blockItems_yields : Yields extent (blockItems (fuel + 1)) (ItemsFit extent) := by
  rw [blockItems]
  refine peek_yields.bind fun t fits => ?_
  split
  · refine skip_yields.after fun _ => peek_after fun next => ?_
    extract_lets rest
    have yields (item : Node) (here : item.Fits extent) :
        Yields extent (rest item) (ItemsFit extent) :=
      cons_yields here placing.blockItems
    split
    · exact yields _ (emptyAt_fits fits.stop)
    · exact yields _ (emptyAt_fits fits.stop)
    · exact (placing.node true false).bind yields
  · exact skip_yields.after fun _ => .pure .nil
  · exact fail_yields _

theorem looseItems_yields : Yields extent (looseItems (fuel + 1)) (ItemsFit extent) := by
  rw [looseItems]
  refine peek_yields.bind fun t fits => ?_
  split
  · refine skip_yields.after fun _ => peek_after fun next => ?_
    extract_lets rest
    have yields (item : Node) (here : item.Fits extent) :
        Yields extent (rest item) (ItemsFit extent) :=
      cons_yields here placing.looseItems
    split
    iterate 4 exact yields _ (emptyAt_fits fits.stop)
    exact (placing.node true false).bind yields
  · exact .pure .nil

theorem blockPairs_yields : Yields extent (blockPairs (fuel + 1)) (PairsFit extent) := by
  rw [blockPairs]
  refine peek_yields.bind fun t fits => ?_
  split
  · refine skip_yields.after fun _ => peek_after fun next => ?_
    extract_lets afterKey
    have yields (key : Node) (keyFits : key.Fits extent) :
        Yields extent (afterKey key) (PairsFit extent) := by
      refine peek_yields.bind fun v behind => ?_
      extract_lets afterValue
      have yields (value : Node) (valueFits : value.Fits extent) :
          Yields extent (afterValue value) (PairsFit extent) :=
        pair_yields ⟨keyFits, valueFits⟩ placing.blockPairs
      split
      · refine skip_yields.after fun _ => peek_after fun _ => ?_
        split
        iterate 3 exact yields _ (emptyAt_fits behind.stop)
        exact (placing.node true true).bind yields
      · exact yields _ (emptyAt_fits behind.start)
    split
    iterate 3 exact yields _ (emptyAt_fits fits.stop)
    exact (placing.node true true).bind yields
  · exact skip_yields.after fun _ => .pure .nil
  · exact fail_yields _

theorem flowItems_yields (first : Bool) :
    Yields extent (flowItems first (fuel + 1)) (ItemsFit extent) := by
  have ends : Yields extent (do skip; return [] : Read (List Node)) (ItemsFit extent) :=
    skip_yields.after fun _ => .pure .nil
  rw [flowItems]
  refine peek_after fun _ => ?_
  split
  · exact ends
  refine expected_yields fun _ => peek_yields.bind fun t fits => ?_
  split
  · exact ends
  next key =>
    have inner := fits.inner (by rw [key]; rfl)
    refine skip_yields.after fun _ => placing.flowPair.bind fun pair pairFits => ?_
    refine cons_yields (Node.fits_mapping (Node.place_fits inner) ?_) (placing.flowItems false)
    exact List.forall_mem_singleton.mpr pairFits
  · refine (placing.node false false).bind fun item here => ?_
    exact cons_yields here (placing.flowItems false)

theorem flowPair_yields : Yields extent (flowPair (fuel + 1)) (PairFits extent) := by
  rw [flowPair]
  refine peek_yields.bind fun t fits => ?_
  extract_lets afterKey
  have yields (key : Node) (keyFits : key.Fits extent) :
      Yields extent (afterKey key) (PairFits extent) := by
    refine peek_yields.bind fun v behind => ?_
    split
    · refine skip_yields.after fun _ => peek_after fun _ => ?_
      split
      · exact .pure ⟨keyFits, emptyAt_fits behind.valueAt⟩
      · exact .pure ⟨keyFits, emptyAt_fits behind.valueAt⟩
      · exact (placing.node false false).bind fun _ valueFits => .pure ⟨keyFits, valueFits⟩
    · exact .pure ⟨keyFits, emptyAt_fits behind.start⟩
  split
  iterate 3 exact skip_yields.after fun _ => yields _ (emptyAt_fits fits.stop)
  exact (placing.node false false).bind yields

theorem flowPairs_yields (first : Bool) :
    Yields extent (flowPairs first (fuel + 1)) (PairsFit extent) := by
  have ends : Yields extent (do skip; return [] : Read (List (Node × Node))) (PairsFit extent) :=
    skip_yields.after fun _ => .pure .nil
  rw [flowPairs]
  refine peek_after fun _ => ?_
  split
  · exact ends
  refine expected_yields fun _ => peek_after fun t => ?_
  split
  · exact ends
  · refine skip_yields.after fun _ => peek_yields.bind fun t fits => ?_
    extract_lets afterKey
    have yields (key : Node) (keyFits : key.Fits extent) :
        Yields extent (afterKey key) (PairsFit extent) := by
      refine peek_yields.bind fun v behind => ?_
      extract_lets afterValue
      have yields (value : Node) (valueFits : value.Fits extent) :
          Yields extent (afterValue value) (PairsFit extent) :=
        pair_yields ⟨keyFits, valueFits⟩ (placing.flowPairs false)
      split
      · refine skip_yields.after fun _ => peek_yields.bind fun w further => ?_
        split
        iterate 2 exact yields _ (emptyAt_fits further.start)
        exact (placing.node false false).bind yields
      · exact yields _ (emptyAt_fits behind.start)
    split
    iterate 3 exact yields _ (emptyAt_fits fits.start)
    exact (placing.node false false).bind yields
  · refine (placing.node false false).bind fun key keyFits => peek_yields.bind fun v behind => ?_
    exact pair_yields ⟨keyFits, emptyAt_fits behind.start⟩ (placing.flowPairs false)

end

theorem placing (fuel : Nat) : Placing extent fuel := by
  induction fuel with
  | zero =>
    constructor
    all_goals
      intros
      exact fail_yields _
  | succ fuel ih =>
    exact ⟨node_yields ih, blockItems_yields ih, looseItems_yields ih, blockPairs_yields ih,
      flowItems_yields ih, flowPair_yields ih, flowPairs_yields ih⟩

/-! ### Documents -/

theorem directives_yields (versioned : Bool) (fuel : Nat) :
    Yields extent (directives versioned fuel) fun _ => True := by
  induction fuel generalizing versioned with
  | zero => exact fail_yields _
  | succ fuel ih =>
    rw [directives]
    refine peek_after fun t => ?_
    split
    · exact unless_yields fun _ => unless_yields fun _ => skip_yields.after fun _ => ih true
    · refine get_yields.bind fun r _ => unless_yields fun _ => ?_
      exact .after (modify_yields (by exact fun _ => rfl)) fun _ =>
        skip_yields.after fun _ => ih versioned
    · exact .pure trivial

theorem firstDocument_yields (fuel : Nat) :
    Yields extent (firstDocument fuel) fun root => ∀ n ∈ root, n.Fits extent := by
  unfold firstDocument
  refine peek_after fun start => unless_yields fun _ => skip_yields.after fun _ => ?_
  refine peek_after fun t => ?_
  extract_lets explicit ended rooted marked content
  have ends (root : Node) (here : root.Fits extent) :
      Yields extent (ended root) fun root => ∀ n ∈ root, n.Fits extent :=
    peek_after fun _ => .pure fun n member => Option.some.inj member ▸ here
  have root (u : PUnit) : Yields extent (rooted u) fun root => ∀ n ∈ root, n.Fits extent := by
    refine peek_yields.bind fun t fits => ?_
    split
    iterate 5 exact ends _ (emptyAt_fits fits.start)
    exact ((placing fuel).node true false).bind ends
  have yields (u : PUnit) : Yields extent (content u) fun root => ∀ n ∈ root, n.Fits extent :=
    .after (modify_yields (by exact fun _ => rfl)) fun _ => expected_yields root
  split
  · exact .pure nofun
  split
  · exact (directives_yields false fuel).after yields
  · exact yields ()

end Read

theorem Document.ofTokens_fits {stream : TokenStream} {d : Document}
    (fits : ∀ t ∈ stream.tokens, t.Fits extent) (read : Document.ofTokens stream = .ok (some d)) :
    d.root.Fits extent := by
  unfold Document.ofTokens at read
  cases run : (Read.firstDocument (4 * stream.tokens.length + 8)).run
      ⟨stream.tokens, stream.fault, [], [], 0, .empty⟩ with
  | error fault =>
    simp only [run] at read
    cases read
  | ok result =>
    obtain ⟨root, r⟩ := result
    simp only [run] at read
    have start : Read.TokensFit extent ⟨stream.tokens, stream.fault, [], [], 0, .empty⟩ := fits
    have all := (Read.firstDocument_yields _ _ _ _ start run).2
    cases root with
    | none => cases read
    | some n =>
      cases read
      exact all n rfl

/-- The characters that a text is cut into. An empty text is an empty line. -/
def sourceChars (t : Text) : List Char :=
  (Source.read (if t.isEmpty then text "\n" else t)).blocks.flatten

/-- The nodes of a document are within the lines of its text, unless there is a byte order mark
among its characters. -/
theorem Document.read_fits {t : Text} {d : Document} (unmarked : Cursor.orderMark ∉ sourceChars t)
    (read : Document.read t = .ok (some d)) : d.root.Fits (.ofChars (sourceChars t)) :=
  Document.ofTokens_fits (TokenStream.ofSource_fits unmarked) read

theorem exists_fits (tokens : List Token) : ∃ extent, ∀ t ∈ tokens, t.Fits extent := by
  induction tokens with
  | nil => exact ⟨⟨0, 0, Nat.le_refl 0⟩, nofun⟩
  | cons t rest ih =>
    obtain ⟨extent, fits⟩ := ih
    let lines := max t.start.line (max t.stop.line t.valueAt.line)
    refine ⟨⟨max extent.inner lines, max extent.last lines, ?_⟩,
      List.forall_mem_cons.mpr ⟨⟨?_, ?_, ?_, fun _ => ?_⟩, fun u member => ?_⟩⟩
    · have le := extent.inner_le
      omega
    iterate 4 dsimp only; omega
    obtain ⟨start, stop, valueAt, inner⟩ := fits u member
    have deeper := Nat.le_max_left extent.last lines
    exact ⟨Nat.le_trans start deeper, Nat.le_trans stop deeper, Nat.le_trans valueAt deeper,
      fun edge => Nat.le_trans (inner edge) (Nat.le_max_left _ _)⟩

theorem Document.read_columns {t : Text} {d : Document} (read : Document.read t = .ok (some d))
    {n : Node} (has : d.Has n) : 0 < n.place.column := by
  obtain ⟨extent, fits⟩ := exists_fits (TokenStream.ofSource
    (.read (if t.isEmpty then text "\n" else t))).tokens
  exact (Document.ofTokens_fits fits read n has).1

end TreeCheck.Yaml
