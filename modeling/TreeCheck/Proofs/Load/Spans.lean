import Mathlib
import TreeCheck.Invariant
import TreeCheck.Proofs.Load.Origins
import TreeCheck.Proofs.Text.Split
import TreeCheck.Proofs.Yaml.Places
import TreeCheck.Proofs.Yaml.Source

/-!
Where the nodes of a tree stand. Every node is in the file of the tree, on a line and in a column.
Lines of documents end at all line breaks of the language, lines of files at line feeds alone; so
the line of a node need not be one of its file. If all line breaks are line feeds, with or without
carriage returns before them, it is one unless the node stands for something that is absent, which
may be placed at the end of the document or in front of a comment.
-/

namespace TreeCheck

/-! ### Lines of files -/

namespace SourceFile

theorem cut?_cons_of_ne {sep b : UInt8} {rest : Text} (other : b ≠ sep) :
    Text.cut? sep (b :: rest) =
      (Text.cut? sep rest).map fun (before, after) => (b :: before, after) :=
  if_neg fun same => other (beq_iff_eq.mp same)

theorem splitOn_feed (t : Text) (n : Nat) : (Text.splitOn feed t)[n]? =
    if n ≤ t.count feed then some (lineAfter n t) else none := by
  induction t generalizing n with
  | nil =>
    cases n with
    | zero => rfl
    | succ n => rfl
  | cons b rest ih =>
    by_cases same : b = feed
    · subst same
      have more : (feed :: rest).count feed = rest.count feed + 1 := List.count_cons_self
      rw [Text.splitOn_sep, more]
      cases n with
      | zero => rfl
      | succ n =>
        have after : lineAfter (n + 1) (feed :: rest) = lineAfter n rest := rfl
        rw [List.getElem?_cons_succ, ih, after]
        simp only [Nat.add_le_add_iff_right]
    · obtain ⟨part, parts, split⟩ := List.exists_cons_of_ne_nil (Text.splitOn_ne_nil feed rest)
      rw [Text.splitOn_other same split, List.count_cons_of_ne same]
      rw [split] at ih
      cases n with
      | zero =>
        have first : part = lineAfter 0 rest :=
          Option.some.inj ((ih 0).trans (if_pos (Nat.zero_le _)))
        have here : lineAfter 0 (b :: rest) = b :: lineAfter 0 rest := by
          simp only [lineAfter]
          exact List.takeWhile_cons_of_pos (bne_iff_ne.mpr same)
        rw [here, first]
        rfl
      | succ n =>
        have after : lineAfter (n + 1) (b :: rest) = lineAfter (n + 1) rest := by
          have byte : (0x0A : UInt8) = feed := rfl
          rw [lineAfter, lineAfter, byte, cut?_cons_of_ne same]
          cases Text.cut? feed rest with
          | none => rfl
          | some parts => rfl
        rw [List.getElem?_cons_succ, after]
        exact ih (n + 1)

theorem line_eq (f : SourceFile) {n : Nat} (known : 0 < n) :
    (Text.splitOn feed f.content)[n - 1]? = some (f.line n) ↔ n ≤ f.lineCount := by
  obtain ⟨n, rfl⟩ := Nat.exists_eq_succ_of_ne_zero (Nat.pos_iff_ne_zero.mp known)
  have line : f.line n.succ = lineAfter n f.content := rfl
  have lines : f.lineCount = f.content.count feed + 1 := rfl
  rw [line, lines, Nat.succ_sub_one, splitOn_feed, Nat.succ_le_succ_iff]
  split
  next inside => exact iff_of_true rfl inside
  next beyond => exact iff_of_false nofun beyond

end SourceFile

/-! ### Faults in positions -/

namespace Tree

theorem spanFault?_eq_none {file lines : Nat} {n : Node} (own : n.span.file = file)
    (column : 0 < n.span.col) : spanFault? file lines n = none ↔ n.span.line ≤ lines := by
  unfold spanFault?
  dsimp only
  rw [if_neg (not_not_intro own)]
  have placed : ¬(n.span.isKnown && decide (n.span.col = 0)) = true := by simp; omega
  rw [if_neg placed]
  split
  next beyond => exact iff_of_false nofun (Nat.not_le_of_lt beyond)
  next within => exact iff_of_true rfl (Nat.le_of_not_lt within)

end Tree

namespace Load

/-- The text breaks lines by line feeds only, with or without a carriage return before them, and has
no byte order mark among its characters. -/
structure FeedBreaks (t : Text) : Prop where
  breaks : ∀ c ∈ Yaml.sourceChars t, Yaml.isBreak c → c = '\n' ∨ c = '\r'
  paired : ∀ i, (Yaml.sourceChars t)[i]? = some '\r' → (Yaml.sourceChars t)[i + 1]? = some '\n'
  unmarked : Yaml.Cursor.orderMark ∉ Yaml.sourceChars t

/-- The text breaks lines by line feeds only, ends with one, and has no byte order mark among its
characters. -/
structure LineFeeds (t : Text) : Prop where
  feeds : ∀ c ∈ Yaml.sourceChars t, Yaml.isBreak c → c = '\n'
  ended : (Yaml.sourceChars t).getLast? = some '\n'
  unmarked : Yaml.Cursor.orderMark ∉ Yaml.sourceChars t

theorem read_empty : Yaml.Document.read [] = .ok none := by
  cbv

theorem LineFeeds.lines_le {t : Text} (plain : LineFeeds t) (some : t ≠ []) :
    Yaml.linesAhead 0 (Yaml.sourceChars t) ≤ t.count feed := by
  have breaks : (Yaml.sourceChars t).countP Yaml.isBreak = (Yaml.sourceChars t).count '\n' := by
    refine List.countP_congr fun c member => ?_
    rw [beq_iff_eq]
    exact ⟨plain.feeds c member, fun same => same ▸ rfl⟩
  have nonempty : t.isEmpty = false := List.isEmpty_eq_false_iff.mpr some
  rw [Yaml.linesAhead_eq_countP plain.ended rfl, breaks, Yaml.sourceChars, nonempty]
  exact Yaml.Source.read_feeds t

theorem breaksAhead_eq_count {chars : List Char}
    (breaks : ∀ c ∈ chars, Yaml.isBreak c → c = '\n' ∨ c = '\r')
    (paired : ∀ i, chars[i]? = some '\r' → chars[i + 1]? = some '\n') :
    Yaml.breaksAhead chars = chars.count '\n' := by
  induction chars with
  | nil => rfl
  | cons c rest ih =>
    have ih := ih (fun d member => breaks d (.tail _ member)) fun i here => paired (i + 1) here
    rw [Yaml.breaksAhead, ih]
    by_cases line : Yaml.isBreak c
    · rcases breaks c List.mem_cons_self line with rfl | rfl
      · rw [List.count_cons_self]
        exact if_pos rfl
      · have next : rest.head? = some '\n' := by
          rw [List.head?_eq_getElem?]
          exact paired 0 rfl
        rw [List.count_cons_of_ne (by decide), next]
        exact if_neg (by decide)
    · have other : c ≠ '\n' := fun same => line (same ▸ rfl)
      rw [List.count_cons_of_ne other]
      exact if_neg fun both => line (Bool.and_eq_true_iff.mp both).1

theorem FeedBreaks.breaks_le {t : Text} (plain : FeedBreaks t) (some : t ≠ []) :
    Yaml.breaksAhead (Yaml.sourceChars t) ≤ t.count feed := by
  have nonempty : t.isEmpty = false := List.isEmpty_eq_false_iff.mpr some
  rw [breaksAhead_eq_count plain.breaks plain.paired, Yaml.sourceChars, nonempty]
  exact Yaml.Source.read_feeds t

theorem span_mem_spans (n : Node) : n.span ∈ n.spans := by
  cases n <;> exact List.mem_cons_self

theorem ofFile_span {f : SourceFile} {names : Interner} {n : Node}
    (member : n ∈ (ofFile f names).tree.visits) :
    ∃ d m, Yaml.Document.read f.content = .ok (some d) ∧ d.Has m ∧
      n.span = ⟨f.id, m.place.line, m.place.column⟩ := by
  rcases ofFile_cases f names with ⟨d, read, out⟩ | ⟨none, _⟩
  · obtain ⟨m, has, place⟩ := out.spans n member n.span (span_mem_spans n)
    exact ⟨d, m, read, has, place⟩
  · rw [none] at member
    cases member

/-- Whether a node of a tree stands for a key or a value that is absent in the document. -/
def StandsForAbsent (f : SourceFile) (n : Node) : Prop :=
  ∃ d m, Yaml.Document.read f.content = .ok (some d) ∧ d.Has m ∧ m.IsAbsent ∧
    n.span = ⟨f.id, m.place.line, m.place.column⟩

theorem ofFile_file (f : SourceFile) (names : Interner) : (ofFile f names).tree.file = f.id := by
  unfold ofFile
  split
  · rfl
  · rfl
  next d read => rw [ofDocument_eq, outcomeOf]

/-- Every node of a tree is in the file of the tree, on a line and in a column. No position is at
fault exactly if the line of every node is one of the parts of the content between line feeds, and
so the one that is shown for it. Without a byte order mark inside, a node that stands for something
in the document stands at most as many lines below the first one as the document has line breaks;
no node stands further down than the end of the document, which starts a line of its own, where the
characters of every line break count one by one. So if all line breaks are line feeds, with or
without carriage returns before them, every node stands on a line of the file unless it stands for
something that is absent; and no position is at fault if they are line feeds alone and one of them
ends the document. -/
theorem spans_stand_on_lines (f : SourceFile) (names : Interner) :
    let t := (ofFile f names).tree
    let chars := Yaml.sourceChars f.content
    let OnLine := fun n : Node =>
      (Text.splitOn feed f.content)[n.span.line - 1]? = some (f.line n.span.line)
    t.file = f.id ∧
    (∀ n ∈ t.visits, n.span.file = f.id ∧ 0 < n.span.line ∧ 0 < n.span.col) ∧
    (t.faultIn? f = none ↔ ∀ n ∈ t.visits, OnLine n) ∧
    (Yaml.Cursor.orderMark ∉ chars → ∀ n ∈ t.visits,
      n.span.line ≤ Yaml.linesAhead 0 chars + 1 ∧
      (n.span.line ≤ Yaml.breaksAhead chars + 1 ∨ StandsForAbsent f n)) ∧
    (FeedBreaks f.content → ∀ n ∈ t.visits, OnLine n ∨ StandsForAbsent f n) ∧
    (LineFeeds f.content → t.faultIn? f = none) := by
  intro t chars OnLine
  have placed (n : Node) (member : n ∈ t.visits) :
      n.span.file = f.id ∧ 0 < n.span.line ∧ 0 < n.span.col := by
    obtain ⟨d, m, read, has, place⟩ := ofFile_span member
    rw [place]
    exact ⟨rfl, (Yaml.Document.read_closed read).placed m has, Yaml.Document.read_columns read has⟩
  have lines (unmarked : Yaml.Cursor.orderMark ∉ chars) (n : Node) (member : n ∈ t.visits) :
      n.span.line ≤ Yaml.linesAhead 0 chars + 1 ∧
        (n.span.line ≤ Yaml.breaksAhead chars + 1 ∨ StandsForAbsent f n) := by
    obtain ⟨d, m, read, has, place⟩ := ofFile_span member
    obtain ⟨-, last, inner⟩ := Yaml.Document.read_fits unmarked read m has
    rw [place]
    exact ⟨last, inner.imp_right fun absent => ⟨d, m, read, has, absent, place⟩⟩
  have nonempty {n : Node} (member : n ∈ t.visits) : f.content ≠ [] := by
    intro empty
    obtain ⟨d, m, read, _⟩ := ofFile_span member
    rw [empty, read_empty] at read
    cases read
  have faultless : t.faultIn? f = none ↔ ∀ n ∈ t.visits, n.span.line ≤ f.lineCount := by
    unfold Tree.faultIn?
    rw [if_neg (not_not_intro (ofFile_file f names)), List.findSome?_eq_none_iff]
    refine forall₂_congr fun n member => ?_
    exact Tree.spanFault?_eq_none (placed n member).1 (placed n member).2.2
  have onLine (n : Node) (member : n ∈ t.visits) : OnLine n ↔ n.span.line ≤ f.lineCount :=
    f.line_eq (placed n member).2.1
  refine ⟨ofFile_file f names, placed, ?_, lines, fun plain n member => ?_, fun plain => ?_⟩
  · exact faultless.trans (forall₂_congr fun n member => (onLine n member).symm)
  · refine (lines plain.unmarked n member).2.imp_left fun inner => (onLine n member).mpr ?_
    exact Nat.le_trans inner (Nat.succ_le_succ (plain.breaks_le (nonempty member)))
  · refine faultless.mpr fun n member => ?_
    exact Nat.le_trans (lines plain.unmarked n member).1
      (Nat.succ_le_succ (plain.lines_le (nonempty member)))

/-! ### Nodes below the file -/

section Below

/-- A document of two entries with a carriage return behind each. -/
def returns : SourceFile :=
  ⟨1, text "t.yaml", text "- a\r- b\r", 0⟩

/-- The parser begins a line at the carriage return, but the file has only one line: the second
entry stands beyond it, and there is nothing to show for its line. -/
theorem carriage_returns_lead_out_of_the_file :
    (ofFile returns .fresh).tree.faultIn? returns =
      some (text "*ast.LiteralCall span 1:2:3 beyond line 1") ∧ returns.line 2 = [] := by
  decide +kernel

def unfinished : SourceFile :=
  ⟨1, text "t.yaml", text "- ? if", 0⟩

/-- Line feeds do not keep what is absent inside the file: at the end of the source, which starts a
line, the parser places the value that the key does not have. -/
theorem absent_values_lead_out_of_the_file :
    FeedBreaks unfinished.content ∧ (ofFile unfinished .fresh).tree.faultIn? unfinished =
      some (text "*ast.Nil span 1:2:1 beyond line 1") := by
  have chars : Yaml.sourceChars unfinished.content = ['-', ' ', '?', ' ', 'i', 'f'] := by
    decide +kernel
  have unbroken : (Yaml.sourceChars unfinished.content).any Yaml.isBreak = false := by
    rw [chars]
    rfl
  refine ⟨⟨fun c member line => ?_, fun i here => ?_, ?_⟩, ?_⟩
  · exact absurd (List.any_of_mem member line) (Bool.eq_false_iff.mp unbroken)
  · have member := List.mem_of_getElem? here
    rw [chars] at member
    exact absurd member (by decide)
  · rw [chars]
    decide
  · decide +kernel

end Below

end Load

end TreeCheck
