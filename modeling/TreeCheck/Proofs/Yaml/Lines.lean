import Mathlib.Data.List.Count
import TreeCheck.Yaml.Token.Comment
import TreeCheck.Yaml.Token.Lexeme

/-!
How far down a source goes. The line of a cursor and the lines ahead of it are together never more
than at the start of the source; every reader keeps that. There are two counts of the lines ahead,
as comments and the end of a source may lead further down than all the rest.
-/

namespace TreeCheck.Yaml

/-! ### The lines ahead -/

/-- How many lines below a column the end of some characters is. Every break counts, also the two of
a carriage return before a line feed, as they do where comments are looked for; and so does a last
line that has characters and no break, for the end of a source starts a line. -/
def linesAhead : (column : Nat) → List Char → Nat
  | column, [] => if column = 0 then 0 else 1
  | _, c :: rest => if isBreak c then linesAhead 0 rest + 1 else linesAhead 1 rest

/-- The line breaks among some characters. A carriage return before a line feed is one with it. -/
def breaksAhead : List Char → Nat
  | [] => 0
  | c :: rest =>
    if isBreak c && !(c == '\r' && rest.head? == some '\n') then breaksAhead rest + 1
    else breaksAhead rest

/-- How far down a source goes: the last line that a character may stand on, and the last line. Both
are counted from 0. -/
structure Extent where
  inner : Nat
  last : Nat
  inner_le : inner ≤ last

variable {extent : Extent}

theorem breaksAhead_tail (c : Char) (rest : List Char) :
    breaksAhead rest ≤ breaksAhead (c :: rest) := by
  rw [breaksAhead]
  split
  · exact Nat.le_succ _
  · exact Nat.le_refl _

theorem breaksAhead_le_countP (chars : List Char) : breaksAhead chars ≤ chars.countP isBreak := by
  induction chars with
  | nil => exact Nat.le_refl _
  | cons c rest ih =>
    rw [List.countP_cons, breaksAhead]
    split
    next starts =>
      rw [if_pos (Bool.and_eq_true_iff.mp starts).1]
      exact Nat.succ_le_succ ih
    next => exact Nat.le_trans ih (Nat.le_add_right _ _)

theorem linesAhead_le (column column' : Nat) (chars : List Char) :
    linesAhead column chars ≤ linesAhead column' chars + 1 := by
  cases chars with
  | nil =>
    simp only [linesAhead]
    split <;> split <;> omega
  | cons c rest => exact Nat.le_succ _

theorem linesAhead_succ (column : Nat) (chars : List Char) :
    linesAhead (column + 1) chars = linesAhead 1 chars := by
  cases chars with
  | nil => rfl
  | cons c rest => rfl

theorem linesAhead_tail (column : Nat) (c : Char) (rest : List Char) :
    linesAhead (column + 1) rest ≤ linesAhead column (c :: rest) := by
  rw [linesAhead_succ, linesAhead]
  split
  · exact linesAhead_le _ _ _
  · exact Nat.le_refl _

theorem countP_isBreak_le (column : Nat) (chars : List Char) :
    chars.countP isBreak ≤ linesAhead column chars := by
  induction chars generalizing column with
  | nil => exact Nat.zero_le _
  | cons c rest ih =>
    rw [List.countP_cons, linesAhead]
    split
    · exact Nat.succ_le_succ (ih 0)
    · exact ih 1

theorem breaksAhead_le_linesAhead (chars : List Char) : breaksAhead chars ≤ linesAhead 0 chars :=
  Nat.le_trans (breaksAhead_le_countP chars) (countP_isBreak_le 0 chars)

def Extent.ofChars (chars : List Char) : Extent :=
  ⟨breaksAhead chars, linesAhead 0 chars, breaksAhead_le_linesAhead chars⟩

theorem linesAhead_eq_countP {chars : List Char} {c : Char} (ends : chars.getLast? = some c)
    (ended : isBreak c) (column : Nat) : linesAhead column chars = chars.countP isBreak := by
  induction chars generalizing column with
  | nil => cases ends
  | cons d rest ih =>
    rw [linesAhead, List.countP_cons]
    cases rest with
    | nil =>
      rw [List.getLast?_singleton, Option.some.injEq] at ends
      rw [if_pos (ends ▸ ended), if_pos (ends ▸ ended)]
      rfl
    | cons e others =>
      rw [List.getLast?_cons_cons] at ends
      split
      · rw [ih ends]
      · rw [ih ends]
        rfl

namespace Cursor

variable {c d : Cursor}

def ahead (c : Cursor) : List Char :=
  c.rest ++ c.blocks.flatten

/-- The cursor stays within the lines of a source, as long as there are characters ahead and at
their end. No byte order mark is ahead: behind one the cursor may pass over a line break, or over
the end. -/
structure Fits (extent : Extent) (c : Cursor) : Prop where
  lines : c.mark.line + linesAhead c.mark.column c.ahead ≤ extent.last
  inner : c.ahead ≠ [] → c.mark.line + breaksAhead c.ahead ≤ extent.inner
  unmarked : orderMark ∉ c.ahead
  offMark : c.atOrderMark = false
  loaded : c.beyond ≠ 0 → c.blocks = []

theorem Fits.line_le (fits : c.Fits extent) : c.mark.line ≤ extent.last :=
  Nat.le_trans (Nat.le_add_right _ _) fits.lines

theorem Fits.inner_le (fits : c.Fits extent) (more : c.ahead ≠ []) : c.mark.line ≤ extent.inner :=
  Nat.le_trans (Nat.le_add_right _ _) (fits.inner more)

theorem Fits.breaks_le (fits : c.Fits extent) :
    c.mark.line + c.ahead.countP isBreak ≤ extent.last :=
  Nat.le_trans (Nat.add_le_add_left (countP_isBreak_le _ _) _) fits.lines

/-- Past the end the next line is still within the source, unless one has just started. -/
theorem Fits.next_line_le (fits : c.Fits extent) (ends : c.ahead = [])
    (started : c.mark.column ≠ 0) : c.mark.line + 1 ≤ extent.last := by
  have lines := fits.lines
  rwa [ends, linesAhead, if_neg started] at lines

theorem start_fits {s : Source} (unmarked : orderMark ∉ s.blocks.flatten) :
    (start s).Fits (.ofChars s.blocks.flatten) where
  lines := Nat.le_of_eq (Nat.zero_add _)
  inner _ := Nat.le_of_eq (Nat.zero_add _)
  unmarked := unmarked
  offMark := rfl
  loaded absurdity := absurd rfl absurdity

/-! ### Loading -/

theorem hasItems_iff {count : Nat} {items : List Char} :
    hasItems count items ↔ count ≤ items.length := by
  rw [hasItems, decide_eq_true_iff, List.length_take]
  omega

theorem fill_ahead (count : Nat) (rest : List Char) (blocks : List (List Char)) :
    (fill count rest blocks).1 ++ (fill count rest blocks).2.flatten = rest ++ blocks.flatten := by
  induction blocks generalizing rest with
  | nil => rfl
  | cons block more ih =>
    unfold fill
    split
    · rfl
    · rw [ih, List.flatten_cons, List.append_assoc]

theorem fill_rest (count : Nat) (rest : List Char) (blocks : List (List Char)) :
    hasItems count (fill count rest blocks).1 ∨ (fill count rest blocks).2 = [] := by
  induction blocks generalizing rest with
  | nil => exact .inr rfl
  | cons block more ih =>
    unfold fill
    split
    next enough => exact .inl enough
    next => exact ih _

def Ready (count : Nat) (c : Cursor) : Prop :=
  count ≤ c.rest.length ∨ c.blocks = []

theorem Fits.of_same (fits : c.Fits extent) (mark : d.mark = c.mark) (ahead : d.ahead = c.ahead)
    (offMark : d.atOrderMark = false) (loaded : d.beyond ≠ 0 → d.blocks = []) : d.Fits extent where
  lines := by
    rw [mark, ahead]
    exact fits.lines
  inner := by
    rw [mark, ahead]
    exact fits.inner
  unmarked := ahead ▸ fits.unmarked
  offMark := offMark
  loaded := loaded

/-- Loading changes neither the position nor what is ahead, and has the characters asked for behind
it. -/
theorem load?_some {count : Nat} (loads : c.load? count = some d) (fits : c.Fits extent) :
    d.Fits extent ∧ d.ahead = c.ahead ∧ d.mark = c.mark ∧ d.Ready count := by
  unfold load? at loads
  split at loads
  next enough =>
    cases loads
    refine ⟨fits, rfl, rfl, ?_⟩
    rw [has, Bool.or_eq_true, hasItems_iff, Bool.and_eq_true, bne_iff_ne] at enough
    exact enough.imp_right fun beyond => fits.loaded beyond.1
  next lacks =>
    have same : (fill count c.rest c.blocks).1 ++ (fill count c.rest c.blocks).2.flatten =
      c.ahead := fill_ahead count c.rest c.blocks
    have offMark : ((fill count c.rest c.blocks).1.head? == some orderMark) = false := by
      refine beq_false_of_ne fun first => fits.unmarked ?_
      rw [← same]
      exact List.mem_append_left _ (List.mem_of_head? first)
    dsimp only at loads
    split at loads
    next enough =>
      cases loads
      have loaded (more : c.beyond ≠ 0) : (fill count c.rest c.blocks).2 = [] := by
        rw [fits.loaded more]
        rfl
      exact ⟨fits.of_same rfl same offMark loaded, same, rfl, .inl (hasItems_iff.mp enough)⟩
    next short =>
      have all := (fill_rest count c.rest c.blocks).resolve_left short
      split at loads
      · cases loads
      · cases loads
        exact ⟨fits.of_same rfl same offMark fun _ => all, same, rfl, .inr all⟩

/-! ### Moving on -/

theorem step_ahead {e : Char} {rest : List Char} (next : c.rest = e :: rest) :
    c.ahead = e :: c.step.ahead := by
  rw [ahead, ahead, next, step, next]
  rfl

theorem step_ahead_of_nil (none : c.rest = []) : c.step.ahead = c.ahead := by
  rw [ahead, ahead, step, none]
  rfl

/-- Passing over a character, whatever it is, leads no further than to the last line. -/
theorem step_fits (fits : c.Fits extent) (more : c.ahead ≠ []) : c.step.Fits extent := by
  have lines := fits.lines
  cases next : c.rest with
  | nil =>
    have same := step_ahead_of_nil next
    obtain ⟨d, others, all⟩ := List.exists_cons_of_ne_nil more
    refine ⟨?_, same ▸ fits.inner, same ▸ fits.unmarked, fits.offMark,
      fun asked => fits.loaded fun none => asked ?_⟩
    · -- What is ahead has characters, so its lines do not depend on the column.
      rw [all, linesAhead] at lines
      rwa [same, all, linesAhead]
    · rw [step, none]
      exact ite_self 0
  | cons d rest =>
    have after := step_ahead next
    refine ⟨?_, fun _ => ?_, fun member => fits.unmarked ?_, fits.offMark,
      fun asked => fits.loaded ?_⟩
    · rw [after] at lines
      exact Nat.le_trans (Nat.add_le_add_left (linesAhead_tail _ d _) _) lines
    · have inner := fits.inner more
      rw [after] at inner
      exact Nat.le_trans (Nat.add_le_add_left (breaksAhead_tail d _) _) inner
    · rw [after]
      exact List.mem_cons_of_mem _ member
    · rwa [step, next] at asked

theorem Ready.step {count : Nat} (ready : c.Ready (count + 1)) : c.step.Ready count := by
  refine ready.imp_left fun loaded => ?_
  rw [Cursor.step, List.length_tail]
  omega

/-- Whether a line feed is next shows in what is loaded, if two characters were asked for. -/
theorem Ready.second {rest : List Char} {d : Char} (ready : c.Ready 2) (next : c.rest = d :: rest) :
    (rest ++ c.blocks.flatten).head? = rest.head? := by
  cases rest with
  | cons e others => rfl
  | nil =>
    have all : c.blocks = [] := by
      refine ready.resolve_left fun two => ?_
      rw [next, List.length_singleton] at two
      exact absurd two (by decide)
    rw [all]
    rfl

theorem stepLine_fits (fits : c.Fits extent) (ready : c.Ready 2) {d : Char} {rest : List Char}
    (next : c.rest = d :: rest) (line : isBreak d) :
    (c.stepLine (if d == '\r' && rest.head? == some '\n' then 2 else 1)).Fits extent := by
  have second := ready.second next
  obtain ⟨_, blocks, broken, beyond, atOrderMark, mark, breaks, left⟩ := c
  cases next
  obtain ⟨lines, inner, unmarked, offMark, loaded⟩ := fits
  have here : mark.line + (linesAhead 0 (rest ++ blocks.flatten) + 1) ≤ extent.last := by
    have whole : linesAhead mark.column (d :: (rest ++ blocks.flatten)) =
        linesAhead 0 (rest ++ blocks.flatten) + 1 := if_pos line
    rwa [ahead, List.cons_append, whole] at lines
  have inner : mark.line + breaksAhead (d :: (rest ++ blocks.flatten)) ≤ extent.inner :=
    inner (List.cons_ne_nil _ _)
  rw [breaksAhead, second, line, Bool.true_and] at inner
  split
  next pair =>
    rw [pair] at inner
    obtain ⟨others, rfl⟩ : ∃ others, rest = '\n' :: others := by
      rw [Bool.and_eq_true, beq_iff_eq, beq_iff_eq] at pair
      exact List.head?_eq_some_iff.mp pair.2
    have one : linesAhead 0 ('\n' :: (others ++ blocks.flatten)) =
        linesAhead 0 (others ++ blocks.flatten) + 1 := rfl
    have same : breaksAhead ('\n' :: (others ++ blocks.flatten)) =
        breaksAhead (others ++ blocks.flatten) + 1 := rfl
    refine ⟨?_, fun _ => ?_, fun member => unmarked ?_, offMark, loaded⟩
    · have lines : mark.line + 1 + linesAhead 0 (others ++ blocks.flatten) ≤ extent.last := by
        rw [List.cons_append, one] at here
        omega
      exact lines
    · have inner : mark.line + 1 + breaksAhead (others ++ blocks.flatten) ≤ extent.inner := by
        rw [Bool.not_true, if_neg Bool.false_ne_true, List.cons_append, same] at inner
        omega
      exact inner
    · exact List.mem_cons_of_mem _ (List.mem_cons_of_mem _ member)
  next single =>
    refine ⟨?_, fun _ => ?_, fun member => unmarked (List.mem_cons_of_mem _ member), offMark,
      loaded⟩
    · have lines : mark.line + 1 + linesAhead 0 (rest ++ blocks.flatten) ≤ extent.last := by omega
      exact lines
    · have inner : mark.line + 1 + breaksAhead (rest ++ blocks.flatten) ≤ extent.inner := by
        rw [Bool.eq_false_iff.mpr single, Bool.not_false, if_pos rfl] at inner
        omega
      exact inner

theorem step_ahead_length (c : Cursor) : c.ahead.length ≤ c.step.ahead.length + 1 := by
  cases next : c.rest with
  | nil =>
    rw [step_ahead_of_nil next]
    exact Nat.le_succ _
  | cons d rest =>
    rw [step_ahead next]
    exact Nat.le_refl _

theorem length_rest_le (c : Cursor) : c.rest.length ≤ c.ahead.length := by
  rw [ahead, List.length_append]
  exact Nat.le_add_right _ _

end Cursor

/-! ### Readers -/

namespace Scan

open Cursor

variable {α β : Type}

/-- The reader stays within the lines of a source, wherever it starts with so many characters
ahead. -/
def Keeps (extent : Extent) (count : Nat) (x : Scan α) : Prop :=
  ∀ c a d, c.Fits extent → count ≤ c.ahead.length → x.run c = .ok (a, d) → d.Fits extent

/-- The same of a reader that starts only when so many characters are loaded, or all there are. -/
def KeepsLoaded (extent : Extent) (loaded count : Nat) (x : Scan α) : Prop :=
  ∀ c a d, c.Fits extent → c.Ready loaded → count ≤ c.ahead.length → x.run c = .ok (a, d) →
    d.Fits extent

theorem run_bind_ok {x : Scan α} {f : α → Scan β} {c d : Cursor} {b : β}
    (run : (x >>= f).run c = .ok (b, d)) :
    ∃ a e, x.run c = .ok (a, e) ∧ (f a).run e = .ok (b, d) := by
  rw [StateT.run_bind] at run
  cases first : x.run c with
  | error fault =>
    rw [first] at run
    cases run
  | ok result =>
    rw [first] at run
    exact ⟨result.1, result.2, rfl, run⟩

theorem load?_of_need {wanted : Nat} {c d : Cursor} {u : PUnit}
    (run : (need wanted).run c = .ok (u, d)) : c.load? wanted = some d := by
  obtain ⟨_, _, here, later⟩ := run_bind_ok run
  cases here
  cases loads : c.load? wanted with
  | none =>
    rw [loads] at later
    cases later
  | some e =>
    rw [loads] at later
    cases later
    rfl

theorem readBreak_keeps : KeepsLoaded extent 2 0 readBreak := by
  intro c a d fits ready _ run
  obtain ⟨_, _, here, later⟩ := run_bind_ok run
  cases here
  cases next : c.rest with
  | nil =>
    rw [next] at later
    cases later
    exact fits
  | cons e rest =>
    rw [next] at later
    dsimp only at later
    split at later
    · cases later
      exact fits
    next line =>
      cases later
      exact stepLine_fits fits ready next (by simpa using line)

theorem discardBreak_keeps : KeepsLoaded extent 2 0 (discard readBreak) := by
  intro c a d fits ready enough run
  obtain ⟨b, e, here, later⟩ := run_bind_ok (x := readBreak) (f := fun _ => pure PUnit.unit) run
  cases later
  exact readBreak_keeps c b d fits ready enough here

theorem skip_keeps : Keeps extent 1 skip := by
  intro c a d fits more run
  cases run
  exact step_fits fits (List.ne_nil_of_length_pos more)

theorem skipMany_keeps (size : Nat) : Keeps extent size (skipMany size) := by
  induction size with
  | zero =>
    intro c a d fits _ run
    cases run
    exact fits
  | succ size ih =>
    intro c a d fits more run
    obtain ⟨u, e, here, later⟩ := run_bind_ok run
    cases here
    have enough := Nat.le_of_succ_le_succ (Nat.le_trans more (step_ahead_length c))
    have stepped := skip_keeps c ⟨⟩ c.step fits (Nat.le_trans (Nat.succ_pos _) more) rfl
    exact ih c.step a d stepped enough later

namespace Keeps

variable {count : Nat} {x : Scan α} {f : α → Scan β}

theorem mono {more : Nat} (keeps : Keeps extent count x) (le : count ≤ more) :
    Keeps extent more x :=
  fun c a d fits enough => keeps c a d fits (Nat.le_trans le enough)

theorem any (keeps : Keeps extent 0 x) : Keeps extent count x :=
  keeps.mono (Nat.zero_le _)

theorem pure (a : α) : Keeps extent count (Pure.pure a : Scan α) := by
  intro c b d fits _ run
  cases run
  exact fits

theorem throw (fault : Fault) : Keeps extent count (MonadExcept.throw fault : Scan α) := by
  intro c a d _ _ run
  cases run

theorem bind (first : Keeps extent count x) (rest : ∀ a, Keeps extent 0 (f a)) :
    Keeps extent count (x >>= f) := by
  intro c b d fits enough run
  obtain ⟨a, e, here, later⟩ := run_bind_ok run
  exact rest a e b d (first c a e fits enough here) (Nat.zero_le _) later

theorem get {f : Cursor → Scan β}
    (rest : ∀ c : Cursor, Keeps extent (max count c.rest.length) (f c)) :
    Keeps extent count (MonadState.get >>= f) := by
  intro c b d fits enough run
  exact rest c c b d fits (Nat.max_le.mpr ⟨enough, length_rest_le c⟩) run

theorem mark {f : Mark → Scan β} (rest : ∀ m, Keeps extent count (f m)) :
    Keeps extent count (Scan.mark >>= f) :=
  fun c b d fits enough run => rest c.mark c b d fits enough run

theorem fuel {f : Nat → Scan β} (rest : ∀ n, Keeps extent count (f n)) :
    Keeps extent count (Scan.fuel >>= f) :=
  fun c b d fits enough run => rest (c.left + 1) c b d fits enough run

theorem look {distance : Nat} {f : Option Char → Scan β}
    (rest : ∀ found, Keeps extent count (f found)) :
    Keeps extent count (look distance >>= f) :=
  fun c b d fits enough run => rest c.rest[distance]? c b d fits enough run

theorem find {distance : Nat} {f : Option Char → Scan β} (none : Keeps extent count (f none))
    (some : ∀ found, Keeps extent (max count (distance + 1)) (f (some found))) :
    Keeps extent count (Scan.look distance >>= f) := by
  intro c b d fits enough run
  have step : (f c.rest[distance]?).run c = .ok (b, d) := run
  cases found : c.rest[distance]? with
  | none =>
    rw [found] at step
    exact none c b d fits enough step
  | some e =>
    rw [found] at step
    have ahead := Nat.lt_of_lt_of_le (List.getElem?_eq_some_iff.mp found).1 (length_rest_le c)
    exact some e c b d fits (Nat.max_le.mpr ⟨enough, ahead⟩) step

theorem need {wanted : Nat} {f : PUnit → Scan β} (rest : Keeps extent count (f ⟨⟩)) :
    Keeps extent count (need wanted >>= f) := by
  intro c b d fits enough run
  obtain ⟨⟨⟩, e, here, later⟩ := run_bind_ok run
  have loads := load?_of_need here
  obtain ⟨same, ahead, -⟩ := load?_some loads fits
  exact rest e b d same (ahead ▸ enough) later

theorem skip {f : PUnit → Scan β} (more : 0 < count) (rest : ∀ u, Keeps extent 0 (f u)) :
    Keeps extent count (skip >>= f) :=
  bind (skip_keeps.mono more) rest

theorem skipMany {size : Nat} {f : PUnit → Scan β} (more : size ≤ count)
    (rest : ∀ u, Keeps extent 0 (f u)) : Keeps extent count (skipMany size >>= f) :=
  bind ((skipMany_keeps size).mono more) rest

theorem load {wanted : Nat} {f : PUnit → Scan β} (rest : KeepsLoaded extent wanted count (f ⟨⟩)) :
    Keeps extent count (Scan.need wanted >>= f) := by
  intro c b d fits enough run
  obtain ⟨⟨⟩, e, here, later⟩ := run_bind_ok run
  have loads := load?_of_need here
  obtain ⟨same, ahead, -, ready⟩ := load?_some loads fits
  exact rest e b d same ready (ahead ▸ enough) later

theorem fail (p : Problem) : Keeps extent count (fail p : Scan α) :=
  get fun _ => throw _

theorem fail_bind (p : Problem) (k : α → Scan β) : Keeps extent count (Scan.fail p >>= k) := by
  intro c b d _ _ run
  obtain ⟨_, _, failed, _⟩ := run_bind_ok run
  cases failed

theorem guard {p : Prop} [Decidable p] {problem : Problem} {k : PUnit → Scan α}
    (rest : Keeps extent count (k ⟨⟩)) :
    Keeps extent count (if p then Scan.fail problem >>= k else k ⟨⟩) := by
  split
  · exact fail_bind _ _
  · exact rest

theorem expect {distance : Nat} {missing : Option Char → Bool} {problem : Problem}
    {k : Option Char → PUnit → Scan α} (none : missing none)
    (rest : ∀ found, Keeps extent (max count (distance + 1)) (k (some found) ⟨⟩)) :
    Keeps extent count (Scan.look distance >>= fun found =>
      if missing found then Scan.fail problem >>= k found else k found ⟨⟩) := by
  refine .find ?_ fun found => .guard (rest found)
  rw [if_pos none]
  exact fail_bind _ _

end Keeps

namespace KeepsLoaded

variable {loaded count : Nat} {x : Scan α} {f : α → Scan β}

theorem bind (first : KeepsLoaded extent loaded 0 x) (rest : ∀ a, Keeps extent 0 (f a)) :
    KeepsLoaded extent loaded count (x >>= f) := by
  intro c b d fits ready _ run
  obtain ⟨a, e, here, later⟩ := run_bind_ok run
  exact rest a e b d (first c a e fits ready (Nat.zero_le _) here) (Nat.zero_le _) later

theorem any (keeps : KeepsLoaded extent loaded 0 x) : KeepsLoaded extent loaded count x :=
  fun c a d fits ready _ => keeps c a d fits ready (Nat.zero_le _)

theorem skip {f : PUnit → Scan β} (more : 0 < count)
    (rest : ∀ u, KeepsLoaded extent loaded 0 (f u)) :
    KeepsLoaded extent (loaded + 1) count (Scan.skip >>= f) := by
  intro c b d fits ready enough run
  obtain ⟨u, e, here, later⟩ := run_bind_ok run
  have stepped := skip_keeps c u e fits (Nat.le_trans more enough) here
  cases here
  exact rest ⟨⟩ c.step b d stepped ready.step (Nat.zero_le _) later

end KeepsLoaded

/-! ### Words and gaps -/

theorem skipWhileFor_keeps (kind : Char → Bool) (steps : Nat) :
    Keeps extent 0 (skipWhileFor kind steps) := by
  induction steps with
  | zero => exact .pure _
  | succ steps ih =>
    refine .need (.find (.pure _) fun c => ?_)
    split
    · exact .skip (by omega) fun _ => ih
    · exact .pure _

theorem skipWhile_keeps (kind : Char → Bool) : Keeps extent 0 (skipWhile kind) :=
  .fuel fun steps => skipWhileFor_keeps kind steps

theorem takeWhileFor_keeps (kind : Char → Bool) (steps : Nat) (taken : List Char) :
    Keeps extent 0 (takeWhileFor kind steps taken) := by
  induction steps generalizing taken with
  | zero => exact .pure _
  | succ steps ih =>
    refine .need (.find (.pure _) fun c => ?_)
    dsimp only
    split
    · exact .skip (by omega) fun _ => ih _
    · exact .pure _

theorem takeWhile_keeps (kind : Char → Bool) : Keeps extent 0 (takeWhile kind) :=
  .fuel fun steps => takeWhileFor_keeps kind steps []

theorem gapFor_keeps (indent : Int) (steps : Nat) (gap : Gap) :
    Keeps extent 0 (gapFor indent steps gap) := by
  induction steps generalizing gap with
  | zero => exact .pure _
  | succ steps ih =>
    refine .need (.find (.pure _) fun c => ?_)
    dsimp only
    split
    · exact .mark fun m => .guard (.skip (by omega) fun _ => ih _)
    · split
      · exact .load (.bind readBreak_keeps fun _ => ih _)
      · exact .pure _

theorem readGap_keeps (indent : Int) (joined : Bool) : Keeps extent 0 (readGap indent joined) :=
  .fuel fun steps => gapFor_keeps indent steps _

/-! ### Scalars -/

theorem atDocumentEdge_bind {f : Bool → Scan α} {count : Nat}
    (rest : ∀ edge, Keeps extent count (f edge)) : Keeps extent count (atDocumentEdge >>= f) := by
  intro c b d fits enough run
  exact rest _ c b d fits enough run

theorem plainWordFor_keeps (inFlow : Bool) (steps : Nat) (word : List Char) :
    Keeps extent 0 (plainWordFor inFlow steps word) := by
  induction steps generalizing word with
  | zero => exact .pure _
  | succ steps ih =>
    refine .find (.pure _) fun c => ?_
    refine .look fun following => ?_
    split
    · exact .pure _
    · exact .skip (by omega) fun _ => .need (ih _)

theorem plainFor_keeps (inFlow : Bool) (indent : Int) (steps : Nat) (gap : Gap)
    (before : List Char) : Keeps extent 0 (plainFor inFlow indent steps gap before) := by
  induction steps generalizing gap before with
  | zero => exact .pure _
  | succ steps ih =>
    refine .need (atDocumentEdge_bind fun edge => .look fun first => ?_)
    split
    · exact .pure _
    refine .fuel fun size => .bind (plainWordFor_keeps inFlow size []) fun word => ?_
    split
    · exact .pure _
    refine .look fun following => ?_
    split
    · exact .pure _
    refine .bind (readGap_keeps indent false) fun gap => .mark fun m => ?_
    split
    · exact .pure _
    · exact ih _ _

theorem plainScalar_keeps (inFlow : Bool) (indent : Int) :
    Keeps extent 0 (plainScalar inFlow indent) :=
  .fuel fun steps => plainFor_keeps inFlow indent steps {} []

theorem hexNumber?_length {value count n : Nat} {digits : List Char}
    (number : hexNumber? value count digits = some n) : count ≤ digits.length := by
  induction count generalizing value digits with
  | zero => exact Nat.zero_le _
  | succ count ih =>
    cases digits with
    | nil => cases number
    | cons c rest =>
      obtain ⟨digit, _, later⟩ := Option.bind_eq_some_iff.mp number
      exact Nat.succ_le_succ (ih later)

theorem escape_keeps : Keeps extent 1 escape := by
  refine .find (.fail _) fun c => ?_
  dsimp only
  split
  · exact .load (.skip (by omega) fun _ => .bind discardBreak_keeps fun _ => .pure _)
  · split
    · exact .skipMany (by omega) fun _ => .pure _
    · exact .fail _
    next size _ _ =>
      refine .skipMany (by omega) fun _ => .need (.get fun c => ?_)
      split
      · exact .fail _
      next found =>
        obtain ⟨n, number, _⟩ := Option.bind_eq_some_iff.mp found
        have digits := hexNumber?_length number
        exact .skipMany (by omega) fun _ => .pure _

theorem quotedWordFor_keeps (single : Bool) (steps : Nat) (word : List Char) :
    Keeps extent 0 (quotedWordFor single steps word) := by
  induction steps generalizing word with
  | zero => exact .pure _
  | succ steps ih =>
    refine .find (.pure _) fun c => ?_
    dsimp only
    split
    · exact .pure _
    split
    · refine .find (.pure _) fun next => ?_
      split
      · exact .pure _
      · exact .skipMany (by omega) fun _ => .need (ih _)
    split
    · exact .pure _
    split
    · refine .bind (escape_keeps.mono (by omega)) fun meant => ?_
      split
      · exact .pure _
      · exact .need (ih _)
    · exact .skip (by omega) fun _ => .need (ih _)

theorem quotedFor_keeps (single : Bool) (steps : Nat) (before : List Char) :
    Keeps extent 0 (quotedFor single steps before) := by
  induction steps generalizing before with
  | zero => exact .fail _
  | succ steps ih =>
    refine .need (atDocumentEdge_bind fun edge => .guard (.look fun first => .guard ?_))
    refine .fuel fun size => .bind (quotedWordFor_keeps single size []) fun (word, joined) => ?_
    generalize (if single then '\'' else '"') = quote
    refine .need (.find (.bind (readGap_keeps 0 joined) fun gap => ih _) fun c => ?_)
    · split
      · exact .skip (by omega) fun _ => .pure _
      · exact .bind (readGap_keeps 0 joined).any fun gap => ih _

theorem quotedScalar_keeps (single : Bool) : Keeps extent 1 (quotedScalar single) :=
  .skip Nat.one_pos fun _ => .fuel fun steps => quotedFor_keeps single steps []

theorem chomp?_keeps : Keeps extent 0 chomp? := by
  refine .need (.find (.pure _) fun c => ?_)
  split
  · exact .skip (by omega) fun _ => .pure _
  · exact .skip (by omega) fun _ => .pure _
  · exact .pure _

theorem increment?_keeps : Keeps extent 0 increment? := by
  refine .need (.find (.pure _) fun c => ?_)
  dsimp only
  split
  · exact .fail _
  split
  · exact .skip (by omega) fun _ => .pure _
  · exact .pure _

theorem blockHeader_keeps : Keeps extent 0 blockHeader := by
  refine .bind chomp?_keeps fun chomp => ?_
  split
  · exact .bind increment?_keeps fun _ => .pure _
  · refine .bind increment?_keeps fun increment => ?_
    split
    · exact .pure _
    · exact .bind chomp?_keeps fun _ => .pure _

theorem skipIndentFor_keeps (indent steps : Nat) : Keeps extent 0 (skipIndentFor indent steps) := by
  induction steps with
  | zero => exact .pure _
  | succ steps ih =>
    refine .need (.mark fun m => .find ?_ fun c => ?_)
    · rw [if_neg (by simp)]
      exact .pure _
    · split
      · exact .skip (by omega) fun _ => ih
      · exact .pure _

theorem emptyLinesFor_keeps (indent steps widest : Nat) (breaks : List Char) :
    Keeps extent 0 (emptyLinesFor indent steps widest breaks) := by
  induction steps generalizing widest breaks with
  | zero => exact .pure _
  | succ steps ih =>
    refine .fuel fun size => .bind (skipIndentFor_keeps indent size) fun _ => .mark fun m => ?_
    refine .look fun first => .guard (.look fun c => ?_)
    split
    · exact .pure _
    · exact .load (.bind readBreak_keeps fun _ => ih _ _)

theorem emptyLines_keeps (indent : Nat) : Keeps extent 0 (emptyLines indent) :=
  .fuel fun steps => emptyLinesFor_keeps indent steps 0 []

theorem blockLinesFor_keeps (folded : Bool) (indent steps : Nat) (afterBlank : Bool)
    (tail : BlockTail) (before : List Char) :
    Keeps extent 0 (blockLinesFor folded indent steps afterBlank tail before) := by
  induction steps generalizing afterBlank tail before with
  | zero => exact .pure _
  | succ steps ih =>
    refine .need (.look fun first => .mark fun m => ?_)
    split
    · exact .pure _
    refine .bind (takeWhile_keeps _) fun line => .load (.bind readBreak_keeps fun b => ?_)
    exact .bind (emptyLines_keeps indent) fun _ => ih _ _ _

theorem finishLine_keeps (p : Problem) : Keeps extent 0 (finishLine p) := by
  have rest : Keeps extent 0 (do
      if !(← look 0).all isBreak then fail p
      if (← look 0).isSome then
        need 2
        discard readBreak) := by
    refine .look fun c => .guard (.look fun d => ?_)
    split
    · exact .load discardBreak_keeps.any
    · exact .pure _
  refine .bind (skipWhile_keeps _) fun _ => .look fun c => ?_
  split
  · exact .bind (skipWhile_keeps _) fun _ => rest
  · exact rest

theorem blockScalar_keeps (folded : Bool) (indent : Int) :
    Keeps extent 1 (blockScalar folded indent) := by
  refine .skip Nat.one_pos fun _ => .bind blockHeader_keeps fun (chomp, increment) => ?_
  refine .bind (finishLine_keeps _) fun _ => .bind (emptyLines_keeps _) fun (breaks, widest) => ?_
  exact .fuel fun steps => .bind (blockLinesFor_keeps _ _ _ _ _ _) fun _ => .pure _

/-! ### Anchors, tags and directives -/

theorem anchorName_keeps : Keeps extent 1 anchorName := by
  refine .skip Nat.one_pos fun _ => .bind (takeWhile_keeps _) fun name => .look fun c => ?_
  exact .guard (.pure _)

theorem octet_keeps : Keeps extent 0 octet := by
  refine .need (.get fun c => ?_)
  split
  next digits next =>
    split
    next n number =>
      have two := hexNumber?_length number
      refine .skipMany ?_ fun _ => .pure _
      rw [next, List.length_cons]
      omega
    · exact .fail _
  · exact .fail _

theorem trailingOctets_keeps (count : Nat) : Keeps extent 0 (trailingOctets count) := by
  induction count with
  | zero => exact .pure _
  | succ count ih =>
    exact .bind octet_keeps fun n => .guard (.bind ih fun _ => .pure _)

theorem tagTextFor_keeps (steps : Nat) (before : Text) :
    Keeps extent 0 (tagTextFor steps before) := by
  induction steps generalizing before with
  | zero => exact .pure _
  | succ steps ih =>
    refine .need (.find (.pure _) fun c => ?_)
    dsimp only
    split
    · exact .bind octet_keeps.any fun n => .guard (.bind (trailingOctets_keeps _) fun _ => ih _)
    split
    · exact .skip (by omega) fun _ => ih _
    · exact .pure _

theorem tagText_keeps : Keeps extent 0 tagText :=
  .fuel fun steps => tagTextFor_keeps steps []

theorem tagHandle_keeps : Keeps extent 1 tagHandle := by
  refine .skip Nat.one_pos fun _ => .bind (takeWhile_keeps _) fun name => ?_
  refine .find (.pure _) fun c => ?_
  split
  · exact .skip (by omega) fun _ => .pure _
  · exact .pure _

theorem tagBody_keeps : Keeps extent 1 tagBody := by
  have short : Keeps extent 1 (do
      let handle ← tagHandle
      let suffix ← tagText
      if isFullHandle handle then
        if suffix.isEmpty then fail .badTag
        return (handle, suffix)
      else
        let suffix := handle.drop 1 ++ suffix
        if suffix.isEmpty then return ([], text "!") else return (text "!", suffix)) := by
    refine .bind tagHandle_keeps fun handle => .bind tagText_keeps fun suffix => ?_
    split
    · exact .guard (.pure _)
    · dsimp only
      split
      · exact .pure _
      · exact .pure _
  refine .need (.find short fun c => ?_)
  split
  · refine .skipMany (by omega) fun _ => .bind tagText_keeps fun suffix => ?_
    exact .expect (by simp) fun d => .skip (by omega) fun _ => .pure _
  · exact short.mono (by omega)

theorem tagParts_keeps : Keeps extent 1 tagParts :=
  .bind tagBody_keeps fun _ => .need (.look fun _ => .guard (.pure _))

theorem shortNumber_keeps : Keeps extent 0 shortNumber :=
  .bind (takeWhile_keeps _) fun _ => .guard (.pure _)

theorem versionValue_keeps : Keeps extent 0 versionValue := by
  refine .bind (skipWhile_keeps _) fun _ => .bind shortNumber_keeps fun major => ?_
  exact .expect rfl fun c => .skip (by omega) fun _ => .bind shortNumber_keeps fun _ => .pure _

theorem tagValue_keeps : Keeps extent 0 tagValue := by
  refine .bind (skipWhile_keeps _) fun _ => .expect rfl fun c => ?_
  refine .bind (tagHandle_keeps.mono (by omega)) fun handle => .guard (.need ?_)
  refine .look fun d => .guard (.bind (skipWhile_keeps _) fun _ => ?_)
  exact .bind tagText_keeps fun lead => .look fun e => .guard (.pure _)

theorem directive_keeps : Keeps extent 1 directive := by
  refine .skip Nat.one_pos fun _ => .bind (takeWhile_keeps _) fun name => .look fun c => .guard ?_
  have rest (kind : TokenKind) : Keeps extent 0 (do
      finishLine .badDirective
      return kind) := .bind (finishLine_keeps _) fun _ => .pure _
  split
  · exact .bind versionValue_keeps rest
  split
  · exact .bind tagValue_keeps rest
  · exact .bind (.fail _) rest

end Scan

end TreeCheck.Yaml
