import TreeCheck.Proofs.Yaml.Lines
import TreeCheck.Yaml.Token.Stream

/-!
Where tokens stand. All marks of the tokens of a source are within its lines: those of the
characters they are read from, of the comments that block ends move in front of, and of the end,
which starts a line of its own.
-/

namespace TreeCheck.Yaml

variable {extent : Extent}

/-! ### Comments -/

def CommentsFit (extent : Extent) (cs : List Comment) : Prop :=
  ∀ c ∈ cs, c.start.line ≤ extent.last

namespace Outlook

/-- What was seen ahead of a cursor is within the lines of a source, and so are the breaks behind
it. -/
structure Fits (extent : Extent) (c : Cursor) (o : Outlook) : Prop where
  lines : o.line + (c.ahead.drop o.distance).countP isBreak ≤ extent.last
  current : ∀ m ∈ o.current, m.line ≤ extent.last
  found : CommentsFit extent o.found

variable {c d : Cursor} {o : Outlook} {around : Surroundings} {index : Nat}

theorem Fits.of_ahead (fits : o.Fits extent c) (ahead : d.ahead = c.ahead) : o.Fits extent d where
  lines := ahead ▸ fits.lines
  current := fits.current
  found := fits.found

theorem Fits.close (fits : o.Fits extent c) : (o.close index).Fits extent c := by
  unfold Outlook.close
  split
  · exact fits
  next start current =>
    refine ⟨fits.lines, nofun, fun k member => ?_⟩
    rcases List.mem_cons.mp member with rfl | older
    · exact fits.current start current
    · exact fits.found k older

theorem Fits.atBreak (fits : o.Fits extent c) : (o.atBreak around index).Fits extent c := by
  unfold Outlook.atBreak
  split
  · exact fits.close
  · exact fits

theorem Fits.atWord (fits : o.Fits extent c) : (o.atWord around index).Fits extent c := by
  unfold Outlook.atWord
  split
  · exact fits.close
  · exact fits

theorem atBreak_distance (o : Outlook) (around : Surroundings) (index : Nat) :
    (o.atBreak around index).distance = o.distance := by
  unfold Outlook.atBreak close
  split
  · split
    · rfl
    · rfl
  · rfl

theorem Fits.further (fits : o.Fits extent c) :
    ({ o with distance := o.distance + 1 } : Outlook).Fits extent c where
  lines := by
    have fewer := ((List.drop_suffix 1 (c.ahead.drop o.distance)).sublist).countP_le (p := isBreak)
    rw [List.drop_drop] at fewer
    exact Nat.le_trans (Nat.add_le_add_left fewer _) fits.lines
  current := fits.current
  found := fits.found

theorem Fits.nextLine (fits : o.Fits extent c) {e : Char} (here : c.ahead[o.distance]? = some e)
    (line : isBreak e) :
    ({ o.nextLine with distance := o.distance + 1 } : Outlook).Fits extent c where
  lines := by
    obtain ⟨inside, rfl⟩ := List.getElem?_eq_some_iff.mp here
    have lines := fits.lines
    rw [List.drop_eq_getElem_cons inside, List.countP_cons, if_pos line] at lines
    have next : o.line + 1 + (c.ahead.drop (o.distance + 1)).countP isBreak ≤ extent.last := by
      omega
    exact next
  current := fits.current
  found := fits.found

theorem Fits.start (fits : o.Fits extent c) (index column : Nat) :
    (o.current.getD ⟨index, o.line, column⟩).line ≤ extent.last := by
  cases here : o.current with
  | none => exact Nat.le_trans (Nat.le_add_right _ _) fits.lines
  | some m => exact fits.current m here

theorem Fits.passed (fits : o.Fits extent c) (after : d.Fits extent) {o' : Outlook}
    (distance : o'.distance = 1) (line : o'.line = d.mark.line) (index column : Nat)
    (current : o'.current = some (o.current.getD ⟨index, o.line, column⟩))
    (found : o'.found = o.found) : o'.Fits extent d where
  lines := by
    rw [distance, line]
    have fewer := (List.drop_sublist 1 d.ahead).countP_le (p := isBreak)
    exact Nat.le_trans (Nat.add_le_add_left fewer _) after.breaks_le
  current m member := by
    rw [current, Option.mem_some] at member
    exact member ▸ fits.start index column
  found := found ▸ fits.found

end Outlook

namespace Scan

open Cursor

theorem lookAhead_fits (around : Surroundings) (steps : Nat) {o : Outlook} {c d : Cursor}
    {result : Bool × Outlook} (fits : c.Fits extent) (seen : o.Fits extent c)
    (run : (lookAhead around steps o).run c = .ok (result, d)) :
    d.Fits extent ∧ result.2.Fits extent d := by
  induction steps generalizing o c with
  | zero =>
    cases run
    exact ⟨fits, seen⟩
  | succ steps ih =>
    obtain ⟨_, e, needed, run⟩ := run_bind_ok run
    obtain ⟨fits, ahead, -⟩ := load?_some (load?_of_need needed) fits
    obtain ⟨_, _, here, run⟩ := run_bind_ok run
    cases here
    obtain ⟨_, _, here, run⟩ := run_bind_ok run
    cases here
    have seen : ({ o with column := o.column + 1 } : Outlook).Fits extent e :=
      ⟨ahead ▸ seen.lines, seen.current, seen.found⟩
    cases found : e.rest[o.distance]? with
    | none =>
      rw [found] at run
      cases run
      exact ⟨fits, seen.atBreak⟩
    | some f =>
      rw [found] at run
      dsimp only at run
      have inside : e.ahead[o.distance]? = some f := by
        rw [Cursor.ahead, List.getElem?_append_left (List.getElem?_eq_some_iff.mp found).1, found]
      split at run
      · exact ih fits seen.further run
      split at run
      · cases run
        exact ⟨fits, seen.close⟩
      split at run
      next line =>
        have place := Outlook.atBreak_distance { o with column := o.column + 1 } around
          (e.mark.index + o.distance)
        have seen := seen.atBreak.nextLine (place ▸ inside) line
        split at run
        · exact ih fits seen run
        split at run
        · cases run
          exact ⟨fits, seen⟩
        · obtain ⟨_, g, needed, run⟩ := run_bind_ok run
          obtain ⟨fits, ahead, -⟩ := load?_some (load?_of_need needed) fits
          cases run
          have seen := seen.of_ahead ahead
          exact ⟨fits, Outlook.Fits.atWord ⟨seen.lines, seen.current, seen.found⟩⟩
      · cases run
        exact ⟨fits, seen.atWord⟩

theorem passComment_keeps (index steps : Nat) : Keeps extent 0 (passComment index steps) := by
  induction steps with
  | zero => exact .pure _
  | succ steps ih =>
    refine .need (.find (.pure _) fun c => ?_)
    dsimp only
    split
    · exact .skip (by omega) fun _ => ih
    · refine .mark fun m => ?_
      split
      · exact .load (.bind discardBreak_keeps fun _ => ih)
      · exact .pure _

theorem commentsFor_fits (around : Surroundings) (steps : Nat) {o : Outlook} {c d : Cursor}
    {found : List Comment} (fits : c.Fits extent) (seen : o.Fits extent c)
    (run : (commentsFor around steps o).run c = .ok (found, d)) :
    d.Fits extent ∧ CommentsFit extent found := by
  induction steps generalizing o c with
  | zero =>
    cases run
    exact ⟨fits, seen.found⟩
  | succ steps ih =>
    obtain ⟨⟨more, o⟩, e, looked, run⟩ := run_bind_ok run
    obtain ⟨fits, seen⟩ := lookAhead_fits around _ fits seen looked
    obtain ⟨_, _, here, run⟩ := run_bind_ok run
    cases here
    dsimp only at run
    split at run
    · obtain ⟨_, _, here, run⟩ := run_bind_ok run
      cases here
      obtain ⟨_, f, passed, run⟩ := run_bind_ok run
      obtain ⟨_, _, here, run⟩ := run_bind_ok run
      cases here
      have fits := passComment_keeps _ _ _ _ _ fits (Nat.zero_le _) passed
      refine ih fits ?_ run
      exact seen.passed fits rfl rfl _ _ rfl rfl
    · cases run
      exact ⟨fits, seen.close.found⟩

theorem comments_fit (inFlow : Bool) (indent : Int) (afterColon : Bool) (gap : Mark)
    {older found : List Comment} {c d : Cursor} (fits : c.Fits extent)
    (olderFit : CommentsFit extent older)
    (run : (comments inFlow indent afterColon gap older).run c = .ok (found, d)) :
    d.Fits extent ∧ CommentsFit extent found := by
  obtain ⟨_, _, here, run⟩ := run_bind_ok run
  cases here
  obtain ⟨_, _, here, run⟩ := run_bind_ok run
  cases here
  refine commentsFor_fits _ _ fits ?_ run
  exact ⟨fits.breaks_le, nofun, olderFit⟩

theorem blanksAhead_keeps (steps distance : Nat) : Keeps extent 0 (blanksAhead steps distance) := by
  induction steps generalizing distance with
  | zero => exact .pure _
  | succ steps ih =>
    refine .need (.look fun c => ?_)
    split
    · exact ih _
    · exact .pure _

theorem lineComment_keeps : Keeps extent 0 lineComment := by
  refine .get fun c => ?_
  split
  · refine .bind (blanksAhead_keeps _ _).any fun distance => .look fun c => ?_
    split
    · exact .mark fun m => .fuel fun steps => passComment_keeps _ _
    · exact .pure _
  · exact .pure _

end Scan

namespace Scanner

open Cursor

variable {s t : Scanner}

theorem toNextFor_fits (s : Scanner) (steps : Nat) {keyAllowed : Bool} {older : List Comment}
    {c d : Cursor} {result : Bool × List Comment} (fits : c.Fits extent)
    (olderFit : CommentsFit extent older)
    (run : (s.toNextFor steps keyAllowed older).run c = .ok (result, d)) :
    d.Fits extent ∧ CommentsFit extent result.2 := by
  induction steps generalizing keyAllowed older c with
  | zero =>
    cases run
    exact ⟨fits, olderFit⟩
  | succ steps ih =>
    obtain ⟨_, e, needed, run⟩ := Scan.run_bind_ok run
    obtain ⟨fits, -⟩ := load?_some (Scan.load?_of_need needed) fits
    obtain ⟨_, _, here, run⟩ := Scan.run_bind_ok run
    cases here
    have stays : ¬(decide (e.mark.column = 0) && e.atOrderMark) = true := by simp [fits.offMark]
    dsimp only at run
    rw [if_neg stays] at run
    obtain ⟨_, f, skipped, run⟩ := Scan.run_bind_ok run
    have fits := Scan.skipWhile_keeps _ _ _ _ fits (Nat.zero_le _) skipped
    obtain ⟨_, _, here, run⟩ := Scan.run_bind_ok run
    cases here
    have rest {found : List Comment} {g : Cursor} (fits : g.Fits extent)
        (foundFit : CommentsFit extent found)
        (run : (do
          if (← Scan.look 0).any isBreak then
            Scan.need 2
            discard Scan.readBreak
            s.toNextFor steps (keyAllowed || !s.inFlow) found
          else return (keyAllowed, found) : Scan _).run g = .ok (result, d)) :
        d.Fits extent ∧ CommentsFit extent result.2 := by
      obtain ⟨_, _, here, run⟩ := Scan.run_bind_ok run
      cases here
      split at run
      · obtain ⟨_, _, needed, run⟩ := Scan.run_bind_ok run
        obtain ⟨fits, -, -, ready⟩ := load?_some (Scan.load?_of_need needed) fits
        obtain ⟨_, _, broke, run⟩ := Scan.run_bind_ok run
        exact ih (Scan.discardBreak_keeps _ _ _ fits ready (Nat.zero_le _) broke) foundFit run
      · cases run
        exact ⟨fits, foundFit⟩
    split at run
    · obtain ⟨_, _, passed, run⟩ := Scan.run_bind_ok run
      obtain ⟨fits, foundFit⟩ := Scan.comments_fit _ _ _ _ fits olderFit passed
      exact rest fits foundFit run
    · exact rest fits olderFit run

/-! ### Tokens -/

end Scanner

/-- Whether a token stands for no characters. Such a token may stand below all of them: the end of a
source is on a line of its own, and block collections end there or in front of comments. -/
def TokenKind.isEdge : TokenKind → Bool
  | .streamStart | .streamEnd | .blockEnd => true
  | _ => false

structure Token.Fits (extent : Extent) (t : Token) : Prop where
  start : t.start.line ≤ extent.last
  stop : t.stop.line ≤ extent.last
  valueAt : t.valueAt.line ≤ extent.last
  inner : t.kind.isEdge = false → t.start.line ≤ extent.inner

theorem Token.point_fits {kind : TokenKind} {m : Mark} (line : m.line ≤ extent.inner) :
    (Token.point kind m).Fits extent :=
  have within := Nat.le_trans line extent.inner_le
  ⟨within, within, within, fun _ => line⟩

theorem Token.edge_fits {kind : TokenKind} (edge : kind.isEdge = true) {m : Mark}
    (line : m.line ≤ extent.last) : (Token.point kind m).Fits extent :=
  ⟨line, line, line, fun other => nomatch edge.symm.trans other⟩

theorem Token.span_fits {kind : TokenKind} {start stop : Mark} (first : start.line ≤ extent.inner)
    (second : stop.line ≤ extent.last) : (Token.span kind start stop).Fits extent :=
  have within := Nat.le_trans first extent.inner_le
  ⟨within, second, within, fun _ => first⟩

def Level.Fits (extent : Extent) (l : Level) : Prop :=
  ∀ k ∈ l.key, k.mark.line ≤ extent.inner

namespace Scanner

/-- Everything the scanner has met is within the lines of a source. -/
structure Fits (extent : Extent) (s : Scanner) : Prop where
  cursor : s.cursor.Fits extent
  tokens : ∀ t ∈ s.tokens, t.Fits extent
  level : s.level.Fits extent
  outer : ∀ l ∈ s.outer, l.Fits extent

/-- The step, if there is no fault, leads to a scanner with a property. -/
def Leads {α : Type} (x : Except Fault α) (goal : α → Prop) : Prop :=
  ∀ a, x = .ok a → goal a

namespace Leads

variable {α β : Type} {x : Except Fault α} {f : α → Except Fault β} {between : α → Prop}
  {goal : β → Prop}

theorem ok {a : α} (holds : between a) : Leads (.ok a) between := by
  intro b same
  cases same
  exact holds

theorem error (fault : Fault) : Leads (.error fault) between :=
  nofun

theorem refused (fault : Fault) (f : α → Except Fault β) : Leads (throw fault >>= f) goal :=
  nofun

theorem bind (first : Leads x between) (rest : ∀ a, between a → Leads (f a) goal) :
    Leads (x >>= f) goal := by
  intro b same
  cases step : x with
  | error fault =>
    rw [step] at same
    cases same
  | ok a =>
    rw [step] at same
    exact rest a (first a step) b same

theorem map {g : α → β} (first : Leads x fun a => goal (g a)) : Leads (x.map g) goal :=
  first.bind fun _ holds => .ok holds

end Leads

variable {s t : Scanner} {c : Cursor}

/-- The scanner stands at a cursor, and everything it has met is within the lines of a source. -/
def FitsAt (extent : Extent) (c : Cursor) (s : Scanner) : Prop :=
  s.cursor = c ∧ s.Fits extent

theorem Fits.here (fits : s.Fits extent) : s.FitsAt extent s.cursor :=
  ⟨rfl, fits⟩

theorem FitsAt.line_le (fits : s.FitsAt extent c) : s.mark.line ≤ extent.last :=
  fits.2.cursor.line_le

theorem FitsAt.inner_le (fits : s.FitsAt extent c) (more : 0 < c.ahead.length) :
    s.mark.line ≤ extent.inner :=
  fits.2.cursor.inner_le (fits.1 ▸ List.ne_nil_of_length_pos more)

theorem FitsAt.same (fits : s.FitsAt extent c) (cursor : t.cursor = s.cursor)
    (tokens : t.tokens = s.tokens) (level : t.level = s.level) (outer : t.outer = s.outer) :
    t.FitsAt extent c :=
  ⟨cursor.trans fits.1, cursor ▸ fits.2.cursor, tokens ▸ fits.2.tokens, level ▸ fits.2.level,
    outer ▸ fits.2.outer⟩

theorem FitsAt.allowing (fits : s.FitsAt extent c) (allowed : Bool) :
    ({ s with keyAllowed := allowed } : Scanner).FitsAt extent c :=
  fits.same rfl rfl rfl rfl

theorem FitsAt.without (fits : s.FitsAt extent c) (number : Nat) :
    ({ s with level := ⟨number, none⟩ } : Scanner).FitsAt extent c :=
  ⟨fits.1, fits.2.cursor, fits.2.tokens, nofun, fits.2.outer⟩

theorem withSlot_same (s : Scanner) : s.withSlot.cursor = s.cursor ∧ s.withSlot.level = s.level ∧
    s.withSlot.outer = s.outer := by
  unfold withSlot
  split
  · exact ⟨rfl, rfl, rfl⟩
  · split
    · exact ⟨rfl, rfl, rfl⟩
    · exact ⟨rfl, rfl, rfl⟩

theorem FitsAt.push (fits : s.FitsAt extent c) {token : Token} (within : token.Fits extent) :
    (s.push token).FitsAt extent c := by
  obtain ⟨cursor, level, outer⟩ := withSlot_same s
  refine ⟨cursor.trans fits.1, cursor ▸ fits.2.cursor, fun t member => ?_, level ▸ fits.2.level,
    outer ▸ fits.2.outer⟩
  rcases List.mem_cons.mp member with rfl | older
  · exact within
  · exact fits.2.tokens t older

theorem FitsAt.insert (fits : s.FitsAt extent c) (number : Nat) {token : Token}
    (within : token.Fits extent) : (s.insert number token).FitsAt extent c := by
  unfold Scanner.insert
  split
  · exact fits.push within
  · obtain ⟨cursor, level, outer⟩ := withSlot_same s
    refine ⟨cursor.trans fits.1, cursor ▸ fits.2.cursor, fun t member => ?_, level ▸ fits.2.level,
      outer ▸ fits.2.outer⟩
    rcases List.mem_append.mp member with newer | rest
    · exact fits.2.tokens t (List.mem_of_mem_take newer)
    · rcases List.mem_cons.mp rest with rfl | older
      · exact within
      · exact fits.2.tokens t (List.mem_of_mem_drop older)

/-! ### Reading on -/

theorem reading_ok {α : Type} {scan : Scan α} {result : α × Scanner}
    (read : s.reading scan = .ok result) :
    ∃ d, scan.run s.cursor = .ok (result.1, d) ∧ result.2 = { s with cursor := d } := by
  unfold reading at read
  cases run : scan.run s.cursor with
  | error fault =>
    rw [run] at read
    cases read
  | ok outcome =>
    rw [run] at read
    cases read
    exact ⟨outcome.2, rfl, rfl⟩

theorem FitsAt.moved (fits : s.FitsAt extent c) {d : Cursor} (moved : d.Fits extent) :
    ({ s with cursor := d } : Scanner).Fits extent :=
  ⟨moved, fits.2.tokens, fits.2.level, fits.2.outer⟩

theorem FitsAt.reading {α : Type} (fits : s.FitsAt extent c) {count : Nat} {scan : Scan α}
    (keeps : Scan.Keeps extent count scan) (more : count ≤ c.ahead.length) :
    Leads (s.reading scan) fun result => result.2.Fits extent := by
  intro result read
  obtain ⟨d, run, same⟩ := reading_ok read
  rw [same]
  exact fits.moved (keeps _ _ _ fits.2.cursor (fits.1 ▸ more) run)

theorem FitsAt.take (fits : s.FitsAt extent c) {count : Nat} {scan : Scan TokenKind}
    (keeps : Scan.Keeps extent (count + 1) scan) (more : count + 1 ≤ c.ahead.length) :
    Leads (s.take scan) (Fits extent) := by
  have start := fits.inner_le (Nat.lt_of_lt_of_le (Nat.succ_pos count) more)
  refine (fits.reading keeps more).bind fun (kind, t) moved => .ok ?_
  exact (moved.here.push (Token.span_fits start moved.here.line_le)).2

theorem FitsAt.takeMark (fits : s.FitsAt extent c) {size : Nat} (more : size + 1 ≤ c.ahead.length)
    (kind : TokenKind) : Leads (s.takeMark (size + 1) kind) (Fits extent) :=
  fits.take (.skipMany (Nat.le_refl (size + 1)) fun _ => .pure _) more

/-! ### Keys -/

theorem FitsAt.dropKey (fits : s.FitsAt extent c) : Leads s.dropKey (FitsAt extent c) := by
  unfold Scanner.dropKey
  split
  · split
    · exact .error _
    · exact .ok (fits.without _)
  · exact .ok fits

theorem FitsAt.saveKey (fits : s.FitsAt extent c) (more : 0 < c.ahead.length) :
    Leads s.saveKey (FitsAt extent c) := by
  unfold Scanner.saveKey
  split
  · exact .ok fits
  · refine fits.dropKey.bind fun t dropped => .ok ?_
    refine ⟨dropped.1, dropped.2.cursor, dropped.2.tokens, ?_, dropped.2.outer⟩
    rintro k ⟨⟩
    exact fits.inner_le more

theorem FitsAt.beforeWord (fits : s.FitsAt extent c) (more : 0 < c.ahead.length) :
    Leads s.beforeWord (FitsAt extent c) :=
  (fits.saveKey more).bind fun _ saved => .ok (saved.same rfl rfl rfl rfl)

theorem FitsAt.validKey (fits : s.FitsAt extent c) :
    Leads s.validKey fun key => ∀ k ∈ key, k.mark.line ≤ extent.inner := by
  unfold Scanner.validKey
  split
  · exact .ok nofun
  next k here =>
    split
    · split
      · exact .error _
      · exact .ok nofun
    · refine .ok ?_
      rintro _ ⟨⟩
      exact fits.2.level k here

/-! ### Indentation -/

theorem endFrom_line (indent stop : Int) {found : Int × Mark} {comments : List Comment}
    (line : found.2.line ≤ extent.last) (commentsFit : CommentsFit extent comments) :
    (endFrom indent stop found comments).2.line ≤ extent.last := by
  induction comments generalizing stop found with
  | nil => exact line
  | cons k older ih =>
    have rest : CommentsFit extent older :=
      fun j member => commentsFit j (List.mem_cons_of_mem _ member)
    unfold endFrom
    split
    · exact line
    · refine ih _ ?_ rest
      split
      · exact commentsFit k List.mem_cons_self
      · exact line

theorem FitsAt.unrollFrom {column : Int} {comments : List Comment}
    (commentsFit : CommentsFit extent comments) (fits : s.FitsAt extent c) {found : Int × Mark}
    (line : found.2.line ≤ extent.last) (indents : List Int) :
    (unrollFrom column comments s found indents).FitsAt extent c := by
  induction indents generalizing s found with
  | nil => exact fits
  | cons outer more ih =>
    unfold Scanner.unrollFrom
    split
    · have line := endFrom_line s.indent found.1 line commentsFit
      refine ih ?_ line
      exact (fits.push (Token.edge_fits rfl line)).same rfl rfl rfl rfl
    · exact fits

theorem FitsAt.unroll {comments : List Comment} (commentsFit : CommentsFit extent comments)
    (fits : s.FitsAt extent c) (column : Int) {mark : Mark} (line : mark.line ≤ extent.last) :
    (s.unroll column mark comments).FitsAt extent c := by
  unfold Scanner.unroll
  split
  · exact fits
  · exact fits.unrollFrom commentsFit line _

theorem FitsAt.roll (fits : s.FitsAt extent c) (kind : TokenKind) {mark : Mark}
    (line : mark.line ≤ extent.inner) (number : Option Nat) :
    Leads (s.roll kind mark number) (FitsAt extent c) := by
  unfold Scanner.roll
  split
  · exact .ok fits
  split
  · exact .error _
  · have deeper : ({ s with indent := mark.column, indents := s.indent :: s.indents } :
      Scanner).FitsAt extent c := fits.same rfl rfl rfl rfl
    refine .ok ?_
    cases number with
    | none => exact deeper.push (Token.point_fits line)
    | some n => exact deeper.insert n (Token.point_fits line)

/-! ### The single tokens -/

theorem FitsAt.fetchEnd (fits : s.FitsAt extent c) (ends : c.ahead = []) {comments : List Comment}
    (commentsFit : CommentsFit extent comments) : Leads (s.fetchEnd comments) (Fits extent) := by
  obtain ⟨rfl, fits⟩ := fits
  unfold Scanner.fetchEnd
  dsimp only
  generalize at_end :
    (if s.mark.column == 0 then s.mark else ⟨s.mark.index, s.mark.line + 1, 0⟩) = m
  have start : m.column = 0 ∧ m.line ≤ extent.last := by
    rw [← at_end]
    split
    next column => exact ⟨beq_iff_eq.mp column, fits.cursor.line_le⟩
    next column =>
      exact ⟨rfl, fits.cursor.next_line_le ends fun none => column (beq_iff_eq.mpr none)⟩
  have moved : ({ s.cursor with mark := m } : Cursor).Fits extent := by
    refine ⟨?_, fun more => absurd ends more, fits.cursor.unmarked, fits.cursor.offMark,
      fits.cursor.loaded⟩
    have none : ({ s.cursor with mark := m } : Cursor).ahead = [] := ends
    rw [none, linesAhead, if_pos start.1]
    exact start.2
  have ended := (fits.here.moved moved).here.unroll commentsFit (-1) start.2
  refine ended.dropKey.bind fun t dropped => .ok ?_
  have closed : ({ t with keyAllowed := false, ends := t.ends + 1 } : Scanner).FitsAt extent _ :=
    dropped.same rfl rfl rfl rfl
  exact (closed.push (Token.edge_fits rfl start.2)).2

theorem FitsAt.fetchDirective (fits : s.FitsAt extent c) (more : 0 < c.ahead.length)
    {comments : List Comment} (commentsFit : CommentsFit extent comments) :
    Leads (s.fetchDirective comments) (Fits extent) := by
  refine (fits.unroll commentsFit (-1) fits.line_le).dropKey.bind fun t dropped => ?_
  exact (dropped.allowing false).take Scan.directive_keeps more

theorem FitsAt.fetchDocumentMark (fits : s.FitsAt extent c) (more : 3 ≤ c.ahead.length)
    {comments : List Comment} (commentsFit : CommentsFit extent comments) (kind : TokenKind) :
    Leads (s.fetchDocumentMark comments kind) (Fits extent) := by
  refine (fits.unroll commentsFit (-1) fits.line_le).dropKey.bind fun t dropped => ?_
  exact (dropped.allowing false).takeMark more kind

theorem unheld_fits {l : Level} (fits : l.Fits extent) (number : Nat) :
    (Level.unheld l number).Fits extent := by
  intro k member
  obtain ⟨j, here, rfl⟩ := Option.map_eq_some_iff.mp member
  have line := fits j here
  split
  · exact line
  · exact line

section

variable (fits : s.FitsAt extent c) (more : 0 < c.ahead.length)

include fits more

theorem FitsAt.fetchOpening (kind : TokenKind) : Leads (s.fetchOpening kind) (Fits extent) := by
  refine (fits.saveKey more).bind fun t saved => ?_
  split
  · exact .refused _ _
  · have opened : ({ t with
        keyAllowed := true, depth := t.depth + 1
        level := ⟨t.count, none⟩, outer := t.level :: t.outer } : Scanner).FitsAt extent c := by
      refine ⟨saved.1, saved.2.cursor, saved.2.tokens, nofun, fun l member => ?_⟩
      rcases List.mem_cons.mp member with rfl | further
      · exact saved.2.level
      · exact saved.2.outer l further
    exact opened.takeMark more kind

theorem FitsAt.fetchClosing (kind : TokenKind) : Leads (s.fetchClosing kind) (Fits extent) := by
  refine fits.dropKey.bind fun t dropped => ?_
  dsimp only
  split
  · exact (dropped.allowing false).takeMark more kind
  next level outer levels =>
    have inside (l : Level) (member : l ∈ level :: outer) : l.Fits extent :=
      dropped.2.outer l (levels ▸ member)
    have closed : ({ t with
        keyAllowed := false, depth := t.depth - 1
        level := Level.unheld level t.level.number, outer } : Scanner).FitsAt extent c :=
      ⟨dropped.1, dropped.2.cursor, dropped.2.tokens,
        unheld_fits (inside level List.mem_cons_self) _,
        fun l member => inside l (List.mem_cons_of_mem _ member)⟩
    exact closed.takeMark more kind

theorem FitsAt.fetchFlowEntry : Leads s.fetchFlowEntry (Fits extent) := by
  refine fits.dropKey.bind fun t dropped => ?_
  exact (dropped.allowing true).takeMark more .flowEntry

theorem FitsAt.fetchBlockEntry : Leads s.fetchBlockEntry (Fits extent) := by
  have entry : Leads (do
      let s ← (← s.roll .blockSequenceStart s.mark none).dropKey
      let s := { s with keyAllowed := true }
      s.takeMark 1 .blockEntry) (Fits extent) := by
    refine (fits.roll _ (fits.inner_le more) none).bind fun t rolled => ?_
    refine rolled.dropKey.bind fun u dropped => ?_
    exact (dropped.allowing true).takeMark more .blockEntry
  unfold Scanner.fetchBlockEntry
  dsimp only
  split
  · exact .refused _ _
  · exact entry

theorem FitsAt.fetchKey : Leads s.fetchKey (Fits extent) := by
  have key : Leads (do
      let s ← (← s.roll .blockMappingStart s.mark none).dropKey
      let s := { s with keyAllowed := !s.inFlow }
      s.takeMark 1 .key) (Fits extent) := by
    refine (fits.roll _ (fits.inner_le more) none).bind fun t rolled => ?_
    refine rolled.dropKey.bind fun u dropped => ?_
    exact (dropped.allowing !u.inFlow).takeMark more .key
  unfold Scanner.fetchKey
  dsimp only
  split
  · exact .refused _ _
  · exact key

theorem FitsAt.fetchValue : Leads s.fetchValue (Fits extent) := by
  refine fits.validKey.bind fun key line => ?_
  split
  next k =>
    have marked := line k rfl
    have key : (Token.point .key k.mark).Fits extent := Token.point_fits marked
    refine ((fits.insert k.number key).roll _ marked _).bind fun t rolled => ?_
    exact ((rolled.without t.level.number).allowing false).takeMark more .value
  · have plain := fits.without s.level.number
    have value : Leads (do
        let s ← ({ s with level := ⟨s.level.number, none⟩ } : Scanner).roll .blockMappingStart
          s.mark none
        let s := { s with keyAllowed := !s.inFlow }
        s.takeMark 1 .value) (Fits extent) := by
      refine (plain.roll _ (plain.inner_le more) none).bind fun t rolled => ?_
      exact (rolled.allowing !t.inFlow).takeMark more .value
    dsimp only
    split
    · exact .refused _ _
    · exact value

theorem FitsAt.fetchAnchor (kind : Text → TokenKind) : Leads (s.fetchAnchor kind) (Fits extent) :=
  (fits.beforeWord more).bind fun _ saved =>
    saved.take (.bind Scan.anchorName_keeps fun _ => .pure _) more

theorem FitsAt.fetchTag : Leads s.fetchTag (Fits extent) :=
  (fits.beforeWord more).bind fun _ saved =>
    saved.take (.bind Scan.tagParts_keeps fun _ => .pure _) more

theorem FitsAt.fetchBlockScalar (folded : Bool) :
    Leads (s.fetchBlockScalar folded) (Fits extent) := by
  refine fits.dropKey.bind fun t dropped => ?_
  exact (dropped.allowing true).take (.bind (Scan.blockScalar_keeps folded _) fun _ => .pure _) more

theorem FitsAt.fetchQuoted (single : Bool) : Leads (s.fetchQuoted single) (Fits extent) :=
  (fits.beforeWord more).bind fun _ saved =>
    saved.take (.bind (Scan.quotedScalar_keeps single) fun _ => .pure _) more

theorem FitsAt.fetchPlain : Leads s.fetchPlain (Fits extent) := by
  refine (fits.beforeWord more).bind fun t saved => ?_
  refine (saved.reading (Scan.plainScalar_keeps _ _) (Nat.zero_le _)).bind ?_
  intro (plain, u) moved
  refine .ok ?_
  have word : (Token.span (.scalar (Text.ofChars plain.chars) .plain) t.mark u.mark).Fits extent :=
    Token.span_fits (saved.inner_le more) moved.here.line_le
  exact ((moved.here.push word).allowing plain.broke).2

theorem FitsAt.fetchAt (e : Char) (following : Option Char) :
    Leads (s.fetchAt e following) (Fits extent) := by
  unfold Scanner.fetchAt
  dsimp only
  split
  · exact fits.fetchOpening more _
  · exact fits.fetchOpening more _
  · exact fits.fetchClosing more _
  · exact fits.fetchClosing more _
  · exact fits.fetchFlowEntry more
  · exact fits.fetchAnchor more _
  · exact fits.fetchAnchor more _
  · exact fits.fetchTag more
  · exact fits.fetchQuoted more _
  · exact fits.fetchQuoted more _
  split
  · exact fits.fetchBlockEntry more
  split
  · exact fits.fetchKey more
  split
  · exact fits.fetchValue more
  split
  · exact fits.fetchBlockScalar more _
  split
  · exact fits.fetchBlockScalar more _
  split
  · exact fits.fetchPlain more
  · exact .error _

end

theorem FitsAt.passLineComment (fits : s.FitsAt extent c) :
    Leads s.passLineComment (Fits extent) := by
  unfold Scanner.passLineComment
  split
  · exact .ok fits.2
  · exact (fits.reading Scan.lineComment_keeps (Nat.zero_le _)).map

/-! ### Whole sources -/

theorem atDocumentMark_ok {e : Char} {c d : Cursor} {found : Bool}
    (run : (Scan.atDocumentMark e).run c = .ok (found, d)) :
    d = c ∧ (found → 3 ≤ c.rest.length) := by
  cases run
  refine ⟨rfl, fun found => ?_⟩
  rw [Bool.and_eq_true, Bool.and_eq_true, beq_iff_eq (b := [e, e, e])] at found
  have three : min 3 c.rest.length = 3 := (List.length_take).symm.trans (congrArg _ found.1.2)
  omega

theorem Fits.toNext (fits : s.Fits extent) :
    Leads (s.reading do s.toNextFor (← Scan.fuel) s.keyAllowed []) fun result =>
      CommentsFit extent result.1.2 ∧ result.2.Fits extent := by
  intro result read
  obtain ⟨d, run, same⟩ := reading_ok read
  obtain ⟨_, _, here, run⟩ := Scan.run_bind_ok run
  cases here
  have none : CommentsFit extent [] := nofun
  obtain ⟨moved, found⟩ := toNextFor_fits s _ fits.cursor none run
  exact ⟨found, same ▸ fits.here.moved moved⟩

theorem Fits.needed (fits : s.Fits extent) (count : Nat) :
    Leads (s.reading (Scan.need count)) fun result =>
      result.2.Fits extent ∧ result.2.cursor.Ready count := by
  intro result read
  obtain ⟨d, run, same⟩ := reading_ok read
  obtain ⟨moved, -, -, ready⟩ := Cursor.load?_some (Scan.load?_of_need run) fits.cursor
  rw [same]
  exact ⟨fits.here.moved moved, ready⟩

theorem documentMarks (s : Scanner) :
    Leads (s.reading (return (← Scan.atDocumentMark '-', ← Scan.atDocumentMark '.'))) fun result =>
      (result.1.1 → 3 ≤ s.cursor.rest.length) ∧ (result.1.2 → 3 ≤ s.cursor.rest.length) := by
  intro (edge, t) read
  obtain ⟨d, run, -⟩ := reading_ok read
  obtain ⟨dashes, _, first, run⟩ := Scan.run_bind_ok run
  obtain ⟨rfl, dashed⟩ := atDocumentMark_ok first
  obtain ⟨dots, _, second, run⟩ := Scan.run_bind_ok run
  obtain ⟨rfl, dotted⟩ := atDocumentMark_ok second
  cases run
  exact ⟨dashed, dotted⟩

theorem Fits.fetchNext (fits : s.Fits extent) : Leads s.fetchNext (Fits extent) := by
  unfold Scanner.fetchNext
  refine fits.toNext.bind fun ((keyAllowed, comments), t) ⟨commentsFit, moved⟩ => ?_
  have start := (moved.here.allowing keyAllowed).unroll commentsFit t.mark.column fits.here.line_le
  refine (start.2.needed 4).bind fun (_, u) ⟨fits, ready⟩ => ?_
  refine (documentMarks u).bind fun (edge, _) ⟨dashed, dotted⟩ => ?_
  have rest := u.cursor.length_rest_le
  dsimp only at dashed dotted ⊢
  split
  next ends =>
    have all : u.cursor.blocks = [] := ready.resolve_left (by rw [ends]; decide)
    have nothing : u.cursor.ahead = [] := by
      rw [Cursor.ahead, ends, all]
      rfl
    exact fits.here.fetchEnd nothing commentsFit
  next e following next =>
    have more : 0 < u.cursor.ahead.length := by
      rw [next] at rest
      exact Nat.lt_of_lt_of_le (Nat.succ_pos _) rest
    split
    · exact fits.here.fetchDirective more commentsFit
    split
    next dash => exact fits.here.fetchDocumentMark (Nat.le_trans (dashed dash) rest) commentsFit _
    split
    next dot => exact fits.here.fetchDocumentMark (Nat.le_trans (dotted dot) rest) commentsFit _
    · exact (fits.here.fetchAt more _ _).bind fun t fetched => fetched.here.passLineComment

theorem Fits.fetch (fits : s.Fits extent) : Leads s.fetch (Fits extent) := by
  refine (fits.needed 1).bind fun (_, t) ⟨fits, _⟩ => ?_
  dsimp only
  split
  · exact .ok (fits.here.push (Token.edge_fits rfl fits.here.line_le)).2
  · exact fits.fetchNext

/-! ### Releasing -/

theorem mem_modify {α : Type} {f : α → α} {i : Nat} {items : List α} {a : α}
    (member : a ∈ items.modify i f) : a ∈ items ∨ ∃ b ∈ items, a = f b := by
  obtain ⟨j, inside, rfl⟩ := List.getElem_of_mem member
  rw [List.getElem_modify]
  split
  · exact .inr ⟨_, List.getElem_mem _, rfl⟩
  · exact .inl (List.getElem_mem _)

theorem token?_mem {number : Nat} {found : Token} (here : s.token? number = some found) :
    found ∈ s.tokens := by
  unfold token? at here
  split at here
  · exact List.mem_of_getElem? here
  · cases here

theorem Fits.releaseNext (fits : s.Fits extent) : s.releaseNext.Fits extent := by
  unfold Scanner.releaseNext
  dsimp only
  split
  · exact ⟨fits.cursor, fits.tokens, fits.level, fits.outer⟩
  split
  · exact ⟨fits.cursor, fits.tokens, fits.level, fits.outer⟩
  next found here =>
    have line := (fits.tokens found (token?_mem here)).start
    refine ⟨fits.cursor, fun t member => ?_, fits.level, fits.outer⟩
    rcases mem_modify member with same | ⟨old, before, rfl⟩
    · exact fits.tokens t same
    · obtain ⟨start, stop, -, inner⟩ := fits.tokens old before
      exact ⟨start, stop, line, inner⟩

theorem filter_fits {l : Level} (fits : l.Fits extent) (keep : PendingKey → Bool) :
    ({ l with key := l.key.filter keep } : Level).Fits extent :=
  fun k member => fits k (Option.filter_eq_some_iff.mp member).1

theorem release_fits (fuel : Nat) (fits : s.Fits extent) : (release fuel s).1.Fits extent := by
  induction fuel generalizing s with
  | zero => exact fits
  | succ fuel ih =>
    unfold release
    split
    · exact fits
    split
    · exact ih fits.releaseNext
    next k _ =>
      split
      · exact fits
      split
      · exact fits
      · have next := fits.releaseNext
        refine ih ⟨next.cursor, next.tokens, filter_fits fits.level _, fun l member => ?_⟩
        obtain ⟨outer, before, rfl⟩ := List.mem_map.mp member
        exact filter_fits (fits.outer outer before) _

theorem taken_fits (fits : s.Fits extent) : ∀ t ∈ s.taken, t.Fits extent :=
  fun t member => fits.tokens t (List.mem_of_mem_drop (List.mem_reverse.mp member))

theorem run_fits (fuel : Nat) (fits : s.Fits extent) : ∀ t ∈ (run fuel s).1, t.Fits extent := by
  induction fuel generalizing s with
  | zero => exact taken_fits fits
  | succ fuel ih =>
    unfold run
    split
    · exact taken_fits fits
    next t fetched =>
      have released := release_fits (t.count - t.released) (fits.fetch t fetched)
      split
      next u _ same =>
        rw [same] at released
        exact taken_fits released
      next u same =>
        rw [same] at released
        split
        · exact taken_fits released
        · exact ih released

end Scanner

theorem TokenStream.ofSource_fits {s : Source} (unmarked : Cursor.orderMark ∉ s.blocks.flatten) :
    ∀ t ∈ (ofSource s).tokens, t.Fits (.ofChars s.blocks.flatten) := by
  have start : Scanner.Fits (.ofChars s.blocks.flatten) { cursor := .start s } :=
    ⟨Cursor.start_fits unmarked, nofun, nofun, nofun⟩
  exact Scanner.run_fits ((Cursor.start s).left + 5) start

end TreeCheck.Yaml
