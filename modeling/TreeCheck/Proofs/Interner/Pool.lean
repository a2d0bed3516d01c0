import Mathlib
import TreeCheck.Interner.Pool
import TreeCheck.Proofs.Interner.Sound

/-!
Pools under any schedule. Whatever turns the clients have in between, the second look under the
lock keeps a text from being added twice: the two tables of a pool stay inverse to each other, and
every call is answered as if an interner of its own had the calls one after the other, in the order
in which they end.
-/

namespace TreeCheck.Pool

def Inverse (p : Pool) : Prop :=
  ∀ t h, p.probe t = some h ↔ p.find? h = some t

/-- The pool begins as every interner does, and its two tables are inverse to each other. -/
structure Sound (p : Pool) : Prop where
  start : Interner.fresh.names <+: p.texts
  inverse : p.Inverse

variable {p q : Pool} {t : Text} {h : Handle}

theorem Sound.nodup (sound : p.Sound) : p.texts.Nodup := by
  rw [List.nodup_iff_getElem?_ne_getElem?]
  intro i j before within same
  have here : p.find? i = some p.texts[i] := List.getElem?_eq_getElem _
  have first := (sound.inverse _ i).mpr here
  have second := (sound.inverse _ j).mpr (same.symm.trans here)
  have equal : i = j := Option.some.inj (first.symm.trans second)
  omega

theorem Sound.interner (sound : p.Sound) : p.interner.Sound :=
  ⟨sound.start, sound.nodup⟩

theorem Sound.lt_size_iff (sound : p.Sound) (h : Handle) :
    h < p.size ↔ ∃! t, p.probe t = some h := by
  constructor
  · intro within
    have here : p.find? h = some p.texts[h] := List.getElem?_eq_getElem within
    refine ⟨_, (sound.inverse _ h).mpr here, fun t probed => ?_⟩
    exact Option.some.inj (((sound.inverse t h).mp probed).symm.trans here)
  · rintro ⟨t, probed, -⟩
    exact (List.getElem?_eq_some_iff.mp ((sound.inverse t h).mp probed)).1

theorem Sound.find?_of_fresh (sound : p.Sound) (found : Interner.fresh.find? h = some t) :
    p.find? h = some t := by
  have here : p.interner.find? h = some t := Interner.find?_of_prefix sound.start found
  exact here

theorem Sound.probe_eq (sound : p.Sound) (t : Text) : p.interner.probe t = p.probe t := by
  cases found : p.probe t with
  | some h =>
    have here : p.interner.find? h = some t := (sound.inverse t h).mp found
    cases searched : p.interner.probe t with
    | some k =>
      obtain ⟨within, there, _⟩ := List.idxOf?_eq_some_iff.mp searched
      exact congrArg some (sound.interner.handle_unique
        (List.getElem?_eq_some_iff.mpr ⟨within, there⟩) here)
    | none =>
      exact absurd (List.mem_of_getElem? here) (List.idxOf?_eq_none_iff.mp searched)
  | none =>
    refine List.idxOf?_eq_none_iff.mpr fun member => ?_
    obtain ⟨k, here⟩ := List.mem_iff_getElem?.mp member
    exact absurd ((sound.inverse t k).mpr here) (by rw [found]; nofun)

/-! ### Turns -/

/-- What a call ends with, and what it leaves behind, if an interner has it for itself. -/
def Call.alone (names : Interner) : Call → Answer × Interner
  | .intern t => (.handle (names.intern t).1, (names.intern t).2)
  | .lookup h => (.found (names.find? h), names)
  | .has h => (.known (names.has h), names)
  | .size => (.count names.size, names)
  | .copy => (.table names.names, names)

theorem Inverse.push (inverse : p.Inverse) (missing : p.probe t = none) :
    Inverse ⟨p.texts ++ [t], (t, p.texts.length) :: p.handles⟩ := by
  intro u h
  have old : p.handles.lookup u = some h ↔ p.texts[h]? = some u := inverse u h
  simp only [probe, find?, List.lookup_cons]
  by_cases same : u = t
  · subst same
    have absent : p.texts[h]? ≠ some u := fun found => by
      rw [(inverse u h).mpr found] at missing
      cases missing
    simp only [beq_self_eq_true, Option.some.injEq]
    constructor
    · rintro rfl
      exact List.getElem?_concat_length
    · intro found
      by_contra other
      grind
  · have other : (u == t) = false := beq_false_of_ne same
    simp only [other, old]
    grind

theorem Inverse.intern? (inverse : p.Inverse) (t : Text) :
    ((p.intern? t).elim p Prod.snd).Inverse := by
  cases found : p.probe t with
  | some h => simpa [Pool.intern?, found] using inverse
  | none =>
    by_cases room : p.texts.length < capacity
    · simpa [Pool.intern?, Pool.add?, found, room] using inverse.push found
    · simpa [Pool.intern?, Pool.add?, found, room] using inverse

theorem blank_inverse : blank.Inverse := by
  intro t h
  cases t <;> cases h <;> simp [blank, probe, find?, List.lookup, Handle.none]

theorem fresh_names : fresh.interner = .fresh :=
  rfl

theorem find?_wellKnown {i : Nat} {word : String} (found : wellKnown[i]? = some word) :
    Interner.fresh.find? (i + 1) = some (text word) := by
  rw [Interner.find?, Interner.fresh, List.getElem?_cons_succ, List.getElem?_map, found]
  rfl

theorem fresh_sound : fresh.Sound := by
  refine ⟨List.prefix_refl _, ?_⟩
  unfold fresh
  generalize wellKnown.map text = names
  have all (p : Pool) (inverse : p.Inverse) :
      (names.foldl (fun p t => (p.intern? t).elim p Prod.snd) p).Inverse := by
    induction names generalizing p with
    | nil => exact inverse
    | cons t rest ih => exact ih _ (inverse.intern? t)
  exact all blank blank_inverse

theorem Sound.add? (sound : p.Sound) (t : Text) :
    (p.add? t = none ∧ capacity ≤ p.size ∧ p.interner.probe t = none) ∨
      ∃ q, p.add? t = some ((p.interner.intern t).1, q) ∧
        q.interner = (p.interner.intern t).2 ∧ q.Sound := by
  unfold Pool.add? Interner.intern
  rw [sound.probe_eq]
  cases found : p.probe t with
  | some h => exact .inr ⟨p, rfl, rfl, sound⟩
  | none =>
    dsimp only
    split
    next room =>
      exact .inr ⟨_, rfl, rfl, sound.start.trans (List.prefix_append _ _),
        sound.inverse.push found⟩
    next room => exact .inl ⟨rfl, Nat.not_lt.mp room, rfl⟩

/-- The call would have to add a text, and every handle is in use. -/
def Call.Refused (names : Interner) (call : Call) : Prop :=
  capacity ≤ names.size ∧ ∃ t, call = .intern t ∧ names.probe t = none

theorem Sound.turn (sound : p.Sound) (call : Call) (missed : Bool) :
    (p.turn call missed = (none, p)) ∨
      (p.turn call missed = (some .full, p) ∧ call.Refused p.interner) ∨
      ∃ q, p.turn call missed = (some (call.alone p.interner).1, q) ∧
        q.interner = (call.alone p.interner).2 ∧ q.Sound := by
  cases call with
  | intern t =>
    cases missed with
    | true =>
      rcases sound.add? t with ⟨refused, full, missing⟩ | ⟨q, added, same, kept⟩
      · exact .inr (.inl ⟨by simp [Pool.turn, refused, Answer.ofAdded], full, t, rfl, missing⟩)
      · exact .inr (.inr ⟨q, by simp [Pool.turn, added, Answer.ofAdded, Call.alone], same, kept⟩)
    | false =>
      cases found : p.probe t with
      | none => exact .inl (by simp [Pool.turn, found])
      | some h =>
        have known : p.interner.intern t = (h, p.interner) := by
          rw [Interner.intern, sound.probe_eq, found]
        exact .inr (.inr ⟨p, by simp [Pool.turn, found, Call.alone, known],
          by simp [Call.alone, known], sound⟩)
  | lookup h => exact .inr (.inr ⟨p, rfl, rfl, sound⟩)
  | has h => exact .inr (.inr ⟨p, rfl, rfl, sound⟩)
  | size => exact .inr (.inr ⟨p, rfl, rfl, sound⟩)
  | copy => exact .inr (.inr ⟨p, rfl, rfl, sound⟩)

/-! ### Runs -/

/-- The interner that had the ended calls, newest first, one after the other. A call for which there
was no handle left has done nothing. -/
def inTurn : List Reply → Interner
  | [] => .fresh
  | r :: older => if r.answer = .full then inTurn older else (r.call.alone (inTurn older)).2

/-- The calls, newest first, ended as if an interner had had them one after the other, but for those
that would have added a text when every handle was in use. -/
def AsInTurn : List Reply → Prop
  | [] => True
  | r :: older =>
    (r.answer = .full ∧ r.call.Refused (inTurn older) ∨
      r.answer = (r.call.alone (inTurn older)).1) ∧ AsInTurn older

/-- The state is sound, and its calls ended as if they had been made one after the other. -/
structure Sharing.Sound (s : Sharing) : Prop where
  pool : s.pool.Sound
  interner_eq : s.pool.interner = inTurn s.replies
  replies : AsInTurn s.replies

theorem alone_ne_full (call : Call) (names : Interner) : (call.alone names).1 ≠ .full := by
  cases call <;> nofun

theorem Sharing.Sound.step {s : Sharing} (sound : s.Sound) (client : Nat) :
    (s.step client).Sound ∧ s.replies <:+ (s.step client).replies := by
  unfold Sharing.step
  split
  next call rest missed found =>
    rcases sound.pool.turn call missed with same | ⟨same, full⟩ | ⟨q, same, after, kept⟩
    · rw [same]
      exact ⟨⟨sound.pool, sound.interner_eq, sound.replies⟩, List.suffix_refl _⟩
    · rw [same]
      rw [sound.interner_eq] at full
      exact ⟨⟨sound.pool, sound.interner_eq, .inl ⟨rfl, full⟩, sound.replies⟩,
        List.suffix_cons _ _⟩
    · rw [same]
      have answered : ¬(call.alone s.pool.interner).1 = .full := alone_ne_full _ _
      refine ⟨⟨kept, ?_, .inr ?_, sound.replies⟩, List.suffix_cons _ _⟩
      · rw [inTurn, if_neg answered, ← sound.interner_eq]
        exact after
      · rw [← sound.interner_eq]
  next => exact ⟨sound, List.suffix_refl _⟩

theorem Sharing.Sound.run {s : Sharing} (sound : s.Sound) (schedule : List Nat) :
    (s.run schedule).Sound ∧ s.replies <:+ (s.run schedule).replies := by
  induction schedule generalizing s with
  | nil => exact ⟨sound, List.suffix_refl _⟩
  | cons client rest ih =>
    obtain ⟨next, kept⟩ := sound.step client
    obtain ⟨last, later⟩ := ih next
    exact ⟨last, kept.trans later⟩

theorem Sharing.start_sound (calls : List (List Call)) : (start calls).Sound :=
  ⟨fresh_sound, fresh_names, trivial⟩

/-! ### What the answers say -/

section Answers

variable {replies newer older : List Reply} {r : Reply}

theorem alone_extends (call : Call) (names : Interner) :
    names.names <+: (call.alone names).2.names := by
  cases call with
  | intern t => exact Interner.intern_extends names t
  | _ => exact List.prefix_refl _

theorem inTurn_extends (newer older : List Reply) :
    (inTurn older).names <+: (inTurn (newer ++ older)).names := by
  induction newer with
  | nil => exact List.prefix_refl _
  | cons r rest ih =>
    rw [List.cons_append, inTurn]
    split
    · exact ih
    · exact ih.trans (alone_extends _ _)

/-- An ended call was refused, or answered by an interner that had grown from the one before and has
grown since. -/
theorem AsInTurn.answered (replies : AsInTurn (newer ++ older)) (member : r ∈ newer) :
    (∃ t, r.call = .intern t ∧ r.answer = .full) ∨
      ∃ names : Interner, r.answer = (r.call.alone names).1 ∧
        (inTurn older).names <+: names.names ∧
        (r.call.alone names).2.names <+: (inTurn (newer ++ older)).names := by
  induction newer with
  | nil => exact absurd member List.not_mem_nil
  | cons q rest ih =>
    obtain ⟨answer, before⟩ := replies
    rcases List.mem_cons.mp member with rfl | among
    · rcases answer with ⟨full, -, t, asked, -⟩ | answered
      · exact .inl ⟨t, asked, full⟩
      · have given : r.answer ≠ .full := answered ▸ alone_ne_full _ _
        refine .inr ⟨_, answered, inTurn_extends rest older, ?_⟩
        rw [List.cons_append, inTurn, if_neg given]
        exact List.prefix_refl _
    · rcases ih before among with refused | ⟨names, answered, low, high⟩
      · exact .inl refused
      · exact .inr ⟨names, answered, low, high.trans (inTurn_extends [q] (rest ++ older))⟩

theorem AsInTurn.find? (replies : AsInTurn older) {t : Text} {h : Handle} (member : r ∈ older)
    (asked : r.call = .intern t) (given : r.answer = .handle h) :
    (inTurn older).find? h = some t := by
  have all : AsInTurn (older ++ []) := by rwa [List.append_nil]
  rcases all.answered member with ⟨-, -, full⟩ | ⟨names, answered, -, grown⟩
  · rw [given] at full
    cases full
  · rw [given, asked] at answered
    rw [asked, List.append_nil] at grown
    cases answered
    exact Interner.find?_of_prefix grown (Interner.find?_intern names t)

theorem AsInTurn.looked (replies : AsInTurn (newer ++ older)) {t : Text} {h : Handle}
    (found : (inTurn older).find? h = some t) (member : r ∈ newer) (asked : r.call = .lookup h) :
    r.answer = .found (some t) := by
  rcases replies.answered member with ⟨t, other, -⟩ | ⟨names, answered, low, -⟩
  · cases asked.symm.trans other
  · rw [answered, asked, Call.alone, Interner.find?_of_prefix low found]

end Answers

namespace Sharing.Sound

variable {s : Sharing} (sound : s.Sound)

include sound

theorem find? {r : Reply} {t : Text} {h : Handle} (member : r ∈ s.replies)
    (asked : r.call = .intern t) (given : r.answer = .handle h) : s.pool.find? h = some t := by
  have here := sound.replies.find? member asked given
  rwa [← sound.interner_eq] at here

theorem handle_eq_iff {r q : Reply} {t u : Text} {h k : Handle} (first : r ∈ s.replies)
    (second : q ∈ s.replies) (asked : r.call = .intern t) (given : r.answer = .handle h)
    (asked' : q.call = .intern u) (given' : q.answer = .handle k) : h = k ↔ t = u := by
  have here := sound.find? first asked given
  have there := sound.find? second asked' given'
  constructor
  · rintro rfl
    exact Option.some.inj (here.symm.trans there)
  · rintro rfl
    exact sound.pool.interner.handle_unique here there

end Sharing.Sound

/-- However many clients share an interner, whatever they ask for and in whatever order they have
their turns under the lock: the two tables stay inverse to each other, so no text has two handles
and every handle below the size has one text; the empty text and the well-known names keep their
handles; texts are only added at the end; internings that have ended were given equal handles for
equal texts only; and a handle that was given out for a text has it ever after, in the table and in
the answers of later look-ups. In all, the calls are answered as by an interner that has them one
after the other, in the order in which they end. -/
theorem clients_agree_on_handles (calls : List (List Call)) (schedule more : List Nat) :
    let now := (Sharing.start calls).run schedule
    let later := now.run more
    now.pool.Inverse ∧ now.pool.texts.Nodup ∧
    (∀ h, h < now.pool.size ↔ ∃! t, now.pool.probe t = some h) ∧
    now.pool.find? .none = some [] ∧
    (∀ i word, wellKnown[i]? = some word → now.pool.find? (i + 1) = some (text word)) ∧
    now.pool.texts <+: later.pool.texts ∧
    (∀ r ∈ now.replies, ∀ q ∈ now.replies, ∀ t u h k,
      r.call = .intern t → r.answer = .handle h → q.call = .intern u → q.answer = .handle k →
        (h = k ↔ t = u)) ∧
    (∃ newer, later.replies = newer ++ now.replies ∧
      ∀ r ∈ now.replies, ∀ t h, r.call = .intern t → r.answer = .handle h →
        later.pool.find? h = some t ∧
        ∀ q ∈ newer, q.call = .lookup h → q.answer = .found (some t)) ∧
    AsInTurn now.replies ∧ now.pool.interner = inTurn now.replies := by
  intro now later
  obtain ⟨sound, -⟩ := (Sharing.start_sound calls).run schedule
  obtain ⟨last, newer, grown⟩ := sound.run more
  have grows := inTurn_extends newer now.replies
  refine ⟨sound.pool.inverse, sound.pool.nodup, sound.pool.lt_size_iff, ?_, ?_, ?_, ?_,
    ⟨newer, grown.symm, ?_⟩, sound.replies, sound.interner_eq⟩
  · exact sound.pool.find?_of_fresh rfl
  · intro i word found
    exact sound.pool.find?_of_fresh (find?_wellKnown found)
  · rwa [grown, ← last.interner_eq, ← sound.interner_eq] at grows
  · intro r first q second t u h k asked given asked' given'
    exact sound.handle_eq_iff first second asked given asked' given'
  · intro r member t h asked given
    have here := sound.replies.find? member asked given
    refine ⟨?_, fun q among look => ?_⟩
    · have after := Interner.find?_of_prefix grows here
      rwa [grown, ← last.interner_eq] at after
    · have replies : AsInTurn (newer ++ now.replies) := grown ▸ last.replies
      exact replies.looked here among look

/-- Two clients look for the same text before either of them adds it; the second one to add it finds
it there. -/
example :
    ((Sharing.start [[.intern (text "x")], [.intern (text "x"), .lookup 14]]).run
      [0, 1, 1, 0, 1]).replies.map (·.answer) =
      [.found (some (text "x")), .handle 14, .handle 14] := by
  decide

end TreeCheck.Pool
