import Mathlib.Data.List.Nodup
import TreeCheck.Interner

/-!
Interners as tables of texts. An interner that came about by interning alone begins with the names
that every interner begins with and has no text twice; so texts and handles determine each other,
whatever was interned before.
-/

namespace TreeCheck.Interner

/-- The interner that came about by interning some texts, one after the other. -/
def after (texts : List Text) : Interner :=
  texts.foldl (fun names t => (names.intern t).2) fresh

/-- The interner begins as every interner does, and has no text twice. -/
structure Sound (names : Interner) : Prop where
  start : fresh.names <+: names.names
  nodup : names.names.Nodup

variable {names more : Interner} {t : Text}

theorem fresh_sound : Sound fresh :=
  ⟨List.prefix_refl _, by decide⟩

theorem intern_extends (names : Interner) (t : Text) :
    names.names <+: (names.intern t).2.names := by
  unfold intern
  split
  · exact List.prefix_refl _
  · exact List.prefix_append _ _

theorem Sound.intern (sound : Sound names) (t : Text) : Sound (names.intern t).2 := by
  refine ⟨sound.start.trans (intern_extends names t), ?_⟩
  unfold Interner.intern
  split
  next => exact sound.nodup
  next unknown =>
    have missing : t ∉ names.names := List.idxOf?_eq_none_iff.mp unknown
    exact List.nodup_append.mpr ⟨sound.nodup, List.nodup_singleton t, by
      rintro a member _ (_ | ⟨_, ⟨⟩⟩) rfl
      exact missing member⟩

theorem after_sound (texts : List Text) : Sound (after texts) := by
  have from_sound (names : Interner) (sound : Sound names) :
      Sound (texts.foldl (fun names t => (names.intern t).2) names) := by
    induction texts generalizing names with
    | nil => exact sound
    | cons t rest ih => exact ih _ (sound.intern t)
  exact from_sound fresh fresh_sound

theorem find?_intern (names : Interner) (t : Text) :
    (names.intern t).2.find? (names.intern t).1 = some t := by
  unfold intern find?
  split
  next h known =>
    obtain ⟨within, found, _⟩ := List.idxOf?_eq_some_iff.mp known
    exact List.getElem?_eq_some_iff.mpr ⟨within, found⟩
  next => exact List.getElem?_concat_length

theorem find?_of_prefix (grown : names.names <+: more.names) {h : Handle}
    (found : names.find? h = some t) : more.find? h = some t := by
  obtain ⟨rest, same⟩ := grown
  rw [find?, ← same, List.getElem?_append_left (List.getElem?_eq_some_iff.mp found).1]
  exact found

theorem Sound.handle_unique (sound : Sound names) {h k : Handle} (first : names.find? h = some t)
    (second : names.find? k = some t) : h = k := by
  obtain ⟨within, here⟩ := List.getElem?_eq_some_iff.mp first
  obtain ⟨within', there⟩ := List.getElem?_eq_some_iff.mp second
  exact (sound.nodup.getElem_inj_iff).mp (here.trans there.symm)

theorem Sound.intern_of_find? (sound : names.Sound) {h : Handle} (found : names.find? h = some t) :
    names.intern t = (h, names) := by
  unfold Interner.intern
  cases probed : names.probe t with
  | none => exact absurd (List.mem_of_getElem? found) (List.idxOf?_eq_none_iff.mp probed)
  | some k =>
    obtain ⟨within, here, _⟩ := List.idxOf?_eq_some_iff.mp probed
    have same := sound.handle_unique (List.getElem?_eq_some_iff.mpr ⟨within, here⟩) found
    exact congrArg (·, names) same

end TreeCheck.Interner
