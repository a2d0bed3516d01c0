import Mathlib
import TreeCheck.Yaml.Source

/-!
The line feeds of a document. Every line feed among the characters of a document is written by a
byte of its own that is a line feed, in all three encodings; so a document has no more of them than
its text.
-/

namespace TreeCheck

def feed : UInt8 := 0x0A

theorem eq_of_ofNat_feed {n : Nat} (same : Char.ofNat n = '\n') : n = 10 := by
  unfold Char.ofNat at same
  split at same
  · exact congrArg Char.toNat same
  · exact absurd same (by decide)

/-- In UTF-8 the only character that is a line feed is the byte alone. -/
theorem Text.charAt?_feed {b : UInt8} {rest : Text} {more : Nat}
    (found : charAt? b rest = some ('\n', more)) : b = feed := by
  have code {n size : Nat} (same : some (Char.ofNat n, size) = some ('\n', more)) : n = 10 :=
    eq_of_ofNat_feed (congrArg Prod.fst (Option.some.inj same))
  unfold charAt? at found
  split at found
  · exact UInt8.toNat_inj.mp (code found)
  split at found
  · cases found
  next noTail =>
  have high : 194 ≤ b.toNat := UInt8.le_iff_toNat_le.mp (UInt8.not_lt.mp noTail)
  -- Longer characters have codes above all single bytes.
  split at found
  · split at found
    · obtain ⟨t, _, same⟩ := Option.bind_eq_some_iff.mp found
      have low := code same
      omega
    · cases found
  split at found
  · split at found
    · obtain ⟨t, _, found⟩ := Option.bind_eq_some_iff.mp found
      obtain ⟨u, _, found⟩ := Option.bind_eq_some_iff.mp found
      dsimp only at found
      split at found
      · cases found
      next valid =>
        have low := code found
        simp [low] at valid
    · cases found
  split at found
  · split at found
    · obtain ⟨t, _, found⟩ := Option.bind_eq_some_iff.mp found
      obtain ⟨u, _, found⟩ := Option.bind_eq_some_iff.mp found
      obtain ⟨v, _, found⟩ := Option.bind_eq_some_iff.mp found
      dsimp only at found
      split at found
      · cases found
      next valid =>
        have low := code found
        simp [low] at valid
    · cases found
  · cases found

namespace Yaml

theorem frontUtf8_feed {t : Text} {size : Nat} {c : Char} (found : frontUtf8 t = .char size c) :
    0 < size ∧ (c = '\n' → feed ∈ t.take size) := by
  unfold frontUtf8 at found
  split at found
  · cases found
  split at found
  · cases found
  split at found
  · cases found
  split at found
  next b rest _ _ d more here =>
    cases found
    refine ⟨Nat.succ_pos _, ?_⟩
    rintro rfl
    rw [Text.charAt?_feed here]
    exact List.mem_cons_self
  · cases found

theorem word16_feed {bigEnd : Bool} {a b : UInt8} (same : word16 bigEnd a b = 10) :
    feed ∈ [a, b] := by
  have two := UInt8.toNat_lt a
  have one := UInt8.toNat_lt b
  unfold word16 at same
  split at same
  · have low : b.toNat = feed.toNat := by
      have ten : feed.toNat = 10 := rfl
      omega
    exact UInt8.toNat_inj.mp low ▸ List.mem_cons_of_mem _ List.mem_cons_self
  · have low : a.toNat = feed.toNat := by
      have ten : feed.toNat = 10 := rfl
      omega
    exact UInt8.toNat_inj.mp low ▸ List.mem_cons_self

theorem frontUtf16_feed {bigEnd : Bool} {t : Text} {size : Nat} {c : Char}
    (found : frontUtf16 bigEnd t = .char size c) : 0 < size ∧ (c = '\n' → feed ∈ t.take size) := by
  unfold frontUtf16 at found
  split at found
  · dsimp only at found
    split at found
    · cases found
    split at found
    · cases found
      exact ⟨Nat.two_pos, fun same => word16_feed (eq_of_ofNat_feed same)⟩
    split at found
    · split at found
      · cases found
        refine ⟨Nat.succ_pos _, fun same => ?_⟩
        -- A pair writes a code behind all single values.
        have low := eq_of_ofNat_feed same
        omega
      · cases found
    · cases found
  · cases found

/-- A character that is left after the unreadable ones were refused was there before. -/
theorem front_of_readable {f : Front} {size : Nat} {c : Char} (found : (match f with
    | .char size c => if isReadable c then .char size c else .bad
    | other => other) = Front.char size c) : f = .char size c := by
  cases f with
  | char s d =>
    dsimp only at found
    split at found
    · exact found
    · cases found
  | cut => cases found
  | bad => cases found

theorem Encoding.front_feed {e : Encoding} {t : Text} {size : Nat} {c : Char}
    (found : e.front t = .char size c) : 0 < size ∧ (c = '\n' → feed ∈ t.take size) := by
  cases e with
  | utf8 => exact frontUtf8_feed (front_of_readable found)
  | utf16 bigEnd => exact frontUtf16_feed (front_of_readable found)

theorem count_feed_le {e : Encoding} {b : UInt8} {rest : Text} {size reach : Nat} {c : Char}
    (found : e.front ((b :: rest).take reach) = .char size c) :
    [c].count '\n' + (rest.drop (size - 1)).count feed ≤ (b :: rest).count feed := by
  obtain ⟨more, here⟩ := Encoding.front_feed found
  have parts := congrArg (List.count feed) (List.take_append_drop size (b :: rest))
  obtain ⟨size, rfl⟩ := Nat.exists_eq_succ_of_ne_zero (Nat.pos_iff_ne_zero.mp more)
  rw [List.count_append, List.drop_succ_cons] at parts
  rw [← parts]
  refine Nat.add_le_add_right ?_ _
  by_cases same : c = '\n'
  · have inside := here same
    rw [List.take_take] at inside
    have written : feed ∈ (b :: rest).take size.succ :=
      List.take_subset_take_left _ (Nat.min_le_left _ _) inside
    rw [same, List.count_singleton_self]
    exact List.count_pos_iff.mpr written
  · rw [List.count_eq_zero.mpr (by simpa using Ne.symm same)]
    exact Nat.zero_le _

theorem blocksFrom_feeds (e : Encoding) (skip room : Nat) (current : List Char) (t : Text) :
    (blocksFrom e skip room current t).1.flatten.count '\n' ≤
      current.count '\n' + (t.drop skip).count feed := by
  fun_induction blocksFrom e skip room current t with
  | case1 skip room current => simp
  | case2 skip room current b rest ih => exact ih
  | case3 room current b rest size c found ih =>
    have here := count_feed_le found
    have one : (c :: current).count '\n' = [c].count '\n' + current.count '\n' := by
      rw [← List.count_append, List.singleton_append]
    rw [List.drop_zero]
    omega
  | case4 => exact Nat.zero_le _
  | case5 room current b rest found short => simp
  | case6 room current b rest cut long size c found more broken same ih =>
    have here := count_feed_le found
    rw [same] at ih
    simp only [List.flatten_cons, List.count_append, List.count_reverse, List.drop_zero]
    simp only at ih
    omega
  | case7 room current b rest cut long other => simp

theorem Source.read_feeds (t : Text) :
    (Source.read t).blocks.flatten.count '\n' ≤ t.count feed := by
  have tail (e : Encoding) (size : Nat) {rest : Text} (behind : rest <:+ t) :
      (blocksFrom e 0 (blockSize - size) [] rest).1.flatten.count '\n' ≤ t.count feed := by
    have feeds := blocksFrom_feeds e 0 (blockSize - size) [] rest
    rw [List.count_nil, Nat.zero_add, List.drop_zero] at feeds
    exact Nat.le_trans feeds (behind.sublist.count_le _)
  unfold Source.read
  dsimp only
  split
  · exact tail _ _ ((List.suffix_cons _ _).trans (List.suffix_cons _ _))
  · exact tail _ _ ((List.suffix_cons _ _).trans (List.suffix_cons _ _))
  · refine tail _ _ (.trans ?_ (List.suffix_cons _ _))
    exact (List.suffix_cons _ _).trans (List.suffix_cons _ _)
  · exact tail _ _ List.suffix_rfl

end Yaml

end TreeCheck
