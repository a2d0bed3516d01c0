import TreeCheck.Text.Normal

/-!
Normal forms keep something of every text: a text that is not empty has a normal form that is not
empty. Whatever a character brings ends up in the segment under way, and a segment that is not
empty is composed to something.
-/

namespace TreeCheck.Text

namespace Normal

theorem decomposeBy_ne_nil (step : Nat → Option (Nat × Nat)) (depth n : Nat) :
    decomposeBy step depth n ≠ [] := by
  induction depth generalizing n with
  | zero => simp [decomposeBy]
  | succ depth ih =>
    unfold decomposeBy
    split
    · simp
    split
    · unfold hangulParts
      dsimp only
      split <;> simp
    split
    · simp
    · exact ih _
    · simp [ih]

theorem insertMark_ne_nil (mark : Classed) (segment : List Classed) :
    insertMark mark segment ≠ [] := by
  cases segment with
  | nil => simp [insertMark]
  | cons other rest =>
    unfold insertMark
    split <;> simp

theorem composeSegment_ne_nil {segment : List Classed} (given : segment ≠ []) :
    composeSegment segment ≠ [] := by
  cases segment with
  | nil => exact absurd rfl given
  | cons c rest => simp [composeSegment, Partial.points]

theorem addParts_segment (s : State) {parts : List Nat} (given : parts ≠ []) :
    (parts.foldl State.addPart s).segment ≠ [] := by
  rw [← List.dropLast_concat_getLast given, List.foldl_append]
  exact insertMark_ne_nil _ _

theorem addChar_segment (s : State) (n : Nat) : (s.addChar n).segment ≠ [] := by
  unfold State.addChar
  dsimp only
  have given : decompose n ≠ [] := decomposeBy_ne_nil _ 4 n
  generalize decompose n = parts at given
  split
  · exact insertMark_ne_nil _ _
  · exact addParts_segment _ given

theorem compose_ne_nil {points : List Nat} (given : points ≠ []) : compose points ≠ [] := by
  unfold compose
  rw [← List.dropLast_concat_getLast given, List.foldl_append]
  have segment := addChar_segment (points.dropLast.foldl State.addChar ⟨[], [], 0⟩)
    (points.getLast given)
  have composed := composeSegment_ne_nil (mt List.reverse_eq_nil_iff.mp segment)
  simp [State.flush, composed]

end Normal

theorem chars_ne_nil {t : Text} (given : t ≠ []) : chars t ≠ [] := by
  cases t with
  | nil => exact absurd rfl given
  | cons b rest =>
    unfold chars pieces piecesFrom
    split <;> simp

theorem ofChars_ne_nil {cs : List Char} (given : cs ≠ []) : ofChars cs ≠ [] := by
  cases cs with
  | nil => exact absurd rfl given
  | cons c rest => simp [ofChars, ofChar, String.utf8EncodeChar_ne_nil]

theorem normal_ne_nil {t : Text} (given : t ≠ []) : normal t ≠ [] := by
  unfold normal
  split
  · exact given
  · apply ofChars_ne_nil
    apply mt List.map_eq_nil_iff.mp
    apply Normal.compose_ne_nil
    exact mt List.map_eq_nil_iff.mp (chars_ne_nil given)

end TreeCheck.Text
