import TreeCheck.Diagnostic
import TreeCheck.Proofs.Text.Split

/-!
Keys of diagnostics. The parts of a key stand between colons, and only the message at its end may
hold a colon itself, so a key tells code, position and message.
-/

namespace TreeCheck

namespace Text

def colon : UInt8 := 58

theorem append_colon_inj {p q x y : Text} (before : colon ∉ p) (other : colon ∉ q)
    (same : p ++ text ":" ++ x = q ++ text ":" ++ y) : p = q ∧ x = y := by
  have separator : text ":" = [colon] := by decide
  rw [separator, List.append_assoc, List.append_assoc] at same
  have inside {t : Text} (none : colon ∉ t) : ∀ b ∈ t, (b != colon) = true :=
    fun b member => bne_iff_ne.mpr fun found => none (found ▸ member)
  have boundary (t : Text) : ∀ b ∈ ([colon] ++ t).head?, (b != colon) = false := by
    rintro _ ⟨⟩
    decide
  obtain ⟨parts, rests⟩ := append_inj_of_boundary (inside before) (inside other) (boundary x)
    (boundary y) same
  exact ⟨parts, List.append_cancel_left rests⟩

theorem text_injective {s t : String} (same : text s = text t) : s = t := by
  have bytes : s.toByteArray.data = t.toByteArray.data := Array.toList_inj.mp same
  exact String.toByteArray_inj.mp (ByteArray.ext bytes)

theorem ofNat_injective {m n : Nat} (same : ofNat m = ofNat n) : m = n := by
  have digits : Nat.toDigits 10 m = Nat.toDigits 10 n := by
    rw [← Nat.toList_repr, ← Nat.toList_repr, text_injective same]
  rw [← Nat.ofDigitChars_ten_toDigits (n := m), digits, Nat.ofDigitChars_ten_toDigits]

theorem colon_not_mem_digit {c : Char} (digit : c.isDigit) :
    colon ∉ String.utf8EncodeChar c := by
  have small : c.val.toNat ≤ 57 := by
    simp only [Char.isDigit, Bool.and_eq_true, decide_eq_true_eq] at digit
    exact digit.2
  unfold String.utf8EncodeChar
  dsimp only
  rw [if_pos (Nat.le_trans small (by decide)), List.mem_singleton]
  intro same
  have value : 58 = c.val.toNat % 256 := congrArg UInt8.toNat same
  omega

theorem colon_not_mem_ofNat (n : Nat) : colon ∉ ofNat n := by
  have bytes : ofNat n = (Nat.toDigits 10 n).flatMap String.utf8EncodeChar := by
    rw [ofNat, text, Nat.repr_eq_ofList_toDigits]
    simp [List.utf8Encode]
  rw [bytes, List.mem_flatMap]
  rintro ⟨c, member, found⟩
  exact colon_not_mem_digit (Nat.isDigit_of_mem_toDigits (by decide) (by decide) member) found

end Text

open Text

theorem Code.colon_not_mem_id (c : Code) : colon ∉ c.id := by
  have tagged {area : String} (clean : colon ∉ text area) :
      colon ∉ text area ++ Text.ofNat c.number := by
    intro member
    rcases List.mem_append.mp member with found | found
    · exact clean found
    · exact colon_not_mem_ofNat c.number found
  unfold Code.id
  split
  · exact tagged (by decide)
  split
  · exact tagged (by decide)
  split
  · exact tagged (by decide)
  · decide

theorem Span.toText_append_inj {a b : Span} {x y : Text}
    (same : a.toText ++ text ":" ++ x = b.toText ++ text ":" ++ y) : a = b ∧ x = y := by
  simp only [toText, List.append_assoc] at same
  have regroup (s : Span) (z : Text) :
      Text.ofNat s.file ++ (text ":" ++ (Text.ofNat s.line ++ (text ":" ++
        (Text.ofNat s.col ++ (text ":" ++ z))))) =
      Text.ofNat s.file ++ text ":" ++ (Text.ofNat s.line ++ text ":" ++
        (Text.ofNat s.col ++ text ":" ++ z)) := by
    simp only [List.append_assoc]
  rw [regroup, regroup] at same
  obtain ⟨file, same⟩ :=
    append_colon_inj (colon_not_mem_ofNat _) (colon_not_mem_ofNat _) same
  obtain ⟨line, same⟩ :=
    append_colon_inj (colon_not_mem_ofNat _) (colon_not_mem_ofNat _) same
  obtain ⟨col, rest⟩ :=
    append_colon_inj (colon_not_mem_ofNat _) (colon_not_mem_ofNat _) same
  refine ⟨?_, rest⟩
  cases a
  cases b
  simp only [Span.mk.injEq]
  exact ⟨ofNat_injective file, ofNat_injective line, ofNat_injective col⟩

theorem Diagnostic.key_inj {a b : Diagnostic} (same : a.key = b.key) :
    a.code.id = b.code.id ∧ a.primary = b.primary ∧ a.message = b.message := by
  simp only [key, List.append_assoc] at same
  have regroup (d : Diagnostic) :
      d.code.id ++ (text ":" ++ (d.primary.toText ++ (text ":" ++ d.message))) =
        d.code.id ++ text ":" ++ (d.primary.toText ++ text ":" ++ d.message) := by
    simp only [List.append_assoc]
  rw [regroup, regroup] at same
  obtain ⟨ids, rest⟩ := append_colon_inj a.code.colon_not_mem_id b.code.colon_not_mem_id same
  exact ⟨ids, Span.toText_append_inj rest⟩

end TreeCheck
