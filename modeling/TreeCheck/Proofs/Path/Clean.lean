import TreeCheck.Path
import TreeCheck.Proofs.Text.Split

/-!
Cleaned paths. The components that cleaning keeps are names, behind parent steps if the path is a
relative one; such components are kept when they are cleaned again, so a cleaned path is clean.
-/

namespace TreeCheck.Path

/-- The component is neither empty nor a dot nor a parent step, and has no slash in it. -/
structure IsName (c : Text) : Prop where
  ne_nil : c ≠ []
  ne_dot : c ≠ [dot]
  ne_parent : c ≠ [dot, dot]
  no_slash : slash ∉ c

/-- Components, the last one first, as cleaning keeps them: names, and at the start of a relative
path parent steps. -/
inductive Reduced (rooted : Bool) : List Text → Prop
  | nil : Reduced rooted []
  | parent {kept : List Text} : rooted = false → (∀ last ∈ kept.head?, last = [dot, dot]) →
      Reduced rooted kept → Reduced rooted ([dot, dot] :: kept)
  | name {c : Text} {kept : List Text} : IsName c → Reduced rooted kept → Reduced rooted (c :: kept)

variable {rooted : Bool} {kept : List Text}

theorem Reduced.tail {c : Text} (reduced : Reduced rooted (c :: kept)) : Reduced rooted kept := by
  cases reduced with
  | parent _ _ before => exact before
  | name _ before => exact before

theorem Reduced.component (reduced : Reduced rooted kept) {c : Text} (member : c ∈ kept) :
    c ≠ [] ∧ slash ∉ c := by
  induction reduced with
  | nil => exact absurd member List.not_mem_nil
  | parent _ _ _ ih =>
    rcases List.mem_cons.mp member with rfl | before
    · exact ⟨List.cons_ne_nil _ _, by decide⟩
    · exact ih before
  | name isName _ ih =>
    rcases List.mem_cons.mp member with rfl | before
    · exact ⟨isName.ne_nil, isName.no_slash⟩
    · exact ih before

/-! ### Reducing components -/

theorem reduce_reduced {cs : List Text} (split : ∀ c ∈ cs, slash ∉ c)
    (reduced : Reduced rooted kept) : Reduced rooted (reduce rooted cs kept) := by
  fun_induction reduce rooted cs kept with
  | case1 kept => exact reduced
  | case2 kept c rest gap ih => exact ih (fun c member => split c (.tail _ member)) reduced
  | case3 rest _ ih =>
    refine ih (fun c member => split c (.tail _ member)) ?_
    cases rooted with
    | true => exact .nil
    | false => exact .parent rfl (by simp) .nil
  | case4 rest others _ ih =>
    refine ih (fun c member => split c (.tail _ member)) ?_
    cases reduced with
    | parent relative last before => exact .parent relative (by simp) (.parent relative last before)
    | name isName _ => exact absurd rfl isName.ne_parent
  | case5 rest last others _ _ ih =>
    exact ih (fun c member => split c (.tail _ member)) reduced.tail
  | case6 c rest kept solid step ih =>
    refine ih (fun c member => split c (.tail _ member)) (.name ?_ reduced)
    exact ⟨fun empty => solid (.inl empty), fun single => solid (.inr single), step,
      split c List.mem_cons_self⟩

theorem reduce_name {c : Text} (isName : IsName c) (rest : List Text) :
    reduce rooted (c :: rest) kept = reduce rooted rest (c :: kept) := by
  rw [reduce.eq_def]
  dsimp only
  rw [if_neg fun gap => gap.elim isName.ne_nil isName.ne_dot, if_neg isName.ne_parent]

theorem reduce_parent (relative : rooted = false) (last : ∀ c ∈ kept.head?, c = [dot, dot])
    (rest : List Text) :
    reduce rooted ([dot, dot] :: rest) kept = reduce rooted rest ([dot, dot] :: kept) := by
  rw [reduce.eq_def]
  dsimp only
  rw [if_neg (by decide), if_pos rfl]
  cases kept with
  | nil => rw [relative, if_neg Bool.false_ne_true]
  | cons c others =>
    rw [last c rfl]
    exact if_pos rfl

theorem reduce_reverse (reduced : Reduced rooted kept) (rest : List Text) :
    reduce rooted (kept.reverse ++ rest) [] = reduce rooted rest kept := by
  induction reduced generalizing rest with
  | nil => rfl
  | parent relative last _ ih =>
    rw [List.reverse_cons, List.append_assoc, List.singleton_append, ih,
      reduce_parent relative last]
  | name isName _ ih =>
    rw [List.reverse_cons, List.append_assoc, List.singleton_append, ih, reduce_name isName]

/-! ### Writing components -/

def written (rooted : Bool) (kept : List Text) : Text :=
  let body := Text.join [slash] kept.reverse
  if rooted then slash :: body else if body.isEmpty then [dot] else body

theorem clean_eq (p : Text) :
    clean p = written (isAbsolute p) (reduce (isAbsolute p) (Text.splitOn slash p) []) :=
  rfl

theorem reduce_join (reduced : Reduced rooted kept) :
    reduce rooted (Text.splitOn slash (Text.join [slash] kept.reverse)) [] = kept := by
  by_cases some : kept.reverse = []
  · rw [some, List.reverse_eq_nil_iff.mp some]
    rfl
  · have split := Text.splitOn_join some fun c member =>
      (reduced.component (List.mem_reverse.mp member)).2
    have again := reduce_reverse reduced []
    rw [List.append_nil] at again
    rw [split, again]
    rfl

theorem join_head (reduced : Reduced rooted kept) (some : kept ≠ []) : ∃ b rest,
    Text.join [slash] kept.reverse = b :: rest ∧ b ≠ slash := by
  have reversed : kept.reverse ≠ [] := fun none => some (List.reverse_eq_nil_iff.mp none)
  obtain ⟨c, cs, parts⟩ := List.exists_cons_of_ne_nil reversed
  have member : c ∈ kept := by
    rw [← List.mem_reverse, parts]
    exact List.mem_cons_self
  obtain ⟨solid, apart⟩ := reduced.component member
  obtain ⟨b, bs, rfl⟩ := List.exists_cons_of_ne_nil solid
  have first : b ≠ slash := fun same => apart (same ▸ List.mem_cons_self)
  rw [parts]
  cases cs with
  | nil => exact ⟨b, bs, rfl, first⟩
  | cons next cs => exact ⟨b, _, rfl, first⟩

theorem clean_written (reduced : Reduced rooted kept) :
    clean (written rooted kept) = written rooted kept := by
  cases rooted with
  | true =>
    have body : written true kept = slash :: Text.join [slash] kept.reverse := rfl
    have absolute : isAbsolute (slash :: Text.join [slash] kept.reverse) = true := rfl
    rw [body, clean_eq, absolute, Text.splitOn_sep, reduce, if_pos (.inl rfl),
      reduce_join reduced, body]
  | false =>
    by_cases some : kept = []
    · subst some
      decide
    · obtain ⟨b, rest, joined, first⟩ := join_head reduced some
      have body : written false kept = Text.join [slash] kept.reverse := by
        rw [written, joined]
        rfl
      have relative : isAbsolute (Text.join [slash] kept.reverse) = false := by
        rw [joined, isAbsolute, List.head?_cons]
        simpa using first
      rw [body, clean_eq, relative, reduce_join reduced, body]

theorem clean_clean (p : Text) : clean (clean p) = clean p := by
  rw [clean_eq p]
  exact clean_written (reduce_reduced (fun c => Text.not_mem_of_mem_splitOn) .nil)

end TreeCheck.Path
