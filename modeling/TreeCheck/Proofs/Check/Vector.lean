import TreeCheck.Proofs.Check.History
import TreeCheck.Proofs.Check.Rules
import TreeCheck.Proofs.Ty.Normal

/-!
When a vector literal is reported. A vector compares the type of each element with that of the first
alone, and an unresolved type fits every other. Being equal is an equivalence, so where the first
type is known this finds any two known types that differ, in whatever order they stand; where it is
not, the vector passes whatever comes after.
-/

namespace TreeCheck

namespace Ty

def Conflicting (types : List Ty) : Prop :=
  ∃ a ∈ types, ∃ b ∈ types, a.isResolved ∧ b.isResolved ∧ equal a b = false

def StartsKnown (types : List Ty) : Prop :=
  ∃ first ∈ types.head?, first.isResolved

theorem Conflicting.of_perm {types others : List Ty} (perm : others.Perm types)
    (conflicting : Conflicting others) : Conflicting types := by
  obtain ⟨a, first, b, second, differ⟩ := conflicting
  exact ⟨a, perm.mem_iff.mp first, b, perm.mem_iff.mp second, differ⟩

theorem compatible_eq_false_iff {want got : Ty} :
    compatible want got = false ↔ want.isResolved ∧ got.isResolved ∧ equal want got = false := by
  simp [compatible, and_assoc]

theorem conflicting_cons_iff {first : Ty} {rest : List Ty} :
    first.isResolved ∧ Conflicting (first :: rest) ↔ ∃ ty ∈ rest, compatible first ty = false := by
  constructor
  · rintro ⟨known, a, aMem, b, bMem, aKnown, bKnown, differ⟩
    -- If nothing differs from the first type, all known types equal it, and so one another.
    by_contra none
    have fits : ∀ ty ∈ first :: rest, ty.isResolved → equal first ty = true := by
      rintro ty (_ | ⟨_, member⟩) tyKnown
      · exact equal_self first
      · by_contra differs
        refine none ⟨ty, member, compatible_eq_false_iff.mpr ⟨known, tyKnown, ?_⟩⟩
        exact Bool.eq_false_iff.mpr differs
    have same := equal_equivalence.trans (equal_equivalence.symm (fits a aMem aKnown))
      (fits b bMem bKnown)
    exact Bool.false_ne_true (differ ▸ same)
  · rintro ⟨ty, member, incompatible⟩
    have differ := compatible_eq_false_iff.mp incompatible
    exact ⟨differ.1, first, List.mem_cons_self, ty, List.mem_cons_of_mem _ member, differ⟩

theorem join_unresolved {first ty : Ty} {rest : List Ty} (member : ty ∈ rest)
    (incompatible : compatible first ty = false) : join (first :: rest) = unresolved := by
  have differ := (compatible_eq_false_iff.mp incompatible).2.2
  refine if_neg fun all => ?_
  have same := List.all_eq_true.mp all ty member
  rw [equal_comm, differ] at same
  cases same

theorem equal_join {types : List Ty} (known : ∀ ty ∈ types, ty.isResolved)
    (fit : ¬ Conflicting types) : ∀ ty ∈ types, equal (join types) ty = true := by
  cases types with
  | nil => exact fun _ member => absurd member List.not_mem_nil
  | cons first rest =>
    have same : ∀ ty ∈ first :: rest, equal first ty = true := by
      intro ty member
      by_contra differ
      exact fit ⟨first, List.mem_cons_self, ty, member, known _ List.mem_cons_self, known _ member,
        Bool.eq_false_iff.mpr differ⟩
    have all : (rest.all fun other => equal other first) = true := by
      refine List.all_eq_true.mpr fun other member => ?_
      rw [equal_comm]
      exact same other (List.mem_cons_of_mem _ member)
    rw [join, if_pos all]
    exact same

end Ty

namespace Check

/-- The diagnostic says that two of the types, the first one and another, are known and differ. -/
def Disagreement (env : Env) (types : List Ty) (d : Diagnostic) : Prop :=
  ∃ first ∈ types.head?, ∃ ty ∈ types, ∃ span, Ty.compatible first ty = false ∧
    d = .error .typeMismatch span (text "vector elements must share one type" ++
      text ": expected " ++ env.label first ++ text ", found " ++ env.label ty)

theorem conflict_isSome_iff {first : Ty} {parts : List (Option Node × Ty)} :
    (conflict first parts).isSome ↔ ∃ ty ∈ parts.map (·.2), Ty.compatible first ty = false := by
  induction parts with
  | nil => simp [conflict]
  | cons part rest ih =>
    rw [conflict]
    cases fits : Ty.compatible first part.2 with
    | true => simp [fits, ih]
    | false => simp [fits]

theorem conflict_incompatible {first ty : Ty} {slot : Option Node}
    {parts : List (Option Node × Ty)} (found : conflict first parts = some (slot, ty)) :
    Ty.compatible first ty = false := by
  induction parts with
  | nil => cases found
  | cons part rest ih =>
    rw [conflict] at found
    split at found
    next => exact ih found
    next differ =>
      cases found
      exact Bool.eq_false_iff.mpr differ

theorem length_of_mapM {below : Below} {slots : List (Option Node)} {s t : State} {types : List Ty}
    (checked : (slots.mapM below).run s = .ok types t) : types.length = slots.length := by
  induction slots generalizing s types with
  | nil =>
    cases checked
    rfl
  | cons slot rest ih =>
    rw [List.mapM_cons] at checked
    obtain ⟨ty, u, -, checked⟩ := run_bind_eq_ok.mp checked
    obtain ⟨others, v, later, checked⟩ := run_bind_eq_ok.mp checked
    cases checked
    rw [List.length_cons, List.length_cons, ih later]

/-- With the types of its elements at hand, a vector tells of the first that does not fit the first
type of all, and of no other. -/
theorem vector_run {env : Env} {below : Below} {elems : List (Option Node)} {s t : State}
    {types : List Ty} (checked : (elems.mapM below).run s = .ok types t)
    (present : ∀ u, (vector env below elems).run s ≠ .error .absent u) :
    ∃ told elem, (vector env below elems).run s = .ok (.vector elem) (t.tell told) ∧
      (∀ d ∈ told, Disagreement env types d) ∧
      (told.isSome ↔ Ty.StartsKnown types ∧ Ty.Conflicting types) ∧
      (types ≠ [] → elem = Ty.join types) := by
  have length := length_of_mapM checked
  rw [vector, EStateM.run_bind, checked] at present ⊢
  cases elems with
  | nil =>
    cases List.eq_nil_of_length_eq_zero length
    refine ⟨none, .unresolved, rfl, nofun, ?_, fun some => absurd rfl some⟩
    simp [Ty.StartsKnown]
  | cons head slots =>
    cases types with
    | nil => cases length
    | cons first rest =>
      have paired : (slots.zip rest).map (·.2) = rest :=
        List.map_snd_zip (Nat.le_of_eq (Nat.succ.inj length))
      have found : (conflict first (slots.zip rest)).isSome ↔
          Ty.StartsKnown (first :: rest) ∧ Ty.Conflicting (first :: rest) := by
        have starts : Ty.StartsKnown (first :: rest) ↔ first.isResolved := by
          simp [Ty.StartsKnown]
        rw [conflict_isSome_iff, paired, starts, Ty.conflicting_cons_iff]
      dsimp only [List.zip_cons_cons] at present ⊢
      cases unfit : conflict first (slots.zip rest) with
      | none =>
        rw [unfit] at found
        refine ⟨none, _, ?_, nofun, found, fun _ => rfl⟩
        split <;> rfl
      | some part =>
        obtain ⟨slot, ty⟩ := part
        have differ := conflict_incompatible unfit
        have member : ty ∈ rest := (List.of_mem_zip (conflict_mem unfit)).2
        rw [unfit] at found present
        rw [Ty.join_unresolved member differ] at present ⊢
        cases slot with
        | none => exact absurd rfl (present t)
        | some n =>
          refine ⟨some _, .unresolved, rfl, ?_, found, fun _ => rfl⟩
          rintro d ⟨⟩
          exact ⟨first, rfl, ty, List.mem_cons_of_mem _ member, n.span, differ, rfl⟩

/-- In every state and at every depth, a vector literal is reported exactly if the type of its first
element is known and some two elements have known types that differ, in whatever order these stand.
It is reported at most once, for an element that differs from the first. If it is not reported and
the types of all elements are known, then its element type equals each of them. -/
theorem vector_compares_with_first (env : Env) (depth : Nat) (site : Site)
    (elems : List (Option Node)) (s : State)
    (present : ∀ u, (vector env (expr env depth) elems).run s ≠ .error .absent u) :
    ∃ types t told elem, (elems.mapM (expr env depth)).run s = .ok types t ∧
      types.length = elems.length ∧
      (expr env (depth + 1) (some (.vector site elems))).run s =
        .ok (.vector elem) { t.tell told with types := t.types.push (site.id, .vector elem) } ∧
      (∀ d ∈ told, Disagreement env types d) ∧
      (∀ others, others.Perm types →
        (told.isSome ↔ Ty.StartsKnown types ∧ Ty.Conflicting others)) ∧
      (told = none → (∀ ty ∈ types, ty.isResolved) → ∀ ty ∈ types, Ty.equal elem ty = true) := by
  have checks : Checks env True (expr env depth) := expr_checks env True depth
  have steps : Leads True (elems.mapM (expr env depth)) s fun _ t => Run env s t :=
    slots_follow checks (.any _) s
  have arrives (u : State) : (elems.mapM (expr env depth)).run s ≠ .error .absent u := by
    intro stopped
    refine present u ?_
    rw [vector, EStateM.run_bind, stopped]
  obtain ⟨types, t, checked, _⟩ := steps.result_of_present arrives
  obtain ⟨told, elem, ends, described, tells, common⟩ := vector_run checked present
  refine ⟨types, t, told, elem, checked, length_of_mapM checked, ?_, described, ?_, ?_⟩
  · have unfolded : (expr env (depth + 1) (some (.vector site elems))).run s =
        (vector env (expr env depth) elems >>= record site.id).run s := rfl
    rw [unfolded, EStateM.run_bind, ends, ← t.tell_types told]
    rfl
  · intro others perm
    rw [tells]
    exact and_congr_right fun _ => ⟨.of_perm perm.symm, .of_perm perm⟩
  · intro silent known ty member
    have some : types ≠ [] := List.ne_nil_of_mem member
    have fit : ¬ Ty.Conflicting types := by
      intro conflicting
      have starts : Ty.StartsKnown types :=
        ⟨types.head some, List.head_mem_head? some, known _ (List.head_mem some)⟩
      have reported := tells.mpr ⟨starts, conflicting⟩
      rw [silent] at reported
      cases reported
    rw [common some]
    exact Ty.equal_join known fit ty member

section Mixed

/-- A check that warns of nothing, over no names. -/
def bareEnv : Env :=
  ⟨.fresh, ⟨false, false⟩⟩

/-- The elements `1`, `"a"` and an identifier that is bound nowhere. -/
def oneElement : Node := .integer ⟨1, .zero⟩ 1
@[inherit_doc oneElement]
def wordElement : Node := .string ⟨2, .zero⟩ (text "a")
@[inherit_doc oneElement]
def unboundElement : Node := .ident ⟨3, .zero⟩ 14

theorem conflicting_of_integer_string {types : List Ty} (one : Ty.integer ∈ types)
    (word : Ty.string ∈ types) : Ty.Conflicting types := by
  refine ⟨.integer, one, .string, word, rfl, rfl, Bool.eq_false_iff.mpr fun same => ?_⟩
  have kinds := congrArg Ty.kind ((Ty.equal_iff_norm _ _).mp same)
  rw [Ty.kind_norm, Ty.kind_norm] at kinds
  exact absurd kinds (by decide)

theorem mixed_present (elems : List (Option Node))
    (mixed : ∀ slot ∈ elems, slot ∈ [some oneElement, some wordElement, some unboundElement])
    (s u : State) : (vector bareEnv (expr bareEnv 1) elems).run s ≠ .error .absent u := by
  have leaf {n : Node} (among : some n ∈ elems) : n.Complete := by
    have cases := mixed _ among
    simp only [List.mem_cons, Option.some.injEq, List.not_mem_nil, or_false] at cases
    rcases cases with rfl | rfl | rfl <;> exact .of_children trivial .nil
  have fits : Fits False (elems.filterMap (·)) := by
    intro n member
    obtain ⟨slot, among, rfl⟩ := List.mem_filterMap.mp member
    exact .inr (leaf among)
  have filled (slot : Option Node) (among : slot ∈ elems) : slot ≠ none := by
    rintro rfl
    have cases := mixed _ among
    simp at cases
  have follows := vector_follows (expr_checks bareEnv False 1) fits (.inr filled) s
  obtain ⟨_, _, ends, _⟩ := follows.result
  rw [ends]
  exact nofun

/-- The vector `[1, "a"]` is reported. -/
theorem mixed_vector_is_reported : ∃ (t : State) (d : Diagnostic) (elem : Ty),
    (expr bareEnv 2 (some (.vector ⟨4, .zero⟩ [some oneElement, some wordElement]))).run
        (.start .fresh) =
      .ok (.vector elem) { t.emit d with types := t.types.push (4, .vector elem) } ∧
    Disagreement bareEnv [.integer, .string] d := by
  obtain ⟨types, t, told, elem, checked, -, ends, described, tells, -⟩ :=
    vector_compares_with_first bareEnv 1 ⟨4, .zero⟩ [some oneElement, some wordElement]
      (.start .fresh) (mixed_present _ (by simp) _)
  cases checked
  have conflicting : Ty.Conflicting [.integer, .string] :=
    conflicting_of_integer_string (by simp) (by simp)
  have reported := (tells _ (.refl _)).mpr ⟨⟨.integer, rfl, rfl⟩, conflicting⟩
  obtain ⟨d, rfl⟩ := Option.isSome_iff_exists.mp reported
  exact ⟨_, d, elem, ends, described d rfl⟩

/-- In `[x, 1, "a"]`, where `x` is unbound, the other two elements have known types that differ; but
nothing is told beyond what its elements tell. In `[1, x, "a"]` the difference is told. -/
theorem unresolved_first_hides_conflict :
    let hidden := [some unboundElement, some oneElement, some wordElement]
    let seen := [some oneElement, some unboundElement, some wordElement]
    (∃ types t elem, (hidden.mapM (expr bareEnv 1)).run (.start .fresh) = .ok types t ∧
      Ty.Conflicting types ∧
      (vector bareEnv (expr bareEnv 1) hidden).run (.start .fresh) = .ok (.vector elem) t) ∧
    ∃ types t elem d, (seen.mapM (expr bareEnv 1)).run (.start .fresh) = .ok types t ∧
      Disagreement bareEnv types d ∧
      (vector bareEnv (expr bareEnv 1) seen).run (.start .fresh) =
        .ok (.vector elem) (t.emit d) := by
  intro hidden seen
  have present (elems : List (Option Node))
      (mixed : ∀ slot ∈ elems, slot ∈ [some oneElement, some wordElement, some unboundElement]) :=
    mixed_present elems mixed (.start .fresh)
  constructor
  · obtain ⟨told, elem, ends, -, tells, -⟩ := vector_run rfl (present hidden (by simp [hidden]))
    cases told with
    | none => exact ⟨_, _, elem, rfl, conflicting_of_integer_string (by simp) (by simp), ends⟩
    | some d =>
      obtain ⟨⟨first, starts, known⟩, -⟩ := tells.mp rfl
      cases starts
      cases known
  · obtain ⟨told, elem, ends, described, tells, -⟩ := vector_run rfl (present seen (by simp [seen]))
    have reported :=
      tells.mpr ⟨⟨.integer, rfl, rfl⟩, conflicting_of_integer_string (by simp) (by simp)⟩
    obtain ⟨d, rfl⟩ := Option.isSome_iff_exists.mp reported
    exact ⟨_, _, elem, d, rfl, described d rfl, ends⟩

end Mixed

end Check

end TreeCheck
