import Mathlib.Algebra.Ring.Nat
import TreeCheck.Proofs.Diagnostic.Bag

/-!
The accounts of a bag. A bag that is made empty can be added to, merged with other bags, sorted and
rid of repetitions, in any order. All the while a limited bag holds no more than its limit, which
only merging moves, and only upwards; a bag without a limit takes whatever is added; and whatever
was brought to the bag is in it, was refused, or was taken out as a repetition.
-/

namespace TreeCheck.Bag

inductive Action where
  | add (d : Diagnostic)
  | merge (other : Bag)
  | sort
  | dedup

def act (b : Bag) : Action → Bag
  | .add d => b.add d
  | .merge other => b.merge other
  | .sort => b.sort
  | .dedup => b.dedup

def run (b : Bag) (actions : List Action) : Bag :=
  actions.foldl act b

/-- How many diagnostics an action brings: the one that is added, or those that the merged bag holds
and those that it has refused. -/
def Action.brings : Action → Nat
  | .add _ => 1
  | .merge other => other.items.size + other.dropped
  | .sort => 0
  | .dedup => 0

def takenOut (b : Bag) : Action → Nat
  | .add _ => 0
  | .merge _ => 0
  | .sort => 0
  | .dedup => b.items.size - b.dedup.items.size

/-- How many diagnostics actions take out of a bag, one after the other. -/
def takenOutBy (b : Bag) : List Action → Nat
  | [] => 0
  | a :: rest => b.takenOut a + (b.act a).takenOutBy rest

/-! ### One action -/

theorem size_sort (b : Bag) : b.sort.items.size = b.items.size := by
  rw [sort, List.size_toArray, List.length_mergeSort, Array.length_toList]

theorem size_dedup_le (b : Bag) : b.dedup.items.size ≤ b.items.size := by
  have fewer := (distinct_sublist [] b.items.toList).length_le
  rwa [Array.length_toList, ← List.size_toArray] at fewer

theorem size_merge (b other : Bag) :
    (b.merge other).items.size = b.items.size + other.items.size := by
  rw [merge, Array.size_append]

/-- Merging raises a limit to what the bag holds afterwards if that is more, and leaves it else. -/
theorem limit_merge (b other : Bag) : (b.merge other).limit =
    if 0 < b.limit ∧ b.limit < (b.merge other).items.size then ((b.merge other).items.size : Int)
    else b.limit := by
  rw [size_merge, merge]
  simp

theorem merge_of_limit_moved {b : Bag} {a : Action} (moved : (b.act a).limit ≠ b.limit) :
    ∃ other, a = .merge other := by
  cases a with
  | add d => exact absurd (add_limit b d) moved
  | merge other => exact ⟨other, rfl⟩
  | sort => exact absurd rfl moved
  | dedup => exact absurd rfl moved

theorem limit_le_act (b : Bag) (a : Action) : b.limit ≤ (b.act a).limit := by
  cases a with
  | merge other =>
    rw [act, limit_merge]
    split
    next more => exact Int.le_of_lt more.2
    next => exact Int.le_refl _
  | add d => exact Int.le_of_eq (add_limit b d).symm
  | sort => exact Int.le_refl _
  | dedup => exact Int.le_refl _

theorem act_unlimited {b : Bag} (free : b.limit ≤ 0) (a : Action) : (b.act a).limit = b.limit := by
  cases a with
  | merge other =>
    have unlimited : ¬0 < b.limit := Int.not_lt.mpr free
    rw [act, limit_merge, if_neg fun limited => unlimited limited.1]
  | add d => exact add_limit b d
  | sort => rfl
  | dedup => rfl

def Bounded (b : Bag) : Prop :=
  0 < b.limit → b.items.size ≤ b.limit

theorem empty_bounded (limit : Int) : (empty limit).Bounded := by
  intro limited
  exact Int.le_of_lt limited

theorem Bounded.act {b : Bag} (bounded : b.Bounded) (a : Action) : (b.act a).Bounded := by
  cases a with
  | add d =>
    intro limited
    rw [Bag.act, add_limit] at limited ⊢
    by_cases full : b.isFull
    · rw [(add_of_full full).1]
      exact bounded limited
    · rw [(add_of_room full).1, Array.size_push]
      have room : ¬b.limit ≤ b.items.size := fun reached => full (isFull_iff.mpr ⟨limited, reached⟩)
      omega
  | merge other =>
    intro limited
    rw [Bag.act, limit_merge] at limited ⊢
    split
    next => exact Int.le_refl _
    next fits =>
      rw [if_neg fits] at limited
      exact Int.not_lt.mp fun more => fits ⟨limited, more⟩
  | sort =>
    intro limited
    rw [Bag.act, size_sort]
    exact bounded limited
  | dedup =>
    intro limited
    have fewer := size_dedup_le b
    exact Int.le_trans (Int.ofNat_le.mpr fewer) (bounded limited)

/-- Whatever an action brings is in the bag or refused afterwards, and what it takes out was in the
bag. -/
theorem act_accounts (b : Bag) (a : Action) :
    (b.act a).items.size + (b.act a).dropped + b.takenOut a =
      b.items.size + b.dropped + a.brings := by
  cases a with
  | add d => exact add_accounts b d
  | merge other =>
    have refused : (b.merge other).dropped = b.dropped + other.dropped := rfl
    rw [act, size_merge, takenOut, Action.brings, refused]
    omega
  | sort =>
    rw [act, size_sort]
    rfl
  | dedup =>
    have fewer := size_dedup_le b
    have refused : b.dedup.dropped = b.dropped := rfl
    rw [act, takenOut, Action.brings, refused]
    omega

/-! ### Many actions -/

section

variable {b : Bag}

theorem limit_le_run (b : Bag) (actions : List Action) : b.limit ≤ (b.run actions).limit := by
  induction actions generalizing b with
  | nil => exact Int.le_refl _
  | cons a rest ih => exact Int.le_trans (limit_le_act b a) (ih _)

theorem run_unlimited (free : b.limit ≤ 0) (actions : List Action) :
    (b.run actions).limit = b.limit := by
  induction actions generalizing b with
  | nil => rfl
  | cons a rest ih =>
    have same := act_unlimited free a
    exact (ih (by rwa [same])).trans same

theorem Bounded.run (bounded : b.Bounded) (actions : List Action) : (b.run actions).Bounded := by
  induction actions generalizing b with
  | nil => exact bounded
  | cons a rest ih => exact ih (bounded.act a)

theorem run_accounts (b : Bag) (actions : List Action) :
    (b.run actions).items.size + (b.run actions).dropped + b.takenOutBy actions =
      b.items.size + b.dropped + (actions.map Action.brings).sum := by
  induction actions generalizing b with
  | nil => rfl
  | cons a rest ih =>
    have first := act_accounts b a
    have later := ih (b.act a)
    rw [takenOutBy, List.map_cons, List.sum_cons]
    change ((b.act a).run rest).items.size + ((b.act a).run rest).dropped + _ = _
    omega

end

/-- Whatever is done to a bag that was made with a limit: as long as it is limited it holds no more
than its limit; the limit never falls, and moves only when another bag is merged; without a limit at
the start, every diagnostic that is added is taken; and the diagnostics that were added and those
that merged bags held or had refused are as many as the bag holds, has refused and was rid of as
repetitions. -/
theorem limits_hold_and_nothing_is_lost (limit : Int) (actions : List Action) :
    let b := (empty limit).run actions
    (0 < b.limit → b.items.size ≤ b.limit) ∧
    (∀ more, b.limit ≤ (b.run more).limit) ∧
    (∀ a, (b.act a).limit ≠ b.limit → ∃ other, a = .merge other) ∧
    (limit ≤ 0 → ∀ d, ¬b.isFull ∧ b.add d = { b with items := b.items.push d }) ∧
    (actions.map Action.brings).sum =
      b.items.size + b.dropped + (empty limit).takenOutBy actions := by
  intro b
  refine ⟨(empty_bounded limit).run actions, limit_le_run b, fun a => merge_of_limit_moved, ?_, ?_⟩
  · intro free d
    have unlimited : b.limit = limit := run_unlimited (b := empty limit) free actions
    have room : ¬b.isFull := fun full => by
      have limited := (isFull_iff.mp full).1
      omega
    exact ⟨room, if_neg room⟩
  · have accounts := run_accounts (empty limit) actions
    have nothing : (empty limit).items.size + (empty limit).dropped = 0 := rfl
    rw [nothing, Nat.zero_add] at accounts
    exact accounts.symm

end TreeCheck.Bag
