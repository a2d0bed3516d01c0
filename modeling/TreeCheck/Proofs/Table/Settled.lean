import TreeCheck.Table
import Mathlib.Data.List.Nodup
import Mathlib.Data.List.Perm.Basic

/-!
Tables made entry by entry. Insertions under different keys may change places, so that a table with
ascending keys comes out of its entries in whatever order they are inserted, also where each entry
stands for a value that is itself made so.
-/

namespace TreeCheck

namespace Table

variable {α : Type}

def Ascending (t : Table α) : Prop :=
  t.entries.Pairwise (·.1 < ·.1)

/-- The first table has the entries of the second one, in whatever order and with values that are
the same up to such a relation of their own. -/
def Rearranges (same : α → α → Prop) (u t : Table α) : Prop :=
  ∃ entries, u.entries.Perm entries ∧
    List.Forall₂ (fun e f => e.1 = f.1 ∧ same e.2 f.2) entries t.entries

theorem place_comm {k l : Nat} (other : k ≠ l) (a b : α) (entries : List (Nat × α)) :
    place l b (place k a entries) = place k a (place l b entries) := by
  induction entries with
  | nil => grind [place]
  | cons entry rest ih => grind [place]

theorem place_above {key : Nat} {a : α} {entries : List (Nat × α)}
    (above : ∀ e ∈ entries, e.1 < key) : place key a entries = entries ++ [(key, a)] := by
  induction entries with
  | nil => rfl
  | cons entry rest ih =>
    have lower := above entry List.mem_cons_self
    rw [place, if_pos lower, ih (fun e member => above e (List.mem_cons_of_mem entry member))]
    rfl

theorem foldl_insert_ascending {entries before : List (Nat × α)}
    (order : (before ++ entries).Pairwise (·.1 < ·.1)) :
    entries.foldl (fun (t : Table α) e => t.insert e.1 e.2) ⟨before⟩ = ⟨before ++ entries⟩ := by
  induction entries generalizing before with
  | nil => simp
  | cons e entries ih =>
    have above : ∀ f ∈ before, f.1 < e.1 := fun f member =>
      (List.pairwise_append.mp order).2.2 f member e List.mem_cons_self
    have placed : (⟨before⟩ : Table α).insert e.1 e.2 = ⟨before ++ [e]⟩ :=
      congrArg Table.mk (place_above above)
    rw [List.foldl_cons, placed, ih (by simpa using order)]
    simp

theorem eq_of_key_eq {entries : List (Nat × α)} (order : entries.Pairwise (·.1 < ·.1))
    {e f : Nat × α} (first : e ∈ entries) (second : f ∈ entries) (same : e.1 = f.1) : e = f := by
  have distinct : (entries.map Prod.fst).Nodup :=
    List.pairwise_map.mpr (order.imp fun lower => Nat.ne_of_lt lower)
  exact List.inj_on_of_nodup_map distinct first second same

theorem foldl_insert_of_perm {t : Table α} {entries : List (Nat × α)} (order : t.Ascending)
    (perm : entries.Perm t.entries) :
    entries.foldl (fun (t : Table α) e => t.insert e.1 e.2) empty = t := by
  have exchange : ∀ e ∈ entries, ∀ f ∈ entries, ∀ u : Table α,
      (u.insert e.1 e.2).insert f.1 f.2 = (u.insert f.1 f.2).insert e.1 e.2 := by
    intro e first f second u
    by_cases same : e.1 = f.1
    · rw [eq_of_key_eq order (perm.mem_iff.mp first) (perm.mem_iff.mp second) same]
    · exact congrArg Table.mk (place_comm same e.2 f.2 u.entries)
  rw [perm.foldl_eq' exchange]
  exact foldl_insert_ascending order

/-- The entries inserted one after the other, each with the value it stands for. -/
def settled {β : Type} (meaning : α → β) (t : Table α) : Table β :=
  t.entries.foldl (fun u e => u.insert e.1 (meaning e.2)) empty

theorem Rearranges.settled_eq {same : α → α → Prop} {u t : Table α}
    (arranged : Rearranges same u t) (order : t.Ascending) {meaning : α → α}
    (means : ∀ a, ∀ f ∈ t.entries, same a f.2 → meaning a = f.2) : u.settled meaning = t := by
  obtain ⟨entries, perm, alike⟩ := arranged
  have told : entries.map (fun e => (e.1, meaning e.2)) = t.entries := by
    clear perm
    generalize t.entries = listed at alike means
    induction alike with
    | nil => rfl
    | cons first _ ih =>
      rw [List.map_cons, ih (fun a f member => means a f (List.mem_cons_of_mem _ member)),
        means _ _ List.mem_cons_self first.2, first.1]
  have mapped : (u.entries.map fun e => (e.1, meaning e.2)).Perm t.entries := told ▸ perm.map _
  have inserted := foldl_insert_of_perm order mapped
  rwa [List.foldl_map] at inserted

theorem Rearranges.settled_id {u t : Table α} (arranged : Rearranges Eq u t)
    (order : t.Ascending) : u.settled id = t :=
  arranged.settled_eq order fun _ _ _ same => same

end Table

end TreeCheck
