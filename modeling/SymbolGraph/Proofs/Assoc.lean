import Mathlib.Data.List.Nodup
import SymbolGraph.Assoc
set_option autoImplicit false

/-!
# Tables whose keys differ

Pairs that are put into a table one after the other are put one behind the other if their keys
differ. The order of such pairs does not show in what a key stands for.
-/

namespace SymbolGraph.Assoc

variable {κ α : Type} [DecidableEq κ]

theorem putAll_append (table pairs later : List (κ × α)) :
    putAll table (pairs ++ later) = putAll (putAll table pairs) later := List.foldl_append

/-- Pairs with other keys leave what a key stands for. -/
theorem get?_putAll_of_not_mem {k : κ} {pairs : List (κ × α)} (hk : k ∉ pairs.map Prod.fst)
    (table : List (κ × α)) : get? k (putAll table pairs) = get? k table := by
  induction pairs generalizing table with
  | nil => rfl
  | cons p pairs ih =>
      rw [List.map_cons, List.mem_cons, not_or] at hk
      have hrest := ih hk.2 (put p.1 p.2 table)
      rw [get?_put, if_neg (Ne.symm hk.1)] at hrest
      exact hrest

/-- A key stands for the value that was put last. -/
theorem get?_putAll (k : κ) (table pairs : List (κ × α)) :
    get? k (putAll table pairs) =
      ((pairs.filter fun p => p.1 = k).map Prod.snd).getLast?.or (get? k table) := by
  induction pairs generalizing table with
  | nil => rfl
  | cons p pairs ih =>
      have hput := ih (put p.1 p.2 table)
      rw [get?_put] at hput
      refine hput.trans ?_
      rw [List.filter_cons]
      by_cases hk : p.1 = k
      · rw [if_pos hk, if_pos (decide_eq_true hk), List.map_cons, List.getLast?_cons]
        cases ((pairs.filter fun p => p.1 = k).map Prod.snd).getLast? <;> rfl
      · rw [if_neg hk, if_neg (by simpa using hk)]

theorem put_of_not_mem {k : κ} {table : List (κ × α)} (hk : k ∉ table.map Prod.fst) (v : α) :
    put k v table = table ++ [(k, v)] := by
  induction table with
  | nil => rfl
  | cons p table ih =>
      rw [List.map_cons, List.mem_cons, not_or] at hk
      rw [put, if_neg (Ne.symm hk.1), ih hk.2, List.cons_append]

/-- Pairs whose keys differ, and are new, are put one behind the other. -/
theorem putAll_of_nodup {table pairs : List (κ × α)}
    (hkeys : ((table ++ pairs).map Prod.fst).Nodup) : putAll table pairs = table ++ pairs := by
  induction pairs generalizing table with
  | nil => exact (List.append_nil table).symm
  | cons p pairs ih =>
      have hnew : p.1 ∉ table.map Prod.fst := by
        rw [List.map_append, List.nodup_append] at hkeys
        exact fun hmem => hkeys.2.2 _ hmem _ List.mem_cons_self rfl
      have hsplit : table ++ p :: pairs = (table ++ [p]) ++ pairs := by simp
      rw [hsplit] at hkeys ⊢
      rw [← ih hkeys, ← put_of_not_mem hnew p.2]
      rfl

theorem contains_iff {k : κ} {table : List (κ × α)} :
    contains k table = true ↔ k ∈ table.map Prod.fst := by
  induction table with
  | nil => simp [contains]
  | cons p table ih =>
      obtain ⟨k', v⟩ := p
      rw [contains] at ih
      by_cases hk : k' = k
      · simp [contains, get?, hk]
      · simp only [contains, get?, if_neg hk, ih, List.map_cons, List.mem_cons,
          Ne.symm hk, false_or]

theorem keys_put_of_mem {k : κ} {table : List (κ × α)} (hk : k ∈ table.map Prod.fst) (v : α) :
    (put k v table).map Prod.fst = table.map Prod.fst := by
  induction table with
  | nil => exact absurd hk List.not_mem_nil
  | cons p table ih =>
      rw [put]
      split
      · rfl
      · next hne =>
        have hrest := (List.mem_cons.mp hk).resolve_left (Ne.symm hne)
        rw [List.map_cons, List.map_cons, ih hrest]

theorem mem_put {p : κ × α} {k : κ} {v : α} {table : List (κ × α)} (hp : p ∈ put k v table) :
    p ∈ table ∨ p = (k, v) := by
  induction table with
  | nil => exact Or.inr (List.mem_singleton.mp hp)
  | cons q table ih =>
      rw [put] at hp
      split at hp
      · next hk =>
        obtain rfl | hp := List.mem_cons.mp hp
        · exact Or.inr (congrArg (·, v) hk)
        · exact Or.inl (List.mem_cons_of_mem q hp)
      · obtain rfl | hp := List.mem_cons.mp hp
        · exact Or.inl List.mem_cons_self
        · exact (ih hp).imp_left (List.mem_cons_of_mem q)

/-- What is in a table that pairs were put into was in it before or is one of the pairs. -/
theorem mem_putAll {p : κ × α} {table pairs : List (κ × α)} (hp : p ∈ putAll table pairs) :
    p ∈ table ∨ p ∈ pairs := by
  induction pairs generalizing table with
  | nil => exact Or.inl hp
  | cons q pairs ih =>
      obtain hput | hlater := ih hp
      · obtain htable | rfl := mem_put hput
        · exact Or.inl htable
        · exact Or.inr List.mem_cons_self
      · exact Or.inr (List.mem_cons_of_mem q hlater)

/-- So it is if only pairs with new keys were put. -/
theorem mem_putAllNew {p : κ × α} {table pairs : List (κ × α)}
    (hp : p ∈ putAllNew table pairs) : p ∈ table ∨ p ∈ pairs := by
  induction pairs generalizing table with
  | nil => exact Or.inl hp
  | cons q pairs ih =>
      obtain ⟨k, v⟩ := q
      obtain (hput : p ∈ putNew k v table) | hlater := ih hp
      · rw [putNew] at hput
        split at hput
        · exact Or.inl hput
        · obtain htable | hnew := List.mem_append.mp hput
          · exact Or.inl htable
          · exact Or.inr (List.mem_singleton.mp hnew ▸ List.mem_cons_self)
      · exact Or.inr (List.mem_cons_of_mem _ hlater)

theorem mem_of_get? {k : κ} {v : α} {table : List (κ × α)} (hget : get? k table = some v) :
    (k, v) ∈ table := by
  induction table with
  | nil => exact absurd hget.symm (Option.some_ne_none v)
  | cons p table ih =>
      obtain ⟨k', v'⟩ := p
      rw [get?] at hget
      split at hget
      · next hk =>
        obtain rfl := Option.some.inj hget
        exact hk ▸ List.mem_cons_self
      · exact List.mem_cons_of_mem _ (ih hget)

/-- Pairs that are put where their keys are new give a key the first value among them, if it had
none. -/
theorem get?_putAllNew (k : κ) (table pairs : List (κ × α)) :
    get? k (putAllNew table pairs) = (get? k table).or (get? k pairs) := by
  induction pairs generalizing table with
  | nil => exact Option.or_none.symm
  | cons p pairs ih =>
      obtain ⟨k', v⟩ := p
      have hput := ih (putNew k' v table)
      rw [get?_putNew, Option.or_assoc] at hput
      refine hput.trans (congrArg _ ?_)
      by_cases hk : k' = k <;> simp [get?, hk]

/-- In a table without two entries for a key, a key stands for what its entry says. -/
theorem get?_eq_some_iff {table : List (κ × α)} (hkeys : (table.map Prod.fst).Nodup) {k : κ}
    {v : α} : get? k table = some v ↔ (k, v) ∈ table := by
  induction table with
  | nil => simp
  | cons p table ih =>
      obtain ⟨k', v'⟩ := p
      rw [List.map_cons, List.nodup_cons] at hkeys
      rw [get?, List.mem_cons, Prod.mk.injEq]
      by_cases hk : k' = k
      · subst hk
        have hrest : (k', v) ∉ table := fun hmem => hkeys.1 (List.mem_map.mpr ⟨_, hmem, rfl⟩)
        simp [hrest, eq_comm]
      · simp [hk, Ne.symm hk, ih hkeys.2]

/-- The order of entries for different keys does not matter. -/
theorem get?_perm {table table' : List (κ × α)} (hperm : table.Perm table')
    (hkeys : (table.map Prod.fst).Nodup) (k : κ) : get? k table = get? k table' := by
  have hkeys' : (table'.map Prod.fst).Nodup := (hperm.map Prod.fst).nodup_iff.mp hkeys
  refine Option.ext fun v => ?_
  rw [get?_eq_some_iff hkeys, get?_eq_some_iff hkeys', hperm.mem_iff]

/-- Pairs whose keys differ fill a table in whichever order, up to its own order. -/
theorem putAll_perm {pairs pairs' : List (κ × α)} (hperm : pairs.Perm pairs')
    (hkeys : (pairs.map Prod.fst).Nodup) : (putAll [] pairs).Perm (putAll [] pairs') := by
  have hkeys' : (pairs'.map Prod.fst).Nodup := (hperm.map Prod.fst).nodup_iff.mp hkeys
  rw [putAll_of_nodup hkeys, putAll_of_nodup hkeys']
  exact hperm

theorem get?_putAll_perm {pairs pairs' : List (κ × α)} (hperm : pairs.Perm pairs')
    (hkeys : (pairs.map Prod.fst).Nodup) (k : κ) :
    get? k (putAll [] pairs) = get? k (putAll [] pairs') := by
  refine get?_perm (putAll_perm hperm hkeys) ?_ k
  rw [putAll_of_nodup hkeys]
  exact hkeys

end SymbolGraph.Assoc
