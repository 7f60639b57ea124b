import Mathlib.Algebra.BigOperators.Group.List.Basic
import Mathlib.Algebra.GroupWithZero.Nat
import SymbolGraph.Draft.Basic
set_option autoImplicit false

/-!
# Counting links

Links counted one after the other give each link that occurred one count, the number of its
occurrences (`Tallies`). The counts of the links with some property add up to the number of
occurrences with it, whichever links coincide.
-/

namespace SymbolGraph

/-- Links counted one after the other, on top of given counts. -/
def countLinks (weights : List (Link × Nat)) (ls : List Link) : List (Link × Nat) :=
  ls.foldl (fun weights l => countLink l weights) weights

/-! ## One more reference -/

/-- Counting adds a link at the end of those counted unless it is among them. -/
theorem links_countLink (l : Link) (weights : List (Link × Nat)) :
    (countLink l weights).map Prod.fst =
      if l ∈ weights.map Prod.fst then weights.map Prod.fst
      else weights.map Prod.fst ++ [l] := by
  induction weights with
  | nil => rfl
  | cons entry rest ih =>
      obtain ⟨k, n⟩ := entry
      by_cases hk : k = l
      · simp [countLink, hk]
      · simp only [countLink, if_neg hk, List.map_cons, ih, List.mem_cons, Ne.symm hk, false_or]
        split <;> simp

/-- Counting adds one to the count of the link and leaves all others. -/
theorem get?_countLink (l k : Link) (weights : List (Link × Nat)) :
    Assoc.get? k (countLink l weights) =
      if k = l then some ((Assoc.get? l weights).getD 0 + 1) else Assoc.get? k weights := by
  induction weights with
  | nil =>
      by_cases hk : k = l
      · simp [countLink, Assoc.get?, hk]
      · simp [countLink, Assoc.get?, hk, Ne.symm hk]
  | cons entry rest ih =>
      obtain ⟨k', n⟩ := entry
      by_cases hk' : k' = l
      · by_cases hk : k = l
        · simp [countLink, Assoc.get?, hk', hk]
        · simp [countLink, Assoc.get?, hk', hk, Ne.symm hk]
      · by_cases hk : k' = k
        · have hne : k ≠ l := fun h => hk' (hk.trans h)
          simp [countLink, Assoc.get?, hk, hne]
        · simp [countLink, Assoc.get?, hk', hk, ih]

/-- The total count of the links with a property. -/
def totalWeight (p : Link → Bool) (weights : List (Link × Nat)) : Nat :=
  ((weights.filter fun entry => p entry.1).map Prod.snd).sum

/-- Counting a link adds one to the total if the link has the property. -/
theorem totalWeight_countLink (p : Link → Bool) (l : Link) (weights : List (Link × Nat)) :
    totalWeight p (countLink l weights) = totalWeight p weights + if p l then 1 else 0 := by
  induction weights with
  | nil => by_cases hp : p l <;> simp [countLink, totalWeight, hp]
  | cons entry rest ih =>
      obtain ⟨k, n⟩ := entry
      simp only [totalWeight] at ih ⊢
      by_cases hk : k = l
      · subst hk
        by_cases hp : p k
        · simp only [countLink, ↓reduceIte, List.filter_cons, hp, List.map_cons, List.sum_cons]
          omega
        · simp [countLink, hp]
      · by_cases hp : p k
        · simp only [countLink, if_neg hk, List.filter_cons, hp, ↓reduceIte, List.map_cons,
            List.sum_cons, ih]
          omega
        · simp only [countLink, if_neg hk, List.filter_cons, hp, Bool.false_eq_true,
            ↓reduceIte, ih]

/-! ## All references -/

/-- The counts are those of a list of links: each link has one count, the number of its
occurrences, and a link that does not occur has none. -/
structure Tallies (weights : List (Link × Nat)) (ls : List Link) : Prop where
  nodup : (weights.map Prod.fst).Nodup
  get?_eq : ∀ l, Assoc.get? l weights = if ls.count l = 0 then none else some (ls.count l)

theorem tallies_nil : Tallies [] [] := ⟨List.nodup_nil, fun _ => rfl⟩

/-- Counting one more link keeps the counts those of the links so far. -/
theorem Tallies.countLink {weights : List (Link × Nat)} {ls : List Link}
    (htallies : Tallies weights ls) (l : Link) :
    Tallies (SymbolGraph.countLink l weights) (ls ++ [l]) := by
  constructor
  · rw [links_countLink]
    split
    · exact htallies.nodup
    · next hnew =>
      refine List.nodup_append.mpr ⟨htallies.nodup, List.pairwise_singleton _ l, ?_⟩
      intro k hk k' hk'
      rw [List.mem_singleton.mp hk']
      exact fun heq => hnew (heq ▸ hk)
  · intro k
    rw [get?_countLink, htallies.get?_eq, htallies.get?_eq, List.count_append,
      List.count_singleton]
    by_cases hk : k = l
    · subst hk
      by_cases hzero : ls.count k = 0 <;> simp [hzero]
    · simp [hk, Ne.symm hk]

/-- Links counted from nothing are tallied. -/
theorem tallies_countLinks (ls : List Link) : Tallies (countLinks [] ls) ls := by
  have hrun : ∀ (later : List Link) {weights : List (Link × Nat)} {seen : List Link},
      Tallies weights seen → Tallies (countLinks weights later) (seen ++ later) := by
    intro later
    induction later with
    | nil =>
        intro weights seen hseen
        rw [List.append_nil]
        exact hseen
    | cons l later ih =>
        intro weights seen hseen
        have hnext := ih (hseen.countLink l)
        rwa [List.append_assoc, List.singleton_append] at hnext
  exact hrun ls tallies_nil

/-- The counts of the links with a property add up to the number of their occurrences. -/
theorem totalWeight_countLinks (p : Link → Bool) (ls : List Link) :
    totalWeight p (countLinks [] ls) = ls.countP p := by
  have hrun : ∀ (ls : List Link) (weights : List (Link × Nat)),
      totalWeight p (countLinks weights ls) = totalWeight p weights + ls.countP p := by
    intro ls
    induction ls with
    | nil => exact fun weights => rfl
    | cons l ls ih =>
        intro weights
        rw [countLinks, List.foldl_cons, ← countLinks, ih, totalWeight_countLink,
          List.countP_cons]
        omega
  rw [hrun]
  simp [totalWeight]

/-! ## What has one count -/

/-- In a table without two entries for a key, the entries for a key are what looking it up
gives. -/
theorem filter_key_eq {κ α : Type} [DecidableEq κ] {table : List (κ × α)}
    (hnodup : (table.map Prod.fst).Nodup) (k : κ) :
    table.filter (fun entry => entry.1 = k) = ((Assoc.get? k table).map (k, ·)).toList := by
  induction table with
  | nil => rfl
  | cons entry rest ih =>
      obtain ⟨k', v⟩ := entry
      rw [List.map_cons, List.nodup_cons] at hnodup
      have hrest := ih hnodup.2
      by_cases hk : k' = k
      · subst hk
        have hnone : rest.filter (fun entry => entry.1 = k') = [] := by
          refine List.filter_eq_nil_iff.mpr ?_
          intro entry hentry heq
          exact hnodup.1 (List.mem_map.mpr ⟨entry, hentry, of_decide_eq_true heq⟩)
        simp [Assoc.get?, hnone]
      · simp [Assoc.get?, hk, hrest]

end SymbolGraph
