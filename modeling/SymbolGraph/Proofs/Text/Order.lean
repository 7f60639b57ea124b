import Mathlib.Data.List.Perm.Basic
import SymbolGraph.Text.Basic
set_option autoImplicit false

/-!
# The order of strings

Strings are totally ordered by their code points. So a list of items with distinct strings as
keys has one sorted form, in which the keys ascend strictly, and items that ascend strictly are
in that form whatever the order was in which they were given.
-/

namespace SymbolGraph

section

variable {γ : Type} [DecidableEq γ] [LT γ] [DecidableLT γ] [LE γ] [Std.IsLinearOrder γ]
  [Std.LawfulOrderLT γ]

namespace Text

variable {a b c : List γ}

omit [LE γ] [Std.IsLinearOrder γ] [Std.LawfulOrderLT γ] in
theorem le_iff_not_lt : le a b = true ↔ ¬ b < a := by
  rw [le, Bool.not_eq_true', decide_eq_false_iff_not]

theorem le_trans (hab : le a b = true) (hbc : le b c = true) : le a c = true := by
  rw [le_iff_not_lt] at hab hbc ⊢
  exact List.le_trans hab hbc

omit [Std.IsLinearOrder γ] in
theorem le_total (a b : List γ) : (le a b || le b a) = true := by
  rw [Bool.or_eq_true, le_iff_not_lt, le_iff_not_lt]
  exact List.le_total a b

theorem lt_of_le_of_ne (hle : le a b = true) (hne : a ≠ b) : a < b :=
  (List.le_iff_lt_or_eq.mp (le_iff_not_lt.mp hle)).resolve_right hne

theorem le_antisymm (hab : le a b = true) (hba : le b a = true) : a = b := by
  refine Decidable.byContradiction fun hne => ?_
  exact le_iff_not_lt.mp hba (lt_of_le_of_ne hab hne)

end Text

/-! ## Sorting by distinct keys -/

/-- Items sorted by distinct keys have strictly ascending keys. -/
theorem pairwise_lt_mergeSort {α : Type} (key : α → List γ) {as : List α}
    (hnodup : (as.map key).Nodup) :
    ((as.mergeSort fun a b => Text.le (key a) (key b)).map key).Pairwise (· < ·) := by
  have hsorted : (as.mergeSort fun a b => Text.le (key a) (key b)).Pairwise
      fun a b => Text.le (key a) (key b) = true := by
    refine List.pairwise_mergeSort ?_ ?_ as
    · exact fun _ _ _ => Text.le_trans
    · exact fun _ _ => Text.le_total _ _
  have hdistinct : ((as.mergeSort fun a b => Text.le (key a) (key b)).map key).Nodup :=
    ((List.mergeSort_perm as _).map key).nodup_iff.mpr hnodup
  rw [List.pairwise_map]
  refine (hsorted.and (List.pairwise_map.mp hdistinct)).imp ?_
  rintro a b ⟨hle, hne⟩
  exact Text.lt_of_le_of_ne hle hne

omit [DecidableEq γ] [DecidableLT γ] [Std.IsLinearOrder γ] in
/-- Items with strictly ascending keys are in the only order in which they can be. -/
theorem eq_of_ascending {α : Type} (key : α → List γ) {as bs : List α}
    (has : (as.map key).Pairwise (· < ·)) (hbs : (bs.map key).Pairwise (· < ·))
    (hmem : ∀ a, a ∈ as ↔ a ∈ bs) : as = bs := by
  have hnodup : ∀ {cs : List α}, (cs.map key).Pairwise (· < ·) → cs.Nodup := by
    intro cs hcs
    refine (List.pairwise_map.mp hcs).imp ?_
    rintro a _ hlt rfl
    exact List.lt_irrefl _ hlt
  have hperm : as.Perm bs := (List.perm_ext_iff_of_nodup (hnodup has) (hnodup hbs)).mpr hmem
  have hanti : ∀ a b, a ∈ as → b ∈ bs → key a < key b → key b < key a → a = b :=
    fun a b _ _ hab hba => absurd hba (List.lt_asymm hab)
  exact hperm.eq_of_pairwise hanti (List.pairwise_map.mp has) (List.pairwise_map.mp hbs)

end

end SymbolGraph
