import Mathlib.Algebra.Field.Rat
import Mathlib.Algebra.GroupWithZero.Units.Basic
import Mathlib.Data.Int.Cast.Lemmas
import SymbolGraph.Json.Basic
set_option autoImplicit false

/-!
# What a key denotes

Values that may be keys are the same key when they denote the same (`identical_iff`): a string
itself, a number or a truth value its number, and what is no number only itself. So being the
same key is an equivalence, although it holds between values of different types.
-/

namespace SymbolGraph

namespace Dyadic

/-- The number itself. -/
def value (a : Dyadic) : ℚ := a.mantissa * 2 ^ a.exponent

theorem base_ne_zero : (2 : ℚ) ≠ 0 := by decide

theorem cast_pow_two (n : Nat) : ((Int.pow 2 n : Int) : ℚ) = 2 ^ (n : ℤ) := by
  induction n with
  | zero => simp [Int.pow]
  | succ n ih =>
      have hsucc : Int.pow 2 (n + 1) = Int.pow 2 n * 2 := rfl
      rw [hsucc, Int.cast_mul, ih, Nat.cast_succ, zpow_add_one₀ base_ne_zero, Int.cast_ofNat]

/-- A mantissa brought to a smaller exponent stands for the same number. -/
theorem value_align (a : Dyadic) {e : ℤ} (he : e ≤ a.exponent) :
    ((a.mantissa * Int.pow 2 (a.exponent - e).toNat : Int) : ℚ) * 2 ^ e = a.value := by
  have hexponent : ((a.exponent - e).toNat : ℤ) + e = a.exponent := by omega
  rw [Int.cast_mul, cast_pow_two, mul_assoc, ← zpow_add₀ base_ne_zero, hexponent, value]

/-- Numbers are the same if their values are. -/
theorem same_iff (a b : Dyadic) : a.same b = true ↔ a.value = b.value := by
  have hleft := a.value_align (Int.min_le_left a.exponent b.exponent)
  have hright := b.value_align (Int.min_le_right a.exponent b.exponent)
  have hunit : (2 : ℚ) ^ min a.exponent b.exponent ≠ 0 := zpow_ne_zero _ base_ne_zero
  change decide (_ = _) = true ↔ _
  rw [decide_eq_true_iff, ← hleft, ← hright, mul_left_inj' hunit, Int.cast_inj]

end Dyadic

namespace Json

/-- What a key denotes. -/
inductive KeyValue
  | null
  | number (q : ℚ)
  | infinite (negative : Bool)
  | notANumber
  | string (s : Points)

/-- What a value denotes as a key, if it may be one. -/
def keyValue? : Json → Option KeyValue
  | null => some .null
  | str s => some (.string s)
  | float .nan => some .notANumber
  | float (.infinite negative) => some (.infinite negative)
  | v => v.number?.map fun d => .number d.value

theorem isSome_keyValue? (v : Json) : v.keyValue?.isSome = v.isKey := by
  cases v with
  | float x => cases x <;> rfl
  | _ => rfl

/-- Values are the same key when they denote the same. -/
theorem identical_iff {a b : Json} (hb : b.isKey = true) :
    a.identical b = true ↔ a.keyValue? = b.keyValue? := by
  -- only pairs of numbers compare by value; all other pairs are settled by their constructors
  rcases a with _ | p | m | (_ | _ | _) | s | items | fields <;>
    rcases b with _ | q | n | (_ | _ | _) | t | items' | fields' <;>
    simp_all [identical, isNaN, same, keyValue?, number?, Binary64.dyadic?, isKey,
      Dyadic.same_iff]

section

variable {a b k : Json} (hk : k.isKey = true)
include hk

theorem identical_self : k.identical k = true := (identical_iff hk).mpr rfl

theorem isKey_of_identical (ha : a.identical k = true) : a.isKey = true := by
  rw [← isSome_keyValue?, (identical_iff hk).mp ha, isSome_keyValue?, hk]

/-- Values that are the same key are the same as a third one or not, both of them. -/
theorem identical_congr (hb : b.isKey = true) (hab : a.identical b = true) :
    a.identical k = b.identical k := by
  rw [Bool.eq_iff_iff, identical_iff hk, identical_iff hk, (identical_iff hb).mp hab]

/-- Two values that are the same key as a third are the same key. -/
theorem identical_of_common (ha : a.identical k = true) (hb : b.identical k = true) :
    a.identical b = true := by
  rw [identical_iff (isKey_of_identical hk hb), (identical_iff hk).mp ha,
    (identical_iff hk).mp hb]

end

end Json

end SymbolGraph
