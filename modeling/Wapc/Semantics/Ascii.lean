import Mathlib.Data.Char

/-!
# Letters by their numbers

The classes of ASCII characters and the two changes of case, as statements about character
codes that linear arithmetic can use.
-/

namespace Wapc.Semantics.Ascii

theorem isUpper_iff (c : Char) : c.isUpper ↔ 65 ≤ c.toNat ∧ c.toNat ≤ 90 := by
  change decide (c.val ≥ 'A'.val ∧ c.val ≤ 'Z'.val) = true ↔ _
  simp [UInt32.le_iff_toNat_le]

theorem isLower_iff (c : Char) : c.isLower ↔ 97 ≤ c.toNat ∧ c.toNat ≤ 122 := by
  change (decide (c.val ≥ 'a'.val) && decide (c.val ≤ 'z'.val)) = true ↔ _
  simp [UInt32.le_iff_toNat_le]

theorem isAlpha_iff (c : Char) : c.isAlpha ↔ c.isUpper ∨ c.isLower := by
  change (c.isUpper || c.isLower) = true ↔ _
  rw [Bool.or_eq_true]

theorem isDigit_iff (c : Char) : c.isDigit ↔ 48 ≤ c.toNat ∧ c.toNat ≤ 57 := by
  simp [Char.isDigit, UInt32.le_iff_toNat_le]

theorem toNat_toLower (c : Char) :
    c.toLower.toNat = if 65 ≤ c.toNat ∧ c.toNat ≤ 90 then c.toNat + 32 else c.toNat := by
  unfold Char.toLower
  by_cases upper : c.val ≥ 'A'.val ∧ c.val ≤ 'Z'.val
  · have range : 65 ≤ c.toNat ∧ c.toNat ≤ 90 := by
      simpa [UInt32.le_iff_toNat_le] using upper
    rw [dif_pos upper, if_pos range]
    change (c.val + ('a'.val - 'A'.val)).toNat = c.val.toNat + 32
    change 65 ≤ c.val.toNat ∧ c.val.toNat ≤ 90 at range
    rw [UInt32.toNat_add]
    change (c.val.toNat + 32) % 2 ^ 32 = _
    omega
  · have range : ¬ (65 ≤ c.toNat ∧ c.toNat ≤ 90) := by
      simpa [UInt32.le_iff_toNat_le] using upper
    rw [dif_neg upper, if_neg range]

theorem toNat_toUpper (c : Char) :
    c.toUpper.toNat = if 97 ≤ c.toNat ∧ c.toNat ≤ 122 then c.toNat - 32 else c.toNat := by
  unfold Char.toUpper
  by_cases lower : c.val ≥ 'a'.val ∧ c.val ≤ 'z'.val
  · have range : 97 ≤ c.toNat ∧ c.toNat ≤ 122 := by
      simpa [UInt32.le_iff_toNat_le] using lower
    rw [dif_pos lower, if_pos range]
    change (c.val + ('A'.val - 'a'.val)).toNat = c.val.toNat - 32
    change 97 ≤ c.val.toNat ∧ c.val.toNat ≤ 122 at range
    rw [UInt32.toNat_add]
    change (c.val.toNat + 4294967264) % 2 ^ 32 = _
    omega
  · have range : ¬ (97 ≤ c.toNat ∧ c.toNat ≤ 122) := by
      simpa [UInt32.le_iff_toNat_le] using lower
    rw [dif_neg lower, if_neg range]

theorem isAlphanum_iff (c : Char) : c.isAlphanum ↔ c.isUpper ∨ c.isLower ∨ c.isDigit := by
  change (c.isAlpha || c.isDigit) = true ↔ _
  rw [Bool.or_eq_true, isAlpha_iff, or_assoc]

theorem toLower_letter {c : Char} (letter : c.isAlphanum) :
    c.toLower.isLower ∨ c.toLower.isDigit := by
  rw [isAlphanum_iff, isUpper_iff, isLower_iff, isDigit_iff] at letter
  rw [isLower_iff, isDigit_iff, toNat_toLower]
  split <;> omega

theorem isAlpha_toLower (c : Char) : c.toLower.isAlpha ↔ c.isAlpha := by
  rw [isAlpha_iff, isAlpha_iff, isUpper_iff, isLower_iff, isUpper_iff, isLower_iff, toNat_toLower]
  split <;> omega

theorem toLower_of_small {c : Char} (small : c.isLower ∨ c.isDigit) : c.toLower = c := by
  rw [isLower_iff, isDigit_iff] at small
  apply Char.toNat_inj.mp
  rw [toNat_toLower, if_neg (by omega)]

theorem isAlphanum_of_small {c : Char} (small : c.isLower ∨ c.isDigit) : c.isAlphanum :=
  (isAlphanum_iff c).mpr (.inr small)

theorem not_isUpper_of_small {c : Char} (small : c.isLower ∨ c.isDigit) : c.isUpper = false := by
  rw [isLower_iff, isDigit_iff] at small
  rw [Bool.eq_false_iff, ne_eq, isUpper_iff]
  omega

theorem toLower_toUpper_of_small {c : Char} (small : c.isLower ∨ c.isDigit ∨ c = '_') :
    c.toUpper.toLower = c := by
  apply Char.toNat_inj.mp
  rw [isLower_iff, isDigit_iff, ← Char.toNat_inj] at small
  change (97 ≤ c.toNat ∧ c.toNat ≤ 122) ∨ (48 ≤ c.toNat ∧ c.toNat ≤ 57) ∨ c.toNat = 95 at small
  rw [toNat_toLower, toNat_toUpper]
  split <;> split <;> omega

end Wapc.Semantics.Ascii
