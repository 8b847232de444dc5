import Mathlib.Algebra.Group.Nat.Defs
import SmallLang.Number.Rounding

/-! Rounding: which fractions have a finite nearest number, and which numbers are nearest to
themselves. -/

namespace SmallLang.Number

theorem bitLength_le_iff {n k : Nat} : bitLength n ≤ k ↔ n < 2 ^ k := by
  unfold bitLength
  split
  · rename_i hn
    rw [hn]
    exact iff_of_true (Nat.zero_le k) (Nat.two_pow_pos k)
  · rename_i hn
    rw [Nat.succ_le_iff, Nat.log2_lt hn]

theorem lt_bitLength_iff {n k : Nat} : k < bitLength n ↔ 2 ^ k ≤ n := by
  rw [← Nat.not_le, bitLength_le_iff, Nat.not_lt]

theorem div_le_halfEven (num den : Nat) : num / den ≤ halfEven num den := by
  simp only [halfEven]
  split <;> omega

theorem halfEven_le_div (num den : Nat) : halfEven num den ≤ num / den + 1 := by
  simp only [halfEven]
  split <;> omega

/-- Below an even bound a fraction is rounded up to it from half-way on. -/
theorem le_halfEven_iff {num den n : Nat} (hden : 0 < den) (hn : n % 2 = 0) (hpos : 0 < n) :
    n ≤ halfEven num den ↔ den * (2 * n - 1) ≤ 2 * num := by
  have hnum := Nat.div_add_mod num den
  have hmod := Nat.mod_lt num hden
  have hlow := div_le_halfEven num den
  have hhigh := halfEven_le_div num den
  have hmul : den * (2 * n - 1) + den = 2 * (den * n) := by
    obtain ⟨m, rfl⟩ : ∃ m, n = m + 1 := ⟨n - 1, by omega⟩
    rw [show 2 * (m + 1) - 1 = 2 * m + 1 by omega]
    simp only [Nat.mul_add, Nat.mul_left_comm den 2 m]
    omega
  rcases Nat.lt_trichotomy (num / den + 1) n with hlt | heq | hgt
  · have hle : den * (num / den + 2) ≤ den * n := Nat.mul_le_mul_left den hlt
    rw [Nat.mul_add] at hle
    omega
  · have hprod : den * n = den * (num / den) + den := by rw [← heq, Nat.mul_succ]
    have hodd : ¬ num / den % 2 = 0 := by omega
    have hhalf : n ≤ halfEven num den ↔ ¬ 2 * (num % den) < den := by
      simp only [halfEven, hodd, decide_false, Bool.and_false, Bool.or_false, decide_eq_true_eq]
      split <;> omega
    omega
  · have hle : den * n ≤ den * (num / den) := Nat.mul_le_mul_left den (by omega)
    omega

theorem unitsPerOne_eq : unitsPerOne = 2 ^ 1074 := by decide +kernel

theorem exponentWeight_eq : exponentWeight = 2 ^ 52 := rfl

theorem unitsPerOne_pos : 0 < unitsPerOne := by decide +kernel

def shiftOf (num den : Nat) : Nat := bitLength (num * unitsPerOne / den) - 53

theorem nearestMagnitude_eq (num den : Nat) : nearestMagnitude num den =
    shiftOf num den * exponentWeight +
      halfEven (num * unitsPerOne) (den * 2 ^ shiftOf num den) := by
  simp only [nearestMagnitude, shiftOf, Nat.pow_eq]

/-- The bound that fractions with a finite nearest number are below: half-way from the greatest
finite number to `2 ^ 1024`. -/
def finiteBound : Nat := (2 ^ 54 - 1) * 2 ^ 970

theorem halfEven_shift_le {units den shift : Nat}
    (h : units / den < 2 ^ (shift + 53)) : halfEven units (den * 2 ^ shift) ≤ 2 ^ 53 := by
  have hdiv : units / (den * 2 ^ shift) < 2 ^ 53 := by
    rw [← Nat.div_div_eq_div_mul, Nat.div_lt_iff_lt_mul (Nat.two_pow_pos shift), ← Nat.pow_add,
      Nat.add_comm 53]
    exact h
  exact Nat.le_trans (halfEven_le_div _ _) hdiv

theorem two_pow_le_halfEven_shift {units den shift : Nat}
    (h : 2 ^ (shift + 52) ≤ units / den) : 2 ^ 52 ≤ halfEven units (den * 2 ^ shift) := by
  refine Nat.le_trans ?_ (div_le_halfEven _ _)
  rw [← Nat.div_div_eq_div_mul, Nat.le_div_iff_mul_le (Nat.two_pow_pos shift), ← Nat.pow_add,
    Nat.add_comm 52]
  exact h

theorem units_div_lt_iff {num den k : Nat} (hden : 0 < den) :
    num * unitsPerOne / den < 2 ^ (k + 1074) ↔ num < den * 2 ^ k := by
  have hsplit : 2 ^ (k + 1074) * den = den * 2 ^ k * unitsPerOne := by
    rw [unitsPerOne_eq, pow_add, Nat.mul_comm den, Nat.mul_right_comm]
  rw [Nat.div_lt_iff_lt_mul hden, hsplit, Nat.mul_lt_mul_right unitsPerOne_pos]

theorem le_halfEven_finite_iff {num den : Nat} (hden : 0 < den) :
    2 ^ 53 ≤ halfEven (num * unitsPerOne) (den * 2 ^ 2045) ↔ den * finiteBound ≤ num := by
  have hbound : 2 ^ 2045 * (2 * 2 ^ 53 - 1) = finiteBound * (2 * unitsPerOne) := by
    decide +kernel
  have hpos : 0 < 2 * unitsPerOne := Nat.mul_pos (by decide) unitsPerOne_pos
  have hshift : 0 < 2 ^ 2045 := by decide +kernel
  rw [le_halfEven_iff (Nat.mul_pos hden hshift) (by decide) (by decide),
    Nat.mul_assoc, hbound, ← Nat.mul_assoc, Nat.mul_left_comm 2, Nat.mul_le_mul_right_iff hpos]

theorem two_pow_lt_finiteBound : 2 ^ 1023 < finiteBound ∧ finiteBound < 2 ^ 1024 := by
  decide +kernel

theorem nearestMagnitude_lt_infinite_iff {num den : Nat} (hden : 0 < den) :
    nearestMagnitude num den < infinite ↔ num < den * finiteBound := by
  have hsmall : den * 2 ^ 1023 < den * finiteBound :=
    Nat.mul_lt_mul_of_pos_left two_pow_lt_finiteBound.1 hden
  have hgreat : den * finiteBound < den * 2 ^ 1024 :=
    Nat.mul_lt_mul_of_pos_left two_pow_lt_finiteBound.2 hden
  rw [nearestMagnitude_eq, infinite, exponentWeight_eq]
  simp only [shiftOf]
  generalize hlength : bitLength (num * unitsPerOne / den) = length
  have hhalf : halfEven (num * unitsPerOne) (den * 2 ^ (length - 53)) ≤ 2 ^ 53 :=
    halfEven_shift_le (bitLength_le_iff.mp (by omega))
  rcases Nat.lt_trichotomy length 2098 with hlt | heq | hgt
  · have hunits : bitLength (num * unitsPerOne / den) ≤ 1023 + 1074 := by omega
    have hnum := (units_div_lt_iff hden).mp (bitLength_le_iff.mp hunits)
    generalize den * 2 ^ 1023 = small at hsmall hnum
    omega
  · subst heq
    have hreach : _ ↔ den * finiteBound ≤ num := le_halfEven_finite_iff hden
    simp only [Nat.reduceSub] at hhalf ⊢
    omega
  · have hhalf : 2 ^ 52 ≤ halfEven (num * unitsPerOne) (den * 2 ^ (length - 53)) :=
      two_pow_le_halfEven_shift (lt_bitLength_iff.mp (by omega))
    have hunits : 1024 + 1074 < bitLength (num * unitsPerOne / den) := by omega
    have hnum := mt (units_div_lt_iff hden).mpr (Nat.not_lt.mpr (lt_bitLength_iff.mp hunits))
    generalize den * 2 ^ 1024 = great at hgreat hnum
    omega

end SmallLang.Number
