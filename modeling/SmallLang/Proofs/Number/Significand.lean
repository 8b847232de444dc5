import Mathlib.Data.Rat.Floor
import SmallLang.Proofs.Number.Exact

/-! Which integers are numbers: those that have at most 53 bits from the first one to the last one,
up to the greatest number. -/

namespace SmallLang.Number

def FitsSignificand (n : Nat) : Prop := ∃ q e, q < 2 ^ 53 ∧ n = q * 2 ^ e

theorem fitsSignificand_units (x : Number) : FitsSignificand x.units := by
  have hfraction : x.magnitude % exponentWeight < 2 ^ 52 := Nat.mod_lt _ (Nat.two_pow_pos 52)
  rw [units]
  split
  · exact ⟨_, 0, Nat.lt_trans hfraction (by decide), (Nat.mul_one _).symm⟩
  · refine ⟨_, _, ?_, rfl⟩
    rw [exponentWeight_eq] at hfraction ⊢
    omega

theorem fitsSignificand_of_le {n : Nat} (h : n ≤ 2 ^ 53) : FitsSignificand n := by
  rcases Nat.lt_or_eq_of_le h with hlt | rfl
  · exact ⟨n, 0, hlt, (Nat.mul_one n).symm⟩
  · exact ⟨1, 53, by decide, (Nat.one_mul _).symm⟩

namespace FitsSignificand

variable {n : Nat}

theorem mul_two_pow (h : FitsSignificand n) (k : Nat) : FitsSignificand (n * 2 ^ k) := by
  obtain ⟨q, e, hq, rfl⟩ := h
  exact ⟨q, e + k, hq, by rw [Nat.mul_assoc, ← Nat.pow_add]⟩

theorem div_two_pow (h : FitsSignificand n) (k : Nat) : FitsSignificand (n / 2 ^ k) := by
  obtain ⟨q, e, hq, rfl⟩ := h
  rcases Nat.le_total k e with hle | hle
  · obtain ⟨d, rfl⟩ := Nat.exists_eq_add_of_le hle
    refine ⟨q, d, hq, ?_⟩
    rw [Nat.pow_add, Nat.mul_left_comm, Nat.mul_div_cancel_left _ (Nat.two_pow_pos k)]
  · obtain ⟨d, rfl⟩ := Nat.exists_eq_add_of_le hle
    refine ⟨q / 2 ^ d, 0, Nat.lt_of_le_of_lt (Nat.div_le_self _ _) hq, ?_⟩
    rw [Nat.pow_add, Nat.mul_comm, Nat.mul_div_mul_left _ _ (Nat.two_pow_pos e), Nat.pow_zero,
      Nat.mul_one]

/-- The bits behind the first 53 are zero. -/
theorem dvd (h : FitsSignificand n) : 2 ^ (bitLength n - 53) ∣ n := by
  obtain ⟨q, e, hq, rfl⟩ := h
  have hlt : q * 2 ^ e < 2 ^ (53 + e) := by
    rw [Nat.pow_add]
    exact Nat.mul_lt_mul_of_pos_right hq (Nat.two_pow_pos e)
  have hlength : bitLength (q * 2 ^ e) ≤ 53 + e := bitLength_le_iff.mpr hlt
  exact Nat.dvd_trans (Nat.pow_dvd_pow 2 (by omega)) (Nat.dvd_mul_left _ _)

end FitsSignificand

/-- A magnitude as a significand and a number of shifts. -/
theorem units_ofMagnitude {q s : Nat} (hq : q < 2 ^ 53) (hs : s = 0 ∨ 2 ^ 52 ≤ q)
    (hlt : s * exponentWeight + q < signWeight) (negative : Bool) :
    (ofMagnitude negative (s * exponentWeight + q)).units = q * 2 ^ s := by
  rw [units, magnitude_ofMagnitude hlt, exponentWeight_eq]
  rcases Nat.lt_or_ge q (2 ^ 52) with hsmall | hgreat
  · obtain rfl : s = 0 := hs.resolve_right (Nat.not_le.mpr hsmall)
    rw [Nat.zero_mul, Nat.zero_add, Nat.div_eq_of_lt hsmall, Nat.mod_eq_of_lt hsmall, if_pos rfl,
      Nat.pow_zero, Nat.mul_one]
  · have hexponent : (s * 2 ^ 52 + q) / 2 ^ 52 = s + 1 := by omega
    have hfraction : 2 ^ 52 + (s * 2 ^ 52 + q) % 2 ^ 52 = q := by omega
    rw [hexponent, if_neg (Nat.succ_ne_zero s), hfraction]
    rfl

theorem bitLength_mul_two_pow_le (n k : Nat) : bitLength (n * 2 ^ k) ≤ bitLength n + k := by
  rw [bitLength_le_iff, Nat.pow_add]
  exact Nat.mul_lt_mul_of_pos_right (bitLength_le_iff.mp (Nat.le_refl _)) (Nat.two_pow_pos k)

theorem FitsSignificand.exists_units {n : Nat} (h : FitsSignificand n)
    (hlength : bitLength n ≤ 1024 + 1074) : ∃ x : Number, x.isFinite = true ∧ x.units = n := by
  obtain ⟨q, hq⟩ := h.dvd
  have hlow : bitLength n = 0 ∨ 2 ^ (bitLength n - 1) ≤ n := by
    rcases Nat.eq_zero_or_pos (bitLength n) with hzero | hpos
    · exact .inl hzero
    · exact .inr (lt_bitLength_iff.mp (by omega))
  have hhigh : n < 2 ^ bitLength n := bitLength_le_iff.mp (Nat.le_refl _)
  generalize bitLength n = length at *
  have hupper : q < 2 ^ 53 := by
    refine Nat.lt_of_mul_lt_mul_left (a := 2 ^ (length - 53)) ?_
    rw [← hq, ← Nat.pow_add]
    exact Nat.lt_of_lt_of_le hhigh (Nat.pow_le_pow_right (by decide) (by omega))
  have hlower : length - 53 = 0 ∨ 2 ^ 52 ≤ q := by
    rcases Nat.eq_zero_or_pos (length - 53) with hzero | hpos
    · exact .inl hzero
    · refine .inr (Nat.le_of_mul_le_mul_left ?_ (Nat.two_pow_pos (length - 53)))
      rw [← hq, ← Nat.pow_add, show length - 53 + 52 = length - 1 by omega]
      exact hlow.resolve_left (by omega)
  have hmagnitude : (length - 53) * exponentWeight + q < infinite := by
    rw [infinite, exponentWeight_eq]
    omega
  have hsign : (length - 53) * exponentWeight + q < signWeight :=
    Nat.lt_trans hmagnitude (by decide)
  refine ⟨ofMagnitude false ((length - 53) * exponentWeight + q), ?_, ?_⟩
  · rw [isFinite, magnitude_ofMagnitude hsign]
    exact decide_eq_true hmagnitude
  · rw [units_ofMagnitude hupper hlower hsign, hq, Nat.mul_comm]

/-- The absolute value of a finite number. -/
def size (x : Number) : Rat := x.units / unitsPerOne

/-- The rational number that a finite number is. -/
def toRat (x : Number) : Rat := if x.isNegative then -x.size else x.size

/-- The number is the integer `i`, and its zero has no sign. -/
structure IsExactly (x : Number) (i : Int) : Prop where
  isFinite : x.isFinite = true
  toRat : x.toRat = i
  isNegative : x.isNegative = decide (i < 0)

/-- A rational number without its fraction. -/
def truncation (q : Rat) : Int := if 0 ≤ q then ⌊q⌋ else ⌈q⌉

theorem truncation_natCast_div (n d : Nat) : truncation (n / d) = (n / d : Nat) := by
  have hfloor : ⌊(n / d : Rat)⌋ = (n / d : Nat) := Rat.floor_natCast_div_natCast n d
  have hnonneg : (0 : Rat) ≤ n / d := by positivity
  rw [truncation, if_pos hnonneg, hfloor]

theorem truncation_neg_natCast_div (n d : Nat) : truncation (-(n / d)) = -(n / d : Nat) := by
  have hfloor : ⌊(n / d : Rat)⌋ = (n / d : Nat) := Rat.floor_natCast_div_natCast n d
  have hnonneg : (0 : Rat) ≤ n / d := by positivity
  rw [truncation]
  split
  · rename_i hneg
    have hzero : (n / d : Rat) = 0 := le_antisymm (neg_nonneg.mp hneg) hnonneg
    rw [hzero, Int.floor_zero] at hfloor
    rw [hzero, neg_zero, Int.floor_zero, ← hfloor, neg_zero]
  · rw [Int.ceil_neg, hfloor]

theorem toInt_eq_truncation (x : Number) : x.toInt = truncation x.toRat := by
  rw [toInt, toRat]
  cases x.isNegative with
  | false => exact (truncation_natCast_div _ _).symm
  | true => exact (truncation_neg_natCast_div _ _).symm

theorem toInt_within {x : Number} {n : Int} (h : -(n : Rat) ≤ x.toRat ∧ x.toRat < n) :
    -n ≤ x.toInt ∧ x.toInt < n := by
  obtain ⟨hlow, hhigh⟩ := h
  rw [toInt_eq_truncation, truncation]
  split
  · rename_i hnonneg
    have hpos : 0 < n := by exact_mod_cast hnonneg.trans_lt hhigh
    exact ⟨(neg_nonpos.mpr hpos.le).trans (Int.floor_nonneg.mpr hnonneg), Int.floor_lt.mpr hhigh⟩
  · rename_i hneg
    have hpos : 0 < n := by exact_mod_cast neg_lt_zero.mp (hlow.trans_lt (not_le.mp hneg))
    refine ⟨?_, (Int.ceil_le.mpr ?_).trans_lt hpos⟩
    · exact_mod_cast hlow.trans (Int.le_ceil _)
    · exact_mod_cast (not_le.mp hneg).le

theorem natAbs_toInt (x : Number) : x.toInt.natAbs = x.units / unitsPerOne := by
  rw [toInt]
  split
  · rw [Int.natAbs_neg, Int.natAbs_natCast]
  · exact Int.natAbs_natCast _

theorem fitsSignificand_toInt (x : Number) : FitsSignificand x.toInt.natAbs := by
  rw [natAbs_toInt, unitsPerOne_eq]
  exact x.fitsSignificand_units.div_two_pow 1074

theorem units_eq_of_magnitude {x y : Number} (h : x.magnitude = y.magnitude) :
    x.units = y.units := by
  rw [units, units, h]

theorem isExactly_ofInt {i : Int} (h : FitsSignificand i.natAbs)
    (hlength : bitLength i.natAbs ≤ 1024) : (ofInt i).IsExactly i := by
  obtain ⟨x, hfinite, hunits⟩ := (h.mul_two_pow 1074).exists_units
    (Nat.le_trans (bitLength_mul_two_pow_le _ _) (Nat.add_le_add_right hlength 1074))
  rw [← unitsPerOne_eq] at hunits
  have hnearest : nearestMagnitude i.natAbs 1 = x.magnitude :=
    nearestMagnitude_of_units Nat.one_pos (by rw [hunits, Nat.one_mul])
  have hx : x.magnitude < infinite := by simpa [Number.isFinite] using hfinite
  have heq : ofInt i = ofMagnitude (i < 0) x.magnitude := by
    rw [ofInt, ofRatio, ofRatio?, hnearest, if_pos hx]
    rfl
  have hmagnitude : (ofInt i).magnitude = x.magnitude := by
    rw [heq, magnitude_ofMagnitude x.magnitude_lt]
  have hsign : (ofInt i).isNegative = decide (i < 0) := by
    rw [heq, isNegative_ofMagnitude x.magnitude_lt]
  refine ⟨?_, ?_, hsign⟩
  · rw [Number.isFinite, hmagnitude]
    exact decide_eq_true hx
  · have hone : (unitsPerOne : Rat) ≠ 0 := Nat.cast_ne_zero.mpr unitsPerOne_pos.ne'
    have hsize : (ofInt i).size = |(i : Rat)| := by
      rw [size, units_eq_of_magnitude hmagnitude, hunits, Nat.cast_mul,
        mul_div_cancel_right₀ _ hone, Nat.cast_natAbs, Int.cast_abs]
    rw [Number.toRat, hsize, hsign]
    rcases lt_or_ge i 0 with hneg | hnonneg
    · have hcast : (i : Rat) < 0 := Int.cast_lt_zero.mpr hneg
      simp [hneg, abs_of_neg hcast]
    · have hcast : (0 : Rat) ≤ i := Int.cast_nonneg hnonneg
      simp [hnonneg.not_gt, abs_of_nonneg hcast]

end SmallLang.Number
