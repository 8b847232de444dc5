import SmallLang.Proofs.Number.Nearest

/-! The fractions that are rounded to a number lie without gaps around it and below the next power
of two. What is near enough to the number is among them. -/

namespace SmallLang.Number

def RoundsTo (q : Rat) (x : Number) : Prop :=
  ∃ num den : Nat, 0 < den ∧ q = num / den ∧ ofRatio? false num den = some x

theorem halfEven_mul_right {num den c : Nat} (hc : 0 < c) :
    halfEven (num * c) (den * c) = halfEven num den := by
  have hdouble : 2 * (num % den * c) = 2 * (num % den) * c := (Nat.mul_assoc _ _ _).symm
  simp only [halfEven, Nat.mul_div_mul_right _ _ hc, Nat.mul_mod_mul_right, hdouble,
    Nat.mul_lt_mul_right hc, Nat.mul_left_inj hc.ne']

theorem nearestMagnitude_mul_right {num den c : Nat} (hc : 0 < c) :
    nearestMagnitude (num * c) (den * c) = nearestMagnitude num den := by
  have hshift : shiftOf (num * c) (den * c) = shiftOf num den := by
    rw [shiftOf, shiftOf, Nat.mul_right_comm, Nat.mul_div_mul_right _ _ hc]
  rw [nearestMagnitude_eq, nearestMagnitude_eq, hshift, Nat.mul_right_comm num,
    Nat.mul_right_comm den, halfEven_mul_right hc]

/-- Rounding depends on the value of a fraction only. -/
theorem roundsTo_iff {num den : Nat} {x : Number} (hden : 0 < den) :
    RoundsTo (num / den) x ↔ ofRatio? false num den = some x := by
  constructor
  · rintro ⟨num', den', hden', heq, h⟩
    have hpos : (den : Rat) ≠ 0 := Nat.cast_ne_zero.mpr hden.ne'
    have hpos' : (den' : Rat) ≠ 0 := Nat.cast_ne_zero.mpr hden'.ne'
    have hcross : num * den' = num' * den := by
      rw [div_eq_div_iff hpos hpos'] at heq
      exact_mod_cast heq
    rw [ofRatio?, ← nearestMagnitude_mul_right hden', hcross, Nat.mul_comm den,
      nearestMagnitude_mul_right hden]
    exact h
  · exact fun h => ⟨num, den, hden, rfl, h⟩

theorem RoundsTo.unique {q : Rat} {x y : Number} (hx : RoundsTo q x) (hy : RoundsTo q y) :
    x = y := by
  obtain ⟨num, den, hden, rfl, h⟩ := hx
  exact Option.some.inj (h.symm.trans ((roundsTo_iff hden).mp hy))

theorem exists_roundsTo_iff {q : Rat} : (∃ x, RoundsTo q x) ↔ 0 ≤ q ∧ q < finiteBound := by
  constructor
  · rintro ⟨x, num, den, hden, rfl, h⟩
    have hpos : (0 : Rat) < den := Nat.cast_pos.mpr hden
    obtain ⟨hfinite, -⟩ := ofRatio?_eq_some_iff.mp h
    rw [nearestMagnitude_lt_infinite_iff hden] at hfinite
    refine ⟨div_nonneg (Nat.cast_nonneg _) hpos.le, ?_⟩
    rw [div_lt_iff₀' hpos]
    exact_mod_cast hfinite
  · rintro ⟨hnonneg, hlt⟩
    have hnum : ((q.num.toNat : Nat) : Rat) / q.den = q := by
      have hcast : ((q.num.toNat : Nat) : Int) = q.num :=
        Int.toNat_of_nonneg (Rat.num_nonneg.mpr hnonneg)
      rw [← Int.cast_natCast, hcast, Rat.num_div_den]
    have hpos : (0 : Rat) < q.den := Nat.cast_pos.mpr q.den_pos
    have hbound : q.num.toNat < q.den * finiteBound := by
      rw [← hnum, div_lt_iff₀' hpos] at hlt
      exact_mod_cast hlt
    rw [← nearestMagnitude_lt_infinite_iff q.den_pos] at hbound
    rw [← hnum]
    exact ⟨_, (roundsTo_iff q.den_pos).mpr (ofRatio?_eq_some_iff.mpr ⟨hbound, rfl⟩)⟩

theorem RoundsTo.nearest {q : Rat} {x : Number} (h : RoundsTo q x) (y : Number) :
    |q - x.size| ≤ |q - y.size| := by
  obtain ⟨num, den, hden, rfl, h⟩ := h
  exact (size_nearest hden h y).1

theorem RoundsTo.isFinite {q : Rat} {x : Number} (h : RoundsTo q x) :
    x.isFinite = true ∧ x.isNegative = false := by
  obtain ⟨num, den, hden, rfl, h⟩ := h
  exact ofRatio?_isFinite h

theorem roundsTo_size {x : Number} (hx : x.isFinite = true) (hsign : x.isNegative = false) :
    RoundsTo x.size x := by
  rw [size, roundsTo_iff unitsPerOne_pos, ofRatio?_of_units unitsPerOne_pos (Nat.mul_comm _ _) hx,
    abs_eq hsign]

theorem RoundsTo.eq_of_size {p q : Rat} {x y : Number} (hx : RoundsTo p x) (hy : RoundsTo q y)
    (h : x.size = y.size) : x = y := by
  have hxsize := roundsTo_size hx.isFinite.1 hx.isFinite.2
  rw [h] at hxsize
  exact hxsize.unique (roundsTo_size hy.isFinite.1 hy.isFinite.2)

/-- What lies between a number and a fraction that is rounded to it is rounded to it. -/
theorem RoundsTo.between {p q : Rat} {x : Number} (h : RoundsTo p x)
    (hq : p ≤ q ∧ q ≤ x.size ∨ x.size ≤ q ∧ q ≤ p) : RoundsTo q x := by
  have hself := roundsTo_size h.isFinite.1 h.isFinite.2
  obtain ⟨hplow, hphigh⟩ := exists_roundsTo_iff.mp ⟨x, h⟩
  obtain ⟨hxlow, hxhigh⟩ := exists_roundsTo_iff.mp ⟨x, hself⟩
  obtain ⟨y, hy⟩ : ∃ y, RoundsTo q y := by
    refine exists_roundsTo_iff.mpr ?_
    rcases hq with ⟨h1, h2⟩ | ⟨h1, h2⟩
    · exact ⟨hplow.trans h1, h2.trans_lt hxhigh⟩
    · exact ⟨hxlow.trans h1, h2.trans_lt hphigh⟩
  by_cases hne : p = q
  · exact hne ▸ h
  have hpx := h.nearest y
  have hqy := hy.nearest x
  have hsize : y.size = x.size := by
    rcases hq with ⟨h1, h2⟩ | ⟨h1, h2⟩
    · have hlt : p < q := lt_of_le_of_ne h1 hne
      rw [abs_sub_comm q x.size, abs_of_nonneg (sub_nonneg.mpr h2), abs_sub_le_iff] at hqy
      rw [abs_sub_comm p x.size, abs_of_nonneg (sub_nonneg.mpr (h1.trans h2)), le_abs] at hpx
      rcases hpx with hpx | hpx <;> linarith
    · have hlt : q < p := lt_of_le_of_ne h2 (Ne.symm hne)
      rw [abs_of_nonneg (sub_nonneg.mpr h1), abs_sub_le_iff] at hqy
      rw [abs_of_nonneg (sub_nonneg.mpr (h1.trans h2)), le_abs] at hpx
      rcases hpx with hpx | hpx <;> linarith
  exact hy.eq_of_size hself hsize ▸ hy

theorem natCast_unitsPerOne : (unitsPerOne : Rat) = 2 ^ (1074 : Int) := by
  rw [unitsPerOne_eq, Nat.cast_pow, Nat.cast_ofNat, ← zpow_natCast, Nat.cast_ofNat]

theorem size_lt_two_zpow (x : Number) : x.size < 2 ^ ((bitLength x.units : Int) - 1074) := by
  have hlt : (x.units : Rat) < 2 ^ (bitLength x.units : Int) := by
    rw [zpow_natCast]
    exact_mod_cast bitLength_le_iff.mp (Nat.le_refl (bitLength x.units))
  rw [size, natCast_unitsPerOne, zpow_sub₀ two_ne_zero]
  exact div_lt_div_of_pos_right hlt (by positivity)

theorem RoundsTo.eq_zero {x : Number} (h : RoundsTo 0 x) : x = zero := by
  have hzero : RoundsTo zero.size zero := roundsTo_size rfl rfl
  rw [size_zero] at hzero
  exact h.unique hzero

theorem two_pow_roundsTo {k : Nat} (hk : k < 1024 + 1074) :
    ∃ x : Number, x.size = 2 ^ ((k : Int) - 1074) ∧ RoundsTo x.size x := by
  have hlength : bitLength (1 * 2 ^ k) ≤ 1024 + 1074 :=
    Nat.le_trans (bitLength_mul_two_pow_le 1 k) (by rw [show bitLength 1 = 1 by decide]; omega)
  obtain ⟨x, hfinite, hunits⟩ :=
    ((fitsSignificand_of_le (Nat.one_le_two_pow)).mul_two_pow k).exists_units hlength
  have hsize : x.abs.size = 2 ^ ((k : Int) - 1074) := by
    rw [size, units_eq_of_magnitude x.magnitude_abs, hunits, natCast_unitsPerOne,
      zpow_sub₀ two_ne_zero, Nat.one_mul, Nat.cast_pow, Nat.cast_ofNat, zpow_natCast]
  exact ⟨x.abs, hsize, roundsTo_size (x.isFinite_abs.trans hfinite) x.isNegative_abs⟩

theorem RoundsTo.bitLength_units_le {q : Rat} {x : Number} (h : RoundsTo q x) :
    bitLength x.units ≤ 1024 + 1074 := by
  have hlt := (exists_roundsTo_iff.mp ⟨x, roundsTo_size h.isFinite.1 h.isFinite.2⟩).2
  rw [size, div_lt_iff₀ (Nat.cast_pos.mpr unitsPerOne_pos)] at hlt
  have hunits : x.units < finiteBound * unitsPerOne := by exact_mod_cast hlt
  have hsplit (k : Nat) : 2 ^ (k + 1074) = 2 ^ k * unitsPerOne := by
    rw [unitsPerOne_eq, pow_add]
  rw [bitLength_le_iff, hsplit]
  exact hunits.trans_le (Nat.mul_le_mul_right _ two_pow_lt_finiteBound.2.le)

/-- What is rounded to a number is in the same binade, or below it. -/
theorem RoundsTo.lt_two_zpow {q : Rat} {x : Number} (h : RoundsTo q x) :
    q < 2 ^ ((bitLength x.units : Int) - 1074) := by
  by_contra hge
  have hlt := x.size_lt_two_zpow
  have hpower : RoundsTo (2 ^ ((bitLength x.units : Int) - 1074)) x :=
    h.between (.inr ⟨hlt.le, not_lt.mp hge⟩)
  rcases Nat.lt_or_eq_of_le h.bitLength_units_le with hlength | hlength
  · obtain ⟨y, hsize, hy⟩ := two_pow_roundsTo hlength
    obtain rfl : x = y := hpower.unique (hsize ▸ hy)
    exact hlt.ne hsize
  · have hbound := (exists_roundsTo_iff.mp ⟨x, hpower⟩).2
    have hcast : ((1024 + 1074 : Nat) : Int) - 1074 = (1024 : Nat) := rfl
    rw [hlength, hcast, zpow_natCast] at hbound
    have hnat : 2 ^ 1024 < finiteBound := by exact_mod_cast hbound
    exact hnat.not_gt two_pow_lt_finiteBound.2

theorem FitsSignificand.eq_of_near {m n : Nat} (hm : FitsSignificand m) (hn : FitsSignificand n)
    (hlow : n < m + 2 ^ (bitLength n - 54)) (hhigh : m < n + 2 ^ (bitLength n - 54)) : m = n := by
  obtain ⟨b, hb⟩ : 2 ^ (bitLength n - 54) ∣ n := Nat.dvd_trans (Nat.pow_dvd_pow 2 (by omega)) hn.dvd
  have hmdvd : 2 ^ (bitLength n - 54) ∣ m := by
    rcases hm.dvd_or_lt (bitLength n - 54) with hdvd | hlt
    · exact hdvd
    rcases Nat.eq_zero_or_pos (bitLength n - 54) with hzero | hpos
    · exact hzero ▸ Nat.one_dvd m
    · -- the first bit of `n` stands above `m`
      have hfirst : 2 ^ (bitLength n - 1) ≤ n := lt_bitLength_iff.mp (by omega)
      have hdouble : 2 ^ (bitLength n - 1) = 2 * 2 ^ (bitLength n - 54 + 52) := by
        rw [← Nat.pow_succ']
        exact congrArg (2 ^ ·) (by omega)
      have hshift : 2 ^ (bitLength n - 54) ≤ 2 ^ (bitLength n - 54 + 52) :=
        Nat.pow_le_pow_right (by decide) (by omega)
      omega
  obtain ⟨a, rfl⟩ := hmdvd
  generalize 2 ^ (bitLength n - 54) = step at *
  subst hb
  rw [← Nat.mul_succ] at hlow hhigh
  have hba := Nat.lt_of_mul_lt_mul_left hlow
  have hab := Nat.lt_of_mul_lt_mul_left hhigh
  rw [show a = b by omega]

theorem eq_of_abs_sub_size_lt {x y : Number}
    (h : |y.size - x.size| < 2 ^ (((bitLength x.units - 54 : Nat) : Int) - 1074)) :
    y.units = x.units := by
  have hone : (0 : Rat) < unitsPerOne := Nat.cast_pos.mpr unitsPerOne_pos
  rw [zpow_sub₀ two_ne_zero, ← natCast_unitsPerOne, size, size, ← sub_div, abs_div,
    abs_of_pos hone, div_lt_div_iff_of_pos_right hone, zpow_natCast, abs_sub_lt_iff] at h
  obtain ⟨hhigh, hlow⟩ := h
  refine y.fitsSignificand_units.eq_of_near x.fitsSignificand_units ?_ ?_
  · have hcast := sub_lt_iff_lt_add'.mp hlow
    exact_mod_cast hcast
  · have hcast := sub_lt_iff_lt_add'.mp hhigh
    exact_mod_cast hcast

/-- What is nearer to a number than half the distance to the next one is rounded to it. -/
theorem roundsTo_of_near {x : Number} (hx : x.isFinite = true) (hsign : x.isNegative = false)
    {q : Rat} (hnonneg : 0 ≤ q) (hle : q ≤ x.size)
    (hnear : x.size - q < 2 ^ (((bitLength x.units - 54 : Nat) : Int) - 1075)) :
    RoundsTo q x := by
  have hself := roundsTo_size hx hsign
  obtain ⟨y, hy⟩ : ∃ y, RoundsTo q y :=
    exists_roundsTo_iff.mpr ⟨hnonneg, hle.trans_lt (exists_roundsTo_iff.mp ⟨x, hself⟩).2⟩
  have hgap : |y.size - x.size| < 2 ^ (((bitLength x.units - 54 : Nat) : Int) - 1074) := by
    have hdouble : (2 : Rat) ^ (((bitLength x.units - 54 : Nat) : Int) - 1074) =
        2 ^ (((bitLength x.units - 54 : Nat) : Int) - 1075) * 2 := by
      rw [← zpow_add_one₀ two_ne_zero]
      congr 1
      omega
    have hqx : |q - x.size| = x.size - q := by
      rw [abs_sub_comm, abs_of_nonneg (sub_nonneg.mpr hle)]
    have hqy := hy.nearest x
    have htriangle := abs_sub_le y.size q x.size
    rw [abs_sub_comm] at hqy
    rw [hdouble]
    linarith
  have hsize : y.size = x.size := by rw [size, size, eq_of_abs_sub_size_lt hgap]
  exact hy.eq_of_size hself hsize ▸ hy

end SmallLang.Number
