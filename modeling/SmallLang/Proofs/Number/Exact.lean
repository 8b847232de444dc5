import SmallLang.Proofs.Number.Rounding

/-! Numbers by sign and magnitude. A fraction that is the absolute value of a finite number is
rounded to its magnitude. -/

namespace SmallLang.Number

theorem signWeight_eq : signWeight = 2 ^ 63 := rfl

theorem magnitude_lt (x : Number) : x.magnitude < signWeight := Nat.mod_lt _ (by decide)

theorem isNegative_iff (x : Number) : x.isNegative = true ↔ x.bits.toNat / 2 ^ 63 = 1 := by
  have hbits := x.bits.toNat_lt
  rw [isNegative, decide_eq_true_iff, signWeight_eq]
  omega

theorem ext_magnitude {x y : Number} (hsign : x.isNegative = y.isNegative)
    (hmagnitude : x.magnitude = y.magnitude) : x = y := by
  have hx := x.bits.toNat_lt
  have hy := y.bits.toNat_lt
  rw [Bool.eq_iff_iff, isNegative_iff, isNegative_iff] at hsign
  simp only [magnitude, signWeight_eq] at hmagnitude
  have hbits : x.bits = y.bits := by
    rw [← UInt64.toNat_inj]
    omega
  cases x
  cases y
  exact congrArg mk hbits

theorem bits_ofMagnitude {m : Nat} (hm : m < signWeight) (negative : Bool) :
    (ofMagnitude negative m).bits.toNat = if negative then signWeight + m else m := by
  rw [signWeight_eq] at hm ⊢
  simp only [ofMagnitude, signWeight_eq, Nat.toUInt64, UInt64.toNat_ofNat']
  split <;> omega

theorem magnitude_ofMagnitude {m : Nat} (hm : m < signWeight) (negative : Bool) :
    (ofMagnitude negative m).magnitude = m := by
  rw [magnitude, bits_ofMagnitude hm]
  rw [signWeight_eq] at hm ⊢
  split <;> omega

theorem isNegative_ofMagnitude {m : Nat} (hm : m < signWeight) (negative : Bool) :
    (ofMagnitude negative m).isNegative = negative := by
  rw [isNegative, bits_ofMagnitude hm]
  cases negative
  · simpa using hm
  · simp

theorem magnitude_negate (x : Number) : x.negate.magnitude = x.magnitude := by
  have hweight : (0x8000000000000000 : UInt64).toNat = 2 ^ 63 := rfl
  rw [magnitude, negate, UInt64.toNat_xor, hweight, signWeight_eq, Nat.xor_mod_two_pow,
    Nat.mod_self, Nat.xor_zero]
  rfl

theorem isNegative_negate (x : Number) : x.negate.isNegative = !x.isNegative := by
  have hbits := x.bits.toNat_lt
  have hweight : (0x8000000000000000 : UInt64).toNat = 2 ^ 63 := rfl
  have hnegate : x.negate.bits.toNat / 2 ^ 63 = (x.bits.toNat / 2 ^ 63) ^^^ 1 := by
    rw [negate, UInt64.toNat_xor, hweight, Nat.xor_div_two_pow]
    rfl
  have hbound : x.bits.toNat / 2 ^ 63 = 0 ∨ x.bits.toNat / 2 ^ 63 = 1 := by omega
  rw [Bool.eq_iff_iff, isNegative_iff, hnegate, Bool.not_eq_true', ← Bool.not_eq_true,
    isNegative_iff]
  rcases hbound with h | h
  · rw [h]
    decide
  · rw [h]
    decide

theorem magnitude_abs (x : Number) : x.abs.magnitude = x.magnitude :=
  magnitude_ofMagnitude x.magnitude_lt false

theorem isNegative_abs (x : Number) : x.abs.isNegative = false :=
  isNegative_ofMagnitude x.magnitude_lt false

theorem abs_eq {x : Number} (h : x.isNegative = false) : x.abs = x :=
  ext_magnitude (x.isNegative_abs.trans h.symm) x.magnitude_abs

theorem negate_abs {x : Number} (h : x.isNegative = true) : x.abs.negate = x :=
  ext_magnitude (by rw [isNegative_negate, isNegative_abs, h]; rfl)
    (by rw [magnitude_negate, magnitude_abs])

theorem isFinite_negate (x : Number) : x.negate.isFinite = x.isFinite := by
  rw [isFinite, isFinite, magnitude_negate]

theorem isFinite_abs (x : Number) : x.abs.isFinite = x.isFinite := by
  rw [isFinite, isFinite, magnitude_abs]

theorem halfEven_mul {d q : Nat} (hd : 0 < d) : halfEven (d * q) d = q := by
  simp [halfEven, hd]

theorem bitLength_significand {f e : Nat} (hf : f < 2 ^ 52) :
    bitLength ((2 ^ 52 + f) * 2 ^ e) = e + 53 := by
  have hlow : 2 ^ (e + 52) ≤ (2 ^ 52 + f) * 2 ^ e := by
    rw [pow_add, Nat.mul_comm]
    exact Nat.mul_le_mul_right _ (Nat.le_add_right _ _)
  have hhigh : (2 ^ 52 + f) * 2 ^ e < 2 ^ (e + 53) := by
    rw [pow_add, Nat.mul_comm (2 ^ e)]
    exact Nat.mul_lt_mul_of_pos_right (by omega) (Nat.two_pow_pos e)
  exact Nat.le_antisymm (bitLength_le_iff.mpr hhigh) (lt_bitLength_iff.mpr hlow)

theorem nearestMagnitude_of_units {x : Number} {num den : Nat} (hden : 0 < den)
    (hunits : num * unitsPerOne = den * x.units) : nearestMagnitude num den = x.magnitude := by
  have hsplit := Nat.div_add_mod x.magnitude exponentWeight
  have hfraction : x.magnitude % exponentWeight < 2 ^ 52 := Nat.mod_lt _ (Nat.two_pow_pos 52)
  rw [nearestMagnitude_eq, shiftOf, hunits, Nat.mul_div_cancel_left _ hden]
  by_cases hexponent : x.magnitude / exponentWeight = 0
  · have heq : x.units = x.magnitude % exponentWeight := by simp [units, hexponent]
    have hlength : bitLength x.units ≤ 53 := bitLength_le_iff.mpr (by omega)
    rw [Nat.sub_eq_zero_of_le hlength, Nat.pow_zero, Nat.mul_one, halfEven_mul hden]
    rw [hexponent] at hsplit
    omega
  · obtain ⟨e, he⟩ := Nat.exists_eq_succ_of_ne_zero hexponent
    have heq : x.units = (2 ^ 52 + x.magnitude % exponentWeight) * 2 ^ e := by
      simp only [units, he]
      rfl
    rw [heq, bitLength_significand hfraction, Nat.add_sub_cancel, Nat.mul_comm _ (2 ^ e),
      ← Nat.mul_assoc, halfEven_mul (Nat.mul_pos hden (Nat.two_pow_pos e))]
    rw [he, exponentWeight_eq] at hsplit
    rw [exponentWeight_eq]
    omega

theorem ofRatio?_of_units {x : Number} {num den : Nat} (hden : 0 < den)
    (hunits : num * unitsPerOne = den * x.units) (hx : x.isFinite = true) :
    ofRatio? false num den = some x.abs := by
  have hlt : x.magnitude < infinite := by simpa [isFinite] using hx
  rw [ofRatio?, nearestMagnitude_of_units hden hunits, if_pos hlt]
  rfl

end SmallLang.Number
