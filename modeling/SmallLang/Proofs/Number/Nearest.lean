import Mathlib.Algebra.Order.Field.Power
import SmallLang.Proofs.Number.Literal
import SmallLang.Proofs.Number.Significand

/-! A fraction is rounded to the number nearest to it, and to the one with an even last bit if two
are equally near. So are the digits that are read. -/

namespace SmallLang.Number

theorem halfEven_bounds (num : Nat) {den : Nat} (hden : 0 < den) :
    2 * num ≤ 2 * (den * halfEven num den) + den ∧
    2 * (den * halfEven num den) ≤ 2 * num + den ∧
    (2 * num = 2 * (den * halfEven num den) + den ∨
      2 * (den * halfEven num den) = 2 * num + den → halfEven num den % 2 = 0) := by
  have hnum := Nat.div_add_mod num den
  have hrest := Nat.mod_lt num hden
  simp only [halfEven, Bool.or_eq_true, Bool.and_eq_true, decide_eq_true_eq]
  split
  · omega
  · rw [Nat.mul_succ]
    omega

theorem abs_sub_halfEven (num : Nat) {den : Nat} (hden : 0 < den) :
    |(num / den : Rat) - halfEven num den| ≤ 1 / 2 ∧
      (|(num / den : Rat) - halfEven num den| = 1 / 2 → halfEven num den % 2 = 0) := by
  obtain ⟨hlow, hhigh, heven⟩ := halfEven_bounds num hden
  have hpos : (0 : Rat) < den := Nat.cast_pos.mpr hden
  have hnum : (num / den : Rat) * den = num := div_mul_cancel₀ _ hpos.ne'
  generalize halfEven num den = h at *
  generalize (num / den : Rat) = t at *
  constructor
  · have hlow : (2 * num : Rat) ≤ 2 * (den * h) + den := by exact_mod_cast hlow
    have hhigh : (2 * (den * h) : Rat) ≤ 2 * num + den := by exact_mod_cast hhigh
    rw [abs_le]
    constructor <;> refine le_of_mul_le_mul_right ?_ hpos <;> linarith
  · intro heq
    refine heven ?_
    rcases eq_or_eq_neg_of_abs_eq heq with hup | hdown
    · left
      have hcast : (2 * num : Rat) = 2 * (den * h) + den := by
        rw [← hnum, sub_eq_iff_eq_add.mp hup]
        ring
      exact_mod_cast hcast
    · right
      have hcast : (2 * (den * h) : Rat) = 2 * num + den := by
        rw [← hnum, sub_eq_iff_eq_add.mp hdown]
        ring
      exact_mod_cast hcast

/-- Another integer is not nearer, and if it is as near the result is even. -/
theorem halfEven_nearest (num : Nat) {den k : Nat} (hden : 0 < den) (hk : k ≠ halfEven num den) :
    |(num / den : Rat) - halfEven num den| ≤ |(num / den : Rat) - k| ∧
      (|(num / den : Rat) - halfEven num den| = |(num / den : Rat) - k| →
        halfEven num den % 2 = 0) := by
  obtain ⟨hhalf, heven⟩ := abs_sub_halfEven num hden
  have hapart : (1 : Rat) ≤ |(k : Rat) - halfEven num den| := by
    have hint : (k : Int) - halfEven num den ≠ 0 := by omega
    exact_mod_cast Int.one_le_abs hint
  have htriangle := abs_sub_le (k : Rat) (num / den) (halfEven num den)
  rw [abs_sub_comm (k : Rat) (num / den)] at htriangle
  exact ⟨by linarith, fun heq => heven (by linarith)⟩

theorem abs_sub_halfEven_le (num : Nat) {den : Nat} (hden : 0 < den) (k : Nat) :
    |(num / den : Rat) - halfEven num den| ≤ |(num / den : Rat) - k| := by
  by_cases hk : k = halfEven num den
  · rw [hk]
  · exact (halfEven_nearest num hden hk).1

theorem FitsSignificand.dvd_or_lt {n : Nat} (h : FitsSignificand n) (s : Nat) :
    2 ^ s ∣ n ∨ n < 2 ^ (s + 52) := by
  rcases Nat.lt_or_ge (bitLength n) (s + 53) with hlt | hge
  · exact .inr (bitLength_le_iff.mp (by omega))
  · exact .inl (Nat.dvd_trans (Nat.pow_dvd_pow 2 (by omega)) h.dvd)

theorem units_nearestMagnitude {num den : Nat} (hfinite : nearestMagnitude num den < infinite)
    (negative : Bool) : (ofMagnitude negative (nearestMagnitude num den)).units =
      halfEven (num * unitsPerOne) (den * 2 ^ shiftOf num den) * 2 ^ shiftOf num den := by
  have hhigh : halfEven (num * unitsPerOne) (den * 2 ^ shiftOf num den) ≤ 2 ^ 53 :=
    halfEven_shift_le (bitLength_le_iff.mp (by rw [shiftOf]; omega))
  have hlow : shiftOf num den = 0 ∨
      2 ^ 52 ≤ halfEven (num * unitsPerOne) (den * 2 ^ shiftOf num den) := by
    rcases Nat.eq_zero_or_pos (shiftOf num den) with hzero | hpos
    · exact .inl hzero
    · refine .inr (two_pow_le_halfEven_shift (lt_bitLength_iff.mp ?_))
      rw [shiftOf] at hpos ⊢
      omega
  rw [nearestMagnitude_eq] at hfinite ⊢
  generalize halfEven (num * unitsPerOne) (den * 2 ^ shiftOf num den) = r at *
  generalize shiftOf num den = s at *
  have hsign : s * exponentWeight + r < signWeight := Nat.lt_trans hfinite (by decide)
  rcases Nat.lt_or_eq_of_le hhigh with hlt | rfl
  · exact units_ofMagnitude hlt hlow hsign negative
  · -- the significand ran over: the next shift takes it
    have hcarry : s * exponentWeight + 2 ^ 53 = (s + 1) * exponentWeight + 2 ^ 52 := by
      rw [exponentWeight_eq]
      omega
    rw [hcarry] at hsign ⊢
    rw [units_ofMagnitude (by decide) (.inr (Nat.le_refl _)) hsign, ← Nat.pow_add, ← Nat.pow_add]
    exact congrArg (2 ^ ·) (by omega)

theorem abs_sub_mul_two_pow (u den s k : Nat) :
    |(u / den : Rat) - (k * 2 ^ s : Nat)| = |(u / (den * 2 ^ s : Nat) : Rat) - k| * 2 ^ s := by
  have hshift : (0 : Rat) < 2 ^ s := by positivity
  have hmul : (u / den : Rat) - (k * 2 ^ s : Nat) =
      ((u / (den * 2 ^ s : Nat) : Rat) - k) * 2 ^ s := by
    push_cast
    rw [sub_mul, div_mul_eq_div_div, div_mul_cancel₀ _ hshift.ne']
  rw [hmul, abs_mul, abs_of_pos hshift]

theorem multiple_nearest (u : Nat) {den : Nat} (hden : 0 < den) (s k : Nat) :
    |(u / den : Rat) - (halfEven u (den * 2 ^ s) * 2 ^ s : Nat)| ≤
        |(u / den : Rat) - (k * 2 ^ s : Nat)| ∧
      (|(u / den : Rat) - (halfEven u (den * 2 ^ s) * 2 ^ s : Nat)| =
        |(u / den : Rat) - (k * 2 ^ s : Nat)| →
          k ≠ halfEven u (den * 2 ^ s) → halfEven u (den * 2 ^ s) % 2 = 0) := by
  have hshift : (0 : Rat) < 2 ^ s := by positivity
  have hpos : 0 < den * 2 ^ s := Nat.mul_pos hden (Nat.two_pow_pos s)
  rw [abs_sub_mul_two_pow, abs_sub_mul_two_pow]
  exact ⟨mul_le_mul_of_nonneg_right (abs_sub_halfEven_le u hpos k) hshift.le,
    fun heq hk => (halfEven_nearest u hpos hk).2 (mul_right_cancel₀ hshift.ne' heq)⟩

/-- Rounding to a multiple of `2 ^ s`, where at least 53 bits stand before the `s` last ones. -/
theorem shifted_nearest {u den s : Nat} (hden : 0 < den) (hs : s = 0 ∨ 2 ^ (s + 52) * den ≤ u)
    {n : Nat} (hn : FitsSignificand n) :
    |(u / den : Rat) - (halfEven u (den * 2 ^ s) * 2 ^ s : Nat)| ≤ |(u / den : Rat) - n| ∧
      (|(u / den : Rat) - (halfEven u (den * 2 ^ s) * 2 ^ s : Nat)| = |(u / den : Rat) - n| →
        n ≠ halfEven u (den * 2 ^ s) * 2 ^ s → halfEven u (den * 2 ^ s) % 2 = 0) := by
  have hmultiple := multiple_nearest u hden s
  generalize halfEven u (den * 2 ^ s) = r at *
  have hdvd : 2 ^ s ∣ n ∨ n < 2 ^ (s + 52) ∧ 2 ^ (s + 52) * den ≤ u := by
    rcases hs with rfl | hs
    · exact .inl (Nat.one_dvd n)
    · exact (hn.dvd_or_lt s).imp_right fun hlt => ⟨hlt, hs⟩
  rcases hdvd with ⟨k, rfl⟩ | ⟨hlt, hle⟩
  · obtain ⟨hnear, heven⟩ := hmultiple k
    rw [Nat.mul_comm (2 ^ s) k]
    exact ⟨hnear, fun heq hne => heven heq fun hk => hne (by rw [hk])⟩
  · -- `2 ^ (s + 52)` stands between `n` and the fraction
    obtain ⟨hnear, -⟩ := hmultiple (2 ^ 52)
    have hpos : (0 : Rat) < den := Nat.cast_pos.mpr hden
    rw [← Nat.pow_add, Nat.add_comm 52] at hnear
    have hbehind : ((2 ^ (s + 52) : Nat) : Rat) ≤ u / den := by
      rw [le_div_iff₀ hpos]
      exact_mod_cast hle
    have hbefore : (n : Rat) < (2 ^ (s + 52) : Nat) := Nat.cast_lt.mpr hlt
    have hfar : |(u / den : Rat) - (r * 2 ^ s : Nat)| < |(u / den : Rat) - n| := by
      rw [abs_of_nonneg (sub_nonneg.mpr hbehind)] at hnear
      rw [abs_of_nonneg (sub_nonneg.mpr (hbefore.le.trans hbehind))]
      exact hnear.trans_lt (sub_lt_sub_left hbefore _)
    exact ⟨hfar.le, fun heq => absurd heq hfar.ne⟩

theorem shiftOf_reached {num den : Nat} (hden : 0 < den) :
    shiftOf num den = 0 ∨ 2 ^ (shiftOf num den + 52) * den ≤ num * unitsPerOne := by
  rcases Nat.eq_zero_or_pos (shiftOf num den) with hzero | hpos
  · exact .inl hzero
  · refine .inr ((Nat.le_div_iff_mul_le hden).mp (lt_bitLength_iff.mp ?_))
    rw [shiftOf] at hpos ⊢
    omega

theorem ofRatio?_eq_some_iff {negative : Bool} {num den : Nat} {x : Number} :
    ofRatio? negative num den = some x ↔
      nearestMagnitude num den < infinite ∧
        ofMagnitude negative (nearestMagnitude num den) = x := by
  rw [ofRatio?]
  split
  · rename_i hlt
    rw [Option.some.injEq, and_iff_right hlt]
  · rename_i hlt
    simp [hlt]

theorem ofRatio?_isFinite {negative : Bool} {num den : Nat} {x : Number}
    (h : ofRatio? negative num den = some x) : x.isFinite = true ∧ x.isNegative = negative := by
  obtain ⟨hfinite, rfl⟩ := ofRatio?_eq_some_iff.mp h
  have hlt : nearestMagnitude num den < signWeight := Nat.lt_trans hfinite (by decide)
  rw [isFinite, magnitude_ofMagnitude hlt, isNegative_ofMagnitude hlt]
  exact ⟨decide_eq_true hfinite, rfl⟩

theorem size_nearest {negative : Bool} {num den : Nat} {x : Number} (hden : 0 < den)
    (h : ofRatio? negative num den = some x) (y : Number) :
    |(num / den : Rat) - x.size| ≤ |(num / den : Rat) - y.size| ∧
      (|(num / den : Rat) - x.size| = |(num / den : Rat) - y.size| → y.size ≠ x.size →
        x.magnitude % 2 = 0) := by
  obtain ⟨hfinite, rfl⟩ := ofRatio?_eq_some_iff.mp h
  have hone : (0 : Rat) < unitsPerOne := Nat.cast_pos.mpr unitsPerOne_pos
  have hscale (z : Number) : |((num * unitsPerOne : Nat) / den : Rat) - z.units| =
      |(num / den : Rat) - z.size| * unitsPerOne := by
    have hmul : ((num * unitsPerOne : Nat) / den : Rat) - z.units =
        ((num / den : Rat) - z.size) * unitsPerOne := by
      rw [sub_mul, size, div_mul_cancel₀ _ hone.ne', Nat.cast_mul, mul_div_right_comm]
    rw [hmul, abs_mul, abs_of_pos hone]
  obtain ⟨hnear, heven⟩ := shifted_nearest hden (shiftOf_reached hden) y.fitsSignificand_units
  rw [← units_nearestMagnitude hfinite negative, hscale, hscale] at hnear heven
  generalize (unitsPerOne : Rat) = one at hone hnear heven
  refine ⟨le_of_mul_le_mul_right hnear hone, fun heq hne => ?_⟩
  have hlow := heven (congrArg (· * _) heq) fun hunits => hne (by rw [size, size, hunits])
  rw [magnitude_ofMagnitude (Nat.lt_trans hfinite (by decide)), nearestMagnitude_eq,
    exponentWeight_eq]
  omega

/-- No finite number is nearer to `q`, and if another one is as near, the last bit of `x` is 0. -/
structure IsNearest (x : Number) (q : Rat) : Prop where
  isFinite : x.isFinite = true
  le : ∀ y : Number, y.isFinite = true → |q - x.toRat| ≤ |q - y.toRat|
  even : ∀ y : Number, y.isFinite = true → |q - x.toRat| = |q - y.toRat| → y.toRat ≠ x.toRat →
    x.magnitude % 2 = 0

theorem size_nonneg (x : Number) : 0 ≤ x.size := div_nonneg (Nat.cast_nonneg _) (Nat.cast_nonneg _)

theorem size_zero : zero.size = 0 := by
  have hunits : zero.units = 0 := rfl
  rw [size, hunits, Nat.cast_zero, zero_div]

theorem abs_sub_toRat (negative : Bool) {q : Rat} (hq : 0 ≤ q) (y : Number) :
    |(if negative then -q else q) - y.toRat| =
      if y.isNegative = negative then |q - y.size| else q + y.size := by
  have hsum : |q + y.size| = q + y.size := abs_of_nonneg (add_nonneg hq y.size_nonneg)
  rw [toRat]
  cases negative with
  | false =>
    cases y.isNegative with
    | false => rfl
    | true =>
      rw [if_neg Bool.noConfusion, if_pos rfl, if_neg Bool.noConfusion, sub_neg_eq_add, hsum]
  | true =>
    cases y.isNegative with
    | false =>
      rw [if_pos rfl, if_neg Bool.noConfusion, if_neg Bool.noConfusion, ← neg_add', abs_neg, hsum]
    | true => rw [if_pos rfl, if_pos rfl, if_pos rfl, ← neg_sub', abs_neg]

theorem isNearest_of_ofRatio? {negative : Bool} {num den : Nat} {x : Number} (hden : 0 < den)
    (h : ofRatio? negative num den = some x) :
    x.IsNearest (if negative then -(num / den) else num / den) := by
  obtain ⟨hfinite, hsign⟩ := ofRatio?_isFinite h
  have hnonneg : (0 : Rat) ≤ num / den := div_nonneg (Nat.cast_nonneg _) (Nat.cast_nonneg _)
  have hnearest := size_nearest hden h
  generalize (num / den : Rat) = q at *
  have hself := abs_sub_toRat negative hnonneg x
  rw [if_pos hsign] at hself
  refine ⟨hfinite, fun y _ => ?_, fun y _ heq hne => ?_⟩
  · have hy := y.size_nonneg
    refine (hself.trans_le (hnearest y).1).trans ?_
    rw [abs_sub_toRat negative hnonneg]
    split
    · exact le_refl _
    · exact abs_le.mpr ⟨by linarith, by linarith⟩
  rw [hself, abs_sub_toRat negative hnonneg] at heq
  by_cases hsigns : y.isNegative = negative
  · rw [if_pos hsigns] at heq
    exact (hnearest y).2 heq fun hsize => hne (by rw [toRat, toRat, hsigns, hsign, hsize])
  · -- of two signs, `y` is as near only if it is a zero
    rw [if_neg hsigns] at heq
    obtain ⟨hzero, heven⟩ := hnearest zero
    rw [size_zero, sub_zero, abs_of_nonneg hnonneg] at hzero heven
    have hy : y.size = 0 := le_antisymm (by linarith) y.size_nonneg
    rw [hy, add_zero] at heq
    refine heven heq fun hx => hne ?_
    rw [toRat, toRat, hy, ← hx, neg_zero, ite_self, ite_self]

/-- What is read from digits, with a minus or without, is the number nearest to what they say. -/
theorem isNearest_of_read?_numeral {digits : Bytes} (h : Numeral digits) {x : Number} :
    (read? digits = some x →
      x.IsNearest (Numeral.numerator digits / (10 ^ Numeral.places digits : Nat))) ∧
    (read? (ascii '-' :: digits) = some x →
      x.IsNearest (-(Numeral.numerator digits / (10 ^ Numeral.places digits : Nat)))) := by
  have hden : 0 < 10 ^ Numeral.places digits := Nat.pow_pos (by decide)
  rw [read?_numeral h, read?_minus h]
  exact ⟨isNearest_of_ofRatio? hden, isNearest_of_ofRatio? hden⟩

end SmallLang.Number
