import SmallLang.Number.Shortest
import SmallLang.Proofs.Number.Interval

/-! The decimal that a number is written as has the fewest digits of all decimals that read as the
number. -/

namespace SmallLang.Number

theorem zpow_le_zpow_of_pow_le {a b : Rat} (ha : 0 < a) (hb : 1 ≤ b) {m n : Nat} (hm : m ≠ 0)
    (hab : a ^ m ≤ b ^ n) {e k : Int} (he : 0 ≤ e) (h : n * e ≤ m * k) : a ^ e ≤ b ^ k := by
  have hbpos : 0 < b := one_pos.trans_le hb
  refine (pow_le_pow_iff_left₀ (zpow_pos ha e).le (zpow_pos hbpos k).le hm).mp ?_
  calc (a ^ e) ^ m = (a ^ m) ^ e := by
        rw [← zpow_natCast, ← zpow_natCast, ← zpow_mul, ← zpow_mul, mul_comm]
    _ ≤ (b ^ n) ^ e := zpow_le_zpow_left₀ he (pow_pos ha m).le hab
    _ = b ^ (n * e) := by rw [zpow_mul, zpow_natCast]
    _ ≤ b ^ (m * k) := zpow_le_zpow_right₀ hb h
    _ = (b ^ k) ^ m := by rw [mul_comm, zpow_mul, zpow_natCast]

theorem ten_zpow_le_two_zpow {e k : Int} (h : 10 * e ≤ 3 * k) (h' : 33 * e ≤ 10 * k) :
    (10 : Rat) ^ e ≤ 2 ^ k := by
  rcases le_total 0 e with he | he
  · exact zpow_le_zpow_of_pow_le (by norm_num) (by norm_num) (by decide : 3 ≠ 0)
      (by norm_num : (10 : Rat) ^ 3 ≤ 2 ^ 10) he h
  rcases le_total 0 k with hk | hk
  · exact (zpow_le_one_of_nonpos₀ (by norm_num) he).trans (one_le_zpow₀ (by norm_num) hk)
  · have hinv : (2 : Rat) ^ (-k) ≤ 10 ^ (-e) :=
      zpow_le_zpow_of_pow_le (by norm_num) (by norm_num) (by decide : 33 ≠ 0)
        (by norm_num : (2 : Rat) ^ 33 ≤ 10 ^ 10) (by omega) (by push_cast; omega)
    rw [zpow_neg, zpow_neg] at hinv
    exact (inv_le_inv₀ (by positivity) (by positivity)).mp hinv

theorem two_zpow_le_ten_zpow {e k : Int} (h : 3 * k ≤ 10 * e) (h' : 10 * k ≤ 33 * e) :
    (2 : Rat) ^ k ≤ 10 ^ e := by
  have hinv : (10 : Rat) ^ (-e) ≤ 2 ^ (-k) := ten_zpow_le_two_zpow (by omega) (by omega)
  rw [zpow_neg, zpow_neg] at hinv
  exact (inv_le_inv₀ (by positivity) (by positivity)).mp hinv

namespace Decimal

def toRat (d : Decimal) : Rat := d.coefficient * 10 ^ d.exponent

theorem toRat_nonneg (d : Decimal) : 0 ≤ d.toRat :=
  mul_nonneg (Nat.cast_nonneg _) (zpow_nonneg (by norm_num) _)

theorem natCast_ten_pow {e : Int} (h : 0 ≤ e) : ((Nat.pow 10 e.toNat : Nat) : Rat) = 10 ^ e := by
  rw [Nat.pow_eq, Nat.cast_pow, Nat.cast_ofNat, ← zpow_natCast, Int.toNat_of_nonneg h]

theorem readsAs_iff {d : Decimal} {x : Number} : d.readsAs x = true ↔ RoundsTo d.toRat x := by
  rw [readsAs, decide_eq_true_iff, ofDecimal?]
  split
  · rename_i hnonneg
    have hrat : d.toRat = (d.coefficient * Nat.pow 10 d.exponent.toNat : Nat) / (1 : Nat) := by
      rw [toRat, Nat.cast_mul, natCast_ten_pow hnonneg, Nat.cast_one, div_one]
    rw [hrat, roundsTo_iff Nat.one_pos]
  · rename_i hneg
    have hrat : d.toRat = d.coefficient / (Nat.pow 10 (-d.exponent).toNat : Nat) := by
      rw [toRat, natCast_ten_pow (by omega), zpow_neg, div_inv_eq_mul]
    have hden : 0 < Nat.pow 10 (-d.exponent).toNat := Nat.pow_pos (by decide)
    rw [hrat, roundsTo_iff hden]

theorem div_bounds (num : Nat) {den : Nat} (hden : 0 < den) :
    ((num / den : Nat) : Rat) ≤ num / den ∧ (num / den : Rat) < (num / den + 1 : Nat) := by
  have hpos : (0 : Rat) < den := Nat.cast_pos.mpr hden
  rw [le_div_iff₀ hpos, div_lt_iff₀' hpos]
  exact ⟨by exact_mod_cast Nat.div_mul_le_self num den,
    by exact_mod_cast Nat.lt_mul_div_succ num hden⟩

/-- The absolute value of a number as a fraction of steps of the grid. -/
theorem exists_steps (x : Number) (e : Int) : ∃ num den : Nat, 0 < den ∧
    (num / den : Rat) * 10 ^ e = x.size ∧
    neighbours x e =
      (⟨num / den, e⟩, ⟨num / den + 1, e⟩, decide (halfEven num den ≠ num / den)) := by
  have hpos : (0 : Rat) < 10 ^ e := by positivity
  by_cases hnonneg : 0 ≤ e
  · refine ⟨x.units, unitsPerOne * Nat.pow 10 e.toNat,
      Nat.mul_pos unitsPerOne_pos (Nat.pow_pos (by decide)), ?_, ?_⟩
    · rw [Nat.cast_mul, natCast_ten_pow hnonneg, div_mul_eq_div_div, div_mul_cancel₀ _ hpos.ne',
        size]
    · simp only [neighbours, if_pos hnonneg]
  · refine ⟨x.units * Nat.pow 10 (-e).toNat, unitsPerOne, unitsPerOne_pos, ?_, ?_⟩
    · rw [Nat.cast_mul, natCast_ten_pow (by omega), zpow_neg, mul_div_right_comm,
        inv_mul_cancel_right₀ hpos.ne', size]
    · simp only [neighbours, if_neg hnonneg]

theorem exists_neighbours (x : Number) (e : Int) : ∃ n upward,
    neighbours x e = (⟨n, e⟩, ⟨n + 1, e⟩, upward) ∧
      toRat ⟨n, e⟩ ≤ x.size ∧ x.size < toRat ⟨n + 1, e⟩ ∧
      ∀ k, |toRat ⟨if upward then n + 1 else n, e⟩ - x.size| ≤ |toRat ⟨k, e⟩ - x.size| := by
  have hpos : (0 : Rat) < 10 ^ e := by positivity
  obtain ⟨num, den, hden, hsize, heq⟩ := exists_steps x e
  have hscale (k : Nat) : |toRat ⟨k, e⟩ - x.size| = |(num / den : Rat) - k| * 10 ^ e := by
    rw [← hsize, toRat, ← sub_mul, abs_mul, abs_of_pos hpos, abs_sub_comm]
  have hfirst : (if decide (halfEven num den ≠ num / den) then num / den + 1 else num / den) =
      halfEven num den := by
    have hlow := div_le_halfEven num den
    have hhigh := halfEven_le_div num den
    simp only [decide_eq_true_eq]
    split <;> omega
  obtain ⟨hlow, hhigh⟩ := div_bounds num hden
  refine ⟨num / den, _, heq, ?_, ?_, fun k => ?_⟩
  · rw [← hsize]
    exact mul_le_mul_of_nonneg_right hlow hpos.le
  · rw [← hsize]
    exact mul_lt_mul_of_pos_right hhigh hpos
  · rw [hfirst, hscale, hscale]
    exact mul_le_mul_of_nonneg_right (abs_sub_halfEven_le num hden k) hpos.le

theorem neighbour_roundsTo {x : Number} {e : Int} {n : Nat} (hlow : toRat ⟨n, e⟩ ≤ x.size)
    (hhigh : x.size < toRat ⟨n + 1, e⟩) {d : Decimal} (hd : RoundsTo d.toRat x)
    (he : d.exponent = e) : ∃ m, (m = n ∨ m = n + 1) ∧ RoundsTo (toRat ⟨m, e⟩) x ∧
      |toRat ⟨m, e⟩ - x.size| ≤ |d.toRat - x.size| := by
  subst he
  have hmono {k l : Nat} (h : k ≤ l) : toRat ⟨k, d.exponent⟩ ≤ toRat ⟨l, d.exponent⟩ :=
    mul_le_mul_of_nonneg_right (Nat.cast_le.mpr h) (by positivity)
  rcases Nat.lt_or_ge n d.coefficient with hlt | hge
  · have hle : toRat ⟨n + 1, d.exponent⟩ ≤ d.toRat := hmono hlt
    refine ⟨n + 1, .inr rfl, hd.between (.inr ⟨hhigh.le, hle⟩), ?_⟩
    rw [abs_of_nonneg (sub_nonneg.mpr hhigh.le),
      abs_of_nonneg (sub_nonneg.mpr (hhigh.le.trans hle))]
    exact sub_le_sub_right hle _
  · have hle : d.toRat ≤ toRat ⟨n, d.exponent⟩ := hmono hge
    refine ⟨n, .inl rfl, hd.between (.inl ⟨hle, hlow⟩), ?_⟩
    rw [abs_of_nonpos (sub_nonpos.mpr hlow), abs_of_nonpos (sub_nonpos.mpr (hle.trans hlow))]
    exact neg_le_neg (sub_le_sub_right hle _)

/-- The decimal is rounded to `x`, and no other one on the grid of `10 ^ e` is nearer. -/
structure IsNearestOn (e : Int) (d : Decimal) (x : Number) : Prop where
  exponent : d.exponent = e
  roundsTo : RoundsTo d.toRat x
  le : ∀ d' : Decimal, RoundsTo d'.toRat x → d'.exponent = e →
    |d.toRat - x.size| ≤ |d'.toRat - x.size|

theorem choice_isNearestOn {x : Number} {e : Int} {a b : Nat} {next : Decimal}
    (hfirst : ∀ k, |toRat ⟨a, e⟩ - x.size| ≤ |toRat ⟨k, e⟩ - x.size|)
    (hback : ∀ d : Decimal, RoundsTo d.toRat x → d.exponent = e →
      ∃ m, (m = a ∨ m = b) ∧ RoundsTo (toRat ⟨m, e⟩) x ∧
        |toRat ⟨m, e⟩ - x.size| ≤ |d.toRat - x.size|) {r : Decimal}
    (hr : r = if readsAs ⟨a, e⟩ x then ⟨a, e⟩ else if readsAs ⟨b, e⟩ x then ⟨b, e⟩ else next) :
    r.IsNearestOn e x ∨
      ((∀ d : Decimal, RoundsTo d.toRat x → d.exponent ≠ e) ∧ r = next) := by
  subst hr
  split
  · rename_i hread
    refine .inl ⟨rfl, readsAs_iff.mp hread, ?_⟩
    rintro ⟨k, _⟩ - rfl
    exact hfirst k
  · rename_i hreadA
    have hother {d : Decimal} (hd : RoundsTo d.toRat x) (he : d.exponent = e) :
        RoundsTo (toRat ⟨b, e⟩) x ∧ |toRat ⟨b, e⟩ - x.size| ≤ |d.toRat - x.size| := by
      obtain ⟨m, rfl | rfl, hm⟩ := hback d hd he
      · exact absurd (readsAs_iff.mpr hm.1) hreadA
      · exact hm
    split
    · rename_i hread
      exact .inl ⟨rfl, readsAs_iff.mp hread, fun d hd he => (hother hd he).2⟩
    · rename_i hreadB
      exact .inr ⟨fun d hd he => hreadB (readsAs_iff.mpr (hother hd he).1), rfl⟩

/-- A step of the search finds a decimal on its grid, or there is none. -/
theorem search_succ (x : Number) (steps : Nat) (e : Int) :
    (search x (steps + 1) e).IsNearestOn e x ∨
    ((∀ d : Decimal, RoundsTo d.toRat x → d.exponent ≠ e) ∧
      search x (steps + 1) e = search x steps (e - 1)) := by
  obtain ⟨n, upward, heq, hlow, hhigh, hfirst⟩ := exists_neighbours x e
  have hback (d : Decimal) := neighbour_roundsTo hlow hhigh (d := d)
  cases upward with
  | false => exact choice_isNearestOn hfirst hback (by simp [search, heq])
  | true =>
    refine choice_isNearestOn (b := n) hfirst (fun d hd he => ?_) (by simp [search, heq])
    obtain ⟨m, hm, hrounds⟩ := hback d hd he
    exact ⟨m, hm.symm, hrounds⟩

/-- The decimal is rounded to `x`, none on a coarser grid is, and none on its own grid is nearer. -/
structure IsCoarsest (d : Decimal) (x : Number) : Prop where
  nearest : d.IsNearestOn d.exponent x
  le : ∀ d' : Decimal, RoundsTo d'.toRat x → d'.exponent ≤ d.exponent

theorem search_isCoarsest {x : Number} {steps : Nat} {e : Int}
    (hall : ∀ d : Decimal, RoundsTo d.toRat x → d.exponent ≤ e)
    (hsome : ∃ d : Decimal, RoundsTo d.toRat x ∧ e < d.exponent + steps) :
    (search x steps e).IsCoarsest x := by
  induction steps generalizing e with
  | zero =>
    obtain ⟨d, hd, hlt⟩ := hsome
    have hle := hall d hd
    omega
  | succ steps ih =>
    rcases search_succ x steps e with hnearest | ⟨hnone, hnext⟩
    · rw [← hnearest.exponent] at hall
      exact ⟨hnearest.exponent.symm ▸ hnearest, hall⟩
    · have hall' (d : Decimal) (hd : RoundsTo d.toRat x) : d.exponent ≤ e - 1 := by
        have hle := hall d hd
        have hne := hnone d hd
        omega
      obtain ⟨d, hd, hlt⟩ := hsome
      rw [hnext]
      exact ih hall' ⟨d, hd, by omega⟩

/-- At the first grid even the least positive decimal is too great for `x`. -/
theorem exponent_le_startExponent {x : Number} (hx : x.isZero = false) {d : Decimal}
    (h : RoundsTo d.toRat x) : d.exponent ≤ startExponent x := by
  by_contra hgreat
  have hcoefficient : (1 : Rat) ≤ d.coefficient := by
    rw [Nat.one_le_cast, Nat.one_le_iff_ne_zero]
    intro hzero
    rw [toRat, hzero, Nat.cast_zero, zero_mul] at h
    rw [h.eq_zero] at hx
    exact Bool.noConfusion hx
  have hpower : (2 : Rat) ^ ((bitLength x.units : Int) - 1074) ≤ 10 ^ d.exponent := by
    rw [startExponent] at hgreat
    apply two_zpow_le_ten_zpow <;> split at hgreat <;> omega
  have hle : (2 : Rat) ^ ((bitLength x.units : Int) - 1074) ≤ d.toRat :=
    hpower.trans (le_mul_of_one_le_left (by positivity) hcoefficient)
  exact hle.not_gt h.lt_two_zpow

/-- The step of the last grid is less than half the distance to the next number. -/
theorem exists_roundsTo_of_fine {x : Number} (hx : x.isFinite = true)
    (hsign : x.isNegative = false) : ∃ d : Decimal, RoundsTo d.toRat x ∧
      d.exponent = startExponent x - 39 := by
  obtain ⟨n, upward, -, hlow, hhigh, -⟩ := exists_neighbours x (startExponent x - 39)
  refine ⟨⟨n, startExponent x - 39⟩, ?_, rfl⟩
  have hpower : (10 : Rat) ^ (startExponent x - 39) ≤
      2 ^ (((bitLength x.units - 54 : Nat) : Int) - 1075) := by
    have hlength := (roundsTo_size hx hsign).bitLength_units_le
    rw [startExponent]
    apply ten_zpow_le_two_zpow <;> split <;> omega
  refine roundsTo_of_near hx hsign (toRat_nonneg _) hlow (lt_of_lt_of_le ?_ hpower)
  rw [toRat, Nat.cast_succ, add_mul, one_mul] at hhigh
  exact sub_lt_iff_lt_add'.mpr hhigh

theorem shortest_isCoarsest {x : Number} (hx : x.isFinite = true) (hsign : x.isNegative = false)
    (hzero : x.isZero = false) : (shortest x).IsCoarsest x := by
  obtain ⟨d, hd, hexponent⟩ := exists_roundsTo_of_fine hx hsign
  exact search_isCoarsest (fun d hd => exponent_le_startExponent hzero hd) ⟨d, hd, by omega⟩

theorem IsCoarsest.coefficient_lt {s d : Decimal} {x : Number} (h : s.IsCoarsest x)
    (hd : RoundsTo d.toRat x) {k : Nat} (hk : d.coefficient < 10 ^ k) : s.coefficient < 10 ^ k := by
  have hcoarser {n : Nat} (hn : RoundsTo (toRat ⟨n, s.exponent + 1⟩) x) : False :=
    absurd (h.le _ hn) (not_le.mpr (lt_add_one s.exponent))
  cases k with
  | zero =>
    have hzero : d.coefficient = 0 := Nat.lt_one_iff.mp hk
    rw [toRat, hzero, Nat.cast_zero, zero_mul] at hd
    refine (hcoarser (n := 0) ?_).elim
    rwa [toRat, Nat.cast_zero, zero_mul]
  | succ k =>
    -- between the two decimals a power of ten would stand, on a coarser grid
    by_contra hge
    have hpos (e : Int) : (0 : Rat) ≤ 10 ^ e := by positivity
    have hpower : toRat ⟨10 ^ k, s.exponent + 1⟩ = (10 ^ (k + 1) : Nat) * 10 ^ s.exponent := by
      rw [toRat, zpow_add_one₀ (by norm_num), Nat.pow_succ]
      push_cast
      ring
    have hbelow : d.toRat ≤ toRat ⟨10 ^ k, s.exponent + 1⟩ := by
      rw [hpower]
      exact mul_le_mul (Nat.cast_le.mpr hk.le)
        (zpow_le_zpow_right₀ (by norm_num) (h.le d hd)) (hpos _) (Nat.cast_nonneg _)
    have habove : toRat ⟨10 ^ k, s.exponent + 1⟩ ≤ s.toRat := by
      rw [hpower]
      exact mul_le_mul_of_nonneg_right (Nat.cast_le.mpr (Nat.le_of_not_lt hge)) (hpos _)
    rcases le_total (toRat ⟨10 ^ k, s.exponent + 1⟩) x.size with hle | hle
    · exact hcoarser (hd.between (.inl ⟨hbelow, hle⟩))
    · exact hcoarser (h.nearest.roundsTo.between (.inr ⟨hle, habove⟩))

/-- The decimal reads as `x`, and of those that do it has the fewest digits and is, on its grid, the
nearest to `x`. -/
structure IsShortest (d : Decimal) (x : Number) : Prop where
  readsAs : d.readsAs x = true
  fewest : ∀ d' : Decimal, d'.readsAs x = true → ∀ k, d'.coefficient < 10 ^ k →
    d.coefficient < 10 ^ k
  nearest : ∀ d' : Decimal, d'.readsAs x = true → d'.exponent = d.exponent →
    |d.toRat - x.size| ≤ |d'.toRat - x.size|

theorem IsCoarsest.isShortest {d : Decimal} {x : Number} (h : d.IsCoarsest x) :
    d.IsShortest x where
  readsAs := readsAs_iff.mpr h.nearest.roundsTo
  fewest _ hd _ hk := h.coefficient_lt (readsAs_iff.mp hd) hk
  nearest d' hd he := h.nearest.le d' (readsAs_iff.mp hd) he

theorem shortest_isShortest {x : Number} (hx : x.isFinite = true) (hzero : x.isZero = false) :
    (shortest x.abs).IsShortest x.abs := by
  have habs : x.abs.isZero = false := by rwa [isZero, magnitude_abs]
  exact (shortest_isCoarsest (x.isFinite_abs.trans hx) x.isNegative_abs habs).isShortest

end Decimal

end SmallLang.Number
