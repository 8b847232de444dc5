import SmallLang.Proofs.Number.Significand
import SmallLang.Rules

/-! The operators `&&` and `||` on numbers. The conjunction of two words that are numbers is a
number itself, and so is the disjunction of two words of at most 53 bits below the sign. -/

namespace SmallLang

section

variable {w k e : Nat} {a b : BitVec w}

/-- The word has at most `k` bits below its sign. -/
def Narrow (k : Nat) (a : BitVec w) : Prop := -2 ^ k ≤ a.toInt ∧ a.toInt < 2 ^ k

theorem Narrow.mono {l : Nat} (h : Narrow k a) (hle : k ≤ l) : Narrow l a := by
  have hpow : (2 : Int) ^ k ≤ 2 ^ l := by exact_mod_cast Nat.pow_le_pow_right (by decide) hle
  exact ⟨Int.le_trans (Int.neg_le_neg hpow) h.1, Int.lt_of_lt_of_le h.2 hpow⟩

/-- All bits of a narrow word from the `k`-th on are copies of its sign. -/
theorem narrow_iff (hw : 0 < w) :
    Narrow k a ↔ a.sshiftRight k = 0#w ∨ a.sshiftRight k = BitVec.allOnes w := by
  have hpos : (0 : Int) < ((2 ^ k : Nat) : Int) := by exact_mod_cast Nat.two_pow_pos k
  rw [← BitVec.toInt_inj, ← BitVec.toInt_inj, BitVec.toInt_sshiftRight, BitVec.toInt_zero,
    BitVec.toInt_allOnes, if_pos hw, Int.shiftRight_eq_div_pow, Int.ediv_eq_iff_of_pos hpos,
    Int.ediv_eq_iff_of_pos hpos, Narrow]
  push_cast
  omega

theorem Narrow.and (hw : 0 < w) (ha : Narrow k a) (hb : Narrow k b) : Narrow k (a &&& b) := by
  rw [narrow_iff hw] at ha hb ⊢
  rw [BitVec.sshiftRight_and_distrib]
  rcases ha with ha | ha <;> rcases hb with hb | hb <;> simp [ha, hb]

theorem Narrow.or (hw : 0 < w) (ha : Narrow k a) (hb : Narrow k b) : Narrow k (a ||| b) := by
  rw [narrow_iff hw] at ha hb ⊢
  rw [BitVec.sshiftRight_or_distrib]
  rcases ha with ha | ha <;> rcases hb with hb | hb <;> simp [ha, hb]

theorem dvd_toInt_iff (he : e ≤ w) : ((2 ^ e : Nat) : Int) ∣ a.toInt ↔ 2 ^ e ∣ a.toNat := by
  have hpow : ((2 ^ e : Nat) : Int) ∣ ((2 ^ w : Nat) : Int) :=
    Int.natCast_dvd_natCast.mpr (Nat.pow_dvd_pow 2 he)
  have hmod : a.toInt % (2 ^ e : Nat) = (a.toNat : Int) % (2 ^ e : Nat) := by
    rw [← Int.emod_emod_of_dvd _ hpow, BitVec.toInt_eq_toNat_bmod, Int.bmod_emod,
      Int.emod_emod_of_dvd _ hpow]
  rw [Int.dvd_iff_emod_eq_zero, hmod, ← Int.dvd_iff_emod_eq_zero, Int.natCast_dvd_natCast]

theorem dvd_toInt_and (he : e ≤ w) (h : ((2 ^ e : Nat) : Int) ∣ a.toInt) :
    ((2 ^ e : Nat) : Int) ∣ (a &&& b).toInt := by
  rw [dvd_toInt_iff he, Nat.dvd_iff_mod_eq_zero] at h ⊢
  rw [BitVec.toNat_and, Nat.and_mod_two_pow, h, Nat.zero_and]

end

namespace Number

theorem FitsSignificand.exists_narrow {a : BitVec 64} (h : FitsSignificand a.toInt.natAbs) :
    ∃ e ≤ 64, ((2 ^ e : Nat) : Int) ∣ a.toInt ∧ Narrow (e + 53) a := by
  have hlow := BitVec.le_toInt a
  have hhigh := BitVec.toInt_lt (x := a)
  have hlength : bitLength a.toInt.natAbs ≤ 64 := bitLength_le_iff.mpr (by omega)
  have hlt : a.toInt.natAbs < 2 ^ (bitLength a.toInt.natAbs - 53 + 53) :=
    bitLength_le_iff.mp (by omega)
  refine ⟨bitLength a.toInt.natAbs - 53, by omega, Int.natCast_dvd.mpr h.dvd, ?_⟩
  have hcast : ((a.toInt.natAbs : Nat) : Int) < 2 ^ (bitLength a.toInt.natAbs - 53 + 53) := by
    exact_mod_cast hlt
  rw [Narrow]
  omega

theorem fitsSignificand_of_narrow {a : BitVec 64} {e : Nat} (hdvd : ((2 ^ e : Nat) : Int) ∣ a.toInt)
    (h : Narrow (e + 53) a) : FitsSignificand a.toInt.natAbs := by
  have hle : a.toInt.natAbs ≤ 2 ^ e * 2 ^ 53 := by
    rw [← Nat.pow_add, ← Int.ofNat_le, Nat.cast_pow, Nat.cast_ofNat]
    rw [Narrow] at h
    omega
  obtain ⟨q, hq⟩ := Int.natCast_dvd.mp hdvd
  rw [hq] at hle ⊢
  rw [Nat.mul_comm]
  exact (fitsSignificand_of_le (Nat.le_of_mul_le_mul_left hle (Nat.two_pow_pos e))).mul_two_pow e

theorem fitsSignificand_and {a b : BitVec 64} (ha : FitsSignificand a.toInt.natAbs)
    (hb : FitsSignificand b.toInt.natAbs) : FitsSignificand (a &&& b).toInt.natAbs := by
  obtain ⟨d, hd, hda, hna⟩ := ha.exists_narrow
  obtain ⟨e, he, heb, hnb⟩ := hb.exists_narrow
  -- the low zeros of one operand stay, and the range of that one holds the other
  rcases Nat.le_total d e with hle | hle
  · rw [BitVec.and_comm]
    exact fitsSignificand_of_narrow (dvd_toInt_and he heb)
      (hnb.and (by decide) (hna.mono (Nat.add_le_add_right hle 53)))
  · exact fitsSignificand_of_narrow (dvd_toInt_and hd hda)
      (hna.and (by decide) (hnb.mono (Nat.add_le_add_right hle 53)))

theorem fitsSignificand_or {a b : BitVec 64} (ha : Narrow 53 a) (hb : Narrow 53 b) :
    FitsSignificand (a ||| b).toInt.natAbs := by
  refine fitsSignificand_of_narrow (e := 0) (Int.one_dvd _) ?_
  rw [Nat.zero_add]
  exact ha.or (by decide) hb

theorem isExactly_ofInt_toInt {a : BitVec 64} (h : FitsSignificand a.toInt.natAbs) :
    (ofInt a.toInt).IsExactly a.toInt := by
  have hlow := BitVec.le_toInt a
  have hhigh := BitVec.toInt_lt (x := a)
  have hlength : bitLength a.toInt.natAbs ≤ 64 := bitLength_le_iff.mpr (by omega)
  exact isExactly_ofInt h (Nat.le_trans hlength (by decide))

theorem toWord_of_toInt {x : Number} (hx : x.isFinite = true) (hlow : -2 ^ 63 ≤ x.toInt)
    (hhigh : x.toInt < 2 ^ 63) : x.toWord = BitVec.ofInt 64 x.toInt ∧ x.toWord.toInt = x.toInt := by
  have hword : x.toWord = BitVec.ofInt 64 x.toInt := by
    have hweight : (signWeight : Int) = 2 ^ 63 := rfl
    have hbounds : (x.isFinite && decide (-(signWeight : Int) ≤ x.toInt) &&
        decide (x.toInt < (signWeight : Int))) = true := by
      rw [hx, hweight, decide_eq_true hlow, decide_eq_true hhigh]
      rfl
    rw [toWord, if_pos hbounds]
  exact ⟨hword, by rw [hword, BitVec.toInt_ofInt_eq_self (by decide) hlow hhigh]⟩

theorem bitAnd_isExactly {x y : Number} (hx : x.toWord.toInt = x.toInt)
    (hy : y.toWord.toInt = y.toInt) : (x.bitAnd y).IsExactly (x.toWord &&& y.toWord).toInt :=
  isExactly_ofInt_toInt (fitsSignificand_and (hx ▸ x.fitsSignificand_toInt)
    (hy ▸ y.fitsSignificand_toInt))

end Number

namespace Rules

open Number

/-- On words, the conjunction of the integer parts is computed exactly, and the disjunction is
where a sign and 53 bits hold both parts. -/
theorem overload_bits_exact {x y : Number} (hx : x.isFinite = true) (hy : y.isFinite = true)
    (hxword : -2 ^ 63 ≤ x.toRat ∧ x.toRat < 2 ^ 63) (hyword : -2 ^ 63 ≤ y.toRat ∧ y.toRat < 2 ^ 63)
    {i j : Int} (hi : truncation x.toRat = i) (hj : truncation y.toRat = j) :
    (∃ z, overload.applyBinary .and (.num x) (.num y) = .ok (.num z) ∧
      z.IsExactly (BitVec.ofInt 64 i &&& BitVec.ofInt 64 j).toInt) ∧
    (-2 ^ 53 ≤ i ∧ i < 2 ^ 53 → -2 ^ 53 ≤ j ∧ j < 2 ^ 53 →
      ∃ z, overload.applyBinary .or (.num x) (.num y) = .ok (.num z) ∧
        z.IsExactly (BitVec.ofInt 64 i ||| BitVec.ofInt 64 j).toInt) := by
  rw [← toInt_eq_truncation] at hi hj
  subst hi hj
  obtain ⟨hxlow, hxhigh⟩ := toInt_within hxword
  obtain ⟨hylow, hyhigh⟩ := toInt_within hyword
  obtain ⟨hxeq, hxint⟩ := toWord_of_toInt hx hxlow hxhigh
  obtain ⟨hyeq, hyint⟩ := toWord_of_toInt hy hylow hyhigh
  rw [← hxeq, ← hyeq]
  constructor
  · exact ⟨x.bitAnd y, rfl, bitAnd_isExactly hxint hyint⟩
  · intro hxnarrow hynarrow
    rw [← hxint] at hxnarrow
    rw [← hyint] at hynarrow
    exact ⟨x.bitOr y, rfl, isExactly_ofInt_toInt (fitsSignificand_or hxnarrow hynarrow)⟩

theorem uneven_overload_bits_exact :
    (∃ z, overload.applyBinary .and (.num ⟨0xC3DFFFFFFFFFFFFF⟩) (.num ⟨0xC32FFFFFFFFFFFFF⟩) =
      .ok (.num z) ∧ z.IsExactly (-2 ^ 63)) ∧
    ∃ z, overload.applyBinary .or (.num ⟨0xC32FFFFFFFFFFFFF⟩) (.num ⟨0x433FFFFFFFFFFFFF⟩) =
      .ok (.num z) ∧ z.IsExactly (-1) := by
  have hgreat : truncation (toRat ⟨0xC3DFFFFFFFFFFFFF⟩) = -2 ^ 63 + 1024 := by decide +kernel
  have hhalf : truncation (toRat ⟨0xC32FFFFFFFFFFFFF⟩) = -2 ^ 52 + 1 := by decide +kernel
  have hodd : truncation (toRat ⟨0x433FFFFFFFFFFFFF⟩) = 2 ^ 53 - 1 := by decide +kernel
  obtain ⟨hand, -⟩ := overload_bits_exact (by decide) (by decide) (by decide +kernel)
    (by decide +kernel) hgreat hhalf
  obtain ⟨-, hor⟩ := overload_bits_exact (by decide) (by decide) (by decide +kernel)
    (by decide +kernel) hhalf hodd
  exact ⟨hand, hor (by decide) (by decide)⟩

end Rules

end SmallLang
