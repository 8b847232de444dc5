import SmallLang.Number.Shortest
import SmallLang.Proofs.Number.Exact
import SmallLang.Proofs.Number.Literal

/-! The text of a finite number is a literal that reads as it, with a minus in front of a negative
one. -/

namespace SmallLang

namespace Numeral

theorem valueFrom_append (n : Nat) (ds fs : Bytes) :
    valueFrom n (ds ++ fs) = valueFrom (valueFrom n ds) fs := List.foldl_append

theorem valueFrom_zeros (n k : Nat) :
    valueFrom n (List.replicate k (ascii '0')) = n * 10 ^ k := by
  induction k generalizing n with
  | zero => simp [valueFrom]
  | succ k ih =>
    have hdigit : (ascii '0').toNat - 48 = 0 := rfl
    rw [List.replicate_succ, ← List.singleton_append, valueFrom_append, ih]
    simp only [valueFrom, List.foldl_cons, List.foldl_nil, hdigit, Nat.add_zero]
    rw [Nat.mul_assoc, Nat.pow_succ']

end Numeral

theorem Digits.append {ds fs : Bytes} (hd : Digits ds) (hf : Digits fs) : Digits (ds ++ fs) :=
  fun b hb => (List.mem_append.mp hb).elim (hd b) (hf b)

theorem digits_zeros (k : Nat) : Digits (List.replicate k (ascii '0')) := by
  intro b hb
  rw [List.eq_of_mem_replicate hb]
  decide

namespace Bytes

theorem toNat_digit {d : Nat} (hd : d < 10) : (digit d).toNat = 48 + d := by
  rw [digit, if_pos hd]
  simp
  omega

theorem digitsOnto_lt {fuel n : Nat} {acc : List Nat} (hn : n < fuel) (hacc : ∀ d ∈ acc, d < 10) :
    ∀ d ∈ digitsOnto fuel n acc, d < 10 := by
  induction fuel generalizing n acc with
  | zero => omega
  | succ fuel ih =>
    rw [digitsOnto]
    split
    · rename_i hlt
      exact List.forall_mem_cons.mpr ⟨hlt, hacc⟩
    · exact ih (by omega) (List.forall_mem_cons.mpr ⟨Nat.mod_lt _ (by decide), hacc⟩)

theorem valueFrom_digitsOnto {fuel n : Nat} {acc : List Nat} (hn : n < fuel) :
    Numeral.valueFrom 0 ((digitsOnto fuel n acc).map digit) =
      Numeral.valueFrom n (acc.map digit) := by
  induction fuel generalizing n acc with
  | zero => omega
  | succ fuel ih =>
    have hcons {m d : Nat} (hd : d < 10) (ds : List Nat) :
        Numeral.valueFrom m ((d :: ds).map digit) =
          Numeral.valueFrom (m * 10 + d) (ds.map digit) := by
      simp [Numeral.valueFrom, toNat_digit hd]
    rw [digitsOnto]
    split
    · rename_i hlt
      rw [hcons hlt, Nat.zero_mul, Nat.zero_add]
    · rw [ih (by omega), hcons (Nat.mod_lt _ (by decide)), Nat.mul_comm, Nat.div_add_mod]

theorem digits_ofNat (n : Nat) : Digits (ofNat n) := by
  intro b hb
  obtain ⟨d, hd, rfl⟩ := List.mem_map.mp hb
  have hlt := digitsOnto_lt (Nat.lt_succ_self n) (by simp) d hd
  rw [Lexer.isDigit_iff, toNat_digit hlt]
  omega

theorem valueFrom_ofNat (n : Nat) : Numeral.valueFrom 0 (ofNat n) = n :=
  valueFrom_digitsOnto (Nat.lt_succ_self n)

theorem digitsOnto_ne_nil (fuel n : Nat) {acc : List Nat} (h : 0 < fuel ∨ acc ≠ []) :
    digitsOnto fuel n acc ≠ [] := by
  induction fuel generalizing n acc with
  | zero => exact h.resolve_left (Nat.lt_irrefl 0)
  | succ fuel ih =>
    rw [digitsOnto]
    split
    · simp
    · exact ih _ (.inr (by simp))

theorem ofNat_ne_nil (n : Nat) : ofNat n ≠ [] := by
  rw [ofNat, Ne, List.map_eq_nil_iff]
  exact digitsOnto_ne_nil (n + 1) n (.inl (Nat.succ_pos n))

end Bytes

namespace Number

theorem numeral_insertPoint {ds : Bytes} (hd : Digits ds) {k : Nat} (hk : k < ds.length) :
    Numeral (ds.take (ds.length - k) ++ ascii '.' :: ds.drop (ds.length - k)) ∧
      read? (ds.take (ds.length - k) ++ ascii '.' :: ds.drop (ds.length - k)) =
        ofRatio? false (Numeral.valueFrom 0 ds) (10 ^ k) := by
  have hwhole : Digits (ds.take (ds.length - k)) := fun b hb => hd b (List.mem_of_mem_take hb)
  have hfraction : Digits (ds.drop (ds.length - k)) := fun b hb => hd b (List.mem_of_mem_drop hb)
  have hne : ds.take (ds.length - k) ++ ds.drop (ds.length - k) ≠ [] := by
    rw [List.take_append_drop]
    exact List.ne_nil_of_length_pos (by omega)
  have hplaces : (ds.drop (ds.length - k)).length = k := by
    rw [List.length_drop]
    omega
  have hnumeral := Numeral.pointed hne hwhole hfraction
  refine ⟨hnumeral, ?_⟩
  rw [read?_numeral hnumeral, Numeral.numerator_pointed hwhole hfraction,
    Numeral.places_pointed hwhole, ← Numeral.valueFrom_append, List.take_append_drop, hplaces]

namespace Decimal

theorem ofDecimal?_units {x : Number} (hx : x.isFinite = true) {k : Nat}
    (hk : unitsPerOne = 2 ^ k) :
    ofDecimal? false (x.units * Nat.pow 5 k) (-(k : Int)) = some x.abs := by
  have hpow : 10 ^ k = 5 ^ k * 2 ^ k := Nat.mul_pow 5 2 k
  have hunits : x.units * 5 ^ k * unitsPerOne = 10 ^ k * x.units := by
    rw [hk, hpow, Nat.mul_assoc, Nat.mul_comm]
  rw [Nat.pow_eq, ofDecimal?_neg, ofRatio?_of_units (Nat.pow_pos (by decide)) hunits hx]

theorem exact_eq (x : Number) : ∃ k : Nat, unitsPerOne = 2 ^ k ∧
    exact x = ⟨x.units * Nat.pow 5 k, -(k : Int)⟩ := ⟨1074, unitsPerOne_eq, rfl⟩

theorem readsAs_exact {x : Number} (hx : x.isFinite = true) : (exact x).readsAs x.abs = true := by
  obtain ⟨k, hk, hexact⟩ := exact_eq x
  rw [hexact]
  exact decide_eq_true (ofDecimal?_units hx hk)

theorem readsAs_search {x : Number} (hx : x.isFinite = true) (hpos : x.isNegative = false)
    (steps : Nat) (e : Int) : (search x steps e).readsAs x = true := by
  induction steps generalizing e with
  | zero =>
    have hread := readsAs_exact hx
    rwa [abs_eq hpos] at hread
  | succ steps ih =>
    rcases h : neighbours x e with ⟨low, high, upward⟩
    simp only [search, h]
    generalize (if upward = true then high else low) = first
    generalize (if upward = true then low else high) = second
    split
    · assumption
    · split
      · assumption
      · exact ih (e - 1)

theorem numeral_positional (d : Decimal) : Numeral d.positional ∧
    read? d.positional = ofDecimal? false d.coefficient d.exponent := by
  obtain ⟨m, e⟩ := d
  have hdigits := Bytes.digits_ofNat m
  have hvalue := Bytes.valueFrom_ofNat m
  simp only [positional]
  split
  · rename_i he
    have hall := hdigits.append (digits_zeros e.toNat)
    have hnumeral := Numeral.whole (by simp [Bytes.ofNat_ne_nil]) hall
    refine ⟨hnumeral, ?_⟩
    rw [read?_numeral hnumeral, Numeral.numerator_whole hall, Numeral.places_whole hall,
      Numeral.valueFrom_append, hvalue, Numeral.valueFrom_zeros, ofDecimal?, if_pos he]
    rfl
  · rename_i he
    obtain ⟨k, rfl⟩ : ∃ k : Nat, e = -(k : Int) := ⟨e.natAbs, by omega⟩
    rw [Int.neg_neg, Int.toNat_natCast]
    -- zeros in front leave the value as it is and give the point a place
    generalize hpadded : List.replicate (k + 1 - (Bytes.ofNat m).length) (ascii '0') ++
      Bytes.ofNat m = padded
    have hall : Digits padded := hpadded ▸ (digits_zeros _).append hdigits
    have hlength : k < padded.length := by
      rw [← hpadded, List.length_append, List.length_replicate]
      omega
    have hpaddedValue : Numeral.valueFrom 0 padded = m := by
      rw [← hpadded, Numeral.valueFrom_append, Numeral.valueFrom_zeros, Nat.zero_mul, hvalue]
    obtain ⟨hnumeral, hread⟩ := numeral_insertPoint hall hlength
    exact ⟨hnumeral, by rw [hread, hpaddedValue, ofDecimal?_neg]⟩

end Decimal

/-- The number minus zero, which is written like zero. -/
def minusZero : Number := zero.negate

theorem eq_of_isZero {x : Number} (h : x.isZero = true) : x = zero ∨ x = minusZero := by
  have hmagnitude : x.magnitude = 0 := by simpa [isZero] using h
  cases hsign : x.isNegative with
  | false => exact .inl (ext_magnitude hsign hmagnitude)
  | true => exact .inr (ext_magnitude hsign hmagnitude)

theorem numeral_text_zero : Numeral zero.text ∧ read? zero.text = some zero := by
  have htext : zero.text = Bytes.ofNat 0 := rfl
  have hdigits := Bytes.digits_ofNat 0
  have hnumeral := Numeral.whole (Bytes.ofNat_ne_nil 0) hdigits
  have hunits : 0 * unitsPerOne = 10 ^ 0 * zero.units := Nat.zero_mul unitsPerOne
  rw [htext]
  refine ⟨hnumeral, ?_⟩
  rw [read?_numeral hnumeral, Numeral.numerator_whole hdigits, Numeral.places_whole hdigits,
    Bytes.valueFrom_ofNat, ofRatio?_of_units (by decide) hunits rfl]
  rfl

theorem numeral_shortest {x : Number} (hx : x.isFinite = true) :
    Numeral (Decimal.shortest x.abs).positional ∧
      read? (Decimal.shortest x.abs).positional = some x.abs := by
  obtain ⟨hnumeral, hread⟩ := Decimal.numeral_positional (Decimal.shortest x.abs)
  have hreads : (Decimal.shortest x.abs).readsAs x.abs = true :=
    Decimal.readsAs_search (x.isFinite_abs.trans hx) x.isNegative_abs 40 _
  exact ⟨hnumeral, hread.trans (of_decide_eq_true hreads)⟩

theorem text_eq {x : Number} (hx : x.isFinite = true) (hzero : x.isZero = false) :
    x.text = if x.isNegative then ascii '-' :: (Decimal.shortest x.abs).positional
      else (Decimal.shortest x.abs).positional := by
  have hlt : x.magnitude < infinite := by simpa [isFinite] using hx
  have hnan : x.isNaN = false := by
    rw [isNaN, decide_eq_false_iff_not]
    omega
  have hinfinite : x.isInfinite = false := by
    rw [isInfinite, decide_eq_false_iff_not]
    omega
  simp [text, hnan, hinfinite, hzero]

theorem numeral_text {x : Number} (hx : x.isFinite = true) (hsign : x.isNegative = false) :
    Numeral x.text ∧ read? x.text = some x := by
  cases hzero : x.isZero with
  | true =>
    rcases eq_of_isZero hzero with rfl | rfl
    · exact numeral_text_zero
    · exact absurd hsign (by decide)
  | false =>
    have hshortest := numeral_shortest hx
    rw [abs_eq hsign] at hshortest
    rw [text_eq hx hzero, hsign, abs_eq hsign]
    exact hshortest

theorem text_of_isNegative {x : Number} (hx : x.isFinite = true) (hsign : x.isNegative = true)
    (hzero : x ≠ minusZero) :
    ∃ digits y, x.text = ascii '-' :: digits ∧ Numeral digits ∧ read? digits = some y ∧
      y.negate = x := by
  have hnonzero : x.isZero = false := by
    rw [← Bool.not_eq_true]
    intro h
    rcases eq_of_isZero h with rfl | rfl
    · exact absurd hsign (by decide)
    · exact hzero rfl
  obtain ⟨hnumeral, hread⟩ := numeral_shortest hx
  refine ⟨_, _, ?_, hnumeral, hread, negate_abs hsign⟩
  rw [text_eq hx hnonzero, hsign, if_pos rfl]

end Number

end SmallLang
