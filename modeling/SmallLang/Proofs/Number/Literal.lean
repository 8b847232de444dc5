import SmallLang.Number.Reader
import SmallLang.Proofs.Number.Rounding
import SmallLang.Token.Lexer

/-! Number literals: decimal digits, maybe with a point. They read as the number nearest to their
value, as far as that is finite. -/

namespace SmallLang

def Digits (ds : Bytes) : Prop := ∀ b ∈ ds, Lexer.isDigit b = true

/-- Digits with at most one point, of which there is at least one digit. -/
inductive Numeral : Bytes → Prop
  | whole {ds} : ds ≠ [] → Digits ds → Numeral ds
  | pointed {ds fs} : ds ++ fs ≠ [] → Digits ds → Digits fs → Numeral (ds ++ ascii '.' :: fs)

namespace Numeral

/-- The number that digits behind the digits of `n` make with them. -/
def valueFrom (n : Nat) (ds : Bytes) : Nat := ds.foldl (fun n b => n * 10 + (b.toNat - 48)) n

def numerator (text : Bytes) : Nat := valueFrom 0 (text.filter fun b => b ≠ ascii '.')

def places (text : Bytes) : Nat := (text.dropWhile fun b => b ≠ ascii '.').length - 1

def value (text : Bytes) : Number := .ofRatio false (numerator text) (10 ^ places text)

def InRange (text : Bytes) : Prop := numerator text < 10 ^ places text * Number.finiteBound

instance (text : Bytes) : Decidable (InRange text) := inferInstanceAs (Decidable (_ < _))

end Numeral

theorem Lexer.isDigit_iff {b : UInt8} : isDigit b = true ↔ 48 ≤ b.toNat ∧ b.toNat ≤ 57 := by
  simp [isDigit, UInt8.le_iff_toNat_le]

theorem Digits.tail {b : UInt8} {ds : Bytes} (h : Digits (b :: ds)) : Digits ds :=
  fun c hc => h c (List.mem_cons_of_mem b hc)

theorem Digits.head {b : UInt8} {ds : Bytes} (h : Digits (b :: ds)) : Lexer.isDigit b = true :=
  h b List.mem_cons_self

def IsNumeralByte (b : UInt8) : Prop := Lexer.isDigit b = true ∨ b = ascii '.'

theorem Numeral.isNumeralByte {text : Bytes} (h : Numeral text) : ∀ b ∈ text, IsNumeralByte b := by
  cases h with
  | whole _ hd => exact fun b hb => .inl (hd b hb)
  | pointed _ hd hf =>
    intro b hb
    rcases List.mem_append.mp hb with hb | hb
    · exact .inl (hd b hb)
    · rcases List.mem_cons.mp hb with rfl | hb
      · exact .inr rfl
      · exact .inl (hf b hb)

theorem Numeral.ne_nil {text : Bytes} (h : Numeral text) : text ≠ [] := by
  cases h with
  | whole hne _ => exact hne
  | pointed => simp

theorem IsNumeralByte.ne {b c : UInt8} (h : IsNumeralByte b) (hc : ¬ Lexer.isDigit c = true)
    (hp : c ≠ ascii '.') : b ≠ c := by
  rintro rfl
  exact h.elim hc hp

theorem IsNumeralByte.lowerByte_eq {b : UInt8} (h : IsNumeralByte b) : Number.lowerByte b = b := by
  rcases h with h | rfl
  · rw [Lexer.isDigit_iff] at h
    have hupper : ¬ 65 ≤ b := by
      rw [UInt8.le_iff_toNat_le]
      simp
      omega
    simp [Number.lowerByte, hupper]
  · rfl

namespace Number

theorem digitValue?_digit {b : UInt8} (h : Lexer.isDigit b = true) :
    digitValue? 10 b = some (b.toNat - 48) := by
  rw [Lexer.isDigit_iff] at h
  simp [digitValue?, h]

theorem scanMantissa_digits {ds : Bytes} (h : Digits ds) (m : Mantissa) (rest : Bytes) :
    scanMantissa 10 m (ds ++ rest) =
      scanMantissa 10 ⟨Numeral.valueFrom m.value ds, m.any || !ds.isEmpty,
        m.places.map (· + ds.length)⟩ rest := by
  induction ds generalizing m with
  | nil => simp [Numeral.valueFrom]
  | cons b ds ih =>
    have hb : IsNumeralByte b := .inl h.head
    have hunderscore : b ≠ ascii '_' := hb.ne (by decide) (by decide)
    have hpoint : b ≠ ascii '.' := by
      rintro rfl
      exact absurd h.head (by decide)
    rw [List.cons_append, scanMantissa, if_neg hunderscore]
    simp only [hpoint, decide_false, Bool.false_and, digitValue?_digit h.head, ih h.tail]
    have hplaces : (m.places.map (· + 1)).map (· + ds.length) =
        m.places.map (· + (b :: ds).length) := by
      cases m.places with
      | none => rfl
      | some p => simp; omega
    simp [Numeral.valueFrom, hplaces]

theorem separates_numeral {text : Bytes} (h : ∀ b ∈ text, IsNumeralByte b) (afterDigit : Bool) :
    separates 10 afterDigit false text = true := by
  induction text generalizing afterDigit with
  | nil => rfl
  | cons b text ih =>
    have hb := h b List.mem_cons_self
    have ih := ih fun c hc => h c (List.mem_cons_of_mem b hc)
    have hunderscore : b ≠ ascii '_' := hb.ne (by decide) (by decide)
    rw [separates, if_neg hunderscore]
    split
    · exact ih true
    · simpa using ih false

theorem ofDecimal?_neg (negative : Bool) (m places : Nat) :
    ofDecimal? negative m (-(places : Int)) = ofRatio? negative m (10 ^ places) := by
  simp only [ofDecimal?, Nat.pow_eq, Int.neg_neg, Int.toNat_natCast]
  split
  · obtain rfl : places = 0 := by omega
    simp
  · rfl

end Number

namespace Numeral

theorem filter_digits {ds : Bytes} (h : Digits ds) : (ds.filter fun b => b ≠ ascii '.') = ds := by
  refine List.filter_eq_self.mpr fun b hb => ?_
  have hb : b ≠ ascii '.' := by
    rintro rfl
    exact absurd (h _ hb) (by decide)
  simpa using hb

theorem dropWhile_digits {ds : Bytes} (h : Digits ds) (rest : Bytes) :
    ((ds ++ rest).dropWhile fun b => b ≠ ascii '.') = rest.dropWhile fun b => b ≠ ascii '.' := by
  induction ds with
  | nil => rfl
  | cons b ds ih =>
    have hb : b ≠ ascii '.' := by
      rintro rfl
      exact absurd h.head (by decide)
    rw [List.cons_append, List.dropWhile_cons_of_pos (by simpa using hb), ih h.tail]

theorem numerator_whole {ds : Bytes} (h : Digits ds) : numerator ds = valueFrom 0 ds := by
  rw [numerator, filter_digits h]

theorem places_whole {ds : Bytes} (h : Digits ds) : places ds = 0 := by
  have hdrop := dropWhile_digits h []
  rw [List.append_nil] at hdrop
  rw [places, hdrop]
  rfl

theorem numerator_pointed {ds fs : Bytes} (hd : Digits ds) (hf : Digits fs) :
    numerator (ds ++ ascii '.' :: fs) = valueFrom (valueFrom 0 ds) fs := by
  rw [numerator, List.filter_append, List.filter_cons_of_neg (by simp), filter_digits hd,
    filter_digits hf]
  simp [valueFrom]

theorem places_pointed {ds fs : Bytes} (hd : Digits ds) :
    places (ds ++ ascii '.' :: fs) = fs.length := by
  rw [places, dropWhile_digits hd, List.dropWhile_cons_of_neg (by simp)]
  simp

end Numeral

namespace Number

theorem readDecimal?_numeral {text : Bytes} (h : Numeral text) (negative : Bool) :
    readDecimal? negative text =
      ofRatio? negative (Numeral.numerator text) (10 ^ Numeral.places text) := by
  cases h with
  | whole hne hd =>
    have hscan := scanMantissa_digits hd ⟨0, false, none⟩ []
    rw [List.append_nil, scanMantissa] at hscan
    have hzero := ofDecimal?_neg negative (Numeral.valueFrom 0 text) 0
    simpa [readDecimal?, hscan, hne, Numeral.numerator_whole hd, Numeral.places_whole hd]
      using hzero
  | pointed hne hd hf =>
    rename_i ds fs
    have hscan := scanMantissa_digits hf ⟨Numeral.valueFrom 0 ds, !ds.isEmpty, some 0⟩ []
    rw [List.append_nil, scanMantissa] at hscan
    have hpoint : ascii '.' ≠ ascii '_' := by decide
    have hany : ds = [] → fs ≠ [] := fun h => by simpa [h] using hne
    simp [readDecimal?, scanMantissa_digits hd, scanMantissa, hpoint, hscan,
      Numeral.numerator_pointed hd hf, Numeral.places_pointed hd, ← ofDecimal?_neg]
    exact fun hds hfs => (hany hds hfs).elim

theorem not_hexadecimal {text : Bytes} (h : ∀ b ∈ text, IsNumeralByte b) :
    isHexadecimal text = false ∧ underscoresSeparate text = true := by
  match text with
  | [] => simp [isHexadecimal, underscoresSeparate, separates]
  | [b] => exact ⟨rfl, separates_numeral h false⟩
  | z :: x :: rest =>
    have hx : lowerByte x ≠ ascii 'x' := by
      have hx := h x (by simp)
      rw [hx.lowerByte_eq]
      exact hx.ne (by decide) (by decide)
    refine ⟨?_, ?_⟩
    · cases rest <;> simp [isHexadecimal, hx]
    · simpa [underscoresSeparate, hx] using separates_numeral h false

theorem splitSign_numeral {text : Bytes} (h : ∀ b ∈ text, IsNumeralByte b) :
    splitSign text = (false, text) := by
  cases text with
  | nil => rfl
  | cons b text =>
    have hb := h b List.mem_cons_self
    have hminus : b ≠ ascii '-' := hb.ne (by decide) (by decide)
    have hplus : b ≠ ascii '+' := hb.ne (by decide) (by decide)
    simp [splitSign, hminus, hplus]

theorem numeral_ne {text : Bytes} (h : ∀ b ∈ text, IsNumeralByte b) {b : UInt8} {word : Bytes}
    (hb : ¬ Lexer.isDigit b = true) (hp : b ≠ ascii '.') : text ≠ b :: word := by
  rintro rfl
  exact (h b List.mem_cons_self).ne hb hp rfl

/-- A literal behind its sign, if there is one. -/
theorem read?_signed {text digits : Bytes} {negative : Bool}
    (hsplit : splitSign text = (negative, digits)) (h : Numeral digits)
    (hnan : text.map lowerByte ≠ utf8 "nan") :
    read? text =
      ofRatio? negative (Numeral.numerator digits) (10 ^ Numeral.places digits) := by
  have hbytes := h.isNumeralByte
  have hlower : digits.map lowerByte = digits := by
    rw [List.map_congr_left fun b hb => (hbytes b hb).lowerByte_eq, List.map_id']
  have hinf : digits ≠ utf8 "inf" := numeral_ne hbytes (by decide) (by decide)
  have hinfinity : digits ≠ utf8 "infinity" := numeral_ne hbytes (by decide) (by decide)
  obtain ⟨hhex, hseparate⟩ := not_hexadecimal hbytes
  simp only [read?, hsplit, hlower, hinf, hinfinity, hnan, hhex, hseparate]
  simpa using readDecimal?_numeral h negative

theorem read?_numeral {text : Bytes} (h : Numeral text) :
    read? text = ofRatio? false (Numeral.numerator text) (10 ^ Numeral.places text) := by
  have hbytes := h.isNumeralByte
  refine read?_signed (splitSign_numeral hbytes) h ?_
  rw [List.map_congr_left fun b hb => (hbytes b hb).lowerByte_eq, List.map_id']
  exact numeral_ne hbytes (by decide) (by decide)

theorem read?_minus {digits : Bytes} (h : Numeral digits) :
    read? (ascii '-' :: digits) =
      ofRatio? true (Numeral.numerator digits) (10 ^ Numeral.places digits) := by
  refine read?_signed rfl h fun hnan => ?_
  exact absurd (List.cons.inj hnan).1 (by decide)

theorem read?_numeral_iff {text : Bytes} (h : Numeral text) (x : Number) :
    read? text = some x ↔ Numeral.InRange text ∧ x = Numeral.value text := by
  have hden : 0 < 10 ^ Numeral.places text := Nat.pow_pos (by decide)
  rw [read?_numeral h, Numeral.value, ofRatio, ofRatio?, Numeral.InRange,
    ← nearestMagnitude_lt_infinite_iff hden]
  split
  · rename_i hlt
    simp [hlt, eq_comm]
  · rename_i hlt
    simp [hlt]

end Number

end SmallLang
