import SmallLang.Console
import SmallLang.Proofs.Number.Text

/-! Printed values are read back from their texts. -/

namespace SmallLang

namespace Text

def Visible (b : UInt8) : Prop := b.toNat < 0x80 ∧ isBlank b.toNat = false

theorem firstPiece_ascii {b : UInt8} (h : b.toNat < 0x80) (rest : Bytes) :
    firstPiece b rest = (.scalar b.toNat, 0) := by
  simp [firstPiece, h]

theorem bytes_ascii {b : UInt8} (h : b.toNat < 0x80) : (Piece.scalar b.toNat).bytes = [b] := by
  rw [Piece.bytes, encode, if_pos h]
  exact congrArg (fun c => [c]) (UInt8.ofNat_toNat)

theorem pieces_ascii {text : Bytes} (h : ∀ b ∈ text, b.toNat < 0x80) :
    pieces text = text.map fun b => .scalar b.toNat := by
  rw [pieces]
  induction text with
  | nil => rfl
  | cons b text ih =>
    obtain ⟨hb, htext⟩ := List.forall_mem_cons.mp h
    rw [List.length_cons, piecesUpTo, firstPiece_ascii hb, List.map_cons, ← ih htext]
    rfl

theorem dropWhile_isBlank {text : Bytes} (h : ∀ b ∈ text, Visible b) :
    (text.map fun b => Piece.scalar b.toNat).dropWhile Piece.isBlank =
      text.map fun b => .scalar b.toNat := by
  cases text with
  | nil => rfl
  | cons b text =>
    have hb : (Piece.scalar b.toNat).isBlank = false := (h b List.mem_cons_self).2
    rw [List.map_cons, List.dropWhile_cons_of_neg (by rw [hb]; decide)]

theorem trim_of_visible {text : Bytes} (h : ∀ b ∈ text, Visible b) : trim text = text := by
  have hreverse : ∀ b ∈ text.reverse, Visible b := fun b hb => h b (List.mem_reverse.mp hb)
  rw [trim, pieces_ascii fun b hb => (h b hb).1]
  simp only [dropWhile_isBlank h]
  rw [← List.map_reverse, dropWhile_isBlank hreverse, ← List.map_reverse, List.reverse_reverse,
    List.flatMap_map, List.flatMap_def, List.map_congr_left fun b hb => bytes_ascii (h b hb).1,
    ← List.flatMap_def, List.flatMap_singleton']

end Text

theorem IsNumeralByte.visible {b : UInt8} (h : IsNumeralByte b) : Text.Visible b := by
  rcases h with h | rfl
  · rw [Lexer.isDigit_iff] at h
    refine ⟨by omega, ?_⟩
    simp [Text.isBlank]
    omega
  · exact ⟨by decide, by decide⟩

namespace Number

theorem text_of_isZero {x : Number} (h : x.isZero = true) : x.text = utf8 "0" := by
  have hmagnitude : x.magnitude = 0 := of_decide_eq_true h
  have hnan : ¬ x.isNaN = true := by simp [isNaN, hmagnitude]
  have hinfinite : ¬ x.isInfinite = true := by
    rw [isInfinite, hmagnitude]
    decide
  rw [text, if_neg hnan, if_neg hinfinite, if_pos h]

theorem isNaN_or_isInfinite_or_isFinite (x : Number) :
    x.isNaN = true ∨ x.isInfinite = true ∨ x.isFinite = true := by
  simp only [isNaN, isInfinite, isFinite, decide_eq_true_eq]
  omega

theorem negate_ofMagnitude {m : Nat} (hm : m < signWeight) :
    (ofMagnitude false m).negate = ofMagnitude true m := by
  apply ext_magnitude
  · rw [isNegative_negate, isNegative_ofMagnitude hm, isNegative_ofMagnitude hm]
    rfl
  · rw [magnitude_negate, magnitude_ofMagnitude hm, magnitude_ofMagnitude hm]

theorem ofRatio?_negate {num den : Nat} {x : Number} (h : ofRatio? false num den = some x) :
    ofRatio? true num den = some x.negate := by
  rw [ofRatio?] at h ⊢
  split at h
  · rename_i hlt
    obtain rfl := Option.some.inj h
    rw [if_pos hlt, negate_ofMagnitude (Nat.lt_trans hlt (by decide))]
  · exact absurd h (by simp)

end Number

namespace Value

theorem read_num {text : Bytes} {x : Number} (hvisible : ∀ b ∈ text, Text.Visible b)
    (h : Number.read? text = some x) : read .num text = .ok (.num x) := by
  simp only [read, Text.trim_of_visible hvisible, h]

theorem read_numeral {text : Bytes} {x : Number} (hnumeral : Numeral text)
    (h : Number.read? text = some x) : read .num text = .ok (.num x) :=
  read_num (fun b hb => (hnumeral.isNumeralByte b hb).visible) h

theorem read_text_minusZero : read .num Number.minusZero.text = .ok (.num .zero) := by
  have hminus : Number.minusZero.text = utf8 "0" := Number.text_of_isZero rfl
  have hzero : Number.zero.text = utf8 "0" := Number.text_of_isZero rfl
  obtain ⟨hnumeral, hread⟩ := Number.numeral_text_zero
  rw [hminus, ← hzero]
  exact read_numeral hnumeral hread

theorem read_text_finite {x : Number} (hx : x.isFinite = true) (hzero : x ≠ .minusZero) :
    read .num x.text = .ok (.num x) := by
  cases hsign : x.isNegative with
  | false =>
    obtain ⟨hnumeral, hread⟩ := Number.numeral_text hx hsign
    exact read_numeral hnumeral hread
  | true =>
    obtain ⟨digits, y, htext, hnumeral, hread, rfl⟩ := Number.text_of_isNegative hx hsign hzero
    rw [Number.read?_numeral hnumeral] at hread
    rw [htext]
    refine read_num (List.forall_mem_cons.mpr ⟨⟨by decide, by decide⟩, fun b hb => ?_⟩) ?_
    · exact (hnumeral.isNumeralByte b hb).visible
    · rw [Number.read?_minus hnumeral, Number.ofRatio?_negate hread]

theorem read_text_infinite {x : Number} (hx : x.isInfinite = true) :
    read .num x.text = .ok (.num x) := by
  have hmagnitude : x.magnitude = Number.infinite := of_decide_eq_true hx
  have hinfinity : x = .infinity x.isNegative := by
    have hlt : Number.infinite < Number.signWeight := by decide
    apply Number.ext_magnitude
    · rw [Number.infinity, Number.isNegative_ofMagnitude hlt]
    · rw [Number.infinity, Number.magnitude_ofMagnitude hlt, hmagnitude]
  rw [hinfinity]
  cases x.isNegative <;> rfl

theorem read_text_nan {x : Number} (hx : x.isNaN = true) :
    read .num x.text = .ok (.num .nan) := by
  rw [Number.text, if_pos hx]
  rfl

/-- The text of a number reads as the number, that of minus zero as zero, and that of a NaN as a
NaN. The text of a truth value reads as the truth value. -/
theorem read_text :
    (∀ x : Number, ∃ y, read .num (num x).text = .ok (.num y) ∧
      (x.isNaN = true → y.isNaN = true) ∧ (x = .minusZero → y = .zero) ∧
      (x.isNaN = false → x ≠ .minusZero → y.bits = x.bits)) ∧
    ∀ b : Bool, read .bool (bool b).text = .ok (.bool b) := by
  constructor
  · intro x
    by_cases hzero : x = .minusZero
    · subst hzero
      exact ⟨.zero, read_text_minusZero, by decide, fun _ => rfl, fun _ h => absurd rfl h⟩
    rcases x.isNaN_or_isInfinite_or_isFinite with hnan | hinfinite | hfinite
    · exact ⟨.nan, read_text_nan hnan, fun _ => rfl, fun h => absurd h hzero,
        fun h => absurd hnan (by simp [h])⟩
    · exact ⟨x, read_text_infinite hinfinite, id, fun h => absurd h hzero, fun _ _ => rfl⟩
    · exact ⟨x, read_text_finite hfinite hzero, id, fun h => absurd h hzero, fun _ _ => rfl⟩
  · intro b
    cases b <;> rfl

end Value

end SmallLang
