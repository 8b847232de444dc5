import SmallLang.Proofs.Token.Gaps
import SmallLang.Proofs.Token.Writing

/-! The longest match. Of the words, numbers and marks in front of a text the lexer takes the
longest one; where there is none it takes one byte, which is illegal. -/

namespace SmallLang.Lexer

/-- A word, a number literal, or a mark of `marks` or `doubleMarks`. -/
inductive IsLexeme : TokenKind → Bytes → Prop
  | word {text : Bytes} : IsWord text → IsLexeme (.ofWord text) text
  | number {text : Bytes} : Numeral text → IsLexeme .number text
  | mark {b : UInt8} {kind : TokenKind} : mark? b = some kind → kind ≠ .eof → IsLexeme kind [b]
  | double {b : UInt8} {kind : TokenKind} : doubleMark? b = some kind → IsLexeme kind [b, b]

/-- The first token of a text that starts with no gap. -/
inductive IsFirst (rest : Bytes) : TokenKind → Bytes → Prop
  | longest {kind : TokenKind} {text : Bytes} : IsLexeme kind text → text <+: rest →
      (∀ kind' text', IsLexeme kind' text' → text' <+: rest → text'.length ≤ text.length) →
      IsFirst rest kind text
  | illegal {b : UInt8} : [b] <+: rest → b ≠ 0 →
      (∀ kind text, IsLexeme kind text → ¬ text <+: rest) → IsFirst rest .illegal [b]

theorem IsLexeme.ne_eof {kind : TokenKind} {text : Bytes} (h : IsLexeme kind text) :
    kind ≠ .eof := by
  cases h with
  | word _ => exact TokenKind.ofWord_ne (by decide) (by decide) text
  | number _ => simp
  | mark _ hkind => exact hkind
  | double hdouble => exact (doubleMark?_eq_some hdouble).2.2

theorem IsLexeme.zero_notMem {kind : TokenKind} {text : Bytes} (h : IsLexeme kind text) :
    0 ∉ text := by
  cases h with
  | word hword =>
    obtain ⟨b, rest, rfl, hb, hrest⟩ := hword
    intro hmem
    rcases List.mem_cons.mp hmem with rfl | hmem
    · cases hb
    · cases hrest 0 hmem
  | number hnumber =>
    intro hmem
    have hzero := hnumber.isNumeralByte 0 hmem
    exact hzero.ne (by decide) (by decide) rfl
  | mark hmark hkind =>
    intro hmem
    obtain rfl := List.mem_singleton.mp hmem
    cases hmark
    exact hkind rfl
  | @double b _ hdouble =>
    intro hmem
    obtain rfl : 0 = b := by simpa using hmem
    cases hdouble

theorem IsFirst.ne_eof {rest text : Bytes} {kind : TokenKind} (h : IsFirst rest kind text) :
    kind ≠ .eof := by
  cases h with
  | longest hlexeme _ _ => exact hlexeme.ne_eof
  | illegal _ _ _ => simp

theorem IsFirst.zero_notMem {rest text : Bytes} {kind : TokenKind}
    (h : IsFirst rest kind text) : 0 ∉ text := by
  cases h with
  | longest hlexeme _ _ => exact hlexeme.zero_notMem
  | illegal _ hb _ => simp [hb.symm]

theorem IsFirst.front {rest text : Bytes} {kind : TokenKind} (h : IsFirst rest kind text) :
    text <+: rest := by
  cases h with
  | longest _ hfront _ => exact hfront
  | illegal hfront _ _ => exact hfront

theorem IsFirst.ne_nil {rest text : Bytes} {kind : TokenKind}
    (h : IsFirst rest kind text) : text ≠ [] := by
  cases h with
  | longest hlexeme _ _ =>
    cases hlexeme with
    | word hword =>
      obtain ⟨b, rest, rfl, -⟩ := hword
      simp
    | number hnumber => exact hnumber.ne_nil
    | mark _ _ => simp
    | double _ => simp
  | illegal _ _ _ => simp

theorem length_le_takeWhile {p : UInt8 → Bool} {text rest : Bytes} (h : ∀ b ∈ text, p b = true)
    (hfront : text <+: rest) : text.length ≤ (rest.takeWhile p).length := by
  obtain ⟨tail, rfl⟩ := hfront
  rw [List.takeWhile_append_of_pos h]
  simp

theorem length_le_numberLength {text rest : Bytes} (h : Numeral text) (hfront : text <+: rest) :
    text.length ≤ numberLength rest := by
  cases h with
  | whole _ hd =>
    have hlength := length_le_takeWhile hd hfront
    simp only [numberLength]
    split
    · split <;> omega
    · exact hlength
  | @pointed ds fs _ hd hf =>
    obtain ⟨tail, rfl⟩ := hfront
    have hpoint : ∀ b ∈ (ascii '.' :: (fs ++ tail)).head?, isDigit b = false := by
      intro b hb
      obtain rfl : ascii '.' = b := by simpa using hb
      rfl
    have hfraction : fs.length ≤ ((fs ++ tail).takeWhile isDigit).length :=
      length_le_takeWhile hf (List.prefix_append fs tail)
    rw [List.append_assoc, List.cons_append]
    simp only [numberLength, takeWhile_append_eq hd hpoint, List.drop_left, if_true,
      List.length_append, List.length_cons]
    omega

theorem IsLexeme.front_cases {kind : TokenKind} {text rest : Bytes} {b : UInt8}
    (h : IsLexeme kind text) (hfront : text <+: b :: rest) :
    isLetter b = true ∧
        text.length ≤ (b :: rest.takeWhile fun c => isLetter c || isDigit c).length ∨
      IsNumeralByte b ∧ startsNumber b rest = true ∧ text.length ≤ numberLength (b :: rest) ∨
      mark? b ≠ none ∧ text.length = 1 ∨
      doubleMark? b ≠ none ∧ rest.head? = some b ∧ text.length = 2 := by
  cases h with
  | word hword =>
    obtain ⟨c, word, rfl, hc, hword⟩ := hword
    obtain ⟨rfl, hrest⟩ := List.cons_prefix_cons.mp hfront
    exact .inl ⟨hc, Nat.succ_le_succ (length_le_takeWhile hword hrest)⟩
  | number hnumber =>
    have hlength := length_le_numberLength hnumber hfront
    cases text with
    | nil => exact absurd rfl hnumber.ne_nil
    | cons c text =>
      obtain ⟨rfl, tail, rfl⟩ := List.cons_prefix_cons.mp hfront
      have hb := hnumber.isNumeralByte c List.mem_cons_self
      exact .inr (.inl ⟨hb, startsNumber_numeral hnumber tail, hlength⟩)
  | mark hmark _ =>
    obtain ⟨rfl, -⟩ := List.cons_prefix_cons.mp hfront
    exact .inr (.inr (.inl ⟨by simp [hmark], rfl⟩))
  | double hdouble =>
    obtain ⟨rfl, tail, rfl⟩ := List.cons_prefix_cons.mp hfront
    exact .inr (.inr (.inr ⟨by simp [hdouble], rfl, rfl⟩))

theorem isFirst_double {b : UInt8} {kind : TokenKind} (hdouble : doubleMark? b = some kind)
    (rest : Bytes) : IsFirst (b :: b :: rest) kind [b, b] := by
  refine .longest (.double hdouble) (List.prefix_append [b, b] rest)
    fun kind' text hlexeme hfront => ?_
  rcases hlexeme.front_cases hfront with ⟨hb, -⟩ | ⟨hb, -⟩ | ⟨-, hlength⟩ | ⟨-, -, hlength⟩
  · obtain ⟨-, -, hnone, -⟩ := plain_of_wordByte (b := b) (by simp [hb])
    simp [hdouble] at hnone
  · obtain ⟨-, -, hnone, -⟩ := plain_of_numeralByte hb
    simp [hdouble] at hnone
  · simp [hlength]
  · simp [hlength]

theorem isFirst_mark {b : UInt8} {kind : TokenKind} (hmark : mark? b = some kind)
    (hkind : kind ≠ .eof) {rest : Bytes} (hdouble : doubleMark? b = none ∨ rest.head? ≠ some b) :
    IsFirst (b :: rest) kind [b] := by
  refine .longest (.mark hmark hkind) (List.prefix_append [b] rest)
    fun kind' text hlexeme hfront => ?_
  rcases hlexeme.front_cases hfront with ⟨hb, -⟩ | ⟨hb, -⟩ | ⟨-, hlength⟩ | ⟨hsome, hhead, -⟩
  · obtain ⟨-, -, -, hnone⟩ := plain_of_wordByte (b := b) (by simp [hb])
    simp [hmark] at hnone
  · obtain ⟨-, -, -, hnone⟩ := plain_of_numeralByte hb
    simp [hmark] at hnone
  · simp [hlength]
  · rcases hdouble with hnone | hother
    · exact absurd hnone hsome
    · exact absurd hhead hother

theorem isFirst_word {b : UInt8} (hb : isLetter b = true) (rest : Bytes) :
    IsFirst (b :: rest) (.ofWord (b :: rest.takeWhile fun c => isLetter c || isDigit c))
      (b :: rest.takeWhile fun c => isLetter c || isDigit c) := by
  obtain ⟨-, -, hdouble, hmark⟩ := plain_of_wordByte (b := b) (by simp [hb])
  refine .longest (.word ⟨b, _, rfl, hb, List.all_eq_true.mp List.all_takeWhile⟩) ?_
    fun kind' text hlexeme hfront => ?_
  · exact List.cons_prefix_cons.mpr ⟨rfl, List.takeWhile_prefix _⟩
  · rcases hlexeme.front_cases hfront with ⟨-, hlength⟩ | ⟨hnumber, -⟩ | ⟨hsome, -⟩ | ⟨hsome, -⟩
    · exact hlength
    · simp [isLetter_eq_false hnumber] at hb
    · exact absurd hmark hsome
    · exact absurd hdouble hsome

theorem isNumeralByte_of_startsNumber {b : UInt8} {rest : Bytes}
    (h : startsNumber b rest = true) : IsNumeralByte b := by
  simp only [startsNumber, Bool.or_eq_true, Bool.and_eq_true, decide_eq_true_eq] at h
  exact h.imp id And.left

theorem isFirst_number {b : UInt8} {rest : Bytes} (h : startsNumber b rest = true) :
    IsFirst (b :: rest) .number ((b :: rest).take (numberLength (b :: rest))) := by
  have hb := isNumeralByte_of_startsNumber h
  obtain ⟨-, -, hdouble, hmark⟩ := plain_of_numeralByte hb
  refine .longest (.number (numeral_of_startsNumber h)) (List.take_prefix _ _)
    fun kind' text hlexeme hfront => ?_
  rcases hlexeme.front_cases hfront with ⟨hletter, -⟩ | ⟨-, -, hlength⟩ | ⟨hsome, -⟩ | ⟨hsome, -⟩
  · simp [isLetter_eq_false hb] at hletter
  · rw [List.length_take]
    exact Nat.le_min.mpr ⟨hlength, hfront.length_le⟩
  · exact absurd hmark hsome
  · exact absurd hdouble hsome

theorem isFirst_illegal {b : UInt8} {rest : Bytes}
    (hdouble : doubleMark? b = none ∨ rest.head? ≠ some b) (hmark : mark? b = none)
    (hletter : ¬ isLetter b = true) (hnumber : ¬ startsNumber b rest = true) :
    IsFirst (b :: rest) .illegal [b] := by
  refine .illegal (List.prefix_append [b] rest) (ne_zero_of_mark?_eq_none hmark)
    fun kind text hlexeme hfront => ?_
  rcases hlexeme.front_cases hfront with ⟨hb, -⟩ | ⟨-, hb, -⟩ | ⟨hsome, -⟩ | ⟨hsome, hhead, -⟩
  · exact hletter hb
  · exact hnumber hb
  · exact hsome hmark
  · rcases hdouble with hnone | hother
    · exact hsome hnone
    · exact hother hhead

theorem lexeme_of_atEnd {text : Bytes} (h : AtEnd text) : (lexeme text).1 = .eof := by
  cases text with
  | nil => rfl
  | cons b rest =>
    obtain rfl : b = 0 := h b rfl
    have hmark : lexeme (0 :: rest) = (.eof, 1) := lexeme_mark rfl (.inl rfl)
    rw [hmark]

theorem numberLength_le (text : Bytes) : numberLength text ≤ text.length := by
  have hwhole : (text.takeWhile isDigit).length ≤ text.length := (List.takeWhile_prefix _).length_le
  simp only [numberLength]
  split
  · rename_i b rest hrest
    have hlength : (text.takeWhile isDigit).length + (rest.length + 1) = text.length := by
      have hdrop := congrArg List.length hrest
      rw [List.length_drop, List.length_cons] at hdrop
      omega
    have hfraction : (rest.takeWhile isDigit).length ≤ rest.length :=
      (List.takeWhile_prefix _).length_le
    split <;> omega
  · exact hwhole

theorem lexeme_isFirst {text : Bytes} (h : ¬ AtEnd text) :
    IsFirst text (lexeme text).1 (text.take (lexeme text).2) ∧
      (lexeme text).2 ≤ text.length := by
  cases text with
  | nil => exact absurd (by simp [AtEnd]) h
  | cons b rest =>
    have hzero : b ≠ 0 := fun hb => h (by simp [AtEnd, hb])
    simp only [lexeme]
    split
    · rename_i kind hdouble
      split at hdouble
      · rename_i hhead
        obtain ⟨tail, rfl⟩ := List.head?_eq_some_iff.mp hhead
        exact ⟨isFirst_double hdouble tail, by simp⟩
      · cases hdouble
    · rename_i hdouble
      have hsingle : doubleMark? b = none ∨ rest.head? ≠ some b := by
        by_cases hhead : rest.head? = some b
        · exact .inl (by simpa [hhead] using hdouble)
        · exact .inr hhead
      split
      · rename_i kind hmark
        have hkind : kind ≠ .eof := by
          rintro rfl
          exact mark?_ne_eof hzero hmark
        exact ⟨isFirst_mark hmark hkind hsingle, by simp⟩
      · rename_i hmark
        split
        · rename_i hletter
          rw [take_word]
          refine ⟨isFirst_word hletter rest, ?_⟩
          simpa using (List.takeWhile_prefix _).length_le
        · rename_i hletter
          split
          · rename_i hnumber
            exact ⟨isFirst_number hnumber, numberLength_le _⟩
          · rename_i hnumber
            exact ⟨isFirst_illegal hsingle hmark hletter hnumber, by simp⟩

end SmallLang.Lexer
