import SmallLang.Proofs.Number.Literal
import SmallLang.Proofs.Token.Tables

/-! The texts of the tokens of a source text: identifiers are words that are not reserved, and
number tokens are literals. -/

namespace SmallLang

/-- A letter and maybe further letters and digits. -/
def IsWord (text : Bytes) : Prop :=
  ∃ b rest, text = b :: rest ∧ Lexer.isLetter b = true ∧
    ∀ c ∈ rest, Lexer.isLetter c || Lexer.isDigit c

def IsName (text : Bytes) : Prop := IsWord text ∧ TokenKind.ofWord text = .ident

structure Token.Genuine (t : Token) : Prop where
  name : t.kind = .ident → IsName t.text
  numeral : t.kind = .number → Numeral t.text

theorem TokenKind.ofWord_cases (word : Bytes) :
    ofWord word = .ident ∨ (word, ofWord word) ∈ keywords := by
  unfold ofWord
  cases h : keywords.lookup word with
  | none => exact .inl rfl
  | some kind =>
    obtain ⟨l, r, hkeywords, -⟩ := List.lookup_eq_some_iff.mp h
    exact .inr (by simp [hkeywords])

theorem TokenKind.ofWord_ne {kind : TokenKind} (hident : kind ≠ .ident)
    (hkeywords : kind ∉ keywords.map Prod.snd) (word : Bytes) : ofWord word ≠ kind := by
  rintro rfl
  rcases ofWord_cases word with hw | hw
  · exact hident hw
  · exact hkeywords (List.mem_map_of_mem hw)

namespace Lexer

theorem digits_takeWhile (text : Bytes) : Digits (text.takeWhile isDigit) :=
  List.all_eq_true.mp List.all_takeWhile

theorem drop_takeWhile (p : UInt8 → Bool) (text : Bytes) :
    text.drop (text.takeWhile p).length = text.dropWhile p := by
  calc text.drop (text.takeWhile p).length
      = (text.takeWhile p ++ text.dropWhile p).drop (text.takeWhile p).length := by
        rw [List.takeWhile_append_dropWhile]
    _ = text.dropWhile p := List.drop_left

theorem take_takeWhile_add (p : UInt8 → Bool) (text : Bytes) (n : Nat) :
    text.take ((text.takeWhile p).length + n) = text.takeWhile p ++ (text.dropWhile p).take n := by
  calc text.take ((text.takeWhile p).length + n)
      = (text.takeWhile p ++ text.dropWhile p).take ((text.takeWhile p).length + n) := by
        rw [List.takeWhile_append_dropWhile]
    _ = text.takeWhile p ++ (text.dropWhile p).take n := List.take_length_add_append n

theorem take_numberLength (text : Bytes) : text.take (numberLength text) =
    text.takeWhile isDigit ++
      match text.dropWhile isDigit with
      | [] => []
      | b :: rest => if b = ascii '.' then b :: rest.takeWhile isDigit else [] := by
  simp only [numberLength, drop_takeWhile]
  have hwhole : text.take (text.takeWhile isDigit).length = text.takeWhile isDigit := by
    simpa using take_takeWhile_add isDigit text 0
  cases hdrop : text.dropWhile isDigit with
  | nil => simpa using hwhole
  | cons b rest =>
    by_cases hp : b = ascii '.'
    · have hrest := take_takeWhile_add isDigit rest 0
      simp only [Nat.add_zero, List.take_zero, List.append_nil] at hrest
      simp only [hp, if_true]
      rw [Nat.add_assoc, take_takeWhile_add, hdrop, Nat.add_comm 1, List.take_succ_cons, hrest, hp]
    · simpa [hp] using hwhole

theorem numeral_of_startsNumber {b : UInt8} {rest : Bytes} (h : startsNumber b rest = true) :
    Numeral ((b :: rest).take (numberLength (b :: rest))) := by
  rw [take_numberLength]
  have hwhole := digits_takeWhile (b :: rest)
  cases hb : isDigit b with
  | true =>
    have hne : (b :: rest).takeWhile isDigit ≠ [] := by simp [hb]
    split
    · simpa using Numeral.whole hne hwhole
    · split
      · rename_i hp
        rw [hp]
        exact .pointed (by simp [hb]) hwhole (digits_takeWhile _)
      · simpa using Numeral.whole hne hwhole
  | false =>
    simp only [startsNumber, hb, Bool.false_or, Bool.and_eq_true, decide_eq_true_eq] at h
    obtain ⟨rfl, hrest⟩ := h
    have hfraction : rest.takeWhile isDigit ≠ [] := by
      cases rest with
      | nil => simp at hrest
      | cons c rest =>
        have hc : isDigit c = true := by simpa using hrest
        simp [hc]
    have hnumeral : Numeral ([] ++ ascii '.' :: rest.takeWhile isDigit) :=
      .pointed (by simpa using hfraction) (by simp [Digits]) (digits_takeWhile rest)
    simpa [hb] using hnumeral

theorem take_word (b : UInt8) (p : UInt8 → Bool) (rest : Bytes) :
    (b :: rest).take (b :: rest.takeWhile p).length = b :: rest.takeWhile p := by
  simpa using take_takeWhile_add p rest 0

theorem lexeme_genuine (text : Bytes) :
    ((lexeme text).1 = .ident → IsName (text.take (lexeme text).2)) ∧
      ((lexeme text).1 = .number → Numeral (text.take (lexeme text).2)) := by
  cases text with
  | nil => simp [lexeme]
  | cons b rest =>
    simp only [lexeme]
    split
    · rename_i kind hdouble
      split at hdouble
      · refine ⟨?_, ?_⟩
        all_goals
          rintro rfl
          exact absurd hdouble (doubleMark?_ne (by decide))
      · cases hdouble
    · split
      · rename_i kind hmark
        refine ⟨?_, ?_⟩
        all_goals
          rintro rfl
          exact absurd hmark (mark?_ne (by decide))
      · split
        · rename_i hletter
          refine ⟨fun h => ?_, fun h => (TokenKind.ofWord_ne (by decide) (by decide) _ h).elim⟩
          simp only [take_word] at h ⊢
          exact ⟨⟨b, _, rfl, hletter, List.all_eq_true.mp List.all_takeWhile⟩, h⟩
        · split
          · rename_i hnumber
            exact ⟨fun h => by simp at h, fun _ => numeral_of_startsNumber hnumber⟩
          · simp

end Lexer

namespace Cursor

theorem next_genuine (c : Cursor) : c.next.1.Genuine := by
  simp only [next]
  generalize c.skip (Lexer.gapLength .space c.rest) = c
  obtain ⟨hname, hnumeral⟩ := Lexer.lexeme_genuine c.rest
  generalize Lexer.lexeme c.rest = lexeme at hname hnumeral
  obtain ⟨kind, length⟩ := lexeme
  refine ⟨fun h => ?_, fun h => ?_⟩
  · obtain rfl : kind = .ident := h
    exact hname rfl
  · obtain rfl : kind = .number := h
    exact hnumeral rfl

theorem throughout_genuine (fuel : Nat) (c : Cursor) : ∀ t ∈ c.throughout fuel, t.Genuine := by
  induction fuel generalizing c with
  | zero => simp [throughout]
  | succ fuel ih =>
    intro t ht
    simp only [throughout] at ht
    split at ht
    · obtain rfl := List.mem_singleton.mp ht
      exact c.next_genuine
    · rcases List.mem_cons.mp ht with rfl | ht
      · exact c.next_genuine
      · exact ih _ t ht

end Cursor

theorem tokenStream_genuine (source : Bytes) : ∀ t ∈ tokenStream source, t.Genuine :=
  (Cursor.start source).throughout_genuine _

end SmallLang
