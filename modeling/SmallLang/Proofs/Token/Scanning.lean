import SmallLang.Proofs.Token.Genuine

/-! How tokens are scanned from a place on: gaps are skipped, and marks, words and number literals
are taken as far as they go. -/

namespace SmallLang

theorem Lexer.gapLength_space {b : UInt8} (hb : isSpace b = true) (rest : Bytes) :
    gapLength .space (b :: rest) = gapLength .space rest + 1 := by
  rw [gapLength.eq_def]
  simp [hb]

namespace Cursor

theorem rest_advance (c : Cursor) : c.advance.rest = c.rest.tail := by
  obtain ⟨rest, line, column⟩ := c
  cases rest with
  | nil => rfl
  | cons b rest =>
    rw [advance]
    split <;> rfl

theorem rest_skip (n : Nat) (c : Cursor) : (c.skip n).rest = c.rest.drop n := by
  induction n generalizing c with
  | zero => rfl
  | succ n ih => rw [skip, ih, rest_advance, List.drop_tail]

theorem next_advance {c : Cursor} {b : UInt8} {rest : Bytes} (hc : c.rest = b :: rest)
    (hb : Lexer.isSpace b = true) : c.advance.next = c.next := by
  have hgap : Lexer.gapLength .space c.rest = Lexer.gapLength .space c.advance.rest + 1 := by
    rw [rest_advance, hc, Lexer.gapLength_space hb, List.tail_cons]
  rw [next, next, hgap, skip]

/-- The tokens from one place of a text to another. -/
inductive Scans : Cursor → List Token → Cursor → Prop
  | done {c} : Scans c [] c
  | space {c b rest w c'} : c.rest = b :: rest → Lexer.isSpace b = true → Scans c.advance w c' →
      Scans c w c'
  | token {c w c'} : c.next.1.kind ≠ .eof → c.next.2.rest.length < c.rest.length →
      Scans c.next.2 w c' → Scans c (c.next.1 :: w) c'

theorem Scans.trans {c c' c'' : Cursor} {w v : List Token} (h : Scans c w c')
    (h' : Scans c' v c'') : Scans c (w ++ v) c'' := by
  induction h with
  | done => exact h'
  | space hc hb _ ih => exact .space hc hb (ih h')
  | token hkind hlength _ ih => exact .token hkind hlength (ih h')

theorem throughout_end {c : Cursor} (hc : c.rest = []) (fuel : Nat) :
    ∃ t : Token, t.kind = .eof ∧ c.throughout (fuel + 1) = [t] := by
  have hnext : c.next.1.kind = .eof ∧ c.next.2.rest = [] := by
    simp [next, rest_advance, hc, Lexer.gapLength, skip, Lexer.lexeme]
  refine ⟨c.next.1, hnext.1, ?_⟩
  simp [throughout, hnext]

theorem Scans.throughout_eq {c c' : Cursor} {w : List Token} (h : Scans c w c')
    (hend : c'.rest = []) {fuel : Nat} (hfuel : c.rest.length < fuel) :
    ∃ t : Token, t.kind = .eof ∧ c.throughout fuel = w ++ [t] := by
  obtain ⟨fuel, rfl⟩ := Nat.exists_eq_succ_of_ne_zero (by omega : fuel ≠ 0)
  induction h generalizing fuel with
  | done => exact throughout_end hend fuel
  | @space c b rest w c' hc hb _ ih =>
    have hsame : c.advance.throughout (fuel + 1) = c.throughout (fuel + 1) := by
      rw [throughout, throughout, next_advance hc hb]
    rw [rest_advance, hc] at ih
    rw [hc] at hfuel
    rw [Nat.succ_eq_add_one, ← hsame]
    exact ih hend fuel (Nat.lt_of_succ_lt hfuel)
  | token hkind hlength _ ih =>
    cases fuel with
    | zero => omega
    | succ fuel =>
      obtain ⟨t, ht, heq⟩ := ih hend fuel (by omega)
      refine ⟨t, ht, ?_⟩
      rw [throughout]
      simp [hkind, heq]

theorem scans_token {c : Cursor} {text tail : Bytes} {kind : TokenKind}
    (hc : c.rest = text ++ tail) (hgap : Lexer.gapLength .space c.rest = 0)
    (hlexeme : Lexer.lexeme c.rest = (kind, text.length)) (hkind : kind ≠ .eof)
    (htext : text ≠ []) :
    ∃ t c', t.kind = kind ∧ t.text = text ∧ c'.rest = tail ∧
      ∀ w d, Scans c' w d → Scans c (t :: w) d := by
  have hnext : c.next = (⟨kind, text, c.line, c.column⟩, c.skip text.length) := by
    simp only [next, hgap, skip, hlexeme, if_neg hkind]
    rw [hc, List.take_left]
  have hrest : (c.skip text.length).rest = tail := by
    rw [rest_skip, hc, List.drop_left]
  have hlength : tail.length < c.rest.length := by
    have hpos := List.length_pos_iff.mpr htext
    rw [hc, List.length_append]
    omega
  refine ⟨⟨kind, text, c.line, c.column⟩, _, rfl, rfl, hrest, fun w d h => ?_⟩
  have hscan : Scans c (c.next.1 :: w) d :=
    .token (by rwa [hnext]) (by rwa [hnext, hrest]) (by rwa [hnext])
  rwa [hnext] at hscan

end Cursor

/-- What does not go on with a word or a number. -/
def Breaks (tail : Bytes) : Prop :=
  ∀ b ∈ tail.head?, (Lexer.isLetter b || Lexer.isDigit b) = false ∧ b ≠ ascii '.'

/-- What does not make a comment with a slash in front of it. -/
def Divides (tail : Bytes) : Prop := ∀ b ∈ tail.head?, b ≠ ascii '/' ∧ b ≠ ascii '*'

namespace Lexer

theorem gapLength_mark {b : UInt8} (hb : isSpace b = false) (hslash : b ≠ ascii '/')
    (rest : Bytes) : gapLength .space (b :: rest) = 0 := by
  rw [gapLength.eq_def]
  simp [hb, hslash]

theorem gapLength_slash {rest : Bytes} (h : Divides rest) :
    gapLength .space (ascii '/' :: rest) = 0 := by
  have hspace : isSpace (ascii '/') = false := rfl
  cases rest with
  | nil => rfl
  | cons c rest =>
    have hc := h c rfl
    simp [gapLength, hspace, hc]

theorem lexeme_mark {b : UInt8} {kind : TokenKind} (hmark : mark? b = some kind) {rest : Bytes}
    (hdouble : doubleMark? b = none ∨ rest.head? ≠ some b) : lexeme (b :: rest) = (kind, 1) := by
  have hnone : (if rest.head? = some b then doubleMark? b else none) = none := by
    split
    · rename_i hhead
      exact hdouble.resolve_right (fun h => h hhead)
    · rfl
  simp only [lexeme, hnone, hmark]

theorem lexeme_double {b : UInt8} {kind : TokenKind} (hdouble : doubleMark? b = some kind)
    (rest : Bytes) : lexeme (b :: b :: rest) = (kind, 2) := by
  simp [lexeme, hdouble]

theorem takeWhile_append_eq {p : UInt8 → Bool} {text tail : Bytes} (h : ∀ b ∈ text, p b = true)
    (ht : ∀ b ∈ tail.head?, p b = false) : (text ++ tail).takeWhile p = text := by
  rw [List.takeWhile_append_of_pos h]
  cases tail with
  | nil => simp
  | cons b tail => simp [ht b rfl]

theorem lexeme_word {b : UInt8} {rest tail : Bytes} (hb : isLetter b = true)
    (hrest : ∀ c ∈ rest, (isLetter c || isDigit c) = true) (htail : Breaks tail) :
    lexeme (b :: rest ++ tail) = (TokenKind.ofWord (b :: rest), (b :: rest).length) := by
  obtain ⟨-, -, hdouble, hmark⟩ := plain_of_wordByte (b := b) (by simp [hb])
  have htake : ((rest ++ tail).takeWhile fun c => isLetter c || isDigit c) = rest :=
    takeWhile_append_eq hrest fun c hc => (htail c hc).1
  simp [lexeme, hdouble, hmark, hb, htake]

theorem plain_of_numeralByte {b : UInt8} (h : IsNumeralByte b) :
    isSpace b = false ∧ b ≠ ascii '/' ∧ doubleMark? b = none ∧ mark? b = none := by
  refine plain_of_wordByte ?_
  rcases h with h | rfl
  · simp [h]
  · rfl

theorem gapLength_numeral {text : Bytes} (h : Numeral text) (tail : Bytes) :
    gapLength .space (text ++ tail) = 0 := by
  cases text with
  | nil => exact absurd rfl h.ne_nil
  | cons b rest =>
    obtain ⟨hspace, hslash, -⟩ := plain_of_numeralByte (h.isNumeralByte b List.mem_cons_self)
    exact gapLength_mark hspace hslash _

theorem isLetter_eq_false {b : UInt8} (h : IsNumeralByte b) : isLetter b = false := by
  rcases h with h | rfl
  · rw [isDigit_iff] at h
    have hunderscore : b ≠ ascii '_' := by
      rintro rfl
      exact absurd h.2 (by decide)
    simp [isLetter, hunderscore, UInt8.le_iff_toNat_le]
    omega
  · rfl

theorem numberLength_numeral {text tail : Bytes} (h : Numeral text) (htail : Breaks tail) :
    numberLength (text ++ tail) = text.length := by
  have hdigit : ∀ b ∈ tail.head?, isDigit b = false := by
    intro b hb
    have hb := (htail b hb).1
    simp only [Bool.or_eq_false_iff] at hb
    exact hb.2
  cases h with
  | whole _ hd =>
    simp only [numberLength, takeWhile_append_eq hd hdigit, List.drop_left]
    cases tail with
    | nil => rfl
    | cons b tail => simp [(htail b rfl).2]
  | @pointed ds fs _ hd hf =>
    have hpoint : ∀ b ∈ (ascii '.' :: (fs ++ tail)).head?, isDigit b = false := by
      intro b hb
      obtain rfl : ascii '.' = b := by simpa using hb
      rfl
    rw [List.append_assoc, List.cons_append]
    simp only [numberLength, takeWhile_append_eq hd hpoint, List.drop_left, if_true,
      takeWhile_append_eq hf hdigit, List.length_append, List.length_cons]
    omega

theorem startsNumber_numeral {b : UInt8} {rest : Bytes} (h : Numeral (b :: rest)) (tail : Bytes) :
    startsNumber b (rest ++ tail) = true := by
  generalize htext : b :: rest = text at h
  cases h with
  | whole _ hd =>
    subst htext
    simp [startsNumber, hd.head]
  | @pointed ds fs hne hd hf =>
    cases ds with
    | nil =>
      cases fs with
      | nil => exact absurd rfl hne
      | cons d fs =>
        obtain ⟨rfl, rfl⟩ := List.cons.inj htext
        simp [startsNumber, hf.head]
    | cons d ds =>
      obtain ⟨rfl, -⟩ := List.cons.inj htext
      simp [startsNumber, hd.head]

theorem lexeme_numeral {text tail : Bytes} (h : Numeral text) (htail : Breaks tail) :
    lexeme (text ++ tail) = (.number, text.length) := by
  have hlength := numberLength_numeral h htail
  cases text with
  | nil => exact absurd rfl h.ne_nil
  | cons b rest =>
    have hb := h.isNumeralByte b List.mem_cons_self
    obtain ⟨-, -, hdouble, hmark⟩ := plain_of_numeralByte hb
    rw [List.cons_append] at hlength ⊢
    simp [lexeme, hdouble, hmark, isLetter_eq_false hb, startsNumber_numeral h tail, hlength]

end Lexer

end SmallLang
