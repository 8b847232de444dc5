import SmallLang.Token.Lexer

/-! What a single byte is to the lexer. Its tables are lists of bytes, and no byte of a word or of a
number is in them. -/

namespace SmallLang.Lexer

def blanks : Bytes := [ascii ' ', ascii '\t', ascii '\n', ascii '\r']

def marks : List (UInt8 × TokenKind) :=
  [(ascii '=', .assign), (ascii '+', .plus), (ascii '-', .minus), (ascii '*', .asterisk),
    (ascii '/', .slash), (ascii '^', .caret), (ascii '!', .bang), (ascii '<', .lt),
    (ascii '>', .gt), (ascii '(', .lparen), (ascii ')', .rparen), (ascii '\x7b', .lbrace),
    (ascii '\x7d', .rbrace), (ascii ',', .comma), (ascii ';', .semicolon), (ascii ':', .colon),
    (0, .eof)]

def doubleMarks : List (UInt8 × TokenKind) :=
  [(ascii '=', .eq), (ascii '&', .and), (ascii '|', .or)]

variable {b : UInt8} {kind : TokenKind}

theorem isSpace_iff : isSpace b = true ↔ b ∈ blanks := by
  simp [isSpace, blanks, or_assoc]

theorem lookup_cons {c : UInt8} {k : TokenKind} {table : List (UInt8 × TokenKind)} :
    ((c, k) :: table).lookup b = if b = c then some k else table.lookup b := by
  rw [List.lookup_cons]
  by_cases hb : b = c
  · simp [hb]
  · simp [hb, beq_false_of_ne hb]

theorem lookup_eq_some_iff {table : List (UInt8 × TokenKind)}
    (h : ∀ e ∈ table, table.lookup e.1 = some e.2) :
    table.lookup b = some kind ↔ (b, kind) ∈ table := by
  constructor
  · intro hlookup
    obtain ⟨before, after, htable, -⟩ := List.lookup_eq_some_iff.mp hlookup
    simp [htable]
  · exact h (b, kind)

theorem mark?_eq_some_iff : mark? b = some kind ↔ (b, kind) ∈ marks := by
  have hlookup : mark? b = marks.lookup b := by
    simp only [mark?, marks, lookup_cons, List.lookup_nil]
  rw [hlookup]
  exact lookup_eq_some_iff (by decide)

theorem doubleMark?_eq_some_iff : doubleMark? b = some kind ↔ (b, kind) ∈ doubleMarks := by
  have hlookup : doubleMark? b = doubleMarks.lookup b := by
    simp only [doubleMark?, doubleMarks, lookup_cons, List.lookup_nil]
  rw [hlookup]
  exact lookup_eq_some_iff (by decide)

theorem mark?_ne (h : kind ∉ marks.map Prod.snd) : mark? b ≠ some kind :=
  fun hb => h (List.mem_map_of_mem (mark?_eq_some_iff.mp hb))

theorem doubleMark?_ne (h : kind ∉ doubleMarks.map Prod.snd) : doubleMark? b ≠ some kind :=
  fun hb => h (List.mem_map_of_mem (doubleMark?_eq_some_iff.mp hb))

theorem mark?_ne_eof (h : b ≠ 0) : mark? b ≠ some .eof := by
  intro hb
  have heof : ∀ e ∈ marks, e.2 = .eof → e.1 = 0 := by decide
  exact h (heof (b, .eof) (mark?_eq_some_iff.mp hb) rfl)

theorem ne_zero_of_mark?_eq_none (h : mark? b = none) : b ≠ 0 := by
  rintro rfl
  cases h

theorem doubleMark?_eq_some (h : doubleMark? b = some kind) :
    isSpace b = false ∧ b ≠ ascii '/' ∧ kind ≠ .eof := by
  have hmark : ∀ e ∈ doubleMarks, isSpace e.1 = false ∧ e.1 ≠ ascii '/' ∧ e.2 ≠ .eof := by decide
  exact hmark (b, kind) (doubleMark?_eq_some_iff.mp h)

theorem plain_of_isSpace (h : isSpace b = true) :
    isLetter b = false ∧ isDigit b = false ∧ b ≠ ascii '.' ∧ doubleMark? b = none := by
  simp only [isSpace_iff, blanks, List.mem_cons, List.not_mem_nil, or_false] at h
  rcases h with rfl | rfl | rfl | rfl <;> decide

theorem plain_of_wordByte (h : (isLetter b || isDigit b || b = ascii '.') = true) :
    isSpace b = false ∧ b ≠ ascii '/' ∧ doubleMark? b = none ∧ mark? b = none := by
  have hdouble : ∀ e ∈ doubleMarks, (isLetter e.1 || isDigit e.1 || e.1 = ascii '.') = false := by
    decide
  have hmarks : ∀ e ∈ marks, (isLetter e.1 || isDigit e.1 || e.1 = ascii '.') = false := by decide
  refine ⟨Bool.eq_false_iff.mpr fun hb => ?_, ?_,
    Option.eq_none_iff_forall_ne_some.mpr fun kind hb => ?_,
    Option.eq_none_iff_forall_ne_some.mpr fun kind hb => ?_⟩
  · obtain ⟨hletter, hdigit, hpoint, -⟩ := plain_of_isSpace hb
    simp [hletter, hdigit, hpoint] at h
  · rintro rfl
    cases h
  · exact Bool.eq_false_iff.mp (hdouble (b, kind) (doubleMark?_eq_some_iff.mp hb)) h
  · exact Bool.eq_false_iff.mp (hmarks (b, kind) (mark?_eq_some_iff.mp hb)) h

end SmallLang.Lexer
