import SmallLang.Proofs.Token.Stream

/-! The words of a text: its tokens apart from their places. They are found in front of the text one
by one, and a word is read alike in front of everything that cannot go on with it. -/

namespace SmallLang

def Token.word (t : Token) : TokenKind × Bytes := (t.kind, t.text)

namespace Lexer

def StartsBlank (tail : Bytes) : Prop := ∀ b ∈ tail.head?, isSpace b = true

inductive Lexes : Bytes → List (TokenKind × Bytes) → Prop
  | stop {text : Bytes} : 0 ∉ text → gapLength .space text = text.length → Lexes text []
  | word {gap text rest : Bytes} {kind : TokenKind} {ws : List (TokenKind × Bytes)} :
      0 ∉ gap → IsGap gap → ¬ OpensGap (text ++ rest) → kind ≠ .eof →
      lexeme (text ++ rest) = (kind, text.length) → Lexes rest ws →
      Lexes (gap ++ (text ++ rest)) ((kind, text) :: ws)

section Gaps

theorem gapLength_line {body : Bytes} (hzero : 0 ∉ body) (hfeed : ascii '\n' ∉ body)
    (rest : Bytes) :
    gapLength .lineComment (body ++ ascii '\n' :: rest) =
      body.length + 1 + gapLength .space rest := by
  induction body with
  | nil =>
    rw [List.nil_append, gapLength, if_pos rfl]
    simp only [List.length_nil]
    omega
  | cons b body ih =>
    simp only [List.mem_cons, not_or] at hzero hfeed
    rw [List.cons_append, gapLength, if_neg (Ne.symm hfeed.1), if_neg (Ne.symm hzero.1),
      ih hzero.2 hfeed.2, List.length_cons]
    omega

theorem gapLength_block {body : Bytes} (hzero : 0 ∉ body)
    (hopen : ¬ [ascii '*', ascii '/'] <:+: body) (rest : Bytes) :
    gapLength .blockComment (body ++ ascii '*' :: ascii '/' :: rest) =
      body.length + 2 + gapLength .space rest := by
  induction body with
  | nil =>
    simp [gapLength, ascii]
    omega
  | cons b body ih =>
    simp only [List.mem_cons, not_or] at hzero
    have hclose : ¬ (b = ascii '*' ∧
        (body ++ ascii '*' :: ascii '/' :: rest).head? = some (ascii '/')) := by
      rintro ⟨rfl, hhead⟩
      cases body with
      | nil => simp [ascii] at hhead
      | cons c body =>
        obtain rfl : c = ascii '/' := by simpa using hhead
        exact hopen (List.IsPrefix.isInfix (by simp))
    have ih := ih hzero.2 fun h => hopen (List.infix_cons h)
    rw [List.cons_append, gapLength.eq_def]
    simp only [Ne.symm hzero.1, if_false, Bool.and_eq_true, decide_eq_true_eq, if_neg hclose, ih,
      List.length_cons]
    omega

theorem gapLength_append {gap : Bytes} (h : IsGap gap) (hzero : 0 ∉ gap) (tail : Bytes) :
    gapLength .space (gap ++ tail) = gap.length + gapLength .space tail := by
  induction h with
  | nil => simp
  | space hb _ ih =>
    simp only [List.mem_cons, not_or] at hzero
    rw [List.cons_append, gapLength_space hb, ih hzero.2, List.length_cons]
    omega
  | @line body rest hbody _ ih =>
    simp only [List.mem_cons, List.mem_append, not_or] at hzero
    have hspace : isSpace (ascii '/') = false := rfl
    rw [List.cons_append, List.cons_append, List.append_assoc, List.cons_append]
    simp only [gapLength, hspace, if_true, Bool.false_eq_true, if_false]
    rw [gapLength_line hzero.2.2.1 hbody, ih hzero.2.2.2.2]
    simp only [List.length_cons, List.length_append]
    omega
  | @block body rest hbody _ ih =>
    simp only [List.mem_cons, List.mem_append, not_or] at hzero
    have hspace : isSpace (ascii '/') = false := rfl
    have hstar : ascii '*' ≠ ascii '/' := by decide
    rw [List.cons_append, List.cons_append, List.append_assoc, List.cons_append, List.cons_append]
    simp only [gapLength, hspace, hstar, if_true, Bool.false_eq_true, if_false]
    rw [gapLength_block hzero.2.2.1 hbody, ih hzero.2.2.2.2.2]
    simp only [List.length_cons, List.length_append]
    omega

theorem IsGap.append {gap more : Bytes} (h : IsGap gap) (hmore : IsGap more) :
    IsGap (gap ++ more) := by
  induction h with
  | nil => exact hmore
  | space hb _ ih => exact .space hb ih
  | line hbody _ ih =>
    have hline := IsGap.line hbody ih
    simpa using hline
  | block hbody _ ih =>
    have hblock := IsGap.block hbody ih
    simpa using hblock

theorem gapLength_eq_zero {text : Bytes} (h : ¬ OpensGap text) : gapLength .space text = 0 := by
  cases text with
  | nil => rfl
  | cons b rest =>
    simp only [OpensGap, not_or] at h
    have hb : isSpace b = false := by simpa using h.1
    by_cases hslash : b = ascii '/'
    · subst hslash
      refine gapLength_slash fun c hc => ?_
      obtain ⟨tail, rfl⟩ := List.head?_eq_some_iff.mp hc
      exact ⟨fun hline => h.2.1 (by simp [hline]), fun hblock => h.2.2 (by simp [hblock])⟩
    · exact gapLength_mark hb hslash rest

theorem not_opensGap_append {text rest tail : Bytes} (h : ¬ OpensGap (text ++ rest))
    (htext : text ≠ []) (htail : StartsBlank tail) : ¬ OpensGap (text ++ tail) := by
  obtain ⟨b, text, rfl⟩ := List.exists_cons_of_ne_nil htext
  simp only [OpensGap, not_or, List.cons_append, List.cons_prefix_cons] at h ⊢
  -- a gap shows in the first two bytes, and a blank is the second byte of no comment
  refine ⟨by simpa using h.1, ?_, ?_⟩
  all_goals
    rintro ⟨hb, hprefix⟩
    cases text with
    | nil =>
      obtain ⟨c, tail', rfl⟩ : ∃ c tail', tail = c :: tail' := by
        cases tail with
        | nil => simp at hprefix
        | cons c tail' => exact ⟨c, tail', rfl⟩
      obtain ⟨rfl, -⟩ := List.cons_prefix_cons.mp hprefix
      exact absurd (htail _ rfl) (by decide)
    | cons c text =>
      simp_all

end Gaps

section Lexemes

theorem isFirst_of_lexeme {text rest : Bytes} {kind : TokenKind} (hkind : kind ≠ .eof)
    (h : lexeme (text ++ rest) = (kind, text.length)) : IsFirst (text ++ rest) kind text := by
  have hend : ¬ AtEnd (text ++ rest) := by
    intro hend
    have heof := lexeme_of_atEnd hend
    rw [h] at heof
    exact hkind heof
  have hfirst := (lexeme_isFirst hend).1
  rwa [h, List.take_left] at hfirst

theorem takeWhile_append_blank {p : UInt8 → Bool} (hp : ∀ b, isSpace b = true → p b = false)
    (text : Bytes) {tail : Bytes} (htail : StartsBlank tail) :
    (text ++ tail).takeWhile p = text.takeWhile p := by
  induction text with
  | nil =>
    cases tail with
    | nil => rfl
    | cons b tail => simp [hp b (htail b rfl)]
  | cons b text ih => simp only [List.cons_append, List.takeWhile_cons, ih]

theorem numberLength_append (text : Bytes) {tail : Bytes} (htail : StartsBlank tail) :
    numberLength (text ++ tail) = numberLength text := by
  have htake (text : Bytes) : (text ++ tail).takeWhile isDigit = text.takeWhile isDigit :=
    takeWhile_append_blank (fun _ hb => (plain_of_isSpace hb).2.1) text htail
  have hdrop : (text ++ tail).drop (text.takeWhile isDigit).length =
      text.drop (text.takeWhile isDigit).length ++ tail :=
    List.drop_append_of_le_length (List.takeWhile_prefix _).length_le
  simp only [numberLength, htake, hdrop]
  cases text.drop (text.takeWhile isDigit).length with
  | cons b rest => simp only [List.cons_append, htake]
  | nil =>
    cases tail with
    | nil => rfl
    | cons b tail => simp [(plain_of_isSpace (htail b rfl)).2.2.1]

/-- White space behind a text does not change its first word. -/
theorem lexeme_append {text tail : Bytes} (htext : text ≠ []) (htail : StartsBlank tail) :
    lexeme (text ++ tail) = lexeme text := by
  obtain ⟨b, rest, rfl⟩ := List.exists_cons_of_ne_nil htext
  have hdouble : (if (rest ++ tail).head? = some b then doubleMark? b else none) =
      if rest.head? = some b then doubleMark? b else none := by
    cases rest with
    | cons c rest => rfl
    | nil =>
      rw [List.nil_append]
      split
      · rename_i hb
        exact (plain_of_isSpace (htail b hb)).2.2.2
      · simp
  have hstarts : startsNumber b (rest ++ tail) = startsNumber b rest := by
    cases rest with
    | cons c rest => rfl
    | nil =>
      cases tail with
      | nil => rfl
      | cons c tail => simp [startsNumber, (plain_of_isSpace (htail c rfl)).2.1]
  have hword : ((rest ++ tail).takeWhile fun c => isLetter c || isDigit c) =
      rest.takeWhile fun c => isLetter c || isDigit c := by
    refine takeWhile_append_blank (fun c hc => ?_) rest htail
    simp [(plain_of_isSpace hc).1, (plain_of_isSpace hc).2.1]
  have hlength := numberLength_append (b :: rest) htail
  rw [List.cons_append] at hlength ⊢
  simp only [lexeme, hdouble, hstarts, hword, hlength]

theorem lexeme_illegal {b : UInt8} {rest : Bytes} (hb : b ≠ 0)
    (h : ∀ kind text, IsLexeme kind text → ¬ text <+: b :: rest) :
    lexeme [b] = (.illegal, 1) := by
  have hfront : [b] <+: b :: rest := List.prefix_append [b] rest
  have hmark : mark? b = none := by
    cases hmark : mark? b with
    | none => rfl
    | some kind =>
      have hkind : kind ≠ .eof := by
        rintro rfl
        exact mark?_ne_eof hb hmark
      exact absurd hfront (h kind [b] (.mark hmark hkind))
  have hletter : isLetter b = false := by
    cases hletter : isLetter b with
    | false => rfl
    | true => exact absurd hfront (h _ [b] (.word ⟨b, [], rfl, hletter, by simp⟩))
  have hdigit : isDigit b = false := by
    cases hdigit : isDigit b with
    | false => rfl
    | true =>
      have hnumeral : Numeral [b] := .whole (by simp) (by simpa [Digits] using hdigit)
      exact absurd hfront (h _ [b] (.number hnumeral))
  simp [lexeme, hmark, hletter, startsNumber, hdigit]

theorem lexeme_alone {text rest : Bytes} {kind : TokenKind} (hkind : kind ≠ .eof)
    (h : lexeme (text ++ rest) = (kind, text.length)) : lexeme text = (kind, text.length) := by
  -- the end of a text breaks every word off
  have hbreaks : Breaks [] := by simp [Breaks]
  cases isFirst_of_lexeme hkind h with
  | longest hlexeme _ _ =>
    cases hlexeme with
    | word hword =>
      obtain ⟨b, word, rfl, hb, hword⟩ := hword
      have hlexeme := lexeme_word hb hword hbreaks
      rwa [List.append_nil] at hlexeme
    | number hnumber =>
      have hlexeme := lexeme_numeral hnumber hbreaks
      rwa [List.append_nil] at hlexeme
    | mark hmark _ => exact lexeme_mark hmark (.inr (by simp))
    | double hdouble => exact lexeme_double hdouble []
  | illegal _ hb hnone => exact lexeme_illegal hb hnone

end Lexemes

theorem exists_gap (text : Bytes) :
    ∃ gap rest, text = gap ++ rest ∧ gapLength .space text = gap.length ∧ Separates gap rest := by
  refine ⟨text.take (gapLength .space text), text.drop (gapLength .space text),
    (List.take_append_drop _ _).symm, ?_, gapLength_separates .space text⟩
  rw [List.length_take, Nat.min_eq_left (gapLength_le .space text)]

end Lexer

theorem Cursor.next_of_lexeme {c : Cursor} {text rest : Bytes} {kind : TokenKind}
    (hc : c.behindGap.rest = text ++ rest) (hkind : kind ≠ .eof)
    (h : Lexer.lexeme (text ++ rest) = (kind, text.length)) :
    c.next.1.word = (kind, text) ∧ c.next.2.rest = rest := by
  have hnext : c.next = (⟨kind, text, c.behindGap.line, c.behindGap.column⟩,
      c.behindGap.skip text.length) := by
    rw [behindGap] at hc
    simp only [next, hc, h, if_neg hkind, List.take_left, behindGap]
  refine ⟨by rw [hnext, Token.word], ?_⟩
  rw [hnext, rest_skip, hc, List.drop_left]

namespace Lexer

namespace Lexes

theorem nil : Lexes [] [] := .stop List.not_mem_nil rfl

theorem behind_gap {gap text : Bytes} {ws : List (TokenKind × Bytes)} (hgap : IsGap gap)
    (hzero : 0 ∉ gap) (h : Lexes text ws) : Lexes (gap ++ text) ws := by
  cases h with
  | stop htext hlength =>
    refine .stop (by simp [hzero, htext]) ?_
    rw [gapLength_append hgap hzero, hlength, List.length_append]
  | word hzero' hgap' hopens hkind hlexeme hrest =>
    rw [← List.append_assoc]
    exact .word (by simp [hzero, hzero']) (hgap.append hgap') hopens hkind hlexeme hrest

theorem zero_notMem {text : Bytes} {ws : List (TokenKind × Bytes)} (h : Lexes text ws) :
    0 ∉ text := by
  induction h with
  | stop hzero _ => exact hzero
  | word hzero _ _ hkind hlexeme _ ih =>
    simp only [List.mem_append, not_or]
    exact ⟨hzero, (isFirst_of_lexeme hkind hlexeme).zero_notMem, ih⟩

theorem exists_words {text : Bytes} (hzero : 0 ∉ text) : ∃ ws, Lexes text ws := by
  -- no word is empty, so what is behind the first one is shorter
  generalize hn : text.length = n
  induction n using Nat.strongRecOn generalizing text with
  | ind n ih =>
    obtain ⟨gap, rest, rfl, hlength, hseparates⟩ := exists_gap text
    obtain ⟨hgap, hrest⟩ : 0 ∉ gap ∧ 0 ∉ rest := by simpa [not_or] using hzero
    by_cases hend : AtEnd rest
    · obtain rfl : rest = [] := by
        cases rest with
        | nil => rfl
        | cons b rest => simp [hend b rfl] at hrest
      exact ⟨[], .stop hzero (by rw [hlength, List.append_nil])⟩
    · obtain ⟨hfirst, hle⟩ := lexeme_isFirst hend
      obtain ⟨hisGap, hopens⟩ := hseparates.isGap hend
      generalize hlexeme : lexeme rest = lexeme at hfirst hle
      obtain ⟨kind, length⟩ := lexeme
      obtain ⟨text, rest, rfl, rfl⟩ : ∃ text rest', rest = text ++ rest' ∧ length = text.length :=
        ⟨rest.take length, rest.drop length, (List.take_append_drop length rest).symm,
          by rw [List.length_take, Nat.min_eq_left hle]⟩
      rw [List.take_left] at hfirst
      have hpos : 0 < text.length := List.length_pos_iff.mpr hfirst.ne_nil
      have hsmaller : rest.length < n := by
        rw [← hn, List.length_append, List.length_append]
        omega
      obtain ⟨ws, hws⟩ := ih rest.length hsmaller (by simp_all) rfl
      exact ⟨(kind, text) :: ws, .word hgap hisGap hopens hfirst.ne_eof hlexeme hws⟩

theorem upToEnd {c : Cursor} {ws : List (TokenKind × Bytes)} (h : Lexes c.rest ws) {fuel : Nat}
    (hfuel : c.rest.length < fuel) :
    (c.upToEnd fuel).1.map Token.word = ws ++ [(.eof, [])] := by
  generalize hc : c.rest = text at h
  induction h generalizing c fuel with
  | stop _ hlength =>
    obtain ⟨fuel, rfl⟩ := Nat.exists_eq_succ_of_ne_zero (Nat.ne_zero_of_lt hfuel)
    have hend : AtEnd c.behindGap.rest := by
      rw [Cursor.rest_behindGap, hc, hlength, List.drop_length]
      simp [AtEnd]
    simp [Cursor.upToEnd, Cursor.next_of_atEnd hend, Token.word]
  | @word gap text rest kind ws hzero hgap hopens hkind hlexeme _ ih =>
    obtain ⟨fuel, rfl⟩ := Nat.exists_eq_succ_of_ne_zero (Nat.ne_zero_of_lt hfuel)
    have hbehind : c.behindGap.rest = text ++ rest := by
      rw [Cursor.rest_behindGap, hc, gapLength_append hgap hzero, gapLength_eq_zero hopens,
        Nat.add_zero, List.drop_left]
    obtain ⟨hnext, hrest⟩ := Cursor.next_of_lexeme hbehind hkind hlexeme
    have hshorter : c.next.2.rest.length < fuel := by
      have hpos := List.length_pos_iff.mpr (isFirst_of_lexeme hkind hlexeme).ne_nil
      rw [hc] at hfuel
      simp only [List.length_append] at hfuel
      rw [hrest]
      omega
    have hne : c.next.1.kind ≠ .eof := by
      have hnextKind : c.next.1.kind = kind := congrArg Prod.fst hnext
      rwa [hnextKind]
    simp only [Cursor.upToEnd, hne, if_false, List.map_cons, hnext, ih hshorter hrest,
      List.cons_append]

theorem tokenize {source : Bytes} {ws : List (TokenKind × Bytes)} (h : Lexes source ws) :
    (tokenize source).1.map Token.word = ws ++ [(.eof, [])] :=
  upToEnd (c := Cursor.start source) h (Nat.lt_succ_self source.length)

theorem tokenStream {source : Bytes} {ws : List (TokenKind × Bytes)} (h : Lexes source ws) :
    (tokenStream source).map Token.word = ws ++ [(.eof, [])] := by
  rw [SmallLang.tokenStream, Cursor.throughout_eq_upToEnd h.zero_notMem]
  exact h.tokenize

end Lexes

end Lexer

end SmallLang
