import SmallLang.Proofs.Parse.Bare
import SmallLang.Proofs.Parse.Recovery.Isolation
import SmallLang.Proofs.Token.Words

/-! Layout carries no meaning: the words of a source text, written apart with white space and
comments between them, are the same words and give the same functions and errors. -/

namespace SmallLang

namespace Lexer

/-- A byte of white space, and more of it and comments behind. -/
def IsSeparator (sep : Bytes) : Prop :=
  ∃ b gap, sep = b :: gap ∧ isSpace b = true ∧ IsGap gap

/-- The texts one after another, with a separator between any two. -/
inductive Spread : List Bytes → Bytes → Prop
  | nil : Spread [] []
  | one {text : Bytes} : Spread [text] text
  | cons {text next sep rest : Bytes} {texts : List Bytes} :
      IsSeparator sep → Spread (next :: texts) rest →
      Spread (text :: next :: texts) (text ++ (sep ++ rest))

def StandsAlone (w : TokenKind × Bytes) : Prop :=
  w.1 ≠ .eof ∧ ∀ tail, StartsBlank tail →
    ¬ OpensGap (w.2 ++ tail) ∧ lexeme (w.2 ++ tail) = (w.1, w.2.length)

theorem Lexes.standsAlone {text : Bytes} {ws : List (TokenKind × Bytes)} (h : Lexes text ws) :
    ∀ w ∈ ws, StandsAlone w := by
  induction h with
  | stop _ _ => simp
  | @word gap text rest kind ws _ _ hopens hkind hlexeme _ ih =>
    intro w hw
    rcases List.mem_cons.mp hw with rfl | hw
    · have hne := (isFirst_of_lexeme hkind hlexeme).ne_nil
      refine ⟨hkind, fun tail htail => ⟨not_opensGap_append hopens hne htail, ?_⟩⟩
      rw [lexeme_append hne htail, lexeme_alone hkind hlexeme]
    · exact ih w hw

theorem IsSeparator.isGap {sep : Bytes} (h : IsSeparator sep) : IsGap sep := by
  obtain ⟨b, gap, rfl, hb, hgap⟩ := h
  exact .space hb hgap

theorem IsSeparator.startsBlank {sep : Bytes} (h : IsSeparator sep) (rest : Bytes) :
    StartsBlank (sep ++ rest) := by
  obtain ⟨b, gap, rfl, hb, -⟩ := h
  simpa [StartsBlank] using hb

theorem Spread.lexes {ws : List (TokenKind × Bytes)} {spread : Bytes}
    (h : Spread (ws.map Prod.snd) spread) (hws : ∀ w ∈ ws, StandsAlone w) (hzero : 0 ∉ spread) :
    Lexes spread ws := by
  generalize htexts : ws.map Prod.snd = texts at h
  induction h generalizing ws with
  | nil =>
    obtain rfl := List.map_eq_nil_iff.mp htexts
    exact .nil
  | one =>
    obtain ⟨w, rfl, rfl⟩ := List.map_eq_singleton_iff.mp htexts
    obtain ⟨hkind, halone⟩ := hws w (by simp)
    obtain ⟨hopens, hlexeme⟩ := halone [] (by simp [StartsBlank])
    have hlexes := Lexes.word List.not_mem_nil .nil hopens hkind hlexeme .nil
    rwa [List.append_nil] at hlexes
  | cons hsep _ ih =>
    obtain ⟨w, ws, rfl, rfl, hmore⟩ := List.map_eq_cons_iff.mp htexts
    obtain ⟨hkind, halone⟩ := hws w (by simp)
    obtain ⟨hopens, hlexeme⟩ := halone _ (hsep.startsBlank _)
    simp only [List.mem_append, not_or] at hzero
    -- the separator is the gap that is skipped in front of the next word
    have hrest := ih (fun v hv => hws v (List.mem_cons_of_mem w hv)) hzero.2.2 hmore
    exact .word List.not_mem_nil .nil hopens hkind hlexeme
      (hrest.behind_gap hsep.isGap hzero.2.1)

end Lexer

open Lexer

theorem Lexer.Lexes.sourceWord {source : Bytes} {ws : List (TokenKind × Bytes)}
    (h : Lexes source ws) : (sourceWord source).map Token.word = ws := by
  obtain ⟨stop, -, hstream, -⟩ := tokenStream_eq_sourceWord h.zero_notMem
  have hwords := h.tokenStream
  rw [hstream, List.map_append] at hwords
  exact (List.append_inj' hwords rfl).1

/-- What an error says, apart from where. -/
def SyntaxError.report (e : SyntaxError) : Bytes × Bool := (e.message, e.isLexical)

/-- Two source texts with the same tokens, functions and errors up to their places. -/
structure ReadsAlike (source source' : Bytes) : Prop where
  tokens : (tokenize source).1.map Token.word = (tokenize source').1.map Token.word
  functions : (parseSource source).1 = (parseSource source').1
  errors : (parseSource source).2.map SyntaxError.report =
    (parseSource source').2.map SyntaxError.report

theorem map_report_bare (es : List SyntaxError) :
    (es.map SyntaxError.bare).map SyntaxError.report = es.map SyntaxError.report := by
  rw [List.map_map]
  refine List.map_congr_left fun e _ => ?_
  rw [Function.comp_apply, SyntaxError.report, SyntaxError.message_bare,
    SyntaxError.isLexical_bare, SyntaxError.report]

theorem parseTokens_congr {ts ts' : List Token} (h : ts.map Token.word = ts'.map Token.word) :
    (parseTokens ts).1 = (parseTokens ts').1 ∧
      (parseTokens ts).2.map SyntaxError.report = (parseTokens ts').2.map SyntaxError.report := by
  have hbare : ts.map Token.bare = ts'.map Token.bare := by
    have hof (t : Token) : t.bare = ⟨t.word.1, t.word.2, 0, 0⟩ := rfl
    have hmap := congrArg (List.map fun w => (⟨w.1, w.2, 0, 0⟩ : Token)) h
    simpa only [List.map_map, Function.comp_def, ← hof] using hmap
  have hparsed : ((parseTokens ts).1, (parseTokens ts).2.map SyntaxError.bare) =
      ((parseTokens ts').1, (parseTokens ts').2.map SyntaxError.bare) := by
    rw [← parseTokens_bare, ← parseTokens_bare, hbare]
  obtain ⟨hfunctions, herrors⟩ := Prod.mk.inj hparsed
  refine ⟨hfunctions, ?_⟩
  rw [← map_report_bare, herrors, map_report_bare]

theorem ReadsAlike.of_lexes {source source' : Bytes} {ws : List (TokenKind × Bytes)}
    (h : Lexes source ws) (h' : Lexes source' ws) : ReadsAlike source source' := by
  obtain ⟨hfunctions, herrors⟩ := parseTokens_congr (h.tokenStream.trans h'.tokenStream.symm)
  exact ⟨h.tokenize.trans h'.tokenize.symm, hfunctions, herrors⟩

/-- A source text and its words written apart read alike. -/
theorem readsAlike_of_spread {source spread : Bytes} (hsource : 0 ∉ source) (hzero : 0 ∉ spread)
    (h : Spread ((sourceWord source).map Token.text) spread) : ReadsAlike spread source := by
  obtain ⟨ws, hlexes⟩ := Lexes.exists_words hsource
  have htexts : (sourceWord source).map Token.text = ws.map Prod.snd := by
    rw [← hlexes.sourceWord, List.map_map]
    rfl
  rw [htexts] at h
  exact .of_lexes (h.lexes hlexes.standsAlone hzero) hlexes

def crowded : Bytes := utf8 "f()\x7b\x7d$=/=="

def spacedOut : Bytes := utf8 "f ( )\t\x7b\n\x7d $ = /*/*/ //=\n / =="

theorem crowded_readsAlike_of_spread :
    (0 ∉ crowded ∧ 0 ∉ spacedOut ∧ Spread ((sourceWord crowded).map Token.text) spacedOut) ∧
      (tokenize spacedOut).1.map Token.word =
        [(.ident, utf8 "f"), (.lparen, utf8 "("), (.rparen, utf8 ")"), (.lbrace, utf8 "\x7b"),
          (.rbrace, utf8 "\x7d"), (.illegal, utf8 "$"), (.assign, utf8 "="), (.slash, utf8 "/"),
          (.eq, utf8 "=="), (.eof, [])] ∧
      (parseSource spacedOut).1 = [⟨utf8 "f", .void, [], [], none⟩] ∧
      (parseSource spacedOut).2.map SyntaxError.report =
        [(utf8 "expected function name, got illegal character \"$\"", true)] := by
  have hsource : 0 ∉ crowded := by decide
  have hzero : 0 ∉ spacedOut := by decide
  have htexts : (sourceWord crowded).map Token.text =
      [utf8 "f", utf8 "(", utf8 ")", utf8 "\x7b", utf8 "\x7d", utf8 "$", utf8 "=", utf8 "/",
        utf8 "=="] := by decide
  have hbyte (b : UInt8) (hb : isSpace b = true) : IsSeparator [b] := ⟨b, [], rfl, hb, .nil⟩
  have hline : IsGap (utf8 " //=\n ") :=
    .space rfl (@IsGap.line (utf8 "=") _ (by decide) (.space rfl .nil))
  have hcomments : IsSeparator (utf8 " /*/*/ //=\n ") :=
    ⟨ascii ' ', _, rfl, rfl, @IsGap.block (utf8 "/") _ (by decide) hline⟩
  have hspread : Spread ((sourceWord crowded).map Token.text) spacedOut := by
    rw [htexts]
    exact .cons (hbyte 32 rfl) (.cons (hbyte 32 rfl) (.cons (hbyte 9 rfl) (.cons (hbyte 10 rfl)
      (.cons (hbyte 32 rfl) (.cons (hbyte 32 rfl) (.cons hcomments (.cons (hbyte 32 rfl) .one)))))))
  obtain ⟨htokens, hfunctions, herrors⟩ := readsAlike_of_spread hsource hzero hspread
  exact ⟨⟨hsource, hzero, hspread⟩, htokens.trans (by decide), hfunctions.trans rfl,
    herrors.trans (by decide)⟩

/-- A comment with a NUL byte in it is where reading ends. -/
theorem not_readsAlike_of_zero :
    ¬ ∀ source spread, 0 ∉ source → Spread ((sourceWord source).map Token.text) spread →
      ReadsAlike spread source := by
  intro h
  have htexts : (sourceWord (utf8 "f()\x7b\x7d")).map Token.text =
      [utf8 "f", utf8 "(", utf8 ")", utf8 "\x7b", utf8 "\x7d"] := by decide
  have hcomment : IsSeparator (utf8 " /*\x00*/") :=
    ⟨ascii ' ', _, rfl, rfl, @IsGap.block [0] _ (by decide) .nil⟩
  have hblank : IsSeparator (utf8 " ") := ⟨ascii ' ', [], rfl, rfl, .nil⟩
  have hspread : Spread ((sourceWord (utf8 "f()\x7b\x7d")).map Token.text)
      (utf8 "f /*\x00*/( ) \x7b \x7d") := by
    rw [htexts]
    exact .cons hcomment (.cons hblank (.cons hblank (.cons hblank .one)))
  have halike := h _ _ (by decide) hspread
  exact absurd halike.tokens (by decide)

end SmallLang
