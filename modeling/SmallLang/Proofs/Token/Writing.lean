import SmallLang.Proofs.Token.Scanning

/-! Texts that are read as certain words of tokens, whatever stands behind them. -/

namespace SmallLang

/-- The text is read as a word with the property if what stands behind it is as `ends` says. -/
def Writes (text : Bytes) (ends : Bytes → Prop) (p : List Token → Prop) : Prop :=
  ∀ (c : Cursor) (tail : Bytes), c.rest = text ++ tail → ends tail →
    ∃ w c', c.Scans w c' ∧ c'.rest = tail ∧ p w

theorem breaks_cons {b : UInt8}
    (hb : (Lexer.isLetter b || Lexer.isDigit b || b = ascii '.') = false) (rest : Bytes) :
    Breaks (b :: rest) := by
  intro c hc
  obtain rfl : b = c := by simpa using hc
  simpa using hb

theorem divides_cons {b : UInt8} (hb : (b = ascii '/' || b = ascii '*') = false)
    (rest : Bytes) : Divides (b :: rest) := by
  intro c hc
  obtain rfl : b = c := by simpa using hc
  simpa using hb

/-- In front of what `ends` allows, the text is what `ends'` allows. -/
def Leads (text : Bytes) (ends ends' : Bytes → Prop) : Prop :=
  ∀ tail, ends tail → ends' (text ++ tail)

def Anything (_ : Bytes) : Prop := True

namespace Leads

variable {text rest : Bytes} {ends ends' : Bytes → Prop}

theorem anything : Leads text ends Anything := fun _ _ => trivial

theorem nil : Leads [] ends ends := fun _ htail => htail

theorem append (h : ∀ tail, ends' (text ++ tail)) : Leads (text ++ rest) ends ends' := by
  intro tail _
  rw [List.append_assoc]
  exact h (rest ++ tail)

theorem breaks {b : UInt8}
    (hb : (Lexer.isLetter b || Lexer.isDigit b || b = ascii '.') = false) :
    Leads (b :: text) ends Breaks := fun tail _ => breaks_cons hb (text ++ tail)

end Leads

theorem Numeral.divides {text : Bytes} (h : Numeral text) (tail : Bytes) :
    Divides (text ++ tail) := by
  cases text with
  | nil => exact absurd rfl h.ne_nil
  | cons b rest =>
    have hb := h.isNumeralByte b List.mem_cons_self
    have hslash : b ≠ ascii '/' := hb.ne (by decide) (by decide)
    have hasterisk : b ≠ ascii '*' := hb.ne (by decide) (by decide)
    exact divides_cons (by simp [hslash, hasterisk]) _

theorem IsWord.divides {text : Bytes} (h : IsWord text) (tail : Bytes) :
    Divides (text ++ tail) := by
  obtain ⟨b, rest, rfl, hb, -⟩ := h
  have hne {c : UInt8} (hc : Lexer.isLetter c = false) : b ≠ c := by
    rintro rfl
    exact absurd (hb.symm.trans hc) (by simp)
  exact divides_cons (by simp [hne (c := ascii '/') rfl, hne (c := ascii '*') rfl]) _

theorem isWord_of_all {text : Bytes}
    (h : (text.head?.any Lexer.isLetter &&
      text.tail.all fun c => Lexer.isLetter c || Lexer.isDigit c) = true) : IsWord text := by
  cases text with
  | nil => simp at h
  | cons b rest =>
    obtain ⟨hb, hrest⟩ := Bool.and_eq_true_iff.mp h
    exact ⟨b, rest, rfl, hb, List.all_eq_true.mp hrest⟩

theorem isWord_keyword {word : Bytes} {kind : TokenKind}
    (h : TokenKind.keywords.lookup word = some kind) : IsWord word := by
  have hall : (TokenKind.keywords.all fun k => k.1.head?.any Lexer.isLetter &&
      k.1.tail.all fun c => Lexer.isLetter c || Lexer.isDigit c) = true := by decide
  obtain ⟨l, r, hkeywords, -⟩ := List.lookup_eq_some_iff.mp h
  exact isWord_of_all (List.all_eq_true.mp hall (word, kind) (by simp [hkeywords]))

namespace Lexer

/-- The mark that a byte is whatever stands behind it. -/
def soleMark? (b : UInt8) : Option TokenKind :=
  if isSpace b || b = ascii '/' || (doubleMark? b).isSome || mark? b = some .eof then none
  else mark? b

theorem soleMark?_eq_some {b : UInt8} {kind : TokenKind} (h : soleMark? b = some kind) :
    isSpace b = false ∧ b ≠ ascii '/' ∧ doubleMark? b = none ∧ mark? b = some kind ∧
      kind ≠ .eof := by
  rw [soleMark?] at h
  split at h
  · cases h
  · rename_i hb
    simp only [Bool.or_eq_true, decide_eq_true_eq, not_or, Bool.not_eq_true,
      Option.isSome_eq_false_iff, Option.isNone_iff_eq_none] at hb
    obtain ⟨⟨⟨hspace, hslash⟩, hdouble⟩, heof⟩ := hb
    refine ⟨hspace, hslash, hdouble, h, ?_⟩
    rintro rfl
    exact heof h

end Lexer

namespace Writes

variable {text rest : Bytes} {ends ends' : Bytes → Prop} {p q : List Token → Prop}

theorem nil (h : p []) : Writes [] ends p :=
  fun c _ hc _ => ⟨[], c, .done, hc, h⟩

theorem mono (h : Writes text ends p) (hp : ∀ w, p w → q w) : Writes text ends q := by
  intro c tail hc htail
  obtain ⟨w, c', hscan, hc', hw⟩ := h c tail hc htail
  exact ⟨w, c', hscan, hc', hp w hw⟩

theorem append (h : Writes text ends' q) (hends : Leads rest ends ends')
    (hrest : ∀ w, q w → Writes rest ends fun v => p (w ++ v)) : Writes (text ++ rest) ends p := by
  intro c tail hc htail
  rw [List.append_assoc] at hc
  obtain ⟨w, c', hscan, hc', hw⟩ := h c (rest ++ tail) hc (hends tail htail)
  obtain ⟨v, c'', hscan', hc'', hv⟩ := hrest w hw c' tail hc' htail
  exact ⟨w ++ v, c'', hscan.trans hscan', hc'', hv⟩

theorem space {b : UInt8} (hb : Lexer.isSpace b = true) (h : Writes text ends p) :
    Writes (b :: text) ends p := by
  intro c tail hc htail
  have hadvance : c.advance.rest = text ++ tail := by
    rw [Cursor.rest_advance, hc]
    rfl
  obtain ⟨w, c', hscan, hc', hw⟩ := h c.advance tail hadvance htail
  exact ⟨w, c', .space hc hb hscan, hc', hw⟩

theorem token (text : Bytes) {kind : TokenKind} (hkind : kind ≠ .eof) (hne : text ≠ [])
    (htext : ∀ tail, ends tail → Lexer.gapLength .space (text ++ (rest ++ tail)) = 0 ∧
      Lexer.lexeme (text ++ (rest ++ tail)) = (kind, text.length))
    (h : ∀ t : Token, t.kind = kind → t.text = text → Writes rest ends fun w => p (t :: w)) :
    Writes (text ++ rest) ends p := by
  intro c tail hc htail
  obtain ⟨hgap, hlexeme⟩ := htext tail htail
  rw [List.append_assoc] at hc
  rw [← hc] at hgap hlexeme
  obtain ⟨t, c', hk, ht, hc', hscans⟩ := Cursor.scans_token hc hgap hlexeme hkind hne
  obtain ⟨w, d, hscan, hd, hw⟩ := h t hk ht c' tail hc' htail
  exact ⟨t :: w, d, hscans w d hscan, hd, hw⟩

theorem mark {b : UInt8} (kind : TokenKind) (hb : Lexer.soleMark? b = some kind)
    (h : ∀ t : Token, t.kind = kind → Writes text ends fun w => p (t :: w)) :
    Writes (b :: text) ends p := by
  obtain ⟨hspace, hslash, hdouble, hmark, hkind⟩ := Lexer.soleMark?_eq_some hb
  refine token [b] hkind (by simp) (fun tail _ => ?_) fun t hk _ => h t hk
  exact ⟨Lexer.gapLength_mark hspace hslash _, Lexer.lexeme_mark hmark (.inl hdouble)⟩

theorem assign (h : ∀ t : Token, t.kind = .assign → Writes text ends fun w => p (t :: w)) :
    Writes (ascii '=' :: ascii ' ' :: text) ends p :=
  token [ascii '='] (by decide) (by simp)
    (fun _ _ => ⟨rfl, Lexer.lexeme_mark rfl (.inr (by simp; decide))⟩)
    fun t hk _ => space rfl (h t hk)

theorem slash (hdivides : Leads text ends Divides)
    (h : ∀ t : Token, t.kind = .slash → Writes text ends fun w => p (t :: w)) :
    Writes (ascii '/' :: text) ends p :=
  token [ascii '/'] (by decide) (by simp)
    (fun tail htail => ⟨Lexer.gapLength_slash (hdivides tail htail),
      Lexer.lexeme_mark rfl (.inl rfl)⟩)
    fun t hk _ => h t hk

theorem double {b : UInt8} (kind : TokenKind) (hb : Lexer.doubleMark? b = some kind)
    (h : ∀ t : Token, t.kind = kind → Writes text ends fun w => p (t :: w)) :
    Writes (b :: b :: text) ends p := by
  obtain ⟨hspace, hslash, hkind⟩ := Lexer.doubleMark?_eq_some hb
  refine token [b, b] hkind (by simp) (fun tail _ => ?_) fun t hk _ => h t hk
  exact ⟨Lexer.gapLength_mark hspace hslash _, Lexer.lexeme_double hb _⟩

theorem word {kind : TokenKind} (hword : IsWord text) (hkind : TokenKind.ofWord text = kind)
    (hbreaks : Leads rest ends Breaks)
    (h : ∀ t : Token, t.kind = kind → t.text = text → Writes rest ends fun w => p (t :: w)) :
    Writes (text ++ rest) ends p := by
  obtain ⟨b, bs, rfl, hb, hbs⟩ := hword
  subst hkind
  obtain ⟨hspace, hslash, -, -⟩ := Lexer.plain_of_wordByte (b := b) (by simp [hb])
  refine token _ (TokenKind.ofWord_ne (by decide) (by decide) _) (by simp) (fun tail htail => ?_) h
  exact ⟨Lexer.gapLength_mark hspace hslash _, Lexer.lexeme_word hb hbs (hbreaks tail htail)⟩

theorem numeral (hnumeral : Numeral text) (hbreaks : Leads rest ends Breaks)
    (h : ∀ t : Token, t.kind = .number → t.text = text → Writes rest ends fun w => p (t :: w)) :
    Writes (text ++ rest) ends p := by
  refine token _ (by decide) hnumeral.ne_nil (fun tail htail => ?_) h
  exact ⟨Lexer.gapLength_numeral hnumeral _, Lexer.lexeme_numeral hnumeral (hbreaks tail htail)⟩

theorem keyword {word : Bytes} (kind : TokenKind)
    (hword : TokenKind.keywords.lookup word = some kind) (hbreaks : Leads rest ends Breaks)
    (h : ∀ t : Token, t.kind = kind → Writes rest ends fun w => p (t :: w)) :
    Writes (word ++ rest) ends p := by
  have hkind : TokenKind.ofWord word = kind := by rw [TokenKind.ofWord, hword, Option.getD_some]
  exact Writes.word (isWord_keyword hword) hkind hbreaks fun t ht _ => h t ht

theorem name {word : Bytes} (hword : IsName word) (hbreaks : Leads rest ends Breaks)
    (h : ∀ t : Token, t.kind = .ident → t.text = word → Writes rest ends fun w => p (t :: w)) :
    Writes (word ++ rest) ends p := Writes.word hword.1 hword.2 hbreaks h

theorem last (h : Writes (text ++ []) ends p) : Writes text ends p := List.append_nil text ▸ h

end Writes

end SmallLang
