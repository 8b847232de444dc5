import SmallLang.Proofs.Token.Tables

/-! What stands between two tokens: white space and complete comments. Only the end of the input can
cut a comment off. -/

namespace SmallLang.Lexer

/-- White space, the bytes in `blanks`, and comments, each up to its end. -/
inductive IsGap : Bytes → Prop
  | nil : IsGap []
  | space {b : UInt8} {rest : Bytes} : isSpace b = true → IsGap rest → IsGap (b :: rest)
  | line {body rest : Bytes} : ascii '\n' ∉ body → IsGap rest →
      IsGap (ascii '/' :: ascii '/' :: (body ++ ascii '\n' :: rest))
  | block {body rest : Bytes} : ¬ [ascii '*', ascii '/'] <:+: body → IsGap rest →
      IsGap (ascii '/' :: ascii '*' :: (body ++ ascii '*' :: ascii '/' :: rest))

inductive IsCutComment : Bytes → Prop
  | line {body : Bytes} : ascii '\n' ∉ body → IsCutComment (ascii '/' :: ascii '/' :: body)
  | block {body : Bytes} : ¬ [ascii '*', ascii '/'] <:+: body →
      IsCutComment (ascii '/' :: ascii '*' :: body)

def OpensGap (text : Bytes) : Prop :=
  (∃ b ∈ text.head?, isSpace b = true) ∨ [ascii '/', ascii '/'] <+: text ∨
    [ascii '/', ascii '*'] <+: text

def AtEnd (rest : Bytes) : Prop := ∀ b ∈ rest.head?, b = 0

/-- The bytes in front of the rest are a gap; at the end it may finish with a comment that is cut
off. -/
inductive Separates : Bytes → Bytes → Prop
  | gap {skipped rest : Bytes} : IsGap skipped → ¬ OpensGap rest → Separates skipped rest
  | cut {gap cut rest : Bytes} : IsGap gap → IsCutComment cut → AtEnd rest →
      Separates (gap ++ cut) rest

/-- As `Separates`, from a place within white space or within a comment. -/
def Gap.Separates : Gap → Bytes → Bytes → Prop
  | .space, skipped, rest => Lexer.Separates skipped rest
  | .lineComment, skipped, rest =>
    ascii '\n' ∉ skipped ∧ AtEnd rest ∨
      ∃ body more, skipped = body ++ ascii '\n' :: more ∧ ascii '\n' ∉ body ∧
        Lexer.Separates more rest
  | .blockComment, skipped, rest =>
    ¬ [ascii '*', ascii '/'] <:+: skipped ∧ AtEnd rest ∨
      ∃ body more, skipped = body ++ ascii '*' :: ascii '/' :: more ∧
        ¬ [ascii '*', ascii '/'] <:+: body ∧ Lexer.Separates more rest

variable {b : UInt8} {skipped rest : Bytes}

theorem Separates.exists_cut (h : Separates skipped rest) :
    ∃ gap cut, skipped = gap ++ cut ∧ IsGap gap ∧ (cut = [] ∨ IsCutComment cut) := by
  cases h with
  | gap hgap _ => exact ⟨skipped, [], (List.append_nil _).symm, hgap, .inl rfl⟩
  | cut hgap hcut _ => exact ⟨_, _, rfl, hgap, .inr hcut⟩

theorem Separates.isGap (h : Separates skipped rest) (hrest : ¬ AtEnd rest) :
    IsGap skipped ∧ ¬ OpensGap rest := by
  cases h with
  | gap hgap hopens => exact ⟨hgap, hopens⟩
  | cut _ _ hend => exact absurd hend hrest

theorem Separates.space (hb : isSpace b = true) (h : Separates skipped rest) :
    Separates (b :: skipped) rest := by
  cases h with
  | gap hgap hrest => exact .gap (.space hb hgap) hrest
  | cut hgap hcut hrest => exact .cut (.space hb hgap) hcut hrest

theorem Separates.line (h : Gap.lineComment.Separates skipped rest) :
    Separates (ascii '/' :: ascii '/' :: skipped) rest := by
  rcases h with ⟨hbody, hrest⟩ | ⟨body, more, rfl, hbody, hmore⟩
  · exact .cut .nil (.line hbody) hrest
  · cases hmore with
    | gap hgap hrest => exact .gap (.line hbody hgap) hrest
    | cut hgap hcut hrest =>
      have hline := IsGap.line hbody hgap
      simpa using Separates.cut hline hcut hrest

theorem Separates.block (h : Gap.blockComment.Separates skipped rest) :
    Separates (ascii '/' :: ascii '*' :: skipped) rest := by
  rcases h with ⟨hbody, hrest⟩ | ⟨body, more, rfl, hbody, hmore⟩
  · exact .cut .nil (.block hbody) hrest
  · cases hmore with
    | gap hgap hrest => exact .gap (.block hbody hgap) hrest
    | cut hgap hcut hrest =>
      have hblock := IsGap.block hbody hgap
      simpa using Separates.cut hblock hcut hrest

theorem Gap.separates_line_cons (hb : b ≠ ascii '\n')
    (h : Gap.lineComment.Separates skipped rest) :
    Gap.lineComment.Separates (b :: skipped) rest := by
  rcases h with ⟨hbody, hrest⟩ | ⟨body, more, rfl, hbody, hmore⟩
  · exact .inl ⟨by simp [hb.symm, hbody], hrest⟩
  · exact .inr ⟨b :: body, more, rfl, by simp [hb.symm, hbody], hmore⟩

theorem not_infix_cons {body : Bytes} (h : ¬ [ascii '*', ascii '/'] <:+: body)
    (hb : b = ascii '*' → body.head? ≠ some (ascii '/')) :
    ¬ [ascii '*', ascii '/'] <:+: b :: body := by
  intro hinfix
  rcases List.infix_cons_iff.mp hinfix with hprefix | hinfix
  · obtain ⟨hstar, hslash⟩ := List.cons_prefix_cons.mp hprefix
    apply hb hstar.symm
    cases body with
    | nil => simp at hslash
    | cons c body => simp [(List.cons_prefix_cons.mp hslash).1]
  · exact h hinfix

theorem Gap.separates_block_cons (hb : b = ascii '*' → (skipped ++ rest).head? ≠ some (ascii '/'))
    (h : Gap.blockComment.Separates skipped rest) :
    Gap.blockComment.Separates (b :: skipped) rest := by
  rcases h with ⟨hbody, hrest⟩ | ⟨body, more, rfl, hbody, hmore⟩
  · refine .inl ⟨not_infix_cons hbody fun hstar hslash => hb hstar ?_, hrest⟩
    rw [List.head?_append, hslash, Option.some_or]
  · refine .inr ⟨b :: body, more, rfl, not_infix_cons hbody fun hstar hslash => hb hstar ?_, hmore⟩
    simp [List.head?_append, hslash]

theorem not_opensGap_nil : ¬ OpensGap [] := by
  simp [OpensGap]

theorem not_opensGap_cons (hspace : ¬ isSpace b = true)
    (hslash : b = ascii '/' → rest.head? ≠ some (ascii '/') ∧ rest.head? ≠ some (ascii '*')) :
    ¬ OpensGap (b :: rest) := by
  have hcomment (c : UInt8) (hc : [ascii '/', c] <+: b :: rest) :
      b = ascii '/' ∧ rest.head? = some c := by
    obtain ⟨hb, hc⟩ := List.cons_prefix_cons.mp hc
    cases rest with
    | nil => simp at hc
    | cons d rest => simp [hb, (List.cons_prefix_cons.mp hc).1]
  rintro (hb | hline | hblock)
  · exact hspace (by simpa using hb)
  · obtain ⟨hb, hc⟩ := hcomment _ hline
    exact (hslash hb).1 hc
  · obtain ⟨hb, hc⟩ := hcomment _ hblock
    exact (hslash hb).2 hc

theorem atEnd_zero (rest : Bytes) : AtEnd (0 :: rest) := by
  simp [AtEnd]

theorem gapLength_le (mode : Gap) (text : Bytes) : gapLength mode text ≤ text.length := by
  fun_induction gapLength mode text <;> simp_all

theorem zero_notMem_gap (mode : Gap) (text : Bytes) : 0 ∉ text.take (gapLength mode text) := by
  fun_induction gapLength mode text with
  | case1 => simp
  | case2 b rest hb ih =>
    have hzero : b ≠ 0 := by
      rintro rfl
      cases hb
    simp [hzero.symm, ih]
  | case3 => simp
  | case4 rest _ ih => simpa using ⟨by decide, ih⟩
  | case5 rest _ _ ih => simpa using ⟨by decide, by decide, ih⟩
  | case6 => simp
  | case7 => simp
  | case8 rest ih => simpa using ⟨by decide, ih⟩
  | case9 => simp
  | case10 b rest _ hb ih => simp [Ne.symm hb, ih]
  | case11 => simp
  | case12 b hb => simp [Ne.symm hb]
  | case13 b hb c rest hclose ih =>
    have hc : c ≠ 0 := by
      rintro rfl
      simp [ascii] at hclose
    simp [Ne.symm hb, hc.symm, ih]
  | case14 b rest hb _ ih => simp [Ne.symm hb, ih]

theorem gapLength_separates (mode : Gap) (text : Bytes) :
    mode.Separates (text.take (gapLength mode text)) (text.drop (gapLength mode text)) := by
  fun_induction gapLength mode text with
  | case1 mode =>
    cases mode with
    | space => exact .gap .nil not_opensGap_nil
    | lineComment => exact .inl ⟨by simp, by simp [AtEnd]⟩
    | blockComment => exact .inl ⟨by simp, by simp [AtEnd]⟩
  | case2 b rest hb ih => exact Separates.space hb ih
  | case3 hspace => exact .gap .nil (not_opensGap_cons hspace (by simp))
  | case4 rest _ ih => exact Separates.line ih
  | case5 rest _ _ ih => exact Separates.block ih
  | case6 c rest hslash hstar hspace =>
    exact .gap .nil (not_opensGap_cons hspace fun _ => by simp [hslash, hstar])
  | case7 b rest hspace hslash =>
    exact .gap .nil (not_opensGap_cons hspace fun hb => absurd hb hslash)
  | case8 rest ih => exact .inr ⟨[], _, rfl, by simp, ih⟩
  | case9 rest => exact .inl ⟨by simp, atEnd_zero rest⟩
  | case10 b rest hfeed _ ih => exact Gap.separates_line_cons hfeed ih
  | case11 rest => exact .inl ⟨by simp, atEnd_zero rest⟩
  | case12 b _ hclose => simp at hclose
  | case13 b _ c rest hclose ih =>
    obtain ⟨rfl, rfl⟩ : b = ascii '*' ∧ c = ascii '/' := by simpa using hclose
    exact .inr ⟨[], _, rfl, by simp, ih⟩
  | case14 b rest _ hopen ih =>
    refine Gap.separates_block_cons (fun hb => ?_) ih
    rw [List.drop_succ_cons, List.take_append_drop]
    simpa [hb] using hopen

end SmallLang.Lexer
