import Mathlib.Data.List.Infix
import SmallLang.Proofs.Parse.Layout
import SmallLang.Proofs.Parse.Scripts
import SmallLang.Proofs.Print.RoundTrip

/-! A program may be spread over scripts: scripts that are accepted one by one, and their contents
in one text, one below the other, give the same functions. -/

namespace SmallLang

open Lexer

namespace Lexer

/-- The text ends within a block comment: behind some of its words a comment is opened that is never
closed. -/
inductive Unclosed : Bytes → Prop
  | here {gap body : Bytes} : IsGap gap → ¬ [ascii '*', ascii '/'] <:+: body →
      Unclosed (gap ++ ascii '/' :: ascii '*' :: body)
  | later {gap text rest : Bytes} {kind : TokenKind} : IsGap gap → ¬ OpensGap (text ++ rest) →
      kind ≠ .eof → lexeme (text ++ rest) = (kind, text.length) → Unclosed rest →
      Unclosed (gap ++ (text ++ rest))

theorem Unclosed.exists_tail {text : Bytes} (h : Unclosed text) :
    ∃ tail ∈ text.tails, [ascii '/', ascii '*'] <+: tail ∧
      ¬ [ascii '*', ascii '/'] <:+: tail.drop 2 := by
  induction h with
  | @here gap body _ hbody =>
    refine ⟨ascii '/' :: ascii '*' :: body, ?_, by simp, hbody⟩
    exact (List.mem_tails _ _).mpr (List.suffix_append gap _)
  | @later gap text rest _ _ _ _ _ _ ih =>
    obtain ⟨tail, htail, hopen⟩ := ih
    refine ⟨tail, (List.mem_tails _ _).mpr ?_, hopen⟩
    rw [← List.append_assoc]
    exact ((List.mem_tails _ _).mp htail).trans (List.suffix_append _ rest)

theorem isGap_feed {text : Bytes} (h : gapLength .space text = text.length)
    (hclosed : ¬ Unclosed text) : IsGap (text ++ [ascii '\n']) := by
  have hseparates : Separates text [] := by
    have hseparates := gapLength_separates .space text
    rwa [h, List.take_length, List.drop_length] at hseparates
  obtain ⟨gap, cut, rfl, hgap, hcut⟩ := hseparates.exists_cut
  have hfeed : IsGap [ascii '\n'] := .space rfl .nil
  rcases hcut with rfl | hcut
  · rw [List.append_nil]
    exact hgap.append hfeed
  · cases hcut with
    | @line body hbody =>
      -- the line feed is the end that the comment lacked
      rw [List.append_assoc]
      exact hgap.append (.line hbody .nil)
    | block hbody => exact absurd (.here hgap hbody) hclosed

theorem Lexes.append_line {text text' : Bytes} {ws ws' : List (TokenKind × Bytes)}
    (h : Lexes text ws) (hclosed : ¬ Unclosed text) (h' : Lexes text' ws') :
    Lexes (text ++ ascii '\n' :: text') (ws ++ ws') := by
  induction h with
  | @stop text hzero hlength =>
    have hgap := isGap_feed hlength hclosed
    have hlexes := h'.behind_gap hgap (by simp [hzero, ascii])
    rwa [List.append_assoc] at hlexes
  | @word gap text rest kind ws hzero hgap hopens hkind hlexeme _ ih =>
    have hblank : StartsBlank (ascii '\n' :: text') := by simp [StartsBlank, isSpace]
    have hne : text ++ rest ≠ [] := by
      simp [(isFirst_of_lexeme hkind hlexeme).ne_nil]
    have hrest := ih fun hunclosed => hclosed (.later hgap hopens hkind hlexeme hunclosed)
    have hopens' : ¬ OpensGap (text ++ (rest ++ ascii '\n' :: text')) := by
      rw [← List.append_nil (text ++ rest)] at hopens
      rw [← List.append_assoc]
      exact not_opensGap_append hopens hne hblank
    have hlexeme' : lexeme (text ++ (rest ++ ascii '\n' :: text')) = (kind, text.length) := by
      rw [← List.append_assoc, lexeme_append hne hblank, hlexeme]
    have hlexes := Lexes.word hzero hgap hopens' hkind hlexeme' hrest
    simpa using hlexes

theorem Lexes.join {texts : List Bytes} {words : Bytes → List (TokenKind × Bytes)}
    (h : ∀ text ∈ texts, Lexes text (words text)) (hclosed : ∀ text ∈ texts, ¬ Unclosed text) :
    Lexes (Bytes.join (utf8 "\n") texts) (texts.flatMap words) := by
  induction texts with
  | nil => exact .nil
  | cons text texts ih =>
    simp only [List.forall_mem_cons] at h hclosed
    cases texts with
    | nil =>
      rw [Bytes.join, List.intercalate_singleton, List.flatMap_singleton]
      exact h.1
    | cons next texts =>
      rw [Bytes.join_cons_cons, List.flatMap_cons]
      exact h.1.append_line hclosed.1 (ih h.2 hclosed.2)

end Lexer

theorem Grammar.Functions.append {denotes : Bytes → Number → Prop} {nearest : Bool}
    {w v : List Token} {fs gs : List Func} (h : Functions denotes nearest w fs)
    (hv : Functions denotes nearest v gs) : Functions denotes nearest (w ++ v) (fs ++ gs) := by
  induction h with
  | nil => exact hv
  | cons hf _ ih =>
    rw [List.append_assoc]
    exact .cons hf ih

open Grammar SmallLang.Parser

theorem parseSource_of_words {source : Bytes} {w : List Token} {fs : List Func}
    (hfs : Functions Reads true w fs) (hsource : Lexes source (w.map Token.word)) :
    parseSource source = (fs, []) := by
  -- the words give these functions at the places of `w`, and places do not matter
  have hparsed : parseTokens (w ++ [Token.ending]) = (fs, []) :=
    functions_eq hfs rfl 0 _ (Nat.lt_succ_self _)
  have hwords : (tokenStream source).map Token.word = (w ++ [Token.ending]).map Token.word := by
    rw [hsource.tokenStream, List.map_append]
    rfl
  obtain ⟨hfunctions, herrors⟩ := parseTokens_congr hwords
  rw [hparsed] at hfunctions herrors
  exact Prod.ext hfunctions (List.map_eq_nil_iff.mp herrors)

theorem functions_flatMap {scripts : List Script}
    (h : ∀ s ∈ scripts, compile s.file s.content = .ok s.funcs) :
    Functions Reads true (scripts.flatMap fun s => sourceWord s.content)
      (scripts.flatMap Script.funcs) := by
  induction scripts with
  | nil => exact .nil
  | cons s scripts ih =>
    simp only [List.forall_mem_cons] at h
    have hparse := compile_eq_ok_iff.mp h.1
    have hfs := functions_of_parseSource (congrArg Prod.snd hparse)
    rw [hparse] at hfs
    exact hfs.append (ih h.2)

/-- Scripts that are accepted one by one give the functions of their contents in one text. -/
theorem compileScripts_eq_compile_join {scripts : List Script}
    (hzero : ∀ s ∈ scripts, 0 ∉ s.content) (hclosed : ∀ s ∈ scripts, ¬ Unclosed s.content)
    (haccepted : ∀ s ∈ scripts, ∃ fs, compile [] s.content = .ok fs) :
    ∃ fs, compileScripts scripts = .ok fs ∧
      compile [] (Bytes.join (utf8 "\n") (scripts.map Script.content)) = .ok fs := by
  have hcompiled : ∀ s ∈ scripts, compile s.file s.content = .ok s.funcs := by
    intro s hs
    obtain ⟨fs, hfs⟩ := haccepted s hs
    have hown : compile s.file s.content = .ok fs :=
      compile_eq_ok_iff.mpr (compile_eq_ok_iff.mp hfs)
    rwa [Script.funcs_eq hown]
  have hlexes : ∀ text ∈ scripts.map Script.content,
      Lexes text ((sourceWord text).map Token.word) := by
    rintro _ htext
    obtain ⟨s, hs, rfl⟩ := List.mem_map.mp htext
    obtain ⟨ws, hws⟩ := Lexes.exists_words (hzero s hs)
    rwa [hws.sourceWord]
  have hjoined := Lexes.join hlexes (by simpa using hclosed)
  rw [List.flatMap_map, ← List.map_flatMap] at hjoined
  refine ⟨scripts.flatMap Script.funcs, compileScripts_of_ok hcompiled, ?_⟩
  exact compile_eq_ok_iff.mpr (parseSource_of_words (functions_flatMap hcompiled) hjoined)

def threeScripts : List Script :=
  [⟨utf8 "a", utf8 "f() \x7b\x7d // the end", 17⟩, ⟨utf8 "b", [], 0⟩,
    ⟨utf8 "c", utf8 "/* the start */ main() \x7b f(); \x7d", 31⟩]

theorem threeScripts_eq_compile_join :
    ((∀ s ∈ threeScripts, 0 ∉ s.content) ∧ (∀ s ∈ threeScripts, ¬ Unclosed s.content) ∧
      ∀ s ∈ threeScripts, ∃ fs, compile [] s.content = .ok fs) ∧
      compile [] (utf8 "f() \x7b\x7d // the end\n\n/* the start */ main() \x7b f(); \x7d") =
        .ok [⟨utf8 "f", .void, [], [], none⟩,
          ⟨utf8 "main", .void, [], [.call (utf8 "f") []], none⟩] := by
  have hzero : ∀ s ∈ threeScripts, 0 ∉ s.content := by decide
  have hclosed : ∀ s ∈ threeScripts, ¬ Unclosed s.content := by
    have hnone : ∀ s ∈ threeScripts, ¬ ∃ tail ∈ s.content.tails,
        [ascii '/', ascii '*'] <+: tail ∧ ¬ [ascii '*', ascii '/'] <:+: tail.drop 2 := by
      decide
    exact fun s hs hunclosed => hnone s hs hunclosed.exists_tail
  have haccepted : ∀ s ∈ threeScripts, ∃ fs, compile [] s.content = .ok fs := by
    simp only [threeScripts, List.forall_mem_cons]
    exact ⟨⟨_, rfl⟩, ⟨_, rfl⟩, ⟨_, rfl⟩, by simp⟩
  refine ⟨⟨hzero, hclosed, haccepted⟩, ?_⟩
  obtain ⟨fs, hscripts, hjoined⟩ := compileScripts_eq_compile_join hzero hclosed haccepted
  obtain rfl : [⟨utf8 "f", .void, [], [], none⟩,
      ⟨utf8 "main", .void, [], [.call (utf8 "f") []], none⟩] = fs := Except.ok.inj hscripts
  exact hjoined

end SmallLang
