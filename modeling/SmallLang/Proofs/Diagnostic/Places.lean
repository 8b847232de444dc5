import SmallLang.Proofs.Diagnostic.Excerpt
import SmallLang.Proofs.Parse.Faults
import SmallLang.Proofs.Token.Offsets

/-! Diagnostics point into the source text. Each is at a token of the text, further on than the one
before it, and its excerpt shows the line and the column of the token. -/

namespace SmallLang

namespace Diagnostic

/-- By line, and by column within a line. -/
def Before (d d' : Diagnostic) : Prop :=
  d.line < d'.line ∨ d.line = d'.line ∧ d.column < d'.column

theorem before_of_position {e e' : SyntaxError} (file source : Bytes)
    (h : e.token.position < e'.token.position) :
    (ofSyntaxError file source e).Before (ofSyntaxError file source e') := by
  have h : e.token.line < e'.token.line ∨
      e.token.line = e'.token.line ∧ e.token.column < e'.token.column := (Prod.Lex.lt_iff).mp h
  exact h.imp Int.ofNat_lt.mpr fun ⟨hline, hcolumn⟩ =>
    ⟨congrArg Int.ofNat hline, Int.ofNat_lt.mpr hcolumn⟩

theorem stage_ofSyntaxError (file source : Bytes) (e : SyntaxError) :
    (ofSyntaxError file source e).stage = .lexer ↔ e.token.kind = .illegal := by
  simp [ofSyntaxError, ofMessage, SyntaxError.isLexical]

end Diagnostic

theorem parseSource_tokens (source : Bytes) :
    ((parseSource source).2.map SyntaxError.token).Sublist (tokenStream source) := by
  refine Parser.functions_sublist ?_ _ _
  obtain ⟨front, stop, hstream, hstop⟩ := exists_tokenStream_eq source
  rw [hstream, Parser.EndsInStop]
  simpa using hstop

theorem compile_error {file source : Bytes} {ds : List Diagnostic}
    (h : compile file source = .error ds) :
    (parseSource source).2 ≠ [] ∧
      ds = (parseSource source).2.map (Diagnostic.ofSyntaxError file source) := by
  rw [compile] at h
  generalize parseSource source = parsed at h ⊢
  obtain ⟨funcs, errors⟩ := parsed
  cases errors with
  | nil => cases h
  | cons e errors =>
    cases h
    exact ⟨List.cons_ne_nil e errors, rfl⟩

theorem ne_nil_of_compile {file source : Bytes} {ds : List Diagnostic}
    (h : compile file source = .error ds) : source ≠ [] := by
  rintro rfl
  cases h

/-- The diagnostics of a source text that is rejected are at tokens of it, one behind the other.
Illegal characters are the lexer's. Lines and columns are within the text, and every excerpt shows
what is around its place. -/
theorem diagnostics_point_into_source (file source : Bytes) {ds : List Diagnostic}
    (h : compile file source = .error ds) :
    ds ≠ [] ∧ ds.Pairwise Diagnostic.Before ∧
      ∀ d ∈ ds, ∃ t ∈ tokenStream source, ∃ k text, t.StandsAt source k ∧
        d.line = t.line ∧ d.column = t.column ∧ (d.stage = .lexer ↔ t.kind = .illegal) ∧
        1 ≤ t.line ∧ t.line ≤ (sourceLines source).length ∧
        (sourceLines source)[t.line - 1]? = some text ∧
        1 ≤ t.column ∧ t.column ≤ text.length + 1 ∧
        d.excerpt ≠ [] ∧ Excerpt.Shows source t.line t.column d.excerpt := by
  have hsource := ne_nil_of_compile h
  obtain ⟨herrors, rfl⟩ := compile_error h
  have htokens := parseSource_tokens source
  refine ⟨by simpa using herrors, ?_, fun d hd => ?_⟩
  · have hpairs := (tokenStream_pairwise source).sublist htokens
    rw [List.pairwise_map] at hpairs ⊢
    exact hpairs.imp fun h => Diagnostic.before_of_position file source h
  · obtain ⟨e, he, rfl⟩ := List.mem_map.mp hd
    have ht : e.token ∈ tokenStream source := htokens.subset (List.mem_map_of_mem he)
    obtain ⟨k, hk⟩ := tokenStream_standsAt source e.token ht
    obtain ⟨text, hline⟩ := hk.placed.exists_onLine hk.le
    have hshows := Excerpt.render_shows hsource hline
    exact ⟨e.token, ht, k, text, hk, rfl, rfl, Diagnostic.stage_ofSyntaxError file source e,
      hline.line_le.1, hline.line_le.2, hline.getElem?, hline.column_pos, hline.column_le,
      hshows.ne_nil, hshows⟩

def faulty : Bytes := utf8 "void f() \x7b print $; \x7d\nvoid g() \x7b"

def faultyDiagnostics : List Diagnostic :=
  [{ stage := .lexer
     file := []
     message := utf8 "unexpected illegal character \"$\" in expression"
     line := 1
     column := 18
     excerpt := utf8 "> 1 | void f() \x7b print $; \x7d\n" ++
       utf8 "                       ^\n" ++
       utf8 "  2 | void g() \x7b\n" },
   { stage := .parser
     file := []
     message := utf8 "unexpected end of input in function g"
     line := 2
     column := 11
     excerpt := utf8 "  1 | void f() \x7b print $; \x7d\n" ++
       utf8 "> 2 | void g() \x7b\n" ++
       utf8 "                ^\n" }]

theorem faulty_diagnostics_point_into_source :
    compile [] faulty = .error faultyDiagnostics ∧
      faultyDiagnostics.Pairwise Diagnostic.Before ∧
      ∀ d ∈ faultyDiagnostics, ∃ t ∈ tokenStream faulty,
        Excerpt.Shows faulty t.line t.column d.excerpt := by
  have hcompile : compile [] faulty = .error faultyDiagnostics := rfl
  obtain ⟨-, hpairs, hplaces⟩ := diagnostics_point_into_source [] faulty hcompile
  refine ⟨hcompile, hpairs, fun d hd => ?_⟩
  obtain ⟨t, ht, -, -, -, -, -, -, -, -, -, -, -, -, hshows⟩ := hplaces d hd
  exact ⟨t, ht, hshows⟩

end SmallLang
