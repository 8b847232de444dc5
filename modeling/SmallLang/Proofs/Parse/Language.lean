import SmallLang.Proofs.Grammar.Readings
import SmallLang.Proofs.Parse.Acceptance.Functions
import SmallLang.Proofs.Token.Genuine

/-! The language that is parsed. A source text is without syntax error exactly if its tokens are a
sentence of the grammar with numbers in the range, and then its functions are the trees of the
derivation. -/

namespace SmallLang

open Grammar

/-- The tokens in front of the first end of the input. -/
def sourceWord (source : Bytes) : List Token :=
  (tokenStream source).takeWhile fun t => t.kind ≠ .eof

def Grammar.Denotes (text : Bytes) (x : Number) : Prop := x = Numeral.value text

namespace Parser

theorem takeWhile_of_inner {denotes : Bytes → Number → Prop} {w rest : List Token}
    (hw : Inner denotes w) (hrest : headKind rest = .eof) :
    ((w ++ rest).takeWhile fun t => t.kind ≠ .eof) = w := by
  rw [List.takeWhile_append_of_pos fun t ht => by simpa using (hw t ht).1]
  cases rest with
  | nil => simp
  | cons t rest =>
    have ht : t.kind = .eof := hrest
    simp [ht]

theorem headKind_dropWhile (ts : List Token) :
    headKind (ts.dropWhile fun t => t.kind ≠ .eof) = .eof := by
  induction ts with
  | nil => rfl
  | cons t ts ih =>
    by_cases ht : t.kind = .eof
    · simp [List.dropWhile, ht]
    · rw [List.dropWhile_cons_of_pos (by simpa using ht)]
      exact ih

end Parser

open SmallLang.Parser

theorem sourceWord_genuine (source : Bytes) : ∀ t ∈ sourceWord source, t.Genuine :=
  fun t ht => tokenStream_genuine source t (List.takeWhile_subset _ ht)

theorem functions_of_parseSource {source : Bytes} (h : (parseSource source).2 = []) :
    Functions Reads true (sourceWord source) (parseSource source).1 := by
  obtain ⟨w, rest, hts, hfs, hrest⟩ := functions_takes (Nat.lt_succ_self _) h
  have hw : sourceWord source = w := by
    rw [sourceWord, hts, takeWhile_of_inner hfs.inner hrest]
  rw [hw]
  exact hfs

theorem parseSource_of_functions {source : Bytes} {fs : List Func}
    (h : Functions Reads true (sourceWord source) fs) : parseSource source = (fs, []) := by
  have hsplit : sourceWord source ++ (tokenStream source).dropWhile (fun t => t.kind ≠ .eof) =
      tokenStream source := List.takeWhile_append_dropWhile
  have heq := functions_eq h (headKind_dropWhile (tokenStream source)) 0
    ((tokenStream source).length + 1) (by rw [hsplit]; exact Nat.lt_succ_self _)
  rw [hsplit] at heq
  exact heq

theorem rereads_reads {w : List Token} (hw : ∀ t ∈ w, t.Genuine) : Rereads Reads Denotes w :=
  fun t ht hk _ hx => ((Number.read?_numeral_iff ((hw t ht).numeral hk) _).mp hx).2

theorem rereads_denotes {w : List Token} (hw : ∀ t ∈ w, t.Genuine)
    (hrange : ∀ t ∈ w, t.kind = .number → Numeral.InRange t.text) : Rereads Denotes Reads w :=
  fun t ht hk _ hx =>
    (Number.read?_numeral_iff ((hw t ht).numeral hk) _).mpr ⟨hrange t ht hk, hx⟩

theorem inRange_of_inner {w : List Token} (hw : ∀ t ∈ w, t.Genuine) (h : Inner Reads w) :
    ∀ t ∈ w, t.kind = .number → Numeral.InRange t.text := by
  intro t ht hk
  obtain ⟨x, hx⟩ := (h t ht).2 hk
  exact ((Number.read?_numeral_iff ((hw t ht).numeral hk) x).mp hx).1

/-- There is no syntax error exactly for the sentences of the grammar whose numbers are in the
range. The functions are then the one reading that gives every `else` to the nearest `if`. -/
theorem parseSource_iff_sentence (source : Bytes) :
    ((parseSource source).2 = [] ↔
      (∃ fs, Functions Denotes false (sourceWord source) fs) ∧
        ∀ t ∈ sourceWord source, t.kind = .number → Numeral.InRange t.text) ∧
    ∀ fs, parseSource source = (fs, []) ↔
      Functions Denotes true (sourceWord source) fs ∧
        ∀ t ∈ sourceWord source, t.kind = .number → Numeral.InRange t.text := by
  have hgenuine := sourceWord_genuine source
  have hparsed (fs : List Func) (h : Functions Denotes true (sourceWord source) fs)
      (hrange : ∀ t ∈ sourceWord source, t.kind = .number → Numeral.InRange t.text) :
      parseSource source = (fs, []) :=
    parseSource_of_functions (h.reread id (rereads_denotes hgenuine hrange))
  refine ⟨⟨fun h => ?_, fun ⟨⟨fs, hfs⟩, hrange⟩ => ?_⟩, fun fs => ⟨fun h => ?_, fun h => ?_⟩⟩
  · have hfs := functions_of_parseSource h
    exact ⟨⟨_, hfs.reread (by simp) (rereads_reads hgenuine)⟩,
      inRange_of_inner hgenuine hfs.inner⟩
  · obtain ⟨fs, hfs⟩ := hfs.exists_nearest
    rw [hparsed fs hfs hrange]
  · have hfs := functions_of_parseSource (congrArg Prod.snd h)
    rw [h] at hfs
    exact ⟨hfs.reread id (rereads_reads hgenuine), inRange_of_inner hgenuine hfs.inner⟩
  · exact hparsed fs h.1 h.2

example : parseSource (utf8 "f() \x7b if (a) if (b) print -a^b; else print b; \x7d") =
    ([⟨utf8 "f", .void, [],
      [.cond (.var (utf8 "a"))
        (.cond (.var (utf8 "b"))
          (.print (.unary .negate (.binary .pow (.var (utf8 "a")) (.var (utf8 "b")))))
          (.print (.var (utf8 "b"))))
        .absent], none⟩], []) := rfl

end SmallLang
