import SmallLang.Proofs.Parse.Language
import SmallLang.Proofs.Parse.Recovery.Functions
import SmallLang.Proofs.Token.Stream

/-! Syntax errors stay with their functions. A source text that consists of chunks gives for every
chunk the function or the one error that the chunk gives alone. -/

namespace SmallLang

namespace Parser

open Grammar

theorem functions_nil (fuel depth : Nat) : functions fuel depth [] = ([], []) := by
  cases fuel <;> rfl

theorem functions_eof {t : Token} (ht : t.kind = .eof) (fuel depth : Nat) (rest : List Token) :
    functions fuel depth (t :: rest) = ([], []) := by
  cases fuel with
  | zero => rfl
  | succ fuel => simp [functions, ht]

theorem functions_of_ok {ts after : List Token} {f : Func} (hts : headKind ts ≠ .eof)
    (h : function (enough ts) ts = .ok f after) (fuel depth : Nat) :
    functions (fuel + 1) depth ts =
      (f :: (functions fuel depth after).1, (functions fuel depth after).2) := by
  cases ts with
  | nil => simp at hts
  | cons t ts =>
    have ht : t.kind ≠ .eof := hts
    simp [functions, ht, h]

theorem functions_of_fail {u found after : List Token} {cause : SyntaxCause} {depth depth' : Nat}
    (hts : headKind (u ++ found) ≠ .eof)
    (h : function (enough (u ++ found)) (u ++ found) = .fail cause found)
    (hrecover : recover (depthAfter depth u) found = (depth', after)) (fuel : Nat) :
    functions (fuel + 1) depth (u ++ found) =
      ((functions fuel depth' after).1,
        ⟨cause, found.headD Token.ending⟩ :: (functions fuel depth' after).2) := by
  have htaken : (u ++ found).take ((u ++ found).length - found.length) = u := by
    simp
  generalize hall : u ++ found = ts at hts h htaken
  cases ts with
  | nil => simp at hts
  | cons t ts =>
    have ht : t.kind ≠ .eof := hts
    simp only [functions, ht, if_false, h, htaken, hrecover]

theorem not_starved (ts : List Token) : function (enough ts) ts ≠ .starved := by
  have htakes := function_takes (enough ts) ts
  intro h
  rw [h] at htakes
  cases htakes with
  | starved hroom => exact hroom (by simp only [enough]; omega)

theorem IsChunk.function_of_ok {c rest : List Token} {f : Func} (hc : IsChunk c)
    (h : function (enough c) c = .ok f rest) : Function Reads true c f := by
  have htakes := function_takes (enough c) c
  have hsteady := function_steady (Nat.le_refl (enough c)) c
  unfold Steady at hsteady
  rw [h] at htakes hsteady
  obtain ⟨w, rfl, hwalk, -⟩ := hsteady
  cases htakes with
  | ok hv hf =>
    obtain rfl := List.append_cancel_right hv
    rcases hc.append_cases with ⟨rfl, -⟩ | ⟨front, rb, -, -, hfront⟩
    · rwa [List.append_nil]
    · rw [hwalk, Place.walk_behind] at hfront
      cases hfront

/-- The fault lies in the chunk, and it is there whatever follows the chunk. -/
theorem IsChunk.function_of_fail {c found : List Token} {cause : SyntaxCause} (hc : IsChunk c)
    (h : function (enough c) c = .fail cause found) :
    ∃ u front rb, found = front ++ [rb] ∧ c = u ++ found ∧ rb.kind = .rbrace ∧
      Place.header.walk u ≠ .behind ∧ (Place.header.walk u).walk front = .inside 0 ∧
      ∀ rest, function (enough (c ++ rest)) (c ++ rest) = .fail cause (found ++ rest) := by
  have hsteady (rest : List Token) : Steady .header .behind (function (enough c))
      (function (enough (c ++ rest))) c := by
    apply function_steady
    simp only [enough, List.length_append]
    omega
  simp only [Steady, h] at hsteady
  obtain ⟨u, hu, hwalk, -⟩ := hsteady []
  rw [hu] at hc
  rcases hc.append_cases with ⟨-, hbehind⟩ | ⟨front, rb, hfound, hrb, hfront⟩
  · exact absurd hbehind hwalk
  · refine ⟨u, front, rb, hfound, hu, hrb, hwalk, hfront, fun rest => ?_⟩
    obtain ⟨v, hv, -, hsame⟩ := hsteady rest
    have hhead : (found ++ rest).head? = found.head? := by
      rw [hfound, List.append_assoc, List.head?_append]
      cases front <;> rfl
    have hfail := hsame (found ++ rest) hhead
    rwa [← List.append_assoc, ← hv] at hfail

theorem IsChunk.headKind_ne {c : List Token} (hc : IsChunk c) (heof : ∀ t ∈ c, t.kind ≠ .eof)
    (rest : List Token) : headKind (c ++ rest) ≠ .eof := by
  obtain ⟨front, rb, rfl, -⟩ := hc.exists_front
  cases front with
  | nil => exact heof rb (by simp)
  | cons t front => exact heof t (by simp)

/-- What a chunk gives does not depend on what follows it, nor what follows on the chunk. -/
theorem IsChunk.functions_append {c : List Token} (hc : IsChunk c)
    (heof : ∀ t ∈ c, t.kind ≠ .eof) :
    ∃ fs es, (es = [] ∧ (∃ f, fs = [f]) ∨ fs = [] ∧ ∃ e, es = [e]) ∧
      ∀ fuel rest, functions (fuel + 1) 0 (c ++ rest) =
        (fs ++ (functions fuel 0 rest).1, es ++ (functions fuel 0 rest).2) := by
  cases h : function (enough c) c with
  | starved => exact absurd h (not_starved c)
  | ok f after =>
    refine ⟨[f], [], .inl ⟨rfl, f, rfl⟩, fun fuel rest => ?_⟩
    have hok : function (enough (c ++ rest)) (c ++ rest) = .ok f rest := by
      apply Function.function_eq (hc.function_of_ok h)
      simp only [enough]
      omega
    exact functions_of_ok (hc.headKind_ne heof rest) hok fuel 0
  | fail cause found =>
    obtain ⟨u, front, rb, hfound, hcu, hrb, hwalk, hfront, hfail⟩ := hc.function_of_fail h
    refine ⟨[], [⟨cause, (found.headD Token.ending)⟩], .inr ⟨rfl, _, rfl⟩, fun fuel rest => ?_⟩
    have hrecover : recover (depthAfter 0 u) (found ++ rest) = (0, rest) := by
      have hdepth : depthAfter 0 u = (Place.header.walk u).depth := depthAfter_eq hwalk
      rw [hdepth, hfound, List.append_assoc]
      apply recover_eq hfront _ hrb
      intro t ht
      apply heof
      simp [hcu, hfound, ht]
    have hhead : (found ++ rest).headD Token.ending = found.headD Token.ending := by
      rw [hfound]
      cases front <;> rfl
    have hnot := hc.headKind_ne heof rest
    have hfail := hfail rest
    rw [hcu, List.append_assoc] at hnot hfail ⊢
    rw [functions_of_fail hnot hfail hrecover fuel, hhead]
    rfl

theorem IsChunk.parseTokens_cases {c : List Token} (hc : IsChunk c)
    (heof : ∀ t ∈ c, t.kind ≠ .eof) {stop : Token} (hstop : stop.kind = .eof) :
    ((∃ f, parseTokens (c ++ [stop]) = ([f], [])) ∨ ∃ e, parseTokens (c ++ [stop]) = ([], [e])) ∧
      ∀ fuel rest, functions (fuel + 1) 0 (c ++ rest) =
        ((parseTokens (c ++ [stop])).1 ++ (functions fuel 0 rest).1,
          (parseTokens (c ++ [stop])).2 ++ (functions fuel 0 rest).2) := by
  obtain ⟨fs, es, hcases, happend⟩ := hc.functions_append heof
  have halone : parseTokens (c ++ [stop]) = (fs, es) := by
    rw [parseTokens, happend, functions_eof hstop, List.append_nil, List.append_nil]
  rw [halone]
  refine ⟨?_, happend⟩
  rcases hcases with ⟨rfl, f, rfl⟩ | ⟨rfl, e, rfl⟩
  · exact .inl ⟨f, rfl⟩
  · exact .inr ⟨e, rfl⟩

theorem functions_chunks {chunks : List (List Token)}
    {alone : List Token → List Func × List SyntaxError}
    (h : ∀ c ∈ chunks, ∀ fuel rest, functions (fuel + 1) 0 (c ++ rest) =
      ((alone c).1 ++ (functions fuel 0 rest).1, (alone c).2 ++ (functions fuel 0 rest).2))
    (fuel : Nat) (rest : List Token) :
    functions (fuel + chunks.length) 0 (chunks.flatten ++ rest) =
      (chunks.flatMap (fun c => (alone c).1) ++ (functions fuel 0 rest).1,
        chunks.flatMap (fun c => (alone c).2) ++ (functions fuel 0 rest).2) := by
  induction chunks with
  | nil => simp
  | cons c chunks ih =>
    have ih := ih fun d hd => h d (List.mem_cons_of_mem c hd)
    rw [List.length_cons, ← Nat.add_assoc, List.flatten_cons, List.append_assoc,
      h c List.mem_cons_self, ih]
    simp

theorem Function.exists_lbrace {w : List Token} {f : Func} (h : Function Reads true w f) :
    ∃ t ∈ w, t.kind = .lbrace := by
  cases h with
  | @intro _ _ _ _ _ lb _ _ _ _ _ _ _ _ _ _ _ _ hlb _ _ _ => exact ⟨lb, by simp, hlb⟩

/-- Tokens without braces in front of the end give one error. -/
theorem functions_tail {tail : List Token} (htail : BraceFree tail) (hne : tail ≠ [])
    (heof : ∀ t ∈ tail, t.kind ≠ .eof) {stop : Token} (hstop : stop.kind = .eof) :
    ∃ e, ∀ fuel, functions (fuel + 1) 0 (tail ++ [stop]) = ([], [e]) := by
  have hfree : BraceFree (tail ++ [stop]) := by
    intro t ht
    rcases List.mem_append.mp ht with ht | ht
    · exact htail t ht
    · obtain rfl := List.mem_singleton.mp ht
      simp [hstop]
  have hhead : headKind (tail ++ [stop]) ≠ .eof := by
    obtain ⟨t, rest, rfl⟩ := List.exists_cons_of_ne_nil hne
    exact heof t List.mem_cons_self
  cases h : function (enough (tail ++ [stop])) (tail ++ [stop]) with
  | starved => exact absurd h (not_starved _)
  | ok f after =>
    have htakes := function_takes (enough (tail ++ [stop])) (tail ++ [stop])
    rw [h] at htakes
    cases htakes with
    | ok hw hf =>
      obtain ⟨t, ht, hlb⟩ := Function.exists_lbrace hf
      exact absurd hlb (hfree t (by rw [hw]; exact List.mem_append_left _ ht)).1
  | fail cause found =>
    have hsteady := function_steady (Nat.le_refl (enough (tail ++ [stop]))) (tail ++ [stop])
    simp only [Steady, h] at hsteady
    obtain ⟨u, hu, -, -⟩ := hsteady
    have hrecover : recover (depthAfter 0 u) found = (0, []) := by
      have hwalk : Place.header.walk u = .header := by
        apply Place.walk_braceFree
        intro t ht
        exact hfree t (by rw [hu]; exact List.mem_append_left _ ht)
      have hdepth : depthAfter 0 u = 0 := by
        have hplace : depthAfter Place.header.depth u = (Place.header.walk u).depth :=
          depthAfter_eq (by simp [hwalk])
        rwa [hwalk] at hplace
      rw [hdepth]
      rcases List.eq_nil_or_concat found with rfl | ⟨front, last, rfl⟩
      · rfl
      · rw [List.concat_eq_append, ← List.append_assoc] at hu
        obtain ⟨rfl, hlast⟩ := List.append_inj' hu rfl
        obtain rfl : stop = last := by simpa using hlast
        rw [List.concat_eq_append]
        apply recover_braceFree _ _ hstop
        · exact fun t ht => htail t (List.mem_append_right u ht)
        · exact fun t ht => heof t (List.mem_append_right u ht)
    rw [hu] at hhead h ⊢
    refine ⟨⟨cause, found.headD Token.ending⟩, fun fuel => ?_⟩
    rw [functions_of_fail hhead h hrecover fuel, functions_nil]

theorem parseTokens_tail {tail : List Token} (htail : BraceFree tail)
    (heof : ∀ t ∈ tail, t.kind ≠ .eof) {stop : Token} (hstop : stop.kind = .eof) :
    (tail = [] ∧ parseTokens (tail ++ [stop]) = ([], []) ∨
        tail ≠ [] ∧ ∃ e, parseTokens (tail ++ [stop]) = ([], [e])) ∧
      ∀ fuel, functions (fuel + 1) 0 (tail ++ [stop]) = ([], (parseTokens (tail ++ [stop])).2) := by
  by_cases hne : tail = []
  · subst hne
    have hend (fuel : Nat) : functions fuel 0 ([] ++ [stop]) = ([], []) :=
      functions_eof hstop fuel 0 []
    refine ⟨.inl ⟨rfl, hend _⟩, fun fuel => ?_⟩
    rw [hend, parseTokens, hend]
  · obtain ⟨e, he⟩ := functions_tail htail hne heof hstop
    refine ⟨.inr ⟨hne, e, he _⟩, fun fuel => ?_⟩
    rw [he, parseTokens, he]

theorem length_le_flatten {chunks : List (List Token)} (h : ∀ c ∈ chunks, IsChunk c) :
    chunks.length ≤ chunks.flatten.length := by
  induction chunks with
  | nil => simp
  | cons c chunks ih =>
    have ih := ih fun d hd => h d (List.mem_cons_of_mem c hd)
    obtain ⟨front, rb, rfl, -⟩ := (h c List.mem_cons_self).exists_front
    simp only [List.flatten_cons, List.length_append, List.length_cons]
    omega

end Parser

open SmallLang.Parser

theorem tokenStream_eq_sourceWord {source : Bytes} (h : 0 ∉ source) :
    ∃ stop : Token, stop.kind = .eof ∧ tokenStream source = sourceWord source ++ [stop] ∧
      ∀ t ∈ sourceWord source, t.kind ≠ .eof := by
  obtain ⟨front, stop, hstream, hstop, hfront⟩ := tokenStream_eq_append h
  have hword : sourceWord source = front := by
    rw [sourceWord, hstream, List.takeWhile_append_of_pos (by simpa using hfront)]
    simp [hstop]
  rw [hword]
  exact ⟨stop, hstop, hstream, hfront⟩

/-- Every chunk gives one function or one error, and what is left behind the last chunk gives one
error; each gives in its source text what it gives alone. -/
theorem parseSource_chunks {source : Bytes} (hsource : 0 ∉ source) {chunks : List (List Token)}
    {tail : List Token} (hchunks : ∀ c ∈ chunks, IsChunk c) (htail : BraceFree tail)
    (hword : sourceWord source = chunks.flatten ++ tail) :
    ∃ stop : Token, stop.kind = .eof ∧ tokenStream source = sourceWord source ++ [stop] ∧
      (∀ c ∈ chunks,
        ((∃ f, parseTokens (c ++ [stop]) = ([f], [])) ∨
          ∃ e, parseTokens (c ++ [stop]) = ([], [e])) ∧
        ∀ alone, 0 ∉ alone → sourceWord alone = c →
          parseSource alone = parseTokens (c ++ [stop])) ∧
      (tail = [] ∧ parseTokens (tail ++ [stop]) = ([], []) ∨
        tail ≠ [] ∧ ∃ e, parseTokens (tail ++ [stop]) = ([], [e])) ∧
      parseSource source =
        (chunks.flatMap fun c => (parseTokens (c ++ [stop])).1,
          (chunks.flatMap fun c => (parseTokens (c ++ [stop])).2) ++
            (parseTokens (tail ++ [stop])).2) := by
  obtain ⟨stop, hstop, hstream, heof⟩ := tokenStream_eq_sourceWord hsource
  rw [hword] at heof
  have hcases (c : List Token) (hc : c ∈ chunks) :=
    (hchunks c hc).parseTokens_cases
      (fun t ht => heof t (List.mem_append_left tail (List.mem_flatten_of_mem hc ht))) hstop
  obtain ⟨htailCases, htailEq⟩ :=
    parseTokens_tail htail (fun t ht => heof t (List.mem_append_right _ ht)) hstop
  refine ⟨stop, hstop, hstream, fun c hc => ⟨(hcases c hc).1, fun alone halone hc' => ?_⟩,
    htailCases, ?_⟩
  · obtain ⟨stop', hstop', hstream', -⟩ := tokenStream_eq_sourceWord halone
    rw [parseSource, hstream', hc', parseTokens, (hcases c hc).2, functions_eof hstop',
      List.append_nil, List.append_nil]
  · obtain ⟨k, hk⟩ : ∃ k, (tokenStream source).length + 1 = (k + 1) + chunks.length := by
      have hlength := length_le_flatten hchunks
      refine ⟨(tokenStream source).length - chunks.length, ?_⟩
      rw [hstream, hword, List.length_append, List.length_append]
      omega
    rw [parseSource, parseTokens, hk, hstream, hword, List.append_assoc,
      functions_chunks (fun c hc => (hcases c hc).2), htailEq, List.append_nil]

def threeParts : Bytes := utf8 "f() \x7b\x7d g \x7b\x7d x"

def soundChunk : List Token :=
  [⟨.ident, utf8 "f", 1, 1⟩, ⟨.lparen, utf8 "(", 1, 2⟩, ⟨.rparen, utf8 ")", 1, 3⟩,
    ⟨.lbrace, utf8 "\x7b", 1, 5⟩, ⟨.rbrace, utf8 "\x7d", 1, 6⟩]

def faultyChunk : List Token :=
  [⟨.ident, utf8 "g", 1, 8⟩, ⟨.lbrace, utf8 "\x7b", 1, 10⟩, ⟨.rbrace, utf8 "\x7d", 1, 11⟩]

theorem threeParts_parseSource_chunks :
    (0 ∉ threeParts ∧ IsChunk soundChunk ∧ IsChunk faultyChunk ∧
      sourceWord threeParts =
        [soundChunk, faultyChunk].flatten ++ [⟨.ident, utf8 "x", 1, 13⟩]) ∧
      parseSource threeParts =
        ([⟨utf8 "f", .void, [], [], none⟩],
          [⟨.expected .lparen, ⟨.lbrace, utf8 "\x7b", 1, 10⟩⟩,
            ⟨.expected .lparen, ⟨.eof, [], 1, 14⟩⟩]) := by
  have hzero : 0 ∉ threeParts := by decide
  have hsound : IsChunk soundChunk := by
    have hheader : BraceFree (soundChunk.take 3) := by simp [BraceFree, soundChunk]
    exact .intro hheader rfl .nil rfl
  have hfaulty : IsChunk faultyChunk := by
    have hheader : BraceFree (faultyChunk.take 1) := by simp [BraceFree, faultyChunk]
    exact .intro hheader rfl .nil rfl
  have hchunks : ∀ c ∈ [soundChunk, faultyChunk], IsChunk c := by simp [hsound, hfaulty]
  have hword : sourceWord threeParts =
      [soundChunk, faultyChunk].flatten ++ [⟨.ident, utf8 "x", 1, 13⟩] := by decide
  refine ⟨⟨hzero, hsound, hfaulty, hword⟩, ?_⟩
  obtain ⟨stop, -, hstream, -, -, hparse⟩ :=
    parseSource_chunks hzero hchunks (by simp [BraceFree]) hword
  have hend : tokenStream threeParts = sourceWord threeParts ++ [⟨.eof, [], 1, 14⟩] := by decide
  obtain rfl : stop = ⟨.eof, [], 1, 14⟩ := by
    simpa using List.append_cancel_left (hstream.symm.trans hend)
  exact hparse.trans rfl

end SmallLang
