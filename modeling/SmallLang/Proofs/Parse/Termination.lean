import SmallLang.Proofs.Parse.Progress.Functions
import SmallLang.Proofs.Parse.Recovery.Isolation
import SmallLang.Proofs.Token.Progress

/-! Parsing comes to an end on every source text. All loops and all cycles of calls use up tokens,
so a depth of recursion that is linear in the length of the text never runs out. -/

namespace SmallLang

namespace Parser

theorem function_eq_of_le {n m : Nat} {ts : List Token} (h : n ≤ m)
    (hn : function n ts ≠ .starved) : function m ts = function n ts := by
  have hsteady := function_steady h ts
  unfold Steady at hsteady
  cases hf : function n ts with
  | ok f rest =>
    rw [hf] at hsteady
    obtain ⟨w, hts, -, hsame⟩ := hsteady
    rw [← hsame rest rfl, ← hts]
  | fail cause rest =>
    rw [hf] at hsteady
    obtain ⟨w, hts, -, hsame⟩ := hsteady
    rw [← hsame rest rfl, ← hts]
  | starved => exact absurd hf hn

theorem function_eq {n m : Nat} {ts : List Token} (hn : 3 * ts.length + 2 < n)
    (hm : 3 * ts.length + 2 < m) : function n ts = function m ts := by
  have hleast : function (3 * ts.length + 3) ts ≠ .starved :=
    (function_advanced _ ts).ne_starved (Nat.lt_succ_self _)
  rw [function_eq_of_le hn hleast, function_eq_of_le hm hleast]

theorem function_shrinks {n : Nat} {ts after : List Token} {f : Func}
    (h : function n ts = .ok f after) : after <:+ ts ∧ after.length < ts.length := by
  have htakes := function_takes n ts
  rw [h] at htakes
  cases htakes with
  | ok hts hf =>
    subst hts
    have hpos := hf.length_pos
    exact ⟨List.suffix_append _ after, by rw [List.length_append]; omega⟩

theorem exists_endFree_of_fail {n : Nat} {ts found : List Token} {cause : SyntaxCause}
    (h : function n ts = .fail cause found) : ∃ w, ts = w ++ found ∧ EndFree w := by
  have hadvanced := function_advanced n ts
  rw [h] at hadvanced
  cases hadvanced with
  | fail hts hw => exact ⟨_, hts, hw⟩

theorem recover_suffix (depth : Nat) (ts : List Token) : (recover depth ts).2 <:+ ts.tail := by
  induction ts generalizing depth with
  | nil => exact List.suffix_refl []
  | cons t ts ih =>
    have hrest (depth : Nat) : (recover depth ts).2 <:+ ts := (ih depth).trans ts.tail_suffix
    rw [List.tail_cons, recover.eq_def]
    simp only
    split
    · exact List.suffix_refl ts
    · exact hrest _
    · split
      · exact List.suffix_refl ts
      · exact hrest _
    · exact hrest _

theorem recover_shrinks {n : Nat} {t : Token} {ts found : List Token} {cause : SyntaxCause}
    (h : function n (t :: ts) = .fail cause found) (depth : Nat) :
    (recover depth found).2 <:+ t :: ts ∧ (recover depth found).2.length < (t :: ts).length := by
  obtain ⟨w, hts, -⟩ := exists_endFree_of_fail h
  have hafter := recover_suffix depth found
  have hlength := hafter.length_le
  have hwhole := congrArg List.length hts
  rw [List.length_tail] at hlength
  rw [List.length_append, List.length_cons] at hwhole
  refine ⟨hts ▸ (hafter.trans found.tail_suffix).trans (List.suffix_append w found), ?_⟩
  rw [List.length_cons]
  omega

/-- The functions and syntax errors of `functions`, or nothing if the depth of recursion gets out of
bounds. -/
def functionsWithin : Nat → Nat → List Token → Option (List Func × List SyntaxError)
  | 0, _, _ => none
  | _ + 1, _, [] => some ([], [])
  | fuel + 1, depth, t :: rest =>
    if t.kind = .eof then some ([], [])
    else
      match function fuel (t :: rest) with
      | .ok f after => (functionsWithin fuel depth after).map fun (fs, es) => (f :: fs, es)
      | .fail cause found =>
        let taken := (t :: rest).take ((t :: rest).length - found.length)
        let (depth, after) := recover (depthAfter depth taken) found
        (functionsWithin fuel depth after).map fun (fs, es) =>
          (fs, ⟨cause, found.headD Token.ending⟩ :: es)
      | .starved => none

theorem functionsWithin_eq {ts : List Token} {fuel bound : Nat} (hfuel : 3 * ts.length + 3 < fuel)
    (hbound : ts.length < bound) (depth : Nat) :
    functionsWithin fuel depth ts = some (functions bound depth ts) := by
  induction fuel generalizing ts bound depth with
  | zero => omega
  | succ fuel ih =>
    obtain ⟨bound, rfl⟩ := Nat.exists_eq_add_one.mpr (Nat.zero_lt_of_lt hbound)
    cases ts with
    | nil => rfl
    | cons t rest =>
      -- both go on behind the same function or recovery, with fewer tokens
      have hmore {after : List Token} (hafter : after.length < (t :: rest).length) (depth : Nat) :
          functionsWithin fuel depth after = some (functions bound depth after) :=
        ih (by omega) (by omega) depth
      have hsame : function fuel (t :: rest) = function (enough (t :: rest)) (t :: rest) :=
        function_eq (by omega) (by rw [enough]; omega)
      rw [functionsWithin, functions, hsame]
      split
      · rfl
      · cases hf : function (enough (t :: rest)) (t :: rest) with
        | ok f after => simp only [hmore (function_shrinks hf).2, Option.map_some]
        | fail cause found => simp only [hmore (recover_shrinks hf _).2, Option.map_some]
        | starved => exact absurd hf (not_starved _)

end Parser

/-- The functions and syntax errors of a source text, or nothing if reading its tokens or parsing
them gets out of bounds. -/
def parseWithin (fuel : Nat) (source : Bytes) : Option (List Func × List SyntaxError) :=
  ((Cursor.start source).throughoutWithin fuel).bind (Parser.functionsWithin fuel 0)

open SmallLang.Parser

/-- Reading a token takes the cursor on. The recursive parsers run out of depth only by calls, those
calls lead back to the same parser only on fewer tokens, and no function and no recovery leaves all
tokens to the next one. So a linear bound is enough for the whole of every source text. -/
theorem parsing_terminates :
    (∀ c : Cursor, (∃ n, 0 < n ∧ c.next.2 = c.skip n) ∧
      (c.rest = [] → c.next.1.kind = .eof ∧ c.next.2.rest = [])) ∧
    (∀ n r ts, (∀ r' ts', Calls (r, ts) (r', ts') → r'.parser n ts' ≠ .starved) →
      r.parser (n + 1) ts ≠ .starved) ∧
    (∀ r r' ts ts', r.ctorIdx = r'.ctorIdx → Relation.TransGen Calls (r, ts) (r', ts') →
      ts' <:+ ts ∧ ts'.length < ts.length) ∧
    (∀ n t ts, (∀ f after, function n (t :: ts) = .ok f after →
        after <:+ t :: ts ∧ after.length < (t :: ts).length) ∧
      ∀ cause found, function n (t :: ts) = .fail cause found → ∀ depth,
        (recover depth found).2 <:+ t :: ts ∧
          (recover depth found).2.length < (t :: ts).length) ∧
    ∀ source fuel, 3 * source.length + 7 ≤ fuel →
      (Cursor.start source).upToEndWithin fuel = some (tokenize source) ∧
        parseWithin fuel source = some (parseSource source) := by
  refine ⟨fun c => ⟨c.exists_next_eq_skip, Cursor.next_of_nil⟩, fun _ _ _ => ne_starved_of_calls,
    fun _ _ _ _ => cycle_consumes, fun n t ts => ⟨fun _ _ => function_shrinks,
      fun _ _ => recover_shrinks⟩, fun source fuel hfuel => ⟨?_, ?_⟩⟩
  · exact Cursor.upToEndWithin_eq (by simp only [Cursor.start]; omega) (Nat.lt_succ_self _)
  · have htokens : (Cursor.start source).throughoutWithin fuel = some (tokenStream source) :=
      Cursor.throughoutWithin_eq (by simp only [Cursor.start]; omega) (Nat.lt_succ_self _)
    have hlength := length_tokenStream_le source
    rw [parseWithin, htokens, Option.bind_some]
    exact functionsWithin_eq (by omega) (Nat.lt_succ_self _) 0

end SmallLang
