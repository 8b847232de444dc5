import SmallLang.Proofs.Parse.Termination

/-! The tokens at fault. Syntax errors lie at tokens of the list that is parsed, in their order and
no two at the same one; none lies behind the end of the list. -/

namespace SmallLang.Parser

/-- The last token, if there is one, is an end of the input. -/
def EndsInStop (ts : List Token) : Prop := ∀ t ∈ ts.getLast?, t.kind = .eof

theorem EndsInStop.suffix {ts rest : List Token} (h : EndsInStop ts) (hrest : rest <:+ ts) :
    EndsInStop rest := by
  obtain ⟨w, rfl⟩ := hrest
  intro t ht
  cases rest with
  | nil => simp at ht
  | cons u rest => exact h t (by simpa [List.getLast?_append] using ht)

/-- A failed function leaves the token at fault, since it has not gone past the last one. -/
theorem EndsInStop.found_ne_nil {n : Nat} {t : Token} {ts found : List Token} {cause : SyntaxCause}
    (h : EndsInStop (t :: ts)) (hfail : function n (t :: ts) = .fail cause found) :
    ∃ u rest, found = u :: rest ∧ found <:+ t :: ts := by
  obtain ⟨w, hts, hw⟩ := exists_endFree_of_fail hfail
  cases found with
  | nil =>
    rw [List.append_nil] at hts
    have hlast := List.getLast?_eq_some_getLast (List.cons_ne_nil t ts)
    have hmem : (t :: ts).getLast (List.cons_ne_nil t ts) ∈ w := hts ▸ List.getLast_mem _
    exact absurd (h _ hlast) (hw _ hmem)
  | cons u rest => exact ⟨u, rest, rfl, w, hts.symm⟩

theorem functions_sublist {ts : List Token} (h : EndsInStop ts) (fuel depth : Nat) :
    ((functions fuel depth ts).2.map SyntaxError.token).Sublist ts := by
  induction fuel generalizing ts depth with
  | zero => exact List.nil_sublist ts
  | succ fuel ih =>
    cases ts with
    | nil => exact List.nil_sublist []
    | cons t rest =>
      rw [functions]
      split
      · exact List.nil_sublist _
      · cases hf : function (enough (t :: rest)) (t :: rest) with
        | ok f after =>
          have hafter := (function_shrinks hf).1
          exact (ih (h.suffix hafter) depth).trans hafter.sublist
        | fail cause found =>
          obtain ⟨u, back, rfl, hfound⟩ := h.found_ne_nil hf
          -- recovery leaves tokens behind the one at fault
          have hafter (depth : Nat) : (recover depth (u :: back)).2 <:+ back :=
            recover_suffix depth (u :: back)
          have hback := (List.suffix_cons u back).trans hfound
          have herrors (depth depth' : Nat) :
              ((functions fuel depth' (recover depth (u :: back)).2).2.map
                SyntaxError.token).Sublist back :=
            (ih (h.suffix ((hafter depth).trans hback)) depth').trans (hafter depth).sublist
          exact ((herrors _ _).cons_cons u).trans hfound.sublist
        | starved => exact List.nil_sublist _

end SmallLang.Parser
