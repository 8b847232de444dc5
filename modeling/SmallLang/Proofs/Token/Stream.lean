import SmallLang.Proofs.Token.Tiling

/-! The token stream of a source text without NUL bytes: it has one end, and that is its last
token. -/

namespace SmallLang

open Lexer

theorem Tiled.exists_stop {source : Bytes} {i : Nat} {ts : List Token} (h : Tiled source i ts) :
    ∃ front stop, ts = front ++ [stop] ∧ stop.kind = .eof ∧ ∀ t ∈ front, t.kind ≠ .eof := by
  induction h with
  | @stop i t _ _ _ _ _ hkind _ _ => exact ⟨[], t, rfl, hkind, by simp⟩
  | @token i k t ts _ _ _ hkind _ _ _ _ ih =>
    obtain ⟨front, stop, rfl, hstop, hfront⟩ := ih
    refine ⟨t :: front, stop, rfl, hstop, ?_⟩
    intro u hu
    rcases List.mem_cons.mp hu with rfl | hu
    · exact hkind
    · exact hfront u hu

namespace Cursor

theorem rest_next (c : Cursor) :
    c.next.2.rest = c.behindGap.rest.drop (lexeme c.behindGap.rest).2 :=
  rest_skip _ _

theorem rest_behindGap (c : Cursor) :
    c.behindGap.rest = c.rest.drop (gapLength .space c.rest) :=
  rest_skip _ _

theorem rest_next_of_eof {c : Cursor} (hzero : 0 ∉ c.rest) (h : c.next.1.kind = .eof) :
    c.next.2.rest = [] := by
  have hend : AtEnd c.behindGap.rest := by
    by_cases hend : AtEnd c.behindGap.rest
    · exact hend
    · exact absurd h (next_of_not_atEnd hend).1.ne_eof
  have hnil : c.behindGap.rest = [] := by
    have hzero' : 0 ∉ c.behindGap.rest := by
      rw [rest_behindGap]
      exact fun hmem => hzero (List.mem_of_mem_drop hmem)
    cases hrest : c.behindGap.rest with
    | nil => rfl
    | cons b rest =>
      rw [hrest] at hend hzero'
      obtain rfl : b = 0 := hend b rfl
      exact absurd List.mem_cons_self hzero'
  rw [rest_next, hnil, List.drop_nil]

/-- Without NUL bytes there is nothing behind the first end. -/
theorem throughout_eq_upToEnd {c : Cursor} (hzero : 0 ∉ c.rest) (fuel : Nat) :
    c.throughout fuel = (c.upToEnd fuel).1 := by
  induction fuel generalizing c with
  | zero => rfl
  | succ fuel ih =>
    by_cases hkind : c.next.1.kind = .eof
    · simp [throughout, upToEnd, hkind, rest_next_of_eof hzero hkind]
    · have hzero' : 0 ∉ c.next.2.rest := by
        rw [rest_next, rest_behindGap]
        exact fun hmem => hzero (List.mem_of_mem_drop (List.mem_of_mem_drop hmem))
      simp [throughout, upToEnd, hkind, ih hzero']

end Cursor

theorem tokenStream_eq_append {source : Bytes} (h : 0 ∉ source) :
    ∃ front stop, tokenStream source = front ++ [stop] ∧ stop.kind = .eof ∧
      ∀ t ∈ front, t.kind ≠ .eof := by
  have htiled : Tiled source 0 ((Cursor.start source).upToEnd (source.length + 1)).1 :=
    Cursor.upToEnd_tiled (Cursor.at_start source) (by simp) (Nat.zero_le _) (by omega)
  have hstream : tokenStream source = ((Cursor.start source).upToEnd (source.length + 1)).1 :=
    Cursor.throughout_eq_upToEnd h _
  rw [hstream]
  exact htiled.exists_stop

end SmallLang
