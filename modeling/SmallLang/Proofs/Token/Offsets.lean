import Mathlib.Data.Prod.Lex
import SmallLang.Proofs.Token.Progress

/-! The tokens of a source text, also of one with NUL bytes, stand in it in order: each where the
text of it is or where an end of the input is, and further on than the one before. -/

namespace SmallLang

open Lexer

/-- The token stands at the offset `k`: its text is the token there, or the input ends there. -/
structure Token.StandsAt (source : Bytes) (k : Nat) (t : Token) : Prop where
  le : k ≤ source.length
  placed : Placed source k t.line t.column
  first : t.kind = .eof ∧ t.text = [] ∧ AtEnd (source.drop k) ∨
    IsFirst (source.drop k) t.kind t.text

def Token.position (t : Token) : ℕ ×ₗ ℕ := toLex (t.line, t.column)

namespace Cursor

def position (c : Cursor) : ℕ ×ₗ ℕ := toLex (c.line, c.column)

theorem position_lt_advance (c : Cursor) : c.position < c.advance.position := by
  obtain ⟨rest, line, column⟩ := c
  rw [Prod.Lex.lt_iff]
  cases rest with
  | nil => exact .inr ⟨rfl, Nat.lt_succ_self column⟩
  | cons b rest =>
    rw [advance]
    split
    · exact .inl (Nat.lt_succ_self line)
    · exact .inr ⟨rfl, Nat.lt_succ_self column⟩

theorem position_le_skip (c : Cursor) (n : Nat) : c.position ≤ (c.skip n).position := by
  induction n generalizing c with
  | zero => exact le_refl _
  | succ n ih => exact c.position_lt_advance.le.trans (ih c.advance)

theorem position_lt_skip (c : Cursor) {n : Nat} (hn : 0 < n) :
    c.position < (c.skip n).position := by
  obtain ⟨n, rfl⟩ := Nat.exists_eq_add_one.mpr hn
  exact c.position_lt_advance.trans_le (c.advance.position_le_skip n)

theorem position_le_throughout {c : Cursor} (fuel : Nat) :
    ∀ t ∈ c.throughout fuel, c.position ≤ t.position := by
  induction fuel generalizing c with
  | zero => simp [throughout]
  | succ fuel ih =>
    have hhead : c.position ≤ c.next.1.position := c.position_le_skip _
    have htail : ∀ t ∈ c.next.2.throughout fuel, c.position ≤ t.position := fun t ht =>
      (hhead.trans (c.behindGap.position_le_skip _)).trans (ih t ht)
    simp only [throughout]
    split
    · simpa using hhead
    · exact List.forall_mem_cons.mpr ⟨hhead, htail⟩

theorem throughout_pairwise {c : Cursor} (fuel : Nat) :
    (c.throughout fuel).Pairwise fun t u => t.position < u.position := by
  induction fuel generalizing c with
  | zero => exact .nil
  | succ fuel ih =>
    have hnext : c.next.1.position < c.next.2.position :=
      c.behindGap.position_lt_skip (lexeme_pos _)
    simp only [throughout]
    split
    · exact List.pairwise_singleton _ _
    · exact .cons (fun t ht => hnext.trans_le (position_le_throughout fuel t ht)) ih

theorem At.behindGap_of_le {source : Bytes} {i : Nat} {c : Cursor} (h : At source i c)
    (hi : i ≤ source.length) : ∃ k, k ≤ source.length ∧ At source k c.behindGap := by
  have hlength : gapLength .space c.rest ≤ source.length - i := by
    have hle := gapLength_le .space c.rest
    rwa [h.rest, List.length_drop, ← h.rest] at hle
  exact ⟨i + gapLength .space c.rest, by omega, h.skip _ (by omega)⟩

theorem At.standsAt_next {source : Bytes} {k : Nat} {c : Cursor} (h : At source k c.behindGap)
    (hk : k ≤ source.length) : c.next.1.StandsAt source k := by
  refine ⟨hk, h.placed, ?_⟩
  rw [← h.rest]
  by_cases hend : AtEnd c.behindGap.rest
  · rw [next_of_atEnd hend]
    exact .inl ⟨rfl, rfl, hend⟩
  · exact .inr (next_of_not_atEnd hend).1

/-- Unless the end of the source is read, the cursor behind a token is a place in the source. -/
theorem At.next {source : Bytes} {k : Nat} {c : Cursor} (h : At source k c.behindGap)
    (hk : k ≤ source.length) (hmore : ¬ (c.next.1.kind = .eof ∧ c.next.2.rest = [])) :
    ∃ i, i ≤ source.length ∧ At source i c.next.2 := by
  have hlength : (lexeme c.behindGap.rest).2 ≤ c.behindGap.rest.length := by
    by_cases hend : AtEnd c.behindGap.rest
    · have hrest : c.next.2.rest ≠ [] := fun hrest => hmore ⟨by rw [next_of_atEnd hend], hrest⟩
      rw [rest_next, Ne, List.drop_eq_nil_iff] at hrest
      omega
    · exact (lexeme_isFirst hend).2
  have hsource : c.behindGap.rest.length = source.length - k := by rw [h.rest, List.length_drop]
  exact ⟨k + (lexeme c.behindGap.rest).2, by omega, h.skip _ (by omega)⟩

theorem At.throughout {source : Bytes} {i : Nat} {c : Cursor} (h : At source i c)
    (hi : i ≤ source.length) (fuel : Nat) :
    ∀ t ∈ c.throughout fuel, ∃ k, t.StandsAt source k := by
  induction fuel generalizing i c with
  | zero => simp [Cursor.throughout]
  | succ fuel ih =>
    obtain ⟨k, hk, hbehind⟩ := h.behindGap_of_le hi
    have hhead : ∃ k, c.next.1.StandsAt source k := ⟨k, hbehind.standsAt_next hk⟩
    simp only [Cursor.throughout]
    split
    · simpa using hhead
    · rename_i hmore
      obtain ⟨j, hj, hnext⟩ := hbehind.next hk (by simpa using hmore)
      exact List.forall_mem_cons.mpr ⟨hhead, ih hnext hj⟩

theorem exists_throughout_eq {c : Cursor} {fuel : Nat} (hfuel : c.rest.length < fuel) :
    ∃ front stop, c.throughout fuel = front ++ [stop] ∧ stop.kind = .eof := by
  induction fuel generalizing c with
  | zero => omega
  | succ fuel ih =>
    simp only [Cursor.throughout]
    split
    · rename_i hstop
      exact ⟨[], c.next.1, rfl, by simp at hstop; exact hstop.1⟩
    · rename_i hmore
      have hlength := length_next_lt_of_more hmore
      obtain ⟨front, stop, hfront, hstop⟩ := ih (c := c.next.2) (by omega)
      exact ⟨c.next.1 :: front, stop, by rw [hfront, List.cons_append], hstop⟩

end Cursor

theorem tokenStream_standsAt (source : Bytes) :
    ∀ t ∈ tokenStream source, ∃ k, t.StandsAt source k :=
  (Cursor.at_start source).throughout (Nat.zero_le _) _

theorem tokenStream_pairwise (source : Bytes) :
    (tokenStream source).Pairwise fun t u => t.position < u.position :=
  Cursor.throughout_pairwise _

theorem exists_tokenStream_eq (source : Bytes) :
    ∃ front stop, tokenStream source = front ++ [stop] ∧ stop.kind = .eof :=
  Cursor.exists_throughout_eq (Nat.lt_succ_self _)

end SmallLang
