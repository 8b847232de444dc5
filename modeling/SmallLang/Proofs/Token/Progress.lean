import SmallLang.Proofs.Token.Stream

/-! Reading goes forward: every token takes the cursor on, and behind the end of the source there is
nothing but ends of the input. As many tokens as the source has bytes, and one more, are all. -/

namespace SmallLang

open Lexer

theorem Lexer.lexeme_pos (text : Bytes) : 0 < (lexeme text).2 := by
  by_cases h : AtEnd text
  · cases text with
    | nil => exact Nat.one_pos
    | cons b rest =>
      obtain rfl : b = 0 := h b rfl
      have hmark : lexeme (0 :: rest) = (.eof, 1) := lexeme_mark rfl (.inl rfl)
      rw [hmark]
      exact Nat.one_pos
  · obtain ⟨hfirst, -⟩ := lexeme_isFirst h
    have hlength := List.length_pos_iff.mpr hfirst.ne_nil
    rw [List.length_take] at hlength
    omega

namespace Cursor

theorem skip_add (c : Cursor) (m n : Nat) : c.skip (m + n) = (c.skip m).skip n := by
  induction m generalizing c with
  | zero => rw [Nat.zero_add, skip]
  | succ m ih => rw [Nat.succ_add, skip, skip, ih]

theorem exists_next_eq_skip (c : Cursor) : ∃ n, 0 < n ∧ c.next.2 = c.skip n := by
  refine ⟨gapLength .space c.rest + (lexeme c.behindGap.rest).2,
    Nat.add_pos_right _ (lexeme_pos _), ?_⟩
  rw [skip_add]
  rfl

theorem length_next_lt {c : Cursor} (h : c.rest ≠ []) :
    c.next.2.rest.length < c.rest.length := by
  obtain ⟨n, hn, hnext⟩ := c.exists_next_eq_skip
  have hlength := List.length_pos_iff.mpr h
  rw [hnext, rest_skip, List.length_drop]
  omega

theorem next_of_nil {c : Cursor} (h : c.rest = []) :
    c.next.1.kind = .eof ∧ c.next.2.rest = [] := by
  have hgap : c.behindGap.rest = [] := by rw [rest_behindGap, h, List.drop_nil]
  refine ⟨?_, by rw [rest_next, hgap, List.drop_nil]⟩
  rw [next_of_atEnd (by simp [AtEnd, hgap])]

theorem length_next_lt_of_more {c : Cursor}
    (h : ¬ (c.next.1.kind = .eof && c.next.2.rest.isEmpty : Bool) = true) :
    c.next.2.rest.length < c.rest.length := by
  refine length_next_lt fun hrest => h ?_
  obtain ⟨hkind, hnil⟩ := next_of_nil hrest
  simp [hkind, hnil]

/-- The tokens of `throughout`, or nothing if these are more than `fuel`. -/
def throughoutWithin : Nat → Cursor → Option (List Token)
  | 0, _ => none
  | fuel + 1, c =>
    let (t, c) := c.next
    if t.kind = .eof && c.rest.isEmpty then some [t] else (throughoutWithin fuel c).map (t :: ·)

/-- The tokens of `upToEnd` and the place behind, or nothing if these are more than `fuel`. -/
def upToEndWithin : Nat → Cursor → Option (List Token × Cursor)
  | 0, _ => none
  | fuel + 1, c =>
    let (t, c) := c.next
    if t.kind = .eof then some ([t], c)
    else (upToEndWithin fuel c).map fun (ts, c) => (t :: ts, c)

theorem throughoutWithin_eq {c : Cursor} {fuel bound : Nat} (hfuel : c.rest.length < fuel)
    (hbound : c.rest.length < bound) : c.throughoutWithin fuel = some (c.throughout bound) := by
  induction fuel generalizing c bound with
  | zero => omega
  | succ fuel ih =>
    obtain ⟨bound, rfl⟩ := Nat.exists_eq_add_one.mpr (Nat.zero_lt_of_lt hbound)
    by_cases hrest : c.rest = []
    · obtain ⟨hkind, hnil⟩ := next_of_nil hrest
      simp [throughoutWithin, throughout, hkind, hnil]
    · have hlength := length_next_lt hrest
      have htail : c.next.2.throughoutWithin fuel = some (c.next.2.throughout bound) :=
        ih (by omega) (by omega)
      simp only [throughoutWithin, throughout]
      split
      · rfl
      · rw [htail, Option.map_some]

theorem upToEndWithin_eq {c : Cursor} {fuel bound : Nat} (hfuel : c.rest.length < fuel)
    (hbound : c.rest.length < bound) : c.upToEndWithin fuel = some (c.upToEnd bound) := by
  induction fuel generalizing c bound with
  | zero => omega
  | succ fuel ih =>
    obtain ⟨bound, rfl⟩ := Nat.exists_eq_add_one.mpr (Nat.zero_lt_of_lt hbound)
    by_cases hrest : c.rest = []
    · simp [upToEndWithin, upToEnd, (next_of_nil hrest).1]
    · have hlength := length_next_lt hrest
      have htail : c.next.2.upToEndWithin fuel = some (c.next.2.upToEnd bound) :=
        ih (by omega) (by omega)
      simp only [upToEndWithin, upToEnd]
      split
      · rfl
      · rw [htail, Option.map_some]

theorem length_throughout_le {c : Cursor} (fuel : Nat) :
    (c.throughout fuel).length ≤ c.rest.length + 1 := by
  induction fuel generalizing c with
  | zero => exact Nat.zero_le _
  | succ fuel ih =>
    simp only [throughout]
    split
    · simp
    · rename_i hmore
      have hlength := length_next_lt_of_more hmore
      have htail := ih (c := c.next.2)
      rw [List.length_cons]
      omega

end Cursor

theorem length_tokenStream_le (source : Bytes) :
    (tokenStream source).length ≤ source.length + 1 :=
  Cursor.length_throughout_le _

end SmallLang
