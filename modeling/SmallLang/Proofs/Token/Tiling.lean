import SmallLang.Proofs.Token.Lexemes

/-! The tokens of a source text tile it up to the first NUL byte. Their lines and columns are those
of their offsets. -/

namespace SmallLang

def slice (source : Bytes) (i k : Nat) : Bytes := (source.take k).drop i

/-- The offset of the last line feed of a text, or -1. -/
inductive LastFeed (text : Bytes) : Int → Prop
  | none : ascii '\n' ∉ text → LastFeed text (-1)
  | some {front back : Bytes} : text = front ++ ascii '\n' :: back → ascii '\n' ∉ back →
      LastFeed text front.length

/-- The line and the column of the offset `k`. -/
structure Placed (source : Bytes) (k line column : Nat) : Prop where
  line : line = 1 + (source.take k).count (ascii '\n')
  column : ∃ feed, LastFeed (source.take k) feed ∧ (column : Int) = k - feed

open Lexer

/-- The tokens of a source text from the offset `i` on. -/
inductive Tiled (source : Bytes) : Nat → List Token → Prop
  | stop {i : Nat} {t : Token} {gap cut : Bytes} :
      slice source i (source.idxOf 0) = gap ++ cut → IsGap gap → (cut = [] ∨ IsCutComment cut) →
      t.kind = .eof → t.text = [] → Placed source (source.idxOf 0) t.line t.column →
      Tiled source i [t]
  | token {i k : Nat} {t : Token} {ts : List Token} :
      i ≤ k → IsGap (slice source i k) → ¬ OpensGap (source.drop k) → t.kind ≠ .eof →
      IsFirst (source.drop k) t.kind t.text → k + t.text.length ≤ source.idxOf 0 →
      Placed source k t.line t.column → Tiled source (k + t.text.length) ts →
      Tiled source i (t :: ts)

theorem LastFeed.append {text : Bytes} {feed : Int} (h : LastFeed text feed) {b : UInt8}
    (hb : b ≠ ascii '\n') : LastFeed (text ++ [b]) feed := by
  cases h with
  | none htext => exact .none (by simp [htext, hb.symm])
  | @some front back htext hback =>
    have htext' : text ++ [b] = front ++ ascii '\n' :: (back ++ [b]) := by
      rw [htext, List.append_assoc, List.cons_append]
    exact .some htext' (by simp [hback, hb.symm])

namespace Cursor

structure At (source : Bytes) (k : Nat) (c : Cursor) : Prop where
  rest : c.rest = source.drop k
  placed : Placed source k c.line c.column

theorem at_start (source : Bytes) : At source 0 (start source) where
  rest := rfl
  placed := ⟨rfl, -1, .none (by simp), rfl⟩

theorem At.advance {source : Bytes} {k : Nat} {c : Cursor} (h : At source k c)
    (hk : k < source.length) : At source (k + 1) c.advance := by
  obtain ⟨rest, line, column⟩ := c
  obtain ⟨hrest, hline, feed, hfeed, hcolumn⟩ := h
  simp only at hrest hline hcolumn
  obtain ⟨b, tail, rfl⟩ : ∃ b tail, rest = b :: tail := by
    cases rest with
    | nil =>
      have hlength := congrArg List.length hrest
      simp at hlength
      omega
    | cons b tail => exact ⟨b, tail, rfl⟩
  have htake : source.take (k + 1) = source.take k ++ [b] := by
    rw [List.take_add, ← hrest]
    rfl
  have hdrop : tail = source.drop (k + 1) := by
    rw [← List.tail_drop, ← hrest, List.tail_cons]
  rw [Cursor.advance]
  split
  · rename_i hb
    subst hb
    refine ⟨hdrop, ?_, k, ?_, by dsimp only; omega⟩
    · simp only [hline, htake, List.count_append, List.count_singleton_self]
      omega
    · have hlast : LastFeed (source.take (k + 1)) (source.take k).length :=
        .some htake List.not_mem_nil
      rwa [List.length_take, Nat.min_eq_left (Nat.le_of_lt hk)] at hlast
  · rename_i hb
    refine ⟨hdrop, ?_, feed, ?_, ?_⟩
    · simp only [hline, htake, List.count_append, List.count_singleton, beq_iff_eq, if_neg hb,
        Nat.add_zero]
    · rw [htake]
      exact hfeed.append hb
    · dsimp only
      omega

theorem At.skip {source : Bytes} {k : Nat} {c : Cursor} (h : At source k c) (n : Nat)
    (hn : k + n ≤ source.length) : At source (k + n) (c.skip n) := by
  induction n generalizing k c with
  | zero => exact h
  | succ n ih =>
    have hnext := ih (h.advance (by omega)) (by omega)
    rwa [Nat.add_right_comm] at hnext

end Cursor

section Offsets

variable {source : Bytes} {i k n : Nat}

theorem slice_add (source : Bytes) (i n : Nat) :
    slice source i (i + n) = (source.drop i).take n := by
  rw [slice, List.drop_take, Nat.add_sub_cancel_left]

theorem zero_notMem_take_add (h : 0 ∉ source.take i) (h' : 0 ∉ (source.drop i).take n) :
    0 ∉ source.take (i + n) := by
  rw [List.take_add, List.mem_append, not_or]
  exact ⟨h, h'⟩

theorem idxOf_zero_eq (h : 0 ∉ source.take k) (hk : k ≤ source.length) :
    source.idxOf 0 = k + (source.drop k).idxOf 0 := by
  calc source.idxOf 0 = (source.take k ++ source.drop k).idxOf 0 := by rw [List.take_append_drop]
    _ = (source.take k).length + (source.drop k).idxOf 0 := by
      rw [List.idxOf_append, if_neg h, Nat.add_comm]
    _ = k + (source.drop k).idxOf 0 := by rw [List.length_take, Nat.min_eq_left hk]

theorem idxOf_zero_of_atEnd {rest : Bytes} (h : AtEnd rest) : rest.idxOf 0 = 0 := by
  cases rest with
  | nil => rfl
  | cons b rest =>
    obtain rfl : b = 0 := h b rfl
    exact List.idxOf_cons_self

end Offsets

namespace Cursor

def behindGap (c : Cursor) : Cursor := c.skip (gapLength .space c.rest)

theorem next_of_atEnd {c : Cursor} (h : AtEnd c.behindGap.rest) :
    c.next.1 = ⟨.eof, [], c.behindGap.line, c.behindGap.column⟩ := by
  have hkind := lexeme_of_atEnd h
  simp only [behindGap] at hkind ⊢
  simp [next, hkind]

theorem next_of_not_atEnd {c : Cursor} (h : ¬ AtEnd c.behindGap.rest) :
    IsFirst c.behindGap.rest c.next.1.kind c.next.1.text ∧
      c.next.1.line = c.behindGap.line ∧ c.next.1.column = c.behindGap.column ∧
      c.next.2 = c.behindGap.skip c.next.1.text.length := by
  obtain ⟨hfirst, hlength⟩ := lexeme_isFirst h
  have hkind : (lexeme c.behindGap.rest).1 ≠ .eof := hfirst.ne_eof
  have hnext : c.next = (⟨(lexeme c.behindGap.rest).1,
      c.behindGap.rest.take (lexeme c.behindGap.rest).2, c.behindGap.line, c.behindGap.column⟩,
      c.behindGap.skip (lexeme c.behindGap.rest).2) := by
    simp only [behindGap] at hkind ⊢
    simp only [next, if_neg hkind]
  rw [hnext]
  refine ⟨hfirst, rfl, rfl, ?_⟩
  rw [List.length_take, Nat.min_eq_left hlength]

structure Crosses (source : Bytes) (i k : Nat) : Prop where
  le : i ≤ k
  le_length : k ≤ source.length
  zero_notMem : 0 ∉ source.take k
  separates : Separates (slice source i k) (source.drop k)

theorem At.behindGap {source : Bytes} {i : Nat} {c : Cursor} (hc : At source i c)
    (hzero : 0 ∉ source.take i) (hi : i ≤ source.length) :
    ∃ k, Crosses source i k ∧ At source k c.behindGap := by
  have hlength : gapLength .space c.rest ≤ source.length - i := by
    have hle := gapLength_le .space c.rest
    rwa [hc.rest, List.length_drop, ← hc.rest] at hle
  have hskipped : 0 ∉ c.rest.take (gapLength .space c.rest) := zero_notMem_gap .space c.rest
  have hseparates : Separates (c.rest.take (gapLength .space c.rest))
      (c.rest.drop (gapLength .space c.rest)) := gapLength_separates .space c.rest
  refine ⟨i + gapLength .space c.rest, ⟨by omega, by omega, ?_, ?_⟩, hc.skip _ (by omega)⟩
  · apply zero_notMem_take_add hzero
    rwa [← hc.rest]
  · rwa [slice_add, ← List.drop_drop, ← hc.rest]

theorem Crosses.tiled_stop {source : Bytes} {i k : Nat} {c : Cursor} (h : Crosses source i k)
    (hc : At source k c) (hend : AtEnd c.rest) :
    Tiled source i [⟨.eof, [], c.line, c.column⟩] := by
  have hk : source.idxOf 0 = k := by
    rw [idxOf_zero_eq h.zero_notMem h.le_length, ← hc.rest, idxOf_zero_of_atEnd hend, Nat.add_zero]
  have hplaced : Placed source (source.idxOf 0) c.line c.column := by
    rw [hk]
    exact hc.placed
  obtain ⟨gap, cut, hslice, hgap, hcut⟩ := h.separates.exists_cut
  rw [← hk] at hslice
  exact .stop hslice hgap hcut rfl rfl hplaced

theorem Crosses.behindToken {source text : Bytes} {i k : Nat} {kind : TokenKind}
    (h : Crosses source i k) (hfirst : IsFirst (source.drop k) kind text) :
    k + text.length ≤ source.length ∧ 0 ∉ source.take (k + text.length) ∧
      k + text.length ≤ source.idxOf 0 := by
  have hlength : k + text.length ≤ source.length := by
    have hfront := hfirst.front.length_le
    have hk := h.le_length
    rw [List.length_drop] at hfront
    omega
  have hzero : 0 ∉ source.take (k + text.length) := by
    apply zero_notMem_take_add h.zero_notMem
    rw [← List.prefix_iff_eq_take.mp hfirst.front]
    exact hfirst.zero_notMem
  refine ⟨hlength, hzero, ?_⟩
  rw [idxOf_zero_eq hzero hlength]
  omega

theorem upToEnd_tiled {source : Bytes} {i fuel : Nat} {c : Cursor} (hc : At source i c)
    (hzero : 0 ∉ source.take i) (hi : i ≤ source.length) (hfuel : source.length < i + fuel) :
    Tiled source i (c.upToEnd fuel).1 := by
  induction fuel generalizing i c with
  | zero => omega
  | succ fuel ih =>
    obtain ⟨k, hcross, hbehind⟩ := hc.behindGap hzero hi
    by_cases hend : AtEnd c.behindGap.rest
    · have hstop := hcross.tiled_stop hbehind hend
      rw [← next_of_atEnd hend] at hstop
      have hkind : c.next.1.kind = .eof := by rw [next_of_atEnd hend]
      simpa [upToEnd, hkind] using hstop
    · obtain ⟨hfirst, hline, hcolumn, hnext⟩ := next_of_not_atEnd hend
      rw [hbehind.rest] at hfirst hend
      obtain ⟨hgap, hopens⟩ := hcross.separates.isGap hend
      obtain ⟨hlength, hzero', hidx⟩ := hcross.behindToken hfirst
      have hpos : 0 < c.next.1.text.length := List.length_pos_iff.mpr hfirst.ne_nil
      have htail : Tiled source (k + c.next.1.text.length) (c.next.2.upToEnd fuel).1 := by
        apply ih _ hzero' hlength
        · have hk := hcross.le
          omega
        · rw [hnext]
          exact hbehind.skip _ hlength
      have hplaced : Placed source k c.next.1.line c.next.1.column := by
        rw [hline, hcolumn]
        exact hbehind.placed
      have htoken := Tiled.token hcross.le hgap hopens hfirst.ne_eof hfirst hidx hplaced htail
      simpa [upToEnd, hfirst.ne_eof] using htoken

end Cursor

theorem tokenize_tiled (source : Bytes) : Tiled source 0 (tokenize source).1 :=
  Cursor.upToEnd_tiled (Cursor.at_start source) (by simp) (Nat.zero_le _) (by omega)

end SmallLang
