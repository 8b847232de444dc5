import SmallLang.Proofs.Bytes.Parts
import SmallLang.Proofs.Token.Tiling

/-! The lines of a text are the parts between its line feeds. A place in the text is in one of them,
or right behind it. -/

namespace SmallLang

def sourceLines (source : Bytes) : List Bytes := Bytes.splitAt (ascii '\n') source

/-- The line of a place, and its column, which at most is the one behind the line. -/
structure OnLine (source text : Bytes) (line column : Nat) : Prop where
  split : ∃ front back, sourceLines source = front ++ text :: back ∧ front.length + 1 = line
  column_pos : 1 ≤ column
  column_le : column ≤ text.length + 1

theorem Placed.exists_onLine {source : Bytes} {k line column : Nat} (hk : k ≤ source.length)
    (h : Placed source k line column) : ∃ text, OnLine source text line column := by
  -- the column counts from the last line feed in front of the place, if there is one
  obtain ⟨hline, feed, hfeed, hcolumn⟩ := h
  have hlength : (source.take k).length = k := by rw [List.length_take, Nat.min_eq_left hk]
  have hsource : source = source.take k ++ source.drop k := (List.take_append_drop k source).symm
  cases hfeed with
  | none htake =>
    obtain ⟨part, parts, hsplit⟩ :=
      Bytes.splitAt_append_of_notMem (ascii '\n') htake (source.drop k)
    rw [← hsource] at hsplit
    rw [List.count_eq_zero_of_not_mem htake] at hline
    refine ⟨source.take k ++ part, ⟨[], parts, hsplit, by simp [hline]⟩, by omega, ?_⟩
    rw [List.length_append, hlength]
    omega
  | @some front back htake hback =>
    obtain ⟨part, parts, hsplit⟩ :=
      Bytes.splitAt_append_of_notMem (ascii '\n') hback (source.drop k)
    have hlines : sourceLines source =
        Bytes.splitAt (ascii '\n') front ++ (back ++ part) :: parts := by
      rw [sourceLines, hsource, htake, List.append_assoc, List.cons_append,
        Bytes.splitAt_append_cons, hsplit]
    rw [htake] at hline hlength
    rw [List.count_append, List.count_cons_self, List.count_eq_zero_of_not_mem hback] at hline
    rw [List.length_append, List.length_cons] at hlength
    refine ⟨back ++ part, ⟨_, parts, hlines, ?_⟩, by omega, ?_⟩
    · rw [Bytes.length_splitAt]
      omega
    · rw [List.length_append]
      omega

theorem OnLine.line_le {source text : Bytes} {line column : Nat}
    (h : OnLine source text line column) : 1 ≤ line ∧ line ≤ (sourceLines source).length := by
  obtain ⟨front, back, hlines, hline⟩ := h.split
  rw [hlines, List.length_append, List.length_cons]
  omega

theorem OnLine.getElem? {source text : Bytes} {line column : Nat}
    (h : OnLine source text line column) : (sourceLines source)[line - 1]? = some text := by
  obtain ⟨front, back, hlines, hline⟩ := h.split
  rw [hlines, ← hline, Nat.add_sub_cancel, List.getElem?_append_right (Nat.le_refl _),
    Nat.sub_self, List.getElem?_cons_zero]

end SmallLang
