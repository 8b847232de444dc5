import SmallLang.Bytes

/-! The parts of a text between the occurrences of a byte, and texts put together from parts. -/

namespace SmallLang

namespace Bytes

variable (sep : UInt8)

theorem splitAt_ne_nil (text : Bytes) : splitAt sep text ≠ [] := by
  cases text with
  | nil => simp [splitAt]
  | cons b rest =>
    rw [splitAt]
    split
    · simp
    · split <;> simp

theorem splitAt_cons_self (text : Bytes) : splitAt sep (sep :: text) = [] :: splitAt sep text := by
  simp [splitAt]

theorem splitAt_cons_of_ne {b : UInt8} (hb : b ≠ sep) (text : Bytes) :
    ∃ part parts, splitAt sep text = part :: parts ∧
      splitAt sep (b :: text) = (b :: part) :: parts := by
  cases h : splitAt sep text with
  | nil => exact absurd h (splitAt_ne_nil sep text)
  | cons part parts => exact ⟨part, parts, rfl, by simp [splitAt, hb, h]⟩

theorem length_splitAt (text : Bytes) : (splitAt sep text).length = text.count sep + 1 := by
  induction text with
  | nil => rfl
  | cons b text ih =>
    by_cases hb : b = sep
    · subst hb
      rw [splitAt_cons_self, List.length_cons, ih, List.count_cons_self]
    · obtain ⟨part, parts, htext, hcons⟩ := splitAt_cons_of_ne sep hb text
      rw [htext] at ih
      rw [hcons, List.count_cons_of_ne hb, ← ih]
      rfl

theorem splitAt_append_cons (front back : Bytes) :
    splitAt sep (front ++ sep :: back) = splitAt sep front ++ splitAt sep back := by
  induction front with
  | nil => rw [List.nil_append, splitAt_cons_self]; rfl
  | cons b front ih =>
    by_cases hb : b = sep
    · subst hb
      rw [List.cons_append, splitAt_cons_self, splitAt_cons_self, ih, List.cons_append]
    · obtain ⟨part, parts, hfront, hcons⟩ := splitAt_cons_of_ne sep hb front
      obtain ⟨part', parts', hall, hcons'⟩ := splitAt_cons_of_ne sep hb (front ++ sep :: back)
      rw [ih, hfront, List.cons_append] at hall
      obtain ⟨rfl, rfl⟩ := List.cons.inj hall
      rw [List.cons_append, hcons', hcons, List.cons_append]

theorem splitAt_append_of_notMem {front : Bytes} (h : sep ∉ front) (back : Bytes) :
    ∃ part parts, splitAt sep (front ++ back) = (front ++ part) :: parts := by
  induction front with
  | nil =>
    cases hback : splitAt sep back with
    | nil => exact absurd hback (splitAt_ne_nil sep back)
    | cons part parts => exact ⟨part, parts, hback⟩
  | cons b front ih =>
    rw [List.mem_cons, not_or] at h
    obtain ⟨part, parts, hfront⟩ := ih h.2
    obtain ⟨part', parts', hall, hcons⟩ := splitAt_cons_of_ne sep (Ne.symm h.1) (front ++ back)
    rw [hfront] at hall
    obtain ⟨rfl, rfl⟩ := List.cons.inj hall
    exact ⟨part, parts, hcons⟩

theorem splitAt_of_notMem {text : Bytes} (h : sep ∉ text) : splitAt sep text = [text] := by
  induction text with
  | nil => rfl
  | cons b text ih =>
    rw [List.mem_cons, not_or] at h
    rw [splitAt, if_neg (Ne.symm h.1), ih h.2]

theorem join_cons_cons (sep a b : Bytes) (rest : List Bytes) :
    join sep (a :: b :: rest) = a ++ (sep ++ join sep (b :: rest)) :=
  List.intercalate_cons_cons.trans (List.append_assoc a sep _)

theorem join_append_cons (sep a b : Bytes) (rest : List Bytes) :
    join sep ((a ++ (sep ++ b)) :: rest) = a ++ (sep ++ join sep (b :: rest)) := by
  cases rest with
  | nil => simp [join]
  | cons c rest => simp only [join_cons_cons, List.append_assoc]

theorem join_splitAt (text : Bytes) : join [sep] (splitAt sep text) = text := by
  induction text with
  | nil => rfl
  | cons b text ih =>
    by_cases hb : b = sep
    · subst hb
      obtain ⟨part, parts, htext⟩ := List.exists_cons_of_ne_nil (splitAt_ne_nil b text)
      rw [splitAt_cons_self, htext, join_cons_cons, ← htext, ih]
      rfl
    · obtain ⟨part, parts, htext, hcons⟩ := splitAt_cons_of_ne sep hb text
      rw [htext] at ih
      rw [hcons]
      cases parts with
      | nil => simpa [join] using ih
      | cons part' parts =>
        rw [join_cons_cons] at ih ⊢
        rw [List.cons_append, ih]

end Bytes

end SmallLang
