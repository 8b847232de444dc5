import Mathlib.Data.List.Forall2
import Mathlib.Data.List.TakeWhile
import SmallLang.Diagnostic
import SmallLang.Proofs.Diagnostic.Lines

/-! Excerpts. The lines up to two away from a place are shown with their numbers; a row below the
line of the place points to its column. -/

namespace SmallLang

namespace Bytes

theorem length_le_digitsOnto (fuel n : Nat) (acc : List Nat) :
    acc.length ≤ (digitsOnto fuel n acc).length := by
  induction fuel generalizing n acc with
  | zero => exact Nat.le_refl _
  | succ fuel ih =>
    rw [digitsOnto]
    split
    · exact Nat.le_succ _
    · exact Nat.le_of_succ_le (ih (n / 10) (n % 10 :: acc))

theorem length_digitsOnto_le {fuel fuel' m n : Nat} {acc acc' : List Nat} (hm : m < fuel)
    (hn : n < fuel') (hmn : m ≤ n) (hacc : acc.length ≤ acc'.length) :
    (digitsOnto fuel m acc).length ≤ (digitsOnto fuel' n acc').length := by
  induction fuel generalizing fuel' m n acc acc' with
  | zero => omega
  | succ fuel ih =>
    obtain ⟨fuel', rfl⟩ := Nat.exists_eq_add_one.mpr (Nat.zero_lt_of_lt hn)
    have hcons (d d' : Nat) : (d :: acc).length ≤ (d' :: acc').length := Nat.succ_le_succ hacc
    rw [digitsOnto, digitsOnto]
    split
    · split
      · exact hcons m n
      · exact Nat.le_trans (hcons m (n % 10)) (length_le_digitsOnto fuel' _ _)
    · rw [if_neg (by omega)]
      exact ih (by omega) (by omega) (Nat.div_le_div_right hmn) (hcons _ _)

theorem length_ofNat_mono {m n : Nat} (h : m ≤ n) : (ofNat m).length ≤ (ofNat n).length := by
  simp only [ofNat, digits, List.length_map]
  exact length_digitsOnto_le (Nat.lt_succ_self m) (Nat.lt_succ_self n) h (Nat.le_refl 0)

theorem exists_dropLastWhile (b : UInt8) (text : Bytes) :
    (∃ n, text = dropLastWhile (· = b) text ++ List.replicate n b) ∧
      (dropLastWhile (· = b) text).getLast? ≠ some b := by
  have hall : ∀ c ∈ text.reverse.takeWhile (· = b), c = b := fun c hc => by
    simpa using List.mem_takeWhile_imp hc
  refine ⟨⟨(text.reverse.takeWhile (· = b)).length, ?_⟩, ?_⟩
  · have hsplit := List.takeWhile_append_dropWhile (p := fun c => decide (c = b))
      (l := text.reverse)
    have hback := congrArg List.reverse hsplit
    rw [List.reverse_append, List.reverse_reverse, List.eq_replicate_of_mem hall,
      List.reverse_replicate] at hback
    exact hback.symm
  · rw [dropLastWhile, List.getLast?_reverse]
    intro hhead
    have hnot := List.head?_dropWhile_not (fun c => decide (c = b)) text.reverse
    simp [hhead] at hnot

end Bytes

namespace Excerpt

def numberedLines (source : Bytes) : List (Bytes × Nat) := (sourceLines source).zipIdx 1

/-- A row for a line: `lead`, which holds the mark and the number, and what the row shows of the
line. Numbers stand at the right of a field of the width; carriage returns at the end of the line
are left out. -/
structure IsRow (mark : Bytes) (width : Nat) (line : Bytes × Nat) (lead shown : Bytes) : Prop where
  lead_eq : ∃ blanks, blanks + (Bytes.ofNat line.2).length = width ∧
    lead = mark ++ List.replicate blanks (ascii ' ') ++ Bytes.ofNat line.2 ++ utf8 " | "
  line_eq : ∃ returns, line.1 = shown ++ List.replicate returns (ascii '\r')
  trimmed : shown.getLast? ≠ some (ascii '\r')

def IsPlainRow (width : Nat) (line : Bytes × Nat) (row : Bytes) : Prop :=
  ∃ lead shown, IsRow (utf8 "  ") width line lead shown ∧ row = lead ++ shown

def unlines (rows : List Bytes) : Bytes := rows.flatMap (· ++ utf8 "\n")

/-- An excerpt with a row for every line up to two before and behind the line of the place, and
behind the row of that line one that points to the column. -/
inductive Shows (source : Bytes) (line column : Nat) : Bytes → Prop
  | intro {width : Nat} {text lead shown : Bytes} {before after : List Bytes} :
      (text, line) ∈ numberedLines source →
      List.Forall₂ (IsPlainRow width)
        ((numberedLines source).filter fun l => line ≤ l.2 + 2 && l.2 < line) before →
      IsRow (utf8 "> ") width (text, line) lead shown →
      List.Forall₂ (IsPlainRow width)
        ((numberedLines source).filter fun l => line < l.2 && l.2 ≤ line + 2) after →
      Shows source line column
        (unlines (before ++ (lead ++ shown) ::
          (List.replicate (lead.length + (column - 1)) (ascii ' ') ++ utf8 "^") :: after))

def leadOf (mark : Bytes) (width n : Nat) : Bytes := mark ++ aligned width n ++ utf8 " | "

def shownOf (text : Bytes) : Bytes := Bytes.dropLastWhile (· = ascii '\r') text

theorem isRow_of_le (mark : Bytes) {width n : Nat} (text : Bytes)
    (h : (Bytes.ofNat n).length ≤ width) :
    IsRow mark width (text, n) (leadOf mark width n) (shownOf text) where
  lead_eq := ⟨width - (Bytes.ofNat n).length, Nat.sub_add_cancel h, by simp [leadOf, aligned]⟩
  line_eq := (Bytes.exists_dropLastWhile (ascii '\r') text).1
  trimmed := (Bytes.exists_dropLastWhile (ascii '\r') text).2

theorem length_leadOf {mark : Bytes} {width n : Nat} (h : (Bytes.ofNat n).length ≤ width) :
    (leadOf mark width n).length = mark.length + width + 3 := by
  have hbar : (utf8 " | ").length = 3 := rfl
  simp only [leadOf, aligned, List.length_append, List.length_replicate, hbar]
  omega

theorem row_of_ne {width line n : Nat} (h : n ≠ line) (column : Int) (text : Bytes) :
    row width line column n text = leadOf (utf8 "  ") width n ++ shownOf text ++ utf8 "\n" := by
  simp [row, h, leadOf, shownOf]

theorem row_self {width line : Nat} (h : (Bytes.ofNat line).length ≤ width) (column : Nat)
    (text : Bytes) :
    row width line column line text =
      leadOf (utf8 "> ") width line ++ shownOf text ++ utf8 "\n" ++
        (List.replicate ((leadOf (utf8 "> ") width line).length + (column - 1)) (ascii ' ') ++
          utf8 "^" ++ utf8 "\n") := by
  have hmark : (utf8 "> ").length = 2 := rfl
  have hpointer : utf8 "^\n" = utf8 "^" ++ utf8 "\n" := rfl
  have hindent : ((column : Int) - 1).toNat = column - 1 := by omega
  rw [length_leadOf h, hmark]
  simp [row, leadOf, shownOf, hpointer, hindent]

theorem unlines_append (rows rows' : List Bytes) :
    unlines (rows ++ rows') = unlines rows ++ unlines rows' := List.flatMap_append

theorem unlines_cons (r : Bytes) (rows : List Bytes) :
    unlines (r :: rows) = r ++ utf8 "\n" ++ unlines rows := List.flatMap_cons

def plainRow (width : Nat) (l : Bytes × Nat) : Bytes := leadOf (utf8 "  ") width l.2 ++ shownOf l.1

theorem flatMap_row {width line : Nat} {ls : List (Bytes × Nat)} (h : ∀ l ∈ ls, l.2 ≠ line)
    (column : Int) :
    ls.flatMap (fun l => row width line column l.2 l.1) = unlines (ls.map (plainRow width)) := by
  induction ls with
  | nil => rfl
  | cons l ls ih =>
    rw [List.forall_mem_cons] at h
    rw [List.flatMap_cons, row_of_ne h.1, ih h.2, List.map_cons, unlines_cons, plainRow]

theorem forall₂_plainRow {width : Nat} {ls : List (Bytes × Nat)}
    (h : ∀ l ∈ ls, (Bytes.ofNat l.2).length ≤ width) :
    List.Forall₂ (IsPlainRow width) ls (ls.map (plainRow width)) := by
  rw [List.forall₂_map_right_iff, List.forall₂_same]
  exact fun l hl => ⟨_, _, isRow_of_le (utf8 "  ") l.1 (h l hl), rfl⟩

theorem numberedLines_eq {source text : Bytes} {front back : List Bytes} {line : Nat}
    (h : sourceLines source = front ++ text :: back) (hline : front.length + 1 = line) :
    numberedLines source = front.zipIdx 1 ++ (text, line) :: back.zipIdx (line + 1) := by
  rw [numberedLines, h, List.zipIdx_append, List.zipIdx_cons, Nat.add_comm 1, hline]

/-- The lines shown are those before the line of the place, this line, and those behind it. -/
theorem near_eq {source text : Bytes} {front back : List Bytes} {line last : Nat}
    (h : sourceLines source = front ++ text :: back) (hline : front.length + 1 = line)
    (hlast : last = min (line + 2) (sourceLines source).length) :
    (numberedLines source).filter (fun l => line ≤ l.2 + 2 && l.2 ≤ last) =
      ((numberedLines source).filter fun l => line ≤ l.2 + 2 && l.2 < line) ++
        (text, line) :: ((numberedLines source).filter fun l => line < l.2 && l.2 ≤ line + 2) := by
  have htotal : (sourceLines source).length = line + back.length := by
    rw [h, List.length_append, List.length_cons]
    omega
  have hfront : ∀ l ∈ front.zipIdx 1, l.2 < line := fun l hl => by
    have hlt := List.snd_lt_of_mem_zipIdx hl
    omega
  have hback : ∀ l ∈ back.zipIdx (line + 1), line < l.2 ∧ l.2 ≤ line + back.length := fun l hl => by
    have hle := List.le_snd_of_mem_zipIdx hl
    have hlt := List.snd_lt_of_mem_zipIdx hl
    omega
  have hbefore : (front.zipIdx 1).filter (fun l => line ≤ l.2 + 2 && l.2 ≤ last) =
      (front.zipIdx 1).filter fun l => line ≤ l.2 + 2 && l.2 < line := by
    refine List.filter_congr fun l hl => ?_
    have hlt := hfront l hl
    rw [Bool.eq_iff_iff]
    simp only [Bool.and_eq_true, decide_eq_true_eq]
    omega
  have hafter : (back.zipIdx (line + 1)).filter (fun l => line ≤ l.2 + 2 && l.2 ≤ last) =
      (back.zipIdx (line + 1)).filter fun l => line < l.2 && l.2 ≤ line + 2 := by
    refine List.filter_congr fun l hl => ?_
    have hlt := hback l hl
    rw [Bool.eq_iff_iff]
    simp only [Bool.and_eq_true, decide_eq_true_eq]
    omega
  have hnoneAfter : (front.zipIdx 1).filter (fun l => line < l.2 && l.2 ≤ line + 2) = [] := by
    refine List.filter_eq_nil_iff.mpr fun l hl => ?_
    have hlt := hfront l hl
    simp only [Bool.and_eq_true, decide_eq_true_eq]
    omega
  have hnoneBefore :
      (back.zipIdx (line + 1)).filter (fun l => line ≤ l.2 + 2 && l.2 < line) = [] := by
    refine List.filter_eq_nil_iff.mpr fun l hl => ?_
    have hlt := hback l hl
    simp only [Bool.and_eq_true, decide_eq_true_eq]
    omega
  have hself : line ≤ last := by omega
  rw [numberedLines_eq h hline]
  simp [List.filter_append, hbefore, hafter, hnoneAfter, hnoneBefore, hself]

theorem mem_numberedLines {source text : Bytes} {line column : Nat}
    (h : OnLine source text line column) : (text, line) ∈ numberedLines source := by
  obtain ⟨front, back, hlines, hline⟩ := h.split
  rw [numberedLines_eq hlines hline]
  exact List.mem_append_right _ List.mem_cons_self

theorem snd_le_of_mem {source : Bytes} {l : Bytes × Nat} (h : l ∈ numberedLines source) :
    l.2 ≤ (sourceLines source).length :=
  Nat.le_of_lt_succ (List.snd_lt_of_mem_zipIdx h)

theorem beside_of_mem {source : Bytes} {line last : Nat} {p : Bytes × Nat → Bool}
    (hlast : last = min (line + 2) (sourceLines source).length)
    (hp : ∀ l, p l = true → l.2 ≠ line ∧ l.2 ≤ line + 2) {l : Bytes × Nat}
    (hl : l ∈ (numberedLines source).filter p) : l.2 ≠ line ∧ l.2 ≤ last := by
  obtain ⟨hl, hpl⟩ := List.mem_filter.mp hl
  have hle := snd_le_of_mem hl
  have hbeside := hp l hpl
  omega

theorem around_shows {source text : Bytes} {line column : Nat}
    (h : OnLine source text line column) :
    Shows source line column (around source line column) := by
  obtain ⟨front, back, hlines, hline⟩ := h.split
  obtain ⟨last, hlast⟩ : ∃ last, last = min (line + 2) (sourceLines source).length := ⟨_, rfl⟩
  have hwidth {n : Nat} (hn : n ≤ last) :
      (Bytes.ofNat n).length ≤ (Bytes.ofNat last).length := Bytes.length_ofNat_mono hn
  have hmem := mem_numberedLines h
  have hself : line ≤ last := by
    have hle := snd_le_of_mem hmem
    omega
  have hbefore : ∀ l ∈ (numberedLines source).filter (fun l => line ≤ l.2 + 2 && l.2 < line),
      l.2 ≠ line ∧ l.2 ≤ last := fun l => beside_of_mem hlast fun l hp => by
    simp only [Bool.and_eq_true, decide_eq_true_eq] at hp
    omega
  have hafter : ∀ l ∈ (numberedLines source).filter (fun l => line < l.2 && l.2 ≤ line + 2),
      l.2 ≠ line ∧ l.2 ≤ last := fun l => beside_of_mem hlast fun l hp => by
    simp only [Bool.and_eq_true, decide_eq_true_eq] at hp
    omega
  have haround : around source line column =
      ((numberedLines source).filter fun l => line ≤ l.2 + 2 && l.2 ≤ last).flatMap
        fun l => row (Bytes.ofNat last).length line column l.2 l.1 := by
    rw [hlast]
    rfl
  rw [haround, near_eq hlines hline hlast, List.flatMap_append, List.flatMap_cons,
    flatMap_row fun l hl => (hbefore l hl).1, flatMap_row fun l hl => (hafter l hl).1,
    row_self (hwidth hself)]
  have hshows : Shows source line column _ := .intro hmem
    (forall₂_plainRow fun l hl => hwidth (hbefore l hl).2)
    (isRow_of_le (utf8 "> ") text (hwidth hself))
    (forall₂_plainRow fun l hl => hwidth (hafter l hl).2)
  simpa only [unlines_append, unlines_cons, List.append_assoc] using hshows

theorem Shows.ne_nil {source excerpt : Bytes} {line column : Nat}
    (h : Shows source line column excerpt) : excerpt ≠ [] := by
  cases h with
  | intro _ _ _ _ =>
    have hfeed : utf8 "\n" = [ascii '\n'] := rfl
    simp [unlines_append, unlines_cons, hfeed]

theorem render_shows {source text : Bytes} {line column : Nat} (hsource : source ≠ [])
    (h : OnLine source text line column) :
    Shows source line column (render source line column) := by
  have hline := h.line_le
  have hinside : ¬ (source.isEmpty || (line : Int) ≤ 0 ||
      (Bytes.splitAt (ascii '\n') source).length < (line : Int) : Bool) = true := by
    rw [sourceLines] at hline
    simp only [Bool.or_eq_true, List.isEmpty_iff, decide_eq_true_eq, not_or]
    exact ⟨⟨hsource, by omega⟩, by omega⟩
  rw [render, if_neg hinside, Int.toNat_natCast]
  exact around_shows h

end Excerpt

end SmallLang
