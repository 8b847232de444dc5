import SmallLang.Parse.Program

/-! Braces. A chunk is a header without braces and a balanced block behind it; from any place within
it, recovery goes to its end and no further. -/

namespace SmallLang.Parser

def BraceFree (w : List Token) : Prop := ∀ t ∈ w, t.kind ≠ .lbrace ∧ t.kind ≠ .rbrace

inductive Balanced : List Token → Prop
  | nil : Balanced []
  | cons {t : Token} {w : List Token} : t.kind ≠ .lbrace → t.kind ≠ .rbrace → Balanced w →
      Balanced (t :: w)
  | braces {lb rb : Token} {w v : List Token} : lb.kind = .lbrace → Balanced w →
      rb.kind = .rbrace → Balanced v → Balanced (lb :: (w ++ rb :: v))

/-- A header without braces and a block in balanced braces. -/
inductive IsChunk : List Token → Prop
  | intro {header body : List Token} {lb rb : Token} : BraceFree header → lb.kind = .lbrace →
      Balanced body → rb.kind = .rbrace → IsChunk (header ++ lb :: (body ++ [rb]))

/-- Where a token of a chunk stands. -/
inductive Place where
  | header
  | inside (depth : Nat)
  | behind
deriving DecidableEq

namespace Place

def after : Place → TokenKind → Place
  | .header, .lbrace => .inside 0
  | .header, .rbrace => .behind
  | .inside depth, .lbrace => .inside (depth + 1)
  | .inside 0, .rbrace => .behind
  | .inside (depth + 1), .rbrace => .inside depth
  | place, _ => place

def walk (place : Place) (w : List Token) : Place :=
  w.foldl (fun place t => place.after t.kind) place

@[simp] theorem walk_nil (place : Place) : place.walk [] = place := rfl

@[simp] theorem walk_cons (place : Place) (t : Token) (w : List Token) :
    place.walk (t :: w) = (place.after t.kind).walk w := rfl

@[simp] theorem walk_append (place : Place) (w v : List Token) :
    place.walk (w ++ v) = (place.walk w).walk v := List.foldl_append

theorem after_of_ne {kind : TokenKind} (hl : kind ≠ .lbrace) (hr : kind ≠ .rbrace)
    (place : Place) : place.after kind = place := by
  unfold after
  split <;> first | contradiction | rfl

theorem after_behind (kind : TokenKind) : behind.after kind = behind := by
  cases kind <;> rfl

theorem walk_behind (w : List Token) : behind.walk w = behind := by
  induction w with
  | nil => rfl
  | cons t w ih => rw [walk_cons, after_behind, ih]

theorem walk_braceFree {w : List Token} (h : BraceFree w) (place : Place) :
    place.walk w = place := by
  induction w with
  | nil => rfl
  | cons t w ih =>
    obtain ⟨hl, hr⟩ := h t List.mem_cons_self
    rw [walk_cons, after_of_ne hl hr]
    exact ih fun u hu => h u (List.mem_cons_of_mem t hu)

theorem walk_balanced {w : List Token} (h : Balanced w) (depth : Nat) :
    (inside depth).walk w = inside depth := by
  induction h generalizing depth with
  | nil => rfl
  | cons hl hr _ ih =>
    rw [walk_cons, after_of_ne hl hr]
    exact ih depth
  | braces hlb _ hrb _ ihw ihv =>
    rw [walk_cons, hlb, walk_append]
    have hopen : (inside depth).after .lbrace = inside (depth + 1) := rfl
    have hclose : (inside (depth + 1)).after .rbrace = inside depth := rfl
    rw [hopen, ihw, walk_cons, hrb, hclose, ihv]

theorem ne_behind_of_walk {place : Place} {w : List Token} (h : place.walk w ≠ behind) :
    place ≠ behind := by
  rintro rfl
  exact h (walk_behind w)

def depth : Place → Nat
  | .header => 0
  | .inside depth => depth + 1
  | .behind => 0

theorem depth_after_lbrace {place : Place} (h : place.after .lbrace ≠ behind) :
    (place.after .lbrace).depth = place.depth + 1 := by
  cases place with
  | header => rfl
  | inside depth => rfl
  | behind => exact absurd rfl h

theorem eq_inside_of_after_rbrace {place : Place} (h : place.after .rbrace ≠ behind) :
    ∃ depth, place = inside (depth + 1) := by
  cases place with
  | header => exact absurd rfl h
  | inside depth =>
    cases depth with
    | zero => exact absurd rfl h
    | succ depth => exact ⟨depth, rfl⟩
  | behind => exact absurd rfl h

end Place

open Place

theorem depthAfter_eq {place : Place} {w : List Token} (h : place.walk w ≠ .behind) :
    depthAfter place.depth w = (place.walk w).depth := by
  induction w generalizing place with
  | nil => rfl
  | cons t w ih =>
    rw [walk_cons] at h ⊢
    rw [← ih h]
    have hafter : place.after t.kind ≠ .behind := ne_behind_of_walk h
    by_cases hl : t.kind = .lbrace
    · rw [hl] at hafter
      simp [depthAfter, hl, depth_after_lbrace hafter]
    · by_cases hr : t.kind = .rbrace
      · rw [hr] at hafter
        obtain ⟨depth, rfl⟩ := eq_inside_of_after_rbrace hafter
        simp [depthAfter, hr, Place.after, Place.depth]
      · rw [after_of_ne hl hr]
        simp [depthAfter]

/-- The last brace of a chunk is the one that closes it. -/
theorem IsChunk.exists_front {c : List Token} (h : IsChunk c) :
    ∃ front rb, c = front ++ [rb] ∧ rb.kind = .rbrace ∧ Place.header.walk front = .inside 0 := by
  cases h with
  | @intro header body lb rb hheader hlb hbody hrb =>
    refine ⟨header ++ lb :: body, rb, by simp, hrb, ?_⟩
    have hopen : Place.header.after .lbrace = .inside 0 := rfl
    rw [walk_append, walk_braceFree hheader, walk_cons, hlb, hopen, walk_balanced hbody]

theorem IsChunk.append_cases {w v : List Token} (h : IsChunk (w ++ v)) :
    v = [] ∧ Place.header.walk w = .behind ∨
      ∃ front rb, v = front ++ [rb] ∧ rb.kind = .rbrace ∧
        (Place.header.walk w).walk front = .inside 0 := by
  obtain ⟨chunk, rb, hchunk, hrb, hwalk⟩ := h.exists_front
  rcases List.eq_nil_or_concat v with rfl | ⟨front, last, rfl⟩
  · refine .inl ⟨rfl, ?_⟩
    rw [List.append_nil] at hchunk
    rw [hchunk, walk_append, hwalk, walk_cons, hrb]
    rfl
  · rw [List.concat_eq_append, ← List.append_assoc] at hchunk
    obtain ⟨rfl, hlast⟩ := List.append_inj' hchunk rfl
    obtain rfl : last = rb := by simpa using hlast
    rw [walk_append] at hwalk
    exact .inr ⟨front, last, List.concat_eq_append, hrb, hwalk⟩

/-- Recovery stops behind the brace that closes the chunk. -/
theorem recover_eq {place : Place} {w : List Token} (hw : place.walk w = .inside 0)
    (heof : ∀ t ∈ w, t.kind ≠ .eof) {rb : Token} (hrb : rb.kind = .rbrace) (rest : List Token) :
    recover place.depth (w ++ rb :: rest) = (0, rest) := by
  induction w generalizing place with
  | nil =>
    obtain rfl : place = .inside 0 := hw
    simp [recover, hrb, Place.depth]
  | cons t w ih =>
    have heof' : ∀ u ∈ w, u.kind ≠ .eof := fun u hu => heof u (List.mem_cons_of_mem t hu)
    have ht : t.kind ≠ .eof := heof t List.mem_cons_self
    rw [walk_cons] at hw
    have hafter : place.after t.kind ≠ .behind := ne_behind_of_walk (by rw [hw]; simp)
    have ih := ih hw heof'
    rw [List.cons_append, recover.eq_def]
    by_cases hl : t.kind = .lbrace
    · rw [hl] at hafter
      rw [hl, depth_after_lbrace hafter] at ih
      simpa [hl] using ih
    · by_cases hr : t.kind = .rbrace
      · rw [hr] at hafter
        obtain ⟨depth, rfl⟩ := eq_inside_of_after_rbrace hafter
        simpa [hr, Place.after, Place.depth] using ih
      · rw [after_of_ne hl hr] at ih
        simpa using ih

/-- Without braces, recovery goes to the end of the input. -/
theorem recover_braceFree {w : List Token} (h : BraceFree w) (heof : ∀ t ∈ w, t.kind ≠ .eof)
    {stop : Token} (hstop : stop.kind = .eof) (depth : Nat) :
    recover depth (w ++ [stop]) = (depth, []) := by
  induction w with
  | nil => simp [recover, hstop]
  | cons t w ih =>
    obtain ⟨hl, hr⟩ := h t List.mem_cons_self
    have ht : t.kind ≠ .eof := heof t List.mem_cons_self
    have ih := ih (fun u hu => h u (List.mem_cons_of_mem t hu))
      fun u hu => heof u (List.mem_cons_of_mem t hu)
    rw [List.cons_append, recover.eq_def]
    simpa using ih

end SmallLang.Parser
