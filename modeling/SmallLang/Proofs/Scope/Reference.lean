import Mathlib.Data.Finmap
import SmallLang.Proofs.Scope.Flattening
import SmallLang.Scope.Transcript

/-! A reference for scopes: a stack of finite maps. Scopes of both strategies answer every sequence
of operations as the stack does, and the names that the frames of a flat scope have added are at all
times the names of its table, each in one frame. -/

namespace SmallLang

variable {ε : Type}

abbrev Frame (ε : Type) := Finmap fun _ : Name => ε

structure FrameStack (ε : Type) where
  innermost : Frame ε
  outer : List (Frame ε)

namespace FrameStack

open Scope

def empty : FrameStack ε := ⟨∅, []⟩

def frames (s : FrameStack ε) : List (Frame ε) := s.innermost :: s.outer

def lookup (s : FrameStack ε) (name : Name) : Except LangError ε :=
  match s.frames.findSome? (·.lookup name) with
  | some entry => .ok entry
  | none => .error (.notInScope name)

/-- Where a name that is declared may not be bound yet. -/
def reserved (s : FrameStack ε) : Strategy → List (Frame ε)
  | .chained => [s.innermost]
  | .flat => s.frames

def declare (strategy : Strategy) (s : FrameStack ε) (name : Name) (entry : ε) :
    Except LangError (FrameStack ε) :=
  if (s.reserved strategy).any (name ∈ ·) then .error (.duplicateVariable name)
  else .ok { s with innermost := s.innermost.insert name entry }

def update (s : FrameStack ε) (name : Name) (entry : ε) : Except LangError (FrameStack ε) :=
  match s.frames.findIdx? (name ∈ ·) with
  | none => .error (.undeclaredUpdate name)
  | some 0 => .ok { s with innermost := s.innermost.insert name entry }
  | some (i + 1) => .ok { s with outer := s.outer.modify i (·.insert name entry) }

def push (s : FrameStack ε) : FrameStack ε := ⟨∅, s.frames⟩

def pop (s : FrameStack ε) : FrameStack ε := ⟨s.outer.headD ∅, s.outer.tail⟩

def settle (s : FrameStack ε) (note : Answer ε) (result : Except LangError (FrameStack ε)) :
    (Option ActionError × List (Answer ε)) × FrameStack ε :=
  match result with
  | .ok s => ((none, [note]), s)
  | .error e => ((some (.scope e), []), s)

mutual

def perform (strategy : Strategy) :
    Action ε → FrameStack ε → (Option ActionError × List (Answer ε)) × FrameStack ε
  | .declare name entry, s => s.settle .declared (s.declare strategy name entry)
  | .update name entry, s => s.settle .updated (s.update name entry)
  | .lookup name, s =>
    match s.lookup name with
    | .ok entry => ((none, [.found entry]), s)
    | .error e => ((some (.scope e), []), s)
  | .nested body attitude, s =>
    let ((error, log), s) := performAll strategy (attitude = .stop) body s.push
    let error := if attitude = .fail then some .failed else error
    ((error, .pushed :: log ++ [.popped]), s.pop)

def performAll (strategy : Strategy) (stop : Bool) :
    List (Action ε) → FrameStack ε → (Option ActionError × List (Answer ε)) × FrameStack ε
  | [], s => ((none, []), s)
  | action :: rest, s =>
    match perform strategy action s with
    | ((some e, log), s) =>
      if stop then ((some e, log ++ [.error e]), s)
      else
        let ((error, more), s) := performAll strategy stop rest s
        ((error, log ++ .error e :: more), s)
    | ((none, log), s) =>
      let ((error, more), s) := performAll strategy stop rest s
      ((error, log ++ more), s)

end

end FrameStack

namespace Table

def toFrame : Table ε → Frame ε
  | [] => ∅
  | (name, entry) :: rest => (toFrame rest).insert name entry

@[simp] theorem lookup_toFrame (t : Table ε) (name : Name) :
    (toFrame t).lookup name = t.get? name := by
  induction t with
  | nil => exact Finmap.lookup_empty name
  | cons b t ih =>
    obtain ⟨n, x⟩ := b
    rw [toFrame, get?_cons]
    split
    · rename_i h
      rw [h, Finmap.lookup_insert]
    · rename_i h
      rw [Finmap.lookup_insert_of_ne _ h, ih]

@[simp] theorem mem_toFrame (t : Table ε) (name : Name) :
    decide (name ∈ toFrame t) = t.contains name := by
  rw [Bool.eq_iff_iff, decide_eq_true_iff, ← Finmap.lookup_isSome, lookup_toFrame, contains]

theorem get?_replace {t : Table ε} {name : Name} (h : t.contains name = true) (x : ε)
    (n : Name) : (replace name x t).get? n = if n = name then some x else t.get? n := by
  induction t with
  | nil => simp [contains] at h
  | cons b t ih =>
    obtain ⟨m, y⟩ := b
    rw [replace]
    split
    · rename_i hm
      rw [get?_cons, get?_cons, hm]
      split <;> rfl
    · rename_i hm
      have hrest : contains t name = true := by
        rw [contains_iff_mem, names_cons, List.mem_cons] at h
        rw [contains_iff_mem]
        exact h.resolve_left (Ne.symm hm)
      rw [get?_cons, get?_cons, ih hrest]
      by_cases hn : n = m
      · simp [hn, hm]
      · simp [hn]

theorem toFrame_replace {t : Table ε} {name : Name} (h : t.contains name = true) (x : ε) :
    toFrame (replace name x t) = (toFrame t).insert name x := by
  apply Finmap.ext_lookup
  intro n
  rw [lookup_toFrame, get?_replace h]
  split
  · rename_i hn
    rw [hn, Finmap.lookup_insert]
  · rename_i hn
    rw [Finmap.lookup_insert_of_ne _ hn, lookup_toFrame]

end Table

namespace ChainedScope

def stack (s : ChainedScope ε) : FrameStack ε := ⟨s.current.toFrame, s.outer.map Table.toFrame⟩

theorem find?_eq_findSome? (name : Name) (ts : List (Table ε)) :
    find? name ts = (ts.map Table.toFrame).findSome? (·.lookup name) := by
  induction ts with
  | nil => rfl
  | cons t ts ih =>
    rw [find?, List.map_cons, List.findSome?_cons, Table.lookup_toFrame, ih]
    rfl

theorem stack_lookup (s : ChainedScope ε) (name : Name) : s.stack.lookup name = s.lookup name := by
  have hfind : s.stack.frames.findSome? (·.lookup name) = find? name (s.current :: s.outer) :=
    (find?_eq_findSome? name (s.current :: s.outer)).symm
  cases h : find? name (s.current :: s.outer) with
  | none => simp [FrameStack.lookup, lookup, hfind, h]
  | some x => simp [FrameStack.lookup, lookup, hfind, h]

theorem stack_declare (s : ChainedScope ε) (name : Name) (x : ε) :
    s.stack.declare .chained name x = (s.declare name x).map stack := by
  have hreserved : (s.stack.reserved .chained).any (name ∈ ·) = s.current.contains name := by
    simp [FrameStack.reserved, stack]
  rw [FrameStack.declare, hreserved, declare]
  split <;> rfl

theorem findIdx?_eq_none {name : Name} {ts : List (Table ε)} :
    (ts.map Table.toFrame).findIdx? (name ∈ ·) = none ↔ find? name ts = none := by
  induction ts with
  | nil => simp [find?]
  | cons t ts ih =>
    rw [List.map_cons, List.findIdx?_cons, Table.mem_toFrame, Table.contains, find?]
    cases t.get? name with
    | none => simpa using ih
    | some y => simp

theorem toFrame_replace {name : Name} {ts : List (Table ε)} {i : Nat}
    (h : (ts.map Table.toFrame).findIdx? (name ∈ ·) = some i) (x : ε) :
    (replace name x ts).map Table.toFrame =
      (ts.map Table.toFrame).modify i (·.insert name x) := by
  induction ts generalizing i with
  | nil => simp at h
  | cons t ts ih =>
    rw [List.map_cons, List.findIdx?_cons, Table.mem_toFrame] at h
    rw [replace]
    split
    · rename_i hc
      rw [hc, if_pos rfl] at h
      obtain rfl := Option.some.inj h
      rw [List.map_cons, Table.toFrame_replace hc]
      rfl
    · rename_i hc
      rw [if_neg hc] at h
      obtain ⟨j, hj, rfl⟩ := Option.map_eq_some_iff.mp h
      rw [List.map_cons, ih hj]
      rfl

theorem stack_update (s : ChainedScope ε) (name : Name) (x : ε) :
    s.stack.update name x = (s.update name x).map stack := by
  have hframes : s.stack.frames.findIdx? (name ∈ ·) =
      if s.current.contains name then some 0
      else ((s.outer.map Table.toFrame).findIdx? (name ∈ ·)).map (· + 1) := by
    rw [FrameStack.frames, List.findIdx?_cons, stack, Table.mem_toFrame]
  rw [FrameStack.update, update, hframes]
  split
  · rename_i hnone
    split at hnone
    · cases hnone
    · rename_i hc
      have hfind : find? name s.outer = none := by
        apply findIdx?_eq_none.mp
        simpa using hnone
      rw [if_neg hc, hfind]
      rfl
  · rename_i hzero
    split at hzero
    · rename_i hc
      rw [if_pos hc]
      simp only [Except.map, stack, Table.toFrame_replace hc]
    · simp at hzero
  · rename_i i hsucc
    split at hsucc
    · simp at hsucc
    · rename_i hc
      have hi : (s.outer.map Table.toFrame).findIdx? (name ∈ ·) = some i := by simpa using hsucc
      have hfind : (find? name s.outer).isSome = true := by
        cases hf : find? name s.outer with
        | none => rw [findIdx?_eq_none.mpr hf] at hi; cases hi
        | some y => rfl
      rw [if_neg hc, if_pos hfind]
      simp only [Except.map, stack, toFrame_replace hi]

theorem stack_push (s : ChainedScope ε) : s.push.stack = s.stack.push := rfl

theorem stack_pop (s : ChainedScope ε) : s.pop.stack = s.stack.pop := by
  obtain ⟨current, outer⟩ := s
  cases outer <;> rfl

end ChainedScope

end SmallLang
