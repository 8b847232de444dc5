import SmallLang.Console
import SmallLang.Proofs.Eval.Recording

/-! Consoles whose output is closed after some lines. -/

namespace SmallLang

namespace Exchange

def printed? : Exchange → Option Value
  | .print v => some v
  | .input _ => none

def request? : Exchange → Option Ty
  | .print _ => none
  | .input type => some type

/-- The printed values of a record in order. -/
def printed (record : List Exchange) : List Value := (record.filterMap printed?).reverse

def requests (record : List Exchange) : List Ty := (record.filterMap request?).reverse

variable {record record' : List Exchange}

theorem printed_print (v : Value) : printed (.print v :: record) = printed record ++ [v] := by
  simp [printed, printed?]

theorem printed_input (type : Ty) : printed (.input type :: record) = printed record := by
  rw [printed, printed, List.filterMap_cons_none rfl]

theorem printed_of_suffix (h : record <:+ record') : printed record <+: printed record' :=
  List.reverse_prefix.mpr (h.filterMap _)

theorem requests_of_suffix (h : record <:+ record') : requests record <+: requests record' :=
  List.reverse_prefix.mpr (h.filterMap _)

end Exchange

open Exchange

variable {σ ε : Type}

/-- The console and its record, with an output that takes the given number of lines and then
fails. -/
def Console.limited (c : Console σ ε) (room : Nat) (closed : ε) :
    Console (σ × List Exchange) ε where
  print v io :=
    if (printed io.2).length < room then c.recorded.print v io else (.error closed, io)
  input := c.recorded.input

/-- The streams behind a limited console, with the room that is left. -/
def Streams.withRoom (room : Nat) (io : Streams × List Exchange) : Streams :=
  { io.1 with room := some (room - (Exchange.printed io.2).length) }

theorem Streams.limited_simulates (room : Nat) :
    (Streams.console.limited room .outputClosed).Simulates
      (fun io s => io.1.room = none ∧ s = withRoom room io) Streams.console where
  print := by
    rintro ⟨s, record⟩ _ ⟨hs, rfl⟩ v
    obtain ⟨feed, _, lines, prompts⟩ := s
    cases hs
    by_cases hroom : (Exchange.printed record).length < room
    · obtain ⟨left, hleft⟩ := Nat.exists_eq_add_of_lt hroom
      have hnow : room - (Exchange.printed record).length = left + 1 := by omega
      have hthen : room - (Exchange.printed (.print v :: record)).length = left := by
        rw [printed_print, List.length_append, List.length_singleton]
        omega
      simp [Console.limited, Console.recorded, console, print, withRoom, hroom, hnow, hthen]
    · have hnow : room - (Exchange.printed record).length = 0 := by omega
      simp [Console.limited, console, print, withRoom, hroom, hnow]
  input := by
    rintro ⟨s, record⟩ _ ⟨hs, rfl⟩ type
    obtain ⟨feed, _, lines, prompts⟩ := s
    cases hs
    cases feed <;>
      simp [Console.limited, Console.recorded, console, input, withRoom, printed_input]

namespace Program

theorem Ends.with_room {p : Program} {d : Dialect} {s : Streams} {room : Nat}
    {outcome : Run (RunError ConsoleError) (Streams × List Exchange) Unit} (hs : s.room = none)
    (h : p.Ends d (Streams.console.limited room .outputClosed) (s, []) outcome) :
    p.Ends d Streams.console { s with room := some room }
      (outcome.mapState (Streams.withRoom room)) := by
  obtain ⟨hstarved, fuel, rfl⟩ := h
  have hfollows : Run.Follows (fun _ => False) Eq
      (fun io s => io.1.room = none ∧ s = Streams.withRoom room io)
      (p.run d (Streams.console.limited room .outputClosed) fuel (s, []))
      (p.run d Streams.console fuel { s with room := some room }) :=
    Eval.run_follows Scope.isSimulation_eq (Streams.limited_simulates room) (fun _ _ _ => .refl _)
      rfl fuel ⟨hs, rfl⟩
  exact ⟨Run.mapState_ne_starved _ hstarved, fuel, hfollows.eq_mapState fun _ _ h => h.2⟩

end Program

end SmallLang
