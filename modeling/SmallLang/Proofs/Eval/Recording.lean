import SmallLang.Proofs.Eval.Bound
import SmallLang.Proofs.Eval.Simulation

/-! What a run says to its console, kept as a record beside the state of the console. Programs that
run alike in two dialects also say the same. -/

namespace SmallLang

/-- What a program says to its console. -/
inductive Exchange where
  | print (v : Value)
  | input (type : Ty)

section Recording

variable {σ τ ε α : Type}

/-- The console with a record of all that is said to it, the latest in front. -/
def Console.recorded (c : Console σ ε) : Console (σ × List Exchange) ε where
  print v io := ((c.print v io.1).1, (c.print v io.1).2, .print v :: io.2)
  input type io := ((c.input type io.1).1, (c.input type io.1).2, .input type :: io.2)

theorem Console.recorded_simulates (c : Console σ ε) :
    c.Simulates (fun io io' => io = io'.1) c.recorded where
  print h v := by simp [Console.recorded, h]
  input h type := by simp [Console.recorded, h]

theorem Console.simulates_eq (c : Console σ ε) : c.Simulates Eq c where
  print h v := by simp [h]
  input h type := by simp [h]

def Run.mapState (g : σ → τ) : Run ε σ α → Run ε τ α
  | .ok a s => .ok a (g s)
  | .error e s => .error e (g s)
  | .starved => .starved

theorem Run.mapState_ne_starved {r : Run ε σ α} (g : σ → τ) (h : r ≠ .starved) :
    r.mapState g ≠ .starved := by
  cases r with
  | ok a s => simp [mapState]
  | error e s => simp [mapState]
  | starved => exact (h rfl).elim

theorem Run.Follows.eq_mapState {S : σ → τ → Prop} {g : σ → τ} (hS : ∀ s t, S s t → t = g s)
    {r : Run (RunError ε) σ α} {r' : Run (RunError ε) τ α}
    (h : Run.Follows (fun _ => False) Eq S r r') : r' = r.mapState g := by
  cases h with
  | excused he => exact he.elim
  | ok hab hs => rw [mapState, hab, hS _ _ hs]
  | error hs => rw [mapState, hS _ _ hs]
  | starved => rfl

theorem Run.Follows.exists_record {r : Run (RunError ε) σ α} {r' : Run (RunError ε) (σ × τ) α}
    (h : Run.Follows (fun _ => False) Eq (fun io io' => io = io'.1) r r') (hr : r ≠ .starved) :
    ∃ record, r' = r.mapState (·, record) := by
  cases h with
  | excused he => exact he.elim
  | ok hab hs =>
    rename_i a _ _ s'
    exact ⟨s'.2, by rw [Run.mapState, hs, hab]⟩
  | error hs =>
    rename_i e _ s'
    exact ⟨s'.2, by rw [Run.mapState, hs]⟩
  | starved => exact (hr rfl).elim

theorem Run.Follows.eq_of_not {excused : LangError → Prop} {r r' : Run (RunError ε) σ α}
    (h : Run.Follows excused Eq Eq r r') (hr : ∀ e s, r = .error (.lang e) s → ¬ excused e) :
    r' = r := by
  cases h with
  | excused he => exact (hr _ _ rfl he).elim
  | ok hab hs => rw [hab, hs]
  | error hs => rw [hs]
  | starved => rfl

end Recording

namespace Scope

theorem isSimulation_eq {α : Type} {excused : LangError → Prop} :
    IsSimulation excused (Eq (α := Scope α)) where
  lookup h name := by rw [h]
  declare h name x := .of_eq (by rw [h])
  update h name x := .of_eq (by rw [h])
  push h := by rw [h]
  pop h := by rw [h]

end Scope

namespace Program

variable {σ ε : Type} {p : Program} {d : Dialect} {console : Console σ ε} {io : σ}
  {outcome : Run (RunError ε) σ Unit}

theorem Ends.exists_record (h : p.Ends d console io outcome) :
    ∃ record, p.Ends d console.recorded (io, []) (outcome.mapState (·, record)) := by
  obtain ⟨hstarved, fuel, rfl⟩ := h
  have hfollows : Run.Follows (fun _ => False) Eq (fun io io' => io = io'.1)
      (p.run d console fuel io) (p.run d console.recorded fuel (io, [])) :=
    Eval.run_follows Scope.isSimulation_eq console.recorded_simulates (fun _ _ _ => .refl _) rfl
      fuel rfl
  obtain ⟨record, hrecord⟩ := hfollows.exists_record hstarved
  exact ⟨record, Run.mapState_ne_starved _ hstarved, fuel, hrecord⟩

section Dialects

variable {d' : Dialect} {excused : LangError → Prop} {R : Scope Value → Scope Value → Prop}

theorem Ends.follow (hR : Scope.IsSimulation excused R)
    (hd : Eval.OperatorsFollow excused d d') (hempty : R (.empty d.strategy) (.empty d'.strategy))
    (h : p.Ends d console io outcome)
    (hx : ∀ e state, outcome = .error (.lang e) state → ¬ excused e) :
    p.Ends d' console io outcome := by
  obtain ⟨hstarved, fuel, rfl⟩ := h
  have hfollows : Run.Follows excused Eq Eq (p.run d console fuel io) (p.run d' console fuel io) :=
    Eval.run_follows hR console.simulates_eq hd hempty fuel rfl
  exact ⟨hstarved, fuel, hfollows.eq_of_not hx⟩

theorem Ends.follow_recorded (hR : Scope.IsSimulation excused R)
    (hd : Eval.OperatorsFollow excused d d') (hempty : R (.empty d.strategy) (.empty d'.strategy))
    (h : p.Ends d console io outcome)
    (hx : ∀ e state, outcome = .error (.lang e) state → ¬ excused e) :
    ∃ record, p.Ends d console.recorded (io, []) (outcome.mapState (·, record)) ∧
      p.Ends d' console.recorded (io, []) (outcome.mapState (·, record)) := by
  obtain ⟨record, hrecord⟩ := h.exists_record
  refine ⟨record, hrecord, hrecord.follow hR hd hempty ?_⟩
  intro e state he
  cases outcome with
  | ok a io' => cases he
  | error e' io' =>
    cases he
    exact hx e io' rfl
  | starved => cases he

end Dialects

end Program

end SmallLang
