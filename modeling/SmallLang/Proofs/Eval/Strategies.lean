import SmallLang.Console
import SmallLang.Proofs.Eval.Recording
import SmallLang.Proofs.Scope.Flattening
import SmallLang.Proofs.Typing.Simulation

/-! Flat and chained scopes. Where the flat ones do not object to a name, a program is checked alike
and runs alike with both, and says the same to its console. -/

namespace SmallLang

namespace Program

variable {σ ε : Type} {p : Program} {rules : Rules} {console : Console σ ε} {io : σ}
  {outcome : Run (RunError ε) σ Unit}

theorem Ends.chained (h : p.Ends ⟨.flat, rules⟩ console io outcome)
    (hd : ∀ name state, outcome ≠ .error (.lang (.duplicateVariable name)) state) :
    p.Ends ⟨.chained, rules⟩ console io outcome := by
  have hops : Eval.OperatorsFollow IsDuplicate ⟨.flat, rules⟩ ⟨.chained, rules⟩ :=
    fun _ _ _ => .refl _
  refine h.follow Scope.Agree.isSimulation hops Scope.Agree.empty ?_
  rintro _ state he ⟨name, rfl⟩
  exact hd name state he

theorem typecheck_chained
    (hd : ∀ name, p.typecheck ⟨.flat, rules⟩ ≠ .error (.duplicateVariable name)) :
    p.typecheck ⟨.chained, rules⟩ = p.typecheck ⟨.flat, rules⟩ := by
  have hops : Typing.OperatorsFollow IsDuplicate ⟨.flat, rules⟩ ⟨.chained, rules⟩ :=
    fun _ _ _ => .refl _
  have hfollows : Follows IsDuplicate Eq (p.typecheck ⟨.flat, rules⟩)
      (p.typecheck ⟨.chained, rules⟩) :=
    Typing.typecheck_follows Scope.Agree.isSimulation hops Scope.Agree.empty
  refine hfollows.eq_of_not ?_
  rintro _ h ⟨name, rfl⟩
  exact hd name h

/-- Flat and chained scopes give one answer to a check and one outcome to a run, with one record of
prints and requests, unless the flat ones find a name declared twice. -/
theorem strategies_agree (p : Program) (rules : Rules) :
    ((∀ name, p.typecheck ⟨.flat, rules⟩ ≠ .error (.duplicateVariable name)) →
      p.typecheck ⟨.chained, rules⟩ = p.typecheck ⟨.flat, rules⟩) ∧
    ∀ {σ ε : Type} (console : Console σ ε) (io : σ) (outcome : Run (RunError ε) σ Unit),
      p.Ends ⟨.flat, rules⟩ console io outcome →
      (∀ name state, outcome ≠ .error (.lang (.duplicateVariable name)) state) →
      p.Ends ⟨.chained, rules⟩ console io outcome ∧
        ∃ record, ∀ strategy,
          p.Ends ⟨strategy, rules⟩ console.recorded (io, []) (outcome.mapState (·, record)) := by
  refine ⟨typecheck_chained, fun console io outcome hends hd => ⟨hends.chained hd, ?_⟩⟩
  obtain ⟨record, hflat⟩ := hends.exists_record
  have hchained := hflat.chained fun name state h => ?_
  · refine ⟨record, fun strategy => ?_⟩
    cases strategy with
    | flat => exact hflat
    | chained => exact hchained
  · cases outcome with
    | ok a io' => cases h
    | error e io' =>
      cases h
      exact hd name io' rfl
    | starved => cases h

/-- Prints the negations of the values that are read, up to the first false one. Each goes through
a variable of the frame of the loop body. -/
def answers : Program where
  funcs :=
    [⟨entryPoint, .void, [],
      [.declare (utf8 "more") (.bool true),
        .loop (.var (utf8 "more"))
          (.block
            [.declare (utf8 "answer") (.input .bool),
              .assign (utf8 "more") (.var (utf8 "answer")),
              .print (.unary .not (.var (utf8 "answer")))])],
      none⟩]
  nodup := by decide

def answersEnd : Streams where
  feed := some ⟨[], .endOfInput⟩
  lines := [utf8 "true", utf8 "false"]
  prompts := [Feed.prompt .bool ++ utf8 "\n", Feed.prompt .bool ++ utf8 "\n"]

theorem answers_strategies_agree :
    (answers.typecheck ⟨.flat, .strict⟩ = .ok () ∧ answers.typecheck ⟨.chained, .strict⟩ = .ok ()) ∧
      answers.Ends ⟨.flat, .strict⟩ Streams.console
        { feed := some (.ofText (utf8 "true\nfalse\n")) } (.ok () answersEnd) ∧
      answers.Ends ⟨.chained, .strict⟩ Streams.console
        { feed := some (.ofText (utf8 "true\nfalse\n")) } (.ok () answersEnd) := by
  have hflat : answers.typecheck ⟨.flat, .strict⟩ = .ok () := rfl
  have hends : answers.Ends ⟨.flat, .strict⟩ Streams.console
      { feed := some (.ofText (utf8 "true\nfalse\n")) } (.ok () answersEnd) :=
    ⟨by simp, 14, rfl⟩
  obtain ⟨hchecked, hruns⟩ := strategies_agree answers .strict
  refine ⟨⟨hflat, (hchecked ?_).trans hflat⟩, hends, (hruns _ _ _ hends ?_).1⟩
  · simp [hflat]
  · simp

end Program

end SmallLang
