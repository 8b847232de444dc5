import SmallLang.Proofs.Errors.Checking
import SmallLang.Proofs.Errors.Running
import SmallLang.Proofs.Print.RoundTrip
import SmallLang.Source

/-! Checking and running source texts: diagnostics exactly for the texts with syntax errors, and
otherwise errors of the phase. -/

namespace SmallLang

theorem proper_of_compile {file source : Bytes} {fs : List Func}
    (h : compile file source = .ok fs) : ∀ f ∈ fs, f.Proper := by
  have hparse := compile_eq_ok_iff.mp h
  have hfs := functions_of_parseSource (congrArg Prod.snd hparse)
  rw [hparse] at hfs
  exact hfs.proper (sourceWord_genuine source)

theorem LangError.OfPhase.ne {phase : Phase} {e e' : LangError} (h : e.OfPhase phase)
    (he' : e'.kind? = none) : e ≠ e' := by
  rintro rfl
  obtain ⟨kind, -, he⟩ := h
  rw [he] at he'
  cases he'

namespace Source

/-- The failures of a source text in a phase. -/
inductive Fails (source : Bytes) (phase : Phase) : Failure → Prop
  | rejected {ds : List Diagnostic} :
      compile [] source = .error ds → Fails source phase (.rejected ds)
  | language {fs : List Func} {kind : ErrorKind} {message : Bytes} :
      compile [] source = .ok fs → kind ∈ phase.kinds → Fails source phase (.language kind message)

namespace Fails

variable {source : Bytes} {phase : Phase}

theorem rejected_or_language {f : Failure} (h : Fails source phase f) :
    (∃ ds, f = .rejected ds) ∨ ∃ kind ∈ phase.kinds, ∃ message, f = .language kind message := by
  cases h with
  | rejected _ => exact .inl ⟨_, rfl⟩
  | language _ hkind => exact .inr ⟨_, hkind, _, rfl⟩

theorem compile_eq {ds : List Diagnostic} (h : Fails source phase (.rejected ds)) :
    compile [] source = .error ds := by
  cases h with
  | rejected h => exact h

theorem ofPhase {fs : List Func} {e : LangError} (hsource : compile [] source = .ok fs)
    (h : e.OfPhase phase) : Fails source phase e.toFailure := by
  obtain ⟨kind, hkind, he⟩ := h
  simp only [LangError.toFailure, he]
  exact .language hsource hkind

end Fails

section Programs

variable {source : Bytes}

theorem ofSource_of_compile {ds : List Diagnostic} (h : compile [] source = .error ds) :
    Program.ofSource source = .error (.rejected ds) := by
  rw [Program.ofSource, h]
  rfl

theorem ofSource_eq {fs : List Func} (h : compile [] source = .ok fs) :
    Program.ofSource source = (Program.ofFuncs fs).mapError LangError.toFailure := by
  rw [Program.ofSource, h]
  rfl

theorem ofFuncs_cases (fs : List Func) :
    (∃ p, Program.ofFuncs fs = .ok p ∧ p.funcs = fs) ∨
      ∃ name, Program.ofFuncs fs = .error (.duplicateFunction name) := by
  rw [Program.ofFuncs]
  split
  · rename_i name _
    exact .inr ⟨name, rfl⟩
  · exact .inl ⟨_, rfl, rfl⟩

theorem compile_of_ofSource {p : Program} (h : Program.ofSource source = .ok p) :
    compile [] source = .ok p.funcs := by
  cases hsource : compile [] source with
  | error ds =>
    rw [ofSource_of_compile hsource] at h
    cases h
  | ok fs =>
    rw [ofSource_eq hsource] at h
    rcases ofFuncs_cases fs with ⟨q, hq, rfl⟩ | ⟨name, hname⟩
    · rw [hq] at h
      cases h
      rfl
    · rw [hname] at h
      cases h

/-- Functions that share a name are an error of both phases. -/
theorem fails_of_ofSource {f : Failure} (h : Program.ofSource source = .error f) (phase : Phase) :
    Fails source phase f := by
  cases hsource : compile [] source with
  | error ds =>
    rw [ofSource_of_compile hsource] at h
    cases h
    exact .rejected hsource
  | ok fs =>
    rw [ofSource_eq hsource] at h
    rcases ofFuncs_cases fs with ⟨q, hq, -⟩ | ⟨name, hname⟩
    · rw [hq] at h
      cases h
    · rw [hname] at h
      cases h
      exact .language hsource (by simp [Phase.kinds])

theorem proper_of_ofSource {p : Program} (h : Program.ofSource source = .ok p) :
    ∀ f ∈ p.funcs, f.Proper :=
  proper_of_compile (compile_of_ofSource h)

end Programs

section Phases

variable {d : Dialect} {source : Bytes}

theorem check_of_compile {ds : List Diagnostic} (h : compile [] source = .error ds) :
    check d source = .error (.rejected ds) := by
  rw [check, ofSource_of_compile h]
  rfl

theorem check_fails {f : Failure} (h : check d source = .error f) : Fails source .checking f := by
  cases hp : Program.ofSource source with
  | error g =>
    rw [check, hp] at h
    cases h
    exact fails_of_ofSource hp .checking
  | ok p =>
    have hcheck : check d source = (p.typecheck d).mapError LangError.toFailure := by
      rw [check, hp]
      rfl
    rw [hcheck] at h
    cases ht : p.typecheck d with
    | ok _ =>
      rw [ht] at h
      cases h
    | error e =>
      rw [ht] at h
      cases h
      have hphase : e.OfPhase .checking := Typing.typecheck_raises (proper_of_ofSource hp) e ht
      exact .ofPhase (compile_of_ofSource hp) hphase

theorem check_cases (d : Dialect) (source : Bytes) :
    check d source = .ok () ∨ (∃ ds, check d source = .error (.rejected ds)) ∨
      ∃ kind ∈ Phase.kinds .checking, ∃ message,
        check d source = .error (.language kind message) := by
  cases h : check d source with
  | ok _ => exact .inl rfl
  | error f =>
    rcases (check_fails h).rejected_or_language with ⟨ds, rfl⟩ | ⟨kind, hkind, message, rfl⟩
    · exact .inr (.inl ⟨ds, rfl⟩)
    · exact .inr (.inr ⟨kind, hkind, message, rfl⟩)

theorem check_rejected_iff (d : Dialect) (source : Bytes) (ds : List Diagnostic) :
    check d source = .error (.rejected ds) ↔ compile [] source = .error ds :=
  ⟨fun h => (check_fails h).compile_eq, check_of_compile⟩

variable {σ ε : Type} {console : Console σ ε} {fuel : Nat} {io : σ}

theorem run_of_compile {ds : List Diagnostic} (h : compile [] source = .error ds) :
    run d console fuel source io = .error (.reported (.rejected ds)) io := by
  rw [run, ofSource_of_compile h]

theorem run_fails {io' : σ} {e : RunFailure ε}
    (h : run d console fuel source io = .error e io') :
    (∃ f, e = .reported f ∧ Fails source .running f) ∨
      ∃ e', e = .console e' ∧ console.Raises e' io' := by
  cases hp : Program.ofSource source with
  | error f =>
    rw [run, hp] at h
    cases h
    exact .inl ⟨f, rfl, fails_of_ofSource hp .running⟩
  | ok p =>
    have hraises := Eval.run_raises (d := d) (c := console) (proper_of_ofSource hp) fuel io
    rw [run, hp] at h
    simp only at h
    cases hrun : p.run d console fuel io with
    | ok _ _ =>
      rw [hrun] at h
      cases h
    | error e' _ =>
      rw [hrun] at h hraises
      cases e' with
      | lang e' =>
        cases h
        exact .inl ⟨_, rfl, .ofPhase (compile_of_ofSource hp) hraises⟩
      | console e' =>
        cases h
        exact .inr ⟨e', rfl, hraises⟩
    | starved =>
      rw [hrun] at h
      cases h

theorem run_rejected_iff {ds : List Diagnostic} {io' : σ} :
    run d console fuel source io = .error (.reported (.rejected ds)) io' ↔
      compile [] source = .error ds ∧ io' = io := by
  constructor
  · intro h
    rcases run_fails h with ⟨f, hf, hfails⟩ | ⟨e, he, -⟩
    · cases hf
      have hsource := hfails.compile_eq
      rw [run_of_compile hsource] at h
      cases h
      exact ⟨hsource, rfl⟩
    · cases he
  · rintro ⟨hsource, rfl⟩
    exact run_of_compile hsource

theorem run_cases (hends : run d console fuel source io ≠ .starved) :
    (∃ io', run d console fuel source io = .ok () io') ∨
      (∃ ds, run d console fuel source io = .error (.reported (.rejected ds)) io) ∨
      (∃ kind ∈ Phase.kinds .running, ∃ message io',
        run d console fuel source io = .error (.reported (.language kind message)) io') ∨
      ∃ e io', run d console fuel source io = .error (.console e) io' ∧ console.Raises e io' := by
  cases h : run d console fuel source io with
  | ok _ io' => exact .inl ⟨io', rfl⟩
  | starved => exact (hends h).elim
  | error e io' =>
    rcases run_fails h with ⟨f, rfl, hfails⟩ | ⟨e, rfl, hraises⟩
    · rcases hfails.rejected_or_language with ⟨ds, rfl⟩ | ⟨kind, hkind, message, rfl⟩
      · obtain ⟨-, rfl⟩ := run_rejected_iff.mp h
        exact .inr (.inl ⟨ds, rfl⟩)
      · exact .inr (.inr (.inl ⟨kind, hkind, message, io', rfl⟩))
    · exact .inr (.inr (.inr ⟨e, io', rfl, hraises⟩))

end Phases

theorem kind?_eq_none_of_mem {e : LangError}
    (h : e ∈ [LangError.unknownOperator, .missingExpression, .missingStatement]) :
    e.kind? = none := by
  simp only [List.mem_cons, List.not_mem_nil, or_false] at h
  rcases h with rfl | rfl | rfl
  · rfl
  · rfl
  · rfl

theorem errors_by_phase (d : Dialect) (source : Bytes) :
    ((check d source = .ok () ∨ (∃ ds, check d source = .error (.rejected ds)) ∨
        ∃ kind ∈ [ErrorKind.staticType, .scope, .dispatch], ∃ message,
          check d source = .error (.language kind message)) ∧
      ∀ ds, check d source = .error (.rejected ds) ↔ compile [] source = .error ds) ∧
    (∀ {σ ε : Type} (console : Console σ ε) (fuel : Nat) (io : σ),
      (run d console fuel source io ≠ .starved →
        (∃ io', run d console fuel source io = .ok () io') ∨
        (∃ ds, run d console fuel source io = .error (.reported (.rejected ds)) io) ∨
        (∃ kind ∈ [ErrorKind.dynamicType, .scope, .dispatch], ∃ message io',
          run d console fuel source io = .error (.reported (.language kind message)) io') ∨
        ∃ e io', run d console fuel source io = .error (.console e) io' ∧
          console.Raises e io') ∧
      ∀ ds io', run d console fuel source io = .error (.reported (.rejected ds)) io' ↔
        compile [] source = .error ds ∧ io' = io) ∧
    ∀ p, Program.ofSource source = .ok p →
      ∀ e ∈ [LangError.unknownOperator, .missingExpression, .missingStatement],
        p.typecheck d ≠ .error e ∧
        ∀ {σ ε : Type} (console : Console σ ε) (fuel : Nat) (io io' : σ),
          p.run d console fuel io ≠ .error (.lang e) io' := by
  refine ⟨⟨check_cases d source, check_rejected_iff d source⟩, ?_, ?_⟩
  · intro σ ε console fuel io
    exact ⟨run_cases, fun _ _ => run_rejected_iff⟩
  · intro p hp e he
    have hproper := proper_of_ofSource hp
    have hkind := kind?_eq_none_of_mem he
    refine ⟨?_, ?_⟩
    · intro h
      exact (Typing.typecheck_raises hproper e h).ne hkind rfl
    · intro σ ε console fuel io io' h
      have hraises := Eval.run_raises (d := d) (c := console) hproper fuel io
      rw [h] at hraises
      exact LangError.OfPhase.ne hraises hkind rfl

def negatedTruth : Bytes := utf8 "main() \x7b print -true; \x7d"

def negatedTruthProgram : Program where
  funcs := [⟨entryPoint, .void, [], [.print (.unary .negate (.bool true))], none⟩]
  nodup := by decide

theorem negatedTruth_errors_by_phase :
    (∃ kind ∈ [ErrorKind.staticType, .scope, .dispatch], ∃ message,
      check ⟨.chained, .strict⟩ negatedTruth = .error (.language kind message)) ∧
    (∃ kind ∈ [ErrorKind.dynamicType, .scope, .dispatch], ∃ message io',
      run ⟨.chained, .strict⟩ Streams.console 5 negatedTruth { feed := none } =
        .error (.reported (.language kind message)) io') ∧
    negatedTruthProgram.typecheck ⟨.chained, .strict⟩ ≠ .error .unknownOperator := by
  have hcheck : check ⟨.chained, .strict⟩ negatedTruth =
      .error (.language .staticType (LangError.typeMismatch .num .bool).message) := rfl
  have hrun : run ⟨.chained, .strict⟩ Streams.console 5 negatedTruth { feed := none } =
      .error (.reported (.language .dynamicType (LangError.notNumber (.bool true)).message))
        { feed := none } := rfl
  have hsource : Program.ofSource negatedTruth = .ok negatedTruthProgram := rfl
  obtain ⟨⟨hchecks, -⟩, hruns, hkinds⟩ := errors_by_phase ⟨.chained, .strict⟩ negatedTruth
  refine ⟨?_, ?_, (hkinds negatedTruthProgram hsource .unknownOperator (by simp)).1⟩
  · rcases hchecks with h | ⟨ds, h⟩ | h
    · simp [hcheck] at h
    · simp [hcheck] at h
    · exact h
  · rcases (hruns Streams.console 5 { feed := none }).1 (by simp [hrun]) with
      ⟨io', h⟩ | ⟨ds, h⟩ | h | ⟨e, io', h, -⟩
    · simp [hrun] at h
    · simp [hrun] at h
    · exact h
    · simp [hrun] at h

end Source

end SmallLang
