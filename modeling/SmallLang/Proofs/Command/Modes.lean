import SmallLang.Command.Basic
import SmallLang.Proofs.Typing.Soundness

/-! The modes of the command. A check alone shows nothing but the log. In front of a run it stops
the run or leaves it as it is without a check, and a program that has passed it ends well or with
an error of its console. -/

namespace SmallLang

theorem Typing.run_safe {σ ε : Type} {p : Program} {d : Dialect} {console : Console σ ε}
    (hc : console.Typed) (h : p.typecheck d = .ok ()) (fuel : Nat) (io : σ) :
    (p.run d console fuel io).Safe console id fun _ _ => True := by
  obtain ⟨_, hchecked, hmain⟩ := bind_eq_ok.mp h
  obtain ⟨t, hmain⟩ := discard_eq_ok.mp hmain
  rw [← types_empty] at hmain
  have hsound := soundAt hc (fun f hf => checkFuncs_mem hchecked hf) fuel
  rw [Program.run_eq]
  exact (hsound.call io hmain).bind (fun _ => rfl) fun _ _ _ => trivial

namespace Command

variable {host : Host} {config : Config}

/-- The scripts that a configuration leads to, their functions, and the program that these make. -/
structure Build [Formats] (host : Host) (config : Config) where
  scripts : List Script
  funcs : List Func
  program : Program
  loads : load host config = .ok scripts
  compiles : compileScripts scripts = .ok funcs
  builds : Program.ofFuncs funcs = .ok program

/-- What a program that is run gives: its result, its output, and the prompts for its input. -/
structure Session where
  result : Except Failure Unit
  stdout : Bytes
  prompts : Bytes

section Entries

variable (threshold : Level)

def checkedEntry : Bytes := Log.entry threshold .info "Program typechecked" []

def closing : Except Failure Unit → Bytes
  | .ok () => Log.entry threshold .info "Application terminated normally" []
  | .error f => Log.entry threshold .error "Execution failed" [("error", f.message)]

def checkEntries : Except Failure Unit → Bytes
  | .ok () => checkedEntry threshold ++ closing threshold (.ok ())
  | .error f => closing threshold (.error f)

def runEntries : Except Failure Unit → Bytes
  | .ok () => Log.entry threshold .info "Program interpreted" [] ++ closing threshold (.ok ())
  | .error f => closing threshold (.error f)

end Entries

namespace Build

variable [Formats] (b : Build host config)

def opening : Bytes :=
  startedEntry config.choices.level config.settings ++
    (loadedEntries config.choices.level b.scripts ++ parsedEntries config.choices.level b.funcs)

def unchecked (s : Session) : Outcome where
  result := s.result
  stdout := s.stdout
  stderr := b.opening ++ (s.prompts ++ runEntries config.choices.level s.result)

def checked (s : Session) : Outcome where
  result := s.result
  stdout := s.stdout
  stderr := b.opening ++ (checkedEntry config.choices.level ++
    (s.prompts ++ runEntries config.choices.level s.result))

/-- The outcome without a session. -/
def only (result : Except Failure Unit) : Outcome where
  result := result
  stdout := []
  stderr := b.opening ++ checkEntries config.choices.level result

end Build

def interpretFailure (f : Failure) : Failure := .within (utf8 "failed to interpret program") f

def typecheckFailure (e : LangError) : Failure :=
  .within (utf8 "failed to typecheck program") e.toFailure

def session (fuel : Nat) (d : Dialect) (input : Feed) (p : Program) : Option Session :=
  match p.run d Streams.console fuel { feed := some input } with
  | .ok () s => some ⟨.ok (), s.output, s.shown⟩
  | .error e s => some ⟨.error (interpretFailure e.toFailure), s.output, s.shown⟩
  | .starved => none

theorem session_result {fuel : Nat} {d : Dialect} {input : Feed} {p : Program} {s : Session}
    (hcheck : p.typecheck d = .ok ()) (h : session fuel d input p = some s) :
    s.result = .ok () ∨ ∃ e : ConsoleError, s.result = .error (interpretFailure e.toFailure) := by
  have hsafe := Typing.run_safe Streams.console_typed hcheck fuel { feed := some input }
  rw [session] at h
  cases hrun : p.run d Streams.console fuel { feed := some input } with
  | starved =>
    rw [hrun] at h
    cases h
  | ok _ io =>
    rw [hrun] at h
    cases h
    exact .inl rfl
  | error e io =>
    rw [hrun] at h hsafe
    cases h
    cases e with
    | lang e => exact hsafe.elim
    | console e => exact .inr ⟨e, rfl⟩

theorem conclude_eq (threshold : Level) (o : Outcome) :
    conclude threshold o = o.log (closing threshold o.result) := by
  rw [conclude]
  cases o.result <;> rfl

theorem run_eq [Formats] {args : List Bytes}
    (hargs : Config.ofArgs args host.env host.lookup = .ok config) (hhelp : config.help = false)
    (b : Build host config) (fuel : Nat) :
    run fuel host args =
      (perform fuel config.choices (feed host config) b.program).map fun o =>
        ⟨o.result, o.stdout, b.opening ++ (o.stderr ++ closing config.choices.level o.result)⟩ := by
  rw [run, hargs]
  simp only [hhelp, Bool.false_eq_true, if_false, runWith, b.loads, process, b.compiles, execute,
    b.builds, Option.map_map]
  congr 1
  funext o
  simp only [Function.comp_apply, conclude_eq, Outcome.after, Outcome.log, Build.opening,
    List.append_assoc]

theorem interpret_eq (fuel : Nat) (c : Choices) (input : Feed) (p : Program) :
    interpret fuel c input p = (session fuel c.dialect input p).map fun s =>
      ⟨s.result, s.stdout, match s.result with
        | .ok () => s.prompts ++ Log.entry c.level .info "Program interpreted" []
        | .error _ => s.prompts⟩ := by
  rw [interpret, session]
  cases p.run c.dialect Streams.console fuel { feed := some input } <;> rfl

section Modes

variable [Formats] {args : List Bytes}
  (hargs : Config.ofArgs args host.env host.lookup = .ok config)
  (hhelp : config.help = false) (b : Build host config) (fuel : Nat)
include hargs hhelp

theorem run_of_interpret (hmode : config.choices.mode = .interpret) :
    run fuel host args =
      (session fuel config.choices.dialect (feed host config) b.program).map b.unchecked := by
  rw [run_eq hargs hhelp b, perform, if_pos hmode, interpret_eq, Option.map_map]
  congr 1
  funext s
  obtain ⟨result, stdout, prompts⟩ := s
  cases result <;> simp [Build.unchecked, runEntries]

theorem run_of_typecheck_ok (hmode : config.choices.mode = .run)
    (hcheck : b.program.typecheck config.choices.dialect = .ok ()) :
    run fuel host args =
      (session fuel config.choices.dialect (feed host config) b.program).map b.checked := by
  rw [run_eq hargs hhelp b, perform, hcheck]
  simp only [hmode, reduceCtorEq, if_false, interpret_eq, Option.map_map]
  congr 1
  funext s
  obtain ⟨result, stdout, prompts⟩ := s
  cases result <;> simp [Build.checked, runEntries, checkedEntry, Outcome.after]

theorem run_of_typecheck_error (hmode : config.choices.mode ≠ .interpret) {e : LangError}
    (hcheck : b.program.typecheck config.choices.dialect = .error e) :
    run fuel host args = some (b.only (.error (typecheckFailure e))) := by
  rw [run_eq hargs hhelp b, perform, if_neg hmode, hcheck]
  rfl

theorem run_of_check (hmode : config.choices.mode = .check) :
    run fuel host args = some (b.only
      ((b.program.typecheck config.choices.dialect).mapError typecheckFailure)) := by
  cases hcheck : b.program.typecheck config.choices.dialect with
  | error e => exact run_of_typecheck_error hargs hhelp b fuel (by simp [hmode]) hcheck
  | ok _ =>
    have hresult : (Except.ok ()).mapError typecheckFailure = .ok () := rfl
    rw [run_eq hargs hhelp b, perform, hcheck, hresult]
    simp [hmode, Build.only, checkEntries, checkedEntry]

end Modes

def Build.transfer [Formats] {host' : Host} {config' : Config} (b : Build host config)
    (h : load host' config' = load host config) : Build host' config' :=
  { b with loads := h.trans b.loads }

theorem load_congr [Formats] {config' : Config}
    (hsource : config'.settings.source = config.settings.source)
    (hencoding : config'.choices.encoding = config.choices.encoding) :
    load host config' = load host config := by
  rw [load, load, hsource, hencoding]

theorem load_stdin [Formats] (hsource : config.settings.source ≠ []) (stdin : Bytes) :
    load { host with stdin } config = load host config := by
  simp [load, hsource]

theorem kind?_interpretFailure (e : ConsoleError) :
    (interpretFailure e.toFailure).kind? = none := by
  cases e <;> rfl

/-- The three modes agree. A check shows only the log, and the input is not read for it. If a check
fails, nothing is run; if it succeeds, the session is that of a run without it, and what it ends
with is no error of the language. The formats of the files play no part in it. -/
theorem modes_agree [Formats] {args : List Bytes}
    (hargs : Config.ofArgs args host.env host.lookup = .ok config) (hhelp : config.help = false)
    (b : Build host config) (fuel : Nat) :
    (config.choices.mode = .check →
      (∃ result, run fuel host args = some (b.only result)) ∧
      (config.settings.source ≠ [] → ∀ stdin,
        run fuel { host with stdin } args = run fuel host args)) ∧
    (config.choices.mode = .run →
      (∀ e, b.program.typecheck config.choices.dialect = .error e →
        run fuel host args = some (b.only (.error (typecheckFailure e)))) ∧
      (b.program.typecheck config.choices.dialect = .ok () → ∀ args' config',
        Config.ofArgs args' host.env host.lookup = .ok config' → config'.help = false →
        config'.choices.mode = .interpret →
        config'.choices.dialect = config.choices.dialect →
        config'.choices.encoding = config.choices.encoding →
        config'.settings.source = config.settings.source →
        ∃ (b' : Build host config') (s : Option Session),
          run fuel host args = s.map b.checked ∧ run fuel host args' = s.map b'.unchecked) ∧
      ∀ o, run fuel host args = some o → o.stdout ≠ [] →
        (o.result = .ok () ∨
          ∃ e : ConsoleError, o.result = .error (interpretFailure e.toFailure)) ∧
        ∀ f, o.result = .error f → f.kind? = none) := by
  refine ⟨fun hmode => ⟨⟨_, run_of_check hargs hhelp b fuel hmode⟩, fun hsource stdin => ?_⟩,
    fun hmode => ⟨fun e he => ?_, fun hcheck args' config' hargs' hhelp' hmode' hdialect hencoding
      hsource => ?_, fun o ho hstdout => ?_⟩⟩
  · -- the same scripts are loaded whatever the input is
    have hother := @run_of_check { host with stdin } config _ args hargs hhelp
      (b.transfer (load_stdin hsource stdin)) fuel hmode
    rw [hother, run_of_check hargs hhelp b fuel hmode]
    rfl
  · exact run_of_typecheck_error hargs hhelp b fuel (by simp [hmode]) he
  · have hfeed : feed host config' = feed host config := by rw [feed, feed, hsource]
    let b' := b.transfer (load_congr hsource hencoding)
    refine ⟨b', _, run_of_typecheck_ok hargs hhelp b fuel hmode hcheck, ?_⟩
    rw [run_of_interpret hargs' hhelp' b' fuel hmode', hdialect, hfeed]
    rfl
  · cases hcheck : b.program.typecheck config.choices.dialect with
    | error e =>
      -- nothing is printed before the check
      rw [run_of_typecheck_error hargs hhelp b fuel (by simp [hmode]) hcheck] at ho
      cases ho
      exact absurd rfl hstdout
    | ok _ =>
      rw [run_of_typecheck_ok hargs hhelp b fuel hmode hcheck] at ho
      obtain ⟨s, hs, rfl⟩ := Option.map_eq_some_iff.mp ho
      have hresult := session_result hcheck hs
      refine ⟨hresult, fun f hf => ?_⟩
      have hf : s.result = .error f := hf
      rcases hresult with hresult | ⟨e, hresult⟩
      · rw [hresult] at hf
        cases hf
      · rw [hresult] at hf
        cases hf
        exact kind?_interpretFailure e

def echoText : Bytes := utf8 "main() \x7b while (true) print input<bool>; \x7d"

def echoHost : Host where
  lookup path := if path = utf8 "echo" then .ok (.file echoText) else .error .missing
  env _ := []
  stdin := utf8 "true\n"

def echoConfig (mode : Mode) (name : Bytes) : Config where
  settings := { Config.defaults with mode := name, source := utf8 "echo" }
  choices := ⟨mode, {}, .auto, .info⟩
  file := []
  help := false

def echoMain : Func := ⟨entryPoint, .void, [], [.loop (.bool true) (.print (.input .bool))], none⟩

def echoBuild : Build echoHost (echoConfig .run (utf8 "run")) where
  scripts := [⟨utf8 "echo", echoText, 42⟩]
  funcs := [echoMain]
  program := ⟨[echoMain], by decide⟩
  loads := rfl
  compiles := rfl
  builds := rfl

theorem echo_modes_agree :
    (Config.ofArgs [utf8 "echo"] echoHost.env echoHost.lookup =
        .ok (echoConfig .run (utf8 "run")) ∧
      Config.ofArgs [utf8 "-m", utf8 "interpret", utf8 "echo"] echoHost.env echoHost.lookup =
        .ok (echoConfig .interpret (utf8 "interpret")) ∧
      echoBuild.program.typecheck {} = .ok ()) ∧
    (∃ (b' : Build echoHost (echoConfig .interpret (utf8 "interpret"))) (s : Option Session),
      run 12 echoHost [utf8 "echo"] = s.map echoBuild.checked ∧
        run 12 echoHost [utf8 "-m", utf8 "interpret", utf8 "echo"] = s.map b'.unchecked) ∧
    ∃ o, run 12 echoHost [utf8 "echo"] = some o ∧ o.stdout = utf8 "true\n" ∧
      o.result = .error (interpretFailure .endOfInput) ∧
      ∀ f, o.result = .error f → f.kind? = none := by
  have hargs : Config.ofArgs [utf8 "echo"] echoHost.env echoHost.lookup =
      .ok (echoConfig .run (utf8 "run")) := rfl
  have hargs' : Config.ofArgs [utf8 "-m", utf8 "interpret", utf8 "echo"] echoHost.env
      echoHost.lookup = .ok (echoConfig .interpret (utf8 "interpret")) := rfl
  have hcheck : echoBuild.program.typecheck {} = .ok () := rfl
  obtain ⟨-, hrun⟩ := modes_agree hargs rfl echoBuild 12
  obtain ⟨-, hsame, hends⟩ := hrun rfl
  refine ⟨⟨hargs, hargs', hcheck⟩, hsame hcheck _ _ hargs' rfl rfl rfl rfl rfl, ?_⟩
  obtain ⟨o, ho, hstdout, hresult⟩ : ∃ o, run 12 echoHost [utf8 "echo"] = some o ∧
      o.stdout = utf8 "true\n" ∧ o.result = .error (interpretFailure .endOfInput) :=
    ⟨_, rfl, rfl, rfl⟩
  exact ⟨o, ho, hstdout, hresult, (hends o ho (by rw [hstdout]; decide)).2⟩

end Command

end SmallLang
