import SmallLang.Proofs.Eval.Bound
import SmallLang.Proofs.Typing.Expressions

/-! Type soundness: the run of a checked program ends well or with an error of its console. -/

namespace SmallLang.Typing

open Eval

variable {σ ε : Type} {p : Program} {d : Dialect} {console : Console σ ε}

theorem change_safe {s : Scope Value} {io : σ} {result : Except LangError (Scope Value)}
    {s' : Scope Value} {Γ : Scope Ty} (h : result = .ok s') (hs : types s' = Γ) :
    (Eval.change s io result).Safe console Prod.snd fun _ state => types state.1 = Γ := by
  rw [h]
  exact hs

theorem leave_safe {n : Nat} (ih : SoundAt p d console n) {stmt : Stmt} {s : Scope Value}
    {Γ : Scope Ty} (io : σ) (h : check p d stmt (types s).push = (.ok (), Γ)) :
    (leave (exec p d console n stmt s.push io)).Safe console Prod.snd
      fun _ state => types state.1 = types s := by
  rw [leave_eq]
  refine (ih.exec io (types_push s ▸ h)).bind (fun _ => rfl) fun _ state hstate => ?_
  have hpop : types state.1.pop = types s := by
    rw [types_pop, hstate]
    exact (check_grown stmt h).pop_eq
  exact hpop

theorem execBranch_step {n : Nat} (ih : SoundAt p d console n) {stmt : Stmt} {s : Scope Value}
    {Γ : Scope Ty} (io : σ)
    (h : stmt.isAbsent = false → check p d stmt (types s).push = (.ok (), Γ)) :
    (execBranch p d console (n + 1) stmt s io).Safe console Prod.snd
      fun _ state => types state.1 = types s := by
  rw [Eval.execBranch]
  split
  · rfl
  · rename_i hs
    exact leave_safe ih io (h (by simpa using hs))

theorem execAll_step {n : Nat} (ih : SoundAt p d console n) {body : List Stmt}
    {s : Scope Value} {Γ : Scope Ty} (io : σ) (h : checkAll p d body (types s) = (.ok (), Γ)) :
    (execAll p d console (n + 1) body s io).Safe console Prod.snd
      fun _ state => types state.1 = Γ := by
  cases body with
  | nil =>
    simp only [checkAll, Prod.mk.injEq] at h
    simp only [Eval.execAll]
    exact h.2
  | cons stmt rest =>
    rw [checkAll] at h
    obtain ⟨Θ, hs, hr⟩ := andThen_ok h
    rw [execAll_cons]
    refine (ih.exec io hs).bind (fun _ => rfl) fun _ state hstate => ?_
    exact ih.execAll state.2 (hstate ▸ hr)

theorem execLoop_step {n : Nat} (ih : SoundAt p d console n) {test : Expr} {body : Stmt}
    {s : Scope Value} {Γ : Scope Ty} (io : σ) (ht : checkCondition p d (types s) test = .ok ())
    (hb : check p d body (types s).push = (.ok (), Γ)) :
    (execLoop p d console (n + 1) test body s io).Safe console Prod.snd
      fun _ state => types state.1 = types s := by
  rw [execLoop_succ]
  refine (ih.condition io ht).bind (fun _ => rfl) fun b io _ => ?_
  cases b with
  | false => rfl
  | true =>
    -- the loop invariant: every iteration starts from the types that the checker had
    refine Run.Safe.bind (leave_safe ih io hb) (fun _ => rfl) fun _ state hstate => ?_
    have hloop := ih.execLoop (s := state.1) state.2 (hstate ▸ ht) (hstate ▸ hb)
    exact hstate ▸ hloop

theorem find?_mem {v : Value} {cases : List (Value × Stmt)} {body : Stmt}
    (h : Switch.find? v cases = some body) : ∃ w, (w, body) ∈ cases := by
  induction cases with
  | nil => cases h
  | cons c rest ih =>
    obtain ⟨w, stmt⟩ := c
    rw [Switch.find?] at h
    split at h
    · cases h
      exact ⟨w, List.mem_cons_self⟩
    · obtain ⟨w', hw⟩ := ih h
      exact ⟨w', List.mem_cons_of_mem _ hw⟩

theorem optionally_ok {c : Check} {absent : Bool} {Γ Δ : Scope Ty}
    (h : optionally absent (Scope.nested c) Γ = (.ok (), Δ)) :
    ∃ Θ, absent = false → c Γ.push = (.ok (), Θ) := by
  rw [optionally] at h
  split at h
  · rename_i ha
    exact ⟨Γ, fun hn => by simp [hn] at ha⟩
  · obtain ⟨Θ, hΘ, -⟩ := nested_ok h
    exact ⟨Θ, fun _ => hΘ⟩

theorem exec_cond_step {n : Nat} (ih : SoundAt p d console n) {test : Expr} {yes no : Stmt}
    {s : Scope Value} {Γ : Scope Ty} (io : σ)
    (h : check p d (.cond test yes no) (types s) = (.ok (), Γ)) :
    (exec p d console (n + 1) (.cond test yes no) s io).Safe console Prod.snd
      fun _ state => types state.1 = Γ := by
  rw [check] at h
  obtain ⟨ht, hbranches⟩ := test_andThen_ok h
  obtain ⟨Θ, hyes, hno⟩ := andThen_ok hbranches
  obtain ⟨Y, hY, rfl⟩ := nested_ok hyes
  rw [(check_grown yes hY).pop_eq] at hno
  obtain rfl := optionally_grown (nested_grown fun _ hb => check_grown no hb) hno
  obtain ⟨N, hN⟩ := optionally_ok hno
  rw [exec_cond]
  refine (ih.condition io ht).bind (fun _ => rfl) fun b io _ => ?_
  cases b with
  | true => exact ih.execBranch io fun _ => hY
  | false => exact ih.execBranch io hN

theorem exec_loop_step {n : Nat} (ih : SoundAt p d console n) {test : Expr} {body : Stmt}
    {s : Scope Value} {Γ : Scope Ty} (io : σ)
    (h : check p d (.loop test body) (types s) = (.ok (), Γ)) :
    (exec p d console (n + 1) (.loop test body) s io).Safe console Prod.snd
      fun _ state => types state.1 = Γ := by
  rw [check] at h
  obtain ⟨Θ, hl, rfl⟩ := nested_ok h
  obtain ⟨ht, hbody⟩ := test_andThen_ok hl
  obtain ⟨Ξ, hb, rfl⟩ := nested_ok hbody
  rw [(check_grown body hb).pop_eq, Scope.pop_push]
  rw [← types_push] at ht hb
  rw [Eval.exec, leave_eq]
  refine (ih.execLoop io ht hb).bind (fun _ => rfl) fun _ state hstate => ?_
  have hpop : types state.1.pop = types s := by
    rw [types_pop, hstate, types_push, Scope.pop_push]
  exact hpop

theorem exec_switch_step {n : Nat} (ih : SoundAt p d console n) {scrutinee : Expr} {fallback : Stmt}
    {cases : List (Value × Stmt)}
    {s : Scope Value} {Γ : Scope Ty} (io : σ)
    (h : check p d (.switch scrutinee cases fallback) (types s) = (.ok (), Γ)) :
    (exec p d console (n + 1) (.switch scrutinee cases fallback) s io).Safe console Prod.snd
      fun _ state => types state.1 = Γ := by
  simp only [check] at h
  split at h
  · cases h
  · rename_i t ht
    obtain ⟨Θ, hcases, hfallback⟩ := andThen_ok h
    obtain rfl := checkCases_eq t cases hcases
    obtain rfl := optionally_grown (nested_grown fun _ hb => check_grown fallback hb) hfallback
    obtain ⟨F, hF⟩ := optionally_ok hfallback
    rw [exec_switch]
    refine (ih.eval io ht).bind (fun _ => rfl) fun v io _ => ?_
    cases hv : Switch.find? v cases with
    | none => exact ih.execBranch io hF
    | some body =>
      obtain ⟨w, hw⟩ := find?_mem hv
      obtain ⟨B, hB⟩ := checkCases_mem hcases hw
      exact ih.execBranch io fun _ => hB

theorem exec_step {n : Nat} (ih : SoundAt p d console n) {stmt : Stmt} {s : Scope Value}
    {Γ : Scope Ty} (io : σ) (h : check p d stmt (types s) = (.ok (), Γ)) :
    (exec p d console (n + 1) stmt s io).Safe console Prod.snd
      fun _ state => types state.1 = Γ := by
  cases stmt with
  | declare name init =>
    rw [check] at h
    obtain ⟨t, ht, hd⟩ := checkDeclare_ok (change_ok h)
    rw [exec_declare]
    refine (ih.eval io ht).bind (fun _ => rfl) fun v io hv => ?_
    obtain ⟨s', hs', hΓ⟩ := types_declare (hv ▸ hd)
    exact change_safe hs' hΓ
  | assign name value =>
    rw [check] at h
    obtain ⟨t, ht, hl, rfl⟩ := checkAssign_ok (change_ok h)
    rw [exec_assign]
    refine (ih.eval io ht).bind (fun _ => rfl) fun v io hv => ?_
    obtain ⟨s', hs', hΓ⟩ := types_update (hv ▸ Scope.update_of_lookup hl)
    exact change_safe hs' hΓ
  | print value =>
    rw [check] at h
    obtain ⟨ht, rfl⟩ := test_ok h
    obtain ⟨t, ht⟩ := discard_eq_ok.mp ht
    rw [exec_print]
    refine (ih.eval io ht).bind (fun _ => rfl) fun v io _ => ?_
    have hprint : (Run.ofConsole (console.print v io)).Safe console id fun _ _ => True :=
      .ofConsole (fun _ _ _ => trivial) fun e io' he => .inl ⟨v, io, he⟩
    exact hprint.bind (fun _ => rfl) fun _ io _ => rfl
  | block body =>
    rw [check] at h
    obtain ⟨Θ, hb, rfl⟩ := nested_ok h
    rw [Eval.exec, leave_eq]
    refine (ih.execAll io (types_push s ▸ hb)).bind (fun _ => rfl) fun _ state hstate => ?_
    exact hstate ▸ types_pop state.1
  | cond test yes no => exact exec_cond_step ih io h
  | loop test body => exact exec_loop_step ih io h
  | switch scrutinee cases fallback => exact exec_switch_step ih io h
  | call name args =>
    rw [check] at h
    obtain ⟨ht, rfl⟩ := test_ok h
    obtain ⟨t, ht⟩ := discard_eq_ok.mp ht
    rw [exec_call]
    exact (ih.call io ht).bind (fun _ => rfl) fun _ _ _ => rfl
  | absent => simp [check] at h

theorem soundAt (hc : console.Typed) (hp : ∀ f ∈ p.funcs, checkFunc p d f = .ok ()) (n : Nat) :
    SoundAt p d console n := by
  induction n with
  | zero => exact soundAt_zero p d console
  | succ n ih =>
    exact {
      eval := eval_step hc ih
      call := call_step hp ih
      bindArgs := bindArgs_step ih
      condition := condition_step ih
      exec := exec_step ih
      execBranch := execBranch_step ih
      execAll := execAll_step ih
      execLoop := execLoop_step ih }

/-- A program that the checker accepts, and that ends, has met no type, scope or dispatch error and
no unknown construct: it has ended well, or with an error that its console gave. -/
theorem ends_of_typecheck (hc : console.Typed) (h : p.typecheck d = .ok ()) {io : σ}
    {outcome : Run (RunError ε) σ Unit} (hends : p.Ends d console io outcome) :
    (∃ io', outcome = .ok () io') ∨
      ∃ e io', outcome = .error (.console e) io' ∧ console.Raises e io' := by
  obtain ⟨_, hchecked, hmain⟩ := bind_eq_ok.mp h
  obtain ⟨t, hmain⟩ := discard_eq_ok.mp hmain
  rw [← types_empty] at hmain
  obtain ⟨hstarved, fuel, hrun⟩ := hends
  have hsound := soundAt hc (fun f hf => checkFuncs_mem hchecked hf) fuel
  have hsafe : outcome.Safe console id fun _ _ => True := by
    rw [← hrun, Program.run_eq]
    exact (hsound.call io hmain).bind (fun _ => rfl) fun _ _ _ => trivial
  cases outcome with
  | ok _ io' => exact .inl ⟨io', rfl⟩
  | error e io' =>
    cases e with
    | lang e => exact hsafe.elim
    | console e => exact .inr ⟨e, io', rfl, hsafe⟩
  | starved => exact (hstarved rfl).elim

/-- Asks for truth values, and prints the negation of each, until one is false. -/
def negations : Program where
  funcs :=
    [⟨entryPoint, .void, [],
      [.declare (utf8 "b") (.input .bool),
        .loop (.var (utf8 "b"))
          (.block
            [.print (.call (utf8 "negation") [.var (utf8 "b")]),
              .assign (utf8 "b") (.input .bool)])],
      none⟩,
    ⟨utf8 "negation", .bool, [⟨.bool, utf8 "x"⟩], [], some (.unary .not (.var (utf8 "x")))⟩]
  nodup := by decide

def negationsEnd : Streams where
  feed := some ⟨[], .endOfInput⟩
  lines := [utf8 "false"]
  prompts := [Feed.prompt .bool ++ utf8 "\n", Feed.prompt .bool ++ utf8 "\n"]

theorem negations_ends_of_typecheck :
    negations.typecheck ⟨.flat, .overload⟩ = .ok () ∧
      negations.Ends ⟨.flat, .overload⟩ Streams.console
        { feed := some (.ofText (utf8 "true\n")) } (.error (.console .endOfInput) negationsEnd) ∧
      Streams.console.Raises .endOfInput negationsEnd := by
  have hchecked : negations.typecheck ⟨.flat, .overload⟩ = .ok () := rfl
  have hends : negations.Ends ⟨.flat, .overload⟩ Streams.console
      { feed := some (.ofText (utf8 "true\n")) } (.error (.console .endOfInput) negationsEnd) :=
    ⟨by simp, 14, rfl⟩
  refine ⟨hchecked, hends, ?_⟩
  rcases ends_of_typecheck Streams.console_typed hchecked hends with ⟨_, h⟩ | ⟨e, io, h, hraises⟩
  · cases h
  · cases h
    exact hraises

end SmallLang.Typing
