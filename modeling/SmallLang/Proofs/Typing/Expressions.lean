import SmallLang.Proofs.Typing.Checking
import SmallLang.Proofs.Typing.Safety

/-! Expressions and calls of checked programs. Along a run the types of the values in scope are,
frame by frame, the types that the checker had at that point. -/

namespace SmallLang.Typing

open Eval

variable {σ ε : Type} (p : Program) (d : Dialect) (console : Console σ ε)

def Returns (t : Ty) : Option Value → Prop
  | some v => v.type = t
  | none => t = .void

def types (s : Scope Value) : Scope Ty := s.map Value.type

theorem types_lookup (s : Scope Value) (name : Name) :
    (types s).lookup name = (s.lookup name).map Value.type := Scope.lookup_map _ s name

theorem types_empty (strategy : Strategy) : types (.empty strategy) = .empty strategy :=
  Scope.map_empty _ strategy

theorem types_push (s : Scope Value) : types s.push = (types s).push := (Scope.push_map _ s).symm

theorem types_pop (s : Scope Value) : types s.pop = (types s).pop := (Scope.pop_map _ s).symm

theorem types_declare {s : Scope Value} {name : Name} {v : Value} {Γ : Scope Ty}
    (h : (types s).declare name v.type = .ok Γ) :
    ∃ s', s.declare name v = .ok s' ∧ types s' = Γ := by
  rw [types, Scope.declare_map] at h
  cases hs : s.declare name v with
  | error e => simp [hs, Except.map] at h
  | ok s' => exact ⟨s', rfl, by simpa [hs, Except.map, types] using h⟩

theorem types_update {s : Scope Value} {name : Name} {v : Value} {Γ : Scope Ty}
    (h : (types s).update name v.type = .ok Γ) : ∃ s', s.update name v = .ok s' ∧ types s' = Γ := by
  rw [types, Scope.update_map] at h
  cases hs : s.update name v with
  | error e => simp [hs, Except.map] at h
  | ok s' => exact ⟨s', rfl, by simpa [hs, Except.map, types] using h⟩

/-- Runs of depth `n` keep to what the checker has found. -/
structure SoundAt (n : Nat) : Prop where
  eval : ∀ {e s t} (io : σ), infer p d (types s) e = .ok t →
    (eval p d console n e s io).Safe console id fun v _ => v.type = t
  call : ∀ {name args s t} (io : σ), checkCall p d (types s) name args = .ok t →
    (call p d console n name args s io).Safe console id fun v _ => Returns t v
  bindArgs : ∀ {params args s frame Γ} (io : σ), params.length = args.length →
    checkArgs p d (types s) params args = .ok () →
    parameterScope params (types frame) = .ok Γ →
    (bindArgs p d console n params args s frame io).Safe console id fun frame _ => types frame = Γ
  condition : ∀ {e s} (io : σ), checkCondition p d (types s) e = .ok () →
    (condition p d console n e s io).Safe console id fun _ _ => True
  exec : ∀ {stmt s Γ} (io : σ), check p d stmt (types s) = (.ok (), Γ) →
    (exec p d console n stmt s io).Safe console Prod.snd fun _ state => types state.1 = Γ
  execBranch : ∀ {stmt s Γ} (io : σ),
    (stmt.isAbsent = false → check p d stmt (types s).push = (.ok (), Γ)) →
    (execBranch p d console n stmt s io).Safe console Prod.snd
      fun _ state => types state.1 = types s
  execAll : ∀ {body s Γ} (io : σ), checkAll p d body (types s) = (.ok (), Γ) →
    (execAll p d console n body s io).Safe console Prod.snd fun _ state => types state.1 = Γ
  execLoop : ∀ {test body s Γ} (io : σ), checkCondition p d (types s) test = .ok () →
    check p d body (types s).push = (.ok (), Γ) →
    (execLoop p d console n test body s io).Safe console Prod.snd
      fun _ state => types state.1 = types s

theorem soundAt_zero : SoundAt p d console 0 where
  eval io h := by simp only [Eval.eval, Run.Safe]
  call io h := by simp only [Eval.call, Run.Safe]
  bindArgs io hl ha hp := by simp only [Eval.bindArgs, Run.Safe]
  condition io h := by simp only [Eval.condition, Run.Safe]
  exec io h := by simp only [Eval.exec, Run.Safe]
  execBranch io h := by simp only [Eval.execBranch, Run.Safe]
  execAll io h := by simp only [Eval.execAll, Run.Safe]
  execLoop io ht hb := by simp only [Eval.execLoop, Run.Safe]

variable {p d console}

theorem callee_running {name : Name} {count : Nat} {f : Func}
    (h : p.callee .checking name count = .ok f) :
    p.callee .running name count = .ok f ∧ f ∈ p.funcs ∧ f.params.length = count := by
  have hmem : f ∈ p.funcs := Program.callee_mem h
  obtain ⟨g, hg, h⟩ := bind_eq_ok.mp h
  split at h
  · rename_i hl
    cases h
    exact ⟨bind_eq_ok.mpr ⟨f, hg, by rw [if_pos hl]; rfl⟩, hmem, hl.symm⟩
  · cases h

theorem infer_call_ok {Γ : Scope Ty} {name : Name} {args : List Expr} {t : Ty}
    (h : infer p d Γ (.call name args) = .ok t) :
    checkCall p d Γ name args = .ok t ∧ t.isValueType = true := by
  rw [infer] at h
  obtain ⟨f, hf, h⟩ := bind_eq_ok.mp h
  obtain ⟨_, ha, h⟩ := bind_eq_ok.mp h
  split at h
  · rename_i hv
    cases h
    exact ⟨bind_eq_ok.mpr ⟨f, hf, bind_eq_ok.mpr ⟨_, ha, rfl⟩⟩, hv⟩
  · cases h

theorem eval_step (hc : console.Typed) {n : Nat} (ih : SoundAt p d console n) {e : Expr}
    {s : Scope Value} {t : Ty} (io : σ) (h : infer p d (types s) e = .ok t) :
    (eval p d console (n + 1) e s io).Safe console id fun v _ => v.type = t := by
  cases e with
  | num x =>
    rw [infer] at h
    cases h
    rfl
  | bool b =>
    rw [infer] at h
    cases h
    rfl
  | var name =>
    rw [infer, types_lookup] at h
    cases hv : s.lookup name with
    | error e => simp [hv, Except.map] at h
    | ok v =>
      rw [Eval.eval]
      exact .ofExcept hv (by simpa [hv, Except.map] using h)
  | input type =>
    rw [infer] at h
    obtain rfl : type = t := Except.ok.inj h
    rw [Eval.eval]
    exact .ofConsole (fun v io' hv => hc type io v io' hv) fun e io' he => .inr ⟨type, io, he⟩
  | binary op left right =>
    rw [infer] at h
    obtain ⟨tl, hl, h⟩ := bind_eq_ok.mp h
    obtain ⟨tr, hr, h⟩ := bind_eq_ok.mp h
    rw [eval_binary]
    refine (ih.eval io hl).bind (fun _ => rfl) fun l io hlt => ?_
    refine (ih.eval io hr).bind (fun _ => rfl) fun r io hrt => ?_
    subst hlt hrt
    obtain ⟨v, hv, ht⟩ := applyBinary_sound h
    exact .ofExcept hv ht
  | unary op sub =>
    rw [infer] at h
    obtain ⟨ts, hs, h⟩ := bind_eq_ok.mp h
    rw [eval_unary]
    refine (ih.eval io hs).bind (fun _ => rfl) fun v io hvt => ?_
    subst hvt
    obtain ⟨w, hw, ht⟩ := applyUnary_sound h
    exact .ofExcept hw ht
  | call name args =>
    obtain ⟨hcall, ht⟩ := infer_call_ok h
    rw [eval_call]
    refine (ih.call io hcall).bind (fun _ => rfl) fun v io hv => ?_
    cases v with
    | some v => exact .ofExcept rfl hv
    | none =>
      cases hv
      cases ht
  | absent => simp [infer] at h

theorem bindArgs_step {n : Nat} (ih : SoundAt p d console n) {params : List Param}
    {args : List Expr} {s frame : Scope Value} {Γ : Scope Ty} (io : σ)
    (hl : params.length = args.length) (ha : checkArgs p d (types s) params args = .ok ())
    (hp : parameterScope params (types frame) = .ok Γ) :
    (bindArgs p d console (n + 1) params args s frame io).Safe console id
      fun frame _ => types frame = Γ := by
  cases params with
  | nil =>
    rw [parameterScope] at hp
    cases hp
    cases args with
    | nil => simp only [Eval.bindArgs, Run.Safe]
    | cons e args => cases hl
  | cons param params =>
    cases args with
    | nil => cases hl
    | cons e args =>
      rw [checkArgs] at ha
      obtain ⟨t, ht, htail⟩ := bind_eq_ok.mp ha
      obtain ⟨_, hpt, hrest⟩ := bind_eq_ok.mp htail
      obtain rfl := Value.expectType_eq_ok.mp hpt
      rw [parameterScope] at hp
      obtain ⟨Θ, hd, hp⟩ := bind_eq_ok.mp hp
      rw [bindArgs_cons]
      refine (ih.eval io ht).bind (fun _ => rfl) fun v io hv => ?_
      obtain ⟨frame', hf, rfl⟩ := types_declare (hv ▸ hd)
      have hb : bindArg param v frame = .ok frame' :=
        bind_eq_ok.mpr ⟨(), hv ▸ guardType_type v, hf⟩
      rw [hb]
      exact ih.bindArgs io (Nat.succ.inj hl) hrest hp

theorem finish_safe {n : Nat} (ih : SoundAt p d console n) {f : Func} {frame : Scope Value}
    (io : σ) (h : checkResult p d (types frame) f = .ok ()) :
    (finish p d console n f frame io).Safe console id fun v _ => Returns f.returns v := by
  rw [checkResult] at h
  cases hr : f.result with
  | none =>
    simp only [hr] at h
    simp only [finish, hr]
    exact Value.expectType_eq_ok.mp h
  | some e =>
    simp only [hr] at h
    obtain ⟨t, ht, h⟩ := bind_eq_ok.mp h
    simp only [finish, hr]
    refine (ih.eval io ht).bind (fun _ => rfl) fun v io hv => ?_
    have hvt : v.type = f.returns := hv.trans (Value.expectType_eq_ok.mp h).symm
    refine .ofExcept (a := some v) ?_ hvt
    rw [guardResult, ← hvt, guardType_type]
    cases v <;> rfl

theorem call_step (hp : ∀ f ∈ p.funcs, checkFunc p d f = .ok ()) {n : Nat}
    (ih : SoundAt p d console n) {name : Name} {args : List Expr} {s : Scope Value} {t : Ty}
    (io : σ) (h : checkCall p d (types s) name args = .ok t) :
    (call p d console (n + 1) name args s io).Safe console id fun v _ => Returns t v := by
  obtain ⟨f, hf, ha, rfl⟩ := checkCall_ok h
  obtain ⟨hrun, hmem, hl⟩ := callee_running hf
  obtain ⟨Γ, Δ, hparams, hbody, hresult⟩ := checkFunc_ok (hp f hmem)
  rw [call_succ, hrun]
  -- the body runs in the scope of its parameters, whatever the scope of the caller is
  rw [← types_empty] at hparams
  refine (ih.bindArgs io hl ha hparams).bind (fun _ => rfl) fun frame io hframe => ?_
  refine (ih.execAll io (hframe ▸ hbody)).bind (fun _ => rfl) fun _ state hstate => ?_
  exact finish_safe ih state.2 (hstate ▸ hresult)

theorem condition_step {n : Nat} (ih : SoundAt p d console n) {e : Expr} {s : Scope Value}
    (io : σ) (h : checkCondition p d (types s) e = .ok ()) :
    (condition p d console (n + 1) e s io).Safe console id fun _ _ => True := by
  rw [condition_succ]
  refine (ih.eval io (checkCondition_ok h)).bind (fun _ => rfl) fun v io hv => ?_
  obtain ⟨b, hb⟩ := asBoolean_of_type hv
  exact .ofExcept hb trivial

end SmallLang.Typing
