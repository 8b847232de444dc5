import SmallLang.Proofs.Scope.Frames
import SmallLang.Typing

/-! What a successful check has established, construct by construct. It leaves the scope as it was,
with the names that the statement itself declares. -/

namespace SmallLang

theorem bind_eq_ok {ε α β : Type} {x : Except ε α} {f : α → Except ε β} {b : β} :
    (x >>= f) = .ok b ↔ ∃ a, x = .ok a ∧ f a = .ok b := by
  cases x <;> simp [bind, Except.bind]

theorem discard_eq_ok {ε α : Type} {x : Except ε α} :
    discard x = .ok () ↔ ∃ a, x = .ok a := by
  cases x <;> simp [discard, Functor.discard, Functor.mapConst, Except.map]

theorem Value.expectType_eq_ok {expected actual : Ty} :
    Value.expectType expected actual = .ok () ↔ expected = actual := by
  rw [Value.expectType]
  split <;> simp_all

namespace Typing

theorem andThen_ok {c c' : Check} {Γ Δ : Scope Ty} (h : andThen c c' Γ = (.ok (), Δ)) :
    ∃ Θ, c Γ = (.ok (), Θ) ∧ c' Θ = (.ok (), Δ) := by
  rw [andThen] at h
  split at h
  · rename_i Θ hc
    exact ⟨Θ, hc, h⟩
  · cases h

theorem nested_ok {c : Check} {Γ Δ : Scope Ty} (h : Scope.nested c Γ = (.ok (), Δ)) :
    ∃ Θ, c Γ.push = (.ok (), Θ) ∧ Δ = Θ.pop := by
  simp only [Scope.nested, Prod.mk.injEq] at h
  exact ⟨_, Prod.ext h.1 rfl, h.2.symm⟩

theorem test_ok {condition : Scope Ty → Except LangError Unit} {Γ Δ : Scope Ty}
    (h : test condition Γ = (.ok (), Δ)) : condition Γ = .ok () ∧ Δ = Γ := by
  simpa [test, eq_comm] using h

theorem test_andThen_ok {condition : Scope Ty → Except LangError Unit} {c : Check} {Γ Δ : Scope Ty}
    (h : andThen (test condition) c Γ = (.ok (), Δ)) :
    condition Γ = .ok () ∧ c Γ = (.ok (), Δ) := by
  obtain ⟨Θ, ht, hc⟩ := andThen_ok h
  obtain ⟨hcond, rfl⟩ := test_ok ht
  exact ⟨hcond, hc⟩

theorem change_ok {Γ Δ : Scope Ty} {result : Except LangError (Scope Ty)}
    (h : change Γ result = (.ok (), Δ)) : result = .ok Δ := by
  cases result with
  | error e => simp [change] at h
  | ok Θ => simpa [change] using h

variable {p : Program} {d : Dialect}

theorem checkDeclare_ok {Γ Δ : Scope Ty} {name : Name} {init : Expr}
    (h : checkDeclare p d Γ name init = .ok Δ) :
    ∃ t, infer p d Γ init = .ok t ∧ Γ.declare name t = .ok Δ :=
  bind_eq_ok.mp h

theorem checkAssign_ok {Γ Δ : Scope Ty} {name : Name} {value : Expr}
    (h : checkAssign p d Γ name value = .ok Δ) :
    ∃ t, infer p d Γ value = .ok t ∧ Γ.lookup name = .ok t ∧ Δ = Γ := by
  obtain ⟨t, ht, h⟩ := bind_eq_ok.mp h
  cases hl : Γ.lookup name with
  | error e => simp [hl] at h
  | ok current =>
    simp only [hl] at h
    obtain ⟨_, hc, hu⟩ := bind_eq_ok.mp h
    obtain rfl := Value.expectType_eq_ok.mp hc
    rw [Scope.update_of_lookup hl] at hu
    exact ⟨_, ht, rfl, by cases hu; rfl⟩

theorem checkCondition_ok {Γ : Scope Ty} {e : Expr} (h : checkCondition p d Γ e = .ok ()) :
    infer p d Γ e = .ok .bool := by
  obtain ⟨t, ht, h⟩ := bind_eq_ok.mp h
  rw [ht, Value.expectType_eq_ok.mp h]

theorem checkCall_ok {Γ : Scope Ty} {name : Name} {args : List Expr} {t : Ty}
    (h : checkCall p d Γ name args = .ok t) :
    ∃ f, p.callee .checking name args.length = .ok f ∧ checkArgs p d Γ f.params args = .ok () ∧
      f.returns = t := by
  obtain ⟨f, hf, h⟩ := bind_eq_ok.mp h
  obtain ⟨_, ha, h⟩ := bind_eq_ok.mp h
  exact ⟨f, hf, ha, by cases h; rfl⟩

theorem nested_grown {c : Check} {Γ Δ : Scope Ty}
    (hc : ∀ Θ, c Γ.push = (.ok (), Θ) → Γ.push.Grown Θ) (h : Scope.nested c Γ = (.ok (), Δ)) :
    Δ = Γ := by
  obtain ⟨Θ, hΘ, rfl⟩ := nested_ok h
  exact (hc Θ hΘ).pop_eq

theorem optionally_grown {c : Check} {absent : Bool} {Γ Δ : Scope Ty}
    (hc : c Γ = (.ok (), Δ) → Δ = Γ) (h : optionally absent c Γ = (.ok (), Δ)) : Δ = Γ := by
  rw [optionally] at h
  split at h
  · cases h
    rfl
  · exact hc h

mutual

theorem check_grown (stmt : Stmt) {Γ Δ : Scope Ty} (h : check p d stmt Γ = (.ok (), Δ)) :
    Γ.Grown Δ := by
  match stmt with
  | .declare name init =>
    rw [check] at h
    obtain ⟨t, -, ht⟩ := checkDeclare_ok (change_ok h)
    exact .declare .refl ht
  | .assign name value =>
    rw [check] at h
    obtain ⟨t, -, -, rfl⟩ := checkAssign_ok (change_ok h)
    exact .refl
  | .print value =>
    rw [check] at h
    obtain ⟨-, rfl⟩ := test_ok h
    exact .refl
  | .block body =>
    rw [check] at h
    obtain rfl := nested_grown (fun _ hb => checkAll_grown body hb) h
    exact .refl
  | .cond condition yes no =>
    rw [check] at h
    obtain ⟨Θ, hy, hn⟩ := andThen_ok (test_andThen_ok h).2
    obtain rfl := nested_grown (fun _ hb => check_grown yes hb) hy
    obtain rfl := optionally_grown (nested_grown (fun _ hb => check_grown no hb)) hn
    exact .refl
  | .loop condition body =>
    rw [check] at h
    refine (nested_grown (fun Θ hl => ?_) h) ▸ .refl
    exact (nested_grown (fun _ hb => check_grown body hb) (test_andThen_ok hl).2) ▸ .refl
  | .switch scrutinee cases fallback =>
    simp only [check] at h
    split at h
    · cases h
    · obtain ⟨Θ, hc, hf⟩ := andThen_ok h
      obtain rfl := checkCases_eq _ cases hc
      obtain rfl := optionally_grown (nested_grown (fun _ hb => check_grown fallback hb)) hf
      exact .refl
  | .call name args =>
    rw [check] at h
    obtain ⟨-, rfl⟩ := test_ok h
    exact .refl
  | .absent => simp [check] at h

theorem checkAll_grown (body : List Stmt) {Γ Δ : Scope Ty}
    (h : checkAll p d body Γ = (.ok (), Δ)) : Γ.Grown Δ := by
  match body with
  | [] =>
    simp only [checkAll, Prod.mk.injEq] at h
    exact h.2 ▸ .refl
  | stmt :: rest =>
    rw [checkAll] at h
    obtain ⟨Θ, hs, hr⟩ := andThen_ok h
    exact (check_grown stmt hs).trans (checkAll_grown rest hr)

theorem checkCases_eq (t : Ty) (cases : List (Value × Stmt)) {Γ Δ : Scope Ty}
    (h : checkCases p d t cases Γ = (.ok (), Δ)) : Δ = Γ := by
  match cases with
  | [] =>
    simp only [checkCases, Prod.mk.injEq] at h
    exact h.2.symm
  | (v, body) :: rest =>
    rw [checkCases] at h
    obtain ⟨Θ, hb, hr⟩ := andThen_ok (test_andThen_ok h).2
    obtain rfl := nested_grown (fun _ hb => check_grown body hb) hb
    exact checkCases_eq t rest hr

end

theorem checkCases_mem {t : Ty} {cases : List (Value × Stmt)} {Γ Δ : Scope Ty}
    (h : checkCases p d t cases Γ = (.ok (), Δ)) {v : Value} {body : Stmt}
    (hm : (v, body) ∈ cases) : ∃ Θ, check p d body Γ.push = (.ok (), Θ) := by
  induction cases generalizing Δ with
  | nil => cases hm
  | cons c rest ih =>
    obtain ⟨w, stmt⟩ := c
    rw [checkCases] at h
    obtain ⟨Θ, hb, hr⟩ := andThen_ok (test_andThen_ok h).2
    obtain rfl := nested_grown (fun _ hb => check_grown stmt hb) hb
    rcases List.mem_cons.mp hm with heq | hm
    · cases heq
      obtain ⟨Ξ, hΞ, -⟩ := nested_ok hb
      exact ⟨Ξ, hΞ⟩
    · exact ih hr hm

theorem checkFuncs_mem {funcs : List Func} (h : checkFuncs p d funcs = .ok ()) {f : Func}
    (hm : f ∈ funcs) : checkFunc p d f = .ok () := by
  induction funcs with
  | nil => cases hm
  | cons g rest ih =>
    obtain ⟨_, hg, hr⟩ := bind_eq_ok.mp h
    rcases List.mem_cons.mp hm with rfl | hm
    · exact hg
    · exact ih hr hm

theorem checkFunc_ok {f : Func} (h : checkFunc p d f = .ok ()) :
    ∃ Γ Δ, parameterScope f.params (Scope.empty d.strategy) = .ok Γ ∧
      checkAll p d f.body Γ = (.ok (), Δ) ∧ checkResult p d Δ f = .ok () := by
  obtain ⟨Γ, hp, h⟩ := bind_eq_ok.mp h
  split at h
  · cases h
  · rename_i Δ hb
    exact ⟨Γ, Δ, hp, hb, h⟩

end Typing

end SmallLang
