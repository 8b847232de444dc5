import SmallLang.Proofs.Eval.Names
import SmallLang.Proofs.Typing.Checking

/-! Checking a statement leaves the scope as it was, also where it fails; only a declaration that
succeeds adds its name. Together with what runs do: statements neither leak nor lose names. -/

namespace SmallLang

open Scope

namespace Typing

variable {p : Program} {d : Dialect}

/-- A check that leaves every scope as it was, whatever it answers. -/
def Stays (c : Check) : Prop := ∀ Γ, (c Γ).2 = Γ

theorem test_stays (condition : Scope Ty → Except LangError Unit) : Stays (test condition) :=
  fun _ => rfl

theorem nested_stays {c : Check} (h : ∀ Γ : Scope Ty, Γ.Grown (c Γ).2) :
    Stays (Scope.nested c) := by
  intro Γ
  exact (h Γ.push).pop_eq

theorem andThen_stays {c c' : Check} (h : Stays c) (h' : Stays c') : Stays (andThen c c') := by
  intro Γ
  have hΓ : (c Γ).2 = Γ := h Γ
  rw [andThen]
  split
  · rename_i Θ hc
    rw [hc] at hΓ
    rw [h' Θ]
    exact hΓ
  · rename_i e Θ hc
    rw [hc] at hΓ
    exact hΓ

theorem optionally_stays {c : Check} (h : Stays c) (absent : Bool) :
    Stays (optionally absent c) := by
  intro Γ
  rw [optionally]
  split
  · rfl
  · exact h Γ

/-- What the check of a statement in a scope can come to. -/
inductive Outcome (stmt : Stmt) (Γ : Scope Ty) : Except LangError Unit × Scope Ty → Prop
  | failed {e : LangError} : Outcome stmt Γ (.error e, Γ)
  | passed : stmt.declares = [] → Outcome stmt Γ (.ok (), Γ)
  | declared {name : Name} {init : Expr} {t : Ty} {Δ : Scope Ty} :
      stmt = .declare name init → Γ.declare name t = .ok Δ → Outcome stmt Γ (.ok (), Δ)

namespace Outcome

variable {stmt : Stmt} {Γ Δ : Scope Ty} {outcome : Except LangError Unit × Scope Ty}

theorem of_stays {c : Check} (h : Stays c) (hd : stmt.declares = []) (Γ : Scope Ty) :
    Outcome stmt Γ (c Γ) := by
  have hΓ : (c Γ).2 = Γ := h Γ
  rcases hc : c Γ with ⟨_ | _, Δ⟩
  · rw [hc] at hΓ
    cases hΓ
    exact .failed
  · rw [hc] at hΓ
    cases hΓ
    exact .passed hd

theorem grown (h : Outcome stmt Γ outcome) : Γ.Grown outcome.2 := by
  cases h with
  | failed => exact .refl
  | passed _ => exact .refl
  | declared _ hd => exact .declare .refl hd

theorem adds_of_ok (h : Outcome stmt Γ (.ok (), Δ)) : Adds stmt.declares Γ Δ := by
  cases h with
  | passed hd =>
    rw [hd]
    exact .refl Γ
  | declared hs hd =>
    rw [hs]
    exact declare_adds hd

theorem eq_of_error {e : LangError} (h : Outcome stmt Γ (.error e, Δ)) : Δ = Γ := by
  cases h
  rfl

theorem entryIn_eq (h : Outcome stmt Γ outcome) {i : Nat} {name : Name} {t : Ty}
    (ht : Γ.entryIn i name = some t) : outcome.2.entryIn i name = some t := by
  cases h with
  | failed => exact ht
  | passed _ => exact ht
  | declared _ hd => exact entryIn_declare hd ht

end Outcome

mutual

theorem check_outcome (stmt : Stmt) (Γ : Scope Ty) : Outcome stmt Γ (check p d stmt Γ) := by
  match stmt with
  | .declare name init =>
    simp only [check]
    cases h : checkDeclare p d Γ name init with
    | error e => exact .failed
    | ok Δ =>
      obtain ⟨t, -, ht⟩ := checkDeclare_ok h
      exact .declared rfl ht
  | .assign name value =>
    simp only [check]
    cases h : checkAssign p d Γ name value with
    | error e => exact .failed
    | ok Δ =>
      obtain ⟨t, -, -, rfl⟩ := checkAssign_ok h
      exact .passed rfl
  | .print value =>
    rw [check]
    exact .of_stays (test_stays _) rfl Γ
  | .block body =>
    rw [check]
    exact .of_stays (nested_stays (checkAll_grows body)) rfl Γ
  | .cond condition yes no =>
    rw [check]
    apply Outcome.of_stays _ rfl
    apply andThen_stays (test_stays _)
    apply andThen_stays (nested_stays fun Γ => (check_outcome yes Γ).grown)
    exact optionally_stays (nested_stays fun Γ => (check_outcome no Γ).grown) _
  | .loop condition body =>
    rw [check]
    have hbody : Stays (Scope.nested (check p d body)) :=
      nested_stays fun Γ => (check_outcome body Γ).grown
    have hround : Stays (andThen (test fun s => checkCondition p d s condition)
        (Scope.nested (check p d body))) := andThen_stays (test_stays _) hbody
    refine .of_stays (nested_stays fun Γ => ?_) rfl Γ
    rw [hround Γ]
    exact .refl
  | .switch scrutinee cases fallback =>
    simp only [check]
    split
    · exact .failed
    · apply Outcome.of_stays _ rfl
      apply andThen_stays (checkCases_stays _ cases)
      exact optionally_stays (nested_stays fun Γ => (check_outcome fallback Γ).grown) _
  | .call name args =>
    rw [check]
    exact .of_stays (test_stays _) rfl Γ
  | .absent =>
    rw [check]
    exact .failed

theorem checkAll_grows (body : List Stmt) (Γ : Scope Ty) : Γ.Grown (checkAll p d body Γ).2 := by
  match body with
  | [] =>
    rw [checkAll]
    exact .refl
  | stmt :: rest =>
    have hstmt : Γ.Grown (check p d stmt Γ).2 := (check_outcome stmt Γ).grown
    rw [checkAll, andThen]
    split
    · rename_i Θ hc
      rw [hc] at hstmt
      exact hstmt.trans (checkAll_grows rest Θ)
    · rename_i e Θ hc
      rw [hc] at hstmt
      exact hstmt

theorem checkCases_stays (t : Ty) (cases : List (Value × Stmt)) :
    Stays (checkCases p d t cases) := by
  match cases with
  | [] =>
    rw [checkCases]
    exact fun _ => rfl
  | (v, body) :: rest =>
    rw [checkCases]
    apply andThen_stays (test_stays _)
    exact andThen_stays (nested_stays fun Γ => (check_outcome body Γ).grown)
      (checkCases_stays t rest)

end

end Typing

/-- Whether a statement runs to its end or fails, and whether it passes its check or not, all frames
keep their names, but for the name that a declaration adds to the innermost one; a check moreover
keeps the types. All iterations of a loop start with the same names. -/
theorem statements_keep_names {σ ε : Type} (p : Program) (d : Dialect) (c : Console σ ε)
    (stmt : Stmt) :
    (∀ (n : Nat) (s t : Scope Value) (io io' : σ),
      (Eval.exec p d c n stmt s io = .ok () (t, io') →
        t.frameNames = s.frameNames.modifyHead (stmt.declares ++ ·) ∧
          t.activeNames = stmt.declares ++ s.activeNames) ∧
      ∀ e, Eval.exec p d c n stmt s io = .error e (t, io') →
        t.frameNames = s.frameNames ∧ t.activeNames = s.activeNames) ∧
    (∀ Γ Δ : Scope Ty,
      (Typing.check p d stmt Γ = (.ok (), Δ) →
        Δ.frameNames = Γ.frameNames.modifyHead (stmt.declares ++ ·) ∧
          Δ.activeNames = stmt.declares ++ Γ.activeNames) ∧
      (∀ e, Typing.check p d stmt Γ = (.error e, Δ) →
        Δ.frameNames = Γ.frameNames ∧ Δ.activeNames = Γ.activeNames) ∧
      ∀ answer, Typing.check p d stmt Γ = (answer, Δ) →
        ∀ i name type, Γ.entryIn i name = some type → Δ.entryIn i name = some type) ∧
    ∀ test body, stmt = .loop test body → ∀ (n : Nat) (s : Scope Value) (io : σ),
      Eval.exec p d c (n + 1) stmt s io =
        Eval.leave (Eval.execLoop p d c n test body s.push io) ∧
      ∀ m t io', Eval.Iteration p d c test body n (s.push, io) m (t, io') →
        t.frameNames = s.push.frameNames ∧ t.activeNames = s.push.activeNames ∧
        Eval.execLoop p d c n test body s.push io = Eval.execLoop p d c m test body t io' := by
  refine ⟨fun n s t io io' => ?_, fun Γ Δ => ?_, ?_⟩
  · have hexec := (Eval.namesAt n).exec (p := p) (d := d) (c := c) stmt s io
    constructor
    · intro h
      rw [h] at hexec
      exact ⟨hexec.frameNames, hexec.activeNames⟩
    · intro e h
      rw [h] at hexec
      exact ⟨hexec.frameNames_eq, hexec.activeNames⟩
  · have hcheck := Typing.check_outcome (p := p) (d := d) stmt Γ
    refine ⟨fun h => ?_, fun e h => ?_, fun answer h i name type ht => ?_⟩
    · rw [h] at hcheck
      exact ⟨hcheck.adds_of_ok.frameNames, hcheck.adds_of_ok.activeNames⟩
    · rw [h] at hcheck
      rw [hcheck.eq_of_error]
      exact ⟨rfl, rfl⟩
    · rw [h] at hcheck
      exact hcheck.entryIn_eq ht
  · rintro test body rfl n s io
    refine ⟨by simp only [Eval.exec], fun m t io' h => ?_⟩
    exact ⟨h.adds.frameNames_eq, h.adds.activeNames, h.execLoop_eq⟩

def clearMore : Stmt :=
  .block [.declare (utf8 "last") (.bool false), .assign (utf8 "more") (.var (utf8 "last"))]

def moreScope {α : Type} (x : α) : Scope α := .flat ⟨[(utf8 "more", x)], [utf8 "more"], []⟩

def lastScope {α : Type} (x : α) : Scope α :=
  .flat ⟨[(utf8 "last", x), (utf8 "more", x)], [utf8 "last"], [[utf8 "more"]]⟩

def silence : Console Unit Unit where
  print _ io := (.ok (), io)
  input _ io := (.error (), io)

theorem clearMore_loop_keeps_names :
    (Eval.exec ⟨[], by decide⟩ ⟨.flat, .strict⟩ silence 8 (.loop (.var (utf8 "more")) clearMore)
          (moreScope (.bool true)) () = .ok () (moreScope (.bool false), ()) ∧
        (moreScope (Value.bool false)).frameNames = (moreScope (Value.bool true)).frameNames) ∧
      (∃ t, Eval.exec ⟨[], by decide⟩ ⟨.flat, .strict⟩ silence 8
          (.loop (.var (utf8 "more")) clearMore) (lastScope (.bool true)) () =
            .error (.lang (.duplicateVariable (utf8 "last"))) (t, ()) ∧
        t.frameNames = [[utf8 "last"], [utf8 "more"]]) ∧
      (Typing.check ⟨[], by decide⟩ ⟨.flat, .strict⟩ (.loop (.var (utf8 "more")) clearMore)
          (moreScope .bool) = (.ok (), moreScope .bool) ∧
        (moreScope Ty.bool).entryIn 0 (utf8 "more") = some .bool) ∧
      (Eval.Iteration ⟨[], by decide⟩ ⟨.flat, .strict⟩ silence (.var (utf8 "more")) clearMore 7
          ((moreScope (.bool true)).push, ()) 6 ((moreScope (.bool false)).push, ()) ∧
        (moreScope (Value.bool false)).push.activeNames =
          (moreScope (Value.bool true)).push.activeNames) := by
  obtain ⟨hexec, hcheck, hloop⟩ :=
    statements_keep_names ⟨[], by decide⟩ ⟨.flat, .strict⟩ silence
      (.loop (.var (utf8 "more")) clearMore)
  have hrun : Eval.exec ⟨[], by decide⟩ ⟨.flat, .strict⟩ silence 8
      (.loop (.var (utf8 "more")) clearMore) (moreScope (.bool true)) () =
        .ok () (moreScope (.bool false), ()) := rfl
  have htype : Typing.check ⟨[], by decide⟩ ⟨.flat, .strict⟩
      (.loop (.var (utf8 "more")) clearMore) (moreScope .bool) = (.ok (), moreScope .bool) := rfl
  have hsecond : Eval.Iteration ⟨[], by decide⟩ ⟨.flat, .strict⟩ silence (.var (utf8 "more"))
      clearMore 7 ((moreScope (.bool true)).push, ()) 6 ((moreScope (.bool false)).push, ()) :=
    .next .first rfl rfl
  have hfail : ∃ t, Eval.exec ⟨[], by decide⟩ ⟨.flat, .strict⟩ silence 8
      (.loop (.var (utf8 "more")) clearMore) (lastScope (.bool true)) () =
        .error (.lang (.duplicateVariable (utf8 "last"))) (t, ()) := ⟨_, rfl⟩
  obtain ⟨t, hfail⟩ := hfail
  refine ⟨⟨hrun, ((hexec _ _ _ _ _).1 hrun).1⟩, ⟨t, hfail, ((hexec _ _ _ _ _).2 _ hfail).1⟩,
    ⟨htype, (hcheck _ _).2.2 _ htype 0 _ _ rfl⟩, hsecond, ?_⟩
  exact ((hloop _ _ rfl 7 _ ()).2 _ _ _ hsecond).2.1

end SmallLang
