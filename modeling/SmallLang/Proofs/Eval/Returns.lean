import SmallLang.Proofs.Eval.Callees
import SmallLang.Source

/-! Calls that are used as values. A function that declares a type of values is held to it at its
end; one that declares none yields no value as long as it has no result. -/

namespace SmallLang

theorem Run.bind_eq_ok {ε σ τ α β : Type} {r : Run ε σ α} {g : σ → τ} {f : α → σ → Run ε τ β}
    {b : β} {t : τ} (h : r.bind g f = .ok b t) : ∃ a s, r = .ok a s ∧ f a s = .ok b t := by
  cases r with
  | ok a s => exact ⟨a, s, rfl, h⟩
  | error e s => cases h
  | starved => cases h

theorem Run.ofExcept_eq_ok {ε σ α : Type} {x : Except LangError α} {io io' : σ} {a : α}
    (h : (Run.ofExcept io x : Run (RunError ε) σ α) = .ok a io') : x = .ok a ∧ io = io' := by
  cases x with
  | ok b =>
    cases h
    exact ⟨rfl, rfl⟩
  | error e => cases h

/-- What a function may give back. Whether it gives a value depends on its result, and the type of
the value on what it declares. -/
def Func.Gives (f : Func) : Option Value → Prop
  | none => f.result = none
  | some v => f.result.isSome = true ∧ (f.returns.isValueType = true → v.type = f.returns)

theorem Ty.isValueType_iff {t : Ty} : t.isValueType = true ↔ t = .num ∨ t = .bool := by
  cases t <;> simp [isValueType]

namespace Eval

variable {σ ε : Type} {p : Program} {d : Dialect} {c : Console σ ε}

theorem type_of_guardType {t : Ty} {v : Value} (ht : t.isValueType = true)
    (h : Rules.guardType t v = .ok ()) : v.type = t := by
  rcases Ty.isValueType_iff.mp ht with rfl | rfl
  · cases v with
    | num x => rfl
    | bool b => cases h
  · cases v with
    | num x => cases h
    | bool b => rfl

theorem guardResult_eq_ok {f : Func} {v : Value} {a : Option Value}
    (h : guardResult f v = .ok a) :
    a = some v ∧ (f.returns.isValueType = true → v.type = f.returns) := by
  rw [guardResult] at h
  split at h
  · rename_i ht
    cases hg : Rules.guardType f.returns v with
    | error e =>
      rw [hg] at h
      cases h
    | ok _ =>
      rw [hg] at h
      cases h
      exact ⟨rfl, fun _ => type_of_guardType ht hg⟩
  · rename_i ht
    cases h
    exact ⟨rfl, fun hvalue => absurd hvalue ht⟩

theorem finish_gives {n : Nat} {f : Func} {frame : Scope Value} {io io' : σ} {a : Option Value}
    (h : finish p d c n f frame io = .ok a io') : f.Gives a := by
  rw [finish] at h
  cases hresult : f.result with
  | none =>
    simp only [hresult] at h
    cases h
    exact hresult
  | some e =>
    simp only [hresult] at h
    obtain ⟨v, io, -, h⟩ := Run.bind_eq_ok h
    obtain ⟨rfl, htype⟩ := guardResult_eq_ok (Run.ofExcept_eq_ok h).1
    exact ⟨by rw [hresult]; rfl, htype⟩

theorem call_gives {n : Nat} {name : Name} {args : List Expr} {s : Scope Value} {io io' : σ}
    {a : Option Value} (h : call p d c n name args s io = .ok a io') :
    ∃ f, p.dispatch name = .ok f ∧ f.Gives a := by
  cases n with
  | zero =>
    rw [Eval.call] at h
    cases h
  | succ n =>
    rw [call_succ] at h
    obtain ⟨f, io, hf, h⟩ := Run.bind_eq_ok h
    obtain ⟨frame, io, -, h⟩ := Run.bind_eq_ok h
    obtain ⟨_, state, -, h⟩ := Run.bind_eq_ok h
    exact ⟨f, Program.dispatch_of_callee (Run.ofExcept_eq_ok hf).1, finish_gives h⟩

theorem eval_call_gives {n : Nat} {name : Name} {args : List Expr} {s : Scope Value} {io io' : σ}
    {v : Value} (h : eval p d c n (.call name args) s io = .ok v io') :
    ∃ f, p.dispatch name = .ok f ∧ f.Gives (some v) := by
  cases n with
  | zero =>
    rw [Eval.eval] at h
    cases h
  | succ n =>
    rw [eval_call] at h
    obtain ⟨a, io, ha, h⟩ := Run.bind_eq_ok h
    obtain ⟨f, hf, hgives⟩ := call_gives ha
    cases a with
    | none => cases (Run.ofExcept_eq_ok h).1
    | some w =>
      cases (Run.ofExcept_eq_ok h).1
      exact ⟨f, hf, hgives⟩

/-- If the function of a name has a result only where it declares a type of values, then a call of
it has no values but of that type. A call of a function that declares none fails when it is over. -/
theorem call_keeps_declared (p : Program) (d : Dialect) (c : Console σ ε) (name : Name)
    (hresult : ∀ f, p.dispatch name = .ok f → f.result.isSome = true →
      f.returns.isValueType = true) (args : List Expr) (s : Scope Value) (n : Nat) (io : σ) :
    (∀ v io', eval p d c n (.call name args) s io = .ok v io' →
      ∃ f, p.dispatch name = .ok f ∧ (f.returns = .num ∨ f.returns = .bool) ∧
        v.type = f.returns) ∧
    ∀ f, p.dispatch name = .ok f → f.returns = .void →
      (∀ v io', eval p d c n (.call name args) s io ≠ .ok v io') ∧
      ∀ a io', call p d c n name args s io = .ok a io' →
        eval p d c (n + 1) (.call name args) s io =
            .error (.lang (.voidValue .running name)) io' ∧
          (LangError.voidValue .running name).kind? = some .dynamicType := by
  have hvalue : ∀ v io', eval p d c n (.call name args) s io = .ok v io' →
      ∃ f, p.dispatch name = .ok f ∧ (f.returns = .num ∨ f.returns = .bool) ∧
        v.type = f.returns := by
    intro v io' h
    obtain ⟨f, hf, hsome, htype⟩ := eval_call_gives h
    have hdeclared := hresult f hf hsome
    exact ⟨f, hf, Ty.isValueType_iff.mp hdeclared, htype hdeclared⟩
  refine ⟨hvalue, fun f hf hvoid => ⟨fun v io' h => ?_, fun a io' h => ⟨?_, rfl⟩⟩⟩
  · obtain ⟨g, hg, hdeclared, -⟩ := hvalue v io' h
    cases hf.symm.trans hg
    simp [hvoid] at hdeclared
  · obtain ⟨g, hg, hgives⟩ := call_gives h
    cases hf.symm.trans hg
    rw [eval_call, h]
    -- what the call gives back is a value only if `f` has a result, which `void` rules out
    cases a with
    | none => rfl
    | some v => simpa [hvoid, Ty.isValueType] using hresult f hf hgives.1

def turning : Program where
  funcs :=
    [⟨utf8 "turned", .num, [⟨.num, utf8 "x"⟩], [], some (.unary .negate (.var (utf8 "x")))⟩,
    ⟨utf8 "show", .void, [⟨.num, utf8 "x"⟩], [.print (.var (utf8 "x"))], none⟩]
  nodup := by decide

def shown : Streams where
  feed := none
  lines := [(Value.num .one).text]

theorem turning_call_keeps_declared :
    (∃ v io', eval turning {} Streams.console 5 (.call (utf8 "turned") [.num .one])
        (.empty .chained) { feed := none } = .ok v io' ∧ v.type = .num) ∧
      eval turning {} Streams.console 6 (.call (utf8 "show") [.num .one]) (.empty .chained)
          { feed := none } = .error (.lang (.voidValue .running (utf8 "show"))) shown := by
  have hturned : eval turning {} Streams.console 5 (.call (utf8 "turned") [.num .one])
      (.empty .chained) { feed := none } = .ok (.num Number.one.negate) { feed := none } := rfl
  have hshow : call turning {} Streams.console 5 (utf8 "show") [.num .one] (.empty .chained)
      { feed := none } = .ok none shown := rfl
  have hvalue := (call_keeps_declared turning {} Streams.console (utf8 "turned")
    (fun f hf _ => by cases hf; rfl) [.num .one] (.empty .chained) 5 { feed := none }).1
  have hvoid := (call_keeps_declared turning {} Streams.console (utf8 "show")
    (fun f hf hsome => by cases hf; cases hsome) [.num .one] (.empty .chained) 5 { feed := none }).2
  obtain ⟨f, hf, -, htype⟩ := hvalue _ _ hturned
  cases hf
  exact ⟨⟨_, _, hturned, htype⟩, ((hvoid _ rfl rfl).2 none shown hshow).1⟩

def leak : Bytes := utf8 "void f() \x7b return true; \x7d void main() \x7b print f(); \x7d"

def leakProgram : Program where
  funcs :=
    [⟨utf8 "f", .void, [], [], some (.bool true)⟩,
    ⟨entryPoint, .void, [], [.print (.call (utf8 "f") [])], none⟩]
  nodup := by decide

/-- A function that declares `void` and has a result gives its value to the caller. -/
theorem leak_not_call_keeps_declared :
    Program.ofSource leak = .ok leakProgram ∧
      (leakProgram.dispatch (utf8 "f")).map Func.returns = .ok .void ∧
      (∀ d s io, eval leakProgram d Streams.console 3 (.call (utf8 "f") []) s io =
        .ok (.bool true) io) ∧
      Source.run {} Streams.console 6 leak { feed := none } =
        .ok () { feed := none, lines := [utf8 "true"] } := by
  have hsource : Program.ofSource leak = .ok leakProgram := rfl
  refine ⟨hsource, rfl, fun _ _ _ => rfl, ?_⟩
  rw [Source.run, hsource]
  rfl

end Eval

end SmallLang
