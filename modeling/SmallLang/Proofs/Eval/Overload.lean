import SmallLang.Console
import SmallLang.Proofs.Eval.Recording
import SmallLang.Proofs.Typing.Simulation

/-! The rules that extend `&&` and `||` to numbers. Where the strict rules do not object to a type,
a program is checked alike and runs alike with both, and says the same to its console. -/

namespace SmallLang

/-- A type error of the phase: what the strict rules answer where only the others have an answer. -/
def IsTypeError (phase : Phase) (e : LangError) : Prop := e.kind? = some phase.typeError

namespace Rules

theorem logical_follows (f : Bool → Bool → Bool) (g : Number → Number → Number) (l r : Value) :
    Follows (IsTypeError .running) Eq (strict.logical f g l r) (overload.logical f g l r) := by
  cases l with
  | num x =>
    have hstrict : strict.logical f g (.num x) r = .error (.notBoolean (.num x)) := rfl
    rw [hstrict]
    exact .excused rfl
  | bool a => exact .refl _

theorem applyBinary_follows (op : BinaryOp) (l r : Value) :
    Follows (IsTypeError .running) Eq (strict.applyBinary op l r)
      (overload.applyBinary op l r) := by
  cases op with
  | and => exact logical_follows _ _ l r
  | or => exact logical_follows _ _ l r
  | _ => exact .refl _

theorem logicalType_follows {op : BinaryOp} (hop : op = .and ∨ op = .or) (l r : Ty) :
    Follows (IsTypeError .checking) Eq (strict.binaryType op l r) (overload.binaryType op l r) := by
  have hstrict : strict.binaryType op l r = (operands .bool l r >>= fun _ => .ok .bool) := by
    rcases hop with rfl | rfl <;> rfl
  have hoverload : overload.binaryType op l r = (Value.expectType l r >>= fun _ => .ok l) := by
    rcases hop with rfl | rfl <;> rfl
  rw [hstrict, hoverload]
  by_cases hl : Ty.bool = l
  · subst hl
    by_cases hr : Ty.bool = r
    · subst hr
      exact .refl _
    · simp only [operands, Value.expectType, if_neg hr]
      exact .excused rfl
  · simp only [operands, Value.expectType, if_neg hl]
    exact .excused rfl

theorem binaryType_follows (op : BinaryOp) (l r : Ty) :
    Follows (IsTypeError .checking) Eq (strict.binaryType op l r) (overload.binaryType op l r) := by
  cases op with
  | and => exact logicalType_follows (.inl rfl) l r
  | or => exact logicalType_follows (.inr rfl) l r
  | _ => exact .refl _

end Rules

namespace Program

/-- A check under the strict rules that ends without a type error ends alike under the extended
ones; so does a run, with one record of prints and requests. -/
theorem overload_extends_strict (p : Program) (strategy : Strategy) :
    ((∀ e, p.typecheck ⟨strategy, .strict⟩ = .error e → e.kind? ≠ some .staticType) →
      p.typecheck ⟨strategy, .overload⟩ = p.typecheck ⟨strategy, .strict⟩) ∧
    ∀ {σ ε : Type} (console : Console σ ε) (io : σ) (outcome : Run (RunError ε) σ Unit),
      p.Ends ⟨strategy, .strict⟩ console io outcome →
      (∀ e state, outcome = .error (.lang e) state → e.kind? ≠ some .dynamicType) →
      p.Ends ⟨strategy, .overload⟩ console io outcome ∧
        ∃ record, ∀ rules,
          p.Ends ⟨strategy, rules⟩ console.recorded (io, []) (outcome.mapState (·, record)) := by
  constructor
  · intro htyped
    have hops : Typing.OperatorsFollow (IsTypeError .checking) ⟨strategy, .strict⟩
        ⟨strategy, .overload⟩ := Rules.binaryType_follows
    exact (Typing.typecheck_follows Scope.isSimulation_eq hops rfl).eq_of_not htyped
  · intro σ ε console io outcome hends htyped
    have hops : Eval.OperatorsFollow (IsTypeError .running) ⟨strategy, .strict⟩
        ⟨strategy, .overload⟩ := Rules.applyBinary_follows
    refine ⟨hends.follow Scope.isSimulation_eq hops rfl htyped, ?_⟩
    obtain ⟨record, hstrict, hoverload⟩ :=
      hends.follow_recorded Scope.isSimulation_eq hops rfl htyped
    refine ⟨record, fun rules => ?_⟩
    cases rules with
    | strict => exact hstrict
    | overload => exact hoverload

/-- Prints whether a gate is open or was asked to be, until an answer closes it. -/
def gate : Program where
  funcs :=
    [⟨entryPoint, .void, [],
      [.declare (utf8 "open") (.bool true),
        .loop (.binary .and (.var (utf8 "open")) (.unary .not (.bool false)))
          (.block
            [.declare (utf8 "asked") (.input .bool),
              .print (.binary .or (.var (utf8 "open")) (.var (utf8 "asked"))),
              .assign (utf8 "open") (.var (utf8 "asked"))])],
      none⟩]
  nodup := by decide

def gateEnd : Streams where
  feed := some ⟨[], .endOfInput⟩
  lines := [utf8 "true", utf8 "true"]
  prompts := [Feed.prompt .bool ++ utf8 "\n", Feed.prompt .bool ++ utf8 "\n"]

theorem gate_overload_extends_strict :
    (gate.typecheck ⟨.flat, .strict⟩ = .ok () ∧ gate.typecheck ⟨.flat, .overload⟩ = .ok ()) ∧
      gate.Ends ⟨.flat, .strict⟩ Streams.console
        { feed := some (.ofText (utf8 "true\nfalse\n")) } (.ok () gateEnd) ∧
      gate.Ends ⟨.flat, .overload⟩ Streams.console
        { feed := some (.ofText (utf8 "true\nfalse\n")) } (.ok () gateEnd) := by
  have hstrict : gate.typecheck ⟨.flat, .strict⟩ = .ok () := rfl
  have hends : gate.Ends ⟨.flat, .strict⟩ Streams.console
      { feed := some (.ofText (utf8 "true\nfalse\n")) } (.ok () gateEnd) :=
    ⟨by simp, 14, rfl⟩
  obtain ⟨hchecked, hruns⟩ := overload_extends_strict gate .flat
  refine ⟨⟨hstrict, (hchecked ?_).trans hstrict⟩, hends, (hruns _ _ _ hends ?_).1⟩
  · simp [hstrict]
  · simp

end Program

end SmallLang
