import SmallLang.Program

/-! The kinds of errors that a phase raises, and the operations that raise no others. -/

namespace SmallLang

/-- The type errors of the phase, and those that both phases have. -/
def Phase.kinds (phase : Phase) : List ErrorKind := [phase.typeError, .scope, .dispatch]

def LangError.OfPhase (phase : Phase) (e : LangError) : Prop :=
  ∃ kind ∈ phase.kinds, e.kind? = some kind

/-- A result that is an error of the phase, if it is one at all. -/
def Raises (phase : Phase) {α : Type} (x : Except LangError α) : Prop :=
  ∀ e, x = .error e → e.OfPhase phase

namespace Raises

variable {phase : Phase} {α β : Type}

theorem ok (a : α) : Raises phase (.ok a) := by
  intro e h
  cases h

theorem typeError {e : LangError} (h : e.kind? = some phase.typeError) :
    Raises phase (.error e : Except LangError α) := by
  rintro _ ⟨⟩
  exact ⟨phase.typeError, by simp [Phase.kinds], h⟩

theorem scopeError {e : LangError} (h : e.kind? = some .scope) :
    Raises phase (.error e : Except LangError α) := by
  rintro _ ⟨⟩
  exact ⟨.scope, by simp [Phase.kinds], h⟩

theorem dispatchError {e : LangError} (h : e.kind? = some .dispatch) :
    Raises phase (.error e : Except LangError α) := by
  rintro _ ⟨⟩
  exact ⟨.dispatch, by simp [Phase.kinds], h⟩

theorem bind {x : Except LangError α} {f : α → Except LangError β} (h : Raises phase x)
    (hf : ∀ a, Raises phase (f a)) : Raises phase (x >>= f) := by
  cases x with
  | ok a => exact hf a
  | error e =>
    rintro _ ⟨⟩
    exact h e rfl

theorem discard {x : Except LangError α} (h : Raises phase x) : Raises phase (discard x) := by
  cases x with
  | ok a => exact .ok _
  | error e =>
    rintro _ ⟨⟩
    exact h e rfl

end Raises

section Operations

variable {phase : Phase} {α : Type}

theorem lookup_raises (s : Scope α) (name : Name) : Raises phase (s.lookup name) := by
  cases s with
  | flat s =>
    simp only [Scope.lookup, FlatScope.lookup]
    split
    · exact .ok _
    · exact .scopeError rfl
  | chained s =>
    simp only [Scope.lookup, ChainedScope.lookup]
    split
    · exact .ok _
    · exact .scopeError rfl

theorem declare_raises (s : Scope α) (name : Name) (x : α) :
    Raises phase (s.declare name x) := by
  cases s with
  | flat s =>
    simp only [Scope.declare, FlatScope.declare]
    split
    · exact .scopeError rfl
    · exact .ok _
  | chained s =>
    simp only [Scope.declare, ChainedScope.declare]
    split
    · exact .scopeError rfl
    · exact .ok _

theorem update_raises (s : Scope α) (name : Name) (x : α) :
    Raises phase (s.update name x) := by
  cases s with
  | flat s =>
    simp only [Scope.update, FlatScope.update]
    split
    · exact .ok _
    · exact .scopeError rfl
  | chained s =>
    simp only [Scope.update, ChainedScope.update]
    split
    · exact .ok _
    · split
      · exact .ok _
      · exact .scopeError rfl

theorem callee_raises (p : Program) (name : Name) (count : Nat) :
    Raises phase (p.callee phase name count) := by
  have hdispatch : Raises phase (p.dispatch name) := by
    rw [Program.dispatch]
    split
    · exact .ok _
    · exact .dispatchError rfl
  refine hdispatch.bind fun f => ?_
  split
  · exact .ok _
  · exact .typeError rfl

end Operations

section Typing

theorem expectType_raises (expected actual : Ty) :
    Raises .checking (Value.expectType expected actual) := by
  rw [Value.expectType]
  split
  · exact .ok _
  · exact .typeError rfl

theorem operands_raises (expected left right : Ty) :
    Raises .checking (Rules.operands expected left right) :=
  (expectType_raises expected left).bind fun _ => expectType_raises expected right

theorem binaryType_raises (rules : Rules) {op : BinaryOp} (hop : op ≠ .unknown) (l r : Ty) :
    Raises .checking (rules.binaryType op l r) := by
  have hlogical : Raises .checking (rules.binaryType .and l r) := by
    cases rules with
    | strict => exact (operands_raises .bool l r).bind fun _ => .ok _
    | overload => exact (expectType_raises l r).bind fun _ => .ok _
  cases op with
  | and => exact hlogical
  | or => exact hlogical
  | equal => exact (expectType_raises l r).bind fun _ => .ok _
  | unknown => exact (hop rfl).elim
  | _ => exact (operands_raises .num l r).bind fun _ => .ok _

theorem unaryType_raises (op : UnaryOp) (t : Ty) : Raises .checking (Rules.unaryType op t) := by
  cases op with
  | negate => exact (expectType_raises .num t).bind fun _ => .ok _
  | not => exact (expectType_raises .bool t).bind fun _ => .ok _

end Typing

section Values

theorem asNumber_raises (v : Value) : Raises .running v.asNumber := by
  cases v with
  | num x => exact .ok _
  | bool b => exact .typeError rfl

theorem asBoolean_raises (v : Value) : Raises .running v.asBoolean := by
  cases v with
  | num x => exact .typeError rfl
  | bool b => exact .ok _

theorem onNumbers_raises (f : Number → Number → Value) (l r : Value) :
    Raises .running (Rules.onNumbers f l r) :=
  (asNumber_raises l).bind fun _ => (asNumber_raises r).bind fun _ => .ok _

theorem onBooleans_raises (f : Bool → Bool → Bool) (l r : Value) :
    Raises .running (Rules.onBooleans f l r) :=
  (asBoolean_raises l).bind fun _ => (asBoolean_raises r).bind fun _ => .ok _

theorem logical_raises (rules : Rules) (f : Bool → Bool → Bool) (g : Number → Number → Number)
    (l r : Value) : Raises .running (rules.logical f g l r) := by
  cases rules with
  | strict => exact onBooleans_raises f l r
  | overload =>
    cases l with
    | num x => exact onNumbers_raises _ (.num x) r
    | bool b => exact onBooleans_raises f (.bool b) r

theorem expectSameType_raises (v w : Value) : Raises .running (Value.expectSameType v w) := by
  rw [Value.expectSameType]
  split
  · exact .ok _
  · exact .typeError rfl

theorem applyBinary_raises (rules : Rules) {op : BinaryOp} (hop : op ≠ .unknown) (l r : Value) :
    Raises .running (rules.applyBinary op l r) := by
  cases op with
  | and => exact logical_raises rules _ _ l r
  | or => exact logical_raises rules _ _ l r
  | equal => exact (expectSameType_raises l r).bind fun _ => .ok _
  | unknown => exact (hop rfl).elim
  | _ => exact onNumbers_raises _ l r

theorem applyUnary_raises (op : UnaryOp) (v : Value) : Raises .running (Rules.applyUnary op v) := by
  cases op with
  | negate => exact (asNumber_raises v).bind fun _ => .ok _
  | not => exact (asBoolean_raises v).bind fun _ => .ok _

theorem guardType_raises (type : Ty) (v : Value) : Raises .running (Rules.guardType type v) := by
  cases type with
  | bool => exact (asBoolean_raises v).discard
  | _ => exact (asNumber_raises v).discard

end Values

end SmallLang
