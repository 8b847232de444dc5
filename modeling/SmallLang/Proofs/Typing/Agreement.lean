import Mathlib.Data.List.Forall2
import SmallLang.Proofs.Typing.Expressions

/-! Expressions without calls and requests. The checker and a run decide the same about them: the
first subexpression that the one rejects is the first that the other fails at. -/

namespace SmallLang

/-- What the phases find out about one expression: a type and a value of it, one error of the scope
or of a malformed tree, or a type error each. -/
inductive Alike : Except LangError Ty → Except LangError Value → Prop
  | value (v : Value) : Alike (.ok v.type) (.ok v)
  | scope {e : LangError} : e.kind? = some .scope → Alike (.error e) (.error e)
  | malformed {e : LangError} : e = .missingExpression ∨ e = .unknownOperator →
      Alike (.error e) (.error e)
  | typing {e e' : LangError} : e.kind? = some .staticType → e'.kind? = some .dynamicType →
      Alike (.error e) (.error e')

theorem Alike.bind {x : Except LangError Ty} {y : Except LangError Value}
    {f : Ty → Except LangError Ty} {g : Value → Except LangError Value} (h : Alike x y)
    (hf : ∀ v, Alike (f v.type) (g v)) : Alike (x >>= f) (y >>= g) := by
  cases h with
  | value v => exact hf v
  | scope he => exact .scope he
  | malformed he => exact .malformed he
  | typing he he' => exact .typing he he'

theorem Alike.ok_iff {x : Except LangError Ty} {y : Except LangError Value} (h : Alike x y)
    (t : Ty) : x = .ok t ↔ ∃ v, y = .ok v ∧ v.type = t := by
  cases h <;> simp

namespace Rules

theorem onNumbers_alike {t : Ty} {f : Number → Number → Value} (hf : ∀ x y, (f x y).type = t)
    (l r : Value) : Alike (operands .num l.type r.type >>= fun _ => .ok t) (onNumbers f l r) := by
  cases l with
  | bool a => exact .typing rfl rfl
  | num x =>
    cases r with
    | bool b => exact .typing rfl rfl
    | num y =>
      have hvalue := Alike.value (f x y)
      rwa [hf] at hvalue

theorem onBooleans_alike (f : Bool → Bool → Bool) (l r : Value) :
    Alike (operands .bool l.type r.type >>= fun _ => .ok .bool) (onBooleans f l r) := by
  cases l with
  | num x => exact .typing rfl rfl
  | bool a =>
    cases r with
    | num y => exact .typing rfl rfl
    | bool b => exact .value (.bool (f a b))

theorem logical_alike (f : Bool → Bool → Bool) (g : Number → Number → Number) (l r : Value) :
    Alike (Value.expectType l.type r.type >>= fun _ => .ok l.type) (overload.logical f g l r) := by
  -- the left operand alone chooses between `f` and `g`, in both phases
  cases l with
  | num x =>
    cases r with
    | num y => exact .value (.num (g x y))
    | bool b => exact .typing rfl rfl
  | bool a =>
    cases r with
    | num y => exact .typing rfl rfl
    | bool b => exact .value (.bool (f a b))

theorem equal_alike (l r : Value) :
    Alike (Value.expectType l.type r.type >>= fun _ => .ok .bool)
      (Value.expectSameType l r >>= fun _ => .ok (.bool (l.equal r))) := by
  rw [Value.expectType, Value.expectSameType]
  split
  · exact .value (.bool (l.equal r))
  · exact .typing rfl rfl

theorem applyBinary_alike (rules : Rules) (op : BinaryOp) (l r : Value) :
    Alike (rules.binaryType op l.type r.type) (rules.applyBinary op l r) := by
  cases op with
  | equal => exact equal_alike l r
  | and =>
    cases rules with
    | strict => exact onBooleans_alike _ l r
    | overload => exact logical_alike _ _ l r
  | or =>
    cases rules with
    | strict => exact onBooleans_alike _ l r
    | overload => exact logical_alike _ _ l r
  | unknown => exact .malformed (.inr rfl)
  | _ =>
    apply onNumbers_alike
    intros
    rfl

theorem applyUnary_alike (op : UnaryOp) (v : Value) :
    Alike (unaryType op v.type) (applyUnary op v) := by
  cases op with
  | not =>
    cases v with
    | num x => exact .typing rfl rfl
    | bool b => exact .value (.bool !b)
  | negate =>
    cases v with
    | num x => exact .value (.num x.negate)
    | bool b => exact .typing rfl rfl

end Rules

namespace Expr

/-- The expression has no calls and asks for no input. -/
def IsPure : Expr → Prop
  | .binary _ left right => left.IsPure ∧ right.IsPure
  | .unary _ sub => sub.IsPure
  | .input _ => False
  | .call _ _ => False
  | _ => True

def depth : Expr → Nat
  | .binary _ left right => max left.depth right.depth + 1
  | .unary _ sub => sub.depth + 1
  | _ => 0

end Expr

namespace Typing

/-- Both scopes bind the same names, each to a value and to its type. -/
def Records (Γ : Scope Ty) (s : Scope Value) : Prop :=
  ∀ name, Γ.lookup name = (s.lookup name).map Value.type

def TableRecords (t : Table Ty) (u : Table Value) : Prop :=
  ∀ name, t.get? name = (u.get? name).map Value.type

theorem TableRecords.nil : TableRecords [] [] := fun _ => rfl

theorem TableRecords.cons {t : Table Ty} {u : Table Value} (name : Name) (v : Value)
    (h : TableRecords t u) : TableRecords ((name, v.type) :: t) ((name, v) :: u) := by
  intro n
  rw [Table.get?_cons, Table.get?_cons, h n]
  split <;> rfl

theorem TableRecords.flat {Γ : FlatScope Ty} {s : FlatScope Value}
    (h : TableRecords Γ.active s.active) : Records (.flat Γ) (.flat s) := by
  intro name
  simp only [Scope.lookup, FlatScope.lookup, h name]
  cases s.active.get? name <;> rfl

theorem TableRecords.find? {ts : List (Table Ty)} {us : List (Table Value)}
    (h : List.Forall₂ TableRecords ts us) (name : Name) :
    ChainedScope.find? name ts = (ChainedScope.find? name us).map Value.type := by
  induction h with
  | nil => rfl
  | @cons t u ts us ht hts ih =>
    rw [ChainedScope.find?, ChainedScope.find?, ht name, ih]
    cases u.get? name <;> rfl

theorem TableRecords.chained {Γ : ChainedScope Ty} {s : ChainedScope Value}
    (h : List.Forall₂ TableRecords (Γ.current :: Γ.outer) (s.current :: s.outer)) :
    Records (.chained Γ) (.chained s) := by
  intro name
  simp only [Scope.lookup, ChainedScope.lookup, find? h name]
  cases ChainedScope.find? name (s.current :: s.outer) <;> rfl

theorem Records.alike {Γ : Scope Ty} {s : Scope Value} (h : Records Γ s) (name : Name) :
    Alike (Γ.lookup name) (s.lookup name) := by
  rw [h name]
  cases hs : s.lookup name with
  | ok v => exact .value v
  | error e =>
    have hscope : e = .notInScope name := by
      cases s with
      | flat s =>
        simp only [Scope.lookup, FlatScope.lookup] at hs
        split at hs
        · cases hs
        · exact (Except.error.inj hs).symm
      | chained s =>
        simp only [Scope.lookup, ChainedScope.lookup] at hs
        split at hs
        · cases hs
        · exact (Except.error.inj hs).symm
    subst hscope
    exact .scope rfl

open Eval

variable {σ ε : Type} {p : Program} {d : Dialect} {c : Console σ ε}

theorem ofExcept_bind (io : σ) (x : Except LangError Value)
    (f : Value → Except LangError Value) :
    (Run.ofExcept io x).bind id (fun v io => (Run.ofExcept io (f v) : Run (RunError ε) σ Value)) =
      .ofExcept io (x >>= f) := by
  cases x <;> rfl

/-- The expression has one outcome, which neither the state of the console nor a larger bound
changes, and the checker and a run agree on it. -/
def Agrees (p : Program) (d : Dialect) (c : Console σ ε) (Γ : Scope Ty) (s : Scope Value)
    (e : Expr) : Prop :=
  ∃ outcome, Alike (infer p d Γ e) outcome ∧
    ∀ n, e.depth < n → ∀ io, eval p d c n e s io = .ofExcept io outcome

variable {Γ : Scope Ty} {s : Scope Value}

theorem agrees_leaf {e : Expr} (outcome : Except LangError Value)
    (hinfer : Alike (infer p d Γ e) outcome)
    (heval : ∀ n io, eval p d c (n + 1) e s io = .ofExcept io outcome) :
    Agrees p d c Γ s e := by
  refine ⟨outcome, hinfer, fun n hn io => ?_⟩
  obtain ⟨n, rfl⟩ := Nat.exists_eq_add_one.mpr (Nat.zero_lt_of_lt hn)
  exact heval n io

theorem agrees_binary (op : BinaryOp) {left right : Expr} (hl : Agrees p d c Γ s left)
    (hr : Agrees p d c Γ s right) : Agrees p d c Γ s (.binary op left right) := by
  obtain ⟨x, hx, hleft⟩ := hl
  obtain ⟨y, hy, hright⟩ := hr
  refine ⟨x >>= fun l => y >>= fun r => d.rules.applyBinary op l r, ?_, fun n hn io => ?_⟩
  · rw [infer]
    exact hx.bind fun l => hy.bind fun r => d.rules.applyBinary_alike op l r
  · rw [Expr.depth] at hn
    obtain ⟨n, rfl⟩ := Nat.exists_eq_add_one.mpr (Nat.zero_lt_of_lt hn)
    rw [eval_binary, hleft n (by omega)]
    simp only [hright n (by omega), ofExcept_bind]

theorem agrees_unary (op : UnaryOp) {sub : Expr} (h : Agrees p d c Γ s sub) :
    Agrees p d c Γ s (.unary op sub) := by
  obtain ⟨x, hx, hsub⟩ := h
  refine ⟨x >>= Rules.applyUnary op, ?_, fun n hn io => ?_⟩
  · rw [infer]
    exact hx.bind fun v => Rules.applyUnary_alike op v
  · rw [Expr.depth] at hn
    obtain ⟨n, rfl⟩ := Nat.exists_eq_add_one.mpr (Nat.zero_lt_of_lt hn)
    rw [eval_unary, hsub n (by omega)]
    exact ofExcept_bind io x _

theorem agrees (hs : Records Γ s) : (e : Expr) → e.IsPure → Agrees p d c Γ s e
  | .num x, _ =>
    agrees_leaf (.ok (.num x)) (by rw [infer]; exact .value (.num x))
      fun n io => by rw [Eval.eval]; rfl
  | .bool b, _ =>
    agrees_leaf (.ok (.bool b)) (by rw [infer]; exact .value (.bool b))
      fun n io => by rw [Eval.eval]; rfl
  | .var name, _ =>
    agrees_leaf (s.lookup name) (by rw [infer]; exact hs.alike name)
      fun n io => by rw [Eval.eval]
  | .binary op left right, he =>
    agrees_binary op (agrees hs left he.1) (agrees hs right he.2)
  | .unary op sub, he => agrees_unary op (agrees hs sub he)
  | .absent, _ =>
    agrees_leaf (.error .missingExpression) (by rw [infer]; exact .malformed (.inl rfl))
      fun n io => by rw [Eval.eval]; rfl

/-- On an expression without calls and requests the checker and a run decide the same, in a scope of
types and a scope of values that agree on every name. -/
theorem pure_phases_agree (p : Program) (d : Dialect) (c : Console σ ε) {Γ : Scope Ty}
    {s : Scope Value} (hs : Records Γ s) {e : Expr} (he : e.IsPure) :
    ∃ outcome, (∀ n, e.depth < n → ∀ io, eval p d c n e s io = .ofExcept io outcome) ∧
      Alike (infer p d Γ e) outcome ∧
      ∀ t, infer p d Γ e = .ok t ↔ ∃ v, outcome = .ok v ∧ v.type = t := by
  obtain ⟨outcome, halike, heval⟩ := agrees (p := p) (d := d) (c := c) hs e he
  exact ⟨outcome, heval, halike, halike.ok_iff⟩

/-- A frame with `b` in front of one where `x` is a truth value and one where it is a number. -/
def nestedTypes : ChainedScope Ty where
  current := [(utf8 "b", .bool)]
  outer := [[(utf8 "x", .bool)], [(utf8 "x", .num)]]

def nestedValues : ChainedScope Value where
  current := [(utf8 "b", .bool true)]
  outer := [[(utf8 "x", .bool false)], [(utf8 "x", .num .one)]]

/-- The left operand settles the disjunction, but both phases look at the right one. -/
def shortcut : Expr := .binary .or (.var (utf8 "b")) (.unary .negate (.var (utf8 "x")))

def noFunctions : Program := ⟨[], List.nodup_nil⟩

def silent : Streams := { feed := none }

theorem nested_records : Records (.chained nestedTypes) (.chained nestedValues) :=
  TableRecords.chained (.cons (.cons _ (.bool true) .nil)
    (.cons (.cons _ (.bool false) .nil) (.cons (.cons _ (.num .one) .nil) .nil)))

theorem shortcut_pure_phases_agree :
    (Records (.chained nestedTypes) (.chained nestedValues) ∧ shortcut.IsPure) ∧
      infer noFunctions {} (.chained nestedTypes) shortcut = .error (.typeMismatch .num .bool) ∧
      ∀ n > 2, ∀ io, eval noFunctions {} Streams.console n shortcut (.chained nestedValues) io =
        .error (.lang (.notNumber (.bool false))) io := by
  have hpure : shortcut.IsPure := ⟨trivial, trivial⟩
  obtain ⟨outcome, heval, halike, -⟩ :=
    pure_phases_agree noFunctions {} Streams.console nested_records hpure
  have hthree : Run.ofExcept silent outcome = .error (.lang (.notNumber (.bool false))) silent :=
    (heval 3 (by decide) silent).symm
  cases outcome with
  | ok v => cases hthree
  | error e =>
    cases hthree
    exact ⟨⟨nested_records, hpure⟩, rfl, heval⟩

end Typing

end SmallLang
