import SmallLang.Console
import SmallLang.Proofs.Eval.Sequencing

/-! Operators on operands of the right types, consoles that answer as they are asked, and runs that
fail with nothing but an error of their console. -/

namespace SmallLang

section Rules

theorem applyBinary_sound {rules : Rules} {op : BinaryOp} {l r : Value} {t : Ty}
    (h : rules.binaryType op l.type r.type = .ok t) :
    ∃ v, rules.applyBinary op l r = .ok v ∧ v.type = t := by
  cases op <;> cases l <;> cases r <;> cases rules <;>
    simp_all [Rules.binaryType, Rules.applyBinary, Rules.operands, Rules.onNumbers,
      Rules.onBooleans, Rules.logical, Value.type, Value.expectType, Value.asNumber,
      Value.asBoolean, Value.expectSameType, bind, Except.bind, pure, Except.pure]

theorem applyUnary_sound {op : UnaryOp} {v : Value} {t : Ty}
    (h : Rules.unaryType op v.type = .ok t) : ∃ w, Rules.applyUnary op v = .ok w ∧ w.type = t := by
  cases op <;> cases v <;>
    simp_all [Rules.unaryType, Rules.applyUnary, Value.type, Value.expectType, Value.asNumber,
      Value.asBoolean, bind, Except.bind, pure, Except.pure]

theorem guardType_type (v : Value) : Rules.guardType v.type v = .ok () := by
  cases v <;> rfl

theorem asBoolean_of_type {v : Value} (h : v.type = .bool) : ∃ b, v.asBoolean = .ok b := by
  cases v with
  | num x => cases h
  | bool b => exact ⟨b, rfl⟩

end Rules

section Console

variable {σ ε : Type}

/-- Every request is answered with a value of the type asked for, or fails. -/
def Console.Typed (console : Console σ ε) : Prop :=
  ∀ type io v io', console.input type io = (.ok v, io') → v.type = type

/-- A print or a request fails with the error and leaves the console in the state `io'`. -/
def Console.Raises (console : Console σ ε) (e : ε) (io' : σ) : Prop :=
  (∃ v io, console.print v io = (.error e, io')) ∨
    ∃ type io, console.input type io = (.error e, io')

theorem Value.read_type {type : Ty} {text : Bytes} {v : Value} (h : Value.read type text = .ok v) :
    v.type = type := by
  cases type with
  | num =>
    simp only [Value.read] at h
    split at h
    · cases h
      rfl
    · cases h
  | bool =>
    simp only [Value.read] at h
    split at h
    · cases h
      rfl
    · split at h
      · cases h
        rfl
      · cases h
  | void => cases h
  | other name => cases h

theorem Feed.request_type {type : Ty} {ending : ConsoleError} {lines : List (Option Bytes)}
    {v : Value} (h : (Feed.request type ending lines).answer = .ok v) : v.type = type := by
  induction lines with
  | nil => cases h
  | cons line rest ih =>
    cases line with
    | none => cases h
    | some line =>
      rw [Feed.request] at h
      split at h
      · rename_i w hw
        cases h
        exact Value.read_type hw
      · exact ih h

theorem Streams.console_typed : Streams.console.Typed := by
  intro type io v io' h
  simp only [Streams.console, Streams.input] at h
  split at h
  · cases h
  · exact Feed.request_type (congrArg Prod.fst h)

end Console

/-- A run whose answer satisfies `post`, if it has one, and whose errors are the console's. The
state `view s` of the console is a part of the state `s`. -/
def Run.Safe {σ τ ε α : Type} (console : Console σ ε) (view : τ → σ) (post : α → τ → Prop) :
    Run (RunError ε) τ α → Prop
  | .ok a s => post a s
  | .error (.lang _) _ => False
  | .error (.console e) s => console.Raises e (view s)
  | .starved => True

namespace Run

variable {σ τ υ ε α β : Type} {console : Console σ ε} {view : τ → σ} {view' : υ → σ}

theorem Safe.bind {post : α → τ → Prop} {post' : β → υ → Prop} {g : τ → υ}
    {r : Run (RunError ε) τ α} {f : α → τ → Run (RunError ε) υ β} (h : r.Safe console view post)
    (hg : ∀ s, view' (g s) = view s) (hf : ∀ a s, post a s → (f a s).Safe console view' post') :
    (r.bind g f).Safe console view' post' := by
  cases r with
  | ok a s => exact hf a s h
  | error e s =>
    cases e with
    | lang e => exact h
    | console e =>
      rw [Run.bind, Run.Safe, hg]
      exact h
  | starved => trivial

theorem Safe.ofExcept {post : α → τ → Prop} {x : Except LangError α} {a : α} {io : τ}
    (hx : x = .ok a) (h : post a io) : (Run.ofExcept io x).Safe console view post := by
  rw [hx]
  exact h

theorem Safe.ofConsole {post : α → σ → Prop} {x : Except ε α × σ}
    (hx : ∀ a io, x = (.ok a, io) → post a io)
    (he : ∀ e io, x = (.error e, io) → console.Raises e io) :
    (Run.ofConsole x).Safe console id post := by
  obtain ⟨answer, io⟩ := x
  cases answer with
  | ok a => exact hx a io rfl
  | error e => exact he e io rfl

end Run

end SmallLang
