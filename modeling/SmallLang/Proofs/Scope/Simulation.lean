import SmallLang.Scope.Basic

/-! Comparing two ways to check or to run a program. The second follows the first: it gives the same
answers and the same errors, but nothing is asked of it once the first has failed with an excused
error. -/

namespace SmallLang

variable {α β α' β' : Type}

/-- The second result is like the first, unless that is an excused error. -/
inductive Follows (excused : LangError → Prop) (R : α → β → Prop) :
    Except LangError α → Except LangError β → Prop
  | excused {e y} : excused e → Follows excused R (.error e) y
  | ok {a b} : R a b → Follows excused R (.ok a) (.ok b)
  | error {e} : Follows excused R (.error e) (.error e)

namespace Follows

variable {excused : LangError → Prop} {R : α → β → Prop} {R' : α' → β' → Prop}

theorem refl (x : Except LangError α) : Follows excused Eq x x := by
  cases x with
  | error e => exact .error
  | ok a => exact .ok rfl

theorem of_eq {x y : Except LangError α} (h : x = y) : Follows excused Eq x y := h ▸ refl x

theorem bind {x : Except LangError α} {y : Except LangError β} {f : α → Except LangError α'}
    {g : β → Except LangError β'} (h : Follows excused R x y)
    (hf : ∀ a b, R a b → Follows excused R' (f a) (g b)) :
    Follows excused R' (x >>= f) (y >>= g) := by
  cases h with
  | excused he => exact .excused he
  | ok hab => exact hf _ _ hab
  | error => exact .error

theorem discard {x y : Except LangError α} (h : Follows excused Eq x y) :
    Follows excused Eq (discard x) (discard y) := by
  cases h with
  | excused he => exact .excused he
  | ok hab => exact .ok rfl
  | error => exact .error

theorem eq_of_not {x y : Except LangError α} (h : Follows excused Eq x y)
    (hx : ∀ e, x = .error e → ¬ excused e) : y = x := by
  cases h with
  | excused he => exact (hx _ rfl he).elim
  | ok hab => rw [hab]
  | error => rfl

end Follows

/-- Scopes related by `R` answer alike, and stay related through all changes. -/
structure Scope.IsSimulation (excused : LangError → Prop) (R : Scope α → Scope α → Prop) :
    Prop where
  lookup : ∀ {s t}, R s t → ∀ name, s.lookup name = t.lookup name
  declare : ∀ {s t}, R s t → ∀ name x, Follows excused R (s.declare name x) (t.declare name x)
  update : ∀ {s t}, R s t → ∀ name x, Follows excused R (s.update name x) (t.update name x)
  push : ∀ {s t}, R s t → R s.push t.push
  pop : ∀ {s t}, R s t → R s.pop t.pop

end SmallLang
