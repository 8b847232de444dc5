import SmallLang.Proofs.Scope.Reference

/-! Scopes answer as the reference does. A chained scope stands for the stack of its tables, and a
flat scope for the stack of the chained scope that it is the flattening of. -/

namespace SmallLang

variable {ε : Type}

theorem Follows.strict {α β : Type} {excused : LangError → Prop} {R : α → β → Prop}
    {x : Except LangError α} {y : Except LangError β} (h : Follows excused R x y)
    (hx : ∀ e, x = .error e → ¬ excused e) : Follows (fun _ => False) R x y := by
  cases h with
  | excused he => exact (hx _ rfl he).elim
  | ok hab => exact .ok hab
  | error => exact .error

namespace Scope

inductive Represents : Strategy → FrameStack ε → Scope ε → Prop
  | chained {c : ChainedScope ε} : Represents .chained c.stack (.chained c)
  | flat {c : ChainedScope ε} {s : Scope ε} : Agree s (.chained c) → Represents .flat c.stack s

abbrev Refined (strategy : Strategy) :
    Except LangError (FrameStack ε) → Except LangError (Scope ε) → Prop :=
  Follows (fun _ => False) (Represents strategy)

theorem update_ne_duplicate {s : Scope ε} {name n : Name} {x : ε} :
    s.update name x ≠ .error (.duplicateVariable n) := by
  cases s with
  | flat s =>
    simp only [update, FlatScope.update]
    split <;> simp [Except.map]
  | chained s =>
    simp only [update, ChainedScope.update]
    split
    · simp [Except.map]
    · split <;> simp [Except.map]

theorem names_flatten (c : ChainedScope ε) :
    c.flatten.active.names = (c.flatten.current :: c.flatten.outer).flatten := by
  change List.map Prod.fst (c.current :: c.outer).flatten = _
  exact List.map_flatten

theorem mem_flatten_iff {c : ChainedScope ε} {name : Name} :
    name ∈ c.flatten.active.names ↔ c.stack.frames.any (name ∈ ·) = true := by
  have hframes : c.stack.frames = (c.current :: c.outer).map Table.toFrame := rfl
  rw [names_flatten]
  simp [ChainedScope.flatten, hframes, Table.contains_iff_mem]

namespace Represents

variable {strategy : Strategy} {f : FrameStack ε} {s : Scope ε}

theorem empty : Represents strategy (FrameStack.empty : FrameStack ε) (.empty strategy) := by
  cases strategy with
  | chained => exact .chained (c := ChainedScope.empty)
  | flat => exact .flat Agree.empty

theorem lookup (h : Represents strategy f s) (name : Name) : f.lookup name = s.lookup name := by
  cases h with
  | chained => exact ChainedScope.stack_lookup _ name
  | flat h => rw [h.lookup, ChainedScope.stack_lookup, Scope.lookup]

theorem declare (h : Represents strategy f s) (name : Name) (x : ε) :
    Refined strategy (f.declare strategy name x) (s.declare name x) := by
  cases h with
  | @chained c =>
    rw [ChainedScope.stack_declare, Scope.declare]
    cases c.declare name x with
    | error e => exact .error
    | ok c => exact .ok .chained
  | flat h =>
    obtain ⟨hd⟩ := h
    rename_i c
    rw [FrameStack.declare, FrameStack.reserved, Scope.declare, FlatScope.declare]
    by_cases hn : name ∈ c.flatten.active.names
    · rw [if_pos (mem_flatten_iff.mp hn), if_pos (Table.contains_iff_mem.mpr hn)]
      exact .error
    · have hf := fun h => hn (mem_flatten_iff.mpr h)
      rw [if_neg hf, if_neg (fun h => hn (Table.contains_iff_mem.mp h))]
      have hd' : ChainedScope.Distinct ⟨(name, x) :: c.current, c.outer⟩ :=
        List.nodup_cons.mpr ⟨hn, hd⟩
      exact .ok (.flat (.intro hd'))

theorem update (h : Represents strategy f s) (name : Name) (x : ε) :
    Refined strategy (f.update name x) (s.update name x) := by
  cases h with
  | @chained c =>
    rw [ChainedScope.stack_update, Scope.update]
    cases c.update name x with
    | error e => exact .error
    | ok c => exact .ok .chained
  | @flat c s h =>
    have hfollows := (h.update name x).strict (by
      rintro _ he ⟨n, rfl⟩
      exact update_ne_duplicate he)
    rw [Scope.update] at hfollows
    rw [ChainedScope.stack_update]
    generalize s.update name x = r at hfollows
    generalize c.update name x = r' at hfollows
    cases r' with
    | error e =>
      cases hfollows with
      | excused he => exact he.elim
      | error => exact .error
    | ok c' =>
      cases hfollows with
      | excused he => exact he.elim
      | ok h => exact .ok (.flat h)

theorem push (h : Represents strategy f s) : Represents strategy f.push s.push := by
  cases h with
  | @chained c =>
    rw [← ChainedScope.stack_push]
    exact .chained
  | @flat c s h =>
    rw [← ChainedScope.stack_push]
    exact .flat h.push

theorem pop (h : Represents strategy f s) : Represents strategy f.pop s.pop := by
  cases h with
  | @chained c =>
    rw [← ChainedScope.stack_pop]
    exact .chained
  | @flat c s h =>
    rw [← ChainedScope.stack_pop]
    exact .flat h.pop

end Represents

/-- The same answer, and a scope that represents the stack behind it. -/
def AnswersAlike {α : Type} (strategy : Strategy) (r : α × FrameStack ε) (r' : α × Scope ε) :
    Prop := r'.1 = r.1 ∧ Represents strategy r.2 r'.2

theorem settle_alike {strategy : Strategy} {f : FrameStack ε} {s : Scope ε} (note : Answer ε)
    {x : Except LangError (FrameStack ε)} {y : Except LangError (Scope ε)}
    (h : Represents strategy f s) (hxy : Refined strategy x y) :
    AnswersAlike strategy (f.settle note x) (settle s note y) := by
  cases hxy with
  | excused he => exact he.elim
  | ok h => exact ⟨rfl, h⟩
  | error => exact ⟨rfl, h⟩

mutual

theorem perform_alike {strategy : Strategy} (action : Action ε) {f : FrameStack ε} {s : Scope ε}
    (h : Represents strategy f s) :
    AnswersAlike strategy (f.perform strategy action) (perform action s) := by
  match action with
  | .declare name entry =>
    rw [FrameStack.perform, perform]
    exact settle_alike _ h (h.declare name entry)
  | .update name entry =>
    rw [FrameStack.perform, perform]
    exact settle_alike _ h (h.update name entry)
  | .lookup name =>
    rw [FrameStack.perform, perform, h.lookup]
    cases s.lookup name with
    | error e => exact ⟨rfl, h⟩
    | ok entry => exact ⟨rfl, h⟩
  | .nested body attitude =>
    obtain ⟨hanswer, hs⟩ := performAll_alike (attitude = .stop) body h.push
    rw [FrameStack.perform, perform]
    simp only [nested, hanswer]
    exact ⟨rfl, hs.pop⟩

theorem performAll_alike {strategy : Strategy} (stop : Bool) (actions : List (Action ε))
    {f : FrameStack ε} {s : Scope ε} (h : Represents strategy f s) :
    AnswersAlike strategy (f.performAll strategy stop actions) (performAll stop actions s) := by
  match actions with
  | [] =>
    rw [FrameStack.performAll, performAll]
    exact ⟨rfl, h⟩
  | action :: rest =>
    obtain ⟨hanswer, hs⟩ := perform_alike action h
    rw [FrameStack.performAll, performAll]
    generalize f.perform strategy action = r at hanswer hs
    generalize perform action s = r' at hanswer hs
    obtain ⟨⟨error, log⟩, f⟩ := r
    obtain ⟨answer, s⟩ := r'
    obtain rfl : answer = (error, log) := hanswer
    obtain ⟨hmore, hrest⟩ := performAll_alike stop rest hs
    cases error with
    | none =>
      simp only [hmore]
      exact ⟨rfl, hrest⟩
    | some e =>
      cases stop with
      | true => exact ⟨rfl, hs⟩
      | false =>
        simp only [hmore]
        exact ⟨rfl, hrest⟩

end

/-- The scopes that operations go through from a scope on, also within nested actions. -/
inductive Passes : List (Action ε) → Scope ε → Scope ε → Prop
  | here {actions s} : Passes actions s s
  | after {action rest s t} : Passes rest (perform action s).2 t → Passes (action :: rest) s t
  | inside {body attitude rest s t} : Passes body s.push t →
      Passes (.nested body attitude :: rest) s t

theorem Passes.represents {strategy : Strategy} {actions : List (Action ε)} {s t : Scope ε}
    (h : Passes actions s t) {f : FrameStack ε} (hf : Represents strategy f s) :
    ∃ g, Represents strategy g t := by
  induction h generalizing f with
  | here => exact ⟨f, hf⟩
  | after _ ih => exact ih (perform_alike _ hf).2
  | inside _ ih => exact ih hf.push

/-- The frames of a flat scope share no name, and their names are those of the table. -/
def NamesMatch (s : FlatScope ε) : Prop :=
  (s.current :: s.outer).Pairwise List.Disjoint ∧
    ∀ name, s.active.contains name = true ↔ ∃ frame ∈ s.current :: s.outer, name ∈ frame

theorem Represents.namesMatch {f : FrameStack ε} {s : Scope ε} (h : Represents .flat f s) :
    ∃ t, s = .flat t ∧ NamesMatch t := by
  cases h with
  | flat h =>
    obtain ⟨hd⟩ := h
    rename_i c
    rw [ChainedScope.Distinct, names_flatten, List.nodup_flatten] at hd
    refine ⟨c.flatten, rfl, hd.2, fun name => ?_⟩
    rw [Table.contains_iff_mem, names_flatten, List.mem_flatten]

def Action.isNested : Action ε → Bool
  | .nested _ _ => true
  | _ => false

theorem perform_of_fails {action : Action ε} (hnested : action.isNested = false) {s : Scope ε}
    (hfails : (perform action s).1.1 ≠ none) : (perform action s).2 = s := by
  cases action with
  | declare name entry =>
    rw [perform] at hfails ⊢
    cases hr : s.declare name entry with
    | error e => rfl
    | ok t =>
      rw [hr] at hfails
      exact absurd rfl hfails
  | update name entry =>
    rw [perform] at hfails ⊢
    cases hr : s.update name entry with
    | error e => rfl
    | ok t =>
      rw [hr] at hfails
      exact absurd rfl hfails
  | lookup name =>
    rw [perform]
    cases s.lookup name <;> rfl
  | nested body attitude => cases hnested

/-- Scopes of both strategies answer all operations as the stack of finite maps does. An operation
that fails changes nothing, and the names of a flat scope match at all times. -/
theorem performAll_refines (strategy : Strategy) (stop : Bool) (actions : List (Action ε)) :
    (performAll stop actions (.empty strategy)).1 =
        (FrameStack.empty.performAll strategy stop actions).1 ∧
      (∀ (action : Action ε) (s : Scope ε), action.isNested = false →
        (perform action s).1.1 ≠ none → (perform action s).2 = s) ∧
      ∀ s, Passes actions (.empty .flat) s → ∃ t, s = .flat t ∧ NamesMatch t := by
  refine ⟨(performAll_alike stop actions .empty).1, ?_, ?_⟩
  · intro action s hnested hfails
    exact perform_of_fails hnested hfails
  · intro s hs
    obtain ⟨f, hf⟩ := hs.represents .empty
    exact hf.namesMatch

def shadowing : List (Action Bool) :=
  [.declare (utf8 "x") true,
    .nested
      [.declare (utf8 "x") false, .declare (utf8 "y") false, .update (utf8 "x") false,
        .lookup (utf8 "z")] .fail,
    .lookup (utf8 "x"), .lookup (utf8 "y")]

theorem shadowing_performAll_refines :
    (performAll false shadowing (.empty .flat)).1 =
        (none, [.declared, .pushed, .error (.scope (.duplicateVariable (utf8 "x"))), .declared,
          .updated, .error (.scope (.notInScope (utf8 "z"))), .popped, .error .failed,
          .found false, .error (.scope (.notInScope (utf8 "y")))]) ∧
      NamesMatch ⟨[(utf8 "y", false), (utf8 "x", true)], [utf8 "y"], [[utf8 "x"]]⟩ := by
  obtain ⟨hanswers, -, hnames⟩ := performAll_refines .flat false shadowing
  refine ⟨hanswers.trans rfl, ?_⟩
  obtain ⟨t, ht, hmatch⟩ := hnames (.flat ⟨_, _, _⟩) (.after (.inside (.after (.after .here))))
  cases ht
  exact hmatch

end Scope

end SmallLang
