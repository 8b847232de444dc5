import Mathlib.Data.List.Nodup
import SmallLang.Console
import SmallLang.Proofs.Eval.Callees
import SmallLang.Proofs.Eval.Recording
import SmallLang.Proofs.Parse.Scripts
import SmallLang.Proofs.Typing.Callees

/-! The order of definitions does not matter, nor do functions that no run can call. -/

namespace SmallLang

/-- The names that a run can come to call: the entry point, and what the functions of such names
call. A name need not be defined. -/
inductive Reached (funcs : List Func) : Name → Prop
  | entry : Reached funcs entryPoint
  | call {f : Func} {name : Name} : f ∈ funcs → Reached funcs f.name → name ∈ f.callees →
      Reached funcs name

namespace Reached

variable {funcs funcs' : List Func} {name : Name}

theorem mono (h : Reached funcs name) (hsub : funcs ⊆ funcs') : Reached funcs' name := by
  induction h with
  | entry => exact .entry
  | call hf _ hname ih => exact .call (hsub hf) ih hname

theorem mem_of_closed {names : List Name} (hentry : entryPoint ∈ names)
    (hclosed : ∀ f ∈ funcs, f.name ∈ names → ∀ n ∈ f.callees, n ∈ names)
    (h : Reached funcs name) : name ∈ names := by
  induction h with
  | entry => exact hentry
  | call hf _ hname ih => exact hclosed _ hf ih _ hname

end Reached

theorem firstRepeated_eq_none {names seen : List Name} (hnames : names.Nodup)
    (hseen : ∀ n ∈ names, n ∉ seen) : firstRepeated seen names = none := by
  induction names generalizing seen with
  | nil => rfl
  | cons n rest ih =>
    obtain ⟨hn, hrest⟩ := List.nodup_cons.mp hnames
    obtain ⟨hfirst, hothers⟩ := List.forall_mem_cons.mp hseen
    rw [firstRepeated, if_neg (by simpa using hfirst)]
    refine ih hrest fun m hm => List.not_mem_cons_of_ne_of_not_mem ?_ (hothers m hm)
    rintro rfl
    exact hn hm

namespace Program

theorem ofFuncs_of_nodup {funcs : List Func} (h : (funcs.map Func.name).Nodup) :
    ofFuncs funcs = .ok ⟨funcs, h⟩ := by
  rw [ofFuncs]
  split
  · rename_i name hname
    rw [firstRepeated_eq_none h (by simp)] at hname
    cases hname
  · rfl

theorem ofFuncs_of_not_nodup {funcs : List Func} (h : ¬ (funcs.map Func.name).Nodup) :
    ∃ name, ofFuncs funcs = .error (.duplicateFunction name) := by
  rw [ofFuncs]
  split
  · rename_i name _
    exact ⟨name, rfl⟩
  · rename_i hnone
    exact absurd (nodup_of_firstRepeated hnone).1 h

variable {p q : Program} {name : Name}

theorem dispatch_eq_ok_iff {f : Func} :
    p.dispatch name = .ok f ↔ f ∈ p.funcs ∧ f.name = name := by
  rw [dispatch]
  cases hfind : p.funcs.find? fun f => f.name = name with
  | none =>
    have hnone : ∀ g ∈ p.funcs, g.name ≠ name := by simpa using hfind
    simpa using fun hf => hnone f hf
  | some g =>
    have hg : g ∈ p.funcs := List.mem_of_find?_eq_some hfind
    have hname : g.name = name := by simpa using List.find?_some hfind
    constructor
    · intro h
      cases h
      exact ⟨hg, hname⟩
    · rintro ⟨hf, hfname⟩
      rw [List.inj_on_of_nodup_map p.nodup hg hf (hname.trans hfname.symm)]

theorem dispatch_eq_error {e : LangError} (h : p.dispatch name = .error e) :
    e = .undefinedFunction name := by
  rw [dispatch] at h
  split at h
  · cases h
  · exact (Except.error.inj h).symm

theorem dispatch_congr (h : ∀ f, f.name = name → (f ∈ p.funcs ↔ f ∈ q.funcs)) :
    p.dispatch name = q.dispatch name := by
  cases hp : p.dispatch name with
  | ok f =>
    obtain ⟨hf, hname⟩ := dispatch_eq_ok_iff.mp hp
    exact (dispatch_eq_ok_iff.mpr ⟨(h f hname).mp hf, hname⟩).symm
  | error e =>
    cases hq : q.dispatch name with
    | error e' => rw [dispatch_eq_error hp, dispatch_eq_error hq]
    | ok f =>
      obtain ⟨hf, hname⟩ := dispatch_eq_ok_iff.mp hq
      rw [dispatch_eq_ok_iff.mpr ⟨(h f hname).mpr hf, hname⟩] at hp
      cases hp

/-- Runs of the two programs end alike in every dialect and on every console, and say the same to
it. -/
def RunsAlike (p q : Program) : Prop :=
  ∀ ⦃σ ε : Type⦄ (d : Dialect) (c : Console σ ε) (fuel : Nat) (io : σ),
    p.run d c fuel io = q.run d c fuel io ∧
      p.run d c.recorded fuel (io, []) = q.run d c.recorded fuel (io, [])

theorem AgreeOn.runsAlike {P : Name → Prop} (h : AgreeOn P p q) (hentry : P entryPoint) :
    RunsAlike p q :=
  fun _ _ d c fuel io => ⟨h.run_eq hentry d c fuel io, h.run_eq hentry d c.recorded fuel (io, [])⟩

section Permutations

variable (h : p.funcs.Perm q.funcs)
include h

theorem dispatch_perm (name : Name) : p.dispatch name = q.dispatch name :=
  dispatch_congr fun _ _ => h.mem_iff

theorem runsAlike_of_perm : RunsAlike p q := by
  have hagree : AgreeOn (fun _ => True) p q :=
    ⟨fun _ => dispatch_perm h _, fun _ _ _ _ => trivial⟩
  exact hagree.runsAlike trivial

theorem typecheck_perm (d : Dialect) : p.typecheck d = .ok () ↔ q.typecheck d = .ok () := by
  rw [typecheck_eq_ok_iff, typecheck_eq_ok_iff, Typing.checkCall_congr (dispatch_perm h)]
  simp only [h.mem_iff, Typing.checkFunc_congr (dispatch_perm h)]

end Permutations

section Unused

variable {extra : List Func} (hq : q.funcs.Perm (p.funcs ++ extra))
include hq

theorem agreeOn_reached (hextra : ∀ f ∈ extra, ¬ Reached p.funcs f.name) :
    AgreeOn (Reached p.funcs) p q where
  dispatch hname := by
    refine dispatch_congr fun f hf => ?_
    have hnot : f ∉ extra := fun hmem => hextra f hmem (hf ▸ hname)
    simp [hq.mem_iff, hnot]
  closed hname hf n hn := by
    obtain ⟨hmem, rfl⟩ := dispatch_eq_ok_iff.mp hf
    exact .call hmem hname hn

theorem not_reached_of_all (hextra : ∀ f ∈ extra, ¬ Reached q.funcs f.name) :
    ∀ f ∈ extra, ¬ Reached p.funcs f.name :=
  fun f hf hreached => hextra f hf (hreached.mono fun _ hg =>
    hq.mem_iff.mpr (List.mem_append_left extra hg))

theorem runsAlike_of_unused (hextra : (∀ f ∈ extra, ¬ Reached p.funcs f.name) ∨
    ∀ f ∈ extra, ¬ Reached q.funcs f.name) : RunsAlike p q := by
  -- with fewer functions fewer names are reached
  have hunused := hextra.elim id (not_reached_of_all hq)
  exact (agreeOn_reached hq hunused).runsAlike .entry

end Unused

/-- Functions of different names make a program in every order, and the order decides neither
whether it passes its check nor how it runs. A run does not change when functions out of its reach
are added or removed. Functions that share a name make no program in any order. Scripts in another
order give the same functions in another order. -/
theorem order_irrelevant :
    (∀ funcs funcs' : List Func, funcs.Perm funcs' → (funcs.map Func.name).Nodup →
      ∃ p p', ofFuncs funcs = .ok p ∧ ofFuncs funcs' = .ok p' ∧
        (∀ d, p.typecheck d = .ok () ↔ p'.typecheck d = .ok ()) ∧ RunsAlike p p') ∧
    (∀ funcs extra all : List Func, all.Perm (funcs ++ extra) → (all.map Func.name).Nodup →
      ((∀ f ∈ extra, ¬ Reached funcs f.name) ∨ ∀ f ∈ extra, ¬ Reached all f.name) →
      ∃ p q, ofFuncs funcs = .ok p ∧ ofFuncs all = .ok q ∧ RunsAlike p q) ∧
    (∀ funcs funcs' : List Func, funcs.Perm funcs' → ¬ (funcs.map Func.name).Nodup →
      ∃ e, ofFuncs funcs' = .error e ∧ e.kind? = some .scope) ∧
    ∀ (scripts scripts' : List Script), scripts.Perm scripts' →
      ∀ funcs, compileScripts scripts = .ok funcs →
        ∃ funcs', compileScripts scripts' = .ok funcs' ∧ funcs.Perm funcs' := by
  refine ⟨?_, ?_, ?_, fun _ _ h _ hfs => compileScripts_perm h hfs⟩
  · intro funcs funcs' h hnodup
    have hnodup' := (h.map Func.name).nodup_iff.mp hnodup
    exact ⟨⟨funcs, hnodup⟩, ⟨funcs', hnodup'⟩, ofFuncs_of_nodup hnodup, ofFuncs_of_nodup hnodup',
      typecheck_perm h, runsAlike_of_perm h⟩
  · intro funcs extra all h hnodup hextra
    have hboth := (h.map Func.name).nodup_iff.mp hnodup
    rw [List.map_append] at hboth
    have hfuncs := hboth.of_append_left
    exact ⟨⟨funcs, hfuncs⟩, ⟨all, hnodup⟩, ofFuncs_of_nodup hfuncs, ofFuncs_of_nodup hnodup,
      runsAlike_of_unused h hextra⟩
  · intro funcs funcs' h hnodup
    obtain ⟨name, hname⟩ := ofFuncs_of_not_nodup
      (mt (h.map Func.name).nodup_iff.mpr hnodup)
    exact ⟨_, hname, rfl⟩

def starting : Func :=
  ⟨entryPoint, .void, [], [.print (.call (utf8 "flag") []), .call (utf8 "missing") []], none⟩

def flag : Func := ⟨utf8 "flag", .bool, [], [], some (.unary .not (.bool true))⟩

/-- Calls the entry point, but nothing calls it. -/
def spare : Func := ⟨utf8 "spare", .num, [], [.call entryPoint []], none⟩

theorem spare_order_irrelevant :
    (∃ p p', ofFuncs [starting, flag] = .ok p ∧ ofFuncs [flag, starting] = .ok p' ∧
      RunsAlike p p') ∧
    (∃ p q, ofFuncs [starting, flag] = .ok p ∧ ofFuncs [spare, flag, starting] = .ok q ∧
      p.run ⟨.flat, .strict⟩ Streams.console 10 { feed := none } =
        .error (.lang (.undefinedFunction (utf8 "missing")))
          { feed := none, lines := [utf8 "false"] } ∧
      q.run ⟨.flat, .strict⟩ Streams.console 10 { feed := none } =
        .error (.lang (.undefinedFunction (utf8 "missing")))
          { feed := none, lines := [utf8 "false"] }) ∧
    (∃ e, ofFuncs [flag, starting, flag] = .error e ∧ e.kind? = some .scope) ∧
    ∃ funcs, compileScripts [⟨[], utf8 "g() \x7b\x7d", 6⟩, ⟨[], utf8 "f() \x7b\x7d", 6⟩] =
        .ok funcs ∧
      [⟨utf8 "f", .void, [], [], none⟩, ⟨utf8 "g", .void, [], [], none⟩].Perm funcs := by
  obtain ⟨horder, hunused, hshared, hscripts⟩ := order_irrelevant
  refine ⟨?_, ?_, ?_, ?_⟩
  · obtain ⟨p, p', hp, hp', -, hruns⟩ :=
      horder [starting, flag] [flag, starting] (.swap flag starting []) (by decide)
    exact ⟨p, p', hp, hp', hruns⟩
  · have hreached : ∀ f ∈ [spare], ¬ Reached [starting, flag] f.name := by
      intro f hf hreached
      obtain rfl := List.mem_singleton.mp hf
      have hmem : spare.name ∈ [entryPoint, utf8 "flag", utf8 "missing"] :=
        hreached.mem_of_closed (by simp) (by decide)
      exact absurd hmem (by decide)
    have hperm : [spare, flag, starting].Perm ([starting, flag] ++ [spare]) :=
      List.reverse_perm [starting, flag, spare]
    obtain ⟨p, q, hp, hq, hruns⟩ :=
      hunused [starting, flag] [spare] _ hperm (by decide) (.inl hreached)
    have hrun : p.run ⟨.flat, .strict⟩ Streams.console 10 { feed := none } =
        .error (.lang (.undefinedFunction (utf8 "missing")))
          { feed := none, lines := [utf8 "false"] } := by
      cases hp
      rfl
    exact ⟨p, q, hp, hq, hrun, (hruns _ _ _ _).1 ▸ hrun⟩
  · exact hshared [starting, flag, flag] [flag, starting, flag] (.swap flag starting [flag])
      (by decide)
  · exact hscripts [⟨[], utf8 "f() \x7b\x7d", 6⟩, ⟨[], utf8 "g() \x7b\x7d", 6⟩] _
      (.swap _ _ []) _ rfl

end Program

end SmallLang
