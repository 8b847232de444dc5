import SmallLang.Rules
import SmallLang.Scope.Basic

/-!
Programs: functions of different names that can be checked and run.
-/

namespace SmallLang

def entryPoint : Name := utf8 "main"

structure Dialect where
  strategy : Strategy := .chained
  rules : Rules := .strict
deriving DecidableEq

def firstRepeated (seen : List Name) : List Name → Option Name
  | [] => none
  | n :: rest => if seen.contains n then some n else firstRepeated (n :: seen) rest

theorem nodup_of_firstRepeated {names seen : List Name} (h : firstRepeated seen names = none) :
    names.Nodup ∧ ∀ n ∈ names, n ∉ seen := by
  induction names generalizing seen with
  | nil => simp
  | cons n rest ih =>
    rw [firstRepeated] at h
    split at h
    · contradiction
    · rename_i hn
      obtain ⟨hrest, hseen⟩ := ih h
      refine ⟨List.nodup_cons.mpr ⟨fun hmem => hseen n hmem (by simp), hrest⟩, ?_⟩
      intro m hm
      rcases List.mem_cons.mp hm with rfl | hm
      · simpa using hn
      · exact fun hs => hseen m hm (List.mem_cons_of_mem _ hs)

/-- Functions in the order of their definitions, no two of one name. -/
structure Program where
  funcs : List Func
  nodup : (funcs.map Func.name).Nodup

namespace Program

def ofFuncs (funcs : List Func) : Except LangError Program :=
  match h : firstRepeated [] (funcs.map Func.name) with
  | some name => .error (.duplicateFunction name)
  | none => .ok ⟨funcs, (nodup_of_firstRepeated h).1⟩

def dispatch (p : Program) (name : Name) : Except LangError Func :=
  match p.funcs.find? fun f => f.name = name with
  | some f => .ok f
  | none => .error (.undefinedFunction name)

def callee (p : Program) (phase : Phase) (name : Name) (count : Nat) : Except LangError Func := do
  let f ← p.dispatch name
  if count = f.params.length then return f
  else .error (.argumentCount phase name)

end Program

end SmallLang
