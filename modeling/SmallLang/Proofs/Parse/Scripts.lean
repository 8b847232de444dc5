import Mathlib.Data.List.Perm.Basic
import SmallLang.Diagnostic

/-! Several scripts are compiled each on its own, and their functions stand one after another. -/

namespace SmallLang

/-- The functions of a script, none if it has errors. -/
def Script.funcs (s : Script) : List Func := (compile s.file s.content).toOption.getD []

theorem compileScripts_eq_ok_iff {scripts : List Script} {fs : List Func} :
    compileScripts scripts = .ok fs ↔
      scriptDiagnostics scripts = [] ∧ scripts.flatMap Script.funcs = fs := by
  rw [compileScripts]
  cases scriptDiagnostics scripts with
  | nil => exact ⟨fun h => ⟨rfl, Except.ok.inj h⟩, fun h => congrArg _ h.2⟩
  | cons d ds => simp

theorem Script.funcs_eq {s : Script} {fs : List Func} (h : compile s.file s.content = .ok fs) :
    s.funcs = fs := by
  rw [funcs, h]
  rfl

theorem compileScripts_of_ok {scripts : List Script}
    (h : ∀ s ∈ scripts, compile s.file s.content = .ok s.funcs) :
    compileScripts scripts = .ok (scripts.flatMap Script.funcs) := by
  refine compileScripts_eq_ok_iff.mpr ⟨List.flatMap_eq_nil_iff.mpr fun s hs => ?_, rfl⟩
  rw [h s hs]

theorem compileScripts_perm {scripts scripts' : List Script} (h : scripts.Perm scripts')
    {fs : List Func} (hfs : compileScripts scripts = .ok fs) :
    ∃ fs', compileScripts scripts' = .ok fs' ∧ fs.Perm fs' := by
  obtain ⟨hdiagnostics, rfl⟩ := compileScripts_eq_ok_iff.mp hfs
  have hnone : scriptDiagnostics scripts' = [] := by
    have hperm : (scriptDiagnostics scripts).Perm (scriptDiagnostics scripts') :=
      h.flatMap_right _
    rwa [hdiagnostics, List.nil_perm] at hperm
  exact ⟨_, compileScripts_eq_ok_iff.mpr ⟨hnone, rfl⟩, h.flatMap_right _⟩

end SmallLang
