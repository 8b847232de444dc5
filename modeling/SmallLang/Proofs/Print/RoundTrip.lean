import SmallLang.Diagnostic
import SmallLang.Proofs.Bytes.Parts
import SmallLang.Proofs.Grammar.Proper
import SmallLang.Proofs.Parse.Language
import SmallLang.Proofs.Print.Statements

/-! A source text and the text of its functions are parsed alike. -/

namespace SmallLang

open Grammar SmallLang.Parser

theorem writes_params (params : List Param) (h : ∀ p ∈ params, p.Proper) :
    Writes (Bytes.join (utf8 ", ") (params.map Param.render)) Breaks
      fun w => w = [] ∧ params = [] ∨ Parameters w params := by
  induction params with
  | nil => exact .nil (.inl ⟨rfl, rfl⟩)
  | cons p params ih =>
    obtain ⟨hp, hparams⟩ := List.forall_mem_cons.mp h
    obtain ⟨type, name⟩ := p
    cases params with
    | nil =>
      have htext : Bytes.join (utf8 ", ") [Param.render ⟨type, name⟩] =
          type.name ++ ascii ' ' :: name := by
        rw [Bytes.join, List.intercalate_singleton, Param.render, List.append_assoc]
        rfl
      rw [List.map_singleton, htext]
      refine .valueType hp.type (.breaks rfl) fun t ht => .space rfl ?_
      refine .last (.name hp.name .nil fun n hn hname => .nil ?_)
      subst hname
      exact .inr (.one ht hn)
    | cons q params =>
      have htext : Bytes.join (utf8 ", ") (List.map Param.render (⟨type, name⟩ :: q :: params)) =
          type.name ++ ascii ' ' :: (name ++ ascii ',' :: ascii ' ' ::
            Bytes.join (utf8 ", ") (List.map Param.render (q :: params))) := by
        simp only [List.map_cons, Bytes.join_cons_cons, Param.render, List.append_assoc]
        rfl
      rw [htext]
      refine .valueType hp.type (.breaks rfl) fun t ht => .space rfl ?_
      refine .name hp.name (.breaks rfl) fun n hn hname => ?_
      refine .mark .comma rfl fun comma hcomma => .space rfl ?_
      refine (ih hparams).mono fun w hw => ?_
      subst hname
      exact .inr (.cons ht hn hcomma (hw.resolve_left (by simp)))

theorem Writes.returnType {type : Ty} {text : Bytes} {ends : Bytes → Prop}
    {p : List Token → Prop} (htype : type.isValueType = true ∨ type = .void)
    (hbreaks : Leads text ends Breaks)
    (h : ∀ t, ReturnType [t] type → Writes text ends fun w => p (t :: w)) :
    Writes (type.name ++ text) ends p := by
  rcases htype with htype | rfl
  · exact .valueType htype hbreaks fun t ht => h t (.value ht)
  · exact .keyword .kwVoid rfl hbreaks fun t ht => h t (.void ht)

theorem writes_result {result : Option Expr} (h : ∀ e ∈ result, e.Proper)
    (hl : result.all Expr.legible = true) :
    Writes (result.elim [] fun e =>
        ascii ' ' :: (utf8 "return" ++ ascii ' ' :: (e.render ++ [ascii ';'])))
      Anything fun w => Result Reads w result := by
  cases result with
  | none => exact .nil .missing
  | some e =>
    refine .space rfl (.keyword .kwReturn rfl (.breaks rfl) fun kw hkw => .space rfl ?_)
    exact .terminated (e.isReadBack (h e rfl) hl) fun w semi hw hsemi => .value hkw hw hsemi

theorem Func.writes {f : Func} (h : f.Proper) (hl : f.legible = true) :
    Writes f.render Anything fun w => Function Reads true w f := by
  obtain ⟨name, returns, params, body, result⟩ := f
  obtain ⟨hlbody, hlresult⟩ := Bool.and_eq_true_iff.mp hl
  have htext : (Func.mk name returns params body result).render = returns.name ++ ascii ' ' ::
      (name ++ ascii '(' :: (Bytes.join (utf8 ", ") (params.map Param.render) ++ ascii ')' ::
        ascii ' ' :: ascii '\x7b' :: (Stmt.renderAll body ++ ((result.elim [] fun e =>
          ascii ' ' :: (utf8 "return" ++ ascii ' ' :: (e.render ++ [ascii ';']))) ++
            [ascii ' ', ascii '\x7d'])))) := by
    simp only [render, List.append_assoc]
    cases result <;> rfl
  rw [htext]
  refine .returnType h.returns (.breaks rfl) fun r hr => .space rfl ?_
  refine .name h.name (.breaks rfl) fun n hn hname => ?_
  refine .mark .lparen rfl fun lp hlp => ?_
  refine (writes_params params h.params).append (.breaks rfl) fun w hw => ?_
  refine .mark .rparen rfl fun rp hrp => .space rfl ?_
  refine .mark .lbrace rfl fun lb hlb => ?_
  refine (Writes.statements (Stmt.allReadBack body h.body hlbody)).append .anything fun v hv => ?_
  refine (writes_result h.result hlresult).append .anything fun u hu => ?_
  refine .closing fun rb hrb => ?_
  subst hname
  exact .intro hr hn hlp hw hrp hlb hv hu hrb

theorem writes_renderFuncs (fs : List Func) (h : ∀ f ∈ fs, f.Proper)
    (hl : ∀ f ∈ fs, f.legible = true) :
    Writes (renderFuncs fs) Anything fun w => Functions Reads true w fs := by
  induction fs with
  | nil => exact .nil .nil
  | cons f fs ih =>
    obtain ⟨hf, hfs⟩ := List.forall_mem_cons.mp h
    obtain ⟨hlf, hlfs⟩ := List.forall_mem_cons.mp hl
    cases fs with
    | nil =>
      have htext : renderFuncs [f] = f.render ++ [] := by
        rw [renderFuncs, List.map_singleton, Bytes.join, List.intercalate_singleton,
          List.append_nil]
      rw [htext]
      exact (Func.writes hf hlf).append .anything fun w hw => .nil (.cons hw .nil)
    | cons g fs =>
      have htext : renderFuncs (f :: g :: fs) =
          f.render ++ ascii '\n' :: renderFuncs (g :: fs) := by
        simp only [renderFuncs, List.map_cons, Bytes.join_cons_cons]
        rfl
      rw [htext]
      refine (Func.writes hf hlf).append .anything fun w hw => .space rfl ?_
      exact (ih hfs hlfs).mono fun v hv => .cons hw hv

theorem sourceWord_of_writes {source : Bytes} {p : List Token → Prop}
    (h : Writes source Anything p) (hinner : ∀ w, p w → Inner Reads w) : p (sourceWord source) := by
  obtain ⟨w, c', hscan, hc', hw⟩ :=
    h (Cursor.start source) [] (List.append_nil source).symm trivial
  obtain ⟨t, ht, heq⟩ := hscan.throughout_eq hc' (Nat.lt_succ_self source.length)
  have hend : headKind [t] = .eof := ht
  have hword : sourceWord source = w := by
    rw [sourceWord, tokenStream, heq, takeWhile_of_inner (hinner w hw) hend]
  rwa [hword]

theorem compile_eq_ok_iff {file source : Bytes} {fs : List Func} :
    compile file source = .ok fs ↔ parseSource source = (fs, []) := by
  rcases h : parseSource source with ⟨funcs, errors⟩
  cases errors with
  | nil => simp [compile, h]
  | cons e errors => simp [compile, h]

/-- The functions of a source text without errors come back from their own text, if no literal of
them is minus zero and no negative literal is the left operand of a power. -/
theorem compile_renderFuncs {file source : Bytes} {fs : List Func}
    (h : compile file source = .ok fs) (hl : ∀ f ∈ fs, f.legible = true) (file' : Bytes) :
    compile file' (renderFuncs fs) = .ok fs := by
  have hparse := compile_eq_ok_iff.mp h
  have hfs := functions_of_parseSource (congrArg Prod.snd hparse)
  rw [hparse] at hfs
  have hproper := hfs.proper (sourceWord_genuine source)
  have hword := sourceWord_of_writes (writes_renderFuncs fs hproper hl) fun _ hw => hw.inner
  exact compile_eq_ok_iff.mpr (parseSource_of_functions hword)

theorem signs_compile_renderFuncs :
    ∃ fs, compile [] (utf8 "f(num x) \x7b switch (x) \x7b case -1: print -x^-.5; \x7d \x7d") =
        .ok fs ∧
      renderFuncs fs =
        utf8 "void f(num x) \x7b switch (x) \x7b case -1: print (-(x^-0.5)); \x7d \x7d" ∧
      compile [] (renderFuncs fs) = .ok fs := by
  generalize hsource :
    utf8 "f(num x) \x7b switch (x) \x7b case -1: print -x^-.5; \x7d \x7d" = source
  have hcheck : ((compile [] source).toOption.any fun fs => fs.all Func.legible &&
      renderFuncs fs =
        utf8 "void f(num x) \x7b switch (x) \x7b case -1: print (-(x^-0.5)); \x7d \x7d") =
      true := by
    rw [← hsource]
    decide +kernel
  cases h : compile [] source with
  | error ds =>
    rw [h] at hcheck
    cases hcheck
  | ok fs =>
    rw [h] at hcheck
    obtain ⟨hlegible, htext⟩ := Bool.and_eq_true_iff.mp hcheck
    exact ⟨fs, rfl, of_decide_eq_true htext,
      compile_renderFuncs h (List.all_eq_true.mp hlegible) []⟩

example : (compile [] (utf8 "f() \x7b print (-2)^2; \x7d")).toOption.map renderFuncs =
    some (utf8 "void f() \x7b print (-2^2); \x7d") := by decide +kernel

end SmallLang
