import SmallLang.Proofs.Print.Expressions
import SmallLang.Proofs.Tree.Cases

/-! The text of a proper and legible statement is read as that statement, whatever stands behind
it. -/

namespace SmallLang

open Grammar SmallLang.Parser

attribute [local simp] Stmt.render Stmt.renderAll Stmt.renderCases

def Stmt.IsReadBack (s : Stmt) : Prop :=
  Writes s.render Anything fun w => Statement Reads true w s

namespace Writes

variable {text : Bytes} {ends : Bytes → Prop} {p : List Token → Prop} {e : Expr}

theorem terminated (he : e.IsReadBack)
    (h : ∀ w semi, Expression Reads w e → semi.kind = .semicolon → p (w ++ [semi])) :
    Writes (e.render ++ [ascii ';']) ends p := by
  refine he.writes.append (.breaks rfl) fun w hw => ?_
  refine .mark .semicolon rfl fun semi hsemi => .nil ?_
  exact h w semi (hw.layer (Nat.zero_le 6)) hsemi

theorem heading {word : Bytes} (kind : TokenKind)
    (hword : TokenKind.keywords.lookup word = some kind) (he : e.IsReadBack)
    (h : ∀ kw lp w rp, kw.kind = kind → lp.kind = .lparen → Expression Reads w e →
      rp.kind = .rparen → Writes text ends fun v => p (kw :: lp :: (w ++ rp :: v))) :
    Writes (word ++ ascii ' ' :: ascii '(' :: (e.render ++ ascii ')' :: ascii ' ' :: text))
      ends p := by
  refine .keyword kind hword (.breaks rfl) fun kw hkw => .space rfl ?_
  refine .mark .lparen rfl fun lp hlp => ?_
  refine he.writes.append (.breaks rfl) fun w hw => ?_
  refine .mark .rparen rfl fun rp hrp => .space rfl ?_
  exact h kw lp w rp hkw hlp (hw.layer (Nat.zero_le 6)) hrp

theorem closing (h : ∀ rb : Token, rb.kind = .rbrace → p [rb]) :
    Writes [ascii ' ', ascii '\x7d'] ends p :=
  .space rfl (.mark .rbrace rfl fun rb hrb => .nil (h rb hrb))

theorem statements {body : List Stmt} (h : ∀ s ∈ body, s.IsReadBack) :
    Writes (Stmt.renderAll body) Anything fun w => Statements Reads true w body := by
  induction body with
  | nil => exact .nil .nil
  | cons s rest ih =>
    obtain ⟨hs, hrest⟩ := List.forall_mem_cons.mp h
    have htext : Stmt.renderAll (s :: rest) = ascii ' ' :: (s.render ++ Stmt.renderAll rest) := by
      simp only [Stmt.renderAll, List.append_assoc]
      rfl
    rw [htext]
    refine .space rfl (hs.append .anything fun w hw => ?_)
    exact (ih hrest).mono fun v hv => .cons hw hv

theorem cases {cases : List Switch.Case}
    (h : ∀ c ∈ cases, c.1.Finite ∧ c.1.legible = true ∧ c.2.IsReadBack) :
    Writes (Stmt.renderCases cases) Anything fun w => Cases Reads true w cases := by
  induction cases with
  | nil => exact .nil .nil
  | cons c rest ih =>
    obtain ⟨v, body⟩ := c
    obtain ⟨⟨hv, hl, hbody⟩, hrest⟩ := List.forall_mem_cons.mp h
    have htext : Stmt.renderCases ((v, body) :: rest) = ascii ' ' :: (utf8 "case" ++ ascii ' ' ::
        (v.text ++ ascii ':' :: ascii ' ' :: (body.render ++ Stmt.renderCases rest))) := by
      simp only [Stmt.renderCases, List.append_assoc]
      rfl
    rw [htext]
    refine .space rfl (.keyword .kwCase rfl (.breaks rfl) fun kw hkw => .space rfl ?_)
    refine (Value.writes hv hl).append (.breaks rfl) fun l hliteral => ?_
    refine .mark .colon rfl fun colon hcolon => .space rfl ?_
    refine hbody.append .anything fun w hw => ?_
    refine (ih hrest).mono fun u hu => ?_
    simpa using Cases.cons hkw hliteral hcolon hw hu

theorem fallback {s : Stmt} (h : s = .absent ∨ s.isAbsent = false ∧ s.IsReadBack) :
    Writes (if s.isAbsent then [] else ascii ' ' ::
      (utf8 "default" ++ ascii ':' :: ascii ' ' :: s.render)) Anything
      fun w => Fallback Reads true w s := by
  rcases h with rfl | ⟨habsent, hs⟩
  · exact .nil .none
  · rw [habsent]
    refine .space rfl (.keyword .kwDefault rfl (.breaks rfl) fun kw hkw => ?_)
    refine .mark .colon rfl fun colon hcolon => .space rfl ?_
    exact hs.mono fun w hw => .some hkw hcolon hw

end Writes

namespace Stmt

theorem Proper.isAbsent_eq {s : Stmt} (h : s.Proper) : s.isAbsent = false := by
  cases s with
  | absent => exact h.elim
  | _ => rfl

theorem ofCases_eq {scrutinee : Expr} {cases : List Switch.Case} {fallback : Stmt}
    (h : CasesProper cases) (hdistinct : Switch.Distinct cases) :
    ofCases scrutinee cases fallback = .switch scrutinee cases fallback := by
  rw [ofCases, Switch.resolve_eq_self h hdistinct]

namespace IsReadBack

variable {name : Name} {e : Expr}

theorem declare (hname : IsName name) (he : e.IsReadBack) : (Stmt.declare name e).IsReadBack := by
  have htext : (Stmt.declare name e).render = utf8 "let" ++ ascii ' ' ::
      (name ++ ascii ' ' :: ascii '=' :: ascii ' ' :: (e.render ++ [ascii ';'])) := by
    simp only [render, List.append_assoc]
    rfl
  rw [IsReadBack, htext]
  refine .keyword .kwLet rfl (.breaks rfl) fun kw hkw => .space rfl ?_
  refine .name hname (.breaks rfl) fun t ht hname => .space rfl ?_
  refine .assign fun eq heq => .terminated he fun w semi hw hsemi => ?_
  exact hname ▸ .declare hkw ht heq hw hsemi

theorem assign (hname : IsName name) (he : e.IsReadBack) : (Stmt.assign name e).IsReadBack := by
  have htext : (Stmt.assign name e).render =
      name ++ ascii ' ' :: ascii '=' :: ascii ' ' :: (e.render ++ [ascii ';']) := by
    simp only [render, List.append_assoc]
    rfl
  rw [IsReadBack, htext]
  refine .name hname (.breaks rfl) fun t ht hname => .space rfl ?_
  refine .assign fun eq heq => .terminated he fun w semi hw hsemi => ?_
  exact hname ▸ .assign ht heq hw hsemi

theorem print (he : e.IsReadBack) : (Stmt.print e).IsReadBack := by
  have htext : (Stmt.print e).render =
      utf8 "print" ++ ascii ' ' :: (e.render ++ [ascii ';']) := by
    simp only [render, List.append_assoc]
    rfl
  rw [IsReadBack, htext]
  refine .keyword .kwPrint rfl (.breaks rfl) fun kw hkw => .space rfl ?_
  exact .terminated he fun w semi hw hsemi => .print hkw hw hsemi

theorem block {body : List Stmt} (hbody : ∀ s ∈ body, s.IsReadBack) :
    (Stmt.block body).IsReadBack := by
  have htext : (Stmt.block body).render =
      ascii '\x7b' :: (renderAll body ++ [ascii ' ', ascii '\x7d']) := by
    simp only [render, List.append_assoc]
    rfl
  rw [IsReadBack, htext]
  refine .mark .lbrace rfl fun lb hlb => ?_
  refine (Writes.statements hbody).append .anything fun w hw => ?_
  exact .closing fun rb hrb => .block hlb hw hrb

theorem cond {yes no : Stmt} (he : e.IsReadBack) (hyes : yes.IsReadBack)
    (hno : no = .absent ∨ no.isAbsent = false ∧ no.IsReadBack ∧ yes.endsOpen = false) :
    (Stmt.cond e yes no).IsReadBack := by
  have htext : (Stmt.cond e yes no).render = utf8 "if" ++ ascii ' ' :: ascii '(' ::
      (e.render ++ ascii ')' :: ascii ' ' :: (yes.render ++
        (if no.isAbsent then [] else ascii ' ' :: (utf8 "else" ++ ascii ' ' :: no.render)))) := by
    simp only [render, List.append_assoc]
    rfl
  rw [IsReadBack, htext]
  refine .heading .kwIf rfl he fun kw lp w rp hkw hlp hw hrp => ?_
  refine Writes.append hyes .anything fun v hv => ?_
  rcases hno with rfl | ⟨habsent, hno, hclosed⟩
  · refine .nil ?_
    rw [List.append_nil]
    exact .ifOnly hkw hlp hw hrp hv
  · rw [habsent]
    refine .space rfl (.keyword .kwElse rfl (.breaks rfl) fun el hel => .space rfl ?_)
    -- nothing in the first branch can take the `else`
    exact Writes.mono hno fun u hu => .ifElse hkw hlp hw hrp hv (fun _ => hclosed) hel hu

theorem loop {body : Stmt} (he : e.IsReadBack) (hbody : body.IsReadBack) :
    (Stmt.loop e body).IsReadBack := by
  have htext : (Stmt.loop e body).render = utf8 "while" ++ ascii ' ' :: ascii '(' ::
      (e.render ++ ascii ')' :: ascii ' ' :: body.render) := by
    simp only [render, List.append_assoc]
    rfl
  rw [IsReadBack, htext]
  refine .heading .kwWhile rfl he fun kw lp w rp hkw hlp hw hrp => ?_
  exact Writes.mono hbody fun v hv => .loop hkw hlp hw hrp hv

theorem switch {cases : List Switch.Case} {fallback : Stmt} (he : e.IsReadBack)
    (hcases : ∀ c ∈ cases, c.1.Finite ∧ c.1.legible = true ∧ c.2.IsReadBack)
    (hresolved : ofCases e cases fallback = .switch e cases fallback)
    (hfallback : fallback = .absent ∨ fallback.isAbsent = false ∧ fallback.IsReadBack) :
    (Stmt.switch e cases fallback).IsReadBack := by
  have htext : (Stmt.switch e cases fallback).render = utf8 "switch" ++ ascii ' ' ::
      ascii '(' :: (e.render ++ ascii ')' :: ascii ' ' :: ascii '\x7b' ::
        (renderCases cases ++ ((if fallback.isAbsent then [] else ascii ' ' ::
          (utf8 "default" ++ ascii ':' :: ascii ' ' :: fallback.render)) ++
            [ascii ' ', ascii '\x7d']))) := by
    simp only [render, List.append_assoc]
    rfl
  rw [IsReadBack, htext]
  refine .heading .kwSwitch rfl he fun kw lp w rp hkw hlp hw hrp => ?_
  refine .mark .lbrace rfl fun lb hlb => ?_
  refine (Writes.cases hcases).append .anything fun v hv => ?_
  refine (Writes.fallback hfallback).append .anything fun u hu => .closing fun rb hrb => ?_
  exact hresolved ▸ .switch hkw hlp hw hrp hlb hv hu hrb

theorem call {func : Name} {args : List Expr} (hfunc : IsName func)
    (hargs : ∀ e ∈ args, e.IsReadBack) : (Stmt.call func args).IsReadBack := by
  have htext : (Stmt.call func args).render =
      func ++ ascii '(' :: (Expr.renderArgs args ++ [ascii ')', ascii ';']) := by
    simp only [render, List.append_assoc]
    rfl
  rw [IsReadBack, htext]
  refine .name hfunc (.breaks rfl) fun name hname hfunc => ?_
  refine .mark .lparen rfl fun lp hlp => ?_
  refine (Writes.arguments hargs).append (.breaks rfl) fun w hw => ?_
  refine .mark .rparen rfl fun rp hrp => ?_
  refine .mark .semicolon rfl fun semi hsemi => .nil ?_
  exact hfunc ▸ .call hname hlp hw hrp hsemi

end IsReadBack

mutual

theorem isReadBack : (s : Stmt) → s.Proper → s.legible = true → s.IsReadBack
  | .declare _ init, ⟨hname, hinit⟩, hl => .declare hname (init.isReadBack hinit hl)
  | .assign _ value, ⟨hname, hvalue⟩, hl => .assign hname (value.isReadBack hvalue hl)
  | .print value, hvalue, hl => .print (value.isReadBack hvalue hl)
  | .block body, hbody, hl => .block (allReadBack body hbody hl)
  | .cond test yes no, ⟨htest, hyes, hno⟩, hl => by
    obtain ⟨hl, hlno⟩ := Bool.and_eq_true_iff.mp hl
    obtain ⟨hltest, hlyes⟩ := Bool.and_eq_true_iff.mp hl
    refine .cond (test.isReadBack htest hltest) (yes.isReadBack hyes hlyes) (hno.imp_right ?_)
    exact fun ⟨hno, hclosed⟩ => ⟨hno.isAbsent_eq, no.isReadBack hno hlno, hclosed⟩
  | .loop test body, ⟨htest, hbody⟩, hl => by
    obtain ⟨hltest, hlbody⟩ := Bool.and_eq_true_iff.mp hl
    exact .loop (test.isReadBack htest hltest) (body.isReadBack hbody hlbody)
  | .switch scrutinee cases fallback, ⟨hscrutinee, hcases, hdistinct, hfallback⟩, hl => by
    obtain ⟨hl, hlfallback⟩ := Bool.and_eq_true_iff.mp hl
    obtain ⟨hlscrutinee, hlcases⟩ := Bool.and_eq_true_iff.mp hl
    refine .switch (scrutinee.isReadBack hscrutinee hlscrutinee)
      (casesReadBack cases hcases hlcases) (ofCases_eq hcases hdistinct) (hfallback.imp_right ?_)
    exact fun hfallback => ⟨hfallback.isAbsent_eq, fallback.isReadBack hfallback hlfallback⟩
  | .call _ args, ⟨hfunc, hargs⟩, hl => .call hfunc (Expr.allReadBack args hargs hl)
  | .absent, h, _ => h.elim

theorem allReadBack : (body : List Stmt) → AllProper body → allLegible body = true →
    ∀ s ∈ body, s.IsReadBack
  | [], _, _ => by simp
  | s :: rest, ⟨hs, hrest⟩, hl => by
    obtain ⟨hls, hlrest⟩ := Bool.and_eq_true_iff.mp hl
    exact List.forall_mem_cons.mpr ⟨s.isReadBack hs hls, allReadBack rest hrest hlrest⟩

theorem casesReadBack : (cases : List Switch.Case) → CasesProper cases →
    casesLegible cases = true →
    ∀ c ∈ cases, c.1.Finite ∧ c.1.legible = true ∧ c.2.IsReadBack
  | [], _, _ => by simp
  | (_, body) :: rest, ⟨hv, hbody, hrest⟩, hl => by
    obtain ⟨hl, hlrest⟩ := Bool.and_eq_true_iff.mp hl
    obtain ⟨hlv, hlbody⟩ := Bool.and_eq_true_iff.mp hl
    exact List.forall_mem_cons.mpr
      ⟨⟨hv, hlv, body.isReadBack hbody hlbody⟩, casesReadBack rest hrest hlrest⟩

end

end Stmt

end SmallLang
