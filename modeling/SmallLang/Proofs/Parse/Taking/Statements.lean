import SmallLang.Parse.Statement
import SmallLang.Proofs.Parse.Taking.Expressions

/-! What is taken as a statement is one of the grammar. A statement that ends with an open `if` has
no `else` behind it. -/

namespace SmallLang.Parser

open Grammar

theorem caseLiteral_takes {roomy : Prop} (ts : List Token) :
    Takes roomy ts (fun w v _ => CaseLiteral Reads w v) (caseLiteral ts) := by
  cases ts with
  | nil => exact .fail
  | cons t ts =>
    simp only [caseLiteral, bind_apply, peek_cons, Parsed.bind_ok]
    cases hk : t.kind with
    | kwTrue => exact .cons (.pure (.truth hk))
    | kwFalse => exact .cons (.pure (.falsity hk))
    | number =>
      refine (number_takes t ts).bind id fun w x rest hts ⟨hw, hx⟩ => .pure ?_
      rw [List.append_nil, hw]
      exact .num hk hx
    | minus =>
      simp only [bind_apply, skip_cons, Parsed.bind_ok]
      cases ts with
      | nil => exact .fail
      | cons u ts =>
        simp only [peek_cons, Parsed.bind_ok]
        split
        · rename_i hu
          refine .cons ((number_takes u ts).bind id fun w x rest hts ⟨hw, hx⟩ => .pure ?_)
          rw [List.append_nil, hw]
          exact .negative hk hu hx
        · exact .fail
    | _ => exact .fail

theorem condition_takes (fuel : Nat) (ts : List Token) :
    Takes (2 * ts.length + 2 ≤ fuel) ts (fun w e _ => ∃ lp v rp, w = lp :: (v ++ [rp]) ∧
      lp.kind = .lparen ∧ Expression Reads v e ∧ rp.kind = .rparen) (condition fuel ts) := by
  simp only [condition, bind_apply, discard_bind]
  refine .expect_bind (by decide) fun lp rest hts hlp => ?_
  simp only [bind_apply, hts, List.length_cons]
  refine ((takesAt fuel).expression (by decide) (by decide) rest).bind (by omega) ?_
  intro v e rest hrest he
  simp only [bind_apply, discard_bind]
  refine .expect_bind (by decide) fun rp rest hts hrp => .pure ?_
  exact ⟨lp, v, rp, rfl, hlp, he.1, hrp⟩

theorem closedExpression_takes (fuel : Nat) (ts : List Token) :
    Takes (2 * ts.length + 3 ≤ fuel) ts (fun w e _ => ∃ v semi, w = v ++ [semi] ∧
      Expression Reads v e ∧ semi.kind = .semicolon) (closedExpression fuel ts) := by
  simp only [closedExpression, bind_apply]
  refine ((takesAt fuel).expression (by decide) (by decide) ts).bind (by omega) ?_
  intro v e rest hrest he
  simp only [bind_apply, discard_bind]
  refine .expect_bind (by decide) fun semi rest hts hsemi => .pure ?_
  exact ⟨v, semi, rfl, he.1, hsemi⟩

def IsStatement (w : List Token) (s : Stmt) (rest : List Token) : Prop :=
  Statement Reads true w s ∧ (s.endsOpen = true → headKind rest ≠ .kwElse)

theorem IsStatement.closed {w rest : List Token} {s : Stmt} (h : Statement Reads true w s)
    (hs : s.endsOpen = false) : IsStatement w s rest := ⟨h, by simp [hs]⟩

theorem assignOrCall_takes {name : Token} (hname : name.kind = .ident) (fuel : Nat)
    (ts : List Token) :
    Takes (2 * ts.length + 2 ≤ fuel) ts (fun w s rest => IsStatement (name :: w) s rest)
      (assignOrCall fuel name.text ts) := by
  cases ts with
  | nil => exact .fail
  | cons t ts =>
    simp only [assignOrCall, bind_apply, peek_cons, Parsed.bind_ok, List.length_cons]
    cases hk : t.kind with
    | assign =>
      simp only [bind_apply, skip_cons, Parsed.bind_ok]
      refine .cons ((closedExpression_takes fuel ts).bind (by omega) ?_)
      intro w e rest hts ⟨v, semi, hw, he, hsemi⟩
      refine .pure (.closed ?_ rfl)
      rw [List.append_nil, hw]
      exact .assign hname hk he hsemi
    | lparen =>
      simp only [bind_apply, skip_cons, Parsed.bind_ok]
      refine .cons (((takesAt fuel).arguments ts).bind (by omega) ?_)
      intro w args rest hts ⟨v, rp, hw, hrp, hargs⟩
      simp only [bind_apply, discard_bind]
      refine .expect_bind (by decide) fun semi rest' hrest hsemi => .pure (.closed ?_ rfl)
      rw [hw, List.append_assoc]
      exact .call hname hk hargs hrp hsemi
    | _ => exact .fail

/-- What the parsers of statements take, within a bound of which two are due for each token. -/
structure StatementsAt (fuel : Nat) : Prop where
  statement : ∀ ts, Takes (2 * ts.length + 3 ≤ fuel) ts IsStatement (statement fuel ts)
  blockRest : ∀ ts, Takes (2 * ts.length + 4 ≤ fuel) ts
    (fun w body _ => ∃ v rb, w = v ++ [rb] ∧ Statements Reads true v body ∧ rb.kind = .rbrace)
    (blockRest fuel ts)
  switchCases : ∀ ts, Takes (2 * ts.length + 2 ≤ fuel) ts
    (fun w cases _ => Cases Reads true w cases) (switchCases fuel ts)
  switchDefault : ∀ ts, Takes (2 * ts.length + 2 ≤ fuel) ts
    (fun w s _ => Fallback Reads true w s) (switchDefault fuel ts)

theorem statementsAt_zero : StatementsAt 0 where
  statement _ := .starved (by omega)
  blockRest _ := .starved (by omega)
  switchCases _ := .starved (by omega)
  switchDefault _ := .starved (by omega)

theorem blockRest_takes {n : Nat} (ih : StatementsAt n) (ts : List Token) :
    Takes (2 * ts.length + 4 ≤ n + 1) ts
      (fun w body _ => ∃ v rb, w = v ++ [rb] ∧ Statements Reads true v body ∧ rb.kind = .rbrace)
      (blockRest (n + 1) ts) := by
  have hcons : Takes (2 * ts.length + 4 ≤ n + 1) ts
      (fun w body _ => ∃ v rb, w = v ++ [rb] ∧ Statements Reads true v body ∧ rb.kind = .rbrace)
      ((statement n >>= fun s => blockRest n >>= fun more => pure (s :: more)) ts) := by
    simp only [bind_apply]
    refine (ih.statement ts).bind (by omega) fun w s rest hts hs => ?_
    have hw := hs.1.starts.length_pos
    refine (ih.blockRest rest).bind ?_ fun v body rest' hrest hbody => .pure ?_
    · simp only [hts, List.length_append]
      omega
    · obtain ⟨v, rb, rfl, hbody, hrb⟩ := hbody
      exact ⟨w ++ v, rb, by simp, .cons hs.1 hbody, hrb⟩
  cases ts with
  | nil => exact .fail
  | cons t ts =>
    simp only [blockRest, bind_apply, peek_cons, Parsed.bind_ok]
    cases hk : t.kind with
    | rbrace => exact .cons (.pure ⟨[], t, rfl, .nil, hk⟩)
    | eof => exact .fail
    | _ => exact hcons

theorem switchCases_takes {n : Nat} (ih : StatementsAt n) (ts : List Token) :
    Takes (2 * ts.length + 2 ≤ n + 1) ts (fun w cases _ => Cases Reads true w cases)
      (switchCases (n + 1) ts) := by
  cases ts with
  | nil => exact .pure .nil
  | cons t ts =>
    simp only [switchCases, bind_apply, peek_cons, Parsed.bind_ok]
    split
    · rename_i hk
      simp only [bind_apply, skip_cons, Parsed.bind_ok, List.length_cons]
      refine .cons ((caseLiteral_takes ts).bind id fun l x rest hts hl => ?_)
      simp only [bind_apply, discard_bind]
      refine .expect_bind (by decide) fun colon rest' hrest hcolon => ?_
      simp only [bind_apply]
      refine (ih.statement rest').bind ?_ fun w body after hrest' hbody => ?_
      · simp only [hts, hrest, List.length_append, List.length_cons]
        omega
      · refine (ih.switchCases after).bind ?_ fun v cases after' hafter hcases => .pure ?_
        · simp only [hts, hrest, hrest', List.length_append, List.length_cons]
          omega
        · rw [List.append_nil]
          exact .cons hk hl hcolon hbody.1 hcases
    · exact .pure .nil

theorem switchDefault_takes {n : Nat} (ih : StatementsAt n) (ts : List Token) :
    Takes (2 * ts.length + 2 ≤ n + 1) ts (fun w s _ => Fallback Reads true w s)
      (switchDefault (n + 1) ts) := by
  cases ts with
  | nil => exact .pure .none
  | cons t ts =>
    simp only [switchDefault, bind_apply, peek_cons, Parsed.bind_ok]
    split
    · rename_i hk
      simp only [bind_apply, skip_cons, Parsed.bind_ok, discard_bind, List.length_cons]
      refine .cons (.expect_bind (by decide) fun colon rest hts hcolon => ?_)
      refine (ih.statement rest).mono ?_ fun w s _ hs => .some hk hcolon hs.1
      simp only [hts, List.length_cons]
      omega
    · exact .pure .none

theorem ifStatement_takes {n : Nat} (ih : StatementsAt n) {kw : Token} (hk : kw.kind = .kwIf)
    (ts : List Token) :
    Takes (2 * ts.length + 2 ≤ n) ts (fun w s rest => IsStatement (kw :: w) s rest)
      ((condition n >>= fun test => statement n >>= fun yes => peek >>= fun t =>
        if t.kind = .kwElse then
          skip >>= fun _ => statement n >>= fun no => pure (.cond test yes no)
        else pure (.cond test yes .absent)) ts) := by
  simp only [bind_apply]
  refine (condition_takes n ts).bind id fun w test rest hts hcond => ?_
  obtain ⟨lp, w, rp, rfl, hlp, he, hrp⟩ := hcond
  simp only [bind_apply]
  refine (ih.statement rest).bind ?_ fun v yes rest' hrest hyes => ?_
  · simp only [hts, List.length_append, List.length_cons]
    omega
  simp only [List.cons_append, List.append_assoc]
  cases rest' with
  | nil =>
    refine .pure ⟨?_, by simp⟩
    rw [List.append_nil]
    exact .ifOnly hk hlp he hrp hyes.1
  | cons el rest' =>
    -- an `else` right behind the first branch shows that this branch is closed
    simp only [bind_apply, peek_cons, Parsed.bind_ok]
    split
    · rename_i hel
      simp only [bind_apply, skip_cons, Parsed.bind_ok]
      have hclosed : yes.endsOpen = false := by
        cases hopen : yes.endsOpen with
        | false => rfl
        | true => exact (hyes.2 hopen hel).elim
      refine .cons ((ih.statement rest').bind ?_ fun u no after hafter hno => .pure ⟨?_, ?_⟩)
      · simp only [hts, hrest, List.length_append, List.length_cons]
        omega
      · rw [List.append_nil]
        exact .ifElse hk hlp he hrp hyes.1 (fun _ => hclosed) hel hno.1
      · simpa only [Stmt.endsOpen, hno.1.isAbsent_eq, Bool.false_or] using hno.2
    · rename_i hel
      refine .pure ⟨?_, fun _ => hel⟩
      rw [List.append_nil]
      exact .ifOnly hk hlp he hrp hyes.1

theorem whileStatement_takes {n : Nat} (ih : StatementsAt n) {kw : Token} (hk : kw.kind = .kwWhile)
    (ts : List Token) :
    Takes (2 * ts.length + 2 ≤ n) ts (fun w s rest => IsStatement (kw :: w) s rest)
      ((condition n >>= fun test => statement n >>= fun body => pure (.loop test body)) ts) := by
  simp only [bind_apply]
  refine (condition_takes n ts).bind id fun w test rest hts hcond => ?_
  obtain ⟨lp, w, rp, rfl, hlp, he, hrp⟩ := hcond
  simp only [bind_apply]
  refine (ih.statement rest).bind ?_ fun v body rest' hrest hbody => .pure ⟨?_, ?_⟩
  · simp only [hts, List.length_append, List.length_cons]
    omega
  · simp only [List.cons_append, List.append_assoc, List.append_nil]
    exact .loop hk hlp he hrp hbody.1
  · simpa only [Stmt.endsOpen] using hbody.2

theorem switchStatement_takes {n : Nat} (ih : StatementsAt n) {kw : Token}
    (hk : kw.kind = .kwSwitch) (ts : List Token) :
    Takes (2 * ts.length + 2 ≤ n) ts (fun w s rest => IsStatement (kw :: w) s rest)
      ((condition n >>= fun scrutinee => discard (expect .lbrace) >>= fun _ =>
        switchCases n >>= fun cases => switchDefault n >>= fun fallback => peek >>= fun t =>
          if t.kind = .rbrace then
            skip >>= fun _ => pure (.ofCases scrutinee cases fallback)
          else fail .switchArm) ts) := by
  simp only [bind_apply]
  refine (condition_takes n ts).bind id fun w scrutinee rest hts hcond => ?_
  obtain ⟨lp, w, rp, rfl, hlp, he, hrp⟩ := hcond
  simp only [bind_apply, discard_bind]
  refine .expect_bind (by decide) fun lb rest' hrest hlb => ?_
  simp only [bind_apply]
  refine (ih.switchCases rest').bind ?_ fun v cases after hrest' hcases => ?_
  · simp only [hts, hrest, List.length_append, List.length_cons]
    omega
  simp only [bind_apply]
  refine (ih.switchDefault after).bind ?_ fun u fallback after' hafter hfallback => ?_
  · simp only [hts, hrest, hrest', List.length_append, List.length_cons]
    omega
  cases after' with
  | nil => exact .fail
  | cons rb after' =>
    simp only [bind_apply, peek_cons, Parsed.bind_ok]
    split
    · rename_i hrb
      refine .cons (.pure (.closed ?_ rfl))
      simp only [List.cons_append, List.append_assoc, List.nil_append]
      exact .switch hk hlp he hrp hlb hcases hfallback hrb
    · exact .fail

theorem statement_takes {n : Nat} (ih : StatementsAt n) (ts : List Token) :
    Takes (2 * ts.length + 3 ≤ n + 1) ts IsStatement (statement (n + 1) ts) := by
  cases ts with
  | nil => exact .fail
  | cons t ts =>
    simp only [statement, bind_apply, peek_cons, Parsed.bind_ok, List.length_cons]
    cases hk : t.kind with
    | kwLet =>
      simp only [bind_apply, skip_cons, Parsed.bind_ok]
      refine .cons (.expect_bind (by decide) fun name rest hts hname => ?_)
      simp only [bind_apply, discard_bind]
      refine .expect_bind (by decide) fun eq rest' hrest heq => ?_
      simp only [bind_apply]
      refine (closedExpression_takes n rest').bind ?_ fun w e after hafter hclosed => ?_
      · simp only [hts, hrest, List.length_cons]
        omega
      obtain ⟨v, semi, rfl, he, hsemi⟩ := hclosed
      refine .pure (.closed ?_ rfl)
      rw [List.append_nil]
      exact .declare hk hname heq he hsemi
    | kwPrint =>
      simp only [bind_apply, skip_cons, Parsed.bind_ok]
      refine .cons ((closedExpression_takes n ts).bind (by omega) fun w e after hts hclosed => ?_)
      obtain ⟨v, semi, rfl, he, hsemi⟩ := hclosed
      refine .pure (.closed ?_ rfl)
      rw [List.append_nil]
      exact .print hk he hsemi
    | lbrace =>
      simp only [bind_apply, skip_cons, Parsed.bind_ok]
      refine .cons ((ih.blockRest ts).bind (by omega) fun w body after hts hblock => ?_)
      obtain ⟨v, rb, rfl, hbody, hrb⟩ := hblock
      refine .pure (.closed ?_ rfl)
      rw [List.append_nil]
      exact .block hk hbody hrb
    | kwIf => exact .cons ((ifStatement_takes ih hk ts).mono (by omega) fun _ _ _ h => h)
    | kwWhile => exact .cons ((whileStatement_takes ih hk ts).mono (by omega) fun _ _ _ h => h)
    | kwSwitch => exact .cons ((switchStatement_takes ih hk ts).mono (by omega) fun _ _ _ h => h)
    | ident => exact .cons ((assignOrCall_takes hk n ts).mono (by omega) fun _ _ _ h => h)
    | _ => exact .fail

theorem statementsAt (n : Nat) : StatementsAt n := by
  induction n with
  | zero => exact statementsAt_zero
  | succ n ih =>
    exact {
      statement := statement_takes ih
      blockRest := blockRest_takes ih
      switchCases := switchCases_takes ih
      switchDefault := switchDefault_takes ih }

end SmallLang.Parser
