import Mathlib.Logic.Relation
import SmallLang.Proofs.Parse.Progress.Statements
import SmallLang.Proofs.Parse.Taking.Functions

/-! Every routine runs out of depth only if one that it calls does. A depth that is linear in the
number of tokens therefore is enough. -/

namespace SmallLang.Parser

variable {fits : Routine → List Token → Prop} {roomy : Prop} {n : Nat}

theorem returnType_advances (ts : List Token) : Advances (Room fits ts) 0 ts (returnType ts) := by
  cases ts with
  | nil => exact .pure _
  | cons t ts =>
    simp only [returnType, bind_apply, peek_cons, Parsed.bind_ok]
    cases hk : t.kind with
    | kwNum => exact .skip (by simp [hk]) (.pure _)
    | kwBool => exact .skip (by simp [hk]) (.pure _)
    | kwVoid => exact .skip (by simp [hk]) (.pure _)
    | _ => exact .pure _

theorem functionName_advances (ts : List Token) :
    Advances (Room fits ts) 0 ts (functionName ts) := by
  cases ts with
  | nil => exact .failed _
  | cons t ts =>
    simp only [functionName, bind_apply, peek_cons, Parsed.bind_ok]
    split
    · rename_i ht
      exact .skip (by simp [ht]) (.pure _)
    · exact .failed _

theorem parameter_advances (ts : List Token) : Advances roomy 1 ts (parameter ts) := by
  cases ts with
  | nil => exact .failed _
  | cons t ts =>
    have hroom : roomy → Room (fun _ _ => roomy) ts := fun h _ _ _ => h
    have hname (type : Ty) (ht : t.kind ≠ .eof) : Advances roomy 1 (t :: ts)
        ((skip >>= fun _ => expect .ident >>= fun name =>
          pure (⟨type, name.text⟩ : Param)) (t :: ts)) :=
      .skip_of ht (Nat.le_refl 1) hroom ((Advances.expect (by decide)).bind fun _ _ => .pure _)
    simp only [parameter, bind_apply, peek_cons, Parsed.bind_ok]
    cases hk : t.kind with
    | kwNum => exact hname .num (by simp [hk])
    | kwBool => exact hname .bool (by simp [hk])
    | _ => exact .failed _

section Calls

variable (ih : AdvanceAt fits n)
include ih

theorem someParameters_advances (ts : List Token) :
    Advances (CallsFit fits .someParameters ts) 1 ts (someParameters (n + 1) ts) := by
  refine (parameter_advances ts).bind_first fun p ts => ?_
  have hclose (ts : List Token) : Advances (Room fits ts) 0 ts
      ((discard (expect .rparen) >>= fun _ => (pure [p] : Parser (List Param))) ts) :=
    .discard_expect (by decide) fun _ => .pure [p]
  cases ts with
  | nil => exact hclose []
  | cons t ts =>
    simp only [bind_apply, peek_cons, Parsed.bind_ok]
    split
    · rename_i ht
      exact .skip (by simp [ht]) ((ih.call .someParameters ts).bind fun more _ => .pure (p :: more))
    · exact hclose (t :: ts)

theorem functionBody_advances (name : Bytes) (ts : List Token) :
    Advances (CallsFit fits (.functionBody name) ts) 0 ts (functionBody name (n + 1) ts) := by
  cases ts with
  | nil => exact .failed _
  | cons t ts =>
    have hmore : Advances (CallsFit fits (.functionBody name) (t :: ts)) 1 (t :: ts)
        ((statement n >>= fun s => functionBody name n >>= fun more => pure (s :: more))
          (t :: ts)) := by
      refine (ih.opened (.functionBody name) (t :: ts)).bind_first fun s rest => ?_
      exact (ih.call (.functionBody name) rest).bind fun more _ => .pure (s :: more)
    simp only [functionBody, bind_apply, peek_cons, Parsed.bind_ok]
    cases hk : t.kind with
    | rbrace => exact .pure []
    | kwReturn => exact .pure []
    | eof => exact .failed _
    | _ => exact hmore.mono id (Nat.zero_le 1)

/-- One call deep, all routines advance where the routines that they call have room. -/
theorem AdvanceAt.step (r : Routine) (ts : List Token) :
    Advances (CallsFit fits r ts) r.least ts (r.parser (n + 1) ts) := by
  cases r with
  | expression level => exact expression_advances ih level ts
  | operand => exact operand_advances ih ts
  | operators level left => exact operators_advances ih level left ts
  | arguments => exact arguments_advances ih ts
  | moreArguments => exact moreArguments_advances ih ts
  | statement => exact statement_advances ih ts
  | blockRest => exact blockRest_advances ih ts
  | switchCases => exact switchCases_advances ih ts
  | switchDefault => exact switchDefault_advances ih ts
  | someParameters => exact someParameters_advances ih ts
  | functionBody name => exact functionBody_advances ih name ts

theorem parameters_advances (ts : List Token) : Advances (Room fits ts) 0 ts (parameters n ts) := by
  have hsome : Advances (Room fits ts) 0 ts (someParameters n ts) :=
    (ih.call .someParameters ts).mono id (Nat.zero_le 1)
  cases ts with
  | nil => exact hsome
  | cons t ts =>
    simp only [parameters, bind_apply, peek_cons, Parsed.bind_ok]
    split
    · rename_i ht
      exact .skip (by simp [ht]) (.pure [])
    · exact hsome

theorem returnValue_advances (ts : List Token) :
    Advances (Room fits ts) 0 ts (returnValue n ts) := by
  have hvalue : Advances (Room fits ts) 0 ts
      ((closedExpression n >>= fun e => (pure (some e) : Parser (Option Expr))) ts) :=
    (closedExpression_advances ih ts).bind fun _ _ => .pure _
  cases ts with
  | nil => exact hvalue
  | cons t ts =>
    simp only [returnValue, bind_apply, peek_cons, Parsed.bind_ok]
    split
    · rename_i ht
      exact .skip (by simp [ht]) (.pure none)
    · exact hvalue

/-- The body of a function leaves a `return` or a brace in front. -/
theorem functionEnd_advances (name : Bytes) {ts : List Token}
    (hts : headKind ts = .rbrace ∨ headKind ts = .kwReturn) :
    Advances (Room fits ts) 0 ts (functionEnd name n ts) := by
  cases ts with
  | nil => simp at hts
  | cons t ts =>
    have ht : t.kind ≠ .eof := by
      rintro ht
      simp [ht] at hts
    simp only [functionEnd, bind_apply, peek_cons, Parsed.bind_ok]
    split
    · refine .skip ht ((returnValue_advances ih ts).bind fun result ts => ?_)
      cases ts with
      | nil => exact .failed _
      | cons t ts =>
        simp only [bind_apply, peek_cons, Parsed.bind_ok]
        split
        · rename_i hrb
          exact .skip (by simp [hrb]) (.pure result)
        · exact .failed _
    · exact .skip ht (.pure none)

theorem function_advances (ts : List Token) : Advances (Room fits ts) 0 ts (function n ts) := by
  refine (returnType_advances ts).bind fun returns ts => ?_
  refine (functionName_advances ts).bind fun name ts => ?_
  refine .discard_expect (by decide) fun ts => ?_
  refine (parameters_advances ih ts).bind fun params ts => ?_
  refine .discard_expect (by decide) fun ts => ?_
  refine (ih.call (.functionBody name) ts).bind_eq fun body rest hbody => ?_
  have hrest : headKind rest = .rbrace ∨ headKind rest = .kwReturn := by
    have htakes := functionBody_takes name n ts
    rw [show functionBody name n ts = .ok body rest from hbody] at htakes
    cases htakes with
    | ok _ htaken => exact htaken.2
  exact (functionEnd_advances ih name hrest).bind fun result _ => .pure _

end Calls

theorem parser_zero (r : Routine) (ts : List Token) : r.parser 0 ts = .starved := by
  cases r <;> rfl

theorem advanceAt (n : Nat) : AdvanceAt (fun r ts => demand (r, ts) < n) n := by
  induction n with
  | zero =>
    intro r ts
    rw [parser_zero]
    exact .starved (Nat.not_lt_zero _)
  | succ n ih =>
    intro r ts
    -- a call has a lower demand than its caller, so it fits the depth that is left
    refine (AdvanceAt.step ih r ts).mono (fun h r' ts' hcall => ?_) (Nat.le_refl _)
    exact Nat.lt_of_lt_of_le hcall.demand_lt (Nat.le_of_lt_succ h)

theorem answeredAt (n : Nat) : AdvanceAt (fun r ts => r.parser n ts ≠ .starved) n :=
  fun r ts => (advanceAt n r ts).answered

/-- A routine that runs out of depth has called one that does, by the calls that are listed. -/
theorem ne_starved_of_calls {n : Nat} {r : Routine} {ts : List Token}
    (h : ∀ r' ts', Calls (r, ts) (r', ts') → r'.parser n ts' ≠ .starved) :
    r.parser (n + 1) ts ≠ .starved :=
  ((answeredAt n).step r ts).ne_starved h

theorem Calls.shrinks {c c' : Routine × List Token} (h : Calls c c') :
    c'.2 <:+ c.2 ∧ (c'.2.length < c.2.length ∨ c'.1.height < c.1.height) := by
  cases h with
  | opens ts h => exact ⟨List.suffix_refl ts, .inr h.height_lt⟩
  | @behind r r' w ts hw =>
    refine ⟨List.suffix_append w ts, .inl ?_⟩
    simp only [List.length_append]
    omega

theorem chain_shrinks {c c' : Routine × List Token} (h : Relation.TransGen Calls c c') :
    c'.2 <:+ c.2 ∧ (c'.2.length < c.2.length ∨ c'.1.height < c.1.height) := by
  induction h with
  | single h => exact h.shrinks
  | tail _ h ih =>
    obtain ⟨hsuffix, hlength⟩ := h.shrinks
    have hle := ih.1.length_le
    have hle' := hsuffix.length_le
    exact ⟨hsuffix.trans ih.1, by omega⟩

/-- Between two calls of the same parser, the second within the first, there are tokens taken. -/
theorem cycle_consumes {r r' : Routine} {ts ts' : List Token} (hr : r.ctorIdx = r'.ctorIdx)
    (h : Relation.TransGen Calls (r, ts) (r', ts')) :
    ts' <:+ ts ∧ ts'.length < ts.length := by
  obtain ⟨hsuffix, hlength⟩ := chain_shrinks h
  rw [Routine.height_eq hr] at hlength
  exact ⟨hsuffix, hlength.resolve_right (Nat.lt_irrefl _)⟩

theorem function_advanced (n : Nat) (ts : List Token) :
    Advances (3 * ts.length + 2 < n) 0 ts (function n ts) := by
  refine (function_advances (advanceAt n) ts).mono (fun hn r rest hrest => ?_) (Nat.le_refl 0)
  have hlength := hrest.length_le
  have hheight := r.height_le
  simp only [demand]
  omega

end SmallLang.Parser
