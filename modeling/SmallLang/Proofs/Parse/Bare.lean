import SmallLang.Parse.Program
import SmallLang.Proofs.Parse.Taking.Basic

/-! Parsers look at the kinds and the texts of tokens. Lines and columns only pass through them,
into the tokens that they leave and into the errors. -/

namespace SmallLang

def Token.bare (t : Token) : Token := ⟨t.kind, t.text, 0, 0⟩

def SyntaxError.bare (e : SyntaxError) : SyntaxError := ⟨e.cause, e.token.bare⟩

theorem SyntaxError.message_bare (e : SyntaxError) : e.bare.message = e.message := by
  cases e with
  | mk cause token => cases cause <;> rfl

theorem SyntaxError.isLexical_bare (e : SyntaxError) : e.bare.isLexical = e.isLexical := rfl

variable {α β : Type}

def Parsed.bare : Parsed α → Parsed α
  | .ok a rest => .ok a (rest.map Token.bare)
  | .fail cause rest => .fail cause (rest.map Token.bare)
  | .starved => .starved

namespace Parser

/-- Without the places of the tokens the parser does the same. -/
def Blind (p : Parser α) : Prop := ∀ ts, p (ts.map Token.bare) = (p ts).bare

theorem headD_bare (ts : List Token) :
    (ts.map Token.bare).headD Token.ending = (ts.headD Token.ending).bare := by
  cases ts <;> rfl

namespace Blind

variable {p : Parser α} {f : α → Parser β}

theorem pure {a : α} : Blind (pure a) := fun _ => rfl

theorem fail {cause : SyntaxCause} : Blind (fail cause : Parser α) := fun _ => rfl

theorem starve : Blind (starve : Parser α) := fun _ => rfl

theorem skip : Blind skip := by
  intro ts
  rw [Parser.skip, ← List.map_tail, Parser.skip, Parsed.bare]

theorem bind (hp : Blind p) (hf : ∀ a, Blind (f a)) : Blind (p >>= f) := by
  intro ts
  rw [bind_apply, bind_apply, hp ts]
  cases p ts with
  | ok a rest => exact hf a rest
  | fail cause rest => rfl
  | starved => rfl

theorem skip_bind {f : Unit → Parser β} (h : Blind (f ())) : Blind (Parser.skip >>= f) :=
  skip.bind fun _ => h

theorem peek_bind {f : Token → Parser β} (h : ∀ t, Blind (f t))
    (hf : ∀ t, f t.bare = f t) : Blind (peek >>= f) := by
  intro ts
  have hpeek (ts : List Token) : (peek >>= f) ts = f (ts.headD Token.ending) ts := rfl
  rw [hpeek, hpeek, headD_bare, hf, h]

theorem expect_bind {kind : TokenKind} {f : Token → Parser β} (h : ∀ t, Blind (f t))
    (hf : ∀ t, f t.bare = f t) : Blind (expect kind >>= f) := by
  have hexpect : (expect kind >>= f) = peek >>= fun t =>
      if t.kind = kind then Parser.skip >>= fun _ => f t else Parser.fail (.expected kind) := by
    funext ts
    simp only [expect, bind_apply, peek, Parsed.bind_ok]
    split <;> rfl
  rw [hexpect]
  refine peek_bind (fun t => ?_) fun t => ?_
  · split
    · exact skip_bind (h t)
    · exact fail
  · rw [hf t]
    rfl

theorem discard_expect {kind : TokenKind} : Blind (discard (expect kind)) :=
  expect_bind (fun _ => pure) fun _ => rfl

end Blind

section Expressions

theorem number_blind : Blind number := by
  refine .peek_bind (fun t => ?_) fun _ => rfl
  cases Number.read? t.text with
  | none => exact .fail
  | some x => exact .skip_bind .pure

theorem inputType_blind : Blind inputType := by
  refine Blind.discard_expect.bind fun _ => .peek_bind (fun t => ?_) fun _ => rfl
  have hclosed (type : Ty) : Blind (pure type >>= fun type => skip >>= fun _ =>
      discard (expect .gt) >>= fun _ => (pure type : Parser Ty)) :=
    Blind.pure.bind fun _ => .skip_bind (Blind.discard_expect.bind fun _ => .pure)
  cases t.kind with
  | kwNum => exact hclosed .num
  | kwBool => exact hclosed .bool
  | _ => exact Blind.fail

structure ExpressionsBlind (fuel : Nat) : Prop where
  expression : ∀ level, Blind (expression fuel level)
  operand : Blind (operand fuel)
  operators : ∀ level left, Blind (operators fuel level left)
  arguments : Blind (arguments fuel)
  moreArguments : Blind (moreArguments fuel)

section

variable {fuel : Nat} (ih : ExpressionsBlind fuel)
include ih

theorem operand_blind : Blind (operand (fuel + 1)) := by
  rw [operand]
  refine .peek_bind (fun t => ?_) fun _ => rfl
  cases t.kind with
  | ident =>
    refine .skip_bind (.peek_bind (fun following => ?_) fun _ => rfl)
    split
    · exact .skip_bind (ih.arguments.bind fun _ => .pure)
    · exact .pure
  | number => exact number_blind.bind fun _ => .pure
  | kwTrue => exact .skip_bind .pure
  | kwFalse => exact .skip_bind .pure
  | kwInput => exact .skip_bind (inputType_blind.bind fun _ => .pure)
  | minus => exact .skip_bind ((ih.expression signLevel).bind fun _ => .pure)
  | bang => exact .skip_bind ((ih.expression signLevel).bind fun _ => .pure)
  | lparen =>
    refine .skip_bind ((ih.expression lowestLevel).bind fun _ => ?_)
    exact Blind.discard_expect.bind fun _ => .pure
  | _ => exact .fail

theorem operators_blind (level : Nat) (left : Expr) : Blind (operators (fuel + 1) level left) := by
  rw [operators]
  refine .peek_bind (fun t => ?_) fun _ => rfl
  cases t.kind.operator? with
  | none => exact .pure
  | some i =>
    simp only
    split
    · exact .skip_bind ((ih.expression i.rightLevel).bind fun _ => ih.operators level _)
    · exact .pure

theorem arguments_blind : Blind (arguments (fuel + 1)) := by
  rw [arguments]
  refine .peek_bind (fun t => ?_) fun _ => rfl
  split
  · exact .skip_bind .pure
  · exact (ih.expression lowestLevel).bind fun _ => ih.moreArguments.bind fun _ => .pure

theorem moreArguments_blind : Blind (moreArguments (fuel + 1)) := by
  rw [moreArguments]
  refine .peek_bind (fun t => ?_) fun _ => rfl
  split
  · refine .skip_bind ((ih.expression lowestLevel).bind fun _ => ?_)
    exact ih.moreArguments.bind fun _ => .pure
  · exact Blind.discard_expect.bind fun _ => .pure

end

theorem expressionsBlind (fuel : Nat) : ExpressionsBlind fuel := by
  induction fuel with
  | zero => exact ⟨fun _ => .starve, .starve, fun _ _ => .starve, .starve, .starve⟩
  | succ fuel ih =>
    have hexpression (level : Nat) : Blind (expression (fuel + 1) level) := by
      rw [expression]
      exact ih.operand.bind fun left => ih.operators level left
    exact ⟨hexpression, operand_blind ih, operators_blind ih, arguments_blind ih,
      moreArguments_blind ih⟩

end Expressions

section Statements

variable (fuel : Nat)

theorem caseLiteral_blind : Blind caseLiteral := by
  refine .peek_bind (fun t => ?_) fun _ => rfl
  cases t.kind with
  | kwTrue => exact .skip_bind .pure
  | kwFalse => exact .skip_bind .pure
  | minus =>
    refine .skip_bind (.peek_bind (fun following => ?_) fun _ => rfl)
    split
    · exact number_blind.bind fun _ => .pure
    · exact .fail
  | number => exact number_blind.bind fun _ => .pure
  | _ => exact .fail

theorem condition_blind : Blind (condition fuel) := by
  refine Blind.discard_expect.bind fun _ => ?_
  refine ((expressionsBlind fuel).expression lowestLevel).bind fun _ => ?_
  exact Blind.discard_expect.bind fun _ => .pure

theorem closedExpression_blind : Blind (closedExpression fuel) := by
  refine ((expressionsBlind fuel).expression lowestLevel).bind fun _ => ?_
  exact Blind.discard_expect.bind fun _ => .pure

theorem assignOrCall_blind (name : Bytes) : Blind (assignOrCall fuel name) := by
  refine .peek_bind (fun t => ?_) fun _ => rfl
  cases t.kind with
  | assign => exact .skip_bind ((closedExpression_blind fuel).bind fun _ => .pure)
  | lparen =>
    refine .skip_bind ((expressionsBlind fuel).arguments.bind fun _ => ?_)
    exact Blind.discard_expect.bind fun _ => .pure
  | _ => exact .fail

structure StatementsBlind : Prop where
  statement : Blind (statement fuel)
  blockRest : Blind (blockRest fuel)
  switchCases : Blind (switchCases fuel)
  switchDefault : Blind (switchDefault fuel)

variable {fuel} (ih : StatementsBlind fuel)
include ih

theorem statement_blind : Blind (statement (fuel + 1)) := by
  rw [statement]
  refine .peek_bind (fun t => ?_) fun _ => rfl
  cases t.kind with
  | kwLet =>
    refine .skip_bind (.expect_bind (fun name => ?_) fun _ => rfl)
    refine Blind.discard_expect.bind fun _ => ?_
    exact (closedExpression_blind fuel).bind fun _ => .pure
  | kwPrint => exact .skip_bind ((closedExpression_blind fuel).bind fun _ => .pure)
  | lbrace => exact .skip_bind (ih.blockRest.bind fun _ => .pure)
  | kwIf =>
    refine .skip_bind ((condition_blind fuel).bind fun _ => ih.statement.bind fun _ => ?_)
    refine .peek_bind (fun following => ?_) fun _ => rfl
    split
    · exact .skip_bind (ih.statement.bind fun _ => .pure)
    · exact .pure
  | kwWhile =>
    exact .skip_bind ((condition_blind fuel).bind fun _ => ih.statement.bind fun _ => .pure)
  | kwSwitch =>
    refine .skip_bind ((condition_blind fuel).bind fun _ => Blind.discard_expect.bind fun _ => ?_)
    refine ih.switchCases.bind fun _ => ih.switchDefault.bind fun _ => ?_
    refine .peek_bind (fun last => ?_) fun _ => rfl
    split
    · exact .skip_bind .pure
    · exact .fail
  | ident => exact .skip_bind (assignOrCall_blind fuel t.text)
  | _ => exact .fail

theorem blockRest_blind : Blind (blockRest (fuel + 1)) := by
  rw [blockRest]
  refine .peek_bind (fun t => ?_) fun _ => rfl
  cases t.kind with
  | rbrace => exact .skip_bind .pure
  | eof => exact .fail
  | _ => exact ih.statement.bind fun _ => ih.blockRest.bind fun _ => .pure

theorem switchCases_blind : Blind (switchCases (fuel + 1)) := by
  rw [switchCases]
  refine .peek_bind (fun t => ?_) fun _ => rfl
  split
  · refine .skip_bind (caseLiteral_blind.bind fun _ => Blind.discard_expect.bind fun _ => ?_)
    exact ih.statement.bind fun _ => ih.switchCases.bind fun _ => .pure
  · exact .pure

theorem switchDefault_blind : Blind (switchDefault (fuel + 1)) := by
  rw [switchDefault]
  refine .peek_bind (fun t => ?_) fun _ => rfl
  split
  · exact .skip_bind (Blind.discard_expect.bind fun _ => ih.statement)
  · exact .pure

omit ih

theorem statementsBlind (fuel : Nat) : StatementsBlind fuel := by
  induction fuel with
  | zero => exact ⟨.starve, .starve, .starve, .starve⟩
  | succ fuel ih =>
    exact ⟨statement_blind ih, blockRest_blind ih, switchCases_blind ih, switchDefault_blind ih⟩

end Statements

section Functions

variable (fuel : Nat)

theorem returnType_blind : Blind returnType := by
  refine .peek_bind (fun t => ?_) fun _ => rfl
  cases t.kind with
  | kwNum => exact .skip_bind .pure
  | kwBool => exact .skip_bind .pure
  | kwVoid => exact .skip_bind .pure
  | _ => exact .pure

theorem functionName_blind : Blind functionName := by
  refine .peek_bind (fun t => ?_) fun _ => rfl
  split
  · exact .skip_bind .pure
  · exact .fail

theorem parameter_blind : Blind parameter := by
  refine .peek_bind (fun t => ?_) fun _ => rfl
  have hname (type : Ty) : Blind (pure type >>= fun type => skip >>= fun _ =>
      expect .ident >>= fun name => (pure ⟨type, name.text⟩ : Parser Param)) :=
    Blind.pure.bind fun _ => .skip_bind (.expect_bind (fun _ => .pure) fun _ => rfl)
  cases t.kind with
  | kwNum => exact hname .num
  | kwBool => exact hname .bool
  | _ => exact Blind.fail

theorem someParameters_blind : Blind (someParameters fuel) := by
  induction fuel with
  | zero => exact .starve
  | succ fuel ih =>
    rw [someParameters]
    refine parameter_blind.bind fun _ => .peek_bind (fun t => ?_) fun _ => rfl
    split
    · exact .skip_bind (ih.bind fun _ => .pure)
    · exact Blind.discard_expect.bind fun _ => .pure

theorem parameters_blind : Blind (parameters fuel) := by
  refine .peek_bind (fun t => ?_) fun _ => rfl
  split
  · exact .skip_bind .pure
  · exact someParameters_blind fuel

theorem functionBody_blind (name : Bytes) : Blind (functionBody name fuel) := by
  induction fuel with
  | zero => exact .starve
  | succ fuel ih =>
    rw [functionBody]
    refine .peek_bind (fun t => ?_) fun _ => rfl
    cases t.kind with
    | rbrace => exact .pure
    | kwReturn => exact .pure
    | eof => exact .fail
    | _ => exact (statementsBlind fuel).statement.bind fun _ => ih.bind fun _ => .pure

theorem returnValue_blind : Blind (returnValue fuel) := by
  refine .peek_bind (fun t => ?_) fun _ => rfl
  split
  · exact .skip_bind .pure
  · exact (closedExpression_blind fuel).bind fun _ => .pure

theorem functionEnd_blind (name : Bytes) : Blind (functionEnd name fuel) := by
  refine .peek_bind (fun t => ?_) fun _ => rfl
  split
  · refine .skip_bind ((returnValue_blind fuel).bind fun _ => ?_)
    refine .peek_bind (fun last => ?_) fun _ => rfl
    split
    · exact .skip_bind .pure
    · exact .fail
  · exact .skip_bind .pure

theorem function_blind : Blind (function fuel) := by
  refine returnType_blind.bind fun _ => functionName_blind.bind fun name => ?_
  refine Blind.discard_expect.bind fun _ => (parameters_blind fuel).bind fun _ => ?_
  refine Blind.discard_expect.bind fun _ => (functionBody_blind fuel name).bind fun _ => ?_
  exact (functionEnd_blind fuel name).bind fun _ => .pure

theorem depthAfter_bare (depth : Nat) (ts : List Token) :
    depthAfter depth (ts.map Token.bare) = depthAfter depth ts := by
  induction ts generalizing depth with
  | nil => rfl
  | cons t ts ih => simp only [List.map_cons, depthAfter, Token.bare, ih]

theorem recover_bare (depth : Nat) (ts : List Token) :
    recover depth (ts.map Token.bare) =
      ((recover depth ts).1, (recover depth ts).2.map Token.bare) := by
  induction ts generalizing depth with
  | nil => rfl
  | cons t ts ih =>
    simp only [List.map_cons, recover, Token.bare]
    cases t.kind with
    | eof => rfl
    | lbrace => exact ih (depth + 1)
    | rbrace =>
      simp only
      split
      · rfl
      · exact ih (depth - 1)
    | _ => exact ih depth

theorem functions_bare (depth : Nat) (ts : List Token) :
    functions fuel depth (ts.map Token.bare) =
      ((functions fuel depth ts).1, (functions fuel depth ts).2.map SyntaxError.bare) := by
  induction fuel generalizing depth ts with
  | zero => rfl
  | succ fuel ih =>
    cases ts with
    | nil => rfl
    | cons t ts =>
      have henough : enough (t.bare :: ts.map Token.bare) = enough (t :: ts) := by
        simp [enough]
      have hfunction := function_blind (enough (t :: ts)) (t :: ts)
      rw [List.map_cons] at hfunction
      have hkind : t.bare.kind = t.kind := rfl
      simp only [List.map_cons, functions, henough, hfunction, hkind]
      split
      · rfl
      · cases function (enough (t :: ts)) (t :: ts) with
        | starved => rfl
        | ok f after => simp only [Parsed.bare, ih]
        | fail cause found =>
          -- as many tokens were taken with their places as without
          have htake : (t.bare :: ts.map Token.bare).take
              ((t.bare :: ts.map Token.bare).length - (found.map Token.bare).length) =
              ((t :: ts).take ((t :: ts).length - found.length)).map Token.bare := by
            rw [← List.map_cons, List.length_map, List.length_map, List.map_take]
          simp only [Parsed.bare, htake, depthAfter_bare, recover_bare, ih, headD_bare,
            List.map_cons, SyntaxError.bare]

end Functions

end Parser

theorem parseTokens_bare (ts : List Token) :
    parseTokens (ts.map Token.bare) =
      ((parseTokens ts).1, (parseTokens ts).2.map SyntaxError.bare) := by
  rw [parseTokens, List.length_map, Parser.functions_bare, parseTokens]

end SmallLang
