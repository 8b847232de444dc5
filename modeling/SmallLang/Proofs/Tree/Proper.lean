import SmallLang.Proofs.Grammar.Basic
import SmallLang.Proofs.Number.Text
import SmallLang.Proofs.Token.Genuine

/-! Trees as they come from a source text, and the literals in them that are not written the way
they are read. -/

namespace SmallLang

def Value.Finite : Value → Prop
  | .num x => x.isFinite = true
  | .bool _ => True

def Switch.Distinct (cases : List Case) : Prop := cases.Pairwise fun c d => c.1.equal d.1 = false

mutual

def Expr.Proper : Expr → Prop
  | .num x => x.isFinite = true
  | .bool _ => True
  | .var name => IsName name
  | .input type => type.isValueType = true
  | .binary op left right => op ≠ .unknown ∧ left.Proper ∧ right.Proper
  -- a minus in front of a number belongs to the number
  | .unary op sub => (op = .negate → ∀ x, sub ≠ .num x) ∧ sub.Proper
  | .call func args => IsName func ∧ Expr.AllProper args
  | .absent => False

def Expr.AllProper : List Expr → Prop
  | [] => True
  | e :: es => e.Proper ∧ Expr.AllProper es

end

mutual

def Stmt.Proper : Stmt → Prop
  | .declare name init => IsName name ∧ init.Proper
  | .assign name value => IsName name ∧ value.Proper
  | .print value => value.Proper
  | .block body => Stmt.AllProper body
  -- an `else` behind an open statement would belong to an `if` in it
  | .cond test yes no =>
    test.Proper ∧ yes.Proper ∧ (no = .absent ∨ no.Proper ∧ yes.endsOpen = false)
  | .loop test body => test.Proper ∧ body.Proper
  | .switch scrutinee cases fallback =>
    scrutinee.Proper ∧ Stmt.CasesProper cases ∧ Switch.Distinct cases ∧
      (fallback = .absent ∨ fallback.Proper)
  | .call func args => IsName func ∧ Expr.AllProper args
  | .absent => False

def Stmt.AllProper : List Stmt → Prop
  | [] => True
  | s :: ss => s.Proper ∧ Stmt.AllProper ss

def Stmt.CasesProper : List (Value × Stmt) → Prop
  | [] => True
  | (v, body) :: rest => v.Finite ∧ body.Proper ∧ Stmt.CasesProper rest

end

structure Param.Proper (p : Param) : Prop where
  type : p.type.isValueType = true
  name : IsName p.name

structure Func.Proper (f : Func) : Prop where
  name : IsName f.name
  returns : f.returns.isValueType = true ∨ f.returns = .void
  params : ∀ p ∈ f.params, p.Proper
  body : Stmt.AllProper f.body
  result : ∀ e ∈ f.result, e.Proper

/-- Minus zero is written without its sign. -/
def Value.legible : Value → Bool
  | .num x => x ≠ Number.minusZero
  | .bool _ => true

def Expr.isNegativeLiteral : Expr → Bool
  | .num x => x.isNegative
  | _ => false

mutual

/-- Whether no literal is minus zero and no negative one is the left operand of a power, where its
minus would be read as a sign of the power. -/
def Expr.legible : Expr → Bool
  | .num x => (Value.num x).legible
  | .binary op left right =>
    !(op = .pow && left.isNegativeLiteral) && left.legible && right.legible
  | .unary _ sub => sub.legible
  | .call _ args => Expr.allLegible args
  | _ => true

def Expr.allLegible : List Expr → Bool
  | [] => true
  | e :: es => e.legible && Expr.allLegible es

end

mutual

def Stmt.legible : Stmt → Bool
  | .declare _ init => init.legible
  | .assign _ value => value.legible
  | .print value => value.legible
  | .block body => Stmt.allLegible body
  | .cond test yes no => test.legible && yes.legible && no.legible
  | .loop test body => test.legible && body.legible
  | .switch scrutinee cases fallback =>
    scrutinee.legible && Stmt.casesLegible cases && fallback.legible
  | .call _ args => Expr.allLegible args
  | .absent => true

def Stmt.allLegible : List Stmt → Bool
  | [] => true
  | s :: ss => s.legible && Stmt.allLegible ss

def Stmt.casesLegible : List (Value × Stmt) → Bool
  | [] => true
  | (v, body) :: rest => v.legible && body.legible && Stmt.casesLegible rest

end

def Func.legible (f : Func) : Bool := Stmt.allLegible f.body && f.result.all Expr.legible

end SmallLang
