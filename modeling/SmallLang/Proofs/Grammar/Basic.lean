import SmallLang.Parse.Basic
import SmallLang.Tree.Switch

/-! The grammar of the language. A derivation relates a word of tokens to the tree that it stands
for, whatever numbers the number tokens denote. -/

namespace SmallLang

/-- Whether the statement ends with an `if` that has no `else`. -/
def Stmt.endsOpen : Stmt → Bool
  | .cond _ _ no => no.isAbsent || no.endsOpen
  | .loop _ body => body.endsOpen
  | _ => false

namespace Grammar

/-- The operators that group to the left, from the loosest level to the tightest. -/
def operatorsAt : Nat → List (TokenKind × BinaryOp)
  | 0 => [(.or, .or)]
  | 1 => [(.and, .and)]
  | 2 => [(.eq, .equal)]
  | 3 => [(.lt, .less)]
  | 4 => [(.plus, .add), (.minus, .sub)]
  | 5 => [(.asterisk, .mul), (.slash, .div)]
  | _ => []

inductive ValueType : Token → Ty → Prop
  | num {t} : t.kind = .kwNum → ValueType t .num
  | bool {t} : t.kind = .kwBool → ValueType t .bool

section Expressions

variable (denotes : Bytes → Number → Prop)

mutual

/-- Expressions of the operators of a level and of the tighter ones; beyond the tightest level
stand the factors. -/
inductive Layer : Nat → List Token → Expr → Prop
  | factor {w e} : Factor w e → Layer 6 w e
  | tighter {k w e} : k < 6 → Layer (k + 1) w e → Layer k w e
  | binary {k w t v op l r} : Layer k w l → (t.kind, op) ∈ operatorsAt k → Layer (k + 1) v r →
      Layer k (w ++ t :: v) (.binary op l r)

/-- Signs, and powers, which group to the right. A minus in front of a number is part of it. -/
inductive Factor : List Token → Expr → Prop
  | primary {w e} : Primary w e → Factor w e
  | power {w t v l r} : Primary w l → t.kind = .caret → Factor v r →
      Factor (w ++ t :: v) (.binary .pow l r)
  | negative {t w x} : t.kind = .minus → Factor w (.num x) → Factor (t :: w) (.num x.negate)
  | negation {t w e} : t.kind = .minus → Factor w e → (∀ x, e ≠ .num x) →
      Factor (t :: w) (.unary .negate e)
  | not {t w e} : t.kind = .bang → Factor w e → Factor (t :: w) (.unary .not e)

inductive Primary : List Token → Expr → Prop
  | number {t x} : t.kind = .number → denotes t.text x → Primary [t] (.num x)
  | truth {t} : t.kind = .kwTrue → Primary [t] (.bool true)
  | falsity {t} : t.kind = .kwFalse → Primary [t] (.bool false)
  | var {t} : t.kind = .ident → Primary [t] (.var t.text)
  | call {name lp w rp args} : name.kind = .ident → lp.kind = .lparen → Arguments w args →
      rp.kind = .rparen → Primary (name :: lp :: (w ++ [rp])) (.call name.text args)
  | input {kw lt t gt type} : kw.kind = .kwInput → lt.kind = .lt → ValueType t type →
      gt.kind = .gt → Primary [kw, lt, t, gt] (.input type)
  | parens {lp w rp e} : lp.kind = .lparen → Layer 0 w e → rp.kind = .rparen →
      Primary (lp :: (w ++ [rp])) e

inductive Arguments : List Token → List Expr → Prop
  | none : Arguments [] []
  | some {w es} : Listed w es → Arguments w es

inductive Listed : List Token → List Expr → Prop
  | one {w e} : Layer 0 w e → Listed w [e]
  | cons {w comma v e es} : Layer 0 w e → comma.kind = .comma → Listed v es →
      Listed (w ++ comma :: v) (e :: es)

end

abbrev Expression : List Token → Expr → Prop := Layer denotes 0

inductive CaseLiteral : List Token → Value → Prop
  | num {t x} : t.kind = .number → denotes t.text x → CaseLiteral [t] (.num x)
  | negative {minus t x} : minus.kind = .minus → t.kind = .number → denotes t.text x →
      CaseLiteral [minus, t] (.num x.negate)
  | truth {t} : t.kind = .kwTrue → CaseLiteral [t] (.bool true)
  | falsity {t} : t.kind = .kwFalse → CaseLiteral [t] (.bool false)

end Expressions

section Statements

variable (denotes : Bytes → Number → Prop) (nearest : Bool)

mutual

/-- Statements. An `else` may belong to any `if` in front of it that has none, or else only to the
nearest one. -/
inductive Statement : List Token → Stmt → Prop
  | declare {kw name eq w semi e} : kw.kind = .kwLet → name.kind = .ident → eq.kind = .assign →
      Expression denotes w e → semi.kind = .semicolon →
      Statement (kw :: name :: eq :: (w ++ [semi])) (.declare name.text e)
  | assign {name eq w semi e} : name.kind = .ident → eq.kind = .assign →
      Expression denotes w e → semi.kind = .semicolon →
      Statement (name :: eq :: (w ++ [semi])) (.assign name.text e)
  | print {kw w semi e} : kw.kind = .kwPrint → Expression denotes w e → semi.kind = .semicolon →
      Statement (kw :: (w ++ [semi])) (.print e)
  | block {lb w rb body} : lb.kind = .lbrace → Statements w body → rb.kind = .rbrace →
      Statement (lb :: (w ++ [rb])) (.block body)
  | ifOnly {kw lp w rp v e yes} : kw.kind = .kwIf → lp.kind = .lparen → Expression denotes w e →
      rp.kind = .rparen → Statement v yes →
      Statement (kw :: lp :: (w ++ rp :: v)) (.cond e yes .absent)
  | ifElse {kw lp w rp v el u e yes no} : kw.kind = .kwIf → lp.kind = .lparen →
      Expression denotes w e → rp.kind = .rparen → Statement v yes →
      (nearest = true → yes.endsOpen = false) → el.kind = .kwElse → Statement u no →
      Statement (kw :: lp :: (w ++ rp :: (v ++ el :: u))) (.cond e yes no)
  | loop {kw lp w rp v e body} : kw.kind = .kwWhile → lp.kind = .lparen →
      Expression denotes w e → rp.kind = .rparen → Statement v body →
      Statement (kw :: lp :: (w ++ rp :: v)) (.loop e body)
  | switch {kw lp w rp lb v u rb e cases fallback} : kw.kind = .kwSwitch → lp.kind = .lparen →
      Expression denotes w e → rp.kind = .rparen → lb.kind = .lbrace → Cases v cases →
      Fallback u fallback → rb.kind = .rbrace →
      Statement (kw :: lp :: (w ++ rp :: lb :: (v ++ (u ++ [rb])))) (.ofCases e cases fallback)
  | call {name lp w rp semi args} : name.kind = .ident → lp.kind = .lparen →
      Arguments denotes w args → rp.kind = .rparen → semi.kind = .semicolon →
      Statement (name :: lp :: (w ++ [rp, semi])) (.call name.text args)

inductive Statements : List Token → List Stmt → Prop
  | nil : Statements [] []
  | cons {w v s ss} : Statement w s → Statements v ss → Statements (w ++ v) (s :: ss)

inductive Cases : List Token → List Switch.Case → Prop
  | nil : Cases [] []
  | cons {kw l colon w v x body cases} : kw.kind = .kwCase → CaseLiteral denotes l x →
      colon.kind = .colon → Statement w body → Cases v cases →
      Cases (kw :: (l ++ colon :: (w ++ v))) ((x, body) :: cases)

inductive Fallback : List Token → Stmt → Prop
  | none : Fallback [] .absent
  | some {kw colon w s} : kw.kind = .kwDefault → colon.kind = .colon → Statement w s →
      Fallback (kw :: colon :: w) s

end

inductive Parameters : List Token → List Param → Prop
  | one {t name type} : ValueType t type → name.kind = .ident →
      Parameters [t, name] [⟨type, name.text⟩]
  | cons {t name comma w type params} : ValueType t type → name.kind = .ident →
      comma.kind = .comma → Parameters w params →
      Parameters (t :: name :: comma :: w) (⟨type, name.text⟩ :: params)

inductive ReturnType : List Token → Ty → Prop
  | omitted : ReturnType [] .void
  | void {t} : t.kind = .kwVoid → ReturnType [t] .void
  | value {t type} : ValueType t type → ReturnType [t] type

inductive Result : List Token → Option Expr → Prop
  | missing : Result [] none
  | bare {kw semi} : kw.kind = .kwReturn → semi.kind = .semicolon → Result [kw, semi] none
  | value {kw w semi e} : kw.kind = .kwReturn → Expression denotes w e →
      semi.kind = .semicolon → Result (kw :: (w ++ [semi])) (some e)

inductive Function : List Token → Func → Prop
  | intro {r name lp w rp lb v u rb type params body result} : ReturnType r type →
      name.kind = .ident → lp.kind = .lparen → (w = [] ∧ params = [] ∨ Parameters w params) →
      rp.kind = .rparen → lb.kind = .lbrace → Statements denotes nearest v body →
      Result denotes u result → rb.kind = .rbrace →
      Function (r ++ name :: lp :: (w ++ rp :: lb :: (v ++ (u ++ [rb]))))
        ⟨name.text, type, params, body, result⟩

inductive Functions : List Token → List Func → Prop
  | nil : Functions [] []
  | cons {w v f fs} : Function denotes nearest w f → Functions v fs → Functions (w ++ v) (f :: fs)

end Statements

end Grammar

end SmallLang
