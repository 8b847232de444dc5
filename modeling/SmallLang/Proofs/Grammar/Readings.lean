import SmallLang.Proofs.Grammar.Words

/-! Derivations when numbers are read otherwise, or when an `else` may belong to more statements.
Each word that has a tree has one where every `else` belongs to the nearest `if`. -/

namespace SmallLang.Grammar

/-- What the number tokens of the word denote, they denote in the second reading too. -/
def Rereads (d d' : Bytes → Number → Prop) (w : List Token) : Prop :=
  ∀ t ∈ w, t.kind = .number → ∀ x, d t.text x → d' t.text x

variable {d d' : Bytes → Number → Prop} {nearest nearest' : Bool}

namespace Rereads

variable {t : Token} {w v : List Token}

theorem tail (h : Rereads d d' (t :: w)) : Rereads d d' w :=
  fun u hu => h u (List.mem_cons_of_mem t hu)

theorem left (h : Rereads d d' (w ++ v)) : Rereads d d' w :=
  fun u hu => h u (List.mem_append_left v hu)

theorem right (h : Rereads d d' (w ++ v)) : Rereads d d' v :=
  fun u hu => h u (List.mem_append_right w hu)

theorem head (h : Rereads d d' (t :: w)) (ht : t.kind = .number) {x : Number}
    (hx : d t.text x) : d' t.text x := h t List.mem_cons_self ht x hx

end Rereads

mutual

theorem Layer.reread {k : Nat} {w : List Token} {e : Expr} :
    Layer d k w e → Rereads d d' w → Layer d' k w e
  | .factor h, hw => .factor (h.reread hw)
  | .tighter hk h, hw => .tighter hk (h.reread hw)
  | .binary hl ht hr, hw => .binary (hl.reread hw.left) ht (hr.reread hw.right.tail)

theorem Factor.reread {w : List Token} {e : Expr} :
    Factor d w e → Rereads d d' w → Factor d' w e
  | .primary h, hw => .primary (h.reread hw)
  | .power hl ht hr, hw => .power (hl.reread hw.left) ht (hr.reread hw.right.tail)
  | .negative ht h, hw => .negative ht (h.reread hw.tail)
  | .negation ht h hx, hw => .negation ht (h.reread hw.tail) hx
  | .not ht h, hw => .not ht (h.reread hw.tail)

theorem Primary.reread {w : List Token} {e : Expr} :
    Primary d w e → Rereads d d' w → Primary d' w e
  | .number ht hx, hw => .number ht (hw.head ht hx)
  | .truth ht, _ => .truth ht
  | .falsity ht, _ => .falsity ht
  | .var ht, _ => .var ht
  | .call hn hl h hr, hw => .call hn hl (h.reread hw.tail.tail.left) hr
  | .input hk hl ht hg, _ => .input hk hl ht hg
  | .parens hl h hr, hw => .parens hl (h.reread hw.tail.left) hr

theorem Arguments.reread {w : List Token} {es : List Expr} :
    Arguments d w es → Rereads d d' w → Arguments d' w es
  | .none, _ => .none
  | .some h, hw => .some (h.reread hw)

theorem Listed.reread {w : List Token} {es : List Expr} :
    Listed d w es → Rereads d d' w → Listed d' w es
  | .one h, hw => .one (h.reread hw)
  | .cons h hc hs, hw => .cons (h.reread hw.left) hc (hs.reread hw.right.tail)

end

theorem CaseLiteral.reread {w : List Token} {v : Value} (h : CaseLiteral d w v)
    (hw : Rereads d d' w) : CaseLiteral d' w v := by
  cases h with
  | num ht hx => exact .num ht (hw.head ht hx)
  | negative hm ht hx => exact .negative hm ht (hw.tail.head ht hx)
  | truth ht => exact .truth ht
  | falsity ht => exact .falsity ht

mutual

theorem Statement.reread (hn : nearest' = true → nearest = true) {w : List Token} {s : Stmt} :
    Statement d nearest w s → Rereads d d' w → Statement d' nearest' w s
  | .declare hk hi ha he hs, hw => .declare hk hi ha (he.reread hw.tail.tail.tail.left) hs
  | .assign hi ha he hs, hw => .assign hi ha (he.reread hw.tail.tail.left) hs
  | .print hk he hs, hw => .print hk (he.reread hw.tail.left) hs
  | .block hl h hr, hw => .block hl (Statements.reread hn h hw.tail.left) hr
  | .ifOnly hk hl he hr hy, hw =>
    .ifOnly hk hl (he.reread hw.tail.tail.left) hr (Statement.reread hn hy hw.tail.tail.right.tail)
  | .ifElse hk hl he hr hy hc hel hno, hw =>
    .ifElse hk hl (he.reread hw.tail.tail.left) hr
      (Statement.reread hn hy hw.tail.tail.right.tail.left) (fun h => hc (hn h)) hel
      (Statement.reread hn hno hw.tail.tail.right.tail.right.tail)
  | .loop hk hl he hr h, hw =>
    .loop hk hl (he.reread hw.tail.tail.left) hr (Statement.reread hn h hw.tail.tail.right.tail)
  | .switch hk hl he hr hlb hc hf hrb, hw =>
    .switch hk hl (he.reread hw.tail.tail.left) hr hlb
      (Cases.reread hn hc hw.tail.tail.right.tail.tail.left)
      (Fallback.reread hn hf hw.tail.tail.right.tail.tail.right.left) hrb
  | .call hi hl h hr hs, hw => .call hi hl (h.reread hw.tail.tail.left) hr hs

theorem Statements.reread (hn : nearest' = true → nearest = true) {w : List Token}
    {ss : List Stmt} :
    Statements d nearest w ss → Rereads d d' w → Statements d' nearest' w ss
  | .nil, _ => .nil
  | .cons h hs, hw => .cons (Statement.reread hn h hw.left) (Statements.reread hn hs hw.right)

theorem Cases.reread (hn : nearest' = true → nearest = true) {w : List Token}
    {cases : List Switch.Case} :
    Cases d nearest w cases → Rereads d d' w → Cases d' nearest' w cases
  | .nil, _ => .nil
  | .cons hk hl hc h hs, hw =>
    .cons hk (hl.reread hw.tail.left) hc (Statement.reread hn h hw.tail.right.tail.left)
      (Cases.reread hn hs hw.tail.right.tail.right)

theorem Fallback.reread (hn : nearest' = true → nearest = true) {w : List Token} {s : Stmt} :
    Fallback d nearest w s → Rereads d d' w → Fallback d' nearest' w s
  | .none, _ => .none
  | .some hk hc h, hw => .some hk hc (Statement.reread hn h hw.tail.tail)

end

theorem Result.reread {w : List Token} {result : Option Expr} (h : Result d w result)
    (hw : Rereads d d' w) : Result d' w result := by
  cases h with
  | missing => exact .missing
  | bare hk hs => exact .bare hk hs
  | value hk he hs => exact .value hk (he.reread hw.tail.left) hs

theorem Function.reread (hn : nearest' = true → nearest = true) {w : List Token} {f : Func}
    (h : Function d nearest w f) (hw : Rereads d d' w) : Function d' nearest' w f := by
  cases h with
  | intro hr hname hlp hparams hrp hlb hbody hres hrb =>
    have hinner := hw.right.tail.tail.right.tail.tail
    exact .intro hr hname hlp hparams hrp hlb (Statements.reread hn hbody hinner.left)
      (hres.reread hinner.right.left) hrb

theorem Functions.reread (hn : nearest' = true → nearest = true) {w : List Token}
    {fs : List Func} (h : Functions d nearest w fs) (hw : Rereads d d' w) :
    Functions d' nearest' w fs := by
  induction h with
  | nil => exact .nil
  | cons hf _ ih => exact .cons (hf.reread hn hw.left) (ih hw.right)

/-- An `else` behind an open statement goes to an `if` in it. -/
theorem Statement.attach {v u : List Token} {el : Token} {yes no : Stmt}
    (h : Statement d true v yes) (hopen : yes.endsOpen = true) (hel : el.kind = .kwElse)
    (hno : Statement d true u no) : ∃ s, Statement d true (v ++ el :: u) s := by
  match h with
  | .ifOnly hk hl he hr hy =>
    rename_i yes
    cases hopen : yes.endsOpen with
    | false =>
      exact ⟨_, by simpa using .ifElse hk hl he hr hy (fun _ => hopen) hel hno⟩
    | true =>
      obtain ⟨s, hs⟩ := Statement.attach hy hopen hel hno
      exact ⟨_, by simpa using .ifOnly hk hl he hr hs⟩
  | .ifElse hk hl he hr hy hc hel' hno' =>
    simp only [Stmt.endsOpen, hno'.isAbsent_eq, Bool.false_or] at hopen
    obtain ⟨s, hs⟩ := Statement.attach hno' hopen hel hno
    exact ⟨_, by simpa using .ifElse hk hl he hr hy hc hel' hs⟩
  | .loop hk hl he hr h =>
    obtain ⟨s, hs⟩ := Statement.attach h hopen hel hno
    exact ⟨_, by simpa using .loop hk hl he hr hs⟩
  | .declare .. | .assign .. | .print .. | .block .. | .switch .. | .call .. =>
    simp [Stmt.endsOpen, Stmt.ofCases] at hopen

mutual

theorem Statement.exists_nearest {w : List Token} {s : Stmt} :
    Statement d false w s → ∃ s', Statement d true w s'
  | .declare hk hi ha he hs => ⟨_, .declare hk hi ha he hs⟩
  | .assign hi ha he hs => ⟨_, .assign hi ha he hs⟩
  | .print hk he hs => ⟨_, .print hk he hs⟩
  | .block hl h hr => by
    obtain ⟨body, hbody⟩ := Statements.exists_nearest h
    exact ⟨_, .block hl hbody hr⟩
  | .ifOnly hk hl he hr hy => by
    obtain ⟨yes, hyes⟩ := Statement.exists_nearest hy
    exact ⟨_, .ifOnly hk hl he hr hyes⟩
  | .ifElse hk hl he hr hy _ hel hno => by
    obtain ⟨yes, hyes⟩ := Statement.exists_nearest hy
    obtain ⟨no, hno⟩ := Statement.exists_nearest hno
    cases hopen : yes.endsOpen with
    | false => exact ⟨_, .ifElse hk hl he hr hyes (fun _ => hopen) hel hno⟩
    | true =>
      obtain ⟨s, hs⟩ := Statement.attach hyes hopen hel hno
      exact ⟨_, .ifOnly hk hl he hr hs⟩
  | .loop hk hl he hr h => by
    obtain ⟨body, hbody⟩ := Statement.exists_nearest h
    exact ⟨_, .loop hk hl he hr hbody⟩
  | .switch hk hl he hr hlb hc hf hrb => by
    obtain ⟨cases, hcases⟩ := Cases.exists_nearest hc
    obtain ⟨fallback, hfallback⟩ := Fallback.exists_nearest hf
    exact ⟨_, .switch hk hl he hr hlb hcases hfallback hrb⟩
  | .call hi hl h hr hs => ⟨_, .call hi hl h hr hs⟩

theorem Statements.exists_nearest {w : List Token} {ss : List Stmt} :
    Statements d false w ss → ∃ ss', Statements d true w ss'
  | .nil => ⟨_, .nil⟩
  | .cons h hs => by
    obtain ⟨s, hs₁⟩ := Statement.exists_nearest h
    obtain ⟨ss, hss⟩ := Statements.exists_nearest hs
    exact ⟨_, .cons hs₁ hss⟩

theorem Cases.exists_nearest {w : List Token} {cases : List Switch.Case} :
    Cases d false w cases → ∃ cases', Cases d true w cases'
  | .nil => ⟨_, .nil⟩
  | .cons hk hl hc h hs => by
    obtain ⟨body, hbody⟩ := Statement.exists_nearest h
    obtain ⟨cases, hcases⟩ := Cases.exists_nearest hs
    exact ⟨_, .cons hk hl hc hbody hcases⟩

theorem Fallback.exists_nearest {w : List Token} {s : Stmt} :
    Fallback d false w s → ∃ s', Fallback d true w s'
  | .none => ⟨_, .none⟩
  | .some hk hc h => by
    obtain ⟨s, hs⟩ := Statement.exists_nearest h
    exact ⟨_, .some hk hc hs⟩

end

theorem Function.exists_nearest {w : List Token} {f : Func} (h : Function d false w f) :
    ∃ f', Function d true w f' := by
  cases h with
  | intro hr hname hlp hparams hrp hlb hbody hres hrb =>
    obtain ⟨body, hbody⟩ := hbody.exists_nearest
    exact ⟨_, .intro hr hname hlp hparams hrp hlb hbody hres hrb⟩

theorem Functions.exists_nearest {w : List Token} {fs : List Func} (h : Functions d false w fs) :
    ∃ fs', Functions d true w fs' := by
  induction h with
  | nil => exact ⟨_, .nil⟩
  | cons hf _ ih =>
    obtain ⟨f, hf⟩ := hf.exists_nearest
    obtain ⟨fs, hfs⟩ := ih
    exact ⟨_, .cons hf hfs⟩

end SmallLang.Grammar
