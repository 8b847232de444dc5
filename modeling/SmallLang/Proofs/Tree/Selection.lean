import SmallLang.Proofs.Eval.Sequencing
import SmallLang.Proofs.Tree.Cases

/-! What a switch runs. Of the cases that equal the scrutinee, the first one gives the literal and
the place in the list, and the last one the body. -/

namespace SmallLang

namespace Value

theorem equal_comm (v w : Value) : v.equal w = w.equal v := by
  cases v with
  | num x =>
    cases w with
    | num y => simp only [equal, Number.equal, Bool.and_comm (!x.isNaN), eq_comm (a := x.rank)]
    | bool b => rfl
  | bool a =>
    cases w with
    | num y => rfl
    | bool b => exact Bool.beq_comm

theorem equal_trans {u v w : Value} (huv : u.equal v = true) (hvw : v.equal w = true) :
    u.equal w = true := by
  cases u <;> cases v <;> cases w <;> simp_all [equal, Number.equal]

theorem equal_congr {u v : Value} (h : u.equal v = true) (w : Value) : u.equal w = v.equal w :=
  Bool.eq_iff_iff.mpr ⟨equal_trans (equal_comm u v ▸ h), equal_trans h⟩

theorem type_of_equal {v w : Value} (h : v.equal w = true) : v.type = w.type := by
  cases v <;> cases w <;> first | rfl | cases h

theorem isNaN_of_equal {v w : Value} (h : v.equal w = true) : Switch.isNaN v = false := by
  cases v <;> cases w <;> simp_all [equal, Number.equal, Switch.isNaN]

end Value

theorem Rules.applyBinary_equal_iff {rules : Rules} {v w : Value} :
    rules.applyBinary .equal v w = .ok (.bool true) ↔ v.equal w = true := by
  cases v <;> cases w <;> simp [Rules.applyBinary, Value.expectSameType, Value.type, Value.equal,
    bind, Except.bind, pure, Except.pure]

namespace Switch

/-- The body of the last case that equals `v`. -/
def lastBody? (v : Value) (cases : List Case) : Option Stmt :=
  (cases.findRev? fun c => c.1.equal v).map Prod.snd

/-- The literals in the order of their first appearance, without those that equal an earlier one. -/
def literals (cases : List Case) : List Value := (cases.map Prod.fst).eraseDupsBy Value.equal

/-- The last of the cases that fit has the body `body`. -/
def IsLast (fits : Case → Prop) (cases : List Case) (body : Stmt) : Prop :=
  ∃ before v after, cases = before ++ (v, body) :: after ∧ fits (v, body) ∧ ∀ c ∈ after, ¬fits c

theorem find?_put (v w : Value) (body : Stmt) (cases : List Case) :
    find? v (put w body cases) = if w.equal v then some body else find? v cases := by
  induction cases with
  | nil =>
    rw [put_nil, find?_cons, find?]
    split
    · rename_i h
      rw [Value.isNaN_of_equal h]
      rfl
    · rfl
  | cons c cases ih =>
    obtain ⟨u, old⟩ := c
    rw [put_cons]
    split
    · rename_i huw
      rw [find?_cons, find?_cons, Value.equal_congr huw v]
      split <;> rfl
    · rename_i huw
      rw [find?_cons, find?_cons, ih]
      split
      · rename_i huv
        -- `w` equals `v` no more, or it would equal `u` too
        rw [if_neg fun hwv => huw (Value.equal_trans huv (Value.equal_comm w v ▸ hwv))]
      · rfl

theorem find?_foldl_put (v : Value) (cases resolved : List Case) :
    find? v (cases.foldl (fun resolved c => put c.1 c.2 resolved) resolved) =
      (lastBody? v cases).or (find? v resolved) := by
  induction cases generalizing resolved with
  | nil => rfl
  | cons c cases ih =>
    rw [List.foldl_cons, ih, find?_put, lastBody?, lastBody?, List.findRev?]
    cases hlast : cases.findRev? fun c => c.1.equal v with
    | some d => rfl
    | none => cases hc : c.1.equal v <;> simp

theorem find?_resolve (v : Value) (cases : List Case) :
    find? v (resolve cases) = lastBody? v cases := by
  rw [resolve, find?_foldl_put, find?, Option.or_none]

theorem lastBody?_eq_some_iff {v : Value} {cases : List Case} {body : Stmt} :
    lastBody? v cases = some body ↔ IsLast (fun c => c.1.equal v = true) cases body := by
  rw [lastBody?, List.findRev?_eq_find?_reverse]
  constructor
  · intro h
    obtain ⟨⟨w, _⟩, hfind, rfl⟩ := Option.map_eq_some_iff.mp h
    obtain ⟨hw, before, after, hcases, hbefore⟩ := List.find?_eq_some_iff_append.mp hfind
    refine ⟨after.reverse, w, before.reverse, ?_, hw, fun c hc => ?_⟩
    · rw [← List.reverse_reverse cases, hcases]
      simp
    · simpa using hbefore c (List.mem_reverse.mp hc)
  · rintro ⟨before, w, after, rfl, hw, hafter⟩
    have hfind : (before ++ (w, body) :: after).reverse.find? (fun c => c.1.equal v) =
        some (w, body) := by
      refine List.find?_eq_some_iff_append.mpr ⟨hw, after.reverse, before.reverse, by simp, ?_⟩
      intro c hc
      simpa using hafter c (List.mem_reverse.mp hc)
    rw [hfind]
    rfl

theorem lastBody?_eq_none_iff {v : Value} {cases : List Case} :
    lastBody? v cases = none ↔ ∀ c ∈ cases, ¬c.1.equal v = true := by
  rw [lastBody?, List.findRev?_eq_find?_reverse, Option.map_eq_none_iff, List.find?_eq_none]
  simp only [List.mem_reverse]

theorem lastBody?_isSome_iff {v : Value} {cases : List Case} :
    (lastBody? v cases).isSome = true ↔ ∃ c ∈ cases, c.1.type = v.type ∧ c.1.equal v = true := by
  rw [lastBody?, Option.isSome_map, List.findRev?_eq_find?_reverse, List.find?_isSome]
  simp only [List.mem_reverse]
  exact exists_congr fun c => and_congr_right fun _ =>
    (and_iff_right_of_imp Value.type_of_equal).symm

/-! ### The listed cases -/

theorem literals_put (v : Value) (body : Stmt) (cases : List Case) :
    (put v body cases).map Prod.fst =
      if (cases.map Prod.fst).any (·.equal v) then cases.map Prod.fst
      else cases.map Prod.fst ++ [v] := by
  induction cases with
  | nil => rfl
  | cons c cases ih =>
    obtain ⟨w, old⟩ := c
    rw [put_cons]
    by_cases h : w.equal v
    · simp [h]
    · simp only [h, if_false, List.map_cons, ih, List.any_cons, Bool.false_or, Bool.false_eq_true]
      split <;> rfl

theorem literals_foldl_put (cases resolved : List Case) :
    (cases.foldl (fun resolved c => put c.1 c.2 resolved) resolved).map Prod.fst =
      resolved.map Prod.fst ++ ((cases.map Prod.fst).filter fun v =>
        !(resolved.map Prod.fst).any (·.equal v)).eraseDupsBy Value.equal := by
  induction cases generalizing resolved with
  | nil => simp
  | cons c cases ih =>
    rw [List.foldl_cons, ih, literals_put, List.map_cons, List.filter_cons]
    by_cases h : (resolved.map Prod.fst).any (·.equal c.1)
    · simp [h]
    · simp only [h, Bool.not_false, if_true, if_false, Bool.false_eq_true]
      rw [List.eraseDupsBy_cons, List.filter_filter, List.append_assoc, List.singleton_append]
      congr 3
      refine List.filter_congr fun v _ => ?_
      rw [List.any_append, List.any_cons, List.any_nil, Bool.or_false, Bool.not_or, Bool.and_comm,
        Value.equal_comm v]
      cases c.1.equal v <;> rfl

theorem literals_resolve (cases : List Case) : (resolve cases).map Prod.fst = literals cases := by
  rw [resolve, literals_foldl_put, literals]
  exact congrArg (·.eraseDupsBy Value.equal) (List.filter_eq_self.mpr fun _ _ => rfl)

theorem nan_put (v : Value) (body : Stmt) (cases : List Case) :
    (put v body cases).filter (fun c => isNaN c.1) =
      cases.filter (fun c => isNaN c.1) ++ if isNaN v then [(v, .absent)] else [] := by
  induction cases with
  | nil => cases h : isNaN v <;> simp [put_nil, h]
  | cons c cases ih =>
    obtain ⟨w, old⟩ := c
    rw [put_cons]
    split
    · rename_i h
      simp [Value.isNaN_of_equal h, Value.isNaN_of_equal (Value.equal_comm w v ▸ h)]
    · simp only [List.filter_cons, ih]
      split <;> rfl

theorem nan_foldl_put (cases resolved : List Case) :
    (cases.foldl (fun resolved c => put c.1 c.2 resolved) resolved).filter (fun c => isNaN c.1) =
      resolved.filter (fun c => isNaN c.1) ++
        (cases.filter fun c => isNaN c.1).map fun c => (c.1, .absent) := by
  induction cases generalizing resolved with
  | nil => simp
  | cons c cases ih =>
    rw [List.foldl_cons, ih, nan_put, List.filter_cons]
    cases isNaN c.1 <;> simp

theorem nan_resolve (cases : List Case) :
    (resolve cases).filter (fun c => isNaN c.1) =
      (cases.filter fun c => isNaN c.1).map fun c => (c.1, .absent) := nan_foldl_put cases []

theorem distinct_foldl_put {resolved : List Case} (h : Distinct resolved) (cases : List Case) :
    Distinct (cases.foldl (fun resolved c => put c.1 c.2 resolved) resolved) := by
  induction cases generalizing resolved with
  | nil => exact h
  | cons c cases ih => exact ih (distinct_put h c.1 c.2)

theorem distinct_resolve (cases : List Case) : Distinct (resolve cases) :=
  distinct_foldl_put List.Pairwise.nil cases

theorem find?_of_mem {cases : List Case} (h : Distinct cases) {c : Case} (hc : c ∈ cases)
    (hnan : isNaN c.1 = false) : find? c.1 cases = some c.2 := by
  induction cases with
  | nil => cases hc
  | cons d cases ih =>
    obtain ⟨hd, hcases⟩ := List.pairwise_cons.mp h
    rw [find?_cons]
    rcases List.mem_cons.mp hc with rfl | hc
    · rw [equal_self, hnan]
      rfl
    · rw [hd c hc]
      exact ih hcases hc

theorem body_of_mem_resolve {cases : List Case} {c : Case} (hc : c ∈ resolve cases) :
    c.2 = (lastBody? c.1 cases).getD .absent := by
  cases hnan : isNaN c.1 with
  | false => rw [← find?_resolve, find?_of_mem (distinct_resolve cases) hc hnan, Option.getD_some]
  | true =>
    have hmem : c ∈ (resolve cases).filter fun c => isNaN c.1 := List.mem_filter.mpr ⟨hc, hnan⟩
    rw [nan_resolve] at hmem
    obtain ⟨d, -, rfl⟩ := List.mem_map.mp hmem
    have hnone : lastBody? d.1 cases = none := lastBody?_eq_none_iff.mpr fun w _ hw => by
      rw [Value.isNaN_of_equal (Value.equal_comm w.1 d.1 ▸ hw)] at hnan
      cases hnan
    rw [hnone, Option.getD_none]

theorem resolve_eq (cases : List Case) :
    resolve cases = (literals cases).map fun v => (v, (lastBody? v cases).getD .absent) := by
  rw [← literals_resolve, List.map_map]
  exact (List.map_id _).symm.trans
    (List.map_congr_left fun c hc => Prod.ext rfl (body_of_mem_resolve hc))

/-! ### The selected case -/

/-- The operator `==` holds between the literal of a case and `v`. -/
def Fits (rules : Rules) (v : Value) (c : Case) : Prop :=
  rules.applyBinary .equal c.1 v = .ok (.bool true)

/-- What a switch runs on `v`: the body of the last case that fits, or the fallback if none does. -/
def Selects (rules : Rules) (v : Value) (cases : List Case) (fallback body : Stmt) : Prop :=
  IsLast (Fits rules v) cases body ∨ (∀ c ∈ cases, ¬Fits rules v c) ∧ body = fallback

theorem fits_eq (rules : Rules) (v : Value) : Fits rules v = fun c => c.1.equal v = true := by
  funext c
  exact propext Rules.applyBinary_equal_iff

theorem selects_find? (rules : Rules) (v : Value) (cases : List Case) (fallback : Stmt) :
    Selects rules v cases fallback ((find? v (resolve cases)).getD fallback) := by
  rw [Selects, fits_eq, find?_resolve]
  cases h : lastBody? v cases with
  | some body => exact .inl (lastBody?_eq_some_iff.mp h)
  | none => exact .inr ⟨lastBody?_eq_none_iff.mp h, rfl⟩

/-- The resolved cases answer as the equality of the language has it. They are found by the values
that equal a literal of the source, with the body of the last such case; they are listed once, with
the first literal and the last body, a NaN each time and without a body; and a switch evaluates
its scrutinee once and runs the last case for which `==` holds, or else the fallback, or else
nothing. -/
theorem switch_follows_equality (cases : List Case) :
    (∀ v, ((find? v (resolve cases)).isSome = true ↔
        ∃ c ∈ cases, c.1.type = v.type ∧ c.1.equal v = true) ∧
      ∀ body, find? v (resolve cases) = some body ↔
        IsLast (fun c => c.1.type = v.type ∧ c.1.equal v = true) cases body) ∧
    Distinct (resolve cases) ∧
    resolve cases = (literals cases).map (fun v => (v, (lastBody? v cases).getD .absent)) ∧
    (resolve cases).filter (fun c => isNaN c.1) =
      (cases.filter fun c => isNaN c.1).map (fun c => (c.1, .absent)) ∧
    ∀ {σ ε : Type} (p : Program) (d : Dialect) (console : Console σ ε) (scrutinee : Expr)
      (fallback : Stmt) (n : Nat) (s : Scope Value) (io : σ), ∃ selected : Value → Stmt,
        (∀ v, Selects d.rules v cases fallback (selected v)) ∧
        Eval.exec p d console (n + 2) (.ofCases scrutinee cases fallback) s io =
          (Eval.eval p d console (n + 1) scrutinee s io).bind (s, ·) fun v io =>
            if (selected v).isAbsent then .ok () (s, io)
            else Eval.leave (Eval.exec p d console n (selected v) s.push io) := by
  refine ⟨fun v => ⟨?_, fun body => ?_⟩, distinct_resolve cases, resolve_eq cases,
    nan_resolve cases, fun p d console scrutinee fallback n s io => ?_⟩
  · rw [find?_resolve, lastBody?_isSome_iff]
  · have hkind : (fun c : Case => c.1.type = v.type ∧ c.1.equal v = true) =
        fun c => c.1.equal v = true := by
      funext c
      exact propext (and_iff_right_of_imp Value.type_of_equal)
    rw [find?_resolve, lastBody?_eq_some_iff, hkind]
  · exact ⟨fun v => (find? v (resolve cases)).getD fallback,
      fun v => selects_find? d.rules v cases fallback,
      Eval.exec_switch p d console (n + 1) scrutinee (resolve cases) fallback s io⟩

example : resolve [(.num .zero, .block []), (.num .nan, .block []), (.bool true, .absent),
      (.num Number.zero.negate, .print (.bool true))] =
    [(.num .zero, .print (.bool true)), (.num .nan, .absent), (.bool true, .absent)] := rfl

end Switch

end SmallLang
