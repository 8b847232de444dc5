import SmallLang.Parse.Program
import SmallLang.Proofs.Parse.Taking.Basic

/-! What parsers use up: tokens in front of the next end of the input, and depth of recursion. The
routines that recurse are listed with the calls they make; all but the first call of a routine are
on fewer tokens than it has itself. -/

namespace SmallLang

namespace Parser

inductive Routine where
  | expression (level : Nat)
  | operand
  | operators (level : Nat) (left : Expr)
  | arguments
  | moreArguments
  | statement
  | blockRest
  | switchCases
  | switchDefault
  | someParameters
  | functionBody (name : Bytes)

namespace Routine

def Result : Routine → Type
  | expression _ => Expr
  | operand => Expr
  | operators _ _ => Expr
  | arguments => List Expr
  | moreArguments => List Expr
  | statement => Stmt
  | blockRest => List Stmt
  | switchCases => List Switch.Case
  | switchDefault => Stmt
  | someParameters => List Param
  | functionBody _ => List Stmt

def parser : (r : Routine) → Nat → Parser r.Result
  | expression level, n => Parser.expression n level
  | operand, n => Parser.operand n
  | operators level left, n => Parser.operators n level left
  | arguments, n => Parser.arguments n
  | moreArguments, n => Parser.moreArguments n
  | statement, n => Parser.statement n
  | blockRest, n => Parser.blockRest n
  | switchCases, n => Parser.switchCases n
  | switchDefault, n => Parser.switchDefault n
  | someParameters, n => Parser.someParameters n
  | functionBody name, n => Parser.functionBody name n

/-- A number of tokens that an answer has taken at least. -/
def least : Routine → Nat
  | operators _ _ => 0
  | switchCases => 0
  | switchDefault => 0
  | functionBody _ => 0
  | _ => 1

/-- The routine starts with a call of the other one, on the tokens that it has itself. -/
inductive Opens : Routine → Routine → Prop
  | expression (level : Nat) : Opens (expression level) operand
  | arguments : Opens arguments (expression lowestLevel)
  | blockRest : Opens blockRest statement
  | functionBody (name : Bytes) : Opens (functionBody name) statement

/-- How many calls may follow one another on the same tokens. -/
def height : Routine → Nat
  | expression _ => 1
  | arguments => 2
  | blockRest => 1
  | functionBody _ => 1
  | _ => 0

theorem Opens.height_lt {r r' : Routine} (h : r.Opens r') : r'.height < r.height := by
  cases h <;> simp [height]

theorem height_le (r : Routine) : r.height ≤ 2 := by
  cases r <;> simp [height]

theorem height_eq {r r' : Routine} (h : r.ctorIdx = r'.ctorIdx) : r.height = r'.height := by
  cases r <;> cases r' <;> first | rfl | cases h

end Routine

/-- A routine on tokens, and what it may call. -/
inductive Calls : Routine × List Token → Routine × List Token → Prop
  | opens {r r' : Routine} (ts : List Token) : r.Opens r' → Calls (r, ts) (r', ts)
  | behind (r r' : Routine) {w : List Token} (ts : List Token) :
      0 < w.length → Calls (r, w ++ ts) (r', ts)

/-- A depth of recursion that calls on the tokens get by with. -/
def demand (c : Routine × List Token) : Nat := 3 * c.2.length + c.1.height

theorem Calls.demand_lt {c c' : Routine × List Token} (h : Calls c c') : demand c' < demand c := by
  cases h with
  | opens ts h => exact Nat.add_lt_add_left h.height_lt _
  | behind r r' ts hw =>
    have hheight := r'.height_le
    simp only [demand, List.length_append]
    omega

end Parser

def EndFree (w : List Token) : Prop := ∀ t ∈ w, t.kind ≠ .eof

theorem EndFree.append {w v : List Token} (hw : EndFree w) (hv : EndFree v) : EndFree (w ++ v) :=
  List.forall_mem_append.mpr ⟨hw, hv⟩

/-- What a parser may do with tokens. It goes past no end of the input, and takes at least `least`
tokens for an answer; only in want of room does it neither answer nor fail. -/
inductive Advances {α : Type} (roomy : Prop) (least : Nat) (ts : List Token) : Parsed α → Prop
  | ok {w a rest} : ts = w ++ rest → EndFree w → least ≤ w.length →
      Advances roomy least ts (.ok a rest)
  | fail {w cause rest} : ts = w ++ rest → EndFree w → Advances roomy least ts (.fail cause rest)
  | starved : ¬ roomy → Advances roomy least ts .starved

open SmallLang.Parser

/-- The routines have room for the tokens and for all that is left of them later. -/
def Room (fits : Routine → List Token → Prop) (ts : List Token) : Prop :=
  ∀ r rest, rest <:+ ts → fits r rest

theorem Room.suffix {fits : Routine → List Token → Prop} {w ts rest : List Token}
    (h : Room fits ts) (hts : ts = w ++ rest) : Room fits rest :=
  fun r after hafter => h r after (hafter.trans ⟨w, hts.symm⟩)

/-- What the routine may call on the tokens has room. -/
def CallsFit (fits : Routine → List Token → Prop) (r : Routine) (ts : List Token) : Prop :=
  ∀ r' ts', Calls (r, ts) (r', ts') → fits r' ts'

theorem CallsFit.behind {fits : Routine → List Token → Prop} {r : Routine} {w ts rest : List Token}
    (h : CallsFit fits r ts) (hts : ts = w ++ rest) (hw : 0 < w.length) : Room fits rest := by
  rintro r' after ⟨v, rfl⟩
  rw [← List.append_assoc] at hts
  subst hts
  exact h r' after (.behind r r' after (by simp only [List.length_append]; omega))

namespace Advances

variable {α β : Type} {roomy roomy' : Prop} {fits : Routine → List Token → Prop} {k j : Nat}
  {ts : List Token} {r : Parsed α}

theorem mono (h : Advances roomy j ts r) (hr : roomy' → roomy) (hk : k ≤ j) :
    Advances roomy' k ts r := by
  cases h with
  | ok hts hw hj => exact .ok hts hw (Nat.le_trans hk hj)
  | fail hts hw => exact .fail hts hw
  | starved hs => exact .starved fun h => hs (hr h)

theorem pure (a : α) : Advances roomy 0 ts ((pure a : Parser α) ts) :=
  .ok (w := []) rfl (List.forall_mem_nil _) (Nat.zero_le _)

theorem failed (cause : SyntaxCause) : Advances roomy k ts ((Parser.fail cause : Parser α) ts) :=
  .fail (w := []) rfl (List.forall_mem_nil _)

theorem answered (h : Advances roomy k ts r) : Advances (r ≠ .starved) k ts r := by
  cases h with
  | ok hts hw hk => exact .ok hts hw hk
  | fail hts hw => exact .fail hts hw
  | starved hs => exact .starved fun h => h rfl

theorem ne_starved (h : Advances roomy k ts r) (hr : roomy) : r ≠ .starved := by
  rintro rfl
  cases h with
  | starved hs => exact hs hr

theorem bind_of {p : Parser α} {f : α → Parser β} (h : Advances roomy k ts (p ts))
    (hroom : ∀ w rest, ts = w ++ rest → k ≤ w.length → roomy → Room fits rest)
    (hf : ∀ a rest, p ts = .ok a rest → Advances (Room fits rest) 0 rest (f a rest)) :
    Advances roomy k ts ((p >>= f) ts) := by
  rw [bind_apply]
  generalize hp : p ts = r at h
  cases h with
  | ok hts hw hk =>
    rename_i w a rest
    have hrest := hf a rest hp
    rw [Parsed.bind_ok]
    generalize f a rest = r at hrest
    cases hrest with
    | ok hrest hv _ =>
      refine .ok (by rw [hts, hrest, List.append_assoc]) (hw.append hv) ?_
      rw [List.length_append]
      exact Nat.le_add_right_of_le hk
    | fail hrest hv => exact .fail (by rw [hts, hrest, List.append_assoc]) (hw.append hv)
    -- the continuation has room where `ts` has, so its lack of room is one of `ts`
    | starved hs => exact .starved fun h => hs (hroom w rest hts hk h)
  | fail hts hw => exact .fail hts hw
  | starved hs => exact .starved hs

theorem bind_eq {p : Parser α} {f : α → Parser β} (h : Advances (Room fits ts) k ts (p ts))
    (hf : ∀ a rest, p ts = .ok a rest → Advances (Room fits rest) 0 rest (f a rest)) :
    Advances (Room fits ts) 0 ts ((p >>= f) ts) :=
  (h.mono id (Nat.zero_le _)).bind_of (fun _ _ hts _ hroom => hroom.suffix hts) hf

theorem bind {p : Parser α} {f : α → Parser β} (h : Advances (Room fits ts) k ts (p ts))
    (hf : ∀ a rest, Advances (Room fits rest) 0 rest (f a rest)) :
    Advances (Room fits ts) 0 ts ((p >>= f) ts) :=
  h.bind_eq fun a rest _ => hf a rest

theorem discard_bind {p : Parser α} {f : Unit → Parser β}
    (h : Advances roomy k ts ((p >>= fun _ => f ()) ts)) :
    Advances roomy k ts (((discard p : Parser Unit) >>= f) ts) := by
  rwa [bind_apply, Parser.discard_bind, ← bind_apply]

theorem skip_of {t : Token} {f : Unit → Parser β} (ht : t.kind ≠ .eof) (hk : k ≤ 1)
    (hroom : roomy → Room fits ts) (h : Advances (Room fits ts) 0 ts (f () ts)) :
    Advances roomy k (t :: ts) ((skip >>= f) (t :: ts)) := by
  rw [bind_apply, skip_cons, Parsed.bind_ok]
  generalize f () ts = r at h
  cases h with
  | ok hts hw _ =>
    subst hts
    exact .ok (List.cons_append).symm (List.forall_mem_cons.mpr ⟨ht, hw⟩)
      (Nat.le_trans hk (Nat.le_add_left 1 _))
  | fail hts hw =>
    subst hts
    exact .fail (List.cons_append).symm (List.forall_mem_cons.mpr ⟨ht, hw⟩)
  | starved hs => exact .starved fun h => hs (hroom h)

theorem skip {t : Token} {f : Unit → Parser β} (ht : t.kind ≠ .eof)
    (h : Advances (Room fits ts) 0 ts (f () ts)) :
    Advances (Room fits (t :: ts)) 0 (t :: ts) ((Parser.skip >>= f) (t :: ts)) :=
  skip_of ht (Nat.zero_le _) (fun hroom => hroom.suffix (w := [t]) rfl) h

theorem skip_first {t : Token} {f : Unit → Parser β} {c : Routine} (ht : t.kind ≠ .eof)
    (hk : k ≤ 1) (h : Advances (Room fits ts) 0 ts (f () ts)) :
    Advances (CallsFit fits c (t :: ts)) k (t :: ts) ((Parser.skip >>= f) (t :: ts)) :=
  skip_of ht hk (fun hcalls => hcalls.behind (w := [t]) rfl Nat.one_pos) h

theorem bind_first {p : Parser α} {f : α → Parser β} {c : Routine}
    (h : Advances (CallsFit fits c ts) 1 ts (p ts))
    (hf : ∀ a rest, Advances (Room fits rest) 0 rest (f a rest)) :
    Advances (CallsFit fits c ts) 1 ts ((p >>= f) ts) :=
  h.bind_of (fun _ _ hts hw hcalls => hcalls.behind hts hw) fun a rest _ => hf a rest

theorem expect {kind : TokenKind} (hkind : kind ≠ .eof) :
    Advances roomy 1 ts (Parser.expect kind ts) := by
  cases ts with
  | nil =>
    rw [expect_nil hkind]
    exact failed _
  | cons t ts =>
    rw [expect_cons]
    split
    · rename_i ht
      exact .ok (w := [t]) rfl (List.forall_mem_singleton.mpr (ht ▸ hkind)) (Nat.le_refl 1)
    · exact failed _

theorem discard_expect {kind : TokenKind} {f : Unit → Parser β} (hkind : kind ≠ .eof)
    (hf : ∀ rest, Advances (Room fits rest) 0 rest (f () rest)) :
    Advances (Room fits ts) 0 ts (((discard (Parser.expect kind) : Parser Unit) >>= f) ts) :=
  discard_bind ((expect hkind).bind fun _ rest => hf rest)

end Advances

namespace Parser

variable {fits : Routine → List Token → Prop} {n : Nat}

/-- Routines of depth `n` advance where they have room. -/
abbrev AdvanceAt (fits : Routine → List Token → Prop) (n : Nat) : Prop :=
  ∀ (r : Routine) (ts : List Token), Advances (fits r ts) r.least ts (r.parser n ts)

theorem AdvanceAt.call (ih : AdvanceAt fits n) (r : Routine) (ts : List Token) :
    Advances (Room fits ts) r.least ts (r.parser n ts) :=
  (ih r ts).mono (fun h => h r ts (List.suffix_refl ts)) (Nat.le_refl _)

theorem AdvanceAt.opened (ih : AdvanceAt fits n) {c r : Routine} (h : c.Opens r) (ts : List Token) :
    Advances (CallsFit fits c ts) r.least ts (r.parser n ts) :=
  (ih r ts).mono (fun hcalls => hcalls r ts (.opens ts h)) (Nat.le_refl _)

end Parser

end SmallLang
