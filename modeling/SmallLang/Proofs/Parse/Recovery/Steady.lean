import SmallLang.Proofs.Parse.Recovery.Places
import SmallLang.Proofs.Parse.Taking.Basic

/-! Parsers look at the tokens that they take and at the next one. What stands behind it does not
matter, nor does the bound on the depth, once there is an answer. -/

namespace SmallLang.Parser

variable {α β : Type}

abbrev Plain (kind : TokenKind) : Prop := kind ≠ .lbrace ∧ kind ≠ .rbrace ∧ kind ≠ .eof

/-- What `p` takes, or has taken when it fails, leads from one place to another; on the same tokens
with something else behind the next one, `q` does as `p`. -/
def Steady (place dest : Place) (p q : Parser α) (ts : List Token) : Prop :=
  match p ts with
  | .ok a rest => ∃ w, ts = w ++ rest ∧ place.walk w = dest ∧
      ∀ rest', rest'.head? = rest.head? → q (w ++ rest') = .ok a rest'
  | .fail cause rest => ∃ w, ts = w ++ rest ∧ place.walk w ≠ .behind ∧
      ∀ rest', rest'.head? = rest.head? → q (w ++ rest') = .fail cause rest'
  | .starved => True

namespace Steady

variable {place mid dest : Place} {p q : Parser α} {f g : α → Parser β} {ts : List Token}

theorem pure {a : α} : Steady place place (pure a) (pure a) ts :=
  ⟨[], rfl, rfl, fun _ _ => rfl⟩

theorem fail {cause : SyntaxCause} (h : place ≠ .behind) :
    Steady place dest (fail cause : Parser α) (Parser.fail cause) ts :=
  ⟨[], rfl, h, fun _ _ => rfl⟩

theorem starve : Steady place dest starve q ts := trivial

theorem bind (h : Steady place mid p q ts)
    (hf : ∀ a rest, p ts = .ok a rest → Steady mid dest (f a) (g a) rest) :
    Steady place dest (p >>= f) (q >>= g) ts := by
  unfold Steady at h ⊢
  rw [bind_apply]
  cases hp : p ts with
  | starved => trivial
  | fail cause rest =>
    rw [hp] at h
    obtain ⟨w, hts, hw, hq⟩ := h
    refine ⟨w, hts, hw, fun rest' hrest' => ?_⟩
    rw [bind_apply, hq rest' hrest', Parsed.bind_fail]
  | ok a rest =>
    rw [hp] at h
    obtain ⟨w, hts, hw, hq⟩ := h
    have hrest := hf a rest hp
    rw [Parsed.bind_ok]
    unfold Steady at hrest
    -- what comes next starts with the same token for `q` as for `p`
    have hgo (v rest₂ rest' : List Token) (hv : rest = v ++ rest₂) (h : rest'.head? = rest₂.head?) :
        (q >>= g) (w ++ v ++ rest') = g a (v ++ rest') := by
      have hhead : (v ++ rest').head? = rest.head? := by
        rw [hv, List.head?_append, List.head?_append, h]
      rw [bind_apply, List.append_assoc, hq _ hhead, Parsed.bind_ok]
    cases hfa : f a rest with
    | starved => trivial
    | ok b rest₂ =>
      rw [hfa] at hrest
      obtain ⟨v, hv, hwalk, hg⟩ := hrest
      refine ⟨w ++ v, by rw [hts, hv, List.append_assoc], by rw [Place.walk_append, hw, hwalk], ?_⟩
      intro rest' hrest'
      rw [hgo v rest₂ rest' hv hrest', hg rest' hrest']
    | fail cause rest₂ =>
      rw [hfa] at hrest
      obtain ⟨v, hv, hwalk, hg⟩ := hrest
      refine ⟨w ++ v, by rw [hts, hv, List.append_assoc], by rwa [Place.walk_append, hw], ?_⟩
      intro rest' hrest'
      rw [hgo v rest₂ rest' hv hrest', hg rest' hrest']

theorem peek_bind {f g : Token → Parser β}
    (h : Steady place dest (f (ts.headD Token.ending)) (g (ts.headD Token.ending)) ts) :
    Steady place dest (peek >>= f) (peek >>= g) ts := by
  have hpeek : Steady place place peek peek ts := by
    refine ⟨[], rfl, rfl, fun rest' hrest' => ?_⟩
    rw [List.nil_append, peek, List.headD_eq_head?_getD, List.headD_eq_head?_getD, hrest']
  refine hpeek.bind fun t rest ht => ?_
  cases ht
  exact h

theorem peek_if {kind : TokenKind} {yes yes' no no' : Parser β} (hkind : kind ≠ .eof)
    (hyes : ∀ t rest, t.kind = kind → Steady place dest yes yes' (t :: rest))
    (hno : Steady place dest no no' ts) :
    Steady place dest (peek >>= fun t => if t.kind = kind then yes else no)
      (peek >>= fun t => if t.kind = kind then yes' else no') ts := by
  apply peek_bind
  split
  · rename_i ht
    cases ts with
    | nil => exact absurd ht.symm hkind
    | cons t rest => exact hyes t rest ht
  · exact hno

theorem skip_bind {f g : Unit → Parser β} {t : Token}
    (h : Steady (place.after t.kind) dest (f ()) (g ()) ts) :
    Steady place dest (skip >>= f) (skip >>= g) (t :: ts) := by
  have hskip : Steady place (place.after t.kind) skip skip (t :: ts) :=
    ⟨[t], rfl, rfl, fun _ _ => rfl⟩
  refine hskip.bind fun a rest ha => ?_
  cases ha
  exact h

theorem expect_bind {kind : TokenKind} {f g : Token → Parser β} (hplace : place ≠ .behind)
    (hkind : kind ≠ .eof) (h : ∀ t rest, Steady (place.after kind) dest (f t) (g t) rest) :
    Steady place dest (expect kind >>= f) (expect kind >>= g) ts := by
  have hexpect : Steady place (place.after kind) (expect kind) (expect kind) ts := by
    apply peek_bind
    split
    · rename_i ht
      cases ts with
      | nil => exact absurd ht.symm hkind
      | cons t ts =>
        rw [← ht]
        exact skip_bind pure
    · exact fail hplace
  exact hexpect.bind fun t rest _ => h t rest

theorem skip_plain {kind : TokenKind} {f g : Unit → Parser β} {t : Token} (hk : t.kind = kind)
    (hplain : Plain kind) (h : Steady place dest (f ()) (g ()) ts) :
    Steady place dest (skip >>= f) (skip >>= g) (t :: ts) := by
  apply skip_bind
  rwa [hk, Place.after_of_ne hplain.1 hplain.2.1]

theorem expect_plain {kind : TokenKind} {f g : Token → Parser β} (hplace : place ≠ .behind)
    (hplain : Plain kind) (h : ∀ t rest, Steady place dest (f t) (g t) rest) :
    Steady place dest (expect kind >>= f) (expect kind >>= g) ts := by
  apply expect_bind hplace hplain.2.2
  rwa [Place.after_of_ne hplain.1 hplain.2.1]

theorem discard_bind {f g : Unit → Parser β}
    (h : Steady place dest (p >>= fun _ => f ()) (q >>= fun _ => g ()) ts) :
    Steady place dest (discard p >>= f) (discard q >>= g) ts := by
  have hdiscard {γ : Type} (p : Parser α) (f : Unit → Parser γ) :
      (discard p >>= f) = (p >>= fun _ => f ()) := by
    funext ts
    rw [bind_apply, Parser.discard_bind, bind_apply]
  rw [hdiscard, hdiscard]
  exact h

end Steady

end SmallLang.Parser
