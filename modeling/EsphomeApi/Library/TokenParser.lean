/-
EsphomeApi.Library.TokenParser — recursive descent over a list of tokens.

A parser looks at the first token that is left and takes tokens off. It throws
errors of its own, and there are two ways to fail that a program must not have:
to look behind the last token, and a loop that makes more turns than there are
tokens. `Fine` is the weakest precondition of a run that has neither
(`Fine.bind`, `fine_loop`); `Accepts` says which tokens a parser takes and what
it makes of them, and `Steps` is what a loop over items accepts
(`accepts_until`).
-/
import Mathlib.Data.List.Basic

namespace EsphomeApi.Library.TokenParser

variable {τ ε α β : Type}

/-- How a run can end without a result. -/
inductive Failure (ε : Type) where
  | thrown (e : ε)
  | outOfRange
  | endless
  deriving DecidableEq, Repr

/-- A parser, from the tokens that are left to those that it leaves. -/
abbrev Parser (τ ε α : Type) := StateT (List τ) (Except (Failure ε)) α

def peek : Parser τ ε τ
  | [] => .error .outOfRange
  | t :: ts => .ok (t, t :: ts)

def advance : Parser τ ε τ
  | [] => .error .outOfRange
  | t :: ts => .ok (t, ts)

def raise (e : ε) : Parser τ ε α := fun _ => .error (.thrown e)

/-- A loop, with the turns that it may make. -/
def whileTurns (body : α → Parser τ ε (α × Bool)) : Nat → α → Parser τ ε α
  | 0, _ => fun _ => .error .endless
  | fuel + 1, a => do
      let (a, more) ← body a
      if more then whileTurns body fuel a else pure a

/-- A loop whose body says whether to go on. One turn for each token that is
left, and one to stop, are enough for a body that takes tokens off. -/
def whileLoop (body : α → Parser τ ε (α × Bool)) (a : α) : Parser τ ε α :=
  fun ts => whileTurns body (ts.length + 1) a ts

def untilTurn (stop : Parser τ ε Bool) (item : α → Parser τ ε α) (a : α) :
    Parser τ ε (α × Bool) := do
  if ← stop then return (a, false)
  let a ← item a
  return (a, true)

/-- `while (!stop) item`. -/
def until_ (stop : Parser τ ε Bool) (item : α → Parser τ ε α) : α → Parser τ ε α :=
  whileLoop (untilTurn stop item)

/-! ## Runs -/

variable {ts rest : List τ} {a : α} {b : β} {p : Parser τ ε α} {f : α → Parser τ ε β}

theorem bind_run : (p >>= f) ts = match p ts with
    | .ok (a, rest) => f a rest
    | .error e => .error e := by
  change Except.bind (p ts) _ = _
  cases p ts <;> rfl

theorem bind_eq_ok {r : β × List τ} :
    (p >>= f) ts = .ok r ↔ ∃ a rest, p ts = .ok (a, rest) ∧ f a rest = .ok r := by
  rw [bind_run]
  constructor
  · intro h
    split at h
    · next a rest hp => exact ⟨a, rest, hp, h⟩
    · cases h
  · rintro ⟨a, rest, hp, hf⟩
    rw [hp]
    exact hf

theorem peek_bind_eq_ok {f : τ → Parser τ ε β} {r : β × List τ} :
    (peek >>= f) ts = .ok r ↔ ∃ t us, ts = t :: us ∧ f t (t :: us) = .ok r := by
  cases ts with
  | nil => exact iff_of_false nofun nofun
  | cons t us =>
      constructor
      · exact fun h => ⟨t, us, rfl, h⟩
      · rintro ⟨_, _, heq, h⟩
        obtain ⟨rfl, rfl⟩ := List.cons.inj heq
        exact h

theorem advance_bind_eq_ok {f : τ → Parser τ ε β} {r : β × List τ} :
    (advance >>= f) ts = .ok r ↔ ∃ t us, ts = t :: us ∧ f t us = .ok r := by
  cases ts with
  | nil => exact iff_of_false nofun nofun
  | cons t us =>
      constructor
      · exact fun h => ⟨t, us, rfl, h⟩
      · rintro ⟨_, _, heq, h⟩
        obtain ⟨rfl, rfl⟩ := List.cons.inj heq
        exact h

/-- Looks at the next token, and takes nothing. -/
def nextIs (test : τ → Bool) : Parser τ ε Bool := do
  let t ← peek
  pure (test t)

theorem nextIs_eq_ok {test : τ → Bool} {b : Bool} :
    (nextIs test : Parser τ ε Bool) ts = .ok (b, rest) ↔
      rest = ts ∧ ∃ t us, ts = t :: us ∧ test t = b := by
  unfold nextIs
  rw [peek_bind_eq_ok]
  constructor
  · rintro ⟨t, us, rfl, h⟩
    cases h
    exact ⟨rfl, t, us, rfl, rfl⟩
  · rintro ⟨rfl, t, us, rfl, rfl⟩
    exact ⟨t, us, rfl, rfl⟩

/-! ## Loops -/

/-- A turn after which the loop goes on takes a token off. -/
def Advances (body : α → Parser τ ε (α × Bool)) : Prop :=
  ∀ a ts a' rest, body a ts = .ok ((a', true), rest) → rest.length < ts.length

theorem whileTurns_congr {body : α → Parser τ ε (α × Bool)} (hbody : Advances body) :
    ∀ (f g : Nat) (a : α) (ts : List τ), ts.length < f → ts.length < g →
      whileTurns body f a ts = whileTurns body g a ts
  | 0, _, _, _, hf, _ => absurd hf (Nat.not_lt_zero _)
  | _, 0, _, _, _, hg => absurd hg (Nat.not_lt_zero _)
  | f + 1, g + 1, a, ts, hf, hg => by
      unfold whileTurns
      rw [bind_run, bind_run]
      cases hturn : body a ts with
      | error e => rfl
      | ok out =>
          obtain ⟨⟨a', more⟩, rest⟩ := out
          cases more with
          | false => rfl
          | true =>
              have hlt := hbody a ts a' rest hturn
              exact whileTurns_congr hbody f g a' rest (by omega) (by omega)

/-- One turn of a loop. -/
theorem whileLoop_eq {body : α → Parser τ ε (α × Bool)} (hbody : Advances body) (a : α) :
    whileLoop body a = body a >>= fun r => if r.2 then whileLoop body r.1 else pure r.1 := by
  funext ts
  rw [whileLoop, whileTurns, bind_run, bind_run]
  cases hturn : body a ts with
  | error e => rfl
  | ok out =>
      obtain ⟨⟨a', more⟩, rest⟩ := out
      cases more with
      | false => rfl
      | true =>
          have hlt := hbody a ts a' rest hturn
          exact whileTurns_congr hbody _ _ a' rest hlt (Nat.lt_succ_self _)

/-! ## Runs without a fault -/

/-- The run ends with a result for which `Q` holds, or throws an error for
which `E` holds. -/
def Fine (E : ε → Prop) (Q : α → List τ → Prop) : Except (Failure ε) (α × List τ) → Prop
  | .ok (a, rest) => Q a rest
  | .error (.thrown e) => E e
  | .error .outOfRange => False
  | .error .endless => False

variable {E : ε → Prop} {Q Q' : α → List τ → Prop} {R : β → List τ → Prop}

theorem Fine.mono {r : Except (Failure ε) (α × List τ)} (h : Fine E Q r)
    (himp : ∀ a rest, Q a rest → Q' a rest) : Fine E Q' r := by
  match r, h with
  | .ok (a, rest), h => exact himp a rest h
  | .error (.thrown _), h => exact h

theorem Fine.bind (hp : Fine E Q (p ts)) (hf : ∀ a rest, Q a rest → Fine E R (f a rest)) :
    Fine E R ((p >>= f) ts) := by
  rw [bind_run]
  revert hp
  cases p ts with
  | ok out => exact fun hp => hf out.1 out.2 hp
  | error e =>
      cases e with
      | thrown e => exact id
      | outOfRange => exact id
      | endless => exact id

theorem fine_pure (h : Q a ts) : Fine E Q ((pure a : Parser τ ε α) ts) := h

theorem fine_raise {e : ε} (h : E e) : Fine E Q ((raise e : Parser τ ε α) ts) := h

theorem fine_advance {t : τ} {Q : τ → List τ → Prop} (h : Q t ts) :
    Fine E Q ((advance : Parser τ ε τ) (t :: ts)) := h

/-- A loop whose turns keep `I`, and take a token off or stop with `Q`. -/
theorem fine_loop {body : α → Parser τ ε (α × Bool)} {I : α → List τ → Prop}
    (hbody : ∀ a ts, I a ts → Fine E (fun (r : α × Bool) rest =>
      if r.2 then I r.1 rest ∧ rest.length < ts.length else Q r.1 rest) (body a ts))
    (h : I a ts) : Fine E Q (whileLoop body a ts) := by
  have hturns : ∀ (fuel : Nat) (a : α) (ts : List τ), ts.length < fuel → I a ts →
      Fine E Q (whileTurns body fuel a ts) := by
    intro fuel
    induction fuel with
    | zero => exact fun _ ts hfuel => absurd hfuel (Nat.not_lt_zero _)
    | succ fuel ih =>
        intro a ts hfuel h
        refine (hbody a ts h).bind fun r rest hr => ?_
        obtain ⟨a', more⟩ := r
        cases more with
        | false => exact hr
        | true => exact ih a' rest (by have := hr.2; omega) hr.1
  exact hturns _ a ts (Nat.lt_succ_self _) h

/-! ## Lists that end in a sentinel -/

section

variable {isEnd : τ → Bool} {toks : List τ} {k l : Nat}

/-- What is left of some tokens, whose last is a sentinel. -/
structure Left (isEnd : τ → Bool) (toks ts : List τ) : Prop where
  suffix : ts <:+ toks
  ended : ∃ front t, ts = front ++ [t] ∧ isEnd t = true

theorem Left.exists_cons (h : Left isEnd toks ts) : ∃ t rest, ts = t :: rest := by
  obtain ⟨front, t, rfl, -⟩ := h.ended
  cases front with
  | nil => exact ⟨t, [], rfl⟩
  | cons t' front => exact ⟨t', _, rfl⟩

theorem Left.mem {t : τ} (h : Left isEnd toks (t :: ts)) : t ∈ toks :=
  h.suffix.subset (List.mem_cons_self ..)

/-- Behind a token that is no sentinel there is another one. -/
theorem Left.tail {t : τ} (h : Left isEnd toks (t :: ts)) (ht : isEnd t = false) :
    Left isEnd toks ts := by
  refine ⟨(List.suffix_cons t ts).trans h.suffix, ?_⟩
  obtain ⟨front, u, heq, hu⟩ := h.ended
  cases front with
  | nil =>
      obtain ⟨rfl, -⟩ := List.cons.inj heq
      rw [ht] at hu
      cases hu
  | cons t' front => exact ⟨front, u, (List.cons.inj heq).2, hu⟩

/-- From some tokens, the parser comes to a result without a fault, and has
taken off `k` tokens at least. -/
def Leaves (isEnd : τ → Bool) (toks : List τ) (E : ε → Prop) (k : Nat)
    (p : Parser τ ε α) : Prop :=
  ∀ ts, Left isEnd toks ts →
    Fine E (fun _ rest => Left isEnd toks rest ∧ rest.length + k ≤ ts.length) (p ts)

theorem leaves_pure : Leaves isEnd toks E 0 (pure a : Parser τ ε α) :=
  fun _ h => fine_pure ⟨h, Nat.le_refl _⟩

theorem Leaves.mono (h : Leaves isEnd toks E k p) (hl : l ≤ k) : Leaves isEnd toks E l p :=
  fun ts hts => (h ts hts).mono fun _ _ hrest => ⟨hrest.1, by omega⟩

theorem Leaves.bind (hp : Leaves isEnd toks E k p) (hf : ∀ a, Leaves isEnd toks E l (f a)) :
    Leaves isEnd toks E (k + l) (p >>= f) := fun ts hts =>
  (hp ts hts).bind fun a rest hrest =>
    (hf a rest hrest.1).mono fun _ _ hrest' => ⟨hrest'.1, by omega⟩

/-- The next token decides how to go on. -/
theorem Leaves.peek {f : τ → Parser τ ε α} (hf : ∀ t ts, Left isEnd toks (t :: ts) →
    Fine E (fun _ rest => Left isEnd toks rest ∧ rest.length + k ≤ (t :: ts).length)
      (f t (t :: ts))) :
    Leaves isEnd toks E k (peek >>= f) := by
  intro ts hts
  obtain ⟨t, rest, rfl⟩ := hts.exists_cons
  exact hf t rest hts

/-- A token that is no sentinel is taken off. -/
theorem Left.advance {t : τ} (h : Left isEnd toks (t :: ts)) (ht : isEnd t = false) :
    Fine E (fun _ rest => Left isEnd toks rest ∧ rest.length + 1 ≤ (t :: ts).length)
      ((TokenParser.advance : Parser τ ε τ) (t :: ts)) :=
  fine_advance ⟨h.tail ht, Nat.le_refl _⟩

/-- A token that is no sentinel is taken off, and a result follows from it. -/
theorem Left.advance_bind {t : τ} {f : τ → Parser τ ε α} (h : Left isEnd toks (t :: ts))
    (ht : isEnd t = false) (hf : ∀ t, Leaves isEnd toks E k (f t)) :
    Fine E (fun _ rest => Left isEnd toks rest ∧ rest.length + (k + 1) ≤ (t :: ts).length)
      ((TokenParser.advance >>= f) (t :: ts)) :=
  (h.advance ht).bind fun t rest hrest =>
    (hf t rest hrest.1).mono fun _ _ hrest' => ⟨hrest'.1, by omega⟩

theorem leaves_loop {body : α → Parser τ ε (α × Bool)}
    (hbody : ∀ a ts, Left isEnd toks ts → Fine E (fun (r : α × Bool) rest =>
      Left isEnd toks rest ∧ rest.length + (if r.2 then 1 else k) ≤ ts.length) (body a ts))
    (a : α) : Leaves isEnd toks E k (whileLoop body a) := by
  intro ts hts
  refine fine_loop (I := fun _ rest => Left isEnd toks rest ∧ rest.length ≤ ts.length)
    (fun a rest hrest => (hbody a rest hrest.1).mono fun r rest' hrest' => ?_)
    ⟨hts, Nat.le_refl _⟩
  obtain ⟨a', more⟩ := r
  cases more with
  | false => exact ⟨hrest'.1, by have := hrest'.2; simp at this; omega⟩
  | true => exact ⟨⟨hrest'.1, by have := hrest'.2; simp at this; omega⟩, hrest'.2⟩

/-- A loop over items ends where the stop holds. -/
theorem fine_until {stop : Parser τ ε Bool} {item : α → Parser τ ε α} {Stop : List τ → Prop}
    (hstop : ∀ ts, Left isEnd toks ts →
      Fine E (fun b rest => rest = ts ∧ (b = true → Stop ts)) (stop ts))
    (hitem : ∀ a, Leaves isEnd toks E 1 (item a)) (a : α) (hts : Left isEnd toks ts) :
    Fine E (fun _ rest => Left isEnd toks rest ∧ rest.length ≤ ts.length ∧ Stop rest)
      (until_ stop item a ts) := by
  refine fine_loop (I := fun _ rest => Left isEnd toks rest ∧ rest.length ≤ ts.length)
    (fun a rest hrest => ?_) ⟨hts, Nat.le_refl _⟩
  refine (hstop rest hrest.1).bind fun b rest' hrest' => ?_
  obtain ⟨rfl, hend⟩ := hrest'
  cases b with
  | true => exact fine_pure ⟨hrest.1, hrest.2, hend rfl⟩
  | false =>
      refine (hitem a rest' hrest.1).bind fun a' rest₂ hrest₂ => ?_
      exact fine_pure ⟨⟨hrest₂.1, Nat.le_trans (Nat.le_of_succ_le hrest₂.2) hrest.2⟩, hrest₂.2⟩

end

/-! ## What is accepted -/

/-- The parser takes exactly the tokens of which `G` says that they mean what
it returns; `G` may look at the tokens behind them. -/
def Accepts (p : Parser τ ε α) (G : α → List τ → List τ → Prop) : Prop :=
  ∀ ts a rest, p ts = .ok (a, rest) ↔ ∃ front, ts = front ++ rest ∧ G a front rest

theorem Accepts.bind_eq_ok {G : α → List τ → List τ → Prop} (hp : Accepts p G) {r : β × List τ} :
    (p >>= f) ts = .ok r ↔ ∃ a front us, ts = front ++ us ∧ G a front us ∧ f a us = .ok r := by
  rw [TokenParser.bind_eq_ok]
  constructor
  · rintro ⟨a, us, hrun, h⟩
    obtain ⟨front, rfl, hfront⟩ := (hp _ _ _).mp hrun
    exact ⟨a, front, us, rfl, hfront, h⟩
  · rintro ⟨a, front, us, rfl, hfront, h⟩
    exact ⟨a, us, (hp _ _ _).mpr ⟨front, rfl, hfront⟩, h⟩

/-- Items one after the other, and what they make of a value. -/
inductive Steps (G : α → α → List τ → Prop) : α → α → List τ → Prop where
  | nil (a : α) : Steps G a a []
  | cons {a a' a'' : α} {item items : List τ} (head : G a a' item) (tail : Steps G a' a'' items) :
      Steps G a a'' (item ++ items)

/-- A loop over items accepts items one after the other, up to a token for which
the test holds. What an item is may depend on the token behind it (`H`), as long
as a token with which another item starts, or at which the loop stops, makes no
difference (`starts`). -/
theorem accepts_until {test : τ → Bool} {item : α → Parser τ ε α}
    {H : α → α → List τ → List τ → Prop} {G : α → α → List τ → Prop} (starts : τ → Prop)
    (hitem : ∀ a, Accepts (item a) (H a))
    (hsound : ∀ a a' front rest, H a a' front rest →
      (∀ t ∈ (front ++ rest).head?, test t = false) → G a a' front)
    (hcomplete : ∀ a a' front t rest, G a a' front → starts t → H a a' front (t :: rest))
    (hstop : ∀ t, test t = true → starts t)
    (hfirst : ∀ a a' front, G a a' front → ∃ t ts, front = t :: ts ∧ test t = false ∧ starts t)
    (a : α) :
    Accepts (until_ (nextIs test) item a) fun a' front rest =>
      Steps G a a' front ∧ ∃ t ts, rest = t :: ts ∧ test t = true := by
  -- a turn after which the loop goes on
  have hturn : ∀ a ts a' rest, untilTurn (nextIs test) item a ts = .ok ((a', true), rest) →
      (∃ t us, ts = t :: us ∧ test t = false) ∧ item a ts = .ok (a', rest) := by
    intro a ts a' rest h
    obtain ⟨b, ts', hb, h⟩ := bind_eq_ok.mp h
    obtain ⟨rfl, hnext⟩ := nextIs_eq_ok.mp hb
    cases b with
    | true => cases h
    | false =>
        obtain ⟨a₁, rest₁, hitem₁, h⟩ := bind_eq_ok.mp h
        cases h
        exact ⟨hnext, hitem₁⟩
  have hone : ∀ a ts a' rest, (∃ t us, ts = t :: us ∧ test t = false) →
      item a ts = .ok (a', rest) → ∃ front, ts = front ++ rest ∧ G a a' front := by
    rintro a ts a' rest ⟨t, us, rfl, ht⟩ h
    obtain ⟨front, heq, hfront⟩ := (hitem a _ _ _).mp h
    refine ⟨front, heq, hsound a a' front rest hfront ?_⟩
    rw [← heq]
    intro u hu
    obtain rfl := Option.some.inj hu
    exact ht
  have hpos : ∀ a a' front, G a a' front → 0 < front.length := by
    intro a a' front hfront
    obtain ⟨t, ts, rfl, -⟩ := hfirst a a' front hfront
    exact Nat.succ_pos _
  have hadvances : Advances (untilTurn (nextIs test) item) := by
    intro a ts a' rest h
    obtain ⟨hnext, hitem₁⟩ := hturn a ts a' rest h
    obtain ⟨front, rfl, hfront⟩ := hone a ts a' rest hnext hitem₁
    have := hpos a a' front hfront
    rw [List.length_append]
    omega
  have hrun : ∀ a ts r, until_ (nextIs test) item a ts = .ok r ↔
      (∃ t us, ts = t :: us ∧ test t = true) ∧ r = (a, ts) ∨
        (∃ t us, ts = t :: us ∧ test t = false) ∧
          ∃ a' rest, item a ts = .ok (a', rest) ∧ until_ (nextIs test) item a' rest = .ok r := by
    intro a ts r
    rw [until_, whileLoop_eq hadvances, bind_eq_ok]
    constructor
    · rintro ⟨⟨a', more⟩, rest, h, hrest⟩
      cases more with
      | true =>
          obtain ⟨hnext, hitem₁⟩ := hturn a ts a' rest h
          exact .inr ⟨hnext, a', rest, hitem₁, hrest⟩
      | false =>
          cases hrest
          obtain ⟨b, ts', hb, h⟩ := bind_eq_ok.mp h
          obtain ⟨rfl, hnext⟩ := nextIs_eq_ok.mp hb
          cases b with
          | true =>
              cases h
              exact .inl ⟨hnext, rfl⟩
          | false =>
              obtain ⟨a₁, rest₁, -, h⟩ := bind_eq_ok.mp h
              cases h
    · rintro (⟨hnext, rfl⟩ | ⟨hnext, a', rest, hitem₁, hrest⟩)
      · exact ⟨(a, false), ts,
          bind_eq_ok.mpr ⟨true, ts, nextIs_eq_ok.mpr ⟨rfl, hnext⟩, rfl⟩, rfl⟩
      · exact ⟨(a', true), rest,
          bind_eq_ok.mpr ⟨false, ts, nextIs_eq_ok.mpr ⟨rfl, hnext⟩,
            bind_eq_ok.mpr ⟨a', rest, hitem₁, rfl⟩⟩, hrest⟩
  intro ts a'' rest
  constructor
  · intro h
    induction hlen : ts.length using Nat.strongRecOn generalizing ts a with
    | ind n ih =>
        rcases (hrun a ts _).mp h with ⟨hnext, hr⟩ | ⟨hnext, a₁, rest₁, hitem₁, hmore⟩
        · obtain ⟨rfl, rfl⟩ := Prod.mk.inj hr
          exact ⟨[], rfl, .nil _, hnext⟩
        · obtain ⟨front, rfl, hfront⟩ := hone a ts a₁ rest₁ hnext hitem₁
          have := hpos a a₁ front hfront
          obtain ⟨front', rfl, hsteps, hend⟩ :=
            ih rest₁.length (by rw [← hlen, List.length_append]; omega) a₁ rest₁ hmore rfl
          exact ⟨front ++ front', (List.append_assoc ..).symm, .cons hfront hsteps, hend⟩
  · rintro ⟨front, rfl, hsteps, t, us, rfl, ht⟩
    -- behind every item stands the first token of another, or the one that stops the loop
    have hstarts : ∀ {a a'' : α} {items : List τ}, Steps G a a'' items →
        ∃ u rest, items ++ t :: us = u :: rest ∧ starts u := by
      intro a a'' items h
      cases h with
      | nil => exact ⟨t, us, rfl, hstop t ht⟩
      | cons head _ =>
          obtain ⟨u, rest, rfl, -, hu⟩ := hfirst _ _ _ head
          exact ⟨u, _, rfl, hu⟩
    induction hsteps with
    | nil a => exact (hrun a _ _).mpr (.inl ⟨⟨t, us, rfl, ht⟩, rfl⟩)
    | @cons a a' a'' item items head tail ih =>
        rw [List.append_assoc]
        obtain ⟨v, vs, rfl, hv, -⟩ := hfirst _ _ _ head
        refine (hrun _ _ _).mpr (.inr ⟨⟨v, _, rfl, hv⟩, a', items ++ t :: us, ?_, ih⟩)
        obtain ⟨u, rest, hrest, hu⟩ := hstarts tail
        refine (hitem _ _ _ _).mpr ⟨v :: vs, rfl, ?_⟩
        rw [hrest]
        exact hcomplete _ _ _ _ _ head hu

end EsphomeApi.Library.TokenParser
