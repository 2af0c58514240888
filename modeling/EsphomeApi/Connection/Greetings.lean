/-
EsphomeApi.Connection.Greetings — the `HelloResponse`s of a run, and the entries
of the log that they lead to.

The state becomes `Connected` within an event, where the state handler and
`on_done` see it; they may end the session before the event is over. So each
such change is looked for in the log, and a `Greeting` knows the connection as
its turn finds and leaves it: `Traced` says that every change to `Connected` was
made in the turn of a response that the code accepts.
-/
import EsphomeApi.Connection.Acts
import EsphomeApi.Library.EventLog

namespace EsphomeApi

open Proto Library

/-- The name check of the connection. -/
def NameAccepted (options : ConnectionOptions) (v : HelloResponse.Value) : Prop :=
  options.expectedName ≠ [] → v.2.2.2.1 = [] ∨ v.2.2.2.1 = options.expectedName

namespace Connection

variable {σ : Type} {E : Environment σ} {s t : Connection σ}

/-- The response passes the checks of the connection. -/
structure Accepted (options : ConnectionOptions) (v : HelloResponse.Value) : Prop where
  major : ¬ (ServerHello.ofResponse v).apiVersionMajor > 2
  name : NameAccepted options v

/-! ## The responses of a run -/

/-- A `HelloResponse` that the connection handles, and the connection as the turn
that handles it finds and leaves it. -/
structure Greeting (σ : Type) where
  value : HelloResponse.Value
  turn : Connection σ
  left : Connection σ

/-- The turn of the response made this entry of the log. -/
structure Greeting.Covers (h : Greeting σ) (log : List Output) (k : Nat) : Prop where
  after : h.turn.log.length ≤ k
  before : k < h.left.log.length
  logged : h.left.log <+: log

/-- The `HelloResponse` that a turn handles in state `HelloSent`, once the raw
handler has returned. -/
def greeting (E : Environment σ) (s : Connection σ) : Option (Greeting σ) :=
  match turnFrame E s with
  | some frame =>
      match parse E frame with
      | some (.helloResponse v) =>
          if (invokeRaw E frame (advanced E s)).state = .helloSent then
            some ⟨v, s, (drainTurn E s).1⟩
          else none
      | _ => none
  | none => none

theorem greeting_of_frame {frame : Frame} {v : HelloResponse.Value}
    (hframe : turnFrame E s = some frame) (hparse : parse E frame = some (.helloResponse v))
    (hstate : (invokeRaw E frame (advanced E s)).state = .helloSent) :
    greeting E s = some ⟨v, s, (drainTurn E s).1⟩ := by
  simp only [greeting, hframe, hparse]
  exact if_pos hstate

theorem greeting_eq_some {h : Greeting σ} (hgreeting : greeting E s = some h) :
    h.turn = s ∧ h.left = (drainTurn E s).1 ∧ ∃ frame, turnFrame E s = some frame := by
  unfold greeting at hgreeting
  cases hframe : turnFrame E s with
  | none => simp [hframe] at hgreeting
  | some frame =>
      simp only [hframe] at hgreeting
      split at hgreeting
      · rw [Option.ite_none_right_eq_some] at hgreeting
        obtain ⟨-, heq⟩ := hgreeting
        cases heq
        exact ⟨rfl, rfl, frame, rfl⟩
      · cases hgreeting

/-- The `HelloResponse`s that an event makes the connection handle. -/
def greetings (E : Environment σ) (s : Connection σ) (e : Event) : List (Greeting σ) :=
  (turnsOf E s e).filterMap (greeting E)

/-- A connection with the `HelloResponse`s that it has handled. -/
structure Greeted (σ : Type) where
  connection : Connection σ
  greetings : List (Greeting σ) := []

namespace Greeted

def step (E : Environment σ) (g : Greeted σ) (e : Event) : Greeted σ where
  connection := g.connection.step E e
  greetings := g.greetings ++ Connection.greetings E g.connection e

end Greeted

/-- The rule for `on_bytes`: an invariant of the connection and of what it has
heard so far. -/
theorem onBytes_heard {I : List (Greeting σ) → Connection σ → Prop} {p : Greeting σ → Prop}
    (hturn : ∀ heard s, I heard s → (∀ h, greeting E s = some h → p h) →
      I (heard ++ (greeting E s).toList) (drainTurn E s).1)
    {heard : List (Greeting σ)} {data : Bytes} (hreading : s.transport.reading = true)
    (hs : I heard (feed E data s)) (hok : ∀ h ∈ greetings E s (.bytes data), p h) :
    I (heard ++ greetings E s (.bytes data)) (onBytes E data s) := by
  have hnext : ∀ before t, I (heard ++ before.filterMap (greeting E)) t →
      (∀ h, greeting E t = some h → p h) →
      I (heard ++ (before ++ [t]).filterMap (greeting E)) (drainTurn E t).1 := by
    intro before t ht hp
    have hheard := hturn _ t ht hp
    have hsplit : (before ++ [t]).filterMap (greeting E) =
        before.filterMap (greeting E) ++ (greeting E t).toList := by
      cases hgreeting : greeting E t <;> simp [hgreeting]
    rwa [hsplit, ← List.append_assoc]
  refine onBytes_with_turns (I := fun before t => I (heard ++ before.filterMap (greeting E)) t)
    (fun _ _ ht => ht) (fun before t ht hp => ⟨hnext before t ht hp, fun _ => hnext before t ht hp⟩)
    hreading ?_ fun t ht h hh => hok h (List.mem_filterMap.mpr ⟨t, ht, hh⟩)
  rwa [List.filterMap_nil, List.append_nil]

/-! ## Within a turn -/

/-- The log has grown since, and the state has become `Connected` since only if `A`. -/
def Since (options : ConnectionOptions) (log : List Output) (A : Prop) (s : Connection σ) : Prop :=
  s.options = options ∧ ∃ more, s.log = log ++ more ∧ (.state .connected ∈ more → A)

variable {options : ConnectionOptions} {log : List Output} {A : Prop}

theorem Since.start (hs : s.options = options) : Since options s.log A s :=
  ⟨hs, [], (List.append_nil _).symm, nofun⟩

theorem Since.congr (h : Since options log A s) (hoptions : t.options = s.options)
    (hlog : t.log = s.log) : Since options log A t :=
  ⟨hoptions.trans h.1, hlog ▸ h.2⟩

theorem Since.append (h : Since options log A s) {o : Output} (hoptions : t.options = s.options)
    (hlog : t.log = s.log ++ [o]) (ho : o = .state .connected → A) : Since options log A t := by
  obtain ⟨hs, more, hmore, hA⟩ := h
  refine ⟨hoptions.trans hs, more ++ [o], by rw [hlog, hmore, List.append_assoc], fun hmem => ?_⟩
  rcases List.mem_append.mp hmem with hold | hnew
  · exact hA hold
  · exact ho (List.mem_singleton.mp hnew).symm

theorem since_perform (call : Call) (h : Since options log A s) :
    Since options log A (perform E id call s) := by
  cases call with
  | sendRaw type payload => exact h.append rfl rfl nofun
  | on type handler =>
      have hsame : (on E type handler s).options = s.options ∧
          (on E type handler s).log = s.log := by
        unfold on
        split <;> exact ⟨rfl, rfl⟩
      exact h.congr hsame.1 hsame.2
  | _ => exact h.congr rfl rfl

theorem undisturbed_since : Undisturbed E (Since options log A) where
  kept hk h := h.congr hk.options hk.log
  invoked _ _ _ h := h.append rfl rfl nofun
  calls _ _ call _ _ _ h := since_perform call h

theorem keptByActs_since : KeptByActs E (Since options log A) (Since options log A) where
  __ := undisturbed_since
  window := undisturbed_since
  completed _ h := h.congr rfl rfl
  close _ h := h.append rfl rfl nofun
  closing _ _ h := h.append rfl rfl nofun
  request _ _ h := h.append rfl rfl nofun
  closed _ _ h := h.append rfl rfl nofun
  failed _ _ _ h := h.append rfl rfl nofun
  ping _ _ h := h.append rfl rfl nofun

theorem keptBySends_since : KeptBySends E (Since options log A) (Since options log A) where
  __ := keptByActs_since
  send _ _ _ _ h := h.append rfl rfl nofun
  helloSent _ h := h.append rfl rfl nofun

/-- Only a response that is accepted leads to `Connected`. -/
theorem since_handleHelloResponse (v : HelloResponse.Value) (h : Since options log A s)
    (haccept : s.state = .helloSent → Accepted options v → A) :
    Since options log A (handleHelloResponse E v s) := by
  have hacts : KeptByActs E (Since options log A) (Since options log A) := keptByActs_since
  refine hacts.handleHelloResponse v h (fun _ => h.congr rfl rfl) ?_ (fun t ht => ?_)
    fun _ _ ht => ht.append rfl rfl nofun
  · intro hstate t _ _ hhello hmajor hname ht
    rw [hhello] at hmajor
    refine ht.append rfl rfl fun _ => haccept hstate ⟨hmajor, fun hexpected => ?_⟩
    rw [hhello, ht.1] at hname
    by_contra hneither
    rw [not_or] at hneither
    exact hname ⟨hexpected, hneither.1, hneither.2⟩
  · have hk := kept_startKeepalive t
    exact ht.congr hk.options hk.log

/-- A turn leads to `Connected` only if it handles a response that is accepted. -/
theorem since_drainTurn (hs : s.options = options) :
    Since options s.log (∃ h, greeting E s = some h ∧ Accepted options h.value)
      (drainTurn E s).1 := by
  have hadvanced : Since options s.log (∃ h, greeting E s = some h ∧ Accepted options h.value)
      (advanced E s) := (Since.start hs).congr rfl rfl
  refine keptBySends_since.drainTurn hadvanced fun frame v hframe hparse hraw => ?_
  refine since_handleHelloResponse v hraw fun hstate haccepted => ?_
  exact ⟨⟨v, s, (drainTurn E s).1⟩, greeting_of_frame hframe hparse hstate, haccepted⟩

/-- No other event leads to `Connected`. -/
theorem since_step (e : Event) (he : ∀ data, e ≠ .bytes data) (hs : s.options = options) :
    Since options s.log False (step E s e) := by
  have hacts : KeptByActs E (Since options s.log False) (Since options s.log False) :=
    keptByActs_since
  have hstart : Since options s.log False s := .start hs
  refine hacts.step e hstart ?_ (hstart.congr rfl rfl) (hstart.congr rfl rfl) ?_ ?_ ?_
  · intro host port onDone _
    exact hacts.start (K := Since options s.log False) host port onDone
      (hstart.append rfl rfl nofun) (fun t ht => ht.append rfl rfl nofun)
      fun t _ ht => ht.append rfl rfl nofun
  · intro _ _
    exact keptBySends_since.onConnectedTransport (hstart.append rfl rfl nofun)
      (fun _ ht => ht.congr rfl rfl) fun _ _ ht => ht.append rfl rfl nofun
  · intro data hbytes
    exact absurd hbytes (he data)
  · intro call _ _
    exact since_perform call hstart

/-! ## Over a run -/

/-- Each change to `Connected` was made in the turn of a response that the
connection accepts. -/
def Traced (options : ConnectionOptions) (heard : List (Greeting σ)) (s : Connection σ) : Prop :=
  s.options = options ∧ ∀ k, s.log[k]? = some (.state .connected) →
    ∃ h ∈ heard, h.Covers s.log k ∧ Accepted options h.value

variable {heard more : List (Greeting σ)}

/-- The old changes stay traced; a new one needs a response of its own. -/
theorem Traced.grow (h : Traced options heard s) (hsince : Since options s.log A t)
    (hnew : A → ∀ k, s.log.length ≤ k → k < t.log.length →
      ∃ h ∈ more, h.Covers t.log k ∧ Accepted options h.value) :
    Traced options (heard ++ more) t := by
  obtain ⟨hoptions, entries, hlog, hA⟩ := hsince
  refine ⟨hoptions, fun k hk => ?_⟩
  rcases Nat.lt_or_ge k s.log.length with hlt | hge
  · rw [hlog, List.getElem?_append_left hlt] at hk
    obtain ⟨g, hg, hcovers, haccepted⟩ := h.2 k hk
    have hprefix : s.log <+: t.log := ⟨entries, hlog.symm⟩
    exact ⟨g, List.mem_append_left _ hg,
      ⟨hcovers.after, hcovers.before, hcovers.logged.trans hprefix⟩, haccepted⟩
  · have hentry := hk
    rw [hlog, List.getElem?_append_right hge] at hentry
    obtain ⟨g, hg, hcovers⟩ := hnew (hA (List.mem_of_getElem? hentry)) k hge
      (List.getElem?_eq_some_iff.mp hk).1
    exact ⟨g, List.mem_append_right _ hg, hcovers⟩

theorem traced_drainTurn (h : Traced options heard s) :
    Traced options (heard ++ (greeting E s).toList) (drainTurn E s).1 := by
  refine h.grow (since_drainTurn (E := E) h.1) ?_
  rintro ⟨g, hg, haccepted⟩ k hge hlt
  obtain ⟨hturn, hleft, -⟩ := greeting_eq_some hg
  refine ⟨g, by simp [hg], ⟨?_, ?_, ?_⟩, haccepted⟩
  · rw [hturn]
    exact hge
  · rw [hleft]
    exact hlt
  · exact hleft ▸ List.prefix_rfl

theorem traced_step (g : Greeted σ) (e : Event) (h : Traced options g.greetings g.connection) :
    Traced options (g.step E e).greetings (g.step E e).connection := by
  obtain ⟨s, heard⟩ := g
  have hs : Traced options heard s := h
  show Traced options (heard ++ greetings E s e) (step E s e)
  cases e with
  | bytes data =>
      show Traced options _ (receive E data s)
      unfold receive
      split
      · next hreading =>
          exact onBytes_heard (p := fun _ => True) (fun _ _ ht _ => traced_drainTurn ht) hreading
            hs fun _ _ => trivial
      · next hreading =>
          have hnone : greetings E s (.bytes data) = [] := by simp [greetings, turnsOf, hreading]
          rwa [hnone, List.append_nil]
  | _ =>
      refine hs.grow (since_step _ (fun data hbytes => ?_) hs.1) False.elim
      cases hbytes

end Connection

end EsphomeApi
