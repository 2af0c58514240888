/-
EsphomeApi.Connection.HelloGate — what a device has to say in its
`HelloResponse` before the connection is `Connected`.

The version check compares a signed number: `static_cast<int>` makes an
`api_version_major` from 2^31 on negative, and it passes. Apart from such a
response, a connection becomes `Connected` in the turn of a response with a
version of at most 2 and a name that it accepts, however soon a handler ends
the session; and on a Noise connection the server hello has named the device
before that turn.
-/
import EsphomeApi.Connection.Greetings
import EsphomeApi.Frame.NoiseReassembly
import EsphomeApi.Connection.Completion

namespace EsphomeApi

open Proto Library

namespace Connection

variable {σ : Type} {E : Environment σ} {s t : Connection σ}

/-- A `HelloResponse` that led to `Connected`: `hello_` has its values. -/
structure LedBy (v : HelloResponse.Value) (s : Connection σ) : Prop where
  hello : s.hello = ServerHello.ofResponse v
  major : v.1.toNat ≤ 2
  name : NameAccepted s.options v

/-! ## The check -/

/-- The major version, if the name is accepted, is not negative as an `int`. -/
def Unsigned (options : ConnectionOptions) (v : HelloResponse.Value) : Prop :=
  NameAccepted options v → v.1.toNat < 2 ^ 31

/-- Not negative as an `int` and at most 2, so at most 2 on the wire. -/
theorem toNat_le_two {major : BitVec 32} (hsmall : major.toNat < 2 ^ 31)
    (hle : ¬ major.toInt > 2) : major.toNat ≤ 2 := by
  rw [BitVec.toInt_eq_toNat_of_lt (by omega)] at hle
  omega

/-- What holds while the connection has handled `heard`: `Connected` through one
of them only. -/
def Led (options : ConnectionOptions) (heard : List (Greeting σ)) (s : Connection σ) : Prop :=
  s.options = options ∧ (s.state = .connected → ∃ h ∈ heard, LedBy h.value s)

variable {options : ConnectionOptions} {heard : List (Greeting σ)}

theorem Led.mono (h : Led options heard s) (more : List (Greeting σ)) :
    Led options (heard ++ more) s := by
  refine ⟨h.1, fun hstate => ?_⟩
  obtain ⟨g, hg, hled⟩ := h.2 hstate
  exact ⟨g, List.mem_append_left _ hg, hled⟩

theorem Led.of_not_connected (hoptions : s.options = options) (h : s.state ≠ .connected) :
    Led options heard s :=
  ⟨hoptions, fun hstate => absurd hstate h⟩

theorem Led.congr (h : Led options heard s) (hoptions : t.options = s.options)
    (hstate : t.state = s.state) (hhello : t.hello = s.hello) : Led options heard t := by
  refine ⟨hoptions.trans h.1, fun hconnected => ?_⟩
  obtain ⟨g, hg, hled⟩ := h.2 (hstate ▸ hconnected)
  exact ⟨g, hg, hhello.trans hled.hello, hled.major, hoptions ▸ hled.name⟩

theorem led_perform (call : Call) (h : Led options heard s) :
    Led options heard (perform E id call s) := by
  cases call with
  | on type handler =>
      have hsame : (on E type handler s).options = s.options ∧
          (on E type handler s).state = s.state ∧ (on E type handler s).hello = s.hello := by
        unfold on
        split <;> exact ⟨rfl, rfl, rfl⟩
      exact h.congr hsame.1 hsame.2.1 hsame.2.2
  | _ => exact h.congr rfl rfl rfl

theorem undisturbed_led : Undisturbed E (Led options heard) where
  kept hk h := h.congr hk.options hk.state hk.hello
  invoked _ _ _ h := h.congr rfl rfl rfl
  calls _ _ call _ _ _ h := led_perform call h

theorem keptByActs_led : KeptByActs E (Led options heard) (Led options heard) where
  __ := undisturbed_led
  window := undisturbed_led
  completed _ h := h.congr rfl rfl rfl
  close _ h := h.congr rfl rfl rfl
  closing _ _ h := .of_not_connected h.1 nofun
  request _ _ h := h.congr rfl rfl rfl
  closed _ _ h := .of_not_connected h.1 nofun
  failed _ _ _ h := .of_not_connected h.1 nofun
  ping _ _ h := h.congr rfl rfl rfl

theorem led_startKeepalive (t : Connection σ) (ht : Led options heard t) :
    Led options heard (startKeepalive t) :=
  have hk := kept_startKeepalive t
  ht.congr hk.options hk.state hk.hello

theorem keptBySends_led : KeptBySends E (Led options heard) (Led options heard) where
  __ := keptByActs_led
  send _ _ _ _ h := h.congr rfl rfl rfl
  helloSent _ h := .of_not_connected h.1 nofun

/-- The case `HelloResponse`, when in state `HelloSent` the response has been heard
and is no negative `int`. -/
theorem led_handleHelloResponse (v : HelloResponse.Value) (h : Led options heard s)
    (hheard : s.state = .helloSent → Unsigned options v ∧ ∃ h ∈ heard, h.value = v) :
    Led options heard (handleHelloResponse E v s) := by
  have hacts : KeptByActs E (Led options heard) (Led options heard) := keptByActs_led
  refine hacts.handleHelloResponse v h ?_ ?_ led_startKeepalive fun _ _ ht => ht.congr rfl rfl rfl
  · intro hstate
    exact .of_not_connected h.1 (by rw [hstate]; exact nofun)
  · intro hstate t _ _ hhello hmajor hname ht
    obtain ⟨hunsigned, g, hg, rfl⟩ := hheard hstate
    have haccepted : NameAccepted options g.value := by
      intro hexpected
      rw [hhello, ht.1] at hname
      by_contra hneither
      rw [not_or] at hneither
      exact hname ⟨hexpected, hneither.1, hneither.2⟩
    rw [hhello] at hmajor
    have htwo := toNat_le_two (hunsigned haccepted) hmajor
    refine ⟨ht.1, fun _ => ⟨g, hg, hhello, htwo, ?_⟩⟩
    show NameAccepted t.options g.value
    rw [ht.1]
    exact haccepted

theorem led_drainTurn (h : Led options heard s)
    (hturn : ∀ h, greeting E s = some h → Unsigned options h.value) :
    Led options (heard ++ (greeting E s).toList) (drainTurn E s).1 := by
  have hadvanced : Led options heard (advanced E s) := h.congr rfl rfl rfl
  refine keptBySends_led.drainTurn (hadvanced.mono _) fun frame v hframe hparse hraw => ?_
  refine led_handleHelloResponse v hraw fun hstate => ?_
  have hgreeting := greeting_of_frame hframe hparse hstate
  exact ⟨hturn _ hgreeting, ⟨v, s, (drainTurn E s).1⟩, by simp [hgreeting], rfl⟩

/-! ## Runs -/

/-- No `HelloResponse` with an accepted name reports a major version that is
negative as an `int`. -/
def UnsignedEvent (E : Environment σ) (g : Greeted σ) (e : Event) : Prop :=
  ∀ h ∈ greetings E g.connection e, Unsigned g.connection.options h.value

theorem led_step (g : Greeted σ) (e : Event) (h : Led options g.greetings g.connection)
    (he : UnsignedEvent E g e) : Led options (g.step E e).greetings (g.step E e).connection := by
  obtain ⟨s, heard⟩ := g
  have hs : Led options heard s := h
  have hacts : KeptByActs E (Led options (heard ++ greetings E s e))
      (Led options (heard ++ greetings E s e)) := keptByActs_led
  show Led options (heard ++ greetings E s e) (step E s e)
  have hmono := hs.mono (greetings E s e)
  refine hacts.step e hmono ?_ (hmono.congr rfl rfl rfl) (hmono.congr rfl rfl rfl) ?_ ?_ ?_
  · intro host port onDone _
    refine hacts.start (K := Led options (heard ++ greetings E s e)) host port onDone
      (hmono.congr rfl rfl rfl) ?_ ?_
    · intro t ht
      exact .of_not_connected ht.1 nofun
    · intro t _ ht
      exact ht.congr rfl rfl rfl
  · intro _ _
    exact keptBySends_led.onConnectedTransport (hmono.congr rfl rfl rfl)
      (fun _ ht => ht.congr rfl rfl rfl) fun _ _ ht => ht.congr rfl rfl rfl
  · rintro data rfl hreading
    refine onBytes_heard (fun _ _ ht hunsigned => led_drainTurn ht hunsigned) hreading
      (hs.congr rfl rfl rfl) fun h hh => ?_
    have hunsigned : Unsigned s.options h.value := he h hh
    rwa [hs.1] at hunsigned
  · intro call _ _
    exact led_perform call hmono

/-! ## The name in the server hello -/

/-- Kept by every operation of the frame helper. -/
structure Lasting (H : FrameHelper σ) (Q : σ → Prop) : Prop where
  encode : ∀ type payload f, Q f → Q (H.encode type payload f).2
  feed : ∀ data f, Q f → Q (H.feed data f)
  advance : ∀ f, Q f → Q (H.advance f).2
  hooks : ∀ f, Q f → Q (H.connectBytes (H.setHandshakeHandlers f)).2

variable {Q : σ → Prop}

theorem helper_perform (hQ : Lasting E.helper Q) (call : Call) (s : Connection σ)
    (h : Q s.frameHelper) : Q (perform E id call s).frameHelper := by
  cases call with
  | sendRaw type payload => exact hQ.encode type payload _ h
  | on type handler =>
      show Q (on E type handler s).frameHelper
      rw [(untouched_on type handler s).frameHelper]
      exact h
  | _ => exact h

theorem undisturbed_helper (hQ : Lasting E.helper Q) :
    Undisturbed E fun s : Connection σ => Q s.frameHelper where
  kept hk h := hk.frameHelper ▸ h
  invoked _ _ _ h := h
  calls _ _ call _ _ s h := helper_perform hQ call s h

theorem keptByActs_helper (hQ : Lasting E.helper Q) :
    KeptByActs E (fun s : Connection σ => Q s.frameHelper) fun s => Q s.frameHelper where
  __ := undisturbed_helper hQ
  window := undisturbed_helper hQ
  completed _ h := h
  close _ h := h
  closing _ _ h := h
  request _ _ h := hQ.encode _ _ _ h
  closed _ _ h := h
  failed _ _ _ h := h
  ping _ _ h := hQ.encode _ _ _ h

/-- In state `Connected` the frame helper satisfies `Q`. -/
def Behind (Q : σ → Prop) (s : Connection σ) : Prop := s.state = .connected → Q s.frameHelper

theorem behind_perform (hQ : Lasting E.helper Q) (call : Call) (s : Connection σ)
    (h : Behind Q s) : Behind Q (perform E id call s) := by
  intro hstate
  rw [perform_id_state] at hstate
  exact helper_perform hQ call s (h hstate)

theorem undisturbed_behind (hQ : Lasting E.helper Q) : Undisturbed E (Behind Q) where
  kept hk h := by
    intro hstate
    rw [hk.frameHelper]
    exact h (hk.state ▸ hstate)
  invoked _ _ _ h := h
  calls _ _ call _ _ s h := behind_perform hQ call s h

theorem keptByActs_behind (hQ : Lasting E.helper Q) : KeptByActs E (Behind Q) (Behind Q) where
  __ := undisturbed_behind hQ
  window := undisturbed_behind hQ
  completed _ h := h
  close _ h := h
  closing _ _ _ := nofun
  request _ _ h := fun hstate => hQ.encode _ _ _ (h hstate)
  closed _ _ _ := nofun
  failed _ _ _ _ := nofun
  ping _ _ h := fun hstate => hQ.encode _ _ _ (h hstate)

theorem keptBySends_helper (hQ : Lasting E.helper Q) :
    KeptBySends E (fun s : Connection σ => Q s.frameHelper) fun s => Q s.frameHelper where
  __ := keptByActs_helper hQ
  send _ _ _ _ h := hQ.encode _ _ _ h
  helloSent _ h := h

theorem keptBySends_behind (hQ : Lasting E.helper Q) : KeptBySends E (Behind Q) (Behind Q) where
  __ := keptByActs_behind hQ
  send _ _ _ _ h := fun hstate => hQ.encode _ _ _ (h hstate)
  helloSent _ _ := nofun

theorem helper_handleHelloResponse (hQ : Lasting E.helper Q) (v : HelloResponse.Value)
    (h : Q s.frameHelper) : Q (handleHelloResponse E v s).frameHelper := by
  refine (keptByActs_helper hQ).handleHelloResponse v h (fun _ => h) ?_ (fun t ht => ?_)
    fun _ _ ht => ht
  · intro _ t _ _ _ _ _ ht
    exact ht
  · rw [(kept_startKeepalive t).frameHelper]
    exact ht

/-- If `Q` holds whenever the helper has returned a frame, the connection is
`Connected` behind `Q` only. -/
theorem behind_drainTurn (hQ : Lasting E.helper Q)
    (hframe : ∀ f frame, (E.helper.advance f).1 = .ok frame → Q (E.helper.advance f).2)
    (h : Behind Q s) : Behind Q (drainTurn E s).1 := by
  have hs : Behind Q (advanced E s) := fun hstate => hQ.advance _ (h hstate)
  refine (keptBySends_behind hQ).drainTurn hs fun frame v hturn _ _ _ => ?_
  have hadvanced : Q (advanced E s).frameHelper := hframe _ _ (advance_of_turnFrame hturn)
  exact helper_handleHelloResponse hQ v ((keptByActs_helper hQ).invokeRaw frame hadvanced)

theorem behind_step (hQ : Lasting E.helper Q)
    (hframe : ∀ f frame, (E.helper.advance f).1 = .ok frame → Q (E.helper.advance f).2)
    (s : Connection σ) (e : Event) (h : Behind Q s) : Behind Q (step E s e) := by
  have hacts := keptByActs_behind hQ
  refine hacts.step e h ?_ h h ?_ ?_ ?_
  · intro host port onDone _
    exact hacts.start (K := Behind Q) host port onDone h (fun _ _ => nofun) fun t _ ht => ht
  · intro _ _
    exact (keptBySends_behind hQ).onConnectedTransport h
      (fun _ ht hstate => hQ.hooks _ (ht hstate)) fun _ _ ht => ht
  · intro data _ _
    exact drainFrames_of_turns (R := fun s t => Behind Q s → Behind Q t) (fun _ => id)
      (fun h h' => h' ∘ h) (fun t (_ : True) => behind_drainTurn hQ hframe) (fun _ _ => trivial)
      fun hstate => hQ.feed _ _ (h hstate)
  · intro call _ _
    exact behind_perform hQ call s h

theorem helper_drainTurn (hQ : Lasting E.helper Q) (h : Q s.frameHelper) :
    Q (drainTurn E s).1.frameHelper :=
  (keptBySends_helper hQ).drainTurn (hQ.advance _ h) fun _ v _ _ hraw =>
    helper_handleHelloResponse hQ v hraw

/-- What every operation of the helper keeps, every event keeps. -/
theorem helper_step (hQ : Lasting E.helper Q) (s : Connection σ) (e : Event)
    (h : Q s.frameHelper) : Q (step E s e).frameHelper := by
  have hacts := keptByActs_helper hQ
  refine hacts.step e h ?_ h h ?_ ?_ ?_
  · intro host port onDone _
    exact hacts.start (K := fun s : Connection σ => Q s.frameHelper) host port onDone h
      (fun _ ht => ht) fun t _ ht => ht
  · intro _ _
    exact (keptBySends_helper hQ).onConnectedTransport h (fun _ ht => hQ.hooks _ ht)
      fun _ _ ht => ht
  · intro data _ _
    exact drainFrames_of_turns (R := fun s t : Connection σ => Q s.frameHelper → Q t.frameHelper)
      (fun _ => id) (fun h h' => h' ∘ h) (fun t (_ : True) => helper_drainTurn hQ)
      (fun _ _ => trivial) (hQ.feed _ _ h)
  · intro call _ _
    exact helper_perform hQ call s h

end Connection

/-! ## Noise -/

namespace NoiseFrameHelper

open Noise

variable {P : Primitives}

/-- Past the server hello, the server has the name that is expected. -/
def NamedAs (expectedName : CString) (f : NoiseFrameHelper) : Prop :=
  f.expectedName = expectedName ∧
    (f.state = .expectHandshake ∨ f.state = .ready → expectedName ≠ [] →
      f.serverName = expectedName)

theorem namedAs_dispatched {expectedName : CString} {raw : Bytes} {f : NoiseFrameHelper}
    {out : Advance × NoiseFrameHelper} (hcases : Dispatched P raw f out)
    (h : NamedAs expectedName f) : NamedAs expectedName out.2 := by
  obtain ⟨hexpected, hname⟩ := h
  cases hcases with
  | ignored hstate => exact ⟨hexpected, hname⟩
  | reported what t _ _ hsame => exact ⟨hsame.trans hexpected, by simp [reportError]⟩
  | greeted hello _ _ hgreets =>
      exact ⟨hexpected, fun _ hne => hexpected ▸ hgreets (hexpected ▸ hne)⟩
  | accepted message accepted t hstate _ _ _ _ hserver hsame =>
      exact ⟨hsame.trans hexpected, fun _ hne => hserver.trans (hname (Or.inl hstate) hne)⟩
  | threw e decrypt hstate => exact ⟨hexpected, hname⟩
  | returned frame decrypt hstate => exact ⟨hexpected, hname⟩

theorem lasting_namedAs (expectedName : CString) :
    Connection.Lasting (frameHelper P) (NamedAs expectedName) where
  encode _ _ _ h := h
  feed _ _ h := h
  advance f h := by
    show NamedAs expectedName (advance P f).2
    rcases advance_dispatched P f with ⟨out, -, heq⟩ | ⟨raw, out, consumed, hcases, heq⟩
    · rw [heq]
      exact h
    · have hnamed : NamedAs expectedName out.2 := namedAs_dispatched hcases h
      rw [heq]
      exact hnamed
  hooks _ h := h

theorem lasting_ready :
    Connection.Lasting (frameHelper P) (fun f => f.state = .ready) where
  encode _ _ _ h := h
  feed _ _ h := h
  advance f h := by
    rcases advance_cases (P := P) f with ⟨-, hready⟩ | ⟨-, hready, -⟩
    · exact hready.mpr h
    · exact hready
  hooks _ h := h

/-- A frame is returned in state `Ready` only. -/
theorem ready_of_ok {f : NoiseFrameHelper} {frame : Frame} (h : (advance P f).1 = .ok frame) :
    f.state = .ready ∧ (advance P f).2.state = .ready := by
  rcases advance_dispatched P f with ⟨out, hout, heq⟩ | ⟨raw, out, consumed, hcases, heq⟩
  · rw [heq] at h
    rcases hout with rfl | ⟨e, rfl⟩ <;> cases h
  · rw [heq] at h ⊢
    cases hcases with
    | ignored _ => cases h
    | reported what t _ _ _ =>
        simp only [reportError] at h
        split at h <;> cases h
    | greeted hello _ _ _ => cases h
    | accepted message accepted t _ _ _ _ _ _ _ =>
        simp only at h
        split at h <;> cases h
    | threw e decrypt _ => cases h
    | returned frame decrypt hready => exact ⟨hready, hready⟩

theorem namedAs_create {config : NoiseConfig} {random : Octets 32} {f : NoiseFrameHelper}
    (h : create P config random = .ok f) : NamedAs config.expectedName f := by
  unfold create at h
  split at h
  · exact nomatch h
  · split at h
    · cases h
      exact ⟨rfl, by simp⟩
    · exact nomatch h

end NoiseFrameHelper

namespace Connection

open Noise

/-- What a run has heard, in a Noise session: the server has named itself before. -/
def Introduced (expectedName : CString) (heard : List (Greeting NoiseFrameHelper))
    (s : Connection NoiseFrameHelper) : Prop :=
  (∀ h ∈ heard, h.turn.frameHelper.serverName = expectedName) ∧
    NoiseFrameHelper.NamedAs expectedName s.frameHelper

section

variable {P : Primitives} {E : Environment NoiseFrameHelper} {expectedName : CString}
  (hhelper : E.helper = NoiseFrameHelper.frameHelper P) (hexpected : expectedName ≠ [])

include hhelper hexpected

theorem introduced_drainTurn {heard : List (Greeting NoiseFrameHelper)}
    {s : Connection NoiseFrameHelper} (h : Introduced expectedName heard s) :
    Introduced expectedName (heard ++ (greeting E s).toList) (drainTurn E s).1 := by
  refine ⟨fun g hg => ?_, helper_drainTurn (hhelper ▸ NoiseFrameHelper.lasting_namedAs _) h.2⟩
  rcases List.mem_append.mp hg with hold | hnew
  · exact h.1 g hold
  · obtain ⟨hturn, -, frame, hframe⟩ := greeting_eq_some (Option.mem_toList.mp hnew)
    have hok : (NoiseFrameHelper.advance P s.frameHelper).1 = .ok frame := by
      have hadvance := advance_of_turnFrame hframe
      rwa [hhelper] at hadvance
    rw [hturn]
    exact h.2.2 (Or.inr (NoiseFrameHelper.ready_of_ok hok).1) hexpected

theorem introduced_step (g : Greeted NoiseFrameHelper) (e : Event)
    (h : Introduced expectedName g.greetings g.connection) :
    Introduced expectedName (g.step E e).greetings (g.step E e).connection := by
  obtain ⟨s, heard⟩ := g
  have hs : Introduced expectedName heard s := h
  have hlasting : Lasting E.helper (NoiseFrameHelper.NamedAs expectedName) :=
    hhelper ▸ NoiseFrameHelper.lasting_namedAs _
  have hquiet (hnone : greetings E s e = []) :
      Introduced expectedName (heard ++ greetings E s e) (step E s e) := by
    rw [hnone, List.append_nil]
    exact ⟨hs.1, helper_step hlasting s e hs.2⟩
  show Introduced expectedName (heard ++ greetings E s e) (step E s e)
  cases e with
  | bytes data =>
      by_cases hreading : s.transport.reading = true
      · show Introduced expectedName _ (receive E data s)
        rw [receive, if_pos hreading]
        exact onBytes_heard (p := fun _ => True)
          (fun _ _ ht _ => introduced_drainTurn hhelper hexpected ht) hreading
          ⟨hs.1, hlasting.feed _ _ hs.2⟩ fun _ _ => trivial
      · exact hquiet (by simp [greetings, turnsOf, hreading])
  | _ => exact hquiet rfl

end

variable {σ : Type} {E : Environment σ} {options : ConnectionOptions}

/-- What a run has heard, when none of it is negative as an `int`. -/
def Heard (options : ConnectionOptions) (g : Greeted σ) : Prop :=
  Led options g.greetings g.connection ∧ Traced options g.greetings g.connection ∧
    ∀ h ∈ g.greetings, Unsigned options h.value

theorem heard_step (g : Greeted σ) (e : Event) (h : Heard options g) (he : UnsignedEvent E g e) :
    Heard options (g.step E e) := by
  refine ⟨led_step g e h.1 he, traced_step g e h.2.1, fun r hr => ?_⟩
  rcases List.mem_append.mp hr with hold | hnew
  · exact h.2.2 r hold
  · have hunsigned := he r hnew
    rwa [h.1.1] at hunsigned

/-- In every run whose `HelloResponse`s with an accepted name report no version
from 2^31 on, each change of the state to `Connected`, and each such state
between two events, comes from a response with a major version of at most 2 and
an accepted name; and on a Noise connection that expects a name, in every run,
the server hello has given it before the turn that makes the change. -/
theorem version_and_identity_gate (options : ConnectionOptions) (events : List Event) :
    (∀ (σ : Type) (E : Environment σ) (f : σ),
      Guarded (Greeted.step E) (UnsignedEvent E) ⟨create f options, []⟩ events →
        ∀ g ∈ states (Greeted.step E) ⟨create f options, []⟩ events,
          (∀ k, g.connection.log[k]? = some (.state .connected) →
            ∃ h ∈ g.greetings, h.Covers g.connection.log k ∧
              h.value.1.toNat ≤ 2 ∧ NameAccepted options h.value) ∧
          (g.connection.state = .connected → ∃ h ∈ g.greetings, LedBy h.value g.connection)) ∧
    ∀ (P : Primitives) (config : NoiseConfig) (random : Octets 32) (f : NoiseFrameHelper),
      NoiseFrameHelper.create P config random = .ok f → config.expectedName ≠ [] →
        ∀ E : Environment NoiseFrameHelper, E.helper = NoiseFrameHelper.frameHelper P →
          ∀ g ∈ states (Greeted.step E) ⟨create f options, []⟩ events,
            (∀ k, g.connection.log[k]? = some (.state .connected) →
              ∃ h ∈ g.greetings, h.Covers g.connection.log k ∧
                h.turn.frameHelper.serverName = config.expectedName) ∧
            (g.connection.state = .connected →
              g.connection.frameHelper.serverName = config.expectedName) := by
  have hempty {σ : Type} (f : σ) : Traced options [] (create f options) :=
    ⟨rfl, fun k hk => by simp [create] at hk⟩
  refine ⟨?_, ?_⟩
  · intro σ E f hguard g hg
    have hstart : Heard options (⟨create f options, []⟩ : Greeted σ) :=
      ⟨.of_not_connected rfl nofun, hempty f, fun _ hmem => absurd hmem List.not_mem_nil⟩
    obtain ⟨hled, htraced, hunsigned⟩ := states_of_guarded heard_step hstart hguard g hg
    refine ⟨fun k hk => ?_, hled.2⟩
    obtain ⟨h, hh, hcovers, haccepted⟩ := htraced.2 k hk
    exact ⟨h, hh, hcovers, toNat_le_two (hunsigned h hh haccepted.name) haccepted.major,
      haccepted.name⟩
  · intro P config random f hcreate hexpected E hhelper g hg
    have hbehind := behind_step (hhelper ▸ NoiseFrameHelper.lasting_ready)
      (hhelper ▸ fun f frame hok => (NoiseFrameHelper.ready_of_ok hok).2)
    have hdisconnected : Behind (fun f : NoiseFrameHelper => f.state = .ready)
        (create f options) := by
      intro hconnected
      cases hconnected
    have hintroduced : Introduced config.expectedName [] (create f options) :=
      ⟨fun _ hmem => absurd hmem List.not_mem_nil, NoiseFrameHelper.namedAs_create hcreate⟩
    have hall : ∀ g ∈ states (Greeted.step E) ⟨create f options, []⟩ events,
        Introduced config.expectedName g.greetings g.connection ∧
          Traced options g.greetings g.connection ∧
          Behind (fun f : NoiseFrameHelper => f.state = .ready) g.connection :=
      states_invariant (fun g e h => ⟨introduced_step hhelper hexpected g e h.1,
        traced_step g e h.2.1, hbehind _ e h.2.2⟩) ⟨hintroduced, hempty f, hdisconnected⟩ events
    obtain ⟨hintroduced, htraced, hready⟩ := hall g hg
    refine ⟨fun k hk => ?_, fun hstate => ?_⟩
    · obtain ⟨h, hh, hcovers, -⟩ := htraced.2 k hk
      exact ⟨h, hh, hcovers, hintroduced.1 h hh⟩
    · exact hintroduced.2.2 (Or.inr (hready hstate)) hexpected

/-! ## Two responses -/

instance (options : ConnectionOptions) (v : HelloResponse.Value) :
    Decidable (NameAccepted options v) := inferInstanceAs (Decidable (_ → _))

instance (options : ConnectionOptions) (v : HelloResponse.Value) :
    Decidable (Unsigned options v) := inferInstanceAs (Decidable (_ → _))

instance (g : Greeted σ) (e : Event) : Decidable (UnsignedEvent E g e) :=
  inferInstanceAs (Decidable (∀ h ∈ greetings E g.connection e,
    Unsigned g.connection.options h.value))

/-- A session in which the device answers with a major version. -/
def helloSession (major : Bytes) : List Event :=
  [.start (lit "device.local") 6053 7, .connectResult none,
    .bytes ([0x00, UInt8.ofNat (major.length + 1), 0x02, 0x08] ++ major)]

/-- The key of 32 zero bytes, and a device that has to be called `lamp`. -/
def lampConfig : NoiseConfig :=
  { NoiseFrameHelper.zeroConfig with expectedName := lit "lamp" }

/-- A Noise session in which the device gives its name, completes the handshake
and answers with version 1. The toy hash makes the protocol's name the key. -/
def lampSession : List Event :=
  [.start (lit "lamp.local") 6053 7, .connectResult none,
    .bytes (NoiseFrameHelper.wrap (0x01 :: lit "lamp" ++ [0x00])),
    .bytes (NoiseFrameHelper.wrap (0x00 :: 0x01 :: List.replicate 47 0x00)),
    .bytes (NoiseFrameHelper.wrap (aeadEncrypt .toy (Octets.padded 32 protocolName) 0 []
      (NoiseFrameHelper.inner 2 [0x08, 0x01])))]

def lampEnvironment : Environment NoiseFrameHelper :=
  .quiet (NoiseFrameHelper.frameHelper .toy) .core

theorem lampSession_connected {f : NoiseFrameHelper}
    (hf : NoiseFrameHelper.create .toy lampConfig (Octets.zero 32) = .ok f) :
    (run (Greeted.step lampEnvironment) ⟨create f {}, []⟩ lampSession).connection.state =
      .connected := by
  cases hf
  decide +kernel

/-- Version 1 over plaintext, and over a Noise connection to the expected device. -/
theorem version_and_identity_gate_version_one :
    (let g := run (Greeted.step plaintextEnvironment) ⟨create {} {}, []⟩ (helloSession [0x01])
     g.connection.state = .connected ∧ ∃ h ∈ g.greetings, LedBy h.value g.connection) ∧
    ∃ f, NoiseFrameHelper.create .toy lampConfig (Octets.zero 32) = .ok f ∧
      (let g := run (Greeted.step lampEnvironment) ⟨create f {}, []⟩ lampSession
       g.connection.state = .connected ∧
         (∀ k, g.connection.log[k]? = some (.state .connected) →
           ∃ h ∈ g.greetings, h.Covers g.connection.log k ∧
             h.turn.frameHelper.serverName = lit "lamp") ∧
         g.connection.frameHelper.serverName = lit "lamp") := by
  have hconnected : (run (Greeted.step plaintextEnvironment) ⟨create {} {}, []⟩
      (helloSession [0x01])).connection.state = .connected := by decide +kernel
  have hguard : Guarded (Greeted.step plaintextEnvironment) (UnsignedEvent plaintextEnvironment)
      ⟨create {} {}, []⟩ (helloSession [0x01]) := by decide +kernel
  have hplain := (version_and_identity_gate {} (helloSession [0x01])).1 _ plaintextEnvironment {}
    hguard _ (run_mem_states _ _ _)
  obtain ⟨f, hf⟩ : ∃ f, NoiseFrameHelper.create .toy lampConfig (Octets.zero 32) = .ok f :=
    ⟨_, rfl⟩
  have hlamp := lampSession_connected hf
  have hnoise := (version_and_identity_gate {} lampSession).2 .toy lampConfig (Octets.zero 32) f hf
    (by decide) lampEnvironment rfl _ (run_mem_states _ _ _)
  exact ⟨⟨hconnected, hplain.2 hconnected⟩, f, hf, hlamp, hnoise.1, hnoise.2 hlamp⟩

/-- A major version of 2^31: `int` makes it negative, and it is accepted. -/
theorem connected_major_two_pow_31 :
    let g := run (Greeted.step plaintextEnvironment) ⟨create {} {}, []⟩
      (helloSession [0x80, 0x80, 0x80, 0x80, 0x08])
    g.connection.state = .connected ∧ ¬ ∃ h ∈ g.greetings, h.value.1.toNat ≤ 2 := by
  refine ⟨by decide +kernel, ?_⟩
  decide +kernel

end Connection

end EsphomeApi
