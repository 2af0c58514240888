/-
EsphomeApi.Frame.NoiseGate — what a peer has to send before a Noise helper
calls `on_ready`, and what the helper shows before and after.

`Gate` is the invariant: by the state of the helper it says what the trace
looks like and which raw frames have been taken off the bytes fed so far. The
calls may come in any order, so every chunking is covered, and so are calls
after an exception.
-/
import EsphomeApi.Frame.NoiseReassembly

namespace EsphomeApi.NoiseFrameHelper

open Library Noise

/-! ## Traces -/

/-- Nothing but exceptions. -/
def Quiet (os : List Occurrence) : Prop := ∀ o ∈ os, ∃ e, o = .thrown e

/-- Nothing but frames and exceptions. -/
def Serving (os : List Occurrence) : Prop :=
  ∀ o ∈ os, (∃ frame, o = .frame frame) ∨ ∃ e, o = .thrown e

/-- What has been observed of a helper in some state. -/
def Shape (state : NoiseState) (trace : List Occurrence) : Prop :=
  match state with
  | .expectServerHello => Quiet trace
  | .expectHandshake => Quiet trace
  | .ready => ∃ pre post, trace = pre ++ .ready :: post ∧ Quiet pre ∧ Serving post
  | .failed => ∃ pre what post, trace = pre ++ .failed what :: post ∧ Quiet pre ∧ Quiet post

/-- `on_ready` and `on_error`. -/
def Occurrence.callback : Occurrence → Bool
  | .ready => true
  | .failed _ => true
  | _ => false

theorem Quiet.append {os os' : List Occurrence} (h : Quiet os) (h' : Quiet os') :
    Quiet (os ++ os') := by
  intro o ho
  exact (List.mem_append.mp ho).elim (h o) (h' o)

theorem Serving.append {os os' : List Occurrence} (h : Serving os) (h' : Serving os') :
    Serving (os ++ os') := by
  intro o ho
  exact (List.mem_append.mp ho).elim (h o) (h' o)

theorem quiet_nil : Quiet [] := by
  intro o ho
  simp at ho

theorem quiet_thrown (e : ApiException) : Quiet [.thrown e] := by
  intro o ho
  exact ⟨e, by simpa using ho⟩

theorem Quiet.serving {os : List Occurrence} (h : Quiet os) : Serving os := by
  intro o ho
  exact Or.inr (h o ho)

theorem Serving.countP {os : List Occurrence} (h : Serving os) :
    os.countP Occurrence.callback = 0 := by
  rw [List.countP_eq_zero]
  intro o ho
  rcases h o ho with ⟨frame, rfl⟩ | ⟨e, rfl⟩ <;> simp [Occurrence.callback]

/-- An exception changes no shape. -/
theorem Shape.thrown {state : NoiseState} {trace : List Occurrence} (h : Shape state trace)
    (e : ApiException) : Shape state (trace ++ [.thrown e]) := by
  cases state with
  | expectServerHello => exact Quiet.append h (quiet_thrown e)
  | expectHandshake => exact Quiet.append h (quiet_thrown e)
  | ready =>
      obtain ⟨pre, post, rfl, hpre, hpost⟩ := h
      exact ⟨pre, post ++ [.thrown e], by simp, hpre, hpost.append (quiet_thrown e).serving⟩
  | failed =>
      obtain ⟨pre, what, post, rfl, hpre, hpost⟩ := h
      exact ⟨pre, what, post ++ [.thrown e], by simp, hpre, hpost.append (quiet_thrown e)⟩

/-- One callback at most. -/
theorem Shape.callbacks {state : NoiseState} {trace : List Occurrence} (h : Shape state trace) :
    trace.countP Occurrence.callback ≤ 1 := by
  cases state with
  | expectServerHello => simp [Serving.countP (Quiet.serving h)]
  | expectHandshake => simp [Serving.countP (Quiet.serving h)]
  | ready =>
      obtain ⟨pre, post, rfl, hpre, hpost⟩ := h
      simp [List.countP_cons, hpre.serving.countP, hpost.countP, Occurrence.callback]
  | failed =>
      obtain ⟨pre, what, post, rfl, hpre, hpost⟩ := h
      simp [List.countP_cons, hpre.serving.countP, hpost.serving.countP, Occurrence.callback]

/-- A list cut at two elements: the cuts are the same, or one is on a side of
the other. -/
theorem cut_cases {α : Type} {pre post pre' post' : List α} {a b : α}
    (h : pre ++ a :: post = pre' ++ b :: post') :
    (pre = pre' ∧ a = b ∧ post = post') ∨ (a ∈ pre' ∧ b ∈ post) ∨ (b ∈ pre ∧ a ∈ post') := by
  rcases List.append_eq_append_iff.mp h with ⟨mid, rfl, hmid⟩ | ⟨mid, rfl, hmid⟩
  · cases mid with
    | nil =>
        obtain ⟨rfl, rfl⟩ := List.cons.inj hmid
        simp
    | cons c mid =>
        obtain ⟨rfl, rfl⟩ := List.cons.inj hmid
        simp
  · cases mid with
    | nil =>
        obtain ⟨rfl, rfl⟩ := List.cons.inj hmid
        simp
    | cons c mid =>
        obtain ⟨rfl, rfl⟩ := List.cons.inj hmid
        simp

theorem Shape.frame {state : NoiseState} {trace pre post : List Occurrence} {frame : Frame}
    (h : Shape state trace) (htrace : trace = pre ++ .frame frame :: post) : .ready ∈ pre := by
  have hquiet : ∀ {os : List Occurrence}, Quiet os → Occurrence.frame frame ∉ os := by
    intro os hos hmem
    obtain ⟨e, he⟩ := hos _ hmem
    cases he
  have hmem : Occurrence.frame frame ∈ trace := by simp [htrace]
  cases state with
  | expectServerHello => exact absurd hmem (hquiet h)
  | expectHandshake => exact absurd hmem (hquiet h)
  | ready =>
      obtain ⟨pre', post', hcut, hpre, -⟩ := h
      rcases cut_cases (hcut.symm.trans htrace) with ⟨-, heq, -⟩ | ⟨hready, -⟩ | ⟨hframe, -⟩
      · cases heq
      · exact hready
      · exact absurd hframe (hquiet hpre)
  | failed =>
      obtain ⟨pre', what, post', hcut, hpre, hpost⟩ := h
      rw [hcut, List.mem_append, List.mem_cons] at hmem
      rcases hmem with hmem | hmem | hmem
      · exact absurd hmem (hquiet hpre)
      · cases hmem
      · exact absurd hmem (hquiet hpost)

theorem Shape.failed {state : NoiseState} {trace pre post : List Occurrence}
    {what : Option CString} (h : Shape state trace)
    (htrace : trace = pre ++ .failed what :: post) : Quiet post := by
  have hserving : ∀ {os : List Occurrence}, Serving os → Occurrence.failed what ∉ os := by
    intro os hos hmem
    rcases hos _ hmem with ⟨frame, heq⟩ | ⟨e, heq⟩ <;> cases heq
  have hmem : Occurrence.failed what ∈ trace := by simp [htrace]
  cases state with
  | expectServerHello => exact absurd hmem (hserving (Quiet.serving h))
  | expectHandshake => exact absurd hmem (hserving (Quiet.serving h))
  | ready =>
      obtain ⟨pre', post', hcut, hpre, hpost⟩ := h
      rw [hcut, List.mem_append, List.mem_cons] at hmem
      rcases hmem with hmem | hmem | hmem
      · exact absurd hmem (hserving hpre.serving)
      · cases hmem
      · exact absurd hmem (hserving hpost)
  | failed =>
      obtain ⟨pre', what', post', hcut, hpre, hpost⟩ := h
      rcases cut_cases (hcut.symm.trans htrace) with ⟨-, -, rfl⟩ | ⟨-, hin⟩ | ⟨hin, -⟩
      · exact hpost
      · exact absurd hin (hserving hpost.serving)
      · exact absurd hin (hserving hpre.serving)

/-! ## Sequences of calls -/

/-- A helper, the bytes fed to it and what has been observed. -/
structure Observation where
  helper : NoiseFrameHelper
  fed : Bytes := []
  trace : List Occurrence := []

variable (P : Primitives)

def observe (o : Observation) : Call → Observation
  | .connectBytes => { o with helper := (o.helper.connectBytes P).2 }
  | .setHandshakeHandlers => { o with helper := o.helper.setHandshakeHandlers }
  | .feed data => { o with helper := o.helper.feed data, fed := o.fed ++ data }
  | .advance =>
      let out := o.helper.advance P
      { o with helper := out.2, trace := o.trace ++ observed out.1 out.2.state }
  | .encode msgType payload out =>
      { o with helper := (o.helper.encode P msgType payload out).2 }

/-- A server hello that names the device expected, if one is. -/
def Greets (expectedName : CString) (hello : Bytes) : Prop :=
  expectedName ≠ [] → hello.takeWhile (· ≠ 0x00) = expectedName

/-- The first raw frame is a server hello, and a handshake message that the
helper's handshake accepts is the second. -/
def Authenticated (expectedName : CString) (o : Observation) : Prop :=
  ∃ hello message rest, o.fed = wrap (0x01 :: hello) ++ (wrap (0x00 :: message) ++ rest) ∧
    Greets expectedName hello ∧ (o.helper.handshake.readMessage P message).1 ≠ none

/-- The raw frames taken so far, by the state. -/
def Taken (expectedName : CString) (o : Observation) : Prop :=
  match o.helper.state with
  | .expectServerHello => o.fed = o.helper.unconsumed
  | .expectHandshake =>
      ∃ hello, Greets expectedName hello ∧ o.fed = wrap (0x01 :: hello) ++ o.helper.unconsumed
  | _ => True

structure Gate (expectedName : CString) (o : Observation) : Prop where
  handlers : o.helper.handlers = true
  name : o.helper.expectedName = expectedName
  consumed : o.helper.consumed ≤ o.helper.buffer.length
  shape : Shape o.helper.state o.trace
  taken : Taken expectedName o

variable {P}

theorem Fresh.gate {s : NoiseFrameHelper} (h : Fresh s) (hhandlers : s.handlers = true) :
    Gate s.expectedName { helper := s } := by
  refine ⟨hhandlers, rfl, by simp [h.consumed], ?_, ?_⟩
  · rw [h.state]
    exact quiet_nil
  · simp [Taken, h.state, unconsumed, h.buffer]

theorem Gate.feed {expectedName : CString} {o : Observation} (h : Gate expectedName o)
    (data : Bytes) : Gate expectedName (observe P o (.feed data)) := by
  have hfed : (o.helper.feed data).unconsumed = o.helper.unconsumed ++ data :=
    List.drop_append_of_le_length h.consumed
  have htaken := h.taken
  refine ⟨h.handlers, h.name, ?_, h.shape, ?_⟩
  · have hle := h.consumed
    simp only [observe, NoiseFrameHelper.feed, List.length_append]
    omega
  · unfold Taken at htaken ⊢
    simp only [observe, hfed]
    cases hstate : o.helper.state with
    | expectServerHello => simpa [NoiseFrameHelper.feed, hstate] using htaken
    | expectHandshake =>
        simp only [hstate] at htaken
        obtain ⟨hello, hgreets, heq⟩ := htaken
        simp only [NoiseFrameHelper.feed, hstate]
        exact ⟨hello, hgreets, by simp [heq]⟩
    | ready => simp [NoiseFrameHelper.feed, hstate]
    | failed => simp [NoiseFrameHelper.feed, hstate]

/-- What is observed of a raw frame, and which raw frames have been taken then. -/
theorem Gate.takes {expectedName : CString} {o : Observation} (h : Gate expectedName o)
    {raw rest : Bytes} (hx : o.helper.unconsumed = wrap raw ++ rest) :
    let out := dispatch P raw o.helper
    out.2.handlers = true ∧ out.2.expectedName = expectedName ∧
      Shape out.2.state (o.trace ++ observed out.1 out.2.state) ∧
      (out.2.state = .expectHandshake →
        ∃ hello, Greets expectedName hello ∧ o.fed = wrap (0x01 :: hello) ++ rest) ∧
      out.2.state ≠ .expectServerHello := by
  have hshape := h.shape
  have htaken := h.taken
  have hcases := dispatched P raw o.helper
  generalize dispatch P raw o.helper = out at hcases ⊢
  cases hcases with
  | ignored hstate =>
      refine ⟨h.handlers, h.name, ?_, by simp [hstate], by simp [hstate]⟩
      simpa [observed] using hshape
  | reported what t hstate hhandlers hexpected =>
      have hquiet : Quiet o.trace := by
        rcases hstate with hs | hs <;> simpa [Shape, hs] using hshape
      refine ⟨hhandlers.trans h.handlers, hexpected.trans h.name, ?_, by simp [reportError],
        by simp [reportError]⟩
      rw [observed_reportError]
      exact ⟨o.trace, _, [], rfl, hquiet, quiet_nil⟩
  | greeted hello hstate hraw hname =>
      simp only [Taken, hstate] at htaken
      refine ⟨h.handlers, h.name, ?_, ?_, by simp⟩
      · simpa [observed, Shape, hstate] using hshape
      · intro _
        exact ⟨hello, h.name ▸ hname, by rw [htaken, hx, hraw]⟩
  | accepted message accepted t hstate _ _ hready hhandlers _ hexpected =>
      refine ⟨hhandlers.trans h.handlers, hexpected.trans h.name, ?_, by simp [hready],
        by simp [hready]⟩
      have hquiet : Quiet o.trace := by simpa [Shape, hstate] using hshape
      simp only [hready, h.handlers, if_true, observed]
      exact ⟨o.trace, [], rfl, hquiet, quiet_nil.serving⟩
  | threw e decrypt hstate =>
      refine ⟨h.handlers, h.name, ?_, by simp [hstate], by simp [hstate]⟩
      exact hshape.thrown e
  | returned frame decrypt hstate =>
      refine ⟨h.handlers, h.name, ?_, by simp [hstate], by simp [hstate]⟩
      rw [hstate] at hshape
      obtain ⟨pre, post, htrace, hpre, hpost⟩ := hshape
      simp only [hstate, observed]
      refine ⟨pre, post ++ [.frame frame], by simp [htrace], hpre, hpost.append ?_⟩
      intro x hx
      exact Or.inl ⟨frame, by simpa using hx⟩

/-- Nothing but the buffer is moved. -/
theorem Gate.rebuffered {expectedName : CString} {o : Observation} (h : Gate expectedName o)
    {trace : List Occurrence} (hshape : Shape o.helper.state trace) :
    Gate expectedName
      ⟨o.helper.rebuffer o.helper.unconsumed 0, o.fed, trace⟩ := by
  have hsame : (o.helper.rebuffer o.helper.unconsumed 0).unconsumed = o.helper.unconsumed := rfl
  refine ⟨h.handlers, h.name, Nat.zero_le _, hshape, ?_⟩
  have htaken := h.taken
  unfold Taken at htaken ⊢
  rw [hsame]
  exact htaken

theorem Gate.advance {expectedName : CString} {o : Observation} (h : Gate expectedName o) :
    Gate expectedName (observe P o .advance) := by
  have hadvance := advance_eq P o.helper
  cases hparse : parseRaw o.helper.unconsumed with
  | needMore =>
      rw [hparse] at hadvance
      simp only [observe, hadvance]
      exact h.rebuffered (by simpa [observed] using h.shape)
  | fail e =>
      rw [hparse] at hadvance
      simp only [observe, hadvance]
      exact h.rebuffered (h.shape.thrown e)
  | item raw u rest =>
      obtain ⟨hx, -⟩ := parseRaw_item hparse
      obtain ⟨hhandlers, hname, hshape, hgreeted, hmoved⟩ := h.takes (P := P) hx
      have hdrop : o.helper.unconsumed.drop (3 + raw.length) = rest := by
        rw [hx, wrap_eq, Nat.add_comm]
        simp
      rw [hparse] at hadvance
      simp only [observe, hadvance]
      refine ⟨hhandlers, hname, ?_, hshape, ?_⟩
      · rw [hx, wrap_eq]
        simp only [rebuffer, List.cons_append, List.length_cons, List.length_append]
        omega
      · unfold Taken
        simp only [unconsumed_rebuffer, hdrop]
        change match (dispatch P raw o.helper).2.state with
          | .expectServerHello => o.fed = rest
          | .expectHandshake => ∃ hello, Greets expectedName hello ∧
              o.fed = wrap (0x01 :: hello) ++ rest
          | _ => True
        cases hstate : (dispatch P raw o.helper).2.state with
        | expectServerHello => exact absurd hstate hmoved
        | expectHandshake => exact hgreeted hstate
        | ready => trivial
        | failed => trivial

theorem Gate.step {expectedName : CString} (o : Observation) (call : Call)
    (h : Gate expectedName o) : Gate expectedName (observe P o call) := by
  cases call with
  | connectBytes => exact ⟨h.handlers, h.name, h.consumed, h.shape, h.taken⟩
  | setHandshakeHandlers => exact ⟨rfl, h.name, h.consumed, h.shape, h.taken⟩
  | feed data => exact h.feed data
  | advance => exact h.advance
  | encode msgType payload out => exact ⟨h.handlers, h.name, h.consumed, h.shape, h.taken⟩

/-- `on_ready` is called in the second raw frame, after the peer has named
itself as expected and proved that it knows the key. -/
theorem Gate.authenticated {expectedName : CString} {o : Observation} (h : Gate expectedName o)
    (hready : (o.helper.advance P).1 = .ready) : Authenticated P expectedName o := by
  have htaken := h.taken
  rw [advance_eq] at hready
  cases hparse : parseRaw o.helper.unconsumed with
  | needMore =>
      rw [hparse] at hready
      cases hready
  | fail e =>
      rw [hparse] at hready
      cases hready
  | item raw u rest =>
      obtain ⟨hx, -⟩ := parseRaw_item hparse
      rw [hparse] at hready
      simp only at hready
      have hcases := dispatched P raw o.helper
      generalize dispatch P raw o.helper = out at hready hcases
      cases hcases with
      | ignored _ => cases hready
      | reported what t _ _ _ =>
          simp only [reportError] at hready
          split at hready <;> cases hready
      | greeted hello _ _ _ => cases hready
      | accepted message accepted t hstate hraw hread _ _ _ _ =>
          simp only [Taken, hstate] at htaken
          obtain ⟨hello, hgreets, hfed⟩ := htaken
          exact ⟨hello, message, rest, by rw [hfed, hx, hraw], hgreets, by simp [hread]⟩
      | threw e decrypt _ => cases hready
      | returned frame decrypt _ => cases hready

/-- Over every sequence of calls to a fresh helper with callbacks installed:
one callback at most; frames after `on_ready` only; after `on_error` nothing
but exceptions; and `on_ready` only behind an authenticated handshake. -/
theorem handshake_gate {s : NoiseFrameHelper} (hfresh : Fresh s) (hhandlers : s.handlers = true)
    (calls : List Call) :
    let trace := (run (observe P) { helper := s } calls).trace
    trace.countP Occurrence.callback ≤ 1 ∧
      (∀ pre frame post, trace = pre ++ .frame frame :: post → .ready ∈ pre) ∧
      (∀ pre what post, trace = pre ++ .failed what :: post → ∀ o ∈ post, ∃ e, o = .thrown e) ∧
      ∀ pre post, calls = pre ++ .advance :: post →
        ((run (observe P) { helper := s } pre).helper.advance P).1 = .ready →
          Authenticated P s.expectedName (run (observe P) { helper := s } pre) := by
  have hgate : ∀ calls, Gate s.expectedName (run (observe P) { helper := s } calls) :=
    run_invariant Gate.step (hfresh.gate hhandlers)
  have hshape := (hgate calls).shape
  refine ⟨hshape.callbacks, ?_, ?_, ?_⟩
  · intro pre frame post htrace
    exact hshape.frame htrace
  · intro pre what post htrace
    exact hshape.failed htrace
  · intro pre post _ hready
    exact (hgate pre).authenticated hready

theorem handshake_gate_handshakeCalls :
    ∃ s, create .toy zeroConfig (Octets.zero 32) = .ok s ∧
      (let start : Observation := { helper := s.setHandshakeHandlers }
       let trace := (run (observe .toy) start handshakeCalls).trace
       trace.countP Occurrence.callback ≤ 1 ∧
         (∀ pre frame post, trace = pre ++ .frame frame :: post → .ready ∈ pre) ∧
         (∀ pre what post, trace = pre ++ .failed what :: post →
           ∀ o ∈ post, ∃ e, o = .thrown e) ∧
         ∀ pre post, handshakeCalls = pre ++ .advance :: post →
           ((run (observe .toy) start pre).helper.advance .toy).1 = .ready →
             Authenticated .toy s.expectedName (run (observe .toy) start pre)) := by
  obtain ⟨s, hs⟩ : ∃ s, create .toy zeroConfig (Octets.zero 32) = .ok s := ⟨_, rfl⟩
  exact ⟨s, hs, handshake_gate (fresh_create hs).setHandshakeHandlers rfl handshakeCalls⟩

example : ∃ s, create .toy zeroConfig (Octets.zero 32) = .ok s ∧
    (run (observe .toy) { helper := s.setHandshakeHandlers } handshakeCalls).trace = [.ready] := by
  refine ⟨_, rfl, ?_⟩
  decide

end EsphomeApi.NoiseFrameHelper
