/-
EsphomeApi.Frame.NoiseTheorems — what `encode` of the Noise helper emits, over
every sequence of calls.

One iteration of `next` either leaves the send cipher and the readiness of the
helper as they are, or completes the handshake (`advance_cases`); no other call
touches either. So the send cipher has a key exactly while the state is
`ready`, and that key is the one the completed handshake gave (`Keyed`). What
is encoded in any other state passes through the cipher as it is.
-/
import EsphomeApi.Frame.Noise
import EsphomeApi.Library.GuardedRun

namespace EsphomeApi

open Library Noise

namespace NoiseFrameHelper

variable {P : Primitives}

/-! ## What one iteration does -/

@[simp] theorem compact_encrypt (s : NoiseFrameHelper) : s.compact.encrypt = s.encrypt := by
  unfold compact
  split
  · rfl
  · split <;> rfl

@[simp] theorem compact_state (s : NoiseFrameHelper) : s.compact.state = s.state := by
  unfold compact
  split
  · rfl
  · split <;> rfl

theorem nextRaw_frame (s : NoiseFrameHelper) :
    s.nextRaw.2.encrypt = s.encrypt ∧ s.nextRaw.2.state = s.state := by
  rw [← compact_encrypt s, ← compact_state s]
  unfold nextRaw
  simp only
  split
  · split
    · split <;> exact ⟨rfl, rfl⟩
    · split
      · exact ⟨rfl, rfl⟩
      · split <;> exact ⟨rfl, rfl⟩
  · exact ⟨rfl, rfl⟩

theorem handleServerHello_frame (payload : Bytes) (s : NoiseFrameHelper) :
    (handleServerHello payload s).2.encrypt = s.encrypt ∧
      (handleServerHello payload s).2.state ≠ .ready := by
  unfold handleServerHello
  split
  · exact ⟨rfl, nofun⟩
  · split
    · exact ⟨rfl, nofun⟩
    · simp only
      split <;> exact ⟨rfl, nofun⟩

/-- `handle_server_handshake` fails, or takes both ciphers from the handshake
it has just completed. -/
theorem handleServerHandshake_cases (payload : Bytes) (s : NoiseFrameHelper) :
    ((handleServerHandshake P payload s).2.encrypt = s.encrypt ∧
        (handleServerHandshake P payload s).2.state = .failed) ∨
      ((handleServerHandshake P payload s).2.encrypt =
          ((handleServerHandshake P payload s).2.handshake.split P).1 ∧
        (handleServerHandshake P payload s).2.state = .ready ∧
        (handleServerHandshake P payload s).2.handshake.complete = true) := by
  unfold handleServerHandshake
  split
  · exact Or.inl ⟨rfl, rfl⟩
  · split
    · exact Or.inl ⟨rfl, rfl⟩
    · simp only
      split
      · exact Or.inl ⟨rfl, rfl⟩
      · rename_i hread
        obtain ⟨out, hout⟩ := Option.ne_none_iff_exists'.mp hread
        exact Or.inr ⟨rfl, rfl, NoiseHandshake.readMessage_complete s.isInitiator hout⟩

theorem handleData_frame (raw : Bytes) (s : NoiseFrameHelper) :
    (handleData P raw s).2.encrypt = s.encrypt ∧ (handleData P raw s).2.state = s.state := by
  unfold handleData
  split <;> exact ⟨rfl, rfl⟩

/-- One iteration leaves the send cipher and the readiness alone, or it
completes the handshake. -/
theorem advance_cases (s : NoiseFrameHelper) :
    ((advance P s).2.encrypt = s.encrypt ∧ ((advance P s).2.state = .ready ↔ s.state = .ready)) ∨
      (s.state = .expectHandshake ∧ (advance P s).2.state = .ready ∧
        (advance P s).2.encrypt = ((advance P s).2.handshake.split P).1 ∧
        (advance P s).2.handshake.complete = true) := by
  obtain ⟨hencrypt, hstate⟩ := nextRaw_frame s
  unfold advance
  rcases hraw : s.nextRaw with ⟨out, t⟩
  rw [hraw] at hencrypt hstate
  simp only at hencrypt hstate
  rw [← hencrypt, ← hstate]
  cases out with
  | error e => exact Or.inl ⟨rfl, Iff.rfl⟩
  | ok raw =>
      cases raw with
      | none => exact Or.inl ⟨rfl, Iff.rfl⟩
      | some raw =>
          simp only
          cases hcase : t.state with
          | expectServerHello =>
              obtain ⟨h1, h2⟩ := handleServerHello_frame raw t
              exact Or.inl ⟨h1, iff_of_false h2 nofun⟩
          | expectHandshake =>
              rcases handleServerHandshake_cases raw t with ⟨h1, h2⟩ | ⟨h1, h2, h3⟩
              · exact Or.inl ⟨h1, iff_of_false (fun h => nomatch h2.symm.trans h) nofun⟩
              · exact Or.inr ⟨rfl, h2, h1, h3⟩
          | failed =>
              exact Or.inl ⟨rfl, iff_of_false (fun h => nomatch hcase.symm.trans h) nofun⟩
          | ready =>
              obtain ⟨h1, h2⟩ := handleData_frame raw t
              exact Or.inl ⟨h1, iff_of_true (h2.trans hcase) rfl⟩

/-! ## Sequences of calls -/

/-- The calls of a `NoiseFrameHelper`. `advance` is one iteration of the loop
of `next`: a call of `next` is a run of those, and what a callback calls stands
between two of them. -/
inductive Call where
  | connectBytes
  | setHandshakeHandlers
  | feed (data : Bytes)
  | advance
  | encode (msgType : UInt32) (payload out : Bytes)

/-- A helper together with the send keys of the handshakes it has completed. -/
structure History where
  helper : NoiseFrameHelper
  sendKeys : List SymmetricKey := []

/-- Whether an iteration completes the handshake. -/
def completes (s s' : NoiseFrameHelper) : Bool :=
  s.state = .expectHandshake && s'.state = .ready && s'.handshake.complete

def step (P : Primitives) (h : History) : Call → History
  | .connectBytes => { h with helper := (h.helper.connectBytes P).2 }
  | .setHandshakeHandlers => { h with helper := h.helper.setHandshakeHandlers }
  | .feed data => { h with helper := h.helper.feed data }
  | .advance =>
      let s' := (h.helper.advance P).2
      { helper := s'
        sendKeys := if completes h.helper s' then h.sendKeys ++ [(s'.handshake.split P).1.key]
          else h.sendKeys }
  | .encode msgType payload out =>
      { h with helper := (h.helper.encode P msgType payload out).2 }

/-- What `encode` appended to `out` is a frame around the AEAD ciphertext of the
message under a send key of a completed handshake. -/
def Sealed (P : Primitives) (h : History) (msgType : UInt32) (payload out : Bytes) : Prop :=
  ∃ key ∈ h.sendKeys, ∃ nonce, (h.helper.encode P msgType payload out).1 =
    out ++ wrap (aeadEncrypt P key nonce [] (inner msgType payload))

/-- The send cipher has a key exactly in state `ready`, the key of a completed
handshake. -/
structure Keyed (h : History) : Prop where
  ready : h.helper.state = .ready →
    h.helper.encrypt.hasKey = true ∧ h.helper.encrypt.key ∈ h.sendKeys
  notReady : h.helper.state ≠ .ready → h.helper.encrypt.hasKey = false ∧ h.sendKeys = []

theorem split_hasKey (hs : NoiseHandshake) : (hs.split P).1.hasKey = true := by
  unfold NoiseHandshake.split
  cases hs.role <;> rfl

theorem encode_encrypt (msgType : UInt32) (payload out : Bytes) (s : NoiseFrameHelper) :
    (encode P msgType payload out s).2.encrypt.hasKey = s.encrypt.hasKey ∧
      (encode P msgType payload out s).2.encrypt.key = s.encrypt.key := by
  by_cases hkey : s.encrypt.hasKey = false
  · simp only [encode, CipherState.encryptWithAd, if_pos hkey, and_self]
  · simp only [encode, CipherState.encryptWithAd, if_neg hkey]
    exact ⟨rfl, rfl⟩

theorem keyed_step (h : History) (call : Call) (hk : Keyed h) : Keyed (step P h call) := by
  cases call with
  | connectBytes => exact ⟨hk.ready, hk.notReady⟩
  | setHandshakeHandlers => exact ⟨hk.ready, hk.notReady⟩
  | feed data => exact ⟨hk.ready, hk.notReady⟩
  | encode msgType payload out =>
      obtain ⟨hhas, hkey⟩ := encode_encrypt msgType payload out h.helper
      refine ⟨?_, ?_⟩
      · intro hready
        rw [step, hhas, hkey]
        exact hk.ready hready
      · intro hready
        rw [step, hhas]
        exact hk.notReady hready
  | advance =>
      rcases advance_cases h.helper with ⟨hsame, hiff⟩ | ⟨hfrom, hto, hsplit, hcomplete⟩
      · have hnot : completes h.helper (h.helper.advance P).2 = false := by
          unfold completes
          by_cases hexpect : h.helper.state = .expectHandshake
          · have hnr : (h.helper.advance P).2.state ≠ .ready := by
              rw [Ne, hiff, hexpect]
              exact nofun
            simp only [hnr, decide_false, Bool.and_false, Bool.false_and]
          · simp only [hexpect, decide_false, Bool.false_and]
        refine ⟨?_, ?_⟩
        · intro hready
          simp only [step, hnot, hsame, Bool.false_eq_true, if_false]
          exact hk.ready (hiff.mp hready)
        · intro hready
          simp only [step, hnot, hsame, Bool.false_eq_true, if_false]
          exact hk.notReady (fun h' => hready (hiff.mpr h'))
      · have hyes : completes h.helper (h.helper.advance P).2 = true := by
          simp only [completes, hfrom, hto, hcomplete, decide_true, Bool.and_self]
        refine ⟨?_, fun hready => absurd hto hready⟩
        intro _
        simp only [step, hyes, if_true, hsplit, split_hasKey, true_and]
        exact List.mem_append_right _ (List.mem_singleton.mpr rfl)

/-- Without a key, `encode` emits the inner plaintext in the clear. -/
theorem encode_in_clear {s : NoiseFrameHelper} (hkey : s.encrypt.hasKey = false)
    (msgType : UInt32) (payload out : Bytes) :
    encode P msgType payload out s = (out ++ wrap (inner msgType payload), s) := by
  simp only [encode, CipherState.encryptWithAd, if_pos hkey]

theorem encode_keyed {s : NoiseFrameHelper} (hkey : s.encrypt.hasKey = true)
    (msgType : UInt32) (payload out : Bytes) :
    (encode P msgType payload out s).1 =
      out ++ wrap (aeadEncrypt P s.encrypt.key s.encrypt.nonce [] (inner msgType payload)) := by
  simp only [encode, CipherState.encryptWithAd, hkey, Bool.true_eq_false, if_false]

theorem create_keyed {config : NoiseConfig} {random : Octets 32} {s : NoiseFrameHelper}
    (h : create P config random = .ok s) : Keyed { helper := s } := by
  unfold create at h
  split at h
  · exact nomatch h
  · split at h
    · cases h
      exact ⟨nofun, fun _ => ⟨rfl, rfl⟩⟩
    · exact nomatch h

theorem sealed_iff_ready {h : History} (hk : Keyed h) (msgType : UInt32) (payload out : Bytes) :
    Sealed P h msgType payload out ↔ h.helper.state = .ready := by
  constructor
  · rintro ⟨key, hmem, -⟩
    by_contra hready
    rw [(hk.notReady hready).2] at hmem
    exact nomatch hmem
  · intro hready
    obtain ⟨hhas, hmem⟩ := hk.ready hready
    exact ⟨_, hmem, _, encode_keyed hhas msgType payload out⟩

/-- Over every sequence of calls to a new helper: each frame that `encode`
appends is sealed under the send key of a completed handshake, and never the
inner plaintext in the clear before that, exactly if `encode` is called in
state `Ready` only. -/
theorem encode_sealed_iff {config : NoiseConfig} {random : Octets 32} {s : NoiseFrameHelper}
    (hcreate : create P config random = .ok s) (calls : List Call) :
    (∀ pre msgType payload out post, calls = pre ++ .encode msgType payload out :: post →
        Sealed P (run (step P) { helper := s } pre) msgType payload out) ↔
      ∀ pre msgType payload out post, calls = pre ++ .encode msgType payload out :: post →
        (run (step P) { helper := s } pre).helper.state = .ready := by
  have hk : ∀ pre, Keyed (run (step P) { helper := s } pre) :=
    run_invariant keyed_step (create_keyed hcreate)
  constructor
  · intro h pre msgType payload out post hcalls
    exact (sealed_iff_ready (hk pre) msgType payload out).mp (h pre msgType payload out post hcalls)
  · intro h pre msgType payload out post hcalls
    exact (sealed_iff_ready (hk pre) msgType payload out).mpr
      (h pre msgType payload out post hcalls)

/-- A pre-shared key of 32 zero bytes. -/
def zeroConfig : NoiseConfig where
  pskBase64 := lit "AAAAAAAAAAAAAAAAAAAAAAAAAAAAAAAAAAAAAAAAAAA="

/-- A server hello, a handshake message and one call too many. -/
def handshakeCalls : List Call :=
  [.connectBytes, .feed (wrap [0x01, 0x00]), .advance,
    .feed (wrap (0x00 :: 0x01 :: List.replicate 47 0x00)), .advance, .advance]

theorem handshakeCalls_ready {s : NoiseFrameHelper}
    (hs : create .toy zeroConfig (Octets.zero 32) = .ok s) :
    (run (step .toy) { helper := s } handshakeCalls).helper.state = .ready := by
  cases hs
  decide

/-- A message encoded once the handshake is complete. -/
theorem encode_sealed_iff_zeroConfig :
    ∃ s, create .toy zeroConfig (Octets.zero 32) = .ok s ∧
      Sealed .toy (run (step .toy) { helper := s } handshakeCalls) 33 [1, 2, 3] [] := by
  obtain ⟨s, hs⟩ : ∃ s, create .toy zeroConfig (Octets.zero 32) = .ok s := ⟨_, rfl⟩
  have hready := handshakeCalls_ready hs
  refine ⟨s, hs, (encode_sealed_iff hs (handshakeCalls ++ [.encode 33 [1, 2, 3] []])).mpr ?_
    handshakeCalls 33 [1, 2, 3] [] [] rfl⟩
  intro pre msgType payload out post hcalls
  rcases List.append_eq_append_iff.mp hcalls with ⟨more, hpre, hlast⟩ | ⟨more, hall, hlast⟩
  · cases more with
    | nil => rwa [hpre, List.append_nil]
    | cons call more => simp at hlast
  · cases more with
    | nil => rwa [← List.append_nil pre, ← hall]
    | cons call more =>
        obtain ⟨rfl, -⟩ := List.cons.inj hlast
        have hmem : Call.encode msgType payload out ∈ handshakeCalls := by simp [hall]
        simp [handshakeCalls] at hmem

/-- A message encoded before the handshake goes out in the clear. -/
theorem encode_before_handshake :
    ∃ s, create .toy zeroConfig (Octets.zero 32) = .ok s ∧
      (s.encode .toy 33 [1, 2, 3] []).1 = wrap (inner 33 [1, 2, 3]) ∧
      ¬ ∀ pre msgType payload out post,
        [.encode 33 [1, 2, 3] []] = pre ++ Call.encode msgType payload out :: post →
          Sealed .toy (run (step .toy) { helper := s } pre) msgType payload out := by
  obtain ⟨s, hs⟩ : ∃ s, create .toy zeroConfig (Octets.zero 32) = .ok s := ⟨_, rfl⟩
  have hk := create_keyed hs
  have hready : s.state ≠ .ready := by
    cases hs
    exact nofun
  refine ⟨s, hs, ?_, ?_⟩
  · rw [encode_in_clear (hk.notReady hready).1]
    rfl
  · intro h
    exact hready ((sealed_iff_ready hk 33 [1, 2, 3] []).mp (h [] 33 [1, 2, 3] [] [] rfl))

end NoiseFrameHelper

end EsphomeApi
