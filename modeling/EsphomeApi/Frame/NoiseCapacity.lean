/-
EsphomeApi.Frame.NoiseCapacity — which messages an encrypted frame has room
for.

`encode` writes three numbers into 16 bits each, without looking at them: the
message type, the length of the payload, and the length of the ciphertext,
which has a header of 4 bytes and a tag of 16 around the payload. A peer whose
receive cipher is in step gives the message back and reads nothing of what
follows exactly if all three fit; `recovered_iff` says so for one message and
`delivers_iff` for any number of them, one after another.
-/
import EsphomeApi.Frame.NoiseGate

namespace EsphomeApi.NoiseFrameHelper

open Library Noise

/-! ## The three numbers -/

theorem toNat_u16 (n : Nat) :
    (UInt8.ofNat (n / 256)).toNat * 256 + (UInt8.ofNat n).toNat = n % 2 ^ 16 := by
  rw [UInt8.toNat_ofNat', UInt8.toNat_ofNat']
  omega

theorem inner_eq (type : UInt32) (payload : Bytes) :
    inner type payload = UInt8.ofNat (type.toNat / 256) :: UInt8.ofNat type.toNat ::
      UInt8.ofNat (payload.length / 256) :: UInt8.ofNat payload.length :: payload := by
  simp [inner, appendU16]

/-- The header keeps the low 16 bits of the type and of the length. -/
theorem parseInner_inner (type : UInt32) (payload : Bytes) :
    parseInner (inner type payload) =
      .ok ⟨UInt32.ofNat (type.toNat % 2 ^ 16), payload.take (payload.length % 2 ^ 16)⟩ := by
  have hle : ¬ payload.length < payload.length % 2 ^ 16 := by
    have := Nat.mod_le payload.length (2 ^ 16)
    omega
  simp only [inner_eq, parseInner, toNat_u16]
  rw [if_neg hle]

/-- The ciphertext of a message: header, payload and tag. -/
theorem length_sealed {P : Primitives} {cipher : CipherState} (hkey : cipher.hasKey = true)
    (type : UInt32) (payload : Bytes) :
    (cipher.encryptWithAd P [] (inner type payload)).1.length = payload.length + 20 := by
  unfold CipherState.encryptWithAd
  rw [if_neg (by rw [hkey]; exact nofun)]
  simp only [length_aeadEncrypt, inner_eq, List.length_cons]

/-! ## One message -/

/-- A message that the three numbers have room for. -/
structure Fits (frame : Frame) : Prop where
  type : frame.type.toNat < 2 ^ 16
  payload : frame.payload.length ≤ 65515

/-- A peer in state `Ready` whose receive cipher is the send cipher of `s`,
with no bytes left over. -/
structure InStep (s r : NoiseFrameHelper) : Prop where
  ready : r.state = .ready
  cipher : r.decrypt = s.encrypt
  consumed : r.consumed = r.buffer.length

variable {P : Primitives}

/-- The bytes of a message, and the sender after it. -/
def send (P : Primitives) (s : NoiseFrameHelper) (frame : Frame) : Bytes × NoiseFrameHelper :=
  s.encode P frame.type frame.payload []

/-- What `next` returns when bytes arrive, and the peer after it. -/
def arrive (P : Primitives) (r : NoiseFrameHelper) (bytes : Bytes) : Advance × NoiseFrameHelper :=
  (r.feed bytes).advance P

/-- The peer gives the message back, and is in step with the sender again,
whatever bytes follow. -/
def Recovered (P : Primitives) (s r : NoiseFrameHelper) (frame : Frame) : Prop :=
  ∀ later,
    (arrive P r ((send P s frame).1 ++ later)).1 = .ok frame ∧
    (arrive P r ((send P s frame).1 ++ later)).2.decrypt = (send P s frame).2.encrypt ∧
    (arrive P r ((send P s frame).1 ++ later)).2.unconsumed = later

theorem unconsumed_feed_inStep {s r : NoiseFrameHelper} (h : InStep s r) (bytes : Bytes) :
    (r.feed bytes).unconsumed = bytes := by
  simp [unconsumed, feed, h.consumed]

theorem arrive_eq {s r : NoiseFrameHelper} (h : InStep s r) (bytes : Bytes) :
    arrive P r bytes = match parseRaw bytes with
      | .needMore => (.needMore, r.rebuffer bytes 0)
      | .fail e => (.throws e, r.rebuffer bytes 0)
      | .item raw _ _ =>
          ((handleData P raw r).1, (handleData P raw r).2.rebuffer bytes (3 + raw.length)) := by
  have hfeed : r.feed bytes = r.rebuffer (r.buffer ++ bytes) r.consumed := rfl
  have hdispatch : ∀ raw, dispatch P raw r = handleData P raw r := fun raw => by
    simp only [dispatch, h.ready]
  rw [arrive, advance_eq, unconsumed_feed_inStep h, hfeed]
  cases parseRaw bytes with
  | needMore => rfl
  | fail e => rfl
  | item raw u rest =>
      simp only [dispatch_rebuffer, hdispatch]
      rfl

theorem send_eq (s : NoiseFrameHelper) (frame : Frame) :
    (send P s frame).1 =
      wrap (s.encrypt.encryptWithAd P [] (inner frame.type frame.payload)).1 := rfl

theorem length_send (s : NoiseFrameHelper) (frame : Frame) :
    (send P s frame).1.length =
      3 + (s.encrypt.encryptWithAd P [] (inner frame.type frame.payload)).1.length := by
  rw [send_eq, wrap_eq]
  simp only [List.length_cons]
  omega

/-- The receive cipher opens the ciphertext of a message, and goes on in step. -/
theorem handleData_sealed (hP : P.AeadInverts) {s r : NoiseFrameHelper} (h : InStep s r)
    (frame : Frame) :
    handleData P (s.encrypt.encryptWithAd P [] (inner frame.type frame.payload)).1 r =
      (.ok ⟨UInt32.ofNat (frame.type.toNat % 2 ^ 16),
          frame.payload.take (frame.payload.length % 2 ^ 16)⟩,
        { r with decrypt := (send P s frame).2.encrypt }) := by
  rw [handleData, h.cipher, CipherState.decryptWithAd_encryptWithAd hP]
  simp only [parseInner_inner]
  rfl

/-- A ciphertext with a length of 16 bits arrives whole. -/
theorem arrive_send (hP : P.AeadInverts) {s r : NoiseFrameHelper}
    (hkey : s.encrypt.hasKey = true) (h : InStep s r) {frame : Frame}
    (hpayload : frame.payload.length ≤ 65515) (later : Bytes) :
    arrive P r ((send P s frame).1 ++ later) =
      (.ok ⟨UInt32.ofNat (frame.type.toNat % 2 ^ 16), frame.payload⟩,
        { r with
          decrypt := (send P s frame).2.encrypt
          buffer := (send P s frame).1 ++ later
          consumed := (send P s frame).1.length }) := by
  have hlen := length_sealed (P := P) hkey frame.type frame.payload
  have htake : frame.payload.take (frame.payload.length % 2 ^ 16) = frame.payload :=
    List.take_of_length_le (by omega)
  rw [arrive_eq h, length_send, send_eq, parseRaw_wrap (by omega)]
  simp only [handleData_sealed hP h, htake]
  rfl

/-- A peer in step gives a message back if and only if it fits. -/
theorem recovered_iff (hP : P.AeadInverts) {s r : NoiseFrameHelper}
    (hkey : s.encrypt.hasKey = true) (h : InStep s r) (frame : Frame) :
    Recovered P s r frame ↔ Fits frame := by
  constructor
  · intro hrecovered
    obtain ⟨hframe, -, hrest⟩ := hrecovered []
    rw [List.append_nil] at hframe hrest
    -- Nothing is left over only if the length that was written is the whole length.
    have hwhole :
        (s.encrypt.encryptWithAd P [] (inner frame.type frame.payload)).1.length < 2 ^ 16 := by
      rw [arrive_eq h] at hframe hrest
      cases hparse : parseRaw (send P s frame).1 with
      | needMore => simp [hparse] at hframe
      | fail e => simp [hparse] at hframe
      | item raw u rest =>
          have hraw := (parseRaw_item hparse).2
          simp only [hparse, unconsumed_rebuffer, List.drop_eq_nil_iff, length_send] at hrest
          omega
    rw [length_sealed hkey] at hwhole
    have hpayload : frame.payload.length ≤ 65515 := by omega
    have harrive := arrive_send hP hkey h hpayload []
    rw [List.append_nil] at harrive
    rw [harrive] at hframe
    refine ⟨?_, hpayload⟩
    have htype : UInt32.ofNat (frame.type.toNat % 2 ^ 16) = frame.type := by
      simpa using congrArg Frame.type (Advance.ok.inj hframe)
    have hnat := congrArg UInt32.toNat htype
    rw [UInt32.toNat_ofNat'] at hnat
    omega
  · rintro ⟨htype, hpayload⟩ later
    have hsame : UInt32.ofNat (frame.type.toNat % 2 ^ 16) = frame.type := by
      rw [Nat.mod_eq_of_lt htype, UInt32.ofNat_toNat]
    rw [arrive_send hP hkey h hpayload, hsame]
    refine ⟨rfl, rfl, ?_⟩
    simp [unconsumed]

/-! ## Messages one after another -/

/-- Every one of the messages is recovered, by the peer that the ones before it
left. -/
def Delivers (P : Primitives) : NoiseFrameHelper → NoiseFrameHelper → List Frame → Prop
  | _, _, [] => True
  | s, r, frame :: frames =>
      Recovered P s r frame ∧
        Delivers P (send P s frame).2 (arrive P r (send P s frame).1).2 frames

theorem InStep.next (hP : P.AeadInverts) {s r : NoiseFrameHelper}
    (hkey : s.encrypt.hasKey = true) (h : InStep s r) {frame : Frame} (hfits : Fits frame) :
    InStep (send P s frame).2 (arrive P r (send P s frame).1).2 := by
  have harrive := arrive_send hP hkey h hfits.payload []
  rw [List.append_nil] at harrive
  rw [harrive]
  exact ⟨h.ready, rfl, rfl⟩

theorem delivers_iff (hP : P.AeadInverts) : ∀ (frames : List Frame) {s r : NoiseFrameHelper},
    s.encrypt.hasKey = true → InStep s r → (Delivers P s r frames ↔ ∀ frame ∈ frames, Fits frame)
  | [], _, _, _, _ => by simp [Delivers]
  | frame :: frames, s, r, hkey, h => by
      have hsent : (send P s frame).2.encrypt.hasKey = true :=
        (encode_encrypt frame.type frame.payload [] s).1.trans hkey
      rw [Delivers, recovered_iff hP hkey h, List.forall_mem_cons]
      refine and_congr_right fun hfits => ?_
      exact delivers_iff hP frames hsent (h.next hP hkey hfits)

/-! ## In state `Ready` -/

/-- In state `Ready`, a peer in step gives back the messages that are encoded,
one after another, and reads nothing of what follows each of them, exactly if
every type is below 2^16 and no payload is longer than 65515 bytes. -/
theorem encode_recovered_iff {P : Primitives} (hP : P.AeadInverts) {config : NoiseConfig}
    {random : Octets 32} {s₀ s r : NoiseFrameHelper} (hcreate : create P config random = .ok s₀)
    (calls : List Call) (hs : (run (step P) { helper := s₀ } calls).helper = s)
    (hready : s.state = .ready) (h : InStep s r) (frames : List Frame) :
    Delivers P s r frames ↔
      ∀ frame ∈ frames, frame.type.toNat < 2 ^ 16 ∧ frame.payload.length ≤ 65515 := by
  have hk : Keyed (run (step P) { helper := s₀ } calls) :=
    run_invariant keyed_step (create_keyed hcreate) calls
  subst hs
  rw [delivers_iff hP frames (hk.ready hready).1 h]
  exact forall₂_congr fun frame _ => ⟨fun hfits => ⟨hfits.type, hfits.payload⟩,
    fun hfits => ⟨hfits.1, hfits.2⟩⟩

/-- A helper after its handshake. -/
def afterHandshake (s : NoiseFrameHelper) : NoiseFrameHelper :=
  (run (step .toy) { helper := s } handshakeCalls).helper

/-- A peer in step with it. -/
def peerOf (s : NoiseFrameHelper) : NoiseFrameHelper :=
  { s with decrypt := s.encrypt, buffer := [], consumed := 0 }

theorem afterHandshake_eq (s : NoiseFrameHelper) :
    (run (step .toy) { helper := s } handshakeCalls).helper = afterHandshake s := rfl

theorem afterHandshake_ready {s : NoiseFrameHelper}
    (hs : create .toy zeroConfig (Octets.zero 32) = .ok s) : (afterHandshake s).state = .ready :=
  handshakeCalls_ready hs

theorem inStep_peerOf {s : NoiseFrameHelper} (h : s.state = .ready) : InStep s (peerOf s) :=
  ⟨h, rfl, rfl⟩

theorem encode_recovered_iff_two :
    ∃ s, create .toy zeroConfig (Octets.zero 32) = .ok s ∧
      Delivers .toy (afterHandshake s) (peerOf (afterHandshake s))
        [⟨33, [1, 2, 3]⟩, ⟨65535, []⟩] := by
  obtain ⟨s, hs⟩ : ∃ s, create .toy zeroConfig (Octets.zero 32) = .ok s := ⟨_, rfl⟩
  have hready := afterHandshake_ready hs
  exact ⟨s, hs, (encode_recovered_iff Primitives.toy_aeadInverts hs handshakeCalls
    (afterHandshake_eq s) hready (inStep_peerOf hready) [⟨33, [1, 2, 3]⟩, ⟨65535, []⟩]).mpr
      (by decide)⟩

/-- A type of 17 bits arrives as another one, and a payload of 65516 bytes does
not arrive. -/
theorem encode_not_recovered :
    ∃ s, create .toy zeroConfig (Octets.zero 32) = .ok s ∧
      (afterHandshake s).state = .ready ∧
      InStep (afterHandshake s) (peerOf (afterHandshake s)) ∧
      (arrive .toy (peerOf (afterHandshake s)) (send .toy (afterHandshake s) ⟨65543, [1]⟩).1).1 =
        .ok ⟨7, [1]⟩ ∧
      ¬ Recovered .toy (afterHandshake s) (peerOf (afterHandshake s)) ⟨65543, [1]⟩ ∧
      ¬ Recovered .toy (afterHandshake s) (peerOf (afterHandshake s))
        ⟨7, List.replicate 65516 0⟩ := by
  obtain ⟨s, hs⟩ : ∃ s, create .toy zeroConfig (Octets.zero 32) = .ok s := ⟨_, rfl⟩
  have hready := afterHandshake_ready hs
  have hpeer := inStep_peerOf hready
  have hkey : (afterHandshake s).encrypt.hasKey = true := by
    have hk : Keyed (run (step .toy) { helper := s } handshakeCalls) :=
      run_invariant keyed_step (create_keyed hs) handshakeCalls
    exact (hk.ready hready).1
  have hiff := recovered_iff Primitives.toy_aeadInverts hkey hpeer
  refine ⟨s, hs, hready, hpeer, ?_, ?_, ?_⟩
  · have hshort : (Frame.mk 65543 [1]).payload.length ≤ 65515 := by decide
    have harrive := arrive_send Primitives.toy_aeadInverts hkey hpeer hshort []
    rw [List.append_nil] at harrive
    rw [harrive]
    rfl
  · intro h
    exact absurd ((hiff _).mp h).type (by decide)
  · intro h
    have hlong := ((hiff _).mp h).payload
    rw [List.length_replicate] at hlong
    omega

end EsphomeApi.NoiseFrameHelper
