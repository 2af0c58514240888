/-
EsphomeApi.Crypto.SessionAgreement — an initiator and a responder that
exchange the two handshake messages agree, and their transport ciphers carry
every interleaving of messages.

How the proof goes. Both sides run one `SymmetricState` over one transcript,
so the handshake is a simulation: before the first message the two symmetric
states are equal (`Paired`), and each message keeps them equal, the reader's
`decryptAndHash` undoing the writer's `encryptAndHash` on the same state.
After `split` each direction is one cipher state that the sender has advanced
past the messages in flight (`Linked`).
-/
import EsphomeApi.Crypto.NoiseHandshake
import EsphomeApi.Library.GuardedRun

namespace EsphomeApi.Noise

open Library

namespace NoiseHandshake

variable {P : Primitives}

/-! ## The two messages -/

theorem writeMessage_initiator {hs : NoiseHandshake} (hrole : hs.role = .initiator)
    (payload : Bytes) :
    writeMessage P payload hs = (.ok (writePskE P payload hs).1, (writePskE P payload hs).2) := by
  unfold writeMessage
  rw [hrole]

theorem writeMessage_responder {hs : NoiseHandshake} (hrole : hs.role = .responder)
    (payload : Bytes) : writeMessage P payload hs = writeEEe P payload hs := by
  unfold writeMessage
  rw [hrole]

/-- A message of a full key and some more is split where it was put together. -/
theorem readMessage_append (key : PublicKey) (rest : Bytes) (hs : NoiseHandshake) :
    readMessage P (key.val ++ rest) hs =
      match readTokens P rest { hs with remoteEphemeral := key } with
      | (.error _, hs) => (none, hs)
      | (.ok payload, hs) => (some payload, hs) := by
  have hkey : key.val.length = keyLen := key.property
  have hlen : ¬ (key.val ++ rest).length < keyLen := by
    rw [List.length_append, hkey]
    exact Nat.not_lt.mpr (Nat.le_add_right ..)
  have htake : (key.val ++ rest).take keyLen = key.val := by rw [← hkey, List.take_left]
  have hdrop : (key.val ++ rest).drop keyLen = rest := by rw [← hkey, List.drop_left]
  have hread : ∀ stored : PublicKey, stored = key →
      (match readTokens P ((key.val ++ rest).drop keyLen) { hs with remoteEphemeral := stored } with
        | (.error _, hs) => (none, hs)
        | (.ok payload, hs) => (some payload, hs)) =
      match readTokens P rest { hs with remoteEphemeral := key } with
        | (.error _, hs) => (none, hs)
        | (.ok payload, hs) => (some payload, hs) := by
    intro stored hstored
    rw [hstored, hdrop]
  exact (dif_neg hlen).trans (hread _ (Subtype.ext htake))

theorem ensureEphemeral_fresh {hs : NoiseHandshake} (hfresh : hs.haveEphemeral = false) :
    ensureEphemeral P hs =
      { hs with
        ephemeralPrivate := hs.random
        ephemeralPublic := x25519Base P hs.random
        haveEphemeral := true } := by
  unfold ensureEphemeral
  rw [if_pos hfresh]
  rfl

/-- The transcript after the tokens `psk, e`. -/
def afterPskE (P : Primitives) (psk : SymmetricKey) (e : PublicKey) (s : SymmetricState) :
    SymmetricState :=
  ((s.mixKeyAndHash P psk.val).mixHash P e.val).mixKey P e.val

/-- The transcript after the tokens `e, ee`. -/
def afterEEe (P : Primitives) (e : PublicKey) (dh : SymmetricKey) (s : SymmetricState) :
    SymmetricState :=
  ((s.mixHash P e.val).mixKey P e.val).mixKey P dh.val

theorem writePskE_fresh {hs : NoiseHandshake} (hfresh : hs.haveEphemeral = false)
    {e : PublicKey} (he : e = x25519Base P hs.random) {payload ct : Bytes}
    {symmetric : SymmetricState}
    (hout : (afterPskE P hs.psk e hs.symmetric).encryptAndHash P payload = (ct, symmetric)) :
    writePskE P payload hs =
      (e.val ++ ct,
        { hs with
          symmetric := symmetric
          ephemeralPrivate := hs.random
          ephemeralPublic := e
          haveEphemeral := true }) := by
  subst he
  unfold afterPskE at hout
  simp only [writePskE, ensureEphemeral_fresh, hfresh, hout]

theorem readTokens_responder (hs : NoiseHandshake) (hrole : hs.role = .responder)
    {rest payload : Bytes} {symmetric : SymmetricState}
    (hout : (afterPskE P hs.psk hs.remoteEphemeral hs.symmetric).decryptAndHash P rest =
      (.ok payload, symmetric)) :
    readTokens P rest hs = (.ok payload, { hs with symmetric := symmetric }) := by
  unfold afterPskE at hout
  simp only [readTokens, hrole, hout]

theorem writeEEe_fresh {hs : NoiseHandshake} (hfresh : hs.haveEphemeral = false)
    {e : PublicKey} (he : e = x25519Base P hs.random)
    {dh : SymmetricKey} (hdh : x25519 P hs.random hs.remoteEphemeral = .ok dh) {payload ct : Bytes}
    {symmetric : SymmetricState}
    (hout : (afterEEe P e dh hs.symmetric).encryptAndHash P payload = (ct, symmetric)) :
    writeEEe P payload hs =
      (.ok (e.val ++ ct),
        { hs with
          symmetric := symmetric
          ephemeralPrivate := hs.random
          ephemeralPublic := e
          haveEphemeral := true
          complete := true }) := by
  subst he
  unfold afterEEe at hout
  simp only [writeEEe, ensureEphemeral_fresh hfresh, hdh, hout]

theorem readTokens_initiator (hs : NoiseHandshake) (hrole : hs.role = .initiator)
    {dh : SymmetricKey} (hdh : x25519 P hs.ephemeralPrivate hs.remoteEphemeral = .ok dh)
    {rest payload : Bytes} {symmetric : SymmetricState}
    (hout : (afterEEe P hs.remoteEphemeral dh hs.symmetric).decryptAndHash P rest =
      (.ok payload, symmetric)) :
    readTokens P rest hs = (.ok payload, { hs with symmetric := symmetric, complete := true }) := by
  unfold afterEEe at hout
  simp only [readTokens, hrole, hdh, hout]

/-- The two sides before the first message: opposite roles, one pre-shared key
and one transcript, no ephemeral key yet. -/
structure Paired (i r : NoiseHandshake) : Prop where
  initiator : i.role = .initiator
  responder : r.role = .responder
  psk : i.psk = r.psk
  symmetric : i.symmetric = r.symmetric
  freshInitiator : i.haveEphemeral = false
  freshResponder : r.haveEphemeral = false

theorem paired_initialized (psk : SymmetricKey) (prologue : Bytes) (i r : NoiseHandshake) :
    Paired (initialized P .initiator psk prologue i) (initialized P .responder psk prologue r) :=
  ⟨rfl, rfl, rfl, rfl, rfl, rfl⟩

/-- The two sides between the messages: still one transcript, and the responder
holds the initiator's public key. -/
structure HalfWay (P : Primitives) (i r : NoiseHandshake) (a b : PrivateKey) : Prop where
  initiator : i.role = .initiator
  responder : r.role = .responder
  symmetric : i.symmetric = r.symmetric
  ephemeral : i.ephemeralPrivate = a
  remote : r.remoteEphemeral = x25519Base P a
  freshResponder : r.haveEphemeral = false
  random : r.random = b

/-- `-> psk, e`: the responder accepts what the initiator writes, and both
reach one transcript. -/
theorem Paired.first_message {i r : NoiseHandshake} (h : Paired i r) (hP : P.AeadInverts)
    (payload : Bytes) :
    ∃ message i' r', writeMessage P payload i = (.ok message, i') ∧
      readMessage P message r = (some payload, r') ∧ HalfWay P i' r' i.random r.random := by
  obtain ⟨ct, symmetric, hout⟩ : ∃ ct symmetric,
      (afterPskE P i.psk (x25519Base P i.random) i.symmetric).encryptAndHash P payload =
        (ct, symmetric) := ⟨_, _, rfl⟩
  have hback := SymmetricState.decryptAndHash_encryptAndHash hP payload
    (afterPskE P i.psk (x25519Base P i.random) i.symmetric)
  rw [hout, h.psk, h.symmetric] at hback
  have hwrite := writeMessage_initiator (P := P) h.initiator payload
  rw [writePskE_fresh h.freshInitiator rfl hout] at hwrite
  have hread := readMessage_append (P := P) (x25519Base P i.random) ct r
  rw [readTokens_responder { r with remoteEphemeral := x25519Base P i.random } h.responder hback]
    at hread
  exact ⟨_, _, _, hwrite, hread,
    ⟨h.initiator, h.responder, rfl, rfl, rfl, h.freshResponder, rfl⟩⟩

/-- The two sides after the handshake. -/
structure Finished (i r : NoiseHandshake) : Prop where
  initiator : i.role = .initiator
  responder : r.role = .responder
  symmetric : i.symmetric = r.symmetric
  completeInitiator : i.complete = true
  completeResponder : r.complete = true

/-- `<- e, ee`: the initiator accepts what the responder writes, and both
reach one transcript again. -/
theorem HalfWay.second_message {i r : NoiseHandshake} {a b : PrivateKey}
    (h : HalfWay P i r a b) (hP : P.AeadInverts) (hab : P.Agree a b) (payload : Bytes) :
    ∃ message i' r', writeMessage P payload r = (.ok message, r') ∧
      readMessage P message i = (some payload, i') ∧ Finished i' r' := by
  obtain ⟨dh, hdhInitiator, hdhResponder⟩ : ∃ dh,
      x25519 P a (x25519Base P b) = .ok dh ∧ x25519 P b (x25519Base P a) = .ok dh :=
    ⟨_, hab.x25519_eq, hab.commute ▸ hab.symm.x25519_eq⟩
  obtain ⟨ct, symmetric, hout⟩ : ∃ ct symmetric,
      (afterEEe P (x25519Base P b) dh r.symmetric).encryptAndHash P payload =
        (ct, symmetric) := ⟨_, _, rfl⟩
  have hback := SymmetricState.decryptAndHash_encryptAndHash hP payload
    (afterEEe P (x25519Base P b) dh r.symmetric)
  rw [hout, ← h.symmetric] at hback
  rw [← h.random, ← h.remote] at hdhResponder
  rw [← h.ephemeral] at hdhInitiator
  have hwrite := writeMessage_responder (P := P) h.responder payload
  rw [writeEEe_fresh h.freshResponder (congrArg (x25519Base P) h.random.symm) hdhResponder hout]
    at hwrite
  have hread := readMessage_append (P := P) (x25519Base P b) ct i
  rw [readTokens_initiator { i with remoteEphemeral := x25519Base P b } h.initiator hdhInitiator
    hback] at hread
  exact ⟨_, _, _, hwrite, hread, ⟨h.initiator, h.responder, rfl, rfl, rfl⟩⟩

/-- The ciphers of the two sides: what one sends with, the other receives
with, keyed and at nonce 0. -/
theorem Finished.split {i r : NoiseHandshake} (h : Finished i r) :
    (NoiseHandshake.split P i).1 = (NoiseHandshake.split P r).2 ∧
      (NoiseHandshake.split P i).2 = (NoiseHandshake.split P r).1 := by
  unfold NoiseHandshake.split
  simp only [h.initiator, h.responder, h.symmetric, and_self]

theorem nonce_split (hs : NoiseHandshake) :
    (NoiseHandshake.split P hs).1.nonce = 0 ∧ (NoiseHandshake.split P hs).2.nonce = 0 := by
  unfold NoiseHandshake.split
  cases hs.role <;> exact ⟨rfl, rfl⟩

end NoiseHandshake

/-! ## Traffic -/

def Role.peer : Role → Role
  | .initiator => .responder
  | .responder => .initiator

theorem Role.peer_peer (side : Role) : side.peer.peer = side := by
  cases side <;> rfl

theorem Role.eq_or_eq_peer (side other : Role) : other = side ∨ other = side.peer := by
  cases side <;> cases other <;> decide

/-- One side of an established session: its ciphers, the messages on their way
to it (associated data and ciphertext), the plaintexts it has sent, and what
each of its calls to `decrypt_with_ad` came to. -/
structure Endpoint where
  send : CipherState
  recv : CipherState
  inbox : List (Bytes × Bytes) := []
  sent : List Bytes := []
  received : List (Except ApiException Bytes) := []

abbrev Session := Role → Endpoint

inductive Session.Action where
  /-- `side` encrypts a message and puts it on the wire. -/
  | send (side : Role) (ad plaintext : Bytes)
  /-- `side` decrypts the next message on its way to it, if there is one. -/
  | receive (side : Role)

namespace Session

variable (P : Primitives)

def step (s : Session) : Action → Session
  | .send side ad plaintext =>
      let (ciphertext, cipher) := (s side).send.encryptWithAd P ad plaintext
      fun other =>
        if other = side then { s side with send := cipher, sent := (s side).sent ++ [plaintext] }
        else { s other with inbox := (s other).inbox ++ [(ad, ciphertext)] }
  | .receive side =>
      match (s side).inbox with
      | [] => s
      | (ad, ciphertext) :: inbox =>
          let (out, cipher) := (s side).recv.decryptWithAd P ad ciphertext
          Function.update s side { s side with
            recv := cipher
            inbox := inbox
            received := (s side).received ++ [out] }

/-- The session that two sides start with the ciphers of their `split`. -/
def established (i r : NoiseHandshake) : Session
  | .initiator => { send := (NoiseHandshake.split P i).1, recv := (NoiseHandshake.split P i).2 }
  | .responder => { send := (NoiseHandshake.split P r).1, recv := (NoiseHandshake.split P r).2 }

/-- Encrypting a list of messages, one after another. -/
def sealAll : CipherState → List (Bytes × Bytes) → List (Bytes × Bytes) × CipherState
  | cipher, [] => ([], cipher)
  | cipher, (ad, plaintext) :: messages =>
      let (ciphertext, cipher) := cipher.encryptWithAd P ad plaintext
      let (wire, cipher) := sealAll cipher messages
      ((ad, ciphertext) :: wire, cipher)

variable {P}

theorem sealAll_append_single (ad plaintext : Bytes) :
    ∀ (cipher : CipherState) (messages : List (Bytes × Bytes)),
      sealAll P cipher (messages ++ [(ad, plaintext)]) =
        ((sealAll P cipher messages).1 ++
            [(ad, ((sealAll P cipher messages).2.encryptWithAd P ad plaintext).1)],
          ((sealAll P cipher messages).2.encryptWithAd P ad plaintext).2)
  | _, [] => rfl
  | cipher, (ad', plaintext') :: messages => by
      simp only [List.cons_append, sealAll, sealAll_append_single ad plaintext _ messages]

/-- One direction: the receiver's inbox is the pending messages sealed under
its own cipher, which the sender has advanced past them; every message before
those was decrypted to what was sent. -/
def Linked (P : Primitives) (sender receiver : Endpoint) : Prop :=
  ∃ (done : List Bytes) (pending : List (Bytes × Bytes)),
    sender.sent = done ++ pending.map Prod.snd ∧ receiver.received = done.map .ok ∧
      sealAll P receiver.recv pending = (receiver.inbox, sender.send)

theorem linked_send {sender receiver : Endpoint} (h : Linked P sender receiver)
    (ad plaintext : Bytes) :
    Linked P
      { sender with
        send := (sender.send.encryptWithAd P ad plaintext).2
        sent := sender.sent ++ [plaintext] }
      { receiver with
        inbox := receiver.inbox ++ [(ad, (sender.send.encryptWithAd P ad plaintext).1)] } := by
  obtain ⟨done, pending, hsent, hreceived, hseal⟩ := h
  refine ⟨done, pending ++ [(ad, plaintext)], ?_, hreceived, ?_⟩
  · simp only [hsent, List.map_append, List.map_cons, List.map_nil, List.append_assoc]
  · simp only [sealAll_append_single, hseal]

theorem linked_receive {sender receiver : Endpoint} (h : Linked P sender receiver)
    (hP : P.AeadInverts) {ad ciphertext : Bytes} {inbox : List (Bytes × Bytes)}
    (hinbox : receiver.inbox = (ad, ciphertext) :: inbox) :
    Linked P sender
      { receiver with
        recv := (receiver.recv.decryptWithAd P ad ciphertext).2
        inbox := inbox
        received := receiver.received ++ [(receiver.recv.decryptWithAd P ad ciphertext).1] } := by
  obtain ⟨done, pending, hsent, hreceived, hseal⟩ := h
  rw [hinbox] at hseal
  cases pending with
  | nil =>
      rw [sealAll, Prod.mk.injEq] at hseal
      exact nomatch hseal.1
  | cons message pending =>
      obtain ⟨ad', plaintext⟩ := message
      simp only [sealAll, Prod.mk.injEq, List.cons.injEq] at hseal
      obtain ⟨⟨⟨rfl, rfl⟩, hwire⟩, hcipher⟩ := hseal
      rw [CipherState.decryptWithAd_encryptWithAd hP]
      refine ⟨done ++ [plaintext], pending, ?_, ?_, ?_⟩
      · simp only [hsent, List.map_cons, List.append_assoc, List.cons_append, List.nil_append]
      · simp only [hreceived, List.map_append, List.map_cons, List.map_nil]
      · exact Prod.ext hwire hcipher

/-- Both directions are in order. -/
def InStep (P : Primitives) (s : Session) : Prop :=
  ∀ side : Role, Linked P (s side) (s side.peer)

theorem step_send_self (s : Session) (side : Role) (ad plaintext : Bytes) :
    step P s (.send side ad plaintext) side =
      { s side with
        send := ((s side).send.encryptWithAd P ad plaintext).2
        sent := (s side).sent ++ [plaintext] } :=
  if_pos rfl

theorem step_send_peer (s : Session) (side : Role) (ad plaintext : Bytes) :
    step P s (.send side ad plaintext) side.peer =
      { s side.peer with
        inbox := (s side.peer).inbox ++
          [(ad, ((s side).send.encryptWithAd P ad plaintext).1)] } :=
  if_neg (by cases side <;> decide)

theorem step_receive_self {s : Session} {side : Role} {ad ciphertext : Bytes}
    {inbox : List (Bytes × Bytes)} (hinbox : (s side).inbox = (ad, ciphertext) :: inbox) :
    step P s (.receive side) side =
      { s side with
        recv := ((s side).recv.decryptWithAd P ad ciphertext).2
        inbox := inbox
        received := (s side).received ++ [((s side).recv.decryptWithAd P ad ciphertext).1] } := by
  simp only [step, hinbox, Function.update_self]

theorem step_receive_peer (s : Session) (side : Role) :
    step P s (.receive side) side.peer = s side.peer := by
  have hne : side.peer ≠ side := by cases side <;> decide
  cases hinbox : (s side).inbox with
  | nil => simp only [step, hinbox]
  | cons message inbox => simp only [step, hinbox, Function.update_of_ne hne]

/-- A direction only reads the receiving half of the receiver. -/
theorem Linked.congr {sender sender' receiver receiver' : Endpoint}
    (h : Linked P sender receiver) (hsent : sender'.sent = sender.sent)
    (hsend : sender'.send = sender.send) (hrecv : receiver'.recv = receiver.recv)
    (hinbox : receiver'.inbox = receiver.inbox)
    (hreceived : receiver'.received = receiver.received) : Linked P sender' receiver' := by
  unfold Linked
  rw [hsent, hsend, hrecv, hinbox, hreceived]
  exact h

/-- The direction towards `side`. -/
theorem InStep.back {s : Session} (h : InStep P s) (side : Role) :
    Linked P (s side.peer) (s side) := by
  have hpeer := h side.peer
  rwa [Role.peer_peer] at hpeer

theorem inStep_step (hP : P.AeadInverts) (s : Session) (action : Action) (h : InStep P s) :
    InStep P (step P s action) := by
  intro side
  cases action with
  | send sender ad plaintext =>
      rcases Role.eq_or_eq_peer sender side with rfl | rfl
      · rw [step_send_self, step_send_peer]
        exact linked_send (h side) ad plaintext
      · -- the other direction: the sender only advances what it sends with
        rw [step_send_peer, Role.peer_peer, step_send_self]
        exact (h.back sender).congr rfl rfl rfl rfl rfl
  | receive receiver =>
      cases hinbox : (s receiver).inbox with
      | nil =>
          have hsame : step P s (.receive receiver) = s := by simp only [step, hinbox]
          rw [hsame]
          exact h side
      | cons message inbox =>
          rcases Role.eq_or_eq_peer receiver side with rfl | rfl
          · rw [step_receive_peer, step_receive_self hinbox]
            exact (h side).congr rfl rfl rfl rfl rfl
          · rw [step_receive_peer, Role.peer_peer, step_receive_self hinbox]
            exact linked_receive (h.back receiver) hP hinbox

theorem inStep_established {i r : NoiseHandshake} (h : NoiseHandshake.Finished i r) :
    InStep P (established P i r) := by
  obtain ⟨hsend, hrecv⟩ := h.split (P := P)
  intro side
  cases side with
  | initiator => exact ⟨[], [], rfl, rfl, Prod.ext rfl hsend.symm⟩
  | responder => exact ⟨[], [], rfl, rfl, Prod.ext rfl hrecv⟩

theorem length_sealAll : ∀ (cipher : CipherState) (messages : List (Bytes × Bytes)),
    (sealAll P cipher messages).1.length = messages.length
  | _, [] => rfl
  | _, _ :: messages => congrArg (· + 1) (length_sealAll _ messages)

/-- What the receiver decrypted is what the sender encrypted, in order, as far
as the messages have arrived. -/
theorem Linked.received {sender receiver : Endpoint} (h : Linked P sender receiver) :
    receiver.received <+: sender.sent.map .ok ∧
      receiver.received.length + receiver.inbox.length = sender.sent.length := by
  obtain ⟨done, pending, hsent, hreceived, hseal⟩ := h
  rw [hsent, hreceived, List.map_append]
  refine ⟨List.prefix_append _ _, ?_⟩
  have hlen := length_sealAll (P := P) receiver.recv pending
  rw [hseal] at hlen
  rw [hlen, List.length_map, List.length_append, List.length_map]

end Session

/-- Two sides with one pre-shared key and one prologue, whose ephemeral keys
agree: both messages are accepted with their payloads, the handshakes end with
one hash and with matching ciphers at nonce 0, and afterwards, in every
interleaving of sending and receiving, each side has decrypted exactly the
first messages that the other encrypted, all of them once none is on its way. -/
theorem session_agreement {P : Primitives} (hP : P.AeadInverts) (psk : SymmetricKey)
    (prologue : Bytes) (i r : NoiseHandshake) (hkeys : P.Agree i.random r.random)
    (payload1 payload2 : Bytes) :
    ∃ message1 message2 i1 r1 i2 r2,
      NoiseHandshake.writeMessage P payload1 (i.initialized P .initiator psk prologue) =
          (.ok message1, i1) ∧
        NoiseHandshake.readMessage P message1 (r.initialized P .responder psk prologue) =
          (some payload1, r1) ∧
        NoiseHandshake.writeMessage P payload2 r1 = (.ok message2, r2) ∧
        NoiseHandshake.readMessage P message2 i1 = (some payload2, i2) ∧
        i2.complete = true ∧ r2.complete = true ∧
        i2.handshakeHash = r2.handshakeHash ∧
        (i2.split P).1 = (r2.split P).2 ∧ (i2.split P).2 = (r2.split P).1 ∧
        (i2.split P).1.nonce = 0 ∧ (i2.split P).2.nonce = 0 ∧
        ∀ (actions : List Session.Action) (side : Role),
          let s := run (Session.step P) (Session.established P i2 r2) actions
          (s side.peer).received <+: (s side).sent.map .ok ∧
            (s side.peer).received.length + (s side.peer).inbox.length =
              (s side).sent.length := by
  have hpaired := NoiseHandshake.paired_initialized (P := P) psk prologue i r
  obtain ⟨message1, i1, r1, hwrite1, hread1, hhalf⟩ := hpaired.first_message hP payload1
  obtain ⟨message2, i2, r2, hwrite2, hread2, hdone⟩ := hhalf.second_message hP hkeys payload2
  obtain ⟨hsend, hrecv⟩ := hdone.split (P := P)
  obtain ⟨hnonce1, hnonce2⟩ := NoiseHandshake.nonce_split (P := P) i2
  refine ⟨message1, message2, i1, r1, i2, r2, hwrite1, hread1, hwrite2, hread2,
    hdone.completeInitiator, hdone.completeResponder, congrArg SymmetricState.h hdone.symmetric,
    hsend, hrecv, hnonce1, hnonce2, ?_⟩
  intro actions side
  have hrun : Session.InStep P (run (Session.step P) (Session.established P i2 r2) actions) :=
    run_invariant (Session.inStep_step hP) (Session.inStep_established hdone) actions
  exact (hrun side).received

/-- Two toy sides with ephemeral keys 1 and 2. -/
theorem session_agreement_toy :
    ∃ message1 message2 i1 r1 i2 r2,
      NoiseHandshake.writeMessage .toy [7]
          (NoiseHandshake.initialized .toy .initiator (Octets.padded 32 [5]) (lit "NoiseAPIInit")
            { random := Octets.padded 32 [1] }) = (.ok message1, i1) ∧
        NoiseHandshake.readMessage .toy message1
          (NoiseHandshake.initialized .toy .responder (Octets.padded 32 [5]) (lit "NoiseAPIInit")
            { random := Octets.padded 32 [2] }) = (some [7], r1) ∧
        NoiseHandshake.writeMessage .toy [8, 9] r1 = (.ok message2, r2) ∧
        NoiseHandshake.readMessage .toy message2 i1 = (some [8, 9], i2) := by
  have hkeys : Primitives.toy.Agree (Octets.padded 32 [1]) (Octets.padded 32 [2]) :=
    ⟨by decide, by decide⟩
  obtain ⟨message1, message2, i1, r1, i2, r2, h1, h2, h3, h4, -⟩ :=
    session_agreement Primitives.toy_aeadInverts (Octets.padded 32 [5]) (lit "NoiseAPIInit")
      { random := Octets.padded 32 [1] } { random := Octets.padded 32 [2] } hkeys [7] [8, 9]
  exact ⟨message1, message2, i1, r1, i2, r2, h1, h2, h3, h4⟩

end EsphomeApi.Noise
