/-
EsphomeApi.Crypto.NoiseHandshake — `NoiseHandshake`: the two messages of
Noise_NNpsk0_25519_ChaChaPoly_SHA256, for both roles.

The bytes that the system's random generator will return for an ephemeral key
are a field of the state, `random`. A generator that fails, which makes
`generate_keypair` throw, is outside of the model.
-/
import EsphomeApi.Crypto.SymmetricState

namespace EsphomeApi.Noise

/-- `protocol_name`. -/
def protocolName : CString := lit "Noise_NNpsk0_25519_ChaChaPoly_SHA256"

inductive Role where
  | initiator
  | responder
  deriving DecidableEq, Repr

structure NoiseHandshake where
  random : Octets 32
  role : Role := .initiator
  psk : SymmetricKey := Octets.zero 32
  symmetric : SymmetricState := {}
  ephemeralPrivate : PrivateKey := Octets.zero 32
  ephemeralPublic : PublicKey := Octets.zero 32
  remoteEphemeral : PublicKey := Octets.zero 32
  haveEphemeral : Bool := false
  complete : Bool := false
  deriving DecidableEq

namespace NoiseHandshake

variable (P : Primitives)

/-- `initialize`. -/
def initialized (role : Role) (psk : SymmetricKey) (prologue : Bytes) (hs : NoiseHandshake) :
    NoiseHandshake :=
  { hs with
    role := role
    psk := psk
    haveEphemeral := false
    complete := false
    symmetric := (SymmetricState.initialized P protocolName).mixHash P prologue }

def ensureEphemeral (hs : NoiseHandshake) : NoiseHandshake :=
  if hs.haveEphemeral = false then
    let (privateKey, publicKey) := generateKeypair P hs.random
    { hs with
      ephemeralPrivate := privateKey
      ephemeralPublic := publicKey
      haveEphemeral := true }
  else hs

def setEphemeralForTesting (privateKey : PrivateKey) (hs : NoiseHandshake) : NoiseHandshake :=
  { hs with
    ephemeralPrivate := privateKey
    ephemeralPublic := x25519Base P privateKey
    haveEphemeral := true }

/-- The branch of `write_message` for an initiator: `-> psk, e`. -/
def writePskE (payload : Bytes) (hs : NoiseHandshake) : Bytes × NoiseHandshake :=
  let symmetric := hs.symmetric.mixKeyAndHash P hs.psk.val
  let hs := ensureEphemeral P { hs with symmetric := symmetric }
  let symmetric := hs.symmetric.mixHash P hs.ephemeralPublic.val
  let symmetric := symmetric.mixKey P hs.ephemeralPublic.val
  let (ct, symmetric) := symmetric.encryptAndHash P payload
  (hs.ephemeralPublic.val ++ ct, { hs with symmetric := symmetric })

/-- The branch of `write_message` for a responder: `<- e, ee`. -/
def writeEEe (payload : Bytes) (hs : NoiseHandshake) : Except ApiException Bytes × NoiseHandshake :=
  let hs := ensureEphemeral P hs
  let symmetric := hs.symmetric.mixHash P hs.ephemeralPublic.val
  let symmetric := symmetric.mixKey P hs.ephemeralPublic.val
  match x25519 P hs.ephemeralPrivate hs.remoteEphemeral with
  | .error e => (.error e, { hs with symmetric := symmetric })
  | .ok dh =>
      let symmetric := symmetric.mixKey P dh.val
      let (ct, symmetric) := symmetric.encryptAndHash P payload
      (.ok (hs.ephemeralPublic.val ++ ct), { hs with symmetric := symmetric, complete := true })

def writeMessage (payload : Bytes) (hs : NoiseHandshake) :
    Except ApiException Bytes × NoiseHandshake :=
  match hs.role with
  | .initiator =>
      let (out, hs) := writePskE P payload hs
      (.ok out, hs)
  | .responder => writeEEe P payload hs

/-- The `try` block of `read_message`, after the peer's ephemeral key is
stored: what it assigns to `out_payload`, or the exception it leaves with. -/
def readTokens (rest : Bytes) (hs : NoiseHandshake) : Except ApiException Bytes × NoiseHandshake :=
  match hs.role with
  | .responder =>
      let symmetric := hs.symmetric.mixKeyAndHash P hs.psk.val
      let symmetric := symmetric.mixHash P hs.remoteEphemeral.val
      let symmetric := symmetric.mixKey P hs.remoteEphemeral.val
      let (payload, symmetric) := symmetric.decryptAndHash P rest
      (payload, { hs with symmetric := symmetric })
  | .initiator =>
      let symmetric := hs.symmetric.mixHash P hs.remoteEphemeral.val
      let symmetric := symmetric.mixKey P hs.remoteEphemeral.val
      match x25519 P hs.ephemeralPrivate hs.remoteEphemeral with
      | .error e => (.error e, { hs with symmetric := symmetric })
      | .ok dh =>
          let symmetric := symmetric.mixKey P dh.val
          match symmetric.decryptAndHash P rest with
          | (.error e, symmetric) => (.error e, { hs with symmetric := symmetric })
          | (.ok payload, symmetric) =>
              (.ok payload, { hs with symmetric := symmetric, complete := true })

/-- `read_message`: `none` for `false`. Every exception of the `try` block is
an `EncryptionError`. -/
def readMessage (message : Bytes) (hs : NoiseHandshake) : Option Bytes × NoiseHandshake :=
  if h : message.length < keyLen then (none, hs)
  else
    let hs := { hs with
      remoteEphemeral := ⟨message.take keyLen, by
        rw [List.length_take]
        exact Nat.min_eq_left (Nat.le_of_not_lt h)⟩ }
    match readTokens P (message.drop keyLen) hs with
    | (.error _, hs) => (none, hs)
    | (.ok payload, hs) => (some payload, hs)

/-- `split`: the `send` and `recv` ciphers of this side. -/
def split (hs : NoiseHandshake) : CipherState × CipherState :=
  let (c1, c2) := hs.symmetric.split P
  match hs.role with
  | .initiator => (c1, c2)
  | .responder => (c2, c1)

def handshakeHash (hs : NoiseHandshake) : Hash := hs.symmetric.h

/-! ## The role is fixed -/

variable {P}

theorem ensureEphemeral_role (hs : NoiseHandshake) : (ensureEphemeral P hs).role = hs.role := by
  unfold ensureEphemeral
  split <;> rfl

theorem writePskE_role {hs : NoiseHandshake} {role : Role} (h : hs.role = role)
    {payload : Bytes} : (writePskE P payload hs).2.role = role := by
  rw [← h]
  exact ensureEphemeral_role _

theorem readTokens_role (rest : Bytes) (hs : NoiseHandshake) :
    (readTokens P rest hs).2.role = hs.role := by
  unfold readTokens
  split
  · rfl
  · simp only
    split
    · rfl
    · split <;> rfl

theorem readMessage_role {hs : NoiseHandshake} {role : Role} (h : hs.role = role)
    {message : Bytes} : (readMessage P message hs).2.role = role := by
  rw [← h]
  unfold readMessage
  split
  · rfl
  · simp only
    split <;> rename_i heq <;> exact (congrArg (·.2.role) heq).symm.trans (readTokens_role _ _)

/-- An initiator that accepts the message it reads has completed. -/
theorem readMessage_complete {hs : NoiseHandshake} (hrole : hs.role = .initiator)
    {message payload : Bytes} (h : (readMessage P message hs).1 = some payload) :
    (readMessage P message hs).2.complete = true := by
  revert h
  unfold readMessage readTokens
  simp only [hrole]
  split
  · exact nofun
  · split
    · exact nofun
    · rename_i heq
      intro _
      split at heq
      · exact nomatch heq
      · split at heq
        · exact nomatch heq
        · cases heq
          rfl

end NoiseHandshake

end EsphomeApi.Noise
