/-
EsphomeApi.Frame.Noise — the encrypted frame codec of
`noise_frame_helper.cpp`:

    [0x01][u16 length][ciphertext of [u16 type][u16 length][payload]]

`advance` is one iteration of the loop of `next`: it takes one raw frame and
hands it to the handshake or to the receive cipher, by the state.
-/
import EsphomeApi.Crypto.Base64
import EsphomeApi.Crypto.NoiseHandshake
import EsphomeApi.Frame.FrameHelper

namespace EsphomeApi

open Noise

/-- `NoiseConfig`. -/
structure NoiseConfig where
  pskBase64 : CString
  expectedName : CString := []

/-- `NoiseFrameHelper::State`. -/
inductive NoiseState where
  | expectServerHello
  | expectHandshake
  | ready
  | failed
  deriving DecidableEq, Repr

/-- A helper always drives the initiator's side of a handshake. -/
structure NoiseFrameHelper where
  psk : SymmetricKey
  expectedName : CString
  serverName : CString := []
  handshake : NoiseHandshake
  encrypt : CipherState := {}
  decrypt : CipherState := {}
  state : NoiseState := .expectServerHello
  /-- whether `set_handshake_handlers` has installed callbacks -/
  handlers : Bool := false
  buffer : Bytes := []
  consumed : Nat := 0
  isInitiator : handshake.role = .initiator

namespace NoiseFrameHelper

variable (P : Primitives)

/-- Indicator byte prefixing every Noise frame. -/
def indicator : UInt8 := 0x01

/-- `noise_prologue`. -/
def prologue : Bytes := lit "NoiseAPIInit" ++ [0x00, 0x00]

/-- `append_u16`. -/
def appendU16 (out : Bytes) (value : Nat) : Bytes :=
  out ++ [UInt8.ofNat (value / 256), UInt8.ofNat value]

def invalidPsk : ApiException :=
  ⟨.apiError, lit "invalid Noise PSK: expected base64 of a 32-byte key"⟩

/-- The constructor. `random` is what the system's generator will return for
the ephemeral key. -/
def create (config : NoiseConfig) (random : Octets 32) : Except ApiException NoiseFrameHelper :=
  match base64Decode config.pskBase64 with
  | none => .error invalidPsk
  | some decoded =>
      if h : decoded.length = keyLen then
        .ok {
          psk := ⟨decoded, h⟩
          expectedName := config.expectedName
          handshake := NoiseHandshake.initialized P .initiator ⟨decoded, h⟩ prologue { random := random }
          isInitiator := rfl }
      else .error invalidPsk

/-- `connect_bytes`: the hello frame and the initiator's handshake message. -/
def connectBytes (s : NoiseFrameHelper) : Bytes × NoiseFrameHelper :=
  let out := s.handshake.writePskE P []
  (appendU16 ([indicator, 0x00, 0x00] ++ [indicator]) (out.1.length + 1) ++ [0x00] ++ out.1,
    { s with handshake := out.2, isInitiator := NoiseHandshake.writePskE_role s.isInitiator })

def setHandshakeHandlers (s : NoiseFrameHelper) : NoiseFrameHelper := { s with handlers := true }

/-- The inner plaintext `[u16 type][u16 len][payload]`. -/
def inner (msgType : UInt32) (payload : Bytes) : Bytes :=
  appendU16 (appendU16 [] msgType.toNat) payload.length ++ payload

/-- The frame around a ciphertext. -/
def wrap (ct : Bytes) : Bytes := appendU16 [indicator] ct.length ++ ct

/-- `encode`, appending to `out`. -/
def encode (msgType : UInt32) (payload out : Bytes) (s : NoiseFrameHelper) :
    Bytes × NoiseFrameHelper :=
  let (ct, encrypt) := s.encrypt.encryptWithAd P [] (inner msgType payload)
  (out ++ wrap ct, { s with encrypt := encrypt })

def feed (data : Bytes) (s : NoiseFrameHelper) : NoiseFrameHelper :=
  { s with buffer := s.buffer ++ data }

def compact (s : NoiseFrameHelper) : NoiseFrameHelper :=
  if s.consumed = 0 then s
  else if s.consumed ≥ s.buffer.length then { s with buffer := [], consumed := 0 }
  else { s with buffer := s.buffer.drop s.consumed, consumed := 0 }

def encryptionMismatch : ApiException :=
  ⟨.encryptionMismatchError, lit "device is not using encryption; retry without --key / -k"⟩

def badIndicator : ApiException :=
  ⟨.protocolError, lit "noise frame: bad indicator byte (expected 0x01)"⟩

def lengthExceedsMaximum : ApiException :=
  ⟨.protocolError, lit "noise frame: length exceeds maximum"⟩

/-- `next_raw`: `ok none` is `NeedMore`. -/
def nextRaw (s : NoiseFrameHelper) : Except ApiException (Option Bytes) × NoiseFrameHelper :=
  let s := s.compact
  match s.buffer with
  | p0 :: p1 :: p2 :: rest =>
      if p0 ≠ indicator then
        if p0 = 0x00 then (.error encryptionMismatch, s) else (.error badIndicator, s)
      else
        let len := p1.toNat * 256 + p2.toNat
        if len > maxFramePayload then (.error lengthExceedsMaximum, s)
        else if rest.length < len then (.ok none, s)
        else (.ok (some (rest.take len)), { s with consumed := 3 + len })
  | _ => (.ok none, s)

/-- `report_error`. -/
def reportError (what : CString) (s : NoiseFrameHelper) : Advance × NoiseFrameHelper :=
  (if s.handlers then .error what else .silent, { s with state := .failed })

def nameMismatch (serverName expectedName : CString) : CString :=
  lit "connected to '" ++ serverName ++ lit "' but expected '" ++ expectedName ++ lit "'"

/-- `handle_server_hello`. -/
def handleServerHello (payload : Bytes) (s : NoiseFrameHelper) : Advance × NoiseFrameHelper :=
  match payload with
  | [] => reportError (lit "empty server hello") s
  | chosenProto :: rest =>
      if chosenProto ≠ 0x01 then
        reportError (lit "device selected an unsupported encryption protocol") s
      else
        let s := { s with serverName := rest.takeWhile (· ≠ 0x00) }
        if s.expectedName ≠ [] ∧ s.serverName ≠ s.expectedName then
          reportError (nameMismatch s.serverName s.expectedName) s
        else (.silent, { s with state := .expectHandshake })

/-- `handle_server_handshake`. -/
def handleServerHandshake (payload : Bytes) (s : NoiseFrameHelper) : Advance × NoiseFrameHelper :=
  match payload with
  | [] => reportError (lit "empty handshake message") s
  | marker :: rest =>
      if marker ≠ 0x00 then
        reportError (lit "handshake rejected by device: " ++ rest) s
      else
        let out := s.handshake.readMessage P rest
        let s := { s with
          handshake := out.2
          isInitiator := NoiseHandshake.readMessage_role s.isInitiator }
        if out.1 = none then reportError (lit "Noise handshake failed (wrong PSK?)") s
        else
          let (encrypt, decrypt) := s.handshake.split P
          (if s.handlers then .ready else .silent,
            { s with encrypt := encrypt, decrypt := decrypt, state := .ready })

def decryptFailed (e : ApiException) : ApiException :=
  ⟨.protocolError, lit "noise frame decrypt failed: " ++ e.what⟩

def innerTooShort : ApiException :=
  ⟨.protocolError, lit "noise frame: inner header too short"⟩

def innerLengthExceeds : ApiException :=
  ⟨.protocolError, lit "noise frame: inner length exceeds plaintext"⟩

/-- The header and payload of a decrypted frame. -/
def parseInner : Bytes → Advance
  | t0 :: t1 :: l0 :: l1 :: rest =>
      let type := UInt32.ofNat (t0.toNat * 256 + t1.toNat)
      let msgLen := l0.toNat * 256 + l1.toNat
      if rest.length < msgLen then .throws innerLengthExceeds
      else .ok ⟨type, rest.take msgLen⟩
  | _ => .throws innerTooShort

/-- The case `Ready` of `next`. -/
def handleData (raw : Bytes) (s : NoiseFrameHelper) : Advance × NoiseFrameHelper :=
  match s.decrypt.decryptWithAd P [] raw with
  | (.error e, decrypt) => (.throws (decryptFailed e), { s with decrypt := decrypt })
  | (.ok pt, decrypt) => (parseInner pt, { s with decrypt := decrypt })

/-- One iteration of the loop of `next`. -/
def advance (s : NoiseFrameHelper) : Advance × NoiseFrameHelper :=
  match s.nextRaw with
  | (.error e, s) => (.throws e, s)
  | (.ok none, s) => (.needMore, s)
  | (.ok (some raw), s) =>
      match s.state with
      | .expectServerHello => handleServerHello raw s
      | .expectHandshake => handleServerHandshake P raw s
      | .failed => (.needMore, s)
      | .ready => handleData P raw s

end NoiseFrameHelper

end EsphomeApi
