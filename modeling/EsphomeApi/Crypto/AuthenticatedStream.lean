/-
EsphomeApi.Crypto.AuthenticatedStream — two `CipherState`s with one key, and an
adversary between them.

The sender encrypts what it is given; the receiver decrypts whatever the
adversary submits, in any order, and is used again after a message that it
rejects. `Channel` keeps beside the two what was sent and what was accepted,
and `Ideal` is the assumption about the AEAD: bytes open under a key, a nonce
and associated data only when the sender sealed exactly these, and then they
open to what was sealed.
-/
import EsphomeApi.Crypto.CipherState
import EsphomeApi.Library.GuardedRun
import EsphomeApi.Library.NumberedLog

namespace EsphomeApi.Noise

open EsphomeApi.Library

/-! ## The channel -/

structure Message where
  ad : Bytes
  ciphertext : Bytes
  plaintext : Bytes
  deriving DecidableEq

/-- A message with the key and the nonce that it was encrypted under. -/
structure Sealed extends Message where
  key : SymmetricKey
  nonce : Nonce
  deriving DecidableEq

structure Channel where
  sender : CipherState
  receiver : CipherState
  sent : List Sealed
  accepted : List Message
  deriving DecidableEq

inductive Action where
  | encrypt (ad plaintext : Bytes)
  | submit (ad ciphertext : Bytes)

namespace Channel

variable (P : Primitives)

/-- Both sides hold the same cipher. -/
def start (cipher : CipherState) : Channel where
  sender := cipher
  receiver := cipher
  sent := []
  accepted := []

def step (channel : Channel) : Action → Channel
  | .encrypt ad plaintext =>
      let out := channel.sender.encryptWithAd P ad plaintext
      let message : Sealed :=
        ⟨⟨ad, out.1, plaintext⟩, channel.sender.key, buildNonce channel.sender.nonce⟩
      { channel with sender := out.2, sent := channel.sent ++ [message] }
  | .submit ad ciphertext =>
      match channel.receiver.decryptWithAd P ad ciphertext with
      | (.error _, receiver) => { channel with receiver := receiver }
      | (.ok plaintext, receiver) =>
          { channel with
            receiver := receiver
            accepted := channel.accepted ++ [⟨ad, ciphertext, plaintext⟩] }

/-- The sender's counter does not wrap, and what opens was sealed. -/
def Ideal (channel : Channel) : Action → Prop
  | .encrypt _ _ => channel.sent.length + 1 < 2 ^ 64
  | .submit ad ciphertext =>
      ∀ plaintext ∈ aeadDecrypt P channel.receiver.key channel.receiver.nonce ad ciphertext,
        (⟨⟨ad, ciphertext, plaintext⟩, channel.receiver.key,
          buildNonce channel.receiver.nonce⟩ : Sealed) ∈ channel.sent

instance (channel : Channel) : ∀ action : Action, Decidable (Ideal P channel action)
  | .encrypt _ _ => inferInstanceAs (Decidable (_ < _))
  | .submit ad ciphertext => inferInstanceAs (Decidable (∀ plaintext ∈
      aeadDecrypt P channel.receiver.key channel.receiver.nonce ad ciphertext, _ ∈ channel.sent))

/-! ## The receiver's counter follows the sender's history -/

/-- The cipher after `count` more messages. -/
def after (cipher : CipherState) (count : Nat) : CipherState :=
  { cipher with nonce := cipher.nonce + UInt64.ofNat count }

theorem after_zero (cipher : CipherState) : after cipher 0 = cipher := by
  simp [after]

theorem advance_after (cipher : CipherState) (count : Nat) :
    (after cipher count).advance = after cipher (count + 1) := by
  simp [after, CipherState.advance, UInt64.add_assoc]

/-- The nonces of fewer than 2^64 messages differ. -/
theorem separates_nonce (cipher : CipherState) :
    Separates (fun count => buildNonce (after cipher count).nonce) (2 ^ 64) := by
  intro i j hi hj h
  have hcounter : UInt64.ofNat i = UInt64.ofNat j :=
    (UInt64.add_right_inj cipher.nonce).mp (buildNonce_injective h)
  have hnat := congrArg UInt64.toNat hcounter
  rwa [UInt64.toNat_ofNat', UInt64.toNat_ofNat', Nat.mod_eq_of_lt hi, Nat.mod_eq_of_lt hj]
    at hnat

/-- The sender is as many messages on as it sent and the receiver as many as
it accepted; what was accepted is the front of what was sent. -/
structure Synchronized (cipher : CipherState) (channel : Channel) : Prop where
  sender : channel.sender = after cipher channel.sent.length
  receiver : channel.receiver = after cipher channel.accepted.length
  numbered : Numbered (fun count => buildNonce (after cipher count).nonce) Sealed.nonce
    channel.sent
  short : channel.sent.length < 2 ^ 64
  delivered : channel.accepted <+: channel.sent.map Sealed.toMessage

variable {P}

theorem synchronized_start (cipher : CipherState) : Synchronized cipher (start cipher) where
  sender := (after_zero cipher).symm
  receiver := (after_zero cipher).symm
  numbered := numbered_nil _ _
  short := by simp [start]
  delivered := List.nil_prefix

theorem Synchronized.encrypt {cipher : CipherState} {channel : Channel}
    (h : Synchronized cipher channel)
    (hkey : cipher.hasKey = true) {ad plaintext : Bytes}
    (hshort : channel.sent.length + 1 < 2 ^ 64) :
    Synchronized cipher (channel.step P (.encrypt ad plaintext)) := by
  have hkeyed : channel.sender.hasKey = true := by simp [h.sender, after, hkey]
  have hnext : (channel.sender.encryptWithAd P ad plaintext).2 =
      after cipher (channel.sent.length + 1) := by
    rw [CipherState.encryptWithAd, if_neg (by simp [hkeyed]), h.sender, advance_after]
  constructor
  · simp [step, hnext]
  · simpa [step] using h.receiver
  · refine h.numbered.concat ?_
    simp [h.sender]
  · simpa [step] using hshort
  · simp only [step, List.map_append]
    exact h.delivered.trans (List.prefix_append _ _)

/-- A rejected input leaves the whole channel as it was. -/
theorem step_submit_error {channel : Channel} {ad ciphertext : Bytes} {e : ApiException}
    (h : (channel.receiver.decryptWithAd P ad ciphertext).1 = .error e) :
    channel.step P (.submit ad ciphertext) = channel := by
  unfold CipherState.decryptWithAd at h
  simp only [step, CipherState.decryptWithAd]
  split at h
  · cases h
  · rename_i hkeyed
    rw [if_neg hkeyed]
    split at h
    · rfl
    · cases h

/-- What opens under the next nonce is the next message of the sender. -/
theorem Synchronized.submit {cipher : CipherState} {channel : Channel}
    (h : Synchronized cipher channel)
    (hkey : cipher.hasKey = true) {ad ciphertext : Bytes}
    (hideal : Ideal P channel (.submit ad ciphertext)) :
    Synchronized cipher (channel.step P (.submit ad ciphertext)) := by
  have hkeyed : channel.receiver.hasKey = true := by simp [h.receiver, after, hkey]
  simp only [step, CipherState.decryptWithAd, hkeyed]
  cases hopen : aeadDecrypt P channel.receiver.key channel.receiver.nonce ad ciphertext with
  | none => exact h
  | some plaintext =>
      have hsent := hideal plaintext hopen
      have htaken : channel.accepted ++ [⟨ad, ciphertext, plaintext⟩] <+:
          channel.sent.map Sealed.toMessage := by
        refine h.numbered.prefix_concat (separates_nonce cipher) h.short h.delivered hsent ?_
        simp [h.receiver]
      constructor
      · exact h.sender
      · simp [h.receiver, advance_after]
      · exact h.numbered
      · exact h.short
      · exact htaken

theorem Synchronized.step {cipher : CipherState} (hkey : cipher.hasKey = true) (channel : Channel)
    (action : Action) (h : Synchronized cipher channel) (hideal : Ideal P channel action) :
    Synchronized cipher (channel.step P action) := by
  cases action with
  | encrypt ad plaintext => exact h.encrypt hkey hideal
  | submit ad ciphertext => exact h.submit hkey hideal

/-- At every moment the plaintexts that the receiver accepted, with their
associated data and ciphertexts, are the first ones that the sender encrypted,
in order; and a submission that is rejected changes nothing. -/
theorem authenticated_stream (cipher : CipherState) (hkey : cipher.hasKey = true)
    (actions : List Action) (h : Guarded (step P) (Ideal P) (start cipher) actions) :
    ∀ channel ∈ states (step P) (start cipher) actions,
      channel.accepted <+: channel.sent.map Sealed.toMessage ∧
      channel.accepted.map Message.plaintext <+:
        channel.sent.map (fun message => message.plaintext) ∧
      ∀ ad ciphertext e, (channel.receiver.decryptWithAd P ad ciphertext).1 = .error e →
        channel.step P (.submit ad ciphertext) = channel := by
  intro channel hchannel
  have hin :=
    states_of_guarded (Synchronized.step hkey) (synchronized_start cipher) h channel hchannel
  refine ⟨hin.delivered, ?_, fun ad ciphertext e he => step_submit_error he⟩
  have hmap := hin.delivered.map Message.plaintext
  rwa [List.map_map] at hmap

end Channel

/-! ## A run -/

/-- A toy AEAD whose tag binds the nonce and the first bytes of the associated
data. -/
def Primitives.toyBinding : Primitives where
  __ := Primitives.toy
  chacha20poly1305Encrypt key nonce ad plaintext :=
    (plaintext.map (· + key.val.headD 0), Octets.padded 16 (nonce.val ++ ad))
  chacha20poly1305Decrypt key nonce ad ciphertext tag :=
    if tag = Octets.padded 16 (nonce.val ++ ad) then
      some (ciphertext.map (· - key.val.headD 0))
    else none
  length_encrypt := Primitives.toy_length

/-- The bytes that the sender's cipher outputs as message `count`. -/
def Channel.sealedBytes (count : UInt64) (plaintext : Bytes) : Bytes :=
  aeadEncrypt Primitives.toyBinding (Octets.zero 32) count [] plaintext

/-- Two messages, of which the second arrives first, then the first, twice,
with a byte string of no meaning and then the second. -/
def Channel.disturbed : List Action :=
  [.encrypt [] [7], .encrypt [] [8, 9], .submit [] (sealedBytes 1 [8, 9]),
    .submit [] (sealedBytes 0 [7]), .submit [] (sealedBytes 0 [7]), .submit [] [1, 2, 3],
    .submit [] (sealedBytes 1 [8, 9])]

theorem Channel.authenticated_stream_disturbed :
    let channel := run (step Primitives.toyBinding)
      (start (CipherState.initializeKey (Octets.zero 32) {})) disturbed
    channel.accepted <+: channel.sent.map Sealed.toMessage ∧
      channel.accepted.map Message.plaintext <+:
        channel.sent.map (fun message => message.plaintext) ∧
      channel.step Primitives.toyBinding (.submit [] [1, 2, 3]) = channel := by
  intro channel
  obtain ⟨haccepted, hplain, hrejected⟩ := authenticated_stream
    (CipherState.initializeKey (Octets.zero 32) {}) rfl disturbed (by decide) channel
    (run_mem_states _ _ _)
  obtain ⟨e, he⟩ : ∃ e, (channel.receiver.decryptWithAd Primitives.toyBinding [] [1, 2, 3]).1 =
      .error e := ⟨_, rfl⟩
  exact ⟨haccepted, hplain, hrejected [] [1, 2, 3] e he⟩

example : (run (Channel.step Primitives.toyBinding)
    (Channel.start (CipherState.initializeKey (Octets.zero 32) {})) Channel.disturbed).accepted.map
      Message.plaintext = [[7], [8, 9]] := by decide

end EsphomeApi.Noise
