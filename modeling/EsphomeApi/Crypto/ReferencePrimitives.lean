/-
EsphomeApi.Crypto.ReferencePrimitives — the primitives that are shipped, and
what the handshake relies on, proved of them.

`Primitives.reference` puts the code of `crypto/detail` in the place of the
parameter. Decryption inverts encryption (`reference_aeadInverts`), and any two
private keys agree on a secret that is not zero (`reference_agree`), so a
handshake between two sides that share key and prologue cannot fail
(`reference_session`).
-/
import EsphomeApi.Crypto.Aead
import EsphomeApi.Crypto.SessionAgreement
import EsphomeApi.Crypto.Sha256Theorems
import EsphomeApi.Crypto.X25519Theorems

namespace EsphomeApi.Noise

open Library

theorem length_chacha20poly1305Encrypt (key : SymmetricKey) (nonce : Nonce)
    (ad plaintext : Bytes) :
    (chacha20poly1305Encrypt key nonce ad plaintext).1.length = plaintext.length :=
  length_chacha20Xor key 1 nonce plaintext

/-- The functions of `crypto/detail` themselves. -/
def reference : Primitives where
  sha256 := sha256
  x25519Scalarmult := x25519Scalarmult
  x25519ScalarmultBase := x25519ScalarmultBase
  chacha20poly1305Encrypt := chacha20poly1305Encrypt
  chacha20poly1305Decrypt := chacha20poly1305Decrypt
  length_encrypt := length_chacha20poly1305Encrypt

theorem reference_aeadInverts : reference.AeadInverts := fun key nonce ad plaintext =>
  (chacha20poly1305Decrypt_eq_some key nonce ad _ _ plaintext).mpr rfl

/-- Any two private keys lead to one secret, and it is never the degenerate
one that `x25519` rejects. -/
theorem reference_agree (a b : PrivateKey) : reference.Agree a b := by
  refine ⟨x25519Scalarmult_comm a b base9, ?_⟩
  by_contra hzero
  have hall : ∀ byte ∈ (x25519Scalarmult a (x25519ScalarmultBase b)).val, byte = 0 := by
    intro byte hbyte
    by_contra hne
    exact hzero ⟨byte, hbyte, hne⟩
  refine coordinate_shared_ne_zero a b ?_
  rw [coordinate, List.eq_replicate_of_mem hall, LittleEndian.value_replicate_zero,
    Nat.zero_mod]

/-- Both sides get a secret, and it is the same. -/
theorem Primitives.Agree.x25519_both {P : Primitives} {a b : PrivateKey} (h : P.Agree a b) :
    ∃ secret, x25519 P a (x25519Base P b) = .ok secret ∧
      x25519 P b (x25519Base P a) = .ok secret :=
  ⟨_, h.x25519_eq, h.commute ▸ h.symm.x25519_eq⟩

/-- Two pairs of keys, from any random bytes. -/
theorem reference_x25519 (random random' : Octets 32) :
    let (a, publicA) := generateKeypair reference random
    let (b, publicB) := generateKeypair reference random'
    ∃ secret, x25519 reference a publicB = .ok secret ∧
      x25519 reference b publicA = .ok secret :=
  (reference_agree random random').x25519_both

/-! ## HMAC over the stream -/

/-- `hmac_sha256`, with its two contexts. -/
def hmacSha256Stream (key data : Bytes) : Hash :=
  let kPad := hmacKeyPad reference key
  let ipad := kPad.val.map (· ^^^ 0x36)
  let opad := kPad.val.map (· ^^^ 0x5c)
  let inner := sha256Final (sha256Update (sha256Update sha256Init ipad) data)
  sha256Final (sha256Update (sha256Update sha256Init opad) inner.val)

/-- Two updates hash both texts together. -/
theorem sha256Final_update_update (a b : Bytes) :
    sha256Final (sha256Update (sha256Update sha256Init a) b) = sha256 (a ++ b) := by
  unfold sha256 sha256Update
  rw [List.foldl_append]

theorem hmacSha256Stream_eq (key data : Bytes) :
    hmacSha256Stream key data = hmacSha256 reference key data := by
  unfold hmacSha256Stream hmacSha256
  simp only [sha256Final_update_update]
  rfl

/-! ## Sessions -/

/-- Two sides with one key and one prologue: whatever their random keys are,
both messages are accepted with their payloads, and from then on, in every
interleaving, each side decrypts exactly what the other one encrypts, in
order. -/
theorem reference_session (psk : SymmetricKey) (prologue : Bytes) (i r : NoiseHandshake)
    (payload1 payload2 : Bytes) :
    ∃ message1 message2 i1 r1 i2 r2,
      NoiseHandshake.writeMessage reference payload1
          (i.initialized reference .initiator psk prologue) = (.ok message1, i1) ∧
        NoiseHandshake.readMessage reference message1
          (r.initialized reference .responder psk prologue) = (some payload1, r1) ∧
        NoiseHandshake.writeMessage reference payload2 r1 = (.ok message2, r2) ∧
        NoiseHandshake.readMessage reference message2 i1 = (some payload2, i2) ∧
        ∀ (actions : List Session.Action) (side : Role),
          let s := run (Session.step reference) (Session.established reference i2 r2) actions
          (s side.peer).received <+: (s side).sent.map .ok ∧
            (s side.peer).received.length + (s side.peer).inbox.length =
              (s side).sent.length := by
  have hpaired := NoiseHandshake.paired_initialized (P := reference) psk prologue i r
  obtain ⟨message1, i1, r1, hwrite1, hread1, hhalf⟩ :=
    hpaired.first_message reference_aeadInverts payload1
  obtain ⟨message2, i2, r2, hwrite2, hread2, hdone⟩ :=
    hhalf.second_message reference_aeadInverts (reference_agree i.random r.random) payload2
  refine ⟨message1, message2, i1, r1, i2, r2, hwrite1, hread1, hwrite2, hread2, ?_⟩
  intro actions side
  have hrun : Session.InStep reference
      (run (Session.step reference) (Session.established reference i2 r2) actions) :=
    run_invariant (Session.inStep_step reference_aeadInverts)
      (Session.inStep_established hdone) actions
  exact (hrun side).received

end EsphomeApi.Noise
