/-
EsphomeApi.Crypto.CipherState — `CipherState`: a key with an incrementing
nonce. Without a key it passes bytes through.
-/
import EsphomeApi.Crypto.Primitives

namespace EsphomeApi.Noise

structure CipherState where
  key : SymmetricKey := Octets.zero 32
  nonce : UInt64 := 0
  hasKey : Bool := false
  deriving DecidableEq

namespace CipherState

variable (P : Primitives)

/-- `initialize_key`. -/
def initializeKey (key : SymmetricKey) (_ : CipherState) : CipherState where
  key := key
  nonce := 0
  hasKey := true

/-- The state after one more message: `++nonce_`. -/
def advance (cipher : CipherState) : CipherState := { cipher with nonce := cipher.nonce + 1 }

/-- `encrypt_with_ad`. -/
def encryptWithAd (ad plaintext : Bytes) (cipher : CipherState) : Bytes × CipherState :=
  if cipher.hasKey = false then (plaintext, cipher)
  else (aeadEncrypt P cipher.key cipher.nonce ad plaintext, cipher.advance)

def decryptError : ApiException :=
  ⟨.encryptionError, lit "AEAD authentication failed (bad key or corrupt frame)"⟩

/-- `decrypt_with_ad`. A message that fails to authenticate leaves the nonce
where it is. -/
def decryptWithAd (ad ciphertext : Bytes) (cipher : CipherState) :
    Except ApiException Bytes × CipherState :=
  if cipher.hasKey = false then (.ok ciphertext, cipher)
  else
    match aeadDecrypt P cipher.key cipher.nonce ad ciphertext with
    | none => (.error decryptError, cipher)
    | some out => (.ok out, cipher.advance)

/-- What one side encrypts, the same state on the other side decrypts, and
both go on in the same state. -/
theorem decryptWithAd_encryptWithAd {P : Primitives} (hP : P.AeadInverts) (ad plaintext : Bytes)
    (cipher : CipherState) :
    decryptWithAd P ad (encryptWithAd P ad plaintext cipher).1 cipher =
      (.ok plaintext, (encryptWithAd P ad plaintext cipher).2) := by
  unfold decryptWithAd encryptWithAd
  by_cases hkey : cipher.hasKey = false
  · simp only [if_pos hkey]
  · simp only [if_neg hkey, aeadDecrypt_aeadEncrypt hP]

end CipherState

end EsphomeApi.Noise
