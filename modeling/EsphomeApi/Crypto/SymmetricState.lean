/-
EsphomeApi.Crypto.SymmetricState — `SymmetricState`: chaining key, transcript
hash and the cipher of the handshake.
-/
import EsphomeApi.Crypto.CipherState

namespace EsphomeApi.Noise

structure SymmetricState where
  ck : Hash := Octets.zero 32
  h : Hash := Octets.zero 32
  cipher : CipherState := {}
  deriving DecidableEq

namespace SymmetricState

variable (P : Primitives)

/-- `initialize`. -/
def initialized (protocolName : CString) : SymmetricState :=
  let h := if protocolName.length ≤ 32 then Octets.padded 32 protocolName
    else P.sha256 protocolName
  { ck := h, h := h, cipher := {} }

def mixKey (input : Bytes) (s : SymmetricState) : SymmetricState :=
  let (o1, o2, _) := hkdf P s.ck input
  { s with ck := o1, cipher := s.cipher.initializeKey o2 }

def mixHash (data : Bytes) (s : SymmetricState) : SymmetricState :=
  { s with h := P.sha256 (s.h.val ++ data) }

def mixKeyAndHash (input : Bytes) (s : SymmetricState) : SymmetricState :=
  let (o1, o2, o3) := hkdf P s.ck input
  let s := mixHash P o2.val { s with ck := o1 }
  { s with cipher := s.cipher.initializeKey o3 }

def encryptAndHash (plaintext : Bytes) (s : SymmetricState) : Bytes × SymmetricState :=
  let (ciphertext, cipher) := s.cipher.encryptWithAd P s.h.val plaintext
  (ciphertext, mixHash P ciphertext { s with cipher := cipher })

def decryptAndHash (ciphertext : Bytes) (s : SymmetricState) :
    Except ApiException Bytes × SymmetricState :=
  match s.cipher.decryptWithAd P s.h.val ciphertext with
  | (.error e, cipher) => (.error e, { s with cipher := cipher })
  | (.ok plaintext, cipher) => (.ok plaintext, mixHash P ciphertext { s with cipher := cipher })

/-- `split`: the two transport ciphers. -/
def split (s : SymmetricState) : CipherState × CipherState :=
  let (o1, o2, _) := hkdf P s.ck []
  (CipherState.initializeKey o1 {}, CipherState.initializeKey o2 {})

theorem decryptAndHash_encryptAndHash {P : Primitives} (hP : P.AeadInverts) (plaintext : Bytes)
    (s : SymmetricState) :
    decryptAndHash P (encryptAndHash P plaintext s).1 s =
      (.ok plaintext, (encryptAndHash P plaintext s).2) := by
  unfold decryptAndHash encryptAndHash
  simp only [CipherState.decryptWithAd_encryptWithAd hP]

end SymmetricState

end EsphomeApi.Noise
