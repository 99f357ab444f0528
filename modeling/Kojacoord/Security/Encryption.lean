import Kojacoord.Lib.Runs
import Kojacoord.Protocol.Encode

namespace Kojacoord
open Runs

inductive EncryptionAlgorithm where
  | aes256Gcm
  | chaCha20Poly1305
  | xChaCha20Poly1305
  | postQuantumKem
  | custom (size : UInt32)
  deriving DecidableEq

structure EncryptionKey where
  algorithm : EncryptionAlgorithm
  keyData : List UInt8
  nonce : Option (List UInt8)
  counter : UInt64

def toLeBytes (n : UInt64) : List UInt8 := (Encode.bigEndian 8 n.toNat).reverse

def fromLeBytes (bytes : List UInt8) : UInt64 := .ofNat (Decode.bigEndian bytes.reverse)

def xorFront : List UInt8 → List UInt8 → List UInt8
  | [], _ => []
  | base, [] => base
  | b :: base, byte :: bytes => (b ^^^ byte) :: xorFront base bytes

def xorNonceWithCounter (base : List UInt8) (ctr : UInt64) : List UInt8 :=
  xorFront base (toLeBytes ctr)

def EncryptionKey.deriveNonce (key : EncryptionKey) :
    Option (List UInt8 × UInt64) × EncryptionKey :=
  match key.nonce with
  | none => (none, key)
  | some base =>
    (some (xorNonceWithCounter base key.counter, key.counter),
      { key with counter := key.counter + 1 })

structure Aead where
  encrypt : List UInt8 → List UInt8 → List UInt8 → Except String (List UInt8)
  decrypt : List UInt8 → List UInt8 → List UInt8 → Except String (List UInt8)

def Aead.Inverts (a : Aead) : Prop := ∀ key nonce plaintext ciphertext,
  a.encrypt key nonce plaintext = .ok ciphertext → a.decrypt key nonce ciphertext = .ok plaintext

structure Cipher where
  algorithm : EncryptionAlgorithm
  name : String
  nonceSize : Nat
  aead : Aead

namespace Cipher
variable (c : Cipher)

def checkKey (key : EncryptionKey) : Except String Unit :=
  if key.algorithm ≠ c.algorithm then .error "Key algorithm mismatch"
  else if key.keyData.length ≠ 32 then
    .error ("Invalid key size for " ++ c.name ++ ": expected 32, got " ++
      toString key.keyData.length)
  else .ok ()

def checkNonce (nonce : List UInt8) : Except String Unit :=
  if nonce.length ≠ c.nonceSize then
    .error ("Invalid nonce size for " ++ c.name ++ ": expected " ++ toString c.nonceSize ++
      ", got " ++ toString nonce.length)
  else .ok ()

def draw (key : EncryptionKey) : Except String (List UInt8 × UInt64) × EncryptionKey :=
  match c.checkKey key with
  | .error e => (.error e, key)
  | .ok _ =>
    match key.deriveNonce with
    | (none, key) => (.error ("Nonce required for " ++ c.name), key)
    | (some drawn, key) => ((c.checkNonce drawn.1).map fun _ => drawn, key)

def encryptUnder (key : EncryptionKey) (plaintext : List UInt8) (drawn : List UInt8 × UInt64) :
    Except String (List UInt8) :=
  match c.aead.encrypt key.keyData drawn.1 plaintext with
  | .error e => .error (c.name ++ " encryption failed: " ++ e)
  | .ok ciphertext => .ok (toLeBytes drawn.2 ++ ciphertext)

def encrypt (plaintext : List UInt8) (key : EncryptionKey) :
    Except String (List UInt8) × EncryptionKey :=
  ((c.draw key).1.bind (c.encryptUnder key plaintext), (c.draw key).2)

def decrypt (ciphertext : List UInt8) (key : EncryptionKey) : Except String (List UInt8) :=
  match c.checkKey key, key.nonce with
  | .error e, _ => .error e
  | .ok _, none => .error ("Nonce required for " ++ c.name)
  | .ok _, some base =>
    match c.checkNonce base with
    | .error e => .error e
    | .ok _ =>
      if ciphertext.length < 8 then .error "Ciphertext too short: missing counter prefix"
      else
        let ctr := fromLeBytes (ciphertext.take 8)
        let payload := ciphertext.drop 8
        match c.aead.decrypt key.keyData (xorNonceWithCounter base ctr) payload with
        | .error e => .error (c.name ++ " decryption failed: " ++ e)
        | .ok plaintext => .ok plaintext

end Cipher

@[simp] theorem length_toLeBytes (n : UInt64) : (toLeBytes n).length = 8 := by
  rw [toLeBytes, List.length_reverse, Encode.length_bigEndian]

theorem fromLeBytes_toLeBytes (n : UInt64) : fromLeBytes (toLeBytes n) = n := by
  rw [fromLeBytes, toLeBytes, List.reverse_reverse, Decode.bigEndian_encode n.toNat_lt,
    UInt64.ofNat_toNat]

@[simp] theorem length_xorFront (base bytes : List UInt8) :
    (xorFront base bytes).length = base.length := by
  induction base generalizing bytes with
  | nil => rfl
  | cons b base ih =>
    cases bytes with
    | nil => rfl
    | cons byte bytes => simp [xorFront, ih]

@[simp] theorem length_xorNonceWithCounter :
    (xorNonceWithCounter base ctr).length = base.length := length_xorFront _ _

structure Cipher.Fits (c : Cipher) (key : EncryptionKey) (base : List UInt8) : Prop where
  algorithm : key.algorithm = c.algorithm
  keyData : key.keyData.length = 32
  nonce : key.nonce = some base
  nonceSize : base.length = c.nonceSize

namespace Cipher.Fits
variable {c : Cipher}

theorem checkKey (h : c.Fits key base) : c.checkKey key = .ok () := by
  simp [Cipher.checkKey, h.algorithm, h.keyData]

theorem checkNonce {n : List UInt8} (h : c.Fits key base) (hlen : n.length = base.length) :
    c.checkNonce n = .ok () := by
  simp [Cipher.checkNonce, hlen, h.nonceSize]

theorem withCounter (h : c.Fits key base) (n : UInt64) : c.Fits { key with counter := n } base :=
  ⟨h.algorithm, h.keyData, h.nonce, h.nonceSize⟩

theorem draw (h : c.Fits key base) : c.draw key =
    (.ok (xorNonceWithCounter base key.counter, key.counter),
      { key with counter := key.counter + 1 }) := by
  simp only [Cipher.draw, h.checkKey, EncryptionKey.deriveNonce, h.nonce,
    h.checkNonce length_xorNonceWithCounter]
  rfl

theorem decrypt_encryptUnder (h : c.Fits key base) (ha : c.aead.Inverts)
    (henc : c.encryptUnder key plaintext (xorNonceWithCounter base n, n) = .ok out) :
    c.decrypt out key = .ok plaintext := by
  unfold Cipher.encryptUnder at henc
  split at henc
  · cases henc
  · rename_i ciphertext hok
    cases henc
    have htk : (toLeBytes n ++ ciphertext).take 8 = toLeBytes n := by simp
    have hdr : (toLeBytes n ++ ciphertext).drop 8 = ciphertext := by simp
    have hlen : ¬ (toLeBytes n ++ ciphertext).length < 8 := by simp
    simp only [Cipher.decrypt, h.checkKey, h.nonce, h.checkNonce rfl, if_neg hlen, htk, hdr,
      fromLeBytes_toLeBytes, ha _ _ _ _ hok]

end Cipher.Fits

end Kojacoord
