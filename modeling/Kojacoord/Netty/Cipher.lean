import Kojacoord.Auth.Encryption
import Kojacoord.Net.Cfb8
import Kojacoord.Netty.Frame

namespace Kojacoord
open BlockCipher Feedback Keystream Cfb List

inductive CipherError where
  | invalidLength (length : Nat)
deriving DecidableEq

def CipherState.new (aes : Block → Block → Block) (sharedSecret : List UInt8) :
    Except CipherError (CipherState BufCfb BufCfb) :=
  match asBlock sharedSecret with
  | some key => .ok ⟨.new aes key key, .new aes key key⟩
  | none => .error (.invalidLength sharedSecret.length)

def CipherState.encrypt (c : CipherState BufCfb BufCfb) (data : List UInt8) :
    CipherState BufCfb BufCfb × List UInt8 :=
  ({ c with enc := (BufCfb.encrypt.run c.enc data).1 }, (BufCfb.encrypt.run c.enc data).2)

def proxyCiphertext (aes : Block → Block → Block) (secret : Block) (data : List UInt8) :
    List UInt8 :=
  (Cfb8State.encrypt.run (.new aes secret secret) data).2

def realmCiphertext (aes : Block → Block → Block) (secret : Block) (data : List UInt8) :
    Except AuthError (List UInt8) :=
  (initAesCfb8 aes secret.bytes).map fun pair => (BufCfb.encrypt.run pair.1 data).2

def nettyCiphertext (aes : Block → Block → Block) (secret : Block) (data : List UInt8) :
    Except CipherError (List UInt8) :=
  (CipherState.new aes secret.bytes).map fun c => (c.encrypt data).2

def OneCipher (aes : Block → Block → Block) (secret : Block) (data : List UInt8) : Prop :=
  realmCiphertext aes secret data = .ok (proxyCiphertext aes secret data) ∧
    nettyCiphertext aes secret data = .ok (proxyCiphertext aes secret data)

theorem proxyCiphertext_eq : proxyCiphertext aes secret data =
    encrypt xorMask (byteKeystream (aes secret) secret) [] data :=
  (Cfb8State.encrypts (aes secret) secret).run (.start aes secret secret) data

theorem bufCiphertext_eq : (BufCfb.encrypt.run (.new aes secret secret) data).2 =
    encrypt xorMask (blockKeystream (aes secret) secret) [] data :=
  (BufCfb.encrypts (aes secret) secret).run (.start aes secret secret) data

theorem oneCipher_iff : OneCipher aes secret data ↔
    encrypt xorMask (byteKeystream (aes secret) secret) [] data =
      encrypt xorMask (blockKeystream (aes secret) secret) [] data := by
  have hrea : realmCiphertext aes secret data =
      .ok (encrypt xorMask (blockKeystream (aes secret) secret) [] data) := by
    rw [realmCiphertext, initAesCfb8, asBlock_bytes, ← bufCiphertext_eq]
    rfl
  have hnet : nettyCiphertext aes secret data =
      .ok (encrypt xorMask (blockKeystream (aes secret) secret) [] data) := by
    rw [nettyCiphertext, CipherState.new, asBlock_bytes, ← bufCiphertext_eq]
    rfl
  rw [OneCipher, hrea, hnet, proxyCiphertext_eq]
  constructor
  · intro h
    exact (Except.ok.inj h.1).symm
  · intro h
    exact ⟨congrArg _ h.symm, congrArg _ h.symm⟩

/-- For a given block function they encrypt a text alike exactly if, at each byte, the first byte of
the block after the last sixteen bytes of ciphertext is the byte at that place of the block after
the last whole one. -/
theorem oneCipher_iff_keystream : OneCipher aes secret data ↔ ∀ i < data.length,
    byteKeystream (aes secret) secret ((proxyCiphertext aes secret data).take i) =
      blockKeystream (aes secret) secret ((proxyCiphertext aes secret data).take i) := by
  rw [oneCipher_iff, encrypt_eq_iff, proxyCiphertext_eq]
  simp only [nil_append]

def flipSecond (b : Block) : Block := b.set 1 (b.get 1 ^^^ 1)

theorem flipSecond_flipSecond (b : Block) : flipSecond (flipSecond b) = b := by
  apply Block.ext_bytes
  rw [flipSecond, flipSecond, Block.get_set_self b (by decide), UInt8.xor_assoc, UInt8.xor_self,
    UInt8.xor_zero, Block.bytes_set, Block.bytes_set, set_set, Block.get,
    getD_eq_getElem _ _ (by rw [b.length_eq]; decide), set_getElem_self]

def flipping : Equiv.Perm Block :=
  ⟨flipSecond, flipSecond, flipSecond_flipSecond, flipSecond_flipSecond⟩

theorem keystreams_differ :
    byteKeystream flipSecond secret [ct] ≠ blockKeystream flipSecond secret [ct] := by
  have hby : byteKeystream flipSecond secret [ct] = secret.get 1 := by
    change (flipSecond (secret.shift ct)).get 0 = _
    rw [flipSecond, Block.get_set_of_ne _ (by decide), Block.get_shift _ _ (by decide)]
  have hblo : blockKeystream flipSecond secret [ct] = secret.get 1 ^^^ 1 := by
    have hsh : [ct].length < 16 := by simp
    rw [blockKeystream_first hsh]
    exact Block.get_set_self secret (by decide) _
  rw [hby, hblo]
  intro h
  have hbit : secret.get 1 ^^^ 0 = secret.get 1 ^^^ 1 := by rwa [UInt8.xor_zero]
  exact absurd ((UInt8.xor_right_inj _).mp hbit) (by decide)

/-- Whatever the secret, the three ciphers are one, for every block function, only on texts of at
most one byte. -/
theorem one_cipher_iff (secret : Block) (data : List UInt8) :
    (∀ aes : Block → Equiv.Perm Block, OneCipher (fun key => aes key) secret data) ↔
      data.length ≤ 1 := by
  constructor
  · intro h
    by_contra hlong
    have hsecond := oneCipher_iff_keystream.mp (h fun _ => flipping) 1 (by omega)
    have hone : ∃ ct, (proxyCiphertext (fun _ => flipping) secret data).take 1 = [ct] := by
      apply length_eq_one_iff.mp
      rw [length_take, proxyCiphertext, Transducer.length_run]
      omega
    obtain ⟨ct, hct⟩ := hone
    rw [hct] at hsecond
    exact keystreams_differ hsecond
  · intro hshort aes
    rw [oneCipher_iff_keystream]
    intro i hi
    obtain rfl : i = 0 := by omega
    rw [take_zero]
    rfl

theorem two_ciphers_aes : ¬ OneCipher Aes.encryptBlock (.fill 0) [0, 0] := by
  rintro ⟨h, -⟩
  exact absurd h (by decide +kernel)

end Kojacoord
