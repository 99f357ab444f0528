import Kojacoord.Lib.BlockCipher

namespace Kojacoord
open BlockCipher Feedback Keystream

/-- AES in CFB8: `cipher` is the block function under the key, and `sr` the shift register. -/
structure Cfb8State where
  cipher : Block → Block
  sr : Block

namespace Cfb8State

def new (aes : Block → Block → Block) (key iv : Block) : Cfb8State := ⟨aes key, iv⟩

def feed (s : Cfb8State) (ct : UInt8) : Cfb8State :=
  { s with sr := ⟨(s.sr.bytes.rotateLeft 1).set 15 ct, by simp [List.rotateLeft, s.sr.length_eq]⟩ }

def encryptByte (s : Cfb8State) (byte : UInt8) : Cfb8State × UInt8 :=
  let ct := byte ^^^ (s.cipher s.sr).get 0
  (s.feed ct, ct)

def decryptByte (s : Cfb8State) (ct : UInt8) : Cfb8State × UInt8 :=
  (s.feed ct, ct ^^^ (s.cipher s.sr).get 0)

def encrypt : Transducer Cfb8State UInt8 := .symbolwise encryptByte

def decrypt : Transducer Cfb8State UInt8 := .symbolwise decryptByte

theorem sr_feed (s : Cfb8State) (ct : UInt8) : (s.feed ct).sr = s.sr.shift ct := by
  obtain ⟨cipher, bytes, hlen⟩ := s
  cases bytes with
  | nil => cases hlen
  | cons byte bytes =>
    have hbs : bytes.length = 15 := by simpa using hlen
    simp [feed, Block.shift, List.rotateLeft, hbs]

structure After (cipher : Block → Block) (iv : Block) (past : List UInt8) (s : Cfb8State) :
    Prop where
  cipher_eq : s.cipher = cipher
  sr_eq : s.sr = iv.register past

variable {cipher : Block → Block} {iv : Block} {past : List UInt8} {s : Cfb8State}

theorem After.start (aes : Block → Block → Block) (key iv : Block) :
    After (aes key) iv [] (new aes key iv) :=
  ⟨rfl, rfl⟩

theorem After.feed (h : After cipher iv past s) (ct : UInt8) :
    After cipher iv (past ++ [ct]) (s.feed ct) :=
  ⟨h.cipher_eq, by rw [sr_feed, h.sr_eq, Block.register_append]⟩

theorem After.keystream (h : After cipher iv past s) :
    (s.cipher s.sr).get 0 = Cfb.byteKeystream cipher iv past := by
  rw [Cfb.byteKeystream, h.cipher_eq, h.sr_eq]

theorem encrypts (cipher : Block → Block) (iv : Block) :
    Encrypts Cfb.xorMask (Cfb.byteKeystream cipher iv) encryptByte (After cipher iv) where
  output _ _ byte h := congrArg (byte ^^^ ·) h.keystream
  next _ _ _ h := h.feed _

theorem decrypts (cipher : Block → Block) (iv : Block) :
    Decrypts Cfb.xorMask (Cfb.byteKeystream cipher iv) decryptByte (After cipher iv) where
  output _ _ ct h := congrArg (ct ^^^ ·) h.keystream
  next _ _ _ h := h.feed _

/-- What one instance encrypts in some pieces, another one decrypts in any others. -/
theorem decrypt_encrypt_pieces (aes : Block → Block → Block) (key iv : Block)
    (pieces pieces' : List (List UInt8))
    (hcut : pieces'.flatten = (encrypt.runAll (new aes key iv) pieces).2) :
    (decrypt.runAll (new aes key iv) pieces').2 = pieces.flatten := by
  have hundoes : decrypt.Undoes (new aes key iv) encrypt (new aes key iv) :=
    (decrypts (aes key) iv).undoes (encrypts (aes key) iv) (.start aes key iv) (.start aes key iv)
  have henc : encrypt.Chunked := Transducer.chunked_symbolwise
  have hdec : decrypt.Chunked := Transducer.chunked_symbolwise
  rw [hdec.runAll, hcut, henc.runAll]
  exact hundoes pieces.flatten

theorem decrypt_encrypt_pieces_aes :
    (decrypt.runAll (new Aes.encryptBlock (.fill 0) (.fill 0)) [[0x67, 0x75], [], [0x30]]).2 =
      [1, 2, 3] :=
  decrypt_encrypt_pieces Aes.encryptBlock (.fill 0) (.fill 0) [[1], [2, 3]]
    [[0x67, 0x75], [], [0x30]] (by decide +kernel)

end Cfb8State

end Kojacoord
