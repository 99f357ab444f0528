import Kojacoord.Auth.Pipeline
import Kojacoord.Lib.BlockCipher

namespace Kojacoord
open BlockCipher Feedback Keystream List

/-- The buffered cipher feedback of the `cfb_mode` crate, with segments of a whole block. The front
of `iv`, up to `pos`, is ciphertext, and the rest of it is key stream. -/
structure BufCfb where
  cipher : Block → Block
  iv : Block
  pos : Nat

abbrev Aes128CfbEnc := BufCfb
abbrev Aes128CfbDec := BufCfb

namespace BufCfb

def new (aes : Block → Block → Block) (key iv : Block) : BufCfb := ⟨aes key, aes key iv, 0⟩

def feed (s : BufCfb) (ct : UInt8) : BufCfb :=
  if s.pos + 1 = 16 then { s with iv := s.cipher (s.iv.set s.pos ct), pos := 0 }
  else { s with iv := s.iv.set s.pos ct, pos := s.pos + 1 }

def encryptByte (s : BufCfb) (byte : UInt8) : BufCfb × UInt8 :=
  let ct := byte ^^^ s.iv.get s.pos
  (s.feed ct, ct)

def decryptByte (s : BufCfb) (ct : UInt8) : BufCfb × UInt8 := (s.feed ct, ct ^^^ s.iv.get s.pos)

def encrypt : Transducer Aes128CfbEnc UInt8 := .symbolwise encryptByte

def decrypt : Transducer Aes128CfbDec UInt8 := .symbolwise decryptByte

variable {cipher : Block → Block} {iv : Block} {past : List UInt8} {s : BufCfb}

def After (cipher : Block → Block) (iv : Block) (past : List UInt8) (s : BufCfb) : Prop :=
  s.cipher = cipher ∧ ∃ front tail, past = front ++ tail ∧ front.length % 16 = 0 ∧
    tail.length < 16 ∧ s.pos = tail.length ∧
    s.iv.bytes = tail ++ (cipher (iv.register front)).bytes.drop tail.length

theorem After.start (aes : Block → Block → Block) (key iv : Block) :
    After (aes key) iv [] (new aes key iv) :=
  ⟨rfl, [], [], rfl, rfl, by decide, rfl, rfl⟩

theorem After.keystream (h : After cipher iv past s) :
    s.iv.get s.pos = Cfb.blockKeystream cipher iv past := by
  obtain ⟨-, front, tail, rfl, hfr, htl, hpos, hiv⟩ := h
  rw [Cfb.blockKeystream_append hfr htl, Block.get, Block.get, hiv, hpos,
    getD_eq_getElem?_getD, getD_eq_getElem?_getD,
    getElem?_append_right (Nat.le_refl _), Nat.sub_self, getElem?_drop, Nat.add_zero]

theorem After.feed (h : After cipher iv past s) (ct : UInt8) :
    After cipher iv (past ++ [ct]) (s.feed ct) := by
  obtain ⟨hcip, front, tail, rfl, hfr, htl, hpos, hiv⟩ := h
  have hset : (s.iv.set s.pos ct).bytes =
      (tail ++ [ct]) ++ (cipher (iv.register front)).bytes.drop (tail.length + 1) := by
    have hdr : (cipher (iv.register front)).bytes.drop tail.length ≠ [] := by
      rw [ne_eq, drop_eq_nil_iff, Block.length_eq]
      omega
    rw [Block.bytes_set, hiv, hpos, ← drop_drop]
    generalize (cipher (iv.register front)).bytes.drop tail.length = rest at hdr
    cases rest with
    | nil => exact absurd rfl hdr
    | cons byte rest => simp
  rw [BufCfb.feed]
  split
  · rename_i hfu
    have hblo : (tail ++ [ct]).length = 16 := by simp; omega
    have hreg : s.iv.set s.pos ct = iv.register (front ++ (tail ++ [ct])) := by
      apply Block.ext_bytes
      rw [Block.register_block iv hblo, hset, drop_of_length_le, append_nil]
      rw [Block.length_eq]
      omega
    refine ⟨hcip, front ++ (tail ++ [ct]), [], by simp, ?_, by decide, rfl, ?_⟩
    · rw [length_append, hblo]
      omega
    · rw [hreg, hcip]
      rfl
  · rename_i hpt
    refine ⟨hcip, front, tail ++ [ct], by simp, hfr, ?_, ?_, ?_⟩
    · simp only [length_append, length_singleton]
      omega
    · simp [hpos]
    · simpa using hset

theorem encrypts (cipher : Block → Block) (iv : Block) :
    Encrypts Cfb.xorMask (Cfb.blockKeystream cipher iv) encryptByte (After cipher iv) where
  output _ _ byte h := congrArg (byte ^^^ ·) h.keystream
  next _ _ _ h := h.feed _

theorem chunked_encrypt : encrypt.Chunked := Transducer.chunked_symbolwise

end BufCfb

def asBlock (bytes : List UInt8) : Option Block :=
  if h : bytes.length = 16 then some ⟨bytes, h⟩ else none

theorem asBlock_bytes (b : Block) : asBlock b.bytes = some b := dif_pos b.length_eq

def initAesCfb8 (aes : Block → Block → Block) (sharedSecret : List UInt8) :
    Except AuthError (Aes128CfbEnc × Aes128CfbDec) :=
  match asBlock sharedSecret with
  | some key => .ok (.new aes key key, .new aes key key)
  | none => .error (.encryptionSetupFailed s!"expected 16 bytes, got {sharedSecret.length}")

end Kojacoord
