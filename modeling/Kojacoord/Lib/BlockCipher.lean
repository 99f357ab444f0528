import Kojacoord.Lib.Feedback

namespace BlockCipher

structure Block where
  bytes : List UInt8
  length_eq : bytes.length = 16
deriving DecidableEq

namespace Block

theorem ext_bytes {a b : Block} (h : a.bytes = b.bytes) : a = b := by
  cases b
  cases h
  rfl

def get (b : Block) (i : Nat) : UInt8 := b.bytes.getD i 0

def set (b : Block) (i : Nat) (byte : UInt8) : Block :=
  ⟨b.bytes.set i byte, (List.length_set ..).trans b.length_eq⟩

theorem bytes_set (b : Block) (i : Nat) (byte : UInt8) :
    (b.set i byte).bytes = b.bytes.set i byte := rfl

theorem get_set_self (b : Block) (h : i < 16) (byte : UInt8) : (b.set i byte).get i = byte := by
  rw [get, bytes_set, List.getD_eq_getElem?_getD, List.getElem?_set_self (by rwa [b.length_eq])]
  rfl

theorem get_set_of_ne (b : Block) (h : i ≠ j) (byte : UInt8) :
    (b.set i byte).get j = b.get j := by
  rw [get, bytes_set, List.getD_eq_getElem?_getD, List.getElem?_set_ne h, get,
    List.getD_eq_getElem?_getD]

def fill (byte : UInt8) : Block := ⟨List.replicate 16 byte, List.length_replicate⟩

def ofList (bytes : List UInt8) : Block :=
  ⟨(List.range 16).map fun i => bytes.getD i 0, by simp⟩

def shift (b : Block) (byte : UInt8) : Block :=
  ⟨b.bytes.tail ++ [byte], by simp [b.length_eq]⟩

theorem get_shift (b : Block) (byte : UInt8) (h : i < 15) :
    (b.shift byte).get i = b.get (i + 1) := by
  have hlen : i < b.bytes.tail.length := by
    rw [List.length_tail, b.length_eq]
    exact h
  rw [get, get, shift, List.getD_eq_getElem?_getD, List.getElem?_append_left hlen,
    List.getElem?_tail, List.getD_eq_getElem?_getD]

def register (b : Block) (past : List UInt8) : Block := past.foldl shift b

theorem register_append (b : Block) (past : List UInt8) (byte : UInt8) :
    b.register (past ++ [byte]) = (b.register past).shift byte := by
  rw [register, List.foldl_append]
  rfl

theorem bytes_register (b : Block) (past : List UInt8) :
    (b.register past).bytes = (b.bytes ++ past).drop past.length := by
  induction past using List.reverseRecOn with
  | nil => simp [register]
  | append_singleton past byte ih =>
    have hle : past.length + 1 ≤ (b.bytes ++ past).length := by
      rw [List.length_append, b.length_eq]
      omega
    rw [register_append, shift]
    dsimp only
    rw [ih, List.tail_drop, ← List.append_assoc, List.length_append, List.length_singleton,
      List.drop_append_of_le_length hle]

theorem register_block (b : Block) (h : past.length = 16) (front : List UInt8) :
    (b.register (front ++ past)).bytes = past := by
  have hlen : (front ++ past).length = (b.bytes ++ front).length := by
    simp [b.length_eq, h, Nat.add_comm]
  rw [bytes_register, hlen, ← List.append_assoc, List.drop_left]

end Block

namespace Aes

def sboxRows : List Nat :=
  [0x637C777BF26B6FC53001672BFED7AB76, 0xCA82C97DFA5947F0ADD4A2AF9CA472C0,
   0xB7FD9326363FF7CC34A5E5F171D83115, 0x04C723C31896059A071280E2EB27B275,
   0x09832C1A1B6E5AA0523BD6B329E32F84, 0x53D100ED20FCB15B6ACBBE394A4C58CF,
   0xD0EFAAFB434D338545F9027F503C9FA8, 0x51A3408F929D38F5BCB6DA2110FFF3D2,
   0xCD0C13EC5F974417C4A77E3D645D1973, 0x60814FDC222A908846EEB814DE5E0BDB,
   0xE0323A0A4906245CC2D3AC629195E479, 0xE7C8376D8DD54EA96C56F4EA657AAE08,
   0xBA78252E1CA6B4C6E8DD741F4BBD8B8A, 0x703EB5664803F60E613557B986C11D9E,
   0xE1F8981169D98E949B1E87E9CE5528DF, 0x8CA1890DBFE6426841992D0FB054BB16]

def sbox (a : Nat) : Nat := sboxRows.getD (a / 16) 0 >>> (8 * (15 - a % 16)) % 256

def xtime (a : Nat) : Nat := if a < 128 then 2 * a else (2 * a) ^^^ 0x11B

def xorBytes : List Nat → List Nat → List Nat := List.zipWith (· ^^^ ·)

def shiftRows (s : List Nat) : List Nat :=
  [0, 5, 10, 15, 4, 9, 14, 3, 8, 13, 2, 7, 12, 1, 6, 11].map fun i => s.getD i 0

def mixColumns : List Nat → List Nat
  | a :: b :: c :: d :: rest =>
    (xtime a ^^^ (xtime b ^^^ b) ^^^ c ^^^ d) :: (a ^^^ xtime b ^^^ (xtime c ^^^ c) ^^^ d) ::
      (a ^^^ b ^^^ xtime c ^^^ (xtime d ^^^ d)) :: ((xtime a ^^^ a) ^^^ b ^^^ c ^^^ xtime d) ::
      mixColumns rest
  | _ => []

def keyWords : Nat → List Nat → List Nat → List Nat
  | 0, _, _ => []
  | n + 1, left, key =>
    xorBytes (key.take 4) left ++ keyWords n (xorBytes (key.take 4) left) (key.drop 4)

def nextKey (rcon : Nat) (key : List Nat) : List Nat :=
  keyWords 4 (xorBytes (((key.drop 12).map sbox).rotateLeft 1) [rcon, 0, 0, 0]) key

def rounds : Nat → Nat → List Nat → List Nat → List Nat
  | 0, rcon, key, s => xorBytes (shiftRows (s.map sbox)) (nextKey rcon key)
  | n + 1, rcon, key, s =>
    rounds n (xtime rcon) (nextKey rcon key)
      (xorBytes (mixColumns (shiftRows (s.map sbox))) (nextKey rcon key))

def encryptBlock (key s : Block) : Block :=
  let key := key.bytes.map UInt8.toNat
  .ofList ((rounds 9 1 key (xorBytes (s.bytes.map UInt8.toNat) key)).map UInt8.ofNat)

example : (encryptBlock (.ofList ((List.range 16).map UInt8.ofNat))
    (.ofList ((List.range 16).map fun i => UInt8.ofNat (17 * i)))).bytes =
    [0x69, 0xC4, 0xE0, 0xD8, 0x6A, 0x7B, 0x04, 0x30, 0xD8, 0xCD, 0xB7, 0x80, 0x70, 0xB4, 0xC5,
      0x5A] := by
  decide +kernel

end Aes

namespace Cfb
variable {cipher : Block → Block} {iv : Block}

def xorMask : Feedback.Mask UInt8 where
  apply x k := x ^^^ k
  apply_apply x k := by rw [UInt8.xor_assoc, UInt8.xor_self, UInt8.xor_zero]
  injective x k k' h := by simpa using h

def byteKeystream (cipher : Block → Block) (iv : Block) (past : List UInt8) : UInt8 :=
  (cipher (iv.register past)).get 0

def blockKeystream (cipher : Block → Block) (iv : Block) (past : List UInt8) : UInt8 :=
  (cipher (iv.register (past.take (past.length / 16 * 16)))).get (past.length % 16)

theorem blockKeystream_append (hfr : front.length % 16 = 0) (htl : tail.length < 16) :
    blockKeystream cipher iv (front ++ tail) = (cipher (iv.register front)).get tail.length := by
  have hwho : (front ++ tail).length / 16 * 16 = front.length := by
    rw [List.length_append]
    omega
  have hpt : (front ++ tail).length % 16 = tail.length := by
    rw [List.length_append]
    omega
  rw [blockKeystream, hwho, hpt, List.take_left]

theorem blockKeystream_first (htl : tail.length < 16) :
    blockKeystream cipher iv tail = (cipher iv).get tail.length := by
  have hnil : ([] : List UInt8).length % 16 = 0 := rfl
  have hfst : blockKeystream cipher iv ([] ++ tail) = (cipher (iv.register [])).get tail.length :=
    blockKeystream_append hnil htl
  rwa [List.nil_append] at hfst

end Cfb

end BlockCipher
