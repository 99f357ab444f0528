import Kojacoord.Lib.Keystream
import Kojacoord.Net.VarInt

namespace Kojacoord
open Keystream RoundTrip List

def maxFrame : Nat := 1 <<< 21

structure CipherState (σ τ : Type) where
  enc : σ
  dec : τ

structure MinecraftFrameCodec (σ τ : Type) where
  cipher : Option (CipherState σ τ)
  decrypted : Nat

structure FrameReader (σ τ : Type) where
  codec : MinecraftFrameCodec σ τ
  src : List UInt8

namespace FrameReader
variable {σ τ : Type}

def decryptNew (d : Transducer τ UInt8) (r : FrameReader σ τ) : FrameReader σ τ :=
  match r.codec.cipher with
  | none => r
  | some cipher =>
    if r.codec.decrypted < r.src.length then
      let result := d.run cipher.dec (r.src.drop r.codec.decrypted)
      ⟨⟨some { cipher with dec := result.1 }, r.src.length⟩,
        r.src.take r.codec.decrypted ++ result.2⟩
    else r

def invalidData (message : String) : IoErrorKind × String := (.invalidData, message)

def takeFrame (r : FrameReader σ τ) :
    FrameReader σ τ × Except (IoErrorKind × String) (Option (List UInt8)) :=
  match Decode.varInt r.src with
  | .error _ => (r, .ok none)
  | .ok (len, peek) =>
    let headerLen := r.src.length - peek.length
    let payloadLen := len.toInt.toNat
    if len < 0 then (r, .error (invalidData s!"negative frame length {len.toInt}"))
    else if payloadLen > maxFrame then
      (r, .error (invalidData s!"frame size {payloadLen} exceeds maximum {maxFrame}"))
    else if r.src.length < headerLen + payloadLen then (r, .ok none)
    else
      let consumed := headerLen + payloadLen
      (⟨{ r.codec with decrypted := r.codec.decrypted - consumed }, r.src.drop consumed⟩,
        .ok (some ((r.src.drop headerLen).take payloadLen)))

def decode (d : Transducer τ UInt8) (r : FrameReader σ τ) :
    FrameReader σ τ × Except (IoErrorKind × String) (Option (List UInt8)) :=
  (r.decryptNew d).takeFrame

def receive (r : FrameReader σ τ) (chunk : List UInt8) : FrameReader σ τ :=
  { r with src := r.src ++ chunk }

inductive Drains (d : Transducer τ UInt8) :
    FrameReader σ τ → List (List UInt8) → FrameReader σ τ → Prop
  | none : decode d r = (r', .ok none) → Drains d r [] r'
  | some : decode d r = (r', .ok (some frame)) → Drains d r' frames r'' →
      Drains d r (frame :: frames) r''

/-- Receiving chunks one by one, with `decode` called until it returns `None` after each, gives
these frames. -/
inductive Feeds (d : Transducer τ UInt8) :
    FrameReader σ τ → List (List UInt8) → List (List UInt8) → FrameReader σ τ → Prop
  | nil : Feeds d r [] [] r
  | cons : Drains d (r.receive chunk) frames r' → Feeds d r' chunks frames' r'' →
      Feeds d r (chunk :: chunks) (frames ++ frames') r''

end FrameReader

namespace MinecraftFrameCodec
variable {σ τ : Type}

def new (cipher : Option (CipherState σ τ)) : MinecraftFrameCodec σ τ := ⟨cipher, 0⟩

def encode (e : Transducer σ UInt8) (codec : MinecraftFrameCodec σ τ) (item dst : List UInt8) :
    MinecraftFrameCodec σ τ × List UInt8 :=
  let framed := encodeVarInt (.ofNat item.length) ++ item
  match codec.cipher with
  | none => (codec, dst ++ framed)
  | some cipher =>
    let result := e.run cipher.enc framed
    ({ codec with cipher := some { cipher with enc := result.1 } }, dst ++ result.2)

def encodeAll (e : Transducer σ UInt8) (codec : MinecraftFrameCodec σ τ)
    (payloads : List (List UInt8)) : MinecraftFrameCodec σ τ × List UInt8 :=
  payloads.foldl (fun acc item => encode e acc.1 item acc.2) (codec, [])

end MinecraftFrameCodec

def plainStream (payloads : List (List UInt8)) : List UInt8 := (payloads.map encodeFrame).flatten

theorem plainStream_cons : plainStream (p :: ps) = encodeFrame p ++ plainStream ps := rfl

theorem length_encodeFrame_pos : 0 < (encodeFrame p).length := by
  rw [encodeFrame, length_append]
  have := length_encodeVarInt_pos (.ofNat p.length)
  omega

theorem Decode.extends_u8 : Extends u8 := by
  intro s a t rest h
  cases s with
  | nil => cases h
  | cons byte s =>
    cases h
    rfl

theorem Decode.extends_varIntLoop (left : Nat) (result shift : UInt32) :
    Extends (varIntLoop left result shift) := by
  induction left generalizing result shift with
  | zero => exact .throw _
  | succ left ih =>
    refine extends_u8.bind fun byte => ?_
    refine .ite ?_ ?_
    · exact .bind (.throw _) fun _ => .ite (.pure _) (ih _ _)
    · exact .ite (.pure _) (ih _ _)

theorem Decode.extends_varInt : Extends varInt := extends_varIntLoop _ _ _

namespace FrameReader
variable {σ τ : Type} {r : FrameReader σ τ} {d : Transducer τ UInt8} {p part rest : List UInt8}

theorem not_ofNat_neg (h : n ≤ maxFrame) : ¬ Int32.ofNat n < 0 := by
  rw [Int32.lt_iff_toInt_lt, Reader.toInt_ofNat h]
  exact Int.not_lt.mpr (Int.natCast_nonneg _)

theorem takeFrame_frame (hp : p.length ≤ maxFrame) (hsrc : r.src = encodeFrame p ++ rest) :
    r.takeFrame = (⟨{ r.codec with decrypted := r.codec.decrypted - (encodeFrame p).length }, rest⟩,
      .ok (some p)) := by
  have hvar : Decode.varInt r.src = .ok (.ofNat p.length, p ++ rest) := by
    rw [hsrc, encodeFrame, append_assoc]
    exact Decode.reads_varInt _ _
  have hint : (Int32.ofNat p.length).toInt = p.length := Reader.toInt_ofNat hp
  have hneg : ¬ Int32.ofNat p.length < 0 := not_ofNat_neg hp
  have hhdr : r.src.length - (p ++ rest).length = (encodeVarInt (.ofNat p.length)).length := by
    rw [hsrc, encodeFrame, append_assoc, length_append]
    omega
  have hcon : (encodeVarInt (.ofNat p.length)).length + p.length = (encodeFrame p).length := by
    rw [encodeFrame, length_append]
  have heno : ¬ r.src.length < (encodeFrame p).length := by
    rw [hsrc, length_append]
    omega
  simp only [takeFrame, hvar, hint, Int.toNat_natCast, hhdr, hcon, if_neg hneg,
    if_neg (Nat.not_lt.mpr hp), if_neg heno]
  rw [hsrc, drop_left]
  simp [encodeFrame]

theorem takeFrame_part (hp : p.length ≤ maxFrame) (hpt : part.length < p.length)
    (hsrc : r.src = encodeVarInt (.ofNat p.length) ++ part) : r.takeFrame = (r, .ok none) := by
  have hvar : Decode.varInt r.src = .ok (.ofNat p.length, part) := by
    rw [hsrc]
    exact Decode.reads_varInt _ _
  have hint : (Int32.ofNat p.length).toInt = p.length := Reader.toInt_ofNat hp
  have hneg : ¬ Int32.ofNat p.length < 0 := not_ofNat_neg hp
  have hsh : r.src.length < r.src.length - part.length + p.length := by
    omega
  simp only [takeFrame, hvar, hint, Int.toNat_natCast, if_neg hneg,
    if_neg (Nat.not_lt.mpr hp), if_pos hsh]

theorem takeFrame_front (hp : p.length ≤ maxFrame) (hfrm : r.src ++ rest = encodeFrame p)
    (hrs : rest ≠ []) : r.takeFrame = (r, .ok none) := by
  rcases append_eq_append_iff.mp hfrm with ⟨more, hhdr, hmo⟩ | ⟨part, hsrc, hpt⟩
  · by_cases hnil : more = []
    · subst hnil
      rw [append_nil] at hhdr
      have hsrc : r.src = encodeVarInt (.ofNat p.length) ++ [] := by rw [hhdr, append_nil]
      apply takeFrame_part hp ?_ hsrc
      rw [← nil_append p, ← hmo]
      exact length_pos_iff.mpr hrs
    · have hrds : Reads Decode.varInt (r.src ++ more) _ := hhdr ▸ Decode.reads_varInt _
      obtain ⟨e, he⟩ := Decode.extends_varInt.error_of_front hrds hnil
      simp only [takeFrame, he]
  · apply takeFrame_part hp ?_ hsrc
    rw [hpt, length_append]
    have := length_pos_iff.mpr hrs
    omega

def Settled (r : FrameReader σ τ) : Prop :=
  r.codec.cipher.isSome → r.codec.decrypted = r.src.length

theorem Settled.decryptNew (h : r.Settled) : r.decryptNew d = r := by
  unfold FrameReader.decryptNew
  split
  · rfl
  · rename_i cipher hcip
    rw [if_neg]
    have := h (by rw [hcip]; rfl)
    omega

theorem Settled.drop (h : r.Settled) (n : Nat) :
    Settled ⟨{ r.codec with decrypted := r.codec.decrypted - n }, r.src.drop n⟩ := by
  intro hcip
  rw [length_drop, ← h hcip]

def plainOf (d : Transducer τ UInt8) : Option (CipherState σ τ) → List UInt8 → List UInt8
  | none, bytes => bytes
  | some cipher, bytes => (d.run cipher.dec bytes).2

def cipherAfter (d : Transducer τ UInt8) :
    Option (CipherState σ τ) → List UInt8 → Option (CipherState σ τ)
  | none, _ => none
  | some cipher, bytes => some { cipher with dec := (d.run cipher.dec bytes).1 }

theorem plainOf_nil (hd : d.Chunked) : plainOf d cipher [] = [] := by
  cases cipher with
  | none => rfl
  | some cipher => rw [plainOf, hd.nil]

theorem plainOf_append (hd : d.Chunked) : plainOf d cipher (xs ++ ys) =
    plainOf d cipher xs ++ plainOf d (cipherAfter d cipher xs) ys := by
  cases cipher with
  | none => rfl
  | some cipher => simp only [plainOf, cipherAfter, hd.append]

theorem Settled.receive (hd : d.Chunked) (h : r.Settled) (chunk : List UInt8) :
    let r' := (r.receive chunk).decryptNew d
    r'.Settled ∧ r'.src = r.src ++ plainOf d r.codec.cipher chunk ∧
      r'.codec.cipher = cipherAfter d r.codec.cipher chunk := by
  obtain ⟨⟨cipher, decrypted⟩, src⟩ := r
  cases cipher with
  | none =>
    refine ⟨?_, rfl, rfl⟩
    intro h
    simp [FrameReader.decryptNew, FrameReader.receive] at h
  | some cipher =>
    obtain rfl : decrypted = src.length := h rfl
    by_cases hchu : chunk = []
    · subst hchu
      simp [FrameReader.decryptNew, FrameReader.receive, plainOf, cipherAfter, hd.nil, Settled]
    · have hlt : src.length < (src ++ chunk).length := by
        rw [length_append]
        have := length_pos_iff.mpr hchu
        omega
      simp only [FrameReader.decryptNew, FrameReader.receive, if_pos hlt, drop_left, take_left]
      exact ⟨fun _ => by simp [d.length_run], rfl, rfl⟩

theorem Drains.of_decryptNew (hs : (r.decryptNew d).Settled)
    (h : Drains d (r.decryptNew d) frames r') : Drains d r frames r' := by
  have hdec : decode d (r.decryptNew d) = decode d r := by
    rw [decode, hs.decryptNew, decode]
  cases h with
  | none hno => exact .none (hdec ▸ hno)
  | some hso hrs => exact .some (hdec ▸ hso) hrs

structure Ready (r : FrameReader σ τ) (rest : List UInt8) (todo : List (List UInt8)) : Prop where
  settled : r.Settled
  stream : r.src ++ rest = plainStream todo

def Short (r : FrameReader σ τ) (todo : List (List UInt8)) : Prop :=
  ∀ p ∈ todo.head?, r.src.length < (encodeFrame p).length

theorem Ready.take (h : Ready r rest (p :: ps)) (hp : p.length ≤ maxFrame)
    (hlen : (encodeFrame p).length ≤ r.src.length) :
    ∃ r', decode d r = (r', .ok (some p)) ∧ Ready r' rest ps ∧
      r'.codec.cipher = r.codec.cipher := by
  have hstrm := h.stream
  obtain ⟨src, hsrc, haft⟩ : ∃ src, r.src = encodeFrame p ++ src ∧
      src ++ rest = plainStream ps := by
    rcases append_eq_append_iff.mp hstrm with ⟨more, hmo, htl⟩ | ⟨more, hmo, htl⟩
    · have hnil : more = [] := by
        rw [hmo, length_append] at hlen
        exact length_eq_zero_iff.mp (by omega)
      subst hnil
      exact ⟨[], by rw [hmo, append_nil, append_nil], htl⟩
    · exact ⟨more, hmo, htl.symm⟩
  have hdec : decode d r = r.takeFrame := by rw [decode, h.settled.decryptNew]
  refine ⟨_, hdec.trans (takeFrame_frame hp hsrc), ⟨?_, haft⟩, rfl⟩
  have hdr := h.settled.drop (encodeFrame p).length
  rwa [hsrc, drop_left] at hdr

theorem Ready.waits (h : Ready r rest (p :: ps)) (hp : p.length ≤ maxFrame)
    (hlen : r.src.length < (encodeFrame p).length) : decode d r = (r, .ok none) := by
  have hstrm := h.stream
  rw [decode, h.settled.decryptNew]
  rcases append_eq_append_iff.mp hstrm with ⟨more, hmo, -⟩ | ⟨more, hmo, -⟩
  · apply takeFrame_front hp hmo.symm
    rintro rfl
    rw [hmo, append_nil] at hlen
    exact Nat.lt_irrefl _ hlen
  · rw [hmo, length_append] at hlen
    omega

theorem Ready.drain (h : Ready r rest payloads) (hmax : ∀ p ∈ payloads, p.length ≤ maxFrame) :
    ∃ done todo r', payloads = done ++ todo ∧ Drains d r done r' ∧ Ready r' rest todo ∧
      r'.Short todo ∧ r'.codec.cipher = r.codec.cipher := by
  induction payloads generalizing r with
  | nil =>
    have hsrc : r.src = [] := (append_eq_nil_iff.mp h.stream).1
    refine ⟨[], [], r, rfl, .none ?_, h, by simp [Short], rfl⟩
    rw [decode, h.settled.decryptNew, takeFrame, hsrc]
    rfl
  | cons p ps ih =>
    obtain ⟨hp, hps⟩ := forall_mem_cons.mp hmax
    rcases Nat.lt_or_ge r.src.length (encodeFrame p).length with hlt | hle
    · refine ⟨[], p :: ps, r, rfl, .none (h.waits hp hlt), h, ?_, rfl⟩
      intro q hq
      cases hq
      exact hlt
    · obtain ⟨r₁, hdec, hrdy, hcip⟩ := h.take hp hle
      obtain ⟨done, todo, r', hspl, hdra, hrdy', hsh, hcip'⟩ := ih hrdy hps
      exact ⟨p :: done, todo, r', by rw [hspl, cons_append], .some hdec hdra,
        hrdy', hsh, hcip'.trans hcip⟩

theorem Ready.feed (hd : d.Chunked)
    (h : Ready r (plainOf d r.codec.cipher chunks.flatten) todo) (hsh : r.Short todo)
    (hmax : ∀ p ∈ todo, p.length ≤ maxFrame) :
    ∃ r', Feeds d r chunks todo r' ∧ r'.src = [] := by
  induction chunks generalizing r todo with
  | nil =>
    have hstrm := h.stream
    rw [flatten_nil, plainOf_nil hd, append_nil] at hstrm
    cases todo with
    | nil => exact ⟨r, .nil, hstrm⟩
    | cons p ps =>
      have hlt := hsh p rfl
      rw [hstrm, plainStream_cons, length_append] at hlt
      omega
  | cons chunk chunks ih =>
    obtain ⟨hset, hsrc, hcip⟩ := h.settled.receive hd chunk
    have hrdy : Ready ((r.receive chunk).decryptNew d)
        (plainOf d ((r.receive chunk).decryptNew d).codec.cipher chunks.flatten) todo := by
      refine ⟨hset, ?_⟩
      rw [hsrc, hcip, append_assoc, ← plainOf_append hd, ← flatten_cons]
      exact h.stream
    obtain ⟨done, later, r₁, rfl, hdra, hrdy₁, hsh₁, hcip₁⟩ := hrdy.drain hmax
    rw [← hcip₁] at hrdy₁
    obtain ⟨r₂, hfee, hemp⟩ := ih hrdy₁ hsh₁ fun p hp => hmax p (mem_append_right _ hp)
    exact ⟨r₂, .cons (hdra.of_decryptNew hset) hfee, hemp⟩

theorem Drains.unique (h : Drains d r frames r₁) (h' : Drains d r frames' r₂) :
    frames = frames' ∧ r₁ = r₂ := by
  induction h generalizing frames' with
  | none hno =>
    cases h' with
    | none hno' =>
      cases hno.symm.trans hno'
      exact ⟨rfl, rfl⟩
    | some hso' _ => cases hno.symm.trans hso'
  | some hso _ ih =>
    cases h' with
    | none hno' => cases hso.symm.trans hno'
    | some hso' hrs' =>
      cases hso.symm.trans hso'
      obtain ⟨rfl, rfl⟩ := ih hrs'
      exact ⟨rfl, rfl⟩

theorem Feeds.unique (h : Feeds d r chunks frames r₁) (h' : Feeds d r chunks frames' r₂) :
    frames = frames' ∧ r₁ = r₂ := by
  induction h generalizing frames' with
  | nil =>
    cases h'
    exact ⟨rfl, rfl⟩
  | cons hdra _ ih =>
    cases h' with
    | cons hdra' hfee' =>
      obtain ⟨rfl, rfl⟩ := hdra.unique hdra'
      obtain ⟨rfl, rfl⟩ := ih hfee'
      exact ⟨rfl, rfl⟩

end FrameReader

namespace MinecraftFrameCodec
variable {σ τ : Type} {e : Transducer σ UInt8}

theorem encodeAll_append : encodeAll e codec (payloads ++ [p]) =
    encode e (encodeAll e codec payloads).1 p (encodeAll e codec payloads).2 := by
  rw [encodeAll, foldl_append, foldl_cons, foldl_nil]
  rfl

theorem encodeAll_plain : encodeAll e (⟨none, n⟩ : MinecraftFrameCodec σ τ) payloads =
    (⟨none, n⟩, plainStream payloads) := by
  induction payloads using List.reverseRecOn with
  | nil => rfl
  | append_singleton payloads p ih =>
    rw [encodeAll_append, ih]
    simp [encode, plainStream, encodeFrame]

variable {payloads : List (List UInt8)}

theorem encodeAll_runAll (cipher : CipherState σ τ) (n : Nat) :
    encodeAll e ⟨some cipher, n⟩ payloads =
      (⟨some { cipher with enc := (e.runAll cipher.enc (payloads.map encodeFrame)).1 }, n⟩,
        (e.runAll cipher.enc (payloads.map encodeFrame)).2) := by
  induction payloads using List.reverseRecOn with
  | nil => rfl
  | append_singleton payloads p ih =>
    rw [encodeAll_append, ih]
    simp [encode, Transducer.runAll, encodeFrame]

/-- The sender's and the receiver's cipher: both off, or the one undoing the other. -/
def Paired (e : Transducer σ UInt8) (d : Transducer τ UInt8) :
    Option (CipherState σ τ) → Option (CipherState σ τ) → Prop
  | none, none => True
  | some sender, some receiver => d.Undoes receiver.dec e sender.enc
  | _, _ => False

theorem Paired.plainOf_encodeAll {d : Transducer τ UInt8} (he : e.Chunked)
    (h : Paired e d sender receiver) :
    FrameReader.plainOf d receiver (encodeAll e (.new sender) payloads).2 =
      plainStream payloads := by
  cases sender with
  | none =>
    cases receiver with
    | none => rw [new, encodeAll_plain, FrameReader.plainOf]
    | some receiver => cases h
  | some sender =>
    cases receiver with
    | none => cases h
    | some receiver =>
      rw [new, encodeAll_runAll, he.runAll]
      exact h (plainStream payloads)

/-- Whatever the payloads, and wherever their encodings are cut, the decoder gives them back in
order and is left with nothing. -/
theorem frame_stream_round_trip (e : Transducer σ UInt8) (d : Transducer τ UInt8)
    (he : e.Chunked) (hd : d.Chunked) (hpaired : Paired e d sender receiver)
    (payloads chunks : List (List UInt8)) (hmax : ∀ p ∈ payloads, p.length ≤ 2 * 1024 * 1024)
    (hcut : chunks.flatten = (encodeAll e (.new sender) payloads).2) :
    ∃ r, FrameReader.Feeds d ⟨.new receiver, []⟩ chunks payloads r ∧ r.src = [] ∧
      ∀ frames r', FrameReader.Feeds d ⟨.new receiver, []⟩ chunks frames r' →
        frames = payloads ∧ r' = r := by
  have hready : FrameReader.Ready ⟨.new receiver, []⟩
      (FrameReader.plainOf d receiver chunks.flatten) payloads := by
    refine ⟨fun _ => rfl, ?_⟩
    rw [hcut, hpaired.plainOf_encodeAll he, nil_append]
  obtain ⟨r, hfeeds, hempty⟩ :=
    hready.feed hd (fun p _ => length_encodeFrame_pos) hmax
  exact ⟨r, hfeeds, hempty, fun frames r' h => h.unique hfeeds⟩

def masked : Transducer Unit UInt8 where
  run _ bytes := ((), bytes.map (· ^^^ 0x55))
  length_run _ _ := length_map _

theorem frame_stream_round_trip_masked :
    ∃ r, FrameReader.Feeds masked ⟨.new (some ⟨(), ()⟩), []⟩
      [[0x57], [], [0x54, 0x57, 0x55]] [[1, 2], []] r ∧ r.src = [] := by
  have hchunked : masked.Chunked := ⟨fun _ => rfl, by simp [masked]⟩
  have hpaired : Paired masked masked (some ⟨(), ()⟩) (some ⟨(), ()⟩) := by
    intro bytes
    simp [masked, UInt8.xor_assoc, Function.comp_def]
  obtain ⟨r, hfeeds, hempty, -⟩ := frame_stream_round_trip masked masked hchunked hchunked hpaired
    [[1, 2], []] [[0x57], [], [0x54, 0x57, 0x55]] (by decide) (by decide)
  exact ⟨r, hfeeds, hempty⟩

end MinecraftFrameCodec

end Kojacoord
