import Kojacoord.Net.PacketRoundTrip
import Kojacoord.Net.VarIntReaders

namespace Kojacoord.Realms
open Journal List

inductive WireStop where
  | elapsed
  | failed (kind : IoErrorKind) (message : String)
  | panicked
deriving DecidableEq

/-- The stream that is read from, with the sizes of all buffers that were asked for before there was
anything to put in. -/
structure Wire where
  stream : McStream
  requests : List Nat

abbrev WireM := ExceptT WireStop (StateM Wire)

def WireM.lift (asIo : ConnectionError → IoErrorKind × String) (x : Reader α) : WireM α := fun s =>
  match x.run s.stream with
  | (.ok a, stream) => (.ok a, { s with stream })
  | (.error (.failed e), stream) => (.error (.failed (asIo e).1 (asIo e).2), { s with stream })
  | (.error .elapsed, stream) => (.error .elapsed, { s with stream })

def WireM.isizeMax : Nat := 2 ^ 63 - 1

def WireM.allocate (n : Nat) : WireM Unit := fun s =>
  (if n ≤ isizeMax then .ok () else .error .panicked, { s with requests := s.requests ++ [n] })

def ioErr (message : String) : IoErrorKind × String := (.invalidData, message)

def streamError : ConnectionError → IoErrorKind × String
  | .io kind message => (kind, message)
  | e => (.other, e.display)

def takeVarint (buf : List UInt8) : WireM (Int32 × List UInt8) :=
  match Decode.varInt buf with
  | .ok result => return result
  | .error e => throw (.failed .invalidData e.display)

structure Packet where
  id : Int32
  body : List UInt8
deriving DecidableEq

def frameBody (deflate : Deflate) (compression : Option Int32) (payload : List UInt8) :
    List UInt8 :=
  match compression with
  | none => payload
  | some threshold =>
    if max threshold 0 ≤ Int32.ofNat payload.length ∧ 0 ≤ threshold then
      encodeVarInt (Int32.ofNat payload.length) ++ deflate payload
    else encodeVarInt 0 ++ payload

def writePacket (deflate : Deflate) (compression : Option Int32) (id : Int32)
    (data : List UInt8) : List UInt8 :=
  encodeFrame (frameBody deflate compression (encodeVarInt id ++ data))

def zlibDecompress (inflate : Reader.Inflate) (data : List UInt8) (expected : Nat) :
    WireM (List UInt8) := do
  WireM.allocate expected
  match inflate data with
  | (out, none) => return out
  | (_, some kind) => throw (.failed kind "")

def openFrame (inflate : Reader.Inflate) (compression : Option Int32) (frame : List UInt8) :
    WireM (List UInt8) :=
  match compression with
  | none => return frame
  | some _ => do
    let (dataLen, cur) ← takeVarint frame
    if Decode.asUsize dataLen = 0 then return cur
    else zlibDecompress inflate cur (Decode.asUsize dataLen)

def takePacket (payload : List UInt8) : WireM Packet := do
  let (id, body) ← takeVarint payload
  return ⟨id, body⟩

def readPacket (inflate : Reader.Inflate) (compression : Option Int32) : WireM Packet := do
  let len := Decode.asUsize (← WireM.lift (fun e => ioErr e.display) Reader.readVarint)
  if len = 0 then throw (.failed .invalidData "zero-length frame")
  WireM.allocate len
  let frame ← WireM.lift streamError (Reader.readExact len)
  takePacket (← openFrame inflate compression frame)

def Calm (result : Except WireStop α × Wire) : Prop :=
  result.1 ≠ .error .panicked ∧ ∀ n ∈ result.2.requests, n ≤ 2 ^ 31 - 1

def negativeSize (frame : List UInt8) : Bool := negative frame && !overlong frame

/-- What of a stream a packet can be made of without harm: its length is not negative, nor is that
of the data in a complete frame that may be compressed. -/
def Harmless (compression : Option Int32) (bytes : List UInt8) : Prop :=
  negative bytes = false ∧
    (compression.isSome → ∀ len rest, Reader.varint bytes = some (len, rest) →
      Decode.asUsize len ≤ rest.length → negativeSize (rest.take (Decode.asUsize len)) = false)

theorem asUsize_of_neg (h : v < 0) : WireM.isizeMax < Decode.asUsize v := by
  have hlow := v.le_toInt
  rw [Int32.lt_iff_toInt_lt] at h
  change v.toInt < 0 at h
  rw [Decode.asUsize, WireM.isizeMax]
  omega

theorem asUsize_le_of_nonneg (h : ¬ v < 0) : Decode.asUsize v ≤ 2 ^ 31 - 1 := by
  have hhi := v.toInt_lt
  rw [Int32.lt_iff_toInt_lt] at h
  change ¬ v.toInt < 0 at h
  rw [Decode.asUsize]
  omega

theorem neg_iff_negativeSize (h : Decode.varInt frame = .ok (v, rest)) :
    v < 0 ↔ negativeSize frame = true := by
  obtain ⟨hover, hvar⟩ := Decode.varInt_eq_ok.mp h
  rw [Reader.varint_neg_iff hvar, negativeSize, hover, Bool.not_false, Bool.and_true]

theorem negativeSize_of_error (h : Decode.varInt frame = .error e) :
    negativeSize frame = false := by
  rcases Decode.varInt_eq_error h with hover | hvar
  · rw [negativeSize, hover, Bool.not_true, Bool.and_false]
  · rw [negativeSize, Reader.negative_of_varint_none hvar, Bool.false_and]

theorem harmless_of_none (h : Reader.varint bytes = none) : Harmless compression bytes := by
  refine ⟨Reader.negative_of_varint_none h, ?_⟩
  intro _ len rest hso
  rw [h] at hso
  cases hso

theorem harmless_iff (h : Reader.varint bytes = some (v, rest)) :
    Harmless compression bytes ↔ ¬ v < 0 ∧ (Decode.asUsize v ≤ rest.length →
      compression.isSome → negativeSize (rest.take (Decode.asUsize v)) = false) := by
  rw [Harmless, Reader.varint_neg_iff h, Bool.not_eq_true, h]
  refine and_congr_right fun _ => ⟨?_, ?_⟩
  · intro hfrm hlen hso
    exact hfrm hso v rest rfl hlen
  · intro hfrm hso len rest' heq hlen
    cases heq
    exact hfrm hlen hso

section Calm
variable {inflate : Reader.Inflate} {compression : Option Int32} {s t : Wire} {n : Nat}

theorem run_lift_ok {x : Reader α}
    (h : x.run s.stream = (.ok a, u)) :
    (WireM.lift asIo x).run s = (.ok a, { s with stream := u }) := by
  change WireM.lift asIo x s = _
  rw [WireM.lift, h]

theorem run_lift_failed {x : Reader α}
    (h : x.run s.stream = (.error (.failed e), u)) :
    (WireM.lift asIo x).run s =
      (.error (.failed (asIo e).1 (asIo e).2), { s with stream := u }) := by
  change WireM.lift asIo x s = _
  rw [WireM.lift, h]

theorem run_allocate (h : n ≤ WireM.isizeMax) :
    (WireM.allocate n).run s = (.ok (), { s with requests := s.requests ++ [n] }) :=
  congrArg (·, _) (if_pos h)

theorem run_allocate_panicked (h : WireM.isizeMax < n) :
    (WireM.allocate n).run s = (.error .panicked, { s with requests := s.requests ++ [n] }) :=
  congrArg (·, _) (if_neg (Nat.not_le.mpr h))

namespace Calm

def Modest (s : Wire) : Prop := ∀ n ∈ s.requests, n ≤ 2 ^ 31 - 1

theorem of_failed {x : WireM α} {f : α → WireM β} (hs : Modest t)
    (h : x.run s = (.error (.failed kind message), t)) : Calm ((x >>= f).run s) := by
  rw [run_bind_error f h]
  exact ⟨by simp, hs⟩

theorem iff_of_ok {x : WireM α} {f : α → WireM β} (h : x.run s = (.ok a, t)) :
    Calm ((x >>= f).run s) ↔ Calm ((f a).run t) := by
  rw [run_bind_ok f h]

theorem modest_append (hs : Modest s) (h : n ≤ 2 ^ 31 - 1) :
    Modest { s with requests := s.requests ++ [n] } := by
  intro m hm
  rcases mem_append.mp hm with hm | hm
  · exact hs m hm
  · rw [mem_singleton.mp hm]
    exact h

theorem allocate_iff {f : Unit → WireM α} (hs : Modest s)
    (hf : ∀ t, Modest t → t.stream = s.stream → (Calm ((f ()).run t) ↔ P)) :
    Calm ((WireM.allocate (Decode.asUsize v) >>= f).run s) ↔ ¬ v < 0 ∧ P := by
  by_cases hneg : v < 0
  · rw [run_bind_error f (run_allocate_panicked (asUsize_of_neg hneg))]
    exact ⟨fun hcalm => absurd rfl hcalm.1, fun h => absurd hneg h.1⟩
  · have hsz := asUsize_le_of_nonneg hneg
    rw [iff_of_ok (run_allocate (Nat.le_trans hsz (by decide))),
      hf _ (modest_append hs hsz) rfl, and_iff_right hneg]

theorem of_takePacket (hs : Modest s) : Calm ((takePacket payload).run s) := by
  rw [takePacket, takeVarint]
  split
  · refine ⟨?_, hs⟩
    intro hpan
    cases hpan
  · exact of_failed hs rfl

theorem frame_iff (hs : Modest s) :
    Calm ((openFrame inflate compression frame >>= takePacket).run s) ↔
      (compression.isSome → negativeSize frame = false) := by
  cases compression with
  | none => exact ⟨fun _ h => absurd h Bool.false_ne_true, fun _ => of_takePacket hs⟩
  | some threshold =>
    simp only [openFrame, bind_assoc, takeVarint, Option.isSome_some, forall_const]
    cases hdec : Decode.varInt frame with
    | error e =>
      exact iff_of_true (of_failed hs rfl) (negativeSize_of_error hdec)
    | ok result =>
      obtain ⟨v, cur⟩ := result
      have hneg := neg_iff_negativeSize hdec
      rw [pure_bind]
      dsimp only
      split
      · rename_i hz
        refine iff_of_true (of_takePacket hs) ?_
        rw [← Bool.not_eq_true, ← hneg]
        intro h
        have hlar := asUsize_of_neg h
        omega
      · rw [zlibDecompress, bind_assoc, allocate_iff hs (P := True), and_true, hneg,
          Bool.not_eq_true]
        intro t ht _
        refine iff_true_intro ?_
        split
        · exact of_takePacket ht
        · exact of_failed ht rfl

end Calm
end Calm

namespace Calm
variable {inflate : Reader.Inflate} {compression : Option Int32} {s : Wire}

theorem rest_iff (hs : Modest s) (hflo : s.stream.Flowing) (v : Int32) :
    Calm ((WireM.lift streamError (Reader.readExact (Decode.asUsize v)) >>= fun frame =>
      openFrame inflate compression frame >>= takePacket).run s) ↔
      (Decode.asUsize v ≤ s.stream.available.length → compression.isSome →
        negativeSize (s.stream.available.take (Decode.asUsize v)) = false) := by
  by_cases hlen : Decode.asUsize v ≤ s.stream.available.length
  · obtain ⟨u, hrun, -, -⟩ := Reader.readExact_flowing hflo hlen
    have hmod : Modest ⟨u, s.requests⟩ := hs
    rw [iff_of_ok (run_lift_ok hrun), frame_iff hmod]
    simp only [hlen, true_imp_iff]
  · obtain ⟨u, hrun, -⟩ := Reader.readExact_end hflo (Nat.not_le.mp hlen)
    have hmod : Modest ⟨u, s.requests⟩ := hs
    exact iff_of_true (of_failed hmod (run_lift_failed hrun)) (absurd · hlen)

end Calm

open Calm in
/-- A read of a packet is calm exactly if the bytes that arrive are harmless. -/
theorem read_packet_calm_iff (inflate : Reader.Inflate) (compression : Option Int32)
    (s : McStream) (hs : s.Flowing) :
    Calm ((readPacket inflate compression).run ⟨s, []⟩) ↔ Harmless compression s.available := by
  have hmodest : ∀ u, Modest ⟨u, []⟩ := by
    intro u n hn
    cases hn
  rw [readPacket]
  cases hvarint : Reader.varint s.available with
  | none =>
    obtain ⟨e, u, hrun⟩ := Reader.follows_readVarint.fails s hs hvarint
    exact iff_of_true (of_failed (hmodest u) (run_lift_failed hrun)) (harmless_of_none hvarint)
  | some result =>
    obtain ⟨v, rest⟩ := result
    obtain ⟨u, hrun, hu, rfl⟩ := Reader.follows_readVarint.takes s v rest hs hvarint
    rw [iff_of_ok (run_lift_ok hrun), harmless_iff hvarint]
    dsimp only
    split
    · rename_i hzero
      -- An empty frame is refused before anything is asked for.
      refine iff_of_true (of_failed (hmodest u) rfl) ⟨?_, ?_⟩
      · intro h
        have hlarge := asUsize_of_neg h
        omega
      · rw [hzero]
        intro _ _
        rfl
    · apply allocate_iff (hmodest u)
      intro t ht hstream
      obtain rfl : t.stream = u := hstream
      exact rest_iff ht hu v

theorem read_packet_calm_short :
    Calm ((readPacket (·, none) (some 256)).run ⟨.plain [.bytes 0x03 [0x00, 0x01, 0x2A]], []⟩) := by
  have hflowing : McStream.Flowing (.plain [.bytes 0x03 [0x00, 0x01, 0x2A]]) := by
    simp [McStream.Flowing, McStream.plain]
  have hvarint : Reader.varint [0x03, 0x00, 0x01, 0x2A] = some (3, [0x00, 0x01, 0x2A]) := by decide
  exact (read_packet_calm_iff (·, none) (some 256) _ hflowing).mpr
    ((harmless_iff hvarint).mpr (by decide))

/-- A frame of length -1, and one in a frame of six bytes that says this of its data. -/
theorem read_packet_panics :
    ((readPacket (·, none) none).run
      ⟨.plain [.bytes 0xFF [0xFF, 0xFF, 0xFF, 0x0F]], []⟩).1 = .error .panicked ∧
    ((readPacket (·, none) (some 256)).run
      ⟨.plain [.bytes 0x06 [0xFF, 0xFF, 0xFF, 0xFF, 0x0F, 0x00]], []⟩).1 = .error .panicked := by
  decide +kernel

def SameSetting (compression : Option Int32) (threshold : Int32) : Prop :=
  match compression with
  | none => threshold < 0
  | some t => 0 ≤ t ∧ threshold = t

section Framing
variable {inflate : Reader.Inflate} {deflate : Deflate} {compression : Option Int32}
  {threshold : Int32} {payload frame : List UInt8} {s : Wire}

theorem takeVarint_encodeVarInt : takeVarint (encodeVarInt v ++ rest) = pure (v, rest) := by
  rw [takeVarint, Decode.reads_varInt]

theorem takePacket_encodeVarInt (id : Int32) (body : List UInt8) :
    takePacket (encodeVarInt id ++ body) = pure ⟨id, body⟩ := by
  rw [takePacket, takeVarint_encodeVarInt, pure_bind]

theorem frameBody_ne_nil (hne : payload ≠ []) : frameBody deflate compression payload ≠ [] := by
  have hmkd : ∀ v rest, encodeVarInt v ++ rest ≠ [] := by
    intro v rest h
    exact ne_nil_of_length_pos (length_encodeVarInt_pos v) (append_eq_nil_iff.mp h).1
  cases compression with
  | none => exact hne
  | some threshold =>
    rw [frameBody]
    split
    · exact hmkd _ _
    · exact hmkd _ _

variable {compression : Option Int32}

theorem run_openFrame (hzlib : Inverts inflate deflate) (hne : payload ≠ [])
    (hpay : payload.length ≤ Reader.maxPacketSize) :
    ∃ requests, (openFrame inflate compression (frameBody deflate compression payload)).run s =
      (.ok payload, { s with requests }) := by
  cases compression with
  | none => exact ⟨s.requests, rfl⟩
  | some threshold =>
    rw [openFrame, frameBody]
    split
    · have hpos := length_pos_iff.mpr hne
      have hmax : payload.length ≤ WireM.isizeMax := Nat.le_trans hpay (by decide)
      rw [takeVarint_encodeVarInt, pure_bind]
      simp only [Reader.asUsize_ofNat hpay, if_neg (Nat.ne_of_gt hpos), zlibDecompress]
      rw [run_bind_ok _ (run_allocate hmax), hzlib payload]
      exact ⟨_, rfl⟩
    · rw [takeVarint_encodeVarInt, pure_bind]
      exact ⟨s.requests, rfl⟩

theorem run_readPacket (inflate : Reader.Inflate)
    (hne : frame ≠ []) (hfrm : frame.length ≤ Reader.maxPacketSize)
    (hs : s.stream.Flowing) (h : s.stream.available = encodeFrame frame ++ suffix) :
    ∃ t : Wire, (readPacket inflate compression).run s =
        (openFrame inflate compression frame >>= takePacket).run t ∧
      t.stream.Flowing ∧ t.stream.available = suffix := by
  have hpos := length_pos_iff.mpr hne
  have hmax : frame.length ≤ WireM.isizeMax := Nat.le_trans hfrm (by decide)
  rw [encodeFrame, append_assoc] at h
  obtain ⟨t, hlen, ht, hrs⟩ := Reader.takes_readVarint _ s.stream _ hs h
  obtain ⟨u, hbd, hu, hsuf⟩ := Reader.takes_readExact frame t suffix ht hrs
  rw [readPacket, run_bind_ok _ (run_lift_ok hlen)]
  simp only [Reader.asUsize_ofNat hfrm, if_neg (Nat.ne_of_gt hpos)]
  rw [run_bind_ok _ (run_allocate hmax)]
  exact ⟨_, run_bind_ok _ (run_lift_ok hbd), hu, hsuf⟩

theorem takes_frameBody (hzlib : Inverts inflate deflate) (hne : payload ≠ [])
    (hpay : payload.length ≤ Reader.maxPacketSize)
    (hset : SameSetting compression threshold)
    (hfrm : (frameBody deflate compression payload).length ≤ Reader.maxPacketSize) :
    (Reader.readPacket inflate threshold).Takes
      (encodeFrame (frameBody deflate compression payload)) payload := by
  apply Reader.takes_readPacket_body hfrm
  cases compression with
  | none => exact if_neg (Int32.not_le.mpr hset)
  | some t =>
    obtain ⟨hnon, rfl⟩ := hset
    rw [if_pos hnon, frameBody]
    split
    · exact Reader.decompress_deflated hzlib hne hpay
    · exact Reader.decompress_stored inflate payload

end Framing

/-- Both readers get back what the realm client writes, whatever follows it. -/
theorem realm_framing (inflate : Reader.Inflate) (deflate : Deflate)
    (hzlib : Inverts inflate deflate) (compression : Option Int32) (threshold : Int32)
    (hsetting : SameSetting compression threshold) (id : Int32) (body : List UInt8)
    (hpacket : (encodeVarInt id ++ body).length ≤ 2 * 1024 * 1024)
    (hframe : (frameBody deflate compression (encodeVarInt id ++ body)).length ≤ 2 * 1024 * 1024) :
    ∀ s suffix, s.Flowing → s.available = writePacket deflate compression id body ++ suffix →
      (∃ t, (readPacket inflate compression).run ⟨s, []⟩ = (.ok ⟨id, body⟩, t) ∧
        t.stream.Flowing ∧ t.stream.available = suffix) ∧
      ∃ t, (Reader.readPacket inflate threshold).run s = (.ok (encodeVarInt id ++ body), t) ∧
        t.Flowing ∧ t.available = suffix := by
  have hne : encodeVarInt id ++ body ≠ [] :=
    append_ne_nil_of_left_ne_nil (ne_nil_of_length_pos (length_encodeVarInt_pos id)) body
  intro s suffix hs havailable
  refine ⟨?_, takes_frameBody hzlib hne hpacket hsetting hframe s suffix hs havailable⟩
  obtain ⟨t, hrun, ht, hsuffix⟩ :=
    run_readPacket (s := ⟨s, []⟩) inflate (frameBody_ne_nil hne) hframe hs havailable
  obtain ⟨requests, hopen⟩ := run_openFrame (s := t) hzlib hne hpacket
  rw [hrun, run_bind_ok _ hopen, takePacket_encodeVarInt]
  exact ⟨_, rfl, ht, hsuffix⟩

theorem realm_framing_short :
    (∃ t, (readPacket (·, none) (some 256)).run
        ⟨.plain [.bytes 0x03 [0x00], .bytes 0x10 [0x07, 0x2A]], []⟩ = (.ok ⟨0x10, [0x07]⟩, t) ∧
      t.stream.Flowing ∧ t.stream.available = [0x2A]) ∧
    ∃ t, (Reader.readPacket (·, none) 256).run
        (.plain [.bytes 0x03 [0x00], .bytes 0x10 [0x07, 0x2A]]) = (.ok [0x10, 0x07], t) ∧
      t.Flowing ∧ t.available = [0x2A] := by
  have hflowing : McStream.Flowing (.plain [.bytes 0x03 [0x00], .bytes 0x10 [0x07, 0x2A]]) := by
    simp [McStream.Flowing, McStream.plain]
  exact realm_framing (·, none) id (fun _ => rfl) (some 256) 256 ⟨by decide, rfl⟩ 0x10 [0x07]
    (by decide) (by decide) _ [0x2A] hflowing (by decide)

end Kojacoord.Realms
