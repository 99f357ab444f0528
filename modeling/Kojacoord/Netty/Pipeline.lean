import Kojacoord.Net.PacketRoundTrip
import Kojacoord.Net.VarIntReaders

namespace Kojacoord
open Journal List

/-- Why a handler fails. What a zlib stream is wrong with is given by the kind of the decoder's
error, in place of its text. -/
inductive HandlerError where
  | compression (kind : IoErrorKind)
  | protocol (error : ProtocolError)
  | invalidDataLength (length : Int32)

structure ChannelContext where
  compressionThreshold : Int32
  protocolVersion : UInt32
deriving DecidableEq

abbrev HandlerM := ExceptT HandlerError (StateM ChannelContext)

structure ChannelHandler where
  name : String
  handleInbound : List UInt8 → HandlerM (Option (List UInt8))
  handleOutbound : List UInt8 → HandlerM (Option (List UInt8))

namespace CompressionHandler

def maxUncompressed : Nat := 32 * 1024 * 1024

def handleInbound (inflate : Reader.Inflate) (data : List UInt8) :
    HandlerM (Option (List UInt8)) :=
  match Decode.varInt data with
  | .error e => throw (.protocol e)
  | .ok (dataLen, cursor) =>
    if dataLen = 0 then return some cursor
    else if dataLen < 0 ∨ Decode.asUsize dataLen > maxUncompressed then
      throw (.invalidDataLength dataLen)
    else
      match inflate cursor with
      | (decompressed, none) => return some decompressed
      | (_, some kind) => throw (.compression kind)

def handleOutbound (deflate : Deflate) (data : List UInt8) : HandlerM (Option (List UInt8)) := do
  let threshold := (← get).compressionThreshold
  if threshold < 0 then return some data
  else if Int32.ofNat data.length < threshold then return some (encodeVarInt 0 ++ data)
  else return some (encodeVarInt (Int32.ofNat data.length) ++ deflate data)

end CompressionHandler

def compressionHandler (inflate : Reader.Inflate) (deflate : Deflate) : ChannelHandler where
  name := "compression"
  handleInbound := CompressionHandler.handleInbound inflate
  handleOutbound := CompressionHandler.handleOutbound deflate

structure ChannelPipeline where
  handlers : List ChannelHandler
  ctx : ChannelContext

namespace ChannelPipeline

def new (protocolVersion : UInt32) : ChannelPipeline := ⟨[], ⟨-1, protocolVersion⟩⟩

def addLast (p : ChannelPipeline) (handler : ChannelHandler) : ChannelPipeline :=
  { p with handlers := p.handlers ++ [handler] }

def process : List (List UInt8 → HandlerM (Option (List UInt8))) → List UInt8 →
    HandlerM (Option (List UInt8))
  | [], data => return some data
  | handle :: rest, data => do
    match ← handle data with
    | some data => process rest data
    | none => return none

def processInbound (p : ChannelPipeline) (data : List UInt8) :
    Except HandlerError (Option (List UInt8)) × ChannelPipeline :=
  let result := (process (p.handlers.map (·.handleInbound)) data).run p.ctx
  (result.1, { p with ctx := result.2 })

def processOutbound (p : ChannelPipeline) (data : List UInt8) :
    Except HandlerError (Option (List UInt8)) × ChannelPipeline :=
  let result := (process (p.handlers.reverse.map (·.handleOutbound)) data).run p.ctx
  (result.1, { p with ctx := result.2 })

def enableCompression (p : ChannelPipeline) (threshold : Int32) : ChannelPipeline :=
  { p with ctx := { p.ctx with compressionThreshold := threshold } }

def Restores (p : ChannelPipeline) (data : List UInt8) : Prop :=
  ∃ wire q, p.processOutbound data = (.ok (some wire), q) ∧
    (q.processInbound wire).1 = .ok (some data)

end ChannelPipeline

structure ChannelHandler.Transparent (h : ChannelHandler) : Prop where
  inbound : h.handleInbound = fun data => pure (some data)
  outbound : h.handleOutbound = fun data => pure (some data)

namespace ChannelPipeline

variable {p q : ChannelPipeline} {h : ChannelHandler} {handlers : List ChannelHandler}

section Process
variable {front back : List ChannelHandler} {h : ChannelHandler} {ctx : ChannelContext}
  (side : ChannelHandler → List UInt8 → HandlerM (Option (List UInt8)))

theorem process_pass (hps : ∀ g ∈ handlers, side g = fun data => pure (some data))
    (rest : List (List UInt8 → HandlerM (Option (List UInt8)))) (data : List UInt8) :
    process (handlers.map side ++ rest) data = process rest data := by
  induction handlers with
  | nil => rfl
  | cons g handlers ih =>
    rw [map_cons, cons_append, process, hps g mem_cons_self, pure_bind]
    exact ih fun g' hg' => hps g' (mem_cons_of_mem g hg')

theorem process_eq (hfr : ∀ g ∈ front, side g = fun data => pure (some data))
    (hbk : ∀ g ∈ back, side g = fun data => pure (some data)) (data : List UInt8) :
    process ((front ++ h :: back).map side) data = side h data := by
  rw [map_append, process_pass side hfr, map_cons, process]
  refine (bind_congr fun result => ?_).trans (bind_pure _)
  cases result with
  | none => rfl
  | some data =>
    have hrs := process_pass side hbk [] data
    rwa [append_nil] at hrs

theorem processInbound_eq (hps : ∀ g ∈ front ++ back, g.Transparent) (data : List UInt8) :
    processInbound ⟨front ++ h :: back, ctx⟩ data =
      (((h.handleInbound data).run ctx).1,
        ⟨front ++ h :: back, ((h.handleInbound data).run ctx).2⟩) := by
  rw [processInbound, process_eq (·.handleInbound)]
  · exact fun g hg => (hps g (mem_append_left back hg)).inbound
  · exact fun g hg => (hps g (mem_append_right front hg)).inbound

theorem processOutbound_eq (hps : ∀ g ∈ front ++ back, g.Transparent) (data : List UInt8) :
    processOutbound ⟨front ++ h :: back, ctx⟩ data =
      (((h.handleOutbound data).run ctx).1,
        ⟨front ++ h :: back, ((h.handleOutbound data).run ctx).2⟩) := by
  have hrev : (front ++ h :: back).reverse = back.reverse ++ h :: front.reverse := by simp
  rw [processOutbound, hrev, process_eq (·.handleOutbound)]
  · exact fun g hg => (hps g (mem_append_right front (mem_reverse.mp hg))).outbound
  · exact fun g hg => (hps g (mem_append_left back (mem_reverse.mp hg))).outbound

end Process

end ChannelPipeline

namespace CompressionHandler
variable {inflate : Reader.Inflate} {deflate : Deflate} {data : List UInt8}
  {ctx : ChannelContext}

def sent (deflate : Deflate) (threshold : Int32) (data : List UInt8) : List UInt8 :=
  if threshold < 0 then data
  else if Int32.ofNat data.length < threshold then encodeVarInt 0 ++ data
  else encodeVarInt (Int32.ofNat data.length) ++ deflate data

theorem run_handleOutbound (deflate : Deflate) (data : List UInt8) (ctx : ChannelContext) :
    (handleOutbound deflate data).run ctx =
      (.ok (some (sent deflate ctx.compressionThreshold data)), ctx) := by
  rw [handleOutbound, run_bind_ok _ (run_get ctx), sent]
  dsimp only
  split
  · rfl
  · split <;> rfl

theorem handleInbound_stored :
    handleInbound inflate (encodeVarInt 0 ++ data) = pure (some data) := by
  rfl

theorem invalidLength_iff (hne : len ≠ 0) :
    len < 0 ∨ Decode.asUsize len > maxUncompressed ↔ ¬(0 < len ∧ len ≤ 32 * 1024 * 1024) := by
  have hhi := len.toInt_lt
  have hint : len.toInt ≠ 0 := by
    intro hz
    exact hne (Int32.toInt_inj.mp hz)
  have hmax : (32 * 1024 * 1024 : Int32).toInt = 32 * 1024 * 1024 := by decide
  have hz : (0 : Int32).toInt = 0 := by decide
  rw [Int32.lt_iff_toInt_lt, Int32.lt_iff_toInt_lt, Int32.le_iff_toInt_le, hmax, hz,
    Decode.asUsize, maxUncompressed]
  omega

theorem handleInbound_deflated (hzlib : Inverts inflate deflate) (hne : len ≠ 0) :
    handleInbound inflate (encodeVarInt len ++ deflate data) =
      if 0 < len ∧ len ≤ 32 * 1024 * 1024 then pure (some data)
      else throw (.invalidDataLength len) := by
  rw [handleInbound, Decode.reads_varInt]
  dsimp only
  rw [if_neg hne]
  by_cases hrng : 0 < len ∧ len ≤ 32 * 1024 * 1024
  · rw [if_neg (mt (invalidLength_iff hne).mp (not_not_intro hrng)), if_pos hrng, hzlib data]
  · rw [if_pos ((invalidLength_iff hne).mpr hrng), if_neg hrng]

theorem handleInbound_shorter (hinf : ∀ src, (inflate src).1.length ≤ src.length)
    (h : ((handleInbound inflate data).run ctx).1 = .ok (some out)) :
    out.length < data.length := by
  rw [handleInbound] at h
  split at h
  · cases h
  · rename_i len cursor hdec
    have hcur := Decode.length_rest_lt hdec
    split at h
    · cases h
      exact hcur
    · split at h
      · cases h
      · have hout := hinf cursor
        split at h
        · rename_i decompressed hinfl
          cases h
          rw [hinfl] at hout
          exact Nat.lt_of_le_of_lt hout hcur
        · cases h

end CompressionHandler

namespace ChannelPipeline
open CompressionHandler
variable {front back : List ChannelHandler} {inflate : Reader.Inflate} {deflate : Deflate}
  {ctx : ChannelContext}

theorem restores_iff (hps : ∀ g ∈ front ++ back, g.Transparent) (data : List UInt8) :
    Restores ⟨front ++ compressionHandler inflate deflate :: back, ctx⟩ data ↔
      ((handleInbound inflate (sent deflate ctx.compressionThreshold data)).run ctx).1 =
        .ok (some data) := by
  have hse := run_handleOutbound deflate data ctx
  rw [Restores, processOutbound_eq hps]
  change (∃ wire q, (((handleOutbound deflate data).run ctx).1,
    (⟨_, ((handleOutbound deflate data).run ctx).2⟩ : ChannelPipeline)) = _ ∧ _) ↔ _
  rw [hse]
  constructor
  · rintro ⟨wire, q, hwire, hbk⟩
    cases hwire
    rwa [processInbound_eq hps] at hbk
  · intro hbk
    refine ⟨_, _, rfl, ?_⟩
    rw [processInbound_eq hps]
    exact hbk

end ChannelPipeline

open ChannelPipeline CompressionHandler in
/-- A pipeline with the compression handler, among others that let all data pass, gives back what it
sends exactly if its threshold is not negative and the data are shorter than that or of 1 byte to 32
MiB. -/
theorem compression_restores_iff (front back : List ChannelHandler)
    (hpass : ∀ g ∈ front ++ back, g.Transparent) (ctx : ChannelContext) (data : List UInt8) :
    (∀ inflate deflate, Inverts inflate deflate →
      Restores ⟨front ++ compressionHandler inflate deflate :: back, ctx⟩ data) ↔
    0 ≤ ctx.compressionThreshold ∧ (Int32.ofNat data.length < ctx.compressionThreshold ∨
      0 < Int32.ofNat data.length ∧ Int32.ofNat data.length ≤ 32 * 1024 * 1024) := by
  simp only [restores_iff hpass]
  constructor
  · intro hrestores
    -- A coder that puts a byte before the data: it inverts, and never gives data that it was given.
    have hzlib : Inverts (fun src => (src.tail, none)) (fun raw => 0 :: raw) := fun raw => rfl
    have hback := hrestores _ _ hzlib
    rw [sent] at hback
    split at hback
    · have hshorter := handleInbound_shorter (fun src => by simp) hback
      exact absurd hshorter (Nat.lt_irrefl _)
    · rename_i hnonneg
      refine ⟨Int32.not_lt.mp hnonneg, ?_⟩
      split at hback
      · rename_i hbelow
        exact .inl hbelow
      · refine .inr ?_
        by_cases hzero : Int32.ofNat data.length = 0
        · rw [hzero, handleInbound_stored] at hback
          exact absurd (Option.some.inj (Except.ok.inj hback)) (cons_ne_self 0 data)
        · rw [handleInbound_deflated hzlib hzero] at hback
          by_contra hrange
          rw [if_neg hrange] at hback
          cases hback
  · rintro ⟨hnonneg, hlength⟩ inflate deflate hzlib
    rw [sent, if_neg (Int32.not_lt.mpr hnonneg)]
    split
    · rw [handleInbound_stored]
      rfl
    · rename_i habove
      have hrange := hlength.resolve_left habove
      have hne : Int32.ofNat data.length ≠ 0 := by
        intro hzero
        rw [hzero] at hrange
        exact absurd hrange.1 (by decide)
      rw [handleInbound_deflated hzlib hne, if_pos hrange]
      rfl

theorem compression_restores_short :
    (((ChannelPipeline.new 47).addLast (compressionHandler (·, none) id)).enableCompression
      256).Restores [0x10, 0x07, 0x2A] :=
  (compression_restores_iff [] [] (fun _ h => by cases h) ⟨256, 47⟩ [0x10, 0x07, 0x2A]).mpr
    (by decide) (·, none) id fun _ => rfl

/-- With the threshold that a pipeline has at first, data that begin with a zero lose it, whatever
the coder. -/
theorem initial_threshold_loses : ¬ ∃ inflate deflate,
    ((ChannelPipeline.new 47).addLast (compressionHandler inflate deflate)).Restores
      [0x00, 0x2A] := by
  rintro ⟨inflate, deflate, wire, q, hwire, hback⟩
  cases hwire
  cases hback

end Kojacoord
