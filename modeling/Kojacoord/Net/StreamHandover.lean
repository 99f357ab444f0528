import Kojacoord.Net.ClientFrames

namespace Kojacoord
open Framing Notify Runs StopFlag List

def RelayExit.clientStream : RelayExit → Option (List UInt8)
  | disconnected => none
  | switch stream _ | backendKicked stream _ => some stream

structure C2s.Positioned (stream : List UInt8) (c : C2s) : Prop where
  rest : c.source.rest = stream.drop c.consumed
  consumed : c.consumed ≤ stream.length
  frameEnd : c.frameEnd ≤ c.consumed

theorem C2s.Positioned.next (h : Positioned stream c) (hnx : Next env v c l c' r) :
    Positioned stream c' := by
  cases hnx with
  | proceed | enter | shutdown | recv | fail | work => exact ⟨h.rest, h.consumed, h.frameEnd⟩
  | fill _ _ hfill => exact ⟨(Source.rest_fill hfill).trans h.rest, h.consumed, h.frameEnd⟩
  | @feed stop on byte later _ _ _ hpop =>
    have hdr : byte :: later.rest = stream.drop c.consumed := by
      rw [← Source.rest_pop hpop, h.rest]
    have hrs : later.rest = stream.drop (c.consumed + 1) := by
      rw [← tail_drop, ← hdr, tail_cons]
    have hlt : c.consumed < stream.length := by
      by_contra hge
      rw [drop_eq_nil_of_le (by omega)] at hdr
      cases hdr
    have hend := h.frameEnd
    simp only [C2s.feed]
    split
    · exact ⟨hrs, hlt, by simp only; omega⟩
    · exact ⟨hrs, hlt, le_rfl⟩
    · exact ⟨hrs, hlt, by simp only; omega⟩

end Kojacoord
