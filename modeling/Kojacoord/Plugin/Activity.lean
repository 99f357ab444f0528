import Kojacoord.Plugin.Manager

namespace Kojacoord
open Runs

namespace PluginManager
variable {m : PluginManager}

def snapshotMatchingHooks (m : PluginManager) (packet : PacketData) : List PacketEvent :=
  Kojacoord.snapshotMatchingHooks (m.packetHooks.map (·.toPacketEvent)) packet

def processPacket (m : PluginManager) (packet : PacketData) : HookRun :=
  runHooks (m.snapshotMatchingHooks packet) packet

def relayed (m : PluginManager) (packet : PacketData) : PacketHookResult :=
  if m.activity.hasPacketHooks then (m.processPacket packet).result else .forward

def Wants (mask : UInt32) (bit : Nat) : Prop := mask.toBitVec.getLsbD bit = true

instance : Decidable (Wants mask bit) := inferInstanceAs (Decidable (_ = true))

theorem wants_or : Wants (a ||| b) bit ↔ Wants a bit ∨ Wants b bit := by
  simp [Wants]

theorem wants_foldl {entries : List (Sigma fun _ : String => WasmModule)} :
    Wants (entries.foldl (fun mask e => mask ||| e.2.subscribedEvents) mask) bit ↔
      Wants mask bit ∨ ∃ e ∈ entries, Wants e.2.subscribedEvents bit := by
  induction entries generalizing mask with
  | nil => simp
  | cons e rest ih =>
    rw [List.foldl_cons, ih, wants_or, List.exists_mem_cons_iff, or_assoc]

def Masked (m : PluginManager) : Prop :=
  m.activity.eventMask = (m.refreshActivity).activity.eventMask

theorem masked_of_run (h : Run (step lowercase) ok (.new allowed) m) : m.Masked := by
  apply h.invariant (I := Masked) rfl
  intro m l m' hm _ hstep
  exact step_keeps (p := fun _ => True) (fun _ _ _ _ h => h) (fun _ _ _ _ _ _ => rfl)
    (fun _ _ _ => rfl) (fun _ _ => trivial) hstep hm

theorem Masked.wants_iff (h : Masked m) : Wants m.activity.eventMask bit ↔
    ∃ name plugin, m.plugins.lookup name = some plugin ∧ Wants plugin.subscribedEvents bit := by
  rw [h, refreshActivity, wants_foldl]
  constructor
  · rintro (hz | ⟨⟨name, plugin⟩, hmem, hwan⟩)
    · simp [Wants] at hz
    · exact ⟨name, plugin, AList.mem_lookup_iff.mpr hmem, hwan⟩
  · rintro ⟨name, plugin, hlk, hwan⟩
    exact .inr ⟨⟨name, plugin⟩, AList.mem_lookup_iff.mp hlk, hwan⟩

theorem snapshotMatchingHooks_eq_nil (h : m.packetHooks = []) :
    m.snapshotMatchingHooks packet = [] := by
  rw [snapshotMatchingHooks, h]
  rfl

/-- After every run the relays see what the loaded plugins want and how many hooks there are, and a
relay that does not ask the manager misses nothing. -/
theorem activity_exact (hrun : Run (step lowercase) ok (.new allowed) m) :
    (∀ bit, Wants m.activity.eventMask bit ↔ ∃ name plugin,
      m.plugins.lookup name = some plugin ∧ Wants plugin.subscribedEvents bit) ∧
    m.activity.packetHookCount = m.packetHooks.length ∧
    (m.activity.hasPacketHooks = false → ∀ packet, m.snapshotMatchingHooks packet = []) ∧
    ∀ packet, m.relayed packet = (m.processPacket packet).result := by
  have hnone (h : m.activity.hasPacketHooks = false) (packet : PacketData) :
      m.snapshotMatchingHooks packet = [] :=
    snapshotMatchingHooks_eq_nil (packetHooks_eq_nil hrun h)
  refine ⟨fun _ => (masked_of_run hrun).wants_iff, (consistent_of_run hrun).counted, hnone, ?_⟩
  intro packet
  unfold relayed
  cases hhooks : m.activity.hasPacketHooks with
  | true => rfl
  | false =>
    rw [processPacket, hnone hhooks]
    rfl

def listeningFile (permissions : List PluginPermission) : PluginFile where
  path := "plugins/listen.wasm"
  stem := "listen"
  extension := "wasm"
  readable := true
  module := some ⟨⟨"listen", permissions⟩, 0x6, [], []⟩

theorem activity_exact_listening : ∃ m, Run (step id) (fun _ _ => True) (.new ∅) m ∧
    m.activity.packetHookCount = 1 ∧ Wants m.activity.eventMask 2 ∧
      ∃ name plugin, m.plugins.lookup name = some plugin ∧ Wants plugin.subscribedEvents 2 := by
  have hrun : Run (step id) (fun _ _ => True) (.new ∅) _ :=
    Run.of_exec [.load (shoutFile "shout"), .load (listeningFile []),
      .reload (shoutFile "shout"), .load (listeningFile [.useHttp])] rfl
  exact ⟨_, hrun, by decide, by decide, ((activity_exact hrun).1 2).mp (by decide)⟩

end PluginManager

end Kojacoord
