import Mathlib.Data.List.AList
import Mathlib.Data.List.MinMax

namespace Kojacoord

inductive IpAddr where
  | v4 (octets : BitVec 32)
  | v6 (octets : BitVec 128)
deriving DecidableEq

structure SocketAddr where
  ip : IpAddr
  port : UInt16
deriving DecidableEq

inductive ForwardingMode where
  | none
  | bungeecord
  | velocity
deriving DecidableEq

inductive BackendType where
  | spigot
  | forge
  | hybrid
deriving DecidableEq

/-- The runtime view of one backend. The connection pool is left out; atomics are plain fields. -/
structure BackendServer where
  name : String
  address : SocketAddr
  restricted : Bool
  forwardingOverride : Option ForwardingMode
  playerCount : UInt64
  online : Bool
  backendType : BackendType
  compressionThreshold : Int32
  cipherSuites : String
  healthProbeIntervalSecs : UInt64
  healthProbeTimeoutSecs : UInt64
  healthProbeFailThreshold : UInt32
  healthFailCount : UInt32
  healthUnhealthy : Bool
  region : String
  maxPlayers : UInt64
  weight : UInt32
  lastLatencyMs : UInt64
deriving DecidableEq

def BackendServer.registered (name : String) (address : SocketAddr) (maxPlayers : UInt32) :
    BackendServer where
  name := name
  address := address
  restricted := false
  forwardingOverride := none
  playerCount := 0
  online := true
  backendType := .spigot
  compressionThreshold := 0
  cipherSuites := ""
  healthProbeIntervalSecs := 0
  healthProbeTimeoutSecs := 5
  healthProbeFailThreshold := 3
  healthFailCount := 0
  healthUnhealthy := false
  region := ""
  maxPlayers := maxPlayers.toUInt64
  weight := 1
  lastLatencyMs := 0

instance : Inhabited BackendServer := ⟨.registered "" ⟨.v4 0, 0⟩ 0⟩

def BackendServer.isOnline (s : BackendServer) : Bool := s.online

def BackendServer.isFull (s : BackendServer) : Bool :=
  s.maxPlayers != 0 && decide (s.maxPlayers ≤ s.playerCount)

def BackendServer.fetchAdd (s : BackendServer) : BackendServer :=
  { s with playerCount := s.playerCount + 1 }

def BackendServer.fetchSub (s : BackendServer) : BackendServer :=
  { s with playerCount := s.playerCount - 1 }

abbrev ServerId := Nat

/-- The registry with the heap its `Arc`s point into. A record that has been replaced or removed
stays there for the tasks that still hold it. -/
structure ServerRegistry where
  heap : List BackendServer
  names : AList (fun _ : String => ServerId)
  named : ∀ n b, names.lookup n = some b → ∃ s, heap[b]? = some s ∧ s.name = n

namespace ServerRegistry

def server (r : ServerRegistry) (b : ServerId) : BackendServer := r.heap[b]?.getD default

def get (r : ServerRegistry) (name : String) : Option ServerId := r.names.lookup name

def all (r : ServerRegistry) : List ServerId := r.names.entries.map (·.2)

def new : ServerRegistry := ⟨[], ∅, by intro n b h; simp at h⟩

theorem get_valid {r : ServerRegistry} (h : r.get n = some b) : b < r.heap.length := by
  obtain ⟨s, hs, -⟩ := r.named n b h
  exact (List.getElem?_eq_some_iff.mp hs).1

theorem get_name {r : ServerRegistry} (h : r.get n = some b) : (r.server b).name = n := by
  obtain ⟨s, hs, hn⟩ := r.named n b h
  simpa only [server, hs, Option.getD_some] using hn

def Bound (r : ServerRegistry) (b : ServerId) : Prop := r.get (r.server b).name = some b

theorem bound_of_get {r : ServerRegistry} (h : r.get n = some b) : r.Bound b := by
  rw [Bound, get_name h, h]

theorem Bound.valid {r : ServerRegistry} (h : r.Bound b) : b < r.heap.length := get_valid h

theorem bound_of_mem_all {r : ServerRegistry} (h : b ∈ r.all) : r.Bound b := by
  obtain ⟨e, he, rfl⟩ := List.mem_map.mp h
  exact bound_of_get (AList.mem_lookup_iff.mpr he)

def register (r : ServerRegistry) (s : BackendServer) : ServerRegistry where
  heap := r.heap ++ [s]
  names := r.names.insert s.name r.heap.length
  named n b h := by
    by_cases hn : n = s.name
    · subst hn
      rw [AList.lookup_insert] at h
      cases h
      exact ⟨s, by simp, rfl⟩
    · rw [AList.lookup_insert_ne hn] at h
      obtain ⟨s', hs, hn'⟩ := r.named n b h
      have hb := (List.getElem?_eq_some_iff.mp hs).1
      exact ⟨s', by rw [List.getElem?_append_left hb, hs], hn'⟩

def remove (r : ServerRegistry) (name : String) : ServerRegistry where
  heap := r.heap
  names := r.names.erase name
  named n b h := by
    by_cases hn : n = name
    · subst hn
      simp at h
    · rw [AList.lookup_erase_ne hn] at h
      exact r.named n b h

/-- Updates the record behind one `Arc`. No update in the proxy renames a server. -/
def update (r : ServerRegistry) (b : ServerId) (f : BackendServer → BackendServer)
    (hf : ∀ s, (f s).name = s.name) : ServerRegistry where
  heap := r.heap.modify b f
  names := r.names
  named n c h := by
    obtain ⟨s, hs, hn⟩ := r.named n c h
    by_cases hc : b = c
    · subst hc
      exact ⟨f s, by simp [hs], by rw [hf, hn]⟩
    · exact ⟨s, by simp [hc, hs], hn⟩

def fetchAdd (r : ServerRegistry) (b : ServerId) : ServerRegistry :=
  r.update b BackendServer.fetchAdd fun _ => rfl

def fetchSub (r : ServerRegistry) (b : ServerId) : ServerRegistry :=
  r.update b BackendServer.fetchSub fun _ => rfl

def storeOnline (r : ServerRegistry) (b : ServerId) (online : Bool) : ServerRegistry :=
  r.update b (fun s => { s with online := online }) fun _ => rfl

def storeCount (r : ServerRegistry) (b : ServerId) (count : UInt64) : ServerRegistry :=
  r.update b (fun s => { s with playerCount := count }) fun _ => rfl

def storeHealth (r : ServerRegistry) (b : ServerId) (fails : UInt32) (unhealthy : Bool)
    (latency : UInt64) : ServerRegistry :=
  r.update b (fun s =>
    { s with healthFailCount := fails, healthUnhealthy := unhealthy, lastLatencyMs := latency })
    fun _ => rfl

def reorder (r : ServerRegistry) (names : AList (fun _ : String => ServerId))
    (h : names.entries.Perm r.names.entries) : ServerRegistry where
  heap := r.heap
  names := names
  named n b hb := r.named n b (by rwa [AList.perm_lookup h] at hb)

@[simp] theorem length_update : (update r b f hf).heap.length = r.heap.length := by
  simp [update]

theorem server_update_self (h : b < r.heap.length) :
    (update r b f hf).server b = f (r.server b) := by
  simp [update, server, h]

theorem server_update_ne (h : b ≠ c) : (update r b f hf).server c = r.server c := by
  simp [update, server, h]

theorem update_field {g : BackendServer → γ} (hg : ∀ s, g (f s) = g s) :
    g ((update r b f hf).server c) = g (r.server c) := by
  by_cases hc : b = c
  · subst hc
    by_cases hb : b < r.heap.length
    · rw [server_update_self hb, hg]
    · simp [update, server, hb]
  · rw [server_update_ne hc]

@[simp] theorem length_register : (register r s).heap.length = r.heap.length + 1 := by
  simp [register]

@[simp] theorem get_register_self : (register r s).get s.name = some r.heap.length := by
  simp [register, get]

theorem get_register_ne (h : n ≠ s.name) : (register r s).get n = r.get n := by
  simp [register, get, AList.lookup_insert_ne h]

@[simp] theorem server_register_new : (register r s).server r.heap.length = s := by
  simp [register, server]

theorem server_register (h : b < r.heap.length) : (register r s).server b = r.server b := by
  simp only [register, server, List.getElem?_append_left h]

@[simp] theorem get_remove_self : (remove r n).get n = none := by
  simp [remove, get]

theorem get_remove_ne (h : n ≠ m) : (remove r m).get n = r.get n := by
  simp [remove, get, AList.lookup_erase_ne h]

theorem get_of_get_remove (h : (remove r m).get n = some b) : r.get n = some b := by
  by_cases hn : n = m
  · subst hn
    simp at h
  · rwa [get_remove_ne hn] at h

@[simp] theorem get_reorder : (reorder r ns h).get n = r.get n := AList.perm_lookup h

end ServerRegistry

end Kojacoord
