import Kojacoord.Lib.Feeding
import Kojacoord.Net.PacketIo

namespace Kojacoord
open Feeding List Option

abbrev RawPacket := List UInt8

def packetId (raw : RawPacket) : Option UInt8 :=
  match Decode.varInt raw with
  | .ok (id, _) => some id.toUInt32.toUInt8
  | .error _ => none

structure ConfigIds where
  finishCfg : UInt8
  cbCustom : UInt8
  cbPing : UInt8
  cbKnownPacks : UInt8
  sbKnownPacks : UInt8
  cfgAckSb : UInt8

def isNeoConfigChannel (channel : String) : Bool :=
  channel ∈ ["minecraft:register", "minecraft:unregister", "minecraft:network", "c:version",
    "c:register", "neoforge:register", "neoforge:tier_sorting", "neoforge:advanced_addon",
    "neoforge:modded_network_setup_failed", "fabric-networking-api-v1:register_channel",
    "fabric-networking-api-v1:unregister_channel", "quilt:init", "quilt:register",
    "qsl:networking", "quilted_fabric_networking_api_v1:register_channel"] ||
  ["neoforge:", "fml:", "forge:", "quilt:", "qsl:", "quilted_fabric_"].any fun start =>
    start.toList.isPrefixOf channel.toList

inductive Treatment where
  | finish
  | modloader
  | ping
  | knownPacks
  | buffer
deriving DecidableEq

namespace ConfigIds
variable (ids : ConfigIds)

def treatment (raw : RawPacket) : Option Treatment :=
  match Decode.varInt raw with
  | .error _ => none
  | .ok (id, cursor) =>
    let id := id.toUInt32.toUInt8
    if id = ids.finishCfg then some .finish
    else if id = ids.cbCustom then
      let channel := match Decode.string cursor with
        | .ok (channel, _) => channel
        | .error _ => ""
      if isNeoConfigChannel channel then some .modloader else some .buffer
    else if id = ids.cbPing then some .ping
    else if ids.cbKnownPacks ≠ 0xFF ∧ id = ids.cbKnownPacks then some .knownPacks
    else some .buffer

def finishPacket : RawPacket := encodeVarInt ids.finishCfg.toUInt32.toInt32

end ConfigIds

inductive ConfigStage where
  | backend
  | reply (modloader : Bool)
  | packs
  | ack
  | done
  | failed
deriving DecidableEq

/-- The relay of a configuration phase: what has arrived and is not read yet, what is kept for the
client, and what has been written to either side. -/
structure ConfigRelay where
  stage : ConfigStage
  fromBackend : List RawPacket
  fromClient : List RawPacket
  buffered : List RawPacket
  toClient : List RawPacket
  toBackend : List RawPacket

namespace ConfigRelay

def start : ConfigRelay := ⟨.backend, [], [], [], [], []⟩

section Reads
variable (ids : ConfigIds) (s : ConfigRelay) (raw : RawPacket)

def onBackend : ConfigRelay :=
  match ids.treatment raw with
  | none => { s with stage := .failed }
  | some .finish => { s with
      stage := .ack, buffered := [],
      toClient := s.toClient ++ s.buffered ++ [ids.finishPacket] }
  | some .modloader => { s with stage := .reply true, toClient := s.toClient ++ [raw] }
  | some .ping => { s with stage := .reply false, toClient := s.toClient ++ [raw] }
  | some .knownPacks => { s with stage := .packs, toClient := s.toClient ++ [raw] }
  | some .buffer => { s with buffered := s.buffered ++ [raw] }

/-- The one packet that is taken for the answer. The answer to a ping is passed on unread. -/
def onReply (modloader : Bool) : ConfigRelay :=
  if modloader ∧ packetId raw = none then { s with stage := .failed }
  else { s with stage := .backend, toBackend := s.toBackend ++ [raw] }

def onPacks : ConfigRelay :=
  match packetId raw with
  | none => { s with stage := .failed }
  | some id => { s with
      stage := if id = ids.sbKnownPacks then .backend else .packs,
      toBackend := s.toBackend ++ [raw] }

def onAck : ConfigRelay :=
  match packetId raw with
  | none => { s with stage := .failed }
  | some id => if id = ids.cfgAckSb then { s with stage := .done } else s

end Reads

def readBackend (s : ConfigRelay) (handle : ConfigRelay → RawPacket → ConfigRelay) :
    Option ConfigRelay :=
  match s.fromBackend with
  | [] => none
  | raw :: rest => some (handle { s with fromBackend := rest } raw)

def readClient (s : ConfigRelay) (handle : ConfigRelay → RawPacket → ConfigRelay) :
    Option ConfigRelay :=
  match s.fromClient with
  | [] => none
  | raw :: rest => some (handle { s with fromClient := rest } raw)

def step (ids : ConfigIds) (s : ConfigRelay) : Option ConfigRelay :=
  match s.stage with
  | .backend => s.readBackend (onBackend ids)
  | .reply modloader => s.readClient fun s raw => s.onReply raw modloader
  | .packs => s.readClient (onPacks ids)
  | .ack => s.readClient (onAck ids)
  | .done | .failed => none

end ConfigRelay

inductive Sender where
  | backend
  | client
deriving DecidableEq

def ConfigRelay.arrive (s : ConfigRelay) : Sender × RawPacket → ConfigRelay
  | (.backend, raw) => { s with fromBackend := s.fromBackend ++ [raw] }
  | (.client, raw) => { s with fromClient := s.fromClient ++ [raw] }

def sentBy (sender : Sender) (inputs : List (Sender × RawPacket)) : List RawPacket :=
  inputs.filterMap fun (origin, raw) => if origin = sender then some raw else none

namespace ConfigRelay
variable {ids : ConfigIds}

@[simp] theorem arrive_stage (s : ConfigRelay) (i : Sender × RawPacket) :
    (s.arrive i).stage = s.stage := by
  rcases i with ⟨sender, raw⟩
  cases sender <;> rfl

theorem onBackend_arrive (s : ConfigRelay) (raw : RawPacket) (i : Sender × RawPacket) :
    onBackend ids (s.arrive i) raw = (onBackend ids s raw).arrive i := by
  rcases i with ⟨sender, arrived⟩
  simp only [onBackend]
  rcases ids.treatment raw with _ | treatment
  · cases sender <;> rfl
  · cases treatment <;> cases sender <;> rfl

theorem onReply_arrive (s : ConfigRelay) (raw : RawPacket) (i : Sender × RawPacket) :
    onReply (s.arrive i) raw modloader = (onReply s raw modloader).arrive i := by
  rcases i with ⟨sender, arrived⟩
  simp only [onReply]
  split <;> cases sender <;> rfl

theorem onPacks_arrive (s : ConfigRelay) (raw : RawPacket) (i : Sender × RawPacket) :
    onPacks ids (s.arrive i) raw = (onPacks ids s raw).arrive i := by
  rcases i with ⟨sender, arrived⟩
  simp only [onPacks]
  cases packetId raw <;> cases sender <;> rfl

theorem onAck_arrive (s : ConfigRelay) (raw : RawPacket) (i : Sender × RawPacket) :
    onAck ids (s.arrive i) raw = (onAck ids s raw).arrive i := by
  rcases i with ⟨sender, arrived⟩
  simp only [onAck]
  cases packetId raw with
  | none => cases sender <;> rfl
  | some id =>
    dsimp only
    split <;> cases sender <;> rfl

theorem readBackend_arrive (hhan : ∀ s raw i, handle (arrive s i) raw = (handle s raw).arrive i)
    (h : readBackend s handle = some t) : readBackend (s.arrive i) handle = some (t.arrive i) := by
  rcases s with ⟨stage, _ | ⟨raw, fromBackend⟩, fromClient, buffered, toClient, toBackend⟩
  · cases h
  · cases h
    rw [← hhan]
    rcases i with ⟨sender, arrived⟩
    cases sender <;> rfl

theorem readClient_arrive (hhan : ∀ s raw i, handle (arrive s i) raw = (handle s raw).arrive i)
    (h : readClient s handle = some t) : readClient (s.arrive i) handle = some (t.arrive i) := by
  rcases s with ⟨stage, fromBackend, _ | ⟨raw, fromClient⟩, buffered, toClient, toBackend⟩
  · cases h
  · cases h
    rw [← hhan]
    rcases i with ⟨sender, arrived⟩
    cases sender <;> rfl

theorem patient (ids : ConfigIds) : Patient (step ids) arrive := by
  intro s t i h
  rw [step] at h ⊢
  rw [arrive_stage]
  cases hsta : s.stage with
  | backend =>
    rw [hsta] at h
    exact readBackend_arrive onBackend_arrive h
  | reply modloader =>
    rw [hsta] at h
    exact readClient_arrive onReply_arrive h
  | packs =>
    rw [hsta] at h
    exact readClient_arrive onPacks_arrive h
  | ack =>
    rw [hsta] at h
    exact readClient_arrive onAck_arrive h
  | done | failed => rw [hsta] at h; cases h

theorem foldl_arrive (inputs : List (Sender × RawPacket)) :
    inputs.foldl arrive s = { s with
      fromBackend := s.fromBackend ++ sentBy .backend inputs
      fromClient := s.fromClient ++ sentBy .client inputs } := by
  induction inputs generalizing s with
  | nil => simp [sentBy]
  | cons i inputs ih =>
    rcases i with ⟨sender, raw⟩
    rw [foldl_cons, ih]
    cases sender <;> simp [arrive, sentBy]

end ConfigRelay

namespace ConfigIds
variable (ids : ConfigIds)

def keeps (raw : RawPacket) : Bool := ids.treatment raw = some .buffer

def afterPacks : List RawPacket → Option (List RawPacket)
  | [] => none
  | raw :: client => if packetId raw = some ids.sbKnownPacks then some client else afterPacks client

def answer (raw : RawPacket) (client : List RawPacket) : Option (List RawPacket) :=
  match ids.treatment raw with
  | some .modloader | some .ping => client.tail?
  | some .knownPacks => ids.afterPacks client
  | _ => some client

/-- The packets of the client's that remain once every packet of the backend's has its answer; none
if there are not enough of them. -/
def leftover : List RawPacket → List RawPacket → Option (List RawPacket)
  | [], client => some client
  | raw :: backend, client => (ids.answer raw client).bind (leftover backend)

variable {ids}

def Takes (answers : List RawPacket → Option (List RawPacket)) : Prop :=
  ∀ client rest, answers client = some rest ↔ ∃ used, answers used = some [] ∧ client = used ++ rest

theorem Takes.none : Takes some := by
  intro client rest
  constructor
  · rintro ⟨⟩
    exact ⟨[], rfl, rfl⟩
  · rintro ⟨used, ⟨⟩, rfl⟩
    rfl

theorem Takes.one : Takes List.tail? := by
  intro client rest
  constructor
  · intro h
    cases client <;> cases h
    exact ⟨[_], rfl, rfl⟩
  · rintro ⟨used, h, rfl⟩
    cases used <;> cases h
    rfl

theorem takes_afterPacks : Takes ids.afterPacks := by
  intro client rest
  induction client with
  | nil =>
    refine ⟨nofun, ?_⟩
    rintro ⟨used, h, hus⟩
    rw [(append_eq_nil_iff.mp hus.symm).1] at h
    cases h
  | cons raw client ih =>
    rw [afterPacks]
    split
    · rename_i hpac
      constructor
      · rintro ⟨⟩
        exact ⟨[raw], if_pos hpac, rfl⟩
      · rintro ⟨_ | ⟨_, used⟩, h, hus⟩ <;> cases hus
        · cases h
        · rw [afterPacks, if_pos hpac] at h
          cases h
          rfl
    · rename_i hpac
      rw [ih]
      constructor
      · rintro ⟨used, h, rfl⟩
        exact ⟨raw :: used, (if_neg hpac).trans h, rfl⟩
      · rintro ⟨_ | ⟨_, used⟩, h, hus⟩ <;> cases hus
        · cases h
        · exact ⟨used, (if_neg hpac).symm.trans h, rfl⟩

theorem takes_answer : Takes (ids.answer raw) := by
  unfold answer
  split
  · exact .one
  · exact .one
  · exact takes_afterPacks
  · exact .none

theorem Takes.bind (hf : Takes f) (hg : Takes g) : Takes fun client => (f client).bind g := by
  intro client rest
  constructor
  · intro h
    obtain ⟨middle, hmid, hrs⟩ := bind_eq_some_iff.mp h
    obtain ⟨first, hfst, rfl⟩ := (hf _ _).mp hmid
    obtain ⟨used, hus, rfl⟩ := (hg _ _).mp hrs
    refine ⟨first ++ used, ?_, (append_assoc ..).symm⟩
    dsimp only
    rw [(hf _ _).mpr ⟨first, hfst, rfl⟩]
    exact hus
  · rintro ⟨used, h, rfl⟩
    obtain ⟨middle, hmid, hno⟩ := bind_eq_some_iff.mp h
    obtain ⟨first, hfst, rfl⟩ := (hf _ _).mp hmid
    dsimp only
    rw [(hf _ _).mpr ⟨first, hfst, append_assoc ..⟩]
    exact (hg _ _).mpr ⟨middle, hno, rfl⟩

theorem takes_leftover (backend : List RawPacket) : Takes (ids.leftover backend) := by
  induction backend with
  | nil => exact .none
  | cons raw backend ih => exact takes_answer.bind ih

theorem Takes.append (h : Takes answers) (hrs : answers client = some rest)
    (more : List RawPacket) : answers (client ++ more) = some (rest ++ more) := by
  obtain ⟨used, hus, rfl⟩ := (h _ _).mp hrs
  exact (h _ _).mpr ⟨used, hus, append_assoc ..⟩

theorem Takes.last (h : Takes answers) (hno : answers client = .none)
    (hla : answers (client ++ [raw]) = some rest) : rest = [] := by
  obtain ⟨used, hus, heq⟩ := (h _ _).mp hla
  rcases eq_nil_or_concat rest with rfl | ⟨others, last, rfl⟩
  · rfl
  · rw [concat_eq_append, ← append_assoc] at heq
    obtain ⟨rfl, -⟩ := append_inj' heq rfl
    rw [(h _ _).mpr ⟨used, hus, rfl⟩] at hno
    cases hno

end ConfigIds

section Rest
variable {ids : ConfigIds} {raw : RawPacket} {id : UInt8} {backend client : List RawPacket}
  {s s' : ConfigRelay} {arrival arrival' : List RawPacket → List RawPacket → ConfigRelay}

/-- The relay comes to the arrival, with the client's packets that are left and those used up, or,
if there are not enough of them, to a halt before it is done. -/
def Reaches (ids : ConfigIds) (s : ConfigRelay)
    (arrival : List RawPacket → List RawPacket → ConfigRelay) (client : List RawPacket) :
    Option (List RawPacket) → Prop
  | some rest => ∃ used, client = used ++ rest ∧ Steps (ConfigRelay.step ids) s (arrival rest used)
  | none => ∃ t, Steps (ConfigRelay.step ids) s t ∧ ConfigRelay.step ids t = none ∧ t.stage ≠ .done

theorem Reaches.after (first : List RawPacket) (hste : Steps (ConfigRelay.step ids) s s')
    (h : Reaches ids s' arrival' client left)
    (harr : ∀ rest used, arrival' rest used = arrival rest (first ++ used)) :
    Reaches ids s arrival (first ++ client) left := by
  cases left with
  | none =>
    obtain ⟨t, hlat, hrs⟩ := h
    exact ⟨t, hste.trans hlat, hrs⟩
  | some rest =>
    obtain ⟨used, rfl, hlat⟩ := h
    rw [harr] at hlat
    exact ⟨first ++ used, (append_assoc ..).symm, hste.trans hlat⟩

variable (kept shown told : List RawPacket)

theorem step_packs (hid : packetId raw = some id) :
    ConfigRelay.step ids ⟨.packs, backend, raw :: client, kept, shown, told⟩ =
      some ⟨if id = ids.sbKnownPacks then .backend else .packs, backend, client, kept, shown,
        told ++ [raw]⟩ := by
  change some (ConfigRelay.onPacks ids _ raw) = _
  rw [ConfigRelay.onPacks, hid]

theorem reaches_packs (hcli : ∀ reply ∈ client, packetId reply ≠ none) :
    Reaches ids ⟨.packs, backend, client, kept, shown, told⟩
      (fun rest used => ⟨.backend, backend, rest, kept, shown, told ++ used⟩) client
      (ids.afterPacks client) := by
  induction client generalizing told with
  | nil => exact ⟨_, .refl, rfl, nofun⟩
  | cons reply client ih =>
    obtain ⟨hrep, hcli⟩ := forall_mem_cons.mp hcli
    obtain ⟨id, hid⟩ := ne_none_iff_exists'.mp hrep
    have hstep : ConfigRelay.step ids ⟨.packs, backend, reply :: client, kept, shown, told⟩ = _ :=
      step_packs kept shown told hid
    rw [ConfigIds.afterPacks, hid]
    split
    · rename_i hpac
      rw [if_pos (Option.some.inj hpac)] at hstep
      exact ⟨[reply], rfl, .single hstep⟩
    · rename_i hpac
      rw [if_neg fun heq => hpac (congrArg some heq)] at hstep
      refine (ih (told ++ [reply]) hcli).after [reply] (.single hstep) ?_
      intro rest used
      rw [append_assoc]

theorem step_reply (modloader : Bool) (hid : packetId raw ≠ none) :
    ConfigRelay.step ids ⟨.reply modloader, backend, raw :: client, kept, shown, told⟩ =
      some ⟨.backend, backend, client, kept, shown, told ++ [raw]⟩ := by
  change some (ConfigRelay.onReply _ raw modloader) = _
  rw [ConfigRelay.onReply, if_neg (fun h => hid h.2)]

def Treatment.waits : Treatment → Option ConfigStage
  | .modloader => some (.reply true)
  | .ping => some (.reply false)
  | .knownPacks => some .packs
  | .finish | .buffer => none

theorem Treatment.eq_buffer {treatment : Treatment} (hwai : treatment.waits = none)
    (hfin : treatment ≠ .finish) : treatment = .buffer := by
  cases treatment <;> first | rfl | exact absurd rfl hfin | cases hwai

theorem step_pass (hraw : ids.treatment raw = some treatment)
    (hwai : treatment.waits = some stage) :
    ConfigRelay.step ids ⟨.backend, raw :: backend, client, kept, shown, told⟩ =
      some ⟨stage, backend, client, kept, shown ++ [raw], told⟩ := by
  change some (ConfigRelay.onBackend ids _ raw) = _
  rw [ConfigRelay.onBackend, hraw]
  cases treatment <;> cases hwai <;> rfl

theorem step_keep (hraw : ids.treatment raw = some .buffer) :
    ConfigRelay.step ids ⟨.backend, raw :: backend, client, kept, shown, told⟩ =
      some ⟨.backend, backend, client, kept ++ [raw], shown, told⟩ := by
  change some (ConfigRelay.onBackend ids _ raw) = _
  rw [ConfigRelay.onBackend, hraw]

theorem reaches_answer (backend : List RawPacket) (hraw : ids.treatment raw = some treatment)
    (hwai : treatment.waits = some stage) (hcli : ∀ reply ∈ client, packetId reply ≠ none) :
    Reaches ids ⟨stage, backend, client, kept, shown, told⟩
      (fun rest used => ⟨.backend, backend, rest, kept, shown, told ++ used⟩) client
      (ids.answer raw client) := by
  have hrep (modloader : Bool) : Reaches ids ⟨.reply modloader, backend, client, kept, shown, told⟩
      (fun rest used => ⟨.backend, backend, rest, kept, shown, told ++ used⟩) client
      client.tail? := by
    cases client with
    | nil => exact ⟨_, .refl, rfl, nofun⟩
    | cons reply client =>
      have hid := hcli reply (mem_cons_self ..)
      exact ⟨[reply], rfl, .single (step_reply kept shown told modloader hid)⟩
  rw [ConfigIds.answer, hraw]
  cases treatment with
  | modloader => cases hwai; exact hrep true
  | ping => cases hwai; exact hrep false
  | knownPacks => cases hwai; exact reaches_packs kept shown told hcli
  | finish | buffer => cases hwai

theorem reaches_leftover {sent : List RawPacket} (last : List RawPacket)
    (hse : ∀ raw ∈ sent, ∃ t, ids.treatment raw = some t ∧ t ≠ .finish)
    (hcli : ∀ reply ∈ client, packetId reply ≠ none) :
    Reaches ids ⟨.backend, sent ++ last, client, kept, shown, told⟩
      (fun rest used => ⟨.backend, last, rest, kept ++ sent.filter ids.keeps,
        shown ++ sent.filter (!ids.keeps ·), told ++ used⟩) client (ids.leftover sent client) := by
  induction sent generalizing client kept shown told with
  | nil =>
    refine ⟨[], rfl, ?_⟩
    simp only [nil_append, filter_nil, append_nil]
    exact .refl
  | cons raw sent ih =>
    obtain ⟨⟨treatment, hraw, hfin⟩, hse⟩ := forall_mem_cons.mp hse
    rw [ConfigIds.leftover]
    cases hwai : treatment.waits with
    | none =>
      rw [Treatment.eq_buffer hwai hfin] at hraw
      have hans : ids.answer raw client = some client := by rw [ConfigIds.answer, hraw]
      rw [hans]
      refine (ih (kept ++ [raw]) shown told hse hcli).after []
        (.single (step_keep kept shown told hraw)) ?_
      simp [ConfigIds.keeps, hraw]
    | some stage =>
      have hkp : ids.keeps raw = false := by
        rw [ConfigIds.keeps, hraw]
        cases treatment <;> first | rfl | cases hwai
      have hps : Steps (ConfigRelay.step ids)
          ⟨.backend, raw :: (sent ++ last), client, kept, shown, told⟩ _ :=
        .single (step_pass kept shown told hraw hwai)
      have hans := reaches_answer kept (shown ++ [raw]) told (sent ++ last) hraw hwai hcli
      cases hleft : ids.answer raw client with
      | none =>
        rw [hleft] at hans
        obtain ⟨t, hste, hrs⟩ := hans
        exact ⟨t, hps.trans hste, hrs⟩
      | some middle =>
        rw [hleft] at hans
        obtain ⟨first, rfl, hrep⟩ := hans
        refine (ih kept (shown ++ [raw]) (told ++ first) hse fun reply hmem =>
          hcli reply (mem_append_right _ hmem)).after first (hps.trans hrep) ?_
        simp [hkp]

theorem step_finish (hraw : ids.treatment raw = some .finish) :
    ConfigRelay.step ids ⟨.backend, [raw], client, kept, shown, told⟩ =
      some ⟨.ack, [], client, [], shown ++ kept ++ [ids.finishPacket], told⟩ := by
  change some (ConfigRelay.onBackend ids _ raw) = _
  rw [ConfigRelay.onBackend, hraw]

theorem steps_ack {ack : RawPacket} (hack : packetId ack = some ids.cfgAckSb)
    (hcli : ∀ reply ∈ client, ∃ id, packetId reply = some id ∧ id ≠ ids.cfgAckSb) :
    Steps (ConfigRelay.step ids) ⟨.ack, [], client ++ [ack], kept, shown, told⟩
      ⟨.done, [], [], kept, shown, told⟩ := by
  induction client with
  | nil =>
    refine .single ?_
    change some (ConfigRelay.onAck ids _ ack) = _
    rw [ConfigRelay.onAck, hack]
    dsimp only
    rw [if_pos rfl]
  | cons reply client ih =>
    obtain ⟨⟨id, hid, hne⟩, hcli⟩ := forall_mem_cons.mp hcli
    refine .head ?_ (ih hcli)
    change some (ConfigRelay.onAck ids _ reply) = _
    rw [ConfigRelay.onAck, hid]
    dsimp only
    rw [if_neg hne]
    rfl

end Rest

theorem filter_append_filter_eq_self {p : α → Bool} {xs : List α} :
    xs.filter (!p ·) ++ xs.filter p = xs ↔ xs.Pairwise fun x y => p x → p y := by
  constructor
  · intro h
    have hkt : ∀ x ∈ xs.filter (!p ·), ¬p x := by simp
    rw [← h, pairwise_append]
    refine ⟨pairwise_of_forall_mem_list ?_, pairwise_of_forall_mem_list ?_, ?_⟩
    · exact fun x hx y _ hp => absurd hp (hkt x hx)
    · exact fun x _ y hy _ => (mem_filter.mp hy).2
    · exact fun x hx y _ hp => absurd hp (hkt x hx)
  · intro h
    induction h with
    | nil => rfl
    | @cons x xs hall _ ih =>
      cases hx : p x with
      | false => simpa [hx] using ih
      | true =>
        have hall : ∀ y ∈ xs, p y = true := fun y hy => hall y hy hx
        rw [filter_cons_of_neg (by simp [hx]), filter_cons_of_pos hx,
          filter_eq_nil_iff.mpr (by simpa using hall), filter_eq_self.mpr hall]
        rfl

/-- The configuration has been passed on in full, in order and to its end, in both directions. -/
structure ConfigRelay.Faithful (ids : ConfigIds) (sent client : List RawPacket) (t : ConfigRelay) :
    Prop where
  completes : t.stage = .done
  toClient : t.toClient = sent ++ [ids.finishPacket]
  toBackend : t.toBackend = client

/-- In whatever order the packets arrive, the relay passes the configuration on exactly where
nothing that waits for an answer follows a packet that is kept, and the client sends the answers and
nothing else. -/
theorem config_relay_iff (ids : ConfigIds) (sent client : List RawPacket) (finish ack : RawPacket)
    (inputs : List (Sender × RawPacket))
    (hsent : ∀ raw ∈ sent, ∃ t, ids.treatment raw = some t ∧ t ≠ .finish)
    (hfinish : ids.treatment finish = some .finish)
    (hclient : ∀ reply ∈ client, ∃ id, packetId reply = some id ∧ id ≠ ids.cfgAckSb)
    (hack : packetId ack = some ids.cfgAckSb)
    (hbackend : sentBy .backend inputs = sent ++ [finish])
    (hreplies : sentBy .client inputs = client ++ [ack]) :
    (∀ t, Run (ConfigRelay.step ids) ConfigRelay.arrive .start inputs t →
      ConfigRelay.step ids t = none → t.Faithful ids sent client) ↔
        ids.leftover sent client = some [] ∧
          sent.Pairwise fun p q => ids.keeps p → ids.keeps q := by
  have hids : ∀ reply ∈ client ++ [ack], packetId reply ≠ none := by
    intro reply hmem
    rcases mem_append.mp hmem with hmem | hmem
    · obtain ⟨id, hid, -⟩ := hclient reply hmem
      exact ne_none_iff_exists'.mpr ⟨id, hid⟩
    · rw [mem_singleton.mp hmem, hack]
      exact some_ne_none _
  have hstart : inputs.foldl ConfigRelay.arrive .start =
      ⟨.backend, sent ++ [finish], client ++ [ack], [], [], []⟩ := by
    rw [ConfigRelay.foldl_arrive, hbackend, hreplies]
    rfl
  have hrest {u : ConfigRelay} (hsteps : Steps (ConfigRelay.step ids)
      ⟨.backend, sent ++ [finish], client ++ [ack], [], [], []⟩ u)
      (hu : ConfigRelay.step ids u = none) := rest_iff (P := (·.Faithful ids sent client))
    (ConfigRelay.patient ids) (hstart ▸ hsteps) hu
  have hreaches := reaches_leftover [] [] [] [finish] hsent hids
  cases hleft : ids.leftover sent client with
  | some rest =>
    rw [(ConfigIds.takes_leftover sent).append hleft [ack]] at hreaches
    obtain ⟨used, hused, hsteps⟩ := hreaches
    have hsplit : client = used ++ rest := by
      rw [← append_assoc] at hused
      exact append_cancel_right hused
    have hdropped : ∀ reply ∈ rest, ∃ id, packetId reply = some id ∧ id ≠ ids.cfgAckSb := by
      intro reply hmem
      exact hclient reply (hsplit ▸ mem_append_right used hmem)
    have hend := hsteps.trans (.head (step_finish _ _ _ hfinish) (steps_ack _ _ _ hack hdropped))
    rw [hrest hend rfl, ← filter_append_filter_eq_self, Option.some.injEq]
    constructor
    · rintro ⟨-, hshown, htold⟩
      refine ⟨?_, append_cancel_right hshown⟩
      rw [hsplit] at htold
      exact append_right_eq_self.mp htold.symm
    · rintro ⟨rfl, hsorted⟩
      refine ⟨rfl, congrArg (· ++ [ids.finishPacket]) hsorted, ?_⟩
      rw [hsplit, append_nil]
      rfl
  | none =>
    have hstuck : ∃ u, Steps (ConfigRelay.step ids)
        ⟨.backend, sent ++ [finish], client ++ [ack], [], [], []⟩ u ∧
          ConfigRelay.step ids u = none ∧ u.stage ≠ .done := by
      cases hlast : ids.leftover sent (client ++ [ack]) with
      | none =>
        rw [hlast] at hreaches
        exact hreaches
      | some rest =>
        -- The acknowledgement has been taken for an answer.
        rw [hlast, (ConfigIds.takes_leftover sent).last hleft hlast] at hreaches
        obtain ⟨used, -, hsteps⟩ := hreaches
        exact ⟨_, hsteps.trans (.single (step_finish _ _ _ hfinish)), rfl, nofun⟩
    obtain ⟨u, hsteps, hu, hdone⟩ := hstuck
    rw [hrest hsteps hu]
    exact ⟨fun h => absurd h.completes hdone, fun h => nomatch h.1⟩

def ids766 : ConfigIds where
  finishCfg := 0x03
  cbCustom := 0x01
  cbPing := 0x05
  cbKnownPacks := 0x0E
  sbKnownPacks := 0x07
  cfgAckSb := 0x03

theorem config_relay_ping :
    ∃ t, Run (ConfigRelay.step ids766) ConfigRelay.arrive .start
      [(.backend, [0x05, 1]), (.backend, [0x07, 9]), (.client, [0x05, 1]), (.backend, [0x03]),
        (.client, [0x03])] t ∧ ConfigRelay.step ids766 t = none ∧
      t.Faithful ids766 [[0x05, 1], [0x07, 9]] [[0x05, 1]] := by
  have hrun : Run (ConfigRelay.step ids766) ConfigRelay.arrive .start
      [(.backend, [0x05, 1]), (.backend, [0x07, 9]), (.client, [0x05, 1]), (.backend, [0x03]),
        (.client, [0x03])] ⟨.done, [], [], [], [[0x05, 1], [0x07, 9], [0x03]], [[0x05, 1]]⟩ :=
    .of_steps (.head rfl (.head rfl (.head rfl (.head rfl (.single rfl)))))
  refine ⟨_, hrun, rfl, (config_relay_iff ids766 [[0x05, 1], [0x07, 9]] [[0x05, 1]] [0x03] [0x03]
    _ ?_ rfl ?_ rfl rfl rfl).mpr ⟨rfl, by decide⟩ _ hrun rfl⟩
  · intro raw hmem
    rcases mem_cons.mp hmem with rfl | hmem
    · exact ⟨.ping, rfl, nofun⟩
    · rw [mem_singleton.mp hmem]
      exact ⟨.buffer, rfl, nofun⟩
  · intro reply hmem
    rw [mem_singleton.mp hmem]
    exact ⟨0x05, rfl, by decide⟩

/-- A ping overtakes the registry data before it, and the client's settings are dropped. -/
theorem config_relay_unfaithful :
    (¬∀ t, Run (ConfigRelay.step ids766) ConfigRelay.arrive .start
      [(.backend, [0x07, 9]), (.backend, [0x05, 1]), (.client, [0x05, 1]), (.backend, [0x03]),
        (.client, [0x03])] t → ConfigRelay.step ids766 t = none →
      t.Faithful ids766 [[0x07, 9], [0x05, 1]] [[0x05, 1]]) ∧
    ¬∀ t, Run (ConfigRelay.step ids766) ConfigRelay.arrive .start
      [(.client, [0x00, 2]), (.backend, [0x07, 9]), (.backend, [0x03]), (.client, [0x03])] t →
      ConfigRelay.step ids766 t = none → t.Faithful ids766 [[0x07, 9]] [[0x00, 2]] := by
  constructor
  · intro h
    have hrun := (h ⟨.done, [], [], [], [[0x05, 1], [0x07, 9], [0x03]], [[0x05, 1]]⟩
      (.of_steps (.head rfl (.head rfl (.head rfl (.head rfl (.single rfl)))))) rfl).toClient
    exact absurd hrun (by decide)
  · intro h
    have hrun := (h ⟨.done, [], [], [], [[0x07, 9], [0x03]], []⟩
      (.of_steps (.head rfl (.head rfl (.head rfl (.single rfl))))) rfl).toBackend
    exact absurd hrun (by decide)

end Kojacoord
