import Kojacoord.Lib.Utf8
import Kojacoord.Net.AcceptFilters
import Kojacoord.Protocol.Encode

namespace Kojacoord
open AssocList List

namespace Query

structure Challenge where
  token : Int32
  issuedAt : Nat

abbrev Challenges := AList fun _ : SocketAddr × Int32 => Challenge

structure View where
  motd : String
  maxPlayers : Nat
  bind : String
  serverNames : List String
  usernames : List (Option String)

def challengeTtl : Nat := 30 * second

def maxChallenges : Nat := 100000

def fromBeBytes (bytes : List UInt8) : Int32 := (UInt32.ofNat (Decode.bigEndian bytes)).toInt32

def cstr (s : String) : List UInt8 := s.toUTF8.data.toList ++ [0]

def View.port (view : View) : Nat :=
  ((splitOnce ':' view.bind.toList.reverse).bind fun parts =>
    ProxyProtocol.parseU16 parts.1.reverse).elim 25565 (·.toNat)

def handshakeBytes (session token : Int32) : List UInt8 :=
  [0x09] ++ Encode.i32 session ++ cstr (toString token.toInt)

def basicStatResponse (view : View) (session : Int32) : List UInt8 :=
  [0x00] ++ Encode.i32 session ++ cstr view.motd ++ cstr "SMP" ++ cstr "world" ++
    cstr (toString view.usernames.length) ++ cstr (toString view.maxPlayers) ++
    (Encode.bigEndian 2 view.port).reverse ++ cstr "0.0.0.0"

def fullStatPairs (view : View) : List (String × String) :=
  [("hostname", view.motd), ("gametype", "SMP"), ("game_id", "MINECRAFT"),
    ("version", "1.6-1.26"), ("plugins", "; ".intercalate view.serverNames), ("map", "world"),
    ("numplayers", toString view.usernames.length), ("maxplayers", toString view.maxPlayers),
    ("hostport", toString view.port), ("hostip", "0.0.0.0")]

def pairPadding : List UInt8 := [115, 112, 108, 105, 116, 110, 117, 109, 0, 0x80, 0]

def playerPadding : List UInt8 := [1, 112, 108, 97, 121, 101, 114, 95, 0, 0]

def pairsBytes (pairs : List (String × String)) : List UInt8 :=
  pairs.flatMap fun pair => cstr pair.1 ++ cstr pair.2

def fullStatResponse (view : View) (session : Int32) : List UInt8 :=
  [0x00] ++ Encode.i32 session ++ pairPadding ++ pairsBytes (fullStatPairs view) ++ [0, 0] ++
    playerPadding ++ (view.usernames.filterMap id).flatMap cstr ++ [0]

/-- The response names the token that is drawn, also where there is no room to remember it. -/
def handshakeResponse (now : Nat) (token : Int32) (addr : SocketAddr) (session : Int32)
    (challenges : Challenges) : List UInt8 × Challenges :=
  (handshakeBytes session token,
    if challenges.keys.length < maxChallenges then
      challenges.insert (addr, session) ⟨token, now⟩
    else challenges)

def verifyChallenge (now : Nat) (addr : SocketAddr) (session token : Int32)
    (challenges : Challenges) : Bool :=
  match challenges.lookup (addr, session) with
  | some c => decide (now - c.issuedAt < challengeTtl) && decide (c.token = token)
  | none => false

def evictStale (now : Nat) (challenges : Challenges) : Challenges :=
  retain (fun c => decide (now - c.issuedAt < challengeTtl)) challenges

def hasType (packetType : UInt8) (data : List UInt8) : Bool :=
  7 ≤ data.length && data.take 2 == [0xFE, 0xFD] && data[2]? == some packetType

def sessionId (data : List UInt8) : Int32 := fromBeBytes ((data.drop 3).take 4)

def requestToken (data : List UInt8) : Int32 := fromBeBytes ((data.drop 7).take 4)

def handlePacket (view : View) (now : Nat) (token : Int32) (data : List UInt8) (addr : SocketAddr)
    (challenges : Challenges) : Option (List UInt8) × Challenges :=
  if hasType 0x09 data then
    let (response, challenges) := handshakeResponse now token addr (sessionId data) challenges
    (some response, challenges)
  else if hasType 0x00 data then
    if data.length < 11 then (none, challenges)
    else if verifyChallenge now addr (sessionId data) (requestToken data) challenges then
      (some (if 15 ≤ data.length then fullStatResponse view (sessionId data)
        else basicStatResponse view (sessionId data)), challenges)
    else (none, challenges)
  else (none, challenges)

/-- Datagrams and sweeps, each with its time; a datagram comes with the state that its response
would read and the token that it would draw. -/
inductive Event where
  | datagram (view : View) (now : Nat) (token : Int32) (data : List UInt8) (addr : SocketAddr)
  | sweep (now : Nat)

def step (challenges : Challenges) : Event → Option (List UInt8) × Challenges
  | .datagram view now token data addr => handlePacket view now token data addr challenges
  | .sweep now => (none, evictStale now challenges)

def run (events : List Event) : Challenges :=
  events.foldl (fun challenges event => (step challenges event).2) ∅

section Challenges

def Issued (past : List Event) (key : SocketAddr × Int32) (c : Challenge) : Prop :=
  ∃ before view data after,
    past = before ++ .datagram view c.issuedAt c.token data key.1 :: after ∧
    hasType 0x09 data = true ∧ sessionId data = key.2 ∧
    (step (run before) (.datagram view c.issuedAt c.token data key.1)).1 =
      some (handshakeBytes key.2 c.token)

theorem run_append (past : List Event) (event : Event) :
    run (past ++ [event]) = (step (run past) event).2 := by
  rw [run, foldl_append]
  rfl

theorem handlePacket_handshake (h : hasType 0x09 data = true) :
    handlePacket view now token data addr challenges =
      (some (handshakeBytes (sessionId data) token),
        (handshakeResponse now token addr (sessionId data) challenges).2) :=
  if_pos h

theorem handlePacket_snd (h : hasType 0x09 data = false) :
    (handlePacket view now token data addr challenges).2 = challenges := by
  rw [handlePacket, h, if_neg Bool.false_ne_true]
  split_ifs <;> rfl

theorem lookup_step (h : (step challenges event).2.lookup key = some c) :
    challenges.lookup key = some c ∨
      ∃ view data, event = .datagram view c.issuedAt c.token data key.1 ∧
        hasType 0x09 data = true ∧ sessionId data = key.2 ∧
        (step challenges event).1 = some (handshakeBytes key.2 c.token) := by
  cases event with
  | sweep now =>
    rw [step, evictStale, lookup_retain] at h
    exact .inl (Option.filter_eq_some_iff.mp h).1
  | datagram view now token data addr =>
    rw [step] at h
    cases htype : hasType 0x09 data with
    | false =>
      rw [handlePacket_snd htype] at h
      exact .inl h
    | true =>
      rw [handlePacket_handshake htype, handshakeResponse] at h
      split at h
      · by_cases hkey : key = (addr, sessionId data)
        · subst hkey
          rw [AList.lookup_insert] at h
          obtain rfl := Option.some.inj h
          refine .inr ⟨view, data, rfl, htype, rfl, ?_⟩
          rw [step, handlePacket_handshake htype]
        · rw [AList.lookup_insert_ne hkey] at h
          exact .inl h
      · exact .inl h

theorem issued_of_lookup (h : (run past).lookup key = some c) : Issued past key c := by
  induction past using List.reverseRecOn with
  | nil =>
    cases h
  | append_singleton past event ih =>
    rw [run_append] at h
    rcases lookup_step h with h | ⟨view, data, rfl, hhan⟩
    · obtain ⟨before, view, data, after, rfl, hiss⟩ := ih h
      exact ⟨before, view, data, after ++ [event], by simp, hiss⟩
    · exact ⟨past, view, data, [], rfl, hhan⟩

theorem hasType_unique (h : hasType t data = true) (h' : hasType t' data = true) : t = t' := by
  simp only [hasType, Bool.and_eq_true, beq_iff_eq] at h h'
  exact Option.some.inj (h.2.symm.trans h'.2)

theorem verified_of_answered (htype : hasType 0x00 data = true)
    (h : (handlePacket view now drawn data addr challenges).1.isSome = true) :
    11 ≤ data.length ∧
      verifyChallenge now addr (sessionId data) (requestToken data) challenges = true := by
  have hoth : ¬ hasType 0x09 data = true := fun h => by cases hasType_unique htype h
  rw [handlePacket, if_neg hoth, if_pos htype] at h
  split at h
  · cases h
  · next hlen =>
    split at h
    · next hver => exact ⟨Nat.not_lt.mp hlen, hver⟩
    · cases h

theorem challenge_of_verify (h : verifyChallenge now addr session token challenges = true) :
    ∃ c, challenges.lookup (addr, session) = some c ∧ c.token = token ∧
      now - c.issuedAt < challengeTtl := by
  rw [verifyChallenge] at h
  cases hlk : challenges.lookup (addr, session) with
  | none => simp [hlk] at h
  | some c =>
    simp only [hlk, Bool.and_eq_true, decide_eq_true_eq] at h
    exact ⟨c, rfl, h.2, h.1⟩

/-- A stat request is answered only if it returns the token that its sender got for a handshake
under the same session id, not long ago. -/
theorem stat_answered (past : List Event) (view : View) (now : Nat) (drawn : Int32)
    (data : List UInt8) (addr : SocketAddr) (htype : hasType 0x00 data = true)
    (h : (step (run past) (.datagram view now drawn data addr)).1.isSome = true) :
    11 ≤ data.length ∧ ∃ before view' issuedAt data' after,
      past = before ++ .datagram view' issuedAt (requestToken data) data' addr :: after ∧
      hasType 0x09 data' = true ∧ sessionId data' = sessionId data ∧
      (step (run before) (.datagram view' issuedAt (requestToken data) data' addr)).1 =
        some (handshakeBytes (sessionId data) (requestToken data)) ∧
      now - issuedAt < challengeTtl := by
  obtain ⟨hlength, hverify⟩ := verified_of_answered htype h
  obtain ⟨c, hlookup, htoken, hfresh⟩ := challenge_of_verify hverify
  obtain ⟨before, view', data', after, hissued⟩ := issued_of_lookup hlookup
  rw [htoken] at hissued
  obtain ⟨hpast, hhandshake, hsession, hanswer⟩ := hissued
  exact ⟨hlength, before, view', c.issuedAt, data', after, hpast, hhandshake, hsession, hanswer,
    hfresh⟩

theorem stat_answered_second :
    let view : View := ⟨"", 0, "", [], []⟩
    let handshake : List UInt8 := [0xFE, 0xFD, 0x09, 0, 0, 0, 1]
    let request : List UInt8 := [0xFE, 0xFD, 0x00, 0, 0, 0, 1, 0, 0, 0, 7]
    let past : List Event := [.datagram view 0 7 handshake ⟨.v4 0, 1⟩]
    (step (run past) (.datagram view second 3 request ⟨.v4 0, 1⟩)).1.isSome = true ∧
      ∃ before view' issuedAt data' after,
        past = before ++ .datagram view' issuedAt (requestToken request) data' ⟨.v4 0, 1⟩ :: after ∧
        second - issuedAt < challengeTtl := by
  intro view handshake request past
  have hanswered :
      (step (run past) (.datagram view second 3 request ⟨.v4 0, 1⟩)).1.isSome = true := by
    decide +kernel
  obtain ⟨-, before, view', issuedAt, data', after, hpast, -, -, -, hfresh⟩ :=
    stat_answered past view second 3 request ⟨.v4 0, 1⟩ (by decide) hanswered
  exact ⟨hanswered, before, view', issuedAt, data', after, hpast, hfresh⟩

end Challenges

section FullStat

def NulFree (s : String) : Prop := '\x00' ∉ s.toList

instance : Decidable (NulFree s) := inferInstanceAs (Decidable (¬ _))

/-- A response as the grammar has it: no string holds a zero, and no key and no player is empty. -/
structure WellFormed (pairs : List (String × String)) (players : List String) : Prop where
  keys : ∀ pair ∈ pairs, pair.1 ≠ "" ∧ NulFree pair.1 ∧ NulFree pair.2
  players : ∀ player ∈ players, player ≠ "" ∧ NulFree player

/-- The bytes parse as a full stat: a type, a session id, eleven bytes, pairs up to an empty key,
ten bytes, and players up to an empty one. -/
def Parses (bytes : List UInt8) (session : Int32) (pairs : List (String × String))
    (players : List String) : Prop :=
  WellFormed pairs players ∧ ∃ padding : List UInt8, padding.length = 11 ∧
    bytes = ([0x00] ++ Encode.i32 session ++ padding) ++ (pairsBytes pairs ++ 0 ::
      (playerPadding ++ players.flatMap cstr ++ [0]))

theorem append_zero_inj {front front' : List UInt8} (h : 0 ∉ front) (h' : 0 ∉ front')
    (heq : front ++ 0 :: rest = front' ++ 0 :: rest') : rest = rest' := by
  induction front generalizing front' with
  | nil =>
    cases front' with
    | nil => exact (List.cons.inj heq).2
    | cons b front' =>
      rw [(List.cons.inj heq).1] at h'
      exact absurd mem_cons_self h'
  | cons a front ih =>
    cases front' with
    | nil =>
      rw [(List.cons.inj heq).1] at h
      exact absurd mem_cons_self h
    | cons b front' =>
      exact ih (not_mem_of_not_mem_cons h) (not_mem_of_not_mem_cons h')
        (List.cons.inj heq).2

theorem zero_notMem {s : String} (h : NulFree s) : 0 ∉ s.toUTF8.data.toList := by
  rw [Utf8.toUTF8_toList]
  exact fun hz => h (Utf8.nul_mem_of_zero_mem hz)

theorem cstr_inj {s s' : String} (h : NulFree s) (h' : NulFree s')
    (heq : cstr s ++ rest = cstr s' ++ rest') : rest = rest' := by
  rw [cstr, cstr, append_assoc, append_assoc] at heq
  exact append_zero_inj (zero_notMem h) (zero_notMem h') heq

theorem cstr_ne {s : String} (hne : s ≠ "") (h : NulFree s) : cstr s ++ rest ≠ 0 :: rest' := by
  intro heq
  cases hbs : s.toUTF8.data.toList with
  | nil =>
    rw [Utf8.toUTF8_toList] at hbs
    exact hne (String.toList_eq_nil_iff.mp (Utf8.encode_eq_nil hbs))
  | cons b bytes =>
    rw [cstr, hbs] at heq
    have hb := zero_notMem h
    rw [hbs, (List.cons.inj heq).1] at hb
    exact hb mem_cons_self

theorem pairsBytes_inj
    (h : ∀ pair ∈ pairs, pair.1 ≠ "" ∧ NulFree pair.1 ∧ NulFree pair.2)
    (h' : ∀ pair ∈ pairs', pair.1 ≠ "" ∧ NulFree pair.1 ∧ NulFree pair.2)
    (heq : pairsBytes pairs ++ 0 :: rest = pairsBytes pairs' ++ 0 :: rest') : rest = rest' := by
  have hcons (pair : String × String) (pairs : List (String × String)) (rest : List UInt8) :
      pairsBytes (pair :: pairs) ++ rest =
        cstr pair.1 ++ (cstr pair.2 ++ (pairsBytes pairs ++ rest)) := by
    simp [pairsBytes]
  induction pairs generalizing pairs' with
  | nil =>
    cases pairs' with
    | nil => exact (List.cons.inj heq).2
    | cons pair' pairs' =>
      obtain ⟨⟨hne, hkey, -⟩, -⟩ := forall_mem_cons.mp h'
      rw [hcons] at heq
      exact absurd heq.symm (cstr_ne hne hkey)
  | cons pair pairs ih =>
    obtain ⟨⟨hne, hkey, hval⟩, hpai⟩ := forall_mem_cons.mp h
    rw [hcons] at heq
    cases pairs' with
    | nil => exact absurd heq (cstr_ne hne hkey)
    | cons pair' pairs' =>
      obtain ⟨⟨-, hkey', hval'⟩, hpai'⟩ := forall_mem_cons.mp h'
      rw [hcons] at heq
      exact ih hpai hpai' (cstr_inj hval hval' (cstr_inj hkey hkey' heq))

theorem nulFree_toString (n : Nat) : NulFree (toString n) := by
  intro hmem
  rw [Nat.toString_eq_repr, Nat.toList_repr] at hmem
  exact absurd (Nat.isDigit_of_mem_toDigits (by decide) (by decide) hmem) (by decide)

theorem nulFree_intercalate (h : ∀ name ∈ names, NulFree name) :
    NulFree ("; ".intercalate names) := by
  rw [NulFree, String.toList_intercalate]
  induction names with
  | nil => simp [List.intercalate]
  | cons name names ih =>
    obtain ⟨hnm, hnms⟩ := forall_mem_cons.mp h
    cases names with
    | nil => simpa [List.intercalate] using show '\x00' ∉ name.toList from hnm
    | cons next names =>
      rw [map_cons, map_cons, intercalate_cons_cons, mem_append, mem_append, not_or, not_or]
      exact ⟨⟨hnm, by decide⟩, ih hnms⟩

theorem fullStatPairs_keys (hmotd : NulFree view.motd)
    (hnms : ∀ name ∈ view.serverNames, NulFree name) :
    ∀ pair ∈ fullStatPairs view, pair.1 ≠ "" ∧ NulFree pair.1 ∧ NulFree pair.2 := by
  have hkeys : ∀ pair ∈ fullStatPairs view, pair.1 ≠ "" ∧ NulFree pair.1 := by
    simp [fullStatPairs, NulFree]
  have hvals : ∀ pair ∈ fullStatPairs view, NulFree pair.2 := by
    simp only [fullStatPairs, forall_mem_cons, not_mem_nil, false_imp_iff, implies_true, and_true]
    exact ⟨hmotd, by decide, by decide, by decide, nulFree_intercalate hnms, by decide,
      nulFree_toString _, nulFree_toString _, nulFree_toString _, by decide⟩
  exact fun pair hpr => ⟨(hkeys pair hpr).1, (hkeys pair hpr).2, hvals pair hpr⟩

theorem not_parses (hmotd : NulFree view.motd) (hnms : ∀ name ∈ view.serverNames, NulFree name) :
    ¬ Parses (fullStatResponse view session) session' pairs players := by
  rintro ⟨hfor, padding, hlen, heq⟩
  have hresp : fullStatResponse view session =
      ([0x00] ++ Encode.i32 session ++ pairPadding) ++ (pairsBytes (fullStatPairs view) ++ 0 ::
        (0 :: (playerPadding ++ (view.usernames.filterMap id).flatMap cstr ++ [0]))) := by
    simp [fullStatResponse]
  rw [hresp] at heq
  obtain ⟨-, hpai⟩ := append_inj heq (by simp [Encode.i32, hlen, pairPadding])
  have hrs := pairsBytes_inj (fullStatPairs_keys hmotd hnms) hfor.keys hpai
  cases (List.cons.inj hrs).1

/-- No response can be read, whatever is put into it. -/
theorem fullStatResponse_unreadable (view : View) (session : Int32) (hmotd : NulFree view.motd)
    (hnames : ∀ name ∈ view.serverNames, NulFree name) :
    ¬ ∃ session' pairs players, Parses (fullStatResponse view session) session' pairs players :=
  fun ⟨_, _, _, hparses⟩ => not_parses hmotd hnames hparses

theorem fullStatResponse_unreadable_empty :
    ¬ ∃ session' pairs players,
      Parses (fullStatResponse ⟨"hub", 20, "0.0.0.0:25565", [], []⟩ 1) session' pairs players :=
  fullStatResponse_unreadable _ 1 (by decide) (by simp)

theorem fullStatResponse_steve :
    let view : View := ⟨"hub", 20, "0.0.0.0:25565", ["lobby"], [some "steve"]⟩
    ¬ Parses (fullStatResponse view 1) 1 (fullStatPairs view) ["steve"] :=
  not_parses (by decide) (by decide)

end FullStat

end Query

end Kojacoord
