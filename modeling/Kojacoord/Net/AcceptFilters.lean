import Kojacoord.Lib.TokenBucket
import Kojacoord.Net.Connection

namespace Kojacoord
open TokenBucket

def second : Nat := 1000000000

def ipRules : Rules where
  capacity := 8
  rate := 2 / second
  banDuration := 120 * second
  maxRecords := 1000000
  staleAfter := 10 * second

def asnRules : Rules where
  capacity := 64
  rate := 4 / second
  banDuration := 300 * second
  maxRecords := 100000
  staleAfter := 30 * second

/-- A limit of zero switches its half of the throttle off; the limits have no other effect. -/
structure ConnectionThrottle where
  ipRecords : Table IpAddr
  asnRecords : Table UInt32
  maxPerIp : UInt32
  maxPerAsn : UInt32

abbrev Filter (σ : Type) := ExceptT String (StateM σ)

namespace ConnectionThrottle

def refusalText (noun : String) : Refusal → String
  | .tableFull | .empty => "too many connections from " ++ noun
  | .banned => "temporarily banned by " ++ noun

def checkIp (ip : IpAddr) (now : Nat) : Filter ConnectionThrottle Unit := fun t =>
  let (result, ipRecords) := ipRules.check now ip t.ipRecords
  (result.mapError (refusalText "IP"), { t with ipRecords })

def checkAsn (asn : UInt32) (now : Nat) : Filter ConnectionThrottle Unit := fun t =>
  let (result, asnRecords) := asnRules.check now asn t.asnRecords
  (result.mapError (refusalText "ASN"), { t with asnRecords })

/-- There is no table of networks: operators are to plug one in. -/
def resolveAsn (_ip : IpAddr) : Option UInt32 := none

def check (ip : IpAddr) (now later : Nat) : Filter ConnectionThrottle Unit := do
  if 0 < (← get).maxPerIp then checkIp ip now
  if 0 < (← get).maxPerAsn then
    match resolveAsn ip with
    | some asn => checkAsn asn later
    | none => return ()

end ConnectionThrottle

def parseU8 (s : List Char) : Option Nat :=
  match ProxyProtocol.parseU16 s with
  | some n => if n.toNat < 256 then some n.toNat else none
  | none => none

def prefixMatch (net host : BitVec w) (length : Nat) : Bool :=
  if length > w then false
  else
    let mask := if length = 0 then 0 else BitVec.allOnes w <<< (w - length)
    net &&& mask == host &&& mask

def prefixMatchV4 (net host : BitVec 32) (length : Nat) : Bool := prefixMatch net host length

def prefixMatchV6 (net host : BitVec 128) (length : Nat) : Bool := prefixMatch net host length

def splitOnce (sep : Char) (s : List Char) : Option (List Char × List Char) :=
  match s.span (· ≠ sep) with
  | (front, _ :: back) => some (front, back)
  | (_, []) => none

def cidrMatches (parseIp : String → Option IpAddr) (cidr : String) (ip : IpAddr) : Bool :=
  match splitOnce '/' cidr.toList with
  | none => parseIp cidr == some ip
  | some (net, length) =>
    match parseU8 length with
    | none => false
    | some length =>
      match parseIp (.ofList net), ip with
      | some (.v4 net), .v4 host => prefixMatchV4 net host length
      | some (.v6 net), .v6 host => prefixMatchV6 net host length
      | _, _ => false

structure IpReputationFilter where
  blocklistCidrs : List String
  providerUrl : Option String
  cacheTtl : Nat
  cache : AList fun _ : IpAddr => Bool × Nat

structure IpReputationConfig where
  blocklistCidrs : List String
  providerUrl : Option String
  cacheTtlSecs : Nat

namespace IpReputationFilter

def maxCacheEntries : Nat := 500000

def new (config : IpReputationConfig) : IpReputationFilter where
  blocklistCidrs := config.blocklistCidrs
  providerUrl := config.providerUrl.filter fun url => trim url ≠ ""
  cacheTtl := max config.cacheTtlSecs 1 * second
  cache := ∅

def blocks (parseIp : String → Option IpAddr) (f : IpReputationFilter) (ip : IpAddr) : Bool :=
  f.blocklistCidrs.any fun cidr => cidrMatches parseIp cidr ip

def cached (f : IpReputationFilter) (ip : IpAddr) (now : Nat) : Option Bool :=
  match f.cache.lookup ip with
  | some (blocked, checkedAt) => if now - checkedAt < f.cacheTtl then some blocked else none
  | none => none

/-- `query` is what the provider comes to, where every failure counts as a pass. -/
def check (parseIp : String → Option IpAddr) (query : String → IpAddr → Bool) (ip : IpAddr)
    (now later : Nat) : Filter IpReputationFilter Unit := do
  let f ← get
  if f.blocks parseIp ip then throw "IP in static reputation blocklist"
  match f.providerUrl with
  | none => return ()
  | some url =>
    match f.cached ip now with
    | some true => throw "IP flagged by reputation provider (cached)"
    | some false => return ()
    | none =>
      let blocked := query url ip
      if f.cache.keys.length < maxCacheEntries then
        set { f with cache := f.cache.insert ip (blocked, later) }
      if blocked then throw "IP flagged by reputation provider"

end IpReputationFilter

end Kojacoord
