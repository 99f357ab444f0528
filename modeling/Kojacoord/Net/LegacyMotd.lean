import Kojacoord.Net.Components
import Kojacoord.Net.TypedChat

namespace Kojacoord
open RoundTrip Option

def SerdeValue.get (v : SerdeValue) (key : String) : Option SerdeValue :=
  match v with
  | .object map => map.lookup key
  | _ => none

mutual

def extractDescriptionText : SerdeValue → String
  | .string s => s
  | .object map =>
    (match map.lookup "text" with
      | some (.string t) => t
      | _ => "") ++ extractExtra map
  | _ => ""

def extractExtra : List (String × SerdeValue) → String
  | [] => ""
  | (name, value) :: map =>
    if name = "extra" then
      match value with
      | .array extra => extractChildren extra
      | _ => ""
    else extractExtra map

def extractChildren : List SerdeValue → String
  | [] => ""
  | child :: extra => extractDescriptionText child ++ extractChildren extra

end

structure ClientboundLegacyMotd where
  protocol : String
  version : String
  motd : String
  players : String
  maxPlayers : String

namespace ClientboundLegacyMotd

def count (v : SerdeValue) (key : String) : Option Int64 := do
  match ← (← v.get "players").get key with
  | .number n => n.asI64
  | _ => none

def payload (m : ClientboundLegacyMotd) : String :=
  "§1\x00" ++ m.protocol ++ "\x00" ++ m.version ++ "\x00" ++ m.motd ++ "\x00" ++ m.players ++
    "\x00" ++ m.maxPlayers

section Fields

def InRange (n : Int) : Prop := -2 ^ 63 ≤ n ∧ n < 2 ^ 63

instance : Decidable (InRange n) := inferInstanceAs (Decidable (_ ∧ _))

variable {key : String}

end Fields

end ClientboundLegacyMotd

end Kojacoord
