import Kojacoord.Lib.JsonRoundTrip
import Kojacoord.Net.Client

namespace Kojacoord
open Json

structure Listing where
  max : Nat
  online : Nat
  sample : List Value
  description : Value
  favicon : Option String

def natJson (n : Nat) : Value := .num (.ofNat n)

def textJson (text : String) : Value := .obj [("text", .str text)]

def Listing.players (l : Listing) : Value :=
  .obj [("max", natJson l.max), ("online", natJson l.online), ("sample", .arr l.sample)]

def faviconField (favicon : Option String) : String :=
  (favicon.map fun f => ",\"favicon\":" ++ (Value.str f).text).getD ""

def Listing.suffix (l : Listing) : String :=
  "\x7d,\"players\":" ++ l.players.text ++ ",\"description\":" ++ l.description.text ++
    faviconField l.favicon ++ "\x7d"

structure StatusConfig where
  maxPlayers : Nat
  motd : String
  motdJson : Option Value
  serverLore : Option String

def StatusConfig.description (config : StatusConfig) : Value :=
  config.motdJson.getD (textJson config.motd)

def initialSuffix : String :=
  "\x7d,\"players\":\x7b\"max\":0,\"online\":0,\"sample\":[]\x7d," ++
    "\"description\":\x7b\"text\":\"\"\x7d\x7d"

def reloadSuffix (new : StatusConfig) (favicon : Option String) : String :=
  "\x7d,\"players\":\x7b\"max\":" ++ toString new.maxPlayers ++
    ",\"online\":0,\"sample\":[]\x7d,\"description\":\x7b\"text\":" ++ (Value.str new.motd).text ++
    "\x7d" ++ faviconField favicon ++ "\x7d"

def samplePlayer (lore : Option String) (name id : String) : Value :=
  .obj (("id", .str id) :: (lore.toList.map fun l => ("lore", .str l)) ++ [("name", .str name)])

def playerSample (hyphenated : Uuid → String) (lore : Option String)
    (seen : List (Option PlayerSession)) : List Value :=
  let sample := (seen.take 12).filterMap fun session =>
    session.map fun s => samplePlayer lore s.username (hyphenated s.uuid)
  match sample, lore with
  | [], some l => [samplePlayer (some l) "" ""]
  | sample, _ => sample

def refreshSuffix (config : StatusConfig) (count : Nat) (sample : List Value)
    (favicon : Option String) : String :=
  let players : Value :=
    .obj [("max", natJson config.maxPlayers), ("online", natJson count), ("sample", .arr sample)]
  "\x7d,\"players\":" ++ players.text ++ ",\"description\":" ++ config.description.text ++
    faviconField favicon ++ "\x7d"

def initialListing : Listing := ⟨0, 0, [], textJson "", none⟩

def StatusConfig.reloaded (new : StatusConfig) (favicon : Option String) : Listing :=
  ⟨new.maxPlayers, 0, [], textJson new.motd, favicon⟩

def StatusConfig.refreshed (config : StatusConfig) (count : Nat) (sample : List Value)
    (favicon : Option String) : Listing :=
  ⟨config.maxPlayers, count, sample, config.description, favicon⟩

@[simp] theorem toList_text (v : Value) : v.text.toList = v.print := String.toList_ofList

theorem print_textJson (text : String) :
    (textJson text).print = "\x7b\"text\":".toList ++ (Value.str text).print ++ ['\x7d'] := by
  have hmem : (textJson text).print = '\x7b' :: (List.intercalate [',']
      ["\"text\":".toList ++ (Value.str text).print] ++ ['\x7d']) := rfl
  rw [hmem, List.intercalate_singleton]
  rfl

theorem Listing.print_players (l : Listing) :
    l.players.print = "\x7b\"max\":".toList ++ Nat.toDigits 10 l.max ++ ",\"online\":".toList ++
      Nat.toDigits 10 l.online ++ ",\"sample\":".toList ++ (Value.arr l.sample).print ++
        ['\x7d'] := by
  have hmem : l.players.print = '\x7b' :: (List.intercalate [',']
      ["\"max\":".toList ++ Nat.toDigits 10 l.max, "\"online\":".toList ++ Nat.toDigits 10 l.online,
        "\"sample\":".toList ++ (Value.arr l.sample).print] ++ ['\x7d']) := rfl
  rw [hmem, List.intercalate_cons_cons, List.intercalate_cons_cons, List.intercalate_singleton]
  simp

theorem reloadSuffix_eq (new : StatusConfig) (favicon : Option String) :
    reloadSuffix new favicon = (new.reloaded favicon).suffix := by
  have hz : Nat.toDigits 10 0 = ['0'] := Nat.toDigits_of_lt_base (by decide)
  have hno : (Value.arr []).print = ['[', ']'] := rfl
  apply String.toList_injective
  unfold reloadSuffix Listing.suffix
  rw [StatusConfig.reloaded]
  simp only [String.toList_append, toList_text, print_textJson, Listing.print_players, hz, hno,
    Nat.toString_eq_repr, Nat.toList_repr]
  simp

theorem refreshSuffix_eq (config : StatusConfig) (count : Nat) (sample : List Value)
    (favicon : Option String) :
    refreshSuffix config count sample favicon = (config.refreshed count sample favicon).suffix :=
  rfl

end Kojacoord
