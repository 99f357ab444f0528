import Kojacoord.Lib.JsonRoundTrip
import Kojacoord.Net.Relay

namespace Kojacoord
open Json RoundTrip List

def hex4 (n : Nat) : List Char := (Nat.toDigits 16 n).leftpad 4 '0'

def jsonEscapeChar (c : Char) : List Char :=
  if c = '\\' then ['\\', '\\']
  else if c = '"' then ['\\', '"']
  else if c = '\n' then ['\\', 'n']
  else if c = '\r' then ['\\', 'r']
  else if c = '\t' then ['\\', 't']
  else if isControl c then '\\' :: 'u' :: hex4 c.toNat
  else [c]

def jsonEscape (s : String) : String := .ofList (s.toList.flatMap jsonEscapeChar)

def KickReason.parts : KickReason → String × String × String
  | .malformedPacket => ("Malformed Packet", "A packet you sent could not be decoded.", "red")
  | .oversizedString =>
    ("Oversized String", "A string in your packet exceeded protocol limits.", "red")
  | .illegalChatCharacters =>
    ("Illegal Characters", "Your message contained disallowed characters.", "red")
  | .custom title detail => (title, detail, "red")

def buildKickMessage (reason : KickReason) : String :=
  let (title, detail, color) := reason.parts
  let title := jsonEscape title
  let detail := jsonEscape detail
  ("\x7b\"text\":\"\",\"extra\":[\x7b\"text\":\"\\n\\n\",\"color\":\"white\"\x7d," ++
    "\x7b\"text\":\"Kojacoord Network\\n\",\"bold\":true,\"color\":\"gold\"\x7d," ++
    "\x7b\"text\":\"─────────────────────\\n\",\"color\":\"gray\"\x7d,\x7b\"text\":\"") ++
  title ++ "\\n\\n\",\"bold\":true,\"color\":\"" ++ color ++ "\"\x7d,\x7b\"text\":\"" ++ detail ++
  ("\\n\",\"color\":\"white\"\x7d," ++
    "\x7b\"text\":\"─────────────────────\\n\",\"color\":\"gray\"\x7d," ++
    "\x7b\"text\":\"discord.gg/yourserver\",\"color\":\"aqua\",\"underlined\":true\x7d]\x7d")

theorem hex4_of_lt (h : n < 256) :
    hex4 n = ['0', '0', Nat.digitChar (n / 16), Nat.digitChar (n % 16)] := by
  have hall : ∀ n < 256, hex4 n = ['0', '0', Nat.digitChar (n / 16), Nat.digitChar (n % 16)] := by
    decide +kernel
  exact hall n h

theorem escapes_jsonEscapeChar : Escapes jsonEscapeChar where
  reads := by
    intro c n rest
    unfold jsonEscapeChar
    split
    · rename_i h; subst h; rfl
    split
    · rename_i h; subst h; rfl
    split
    · rename_i h; subst h; rfl
    split
    · rename_i h; subst h; rfl
    split
    · rename_i h; subst h; rfl
    rename_i hsl hqu _ _ _
    split
    · rename_i h
      have hlt : c.toNat < 256 := by
        simp only [isControl, Bool.or_eq_true, Bool.and_eq_true, decide_eq_true_eq] at h
        omega
      rw [hex4_of_lt hlt]
      exact stringTail_unicode hlt n rest
    · rename_i h
      simp only [isControl, Bool.or_eq_true, decide_eq_true_eq, not_or] at h
      exact stringTail_plain hqu hsl h.1 n rest
  ne_nil := by
    intro c
    unfold jsonEscapeChar
    split_ifs <;> exact cons_ne_nil _ _

def kickComponent (title detail : String) : Value :=
  .obj [("text", .str ""), ("extra", .arr [
    .obj [("text", .str "\n\n"), ("color", .str "white")],
    .obj [("text", .str "Kojacoord Network\n"), ("bold", .bool true), ("color", .str "gold")],
    .obj [("text", .str "─────────────────────\n"), ("color", .str "gray")],
    .obj [("text", .str (title ++ "\n\n")), ("bold", .bool true), ("color", .str "red")],
    .obj [("text", .str (detail ++ "\n")), ("color", .str "white")],
    .obj [("text", .str "─────────────────────\n"), ("color", .str "gray")],
    .obj [("text", .str "discord.gg/yourserver"), ("color", .str "aqua"),
      ("underlined", .bool true)]])]

theorem write_component :
    (Value.obj [("text", .str ""), ("extra", .arr parts)]).write jsonEscapeChar 3 =
      "\x7b\"text\":\"\",\"extra\":[".toList ++
        (List.intercalate [','] (parts.map (Value.write jsonEscapeChar 1)) ++ "]\x7d".toList) := by
  have hop : "\x7b\"text\":\"\",\"extra\":[".toList =
      '\x7b' :: (quote "text" ++ ':' :: '"' :: '"' :: ',' :: (quote "extra" ++ [':', '['])) := by
    decide +kernel
  have hcl : "]\x7d".toList = [']', '\x7d'] := by decide
  rw [hop, hcl]
  simp [Value.write, intercalate_cons_cons]

theorem write_part : (Value.obj (("text", .str (s ++ t)) :: m :: members)).write jsonEscapeChar 1 =
    "\x7b\"text\":\"".toList ++ ((jsonEscape s).toList ++ (t.toList.flatMap jsonEscapeChar ++
      '"' :: ',' :: (List.intercalate [','] ((m :: members).map fun m =>
        quote m.1 ++ ':' :: m.2.write jsonEscapeChar 0) ++ ['\x7d']))) := by
  have hop : "\x7b\"text\":\"".toList = '\x7b' :: (quote "text" ++ [':', '"']) := by
    decide +kernel
  rw [hop]
  simp [Value.write, intercalate_cons_cons, jsonEscape]

variable {title detail : String}

theorem toList_message (before first color second after : String) :
    (before ++ title ++ first ++ color ++ second ++ detail ++ after).toList =
      before.toList ++ (title.toList ++ ((first ++ color ++ second).toList ++
        (detail.toList ++ after.toList))) := by
  simp

theorem append_intercalate :
    start ++ (List.intercalate [','] [first, other, third, text ++ (x ++ e), text ++ (y ++ f),
      fourth, fifth] ++ finish) =
        (start ++ first ++ [','] ++ other ++ [','] ++ third ++ [','] ++ text) ++
          (x ++ ((e ++ [','] ++ text) ++
            (y ++ (f ++ [','] ++ fourth ++ [','] ++ fifth ++ finish)))) := by
  simp [intercalate_cons_cons]

theorem buildKickMessage_custom : buildKickMessage (.custom title detail) =
    .ofList ((kickComponent title detail).write jsonEscapeChar 3) := by
  have hmsg : (buildKickMessage (.custom title detail)).toList = _ := toList_message ..
  apply String.toList_injective
  rw [String.toList_ofList, kickComponent, write_component, hmsg]
  simp only [map_cons, map_nil, write_part, append_intercalate]
  -- The title and the detail stand between fixed texts, which are compared by evaluation.
  refine congrArg₂ _ ?_ (congrArg _ (congrArg₂ _ ?_ (congrArg _ ?_)))
  · rw [String.toList_append, String.toList_append]
    decide +kernel
  · decide +kernel
  · rw [String.toList_append, String.toList_append]
    decide +kernel

def ownText (v : Value) : String :=
  match v.member? "text" with
  | some (.str s) => s
  | _ => ""

def plainText (v : Value) : String :=
  match v.member? "extra" with
  | some (.arr parts) => ownText v ++ String.join (parts.map ownText)
  | _ => ownText v

/-- The message of a custom reason is one JSON object, the same for all but for title and detail,
and a reader sees both as they were given. -/
theorem parse_buildKickMessage (title detail : String) :
    parse (buildKickMessage (.custom title detail)) = some (kickComponent title detail) ∧
      plainText (kickComponent title detail) =
        "\n\n" ++ "Kojacoord Network\n" ++ "─────────────────────\n" ++ title ++ "\n\n" ++
          detail ++ "\n" ++ "─────────────────────\n" ++ "discord.gg/yourserver" := by
  constructor
  · rw [buildKickMessage_custom]
    exact parse_of_reads (escapes_jsonEscapeChar.reads_write _ _ (Nat.lt_succ_self _))
  · simp [plainText, ownText, kickComponent, Value.member?, String.append_assoc,
      -String.reduceAppend]

end Kojacoord
