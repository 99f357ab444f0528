import Kojacoord.Net.AcceptFilters
import Kojacoord.Proxy.Step

namespace Kojacoord
open List

def findSegment (seg : List Char) : List Char → Option Nat
  | [] => if seg.isEmpty then some 0 else none
  | c :: text =>
    if seg.isPrefixOf (c :: text) then some 0 else (findSegment seg text).map (· + 1)

def inOrder : List (List Char) → List Char → Bool
  | [], _ => true
  | seg :: segs, text =>
    if seg.isEmpty then inOrder segs text
    else
      match findSegment seg text with
      | some offset => inOrder segs (text.drop (offset + seg.length))
      | none => false

def globMatchCi (pattern name : String) : Bool :=
  let pl := pattern.toList.map Char.toLower
  let nl := name.toList.map Char.toLower
  match pl.splitOn '*' with
  | [] | [_] => pl = nl
  | first :: second :: rest =>
    let last := (second :: rest).getLast (by simp)
    let tail := nl.drop first.length
    first.isPrefixOf nl && last.isSuffixOf tail &&
      inOrder (second :: rest).dropLast (tail.take (tail.length - last.length))

namespace ServerRegistry
variable {r : ServerRegistry}

def Available (r : ServerRegistry) (b : ServerId) : Prop := r.Bound b ∧ (r.server b).isOnline = true

structure Picks (r : ServerRegistry) (choice : Option ServerId) : Prop where
  available : choice = some b → r.Available b
  none : choice = none → ¬ r.Available b

end ServerRegistry

section Selectors
variable {r : ServerRegistry} {rules : RoutingRules} {t : RouteTable}

theorem ServerRegistry.Picks.or (hfst : ∀ b, first = some b → r.Available b)
    (h : r.Picks choice) : r.Picks (first.or choice) where
  available := by
    intro b hb
    rcases Option.or_eq_some_iff.mp hb with hb | ⟨-, hb⟩
    · exact hfst b hb
    · exact h.available hb
  none hno := h.none (Option.or_eq_none_iff.mp hno).2

end Selectors

section Picked
variable {cfg : ProxyConfig} {s : State} {k : Conn}

end Picked

end Kojacoord
