import Kojacoord.Queue
import Kojacoord.Lib.Serde

namespace Kojacoord

structure PlayerSample where
  name : String
  uuid : Uuid

/-- The events the connection handler and the relay fire. Coordinates are the bits of an `f64`. -/
inductive PluginEvent where
  | playerJoin (uuid : Uuid) (username : String)
  | playerLeave (uuid : Uuid)
  | playerChat (uuid : Uuid) (message : String)
  | playerMove (uuid : Uuid) (x y z : UInt64) (onGround : Bool)
  | serverListPing (maxPlayers onlinePlayers : Nat) (sample : List PlayerSample)
  | preLogin (username address : String)
  | postLogin (uuid : Uuid) (username : String)
  | serverConnect (uuid : Uuid) (target : String)
  | serverSwitch (uuid : Uuid) (origin : Option String) (target : String)
  | serverKick (uuid : Uuid) (server reason : String)
  | playerDisconnect (uuid : Uuid) (username : String)
  | serverConnected (uuid : Uuid) (server : String)
  | pluginMessage (uuid : Uuid) (channel : String) (data : List UInt8)

inductive PluginResponse where
  | none
  | message (text : String)
  | kickPlayer (uuid : Uuid) (reason : String)
  | broadcast (text : String)
  | custom (value : Serde.Value)
  | cancel
  | updatePlayerSample (sample : List PlayerSample)
  | permissionResult (node : String) (granted : Bool)

inductive HandlerResult where
  | ok (response : Option PluginResponse)
  | err (error : String)
  | panicked

def HandlerResult.response : HandlerResult → Option PluginResponse
  | .ok response => response
  | .err _ | .panicked => none

namespace PluginResponse

def isCancel : PluginResponse → Bool
  | cancel => true
  | _ => false

def kicks (player : Uuid) : PluginResponse → Bool
  | kickPlayer uuid _ => uuid = player
  | _ => false

def sample? : PluginResponse → Option (List PlayerSample)
  | updatePlayerSample sample => some sample
  | _ => Option.none

def denial : PluginResponse → Option String
  | cancel => some "Connection refused."
  | kickPlayer _ reason => some reason
  | _ => Option.none

end PluginResponse

def collectResponses (responses : List PluginResponse) : List HandlerResult → List PluginResponse
  | [] => responses
  | result :: rest =>
    match result.response with
    | some .cancel => [.cancel]
    | some response => collectResponses (responses ++ [response]) rest
    | none => collectResponses responses rest

def broadcastEvent (results : List HandlerResult) : List PluginResponse :=
  collectResponses [] results

def cancels (results : List HandlerResult) : Bool :=
  results.any fun r => r.response.any PluginResponse.isCancel

def kicks (player : Uuid) (results : List HandlerResult) : Bool :=
  results.any fun r => r.response.any (PluginResponse.kicks player)

/-- A veto as plugins are told it works: `Cancel`, or a kick of the event's player. -/
def vetoes (player : Uuid) (results : List HandlerResult) : Bool :=
  cancels results || kicks player results

def kickStands (player : Uuid) (results : List HandlerResult) : Bool :=
  !cancels results && kicks player results

theorem collectResponses_eq : collectResponses responses results =
    if cancels results then [.cancel] else responses ++ results.filterMap (·.response) := by
  induction results generalizing responses with
  | nil => simp [collectResponses, cancels]
  | cons result rest ih =>
    simp only [collectResponses]
    split
    · rename_i h
      simp [cancels, h, PluginResponse.isCancel]
    · rename_i response hc h
      have hk : response.isCancel = false := by
        cases response <;> first | rfl | exact absurd rfl (hc ·)
      rw [ih]
      simp [cancels, h, hk]
    · rename_i h
      rw [ih]
      simp [cancels, h]

theorem broadcastEvent_eq (results : List HandlerResult) :
    broadcastEvent results =
      if cancels results then [.cancel] else results.filterMap (·.response) :=
  collectResponses_eq

def PluginEvent.subject : PluginEvent → Option Uuid
  | playerJoin uuid _ | playerChat uuid _ | playerLeave uuid | playerMove uuid .. => some uuid
  | _ => none

inductive Notice where
  | message (uuid : Uuid) (text : String)
  | broadcast (text : String)
  | kick (uuid : Uuid) (reason : String)

def PluginResponse.notice (subject : Option Uuid) : PluginResponse → Option Notice
  | .message text => subject.map (.message · text)
  | .broadcast text => some (.broadcast text)
  | .kickPlayer uuid reason => some (.kick uuid reason)
  | .none | .custom _ | .cancel | .updatePlayerSample _ | .permissionResult .. => Option.none

/-- What `dispatch_plugin_event` queues, and whether it reports the event's player as kicked. -/
structure Dispatched where
  notices : List Notice
  subjectKicked : Bool

def actOnResponse (subject : Option Uuid) (d : Dispatched) (response : PluginResponse) :
    Dispatched where
  notices := d.notices ++ (response.notice subject).toList
  subjectKicked :=
    match response with
    | .kickPlayer uuid _ => if some uuid = subject then true else d.subjectKicked
    | _ => d.subjectKicked

def dispatchPluginEvent (event : PluginEvent) (results : List HandlerResult) : Dispatched :=
  (broadcastEvent results).foldl (actOnResponse event.subject) ⟨[], false⟩

theorem subjectKicked_actOnResponse : (actOnResponse subject d response).subjectKicked =
    (d.subjectKicked || subject.any fun player => response.kicks player) := by
  cases subject with
  | none => cases response <;> simp [actOnResponse, PluginResponse.kicks]
  | some player =>
    cases response <;> simp [actOnResponse, PluginResponse.kicks]
    rename_i uuid _
    by_cases h : uuid = player <;> simp [h]

theorem subjectKicked_foldl (d : Dispatched) (responses : List PluginResponse) :
    (responses.foldl (actOnResponse subject) d).subjectKicked =
      (d.subjectKicked || responses.any fun r => subject.any fun player => r.kicks player) := by
  induction responses generalizing d with
  | nil => simp
  | cons response rest ih =>
    simp only [List.foldl_cons, List.any_cons, ih, subjectKicked_actOnResponse, Bool.or_assoc]

theorem subjectKicked_of_subject_none (h : event.subject = none) :
    (dispatchPluginEvent event results).subjectKicked = false := by
  simp [dispatchPluginEvent, subjectKicked_foldl, h]

theorem subjectKicked_eq (h : event.subject = some player) :
    (dispatchPluginEvent event results).subjectKicked = kickStands player results := by
  rw [dispatchPluginEvent, subjectKicked_foldl, h, broadcastEvent_eq, kickStands]
  cases hc : cancels results with
  | true => simp [PluginResponse.kicks]
  | false =>
    simp only [Bool.false_eq_true, if_false, Bool.false_or, Option.any_some, Bool.not_false,
      Bool.true_and, kicks]
    rw [List.any_filterMap]
    rfl

end Kojacoord
