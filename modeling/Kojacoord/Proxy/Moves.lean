import Kojacoord.Proxy.Frame

namespace Kojacoord

inductive Moves (cfg : ProxyConfig) (s : State) (k : Conn) : Move → Conn → Effect → Prop
  | welcome : k.phase = .greeting → Moves cfg s k (.welcome true) (k.enter .connecting) .none
  | refuse : k.phase = .greeting → Moves cfg s k (.welcome false) (k.enter .rejected) .none
  | select : k.phase = .connecting →
      cfg.routing.selectWithRegion s.registry k.clientIp roll = some b →
      Moves cfg s k (.selectBackend roll) (k.enter (.dialing b)) .none
  | selectNone : k.phase = .connecting →
      cfg.routing.selectWithRegion s.registry k.clientIp roll = none →
      Moves cfg s k (.selectBackend roll) (k.enter (.limbo .join none)) .none
  | joined : k.phase = .dialing b →
      Moves cfg s k (.joinLogin true) (k.startCredit b (.held (some b))) .none
  | joinFailed : k.phase = .dialing b →
      Moves cfg s k (.joinLogin false) (k.enter (.limbo .join none)) .none
  | poll : k.phase = .limbo leg waiting → leg.candidateBackend cfg s.registry roll = some b →
      Moves cfg s k (.poll roll) (k.enter (.polled leg b)) .none
  | pollNone : k.phase = .limbo leg waiting → leg.candidateBackend cfg s.registry roll = none →
      Moves cfg s k (.poll roll) (k.enter (.limbo leg waiting)) .none
  | noQueue : k.phase = .polled leg b → cfg.queueEnabled = false →
      Moves cfg s k .checkFull (k.enter (.limboDialing leg b)) .none
  | full : k.phase = .polled leg b → cfg.queueEnabled = true → (s.registry.server b).isFull = true →
      Moves cfg s k .checkFull (k.enter (.full leg b)) .none
  | vacant : k.phase = .polled leg b → cfg.queueEnabled = true →
      (s.registry.server b).isFull = false →
      Moves cfg s k .checkFull (k.enter (.vacant leg b)) .none
  | enqueue : k.phase = .full leg b →
      Moves cfg s k .enqueue (k.enter (.limbo leg (some (s.registry.server b).name)))
        (.enqueue (s.registry.server b).name)
  | front : k.phase = .vacant leg b →
      s.queues.isFrontOrUnqueued (s.registry.server b).name k.uuid = true →
      Moves cfg s k .checkFront (k.enter (.limboDialing leg b)) .none
  | notFront : k.phase = .vacant leg b →
      s.queues.isFrontOrUnqueued (s.registry.server b).name k.uuid = false →
      Moves cfg s k .checkFront (k.enter (.limbo leg (some (s.registry.server b).name))) .none
  | dialed : k.phase = .limboDialing leg b →
      Moves cfg s k (.dial true) (k.enter (.admitted leg b)) .none
  | dialFailed : k.phase = .limboDialing leg b →
      Moves cfg s k (.dial false) (k.enter (.limbo leg (some (s.registry.server b).name))) .none
  | dequeue : k.phase = .admitted leg b → cfg.queueEnabled = true →
      Moves cfg s k .dequeue (k.enter (.departing leg b)) (.dequeue (s.registry.server b).name)
  | noDequeue : k.phase = .admitted leg b → cfg.queueEnabled = false →
      Moves cfg s k .dequeue (k.enter (.departing leg b)) .none
  | left : k.phase = .departing leg b →
      Moves cfg s k (.leave true) (k.enter (.leftLimbo leg b)) .none
  | leaveFailed : k.phase = .departing leg b →
      Moves cfg s k (.leave false) (k.enter leg.failure) .none
  | fail : k.phase = .limbo leg waiting → Moves cfg s k .fail (k.enter leg.failure) .none
  | route : k.phase = .leftLimbo .join b →
      cfg.routing.selectWithRegion s.registry k.clientIp roll = some d →
      Moves cfg s k (.route roll) (k.enter (.routing b (.selected d))) .none
  | routeNone : k.phase = .leftLimbo .join b →
      cfg.routing.selectWithRegion s.registry k.clientIp roll = none →
      Moves cfg s k (.route roll) (k.enter (.loggingIn b none (.held none))) .none
  | routeSwitch : k.phase = .leftLimbo (.switch target) b →
      Moves cfg s k (.route roll)
        (k.enter (.loggingIn b (s.registry.get target) (.named target))) .none
  | grouped : k.phase = .routing b (.selected d) →
      s.groups.getGroupForServer (s.registry.server d).name = some group →
      Moves cfg s k .findGroup (k.enter (.routing b (.grouped d group))) .none
  | ungrouped : k.phase = .routing b (.selected d) →
      s.groups.getGroupForServer (s.registry.server d).name = none →
      Moves cfg s k .findGroup (k.enter (.loggingIn b (some d) (.held (some d)))) .none
  | readActive : k.phase = .routing b (.grouped d group) →
      Moves cfg s k .readActive
        (k.enter (.routing b (.swapping d (s.groups.getActiveServer group)))) .none
  | swapActive : k.phase = .routing b (.swapping d active) →
      swapInActive s.registry d active = f →
      Moves cfg s k .swapActive (k.enter (.loggingIn b (some f) (.held (some f)))) .none
  | login : k.phase = .loggingIn b settings credit →
      Moves cfg s k (.login true) (k.startCredit b credit) .none
  | loginFailed : k.phase = .loggingIn b settings credit →
      Moves cfg s k (.login false) (k.enter credit.failure) .none
  | toReset : k.phase = .attaching b true → k.ownIdle = true → k.protocolVersion < 735 →
      Moves cfg s k .attach (k.enter (.resetting b)) .none
  | attach : k.phase = .attaching b switched → k.ownIdle = true →
      Moves cfg s k .attach (k.enter (.attached b)) .none
  | worldReset : k.phase = .resetting b →
      Moves cfg s k (.worldReset true) (k.enter (.attached b)) .none
  | resetFailed : k.phase = .resetting b →
      Moves cfg s k (.worldReset false) (k.enter .ended) .none
  | startRelay : k.phase = .attached b →
      Moves cfg s k (.startRelay true) (k.enter (.pumping b)) .openOutbound
  | relayFailed : k.phase = .attached b →
      Moves cfg s k (.startRelay false) (k.enter .ended) .none
  | stopRelay : k.phase = .pumping b → k.ownIdle = true →
      Moves cfg s k (.stopRelay why) ((k.enter (.draining why)).spawn .own .exitFlag) .closeOutbound
  | finishRelay : k.phase = .draining why → k.ownIdle = true →
      Moves cfg s k (.finishRelay roll) (k.enter (why.nextPhase cfg s.registry roll)) .none
  | dropRejected : k.phase = .rejected →
      Moves cfg s k .removeSession (k.enter .gone) .removeSession
  | dropEnded : k.phase = .ended →
      Moves cfg s k .removeSession (k.enter .unqueueing) .removeSession
  | leaveQueues : k.phase = .unqueueing →
      Moves cfg s k .leaveQueues (k.enter .gone) .leaveQueues

theorem Conn.moves_of_move {k : Conn} (h : k.move cfg s m = some (k', e)) :
    Moves cfg s k m k' e := by
  revert h
  fun_cases Conn.move cfg s k m
  all_goals intro h
  all_goals cases h
  case case1 ok hp =>
    cases ok with
    | true => exact .welcome hp
    | false => exact .refuse hp
  case case5 ok b hp hok =>
    obtain rfl : ok = false := by simpa using hok
    exact .joinFailed hp
  case case8 hp hq => exact .noQueue hp (by simpa using hq)
  case case9 hp hq hf => exact .full hp (by simpa using hq) hf
  case case10 hp hq hf => exact .vacant hp (by simpa using hq) (by simpa using hf)
  case case13 hp hf => exact .notFront hp (by simpa using hf)
  case case15 ok leg b hp hok =>
    obtain rfl : ok = false := by simpa using hok
    exact .dialFailed hp
  case case16 leg b hp =>
    cases hq : cfg.queueEnabled with
    | true => exact .dequeue hp hq
    | false => exact .noDequeue hp hq
  case case17 ok leg b hp =>
    cases ok with
    | true => exact .left hp
    | false => exact .leaveFailed hp
  case case27 ok b settings credit hp hok =>
    obtain rfl : ok = false := by simpa using hok
    exact .loginFailed hp
  case case28 b switched hp hi reset =>
    cases hr : reset with
    | false => exact .attach hp hi
    | true =>
      obtain ⟨rfl, hv⟩ : switched = true ∧ k.protocolVersion < 735 := by simpa [reset] using hr
      exact .toReset hp hi hv
  case case30 ok b hp =>
    cases ok with
    | true => exact .worldReset hp
    | false => exact .resetFailed hp
  case case32 ok b hp hok =>
    obtain rfl : ok = false := by simpa using hok
    exact .relayFailed hp
  case case25 hp _ => exact .swapActive hp rfl
  all_goals constructor <;> assumption

end Kojacoord
