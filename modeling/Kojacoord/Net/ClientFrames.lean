import Kojacoord.Net.Limbo
import Kojacoord.Net.StopSignal

namespace Kojacoord
open Framing Notify Runs StopFlag

namespace TaskPhase

def looping : TaskPhase on work → Bool
  | storing _ | notifying _ | done _ => false
  | _ => true

def read : TaskPhase ReadWait work → List UInt8
  | waiting _ on => on.read
  | _ => []

theorem read_proceed {before after leave : TaskPhase ReadWait work} (hlv : leave.read = [])
    (h : before.proceed v leave = some after) :
    after.read = [] ∧ (leave.looping = false → after.looping = true → before.read = []) := by
  cases proceeds_of_proceed h with
  | heed => exact ⟨hlv, fun _ _ => rfl⟩
  | wake =>
    refine ⟨hlv, ?_⟩
    intro hl ha
    rw [hl] at ha
    cases ha
  | pass | create | store | notify => exact ⟨rfl, fun _ _ => rfl⟩

theorem looping_of_proceed {before after leave : TaskPhase on work}
    (h : before.proceed v leave = some after) (ha : after.looping = true) :
    before.looping = true := by
  cases proceeds_of_proceed h with
  | heed | pass | create | wake => rfl
  | store | notify => cases ha

theorem looping_proceed {before after leave : TaskPhase on work}
    (hlv : leave.looping = true) (hbef : before.looping = true)
    (h : before.proceed v leave = some after) : after.looping = true := by
  cases proceeds_of_proceed h with
  | heed | wake => exact hlv
  | pass | create => rfl
  | store | notify => cases hbef

end TaskPhase

/-- The packets that the loop has read are the first frames of the stream, and while it runs it
stands right after them, but for the read in progress. -/
def C2s.InFrames (env : PumpEnv) (stream : List UInt8) (c : C2s) : Prop :=
  ∃ frames rest, Splits env.readClient.progress stream frames rest ∧
    c.processed = frames.map Prod.snd ∧
    (c.phase.looping = true →
      Reading env.readClient.progress stream frames c.phase.read c.source.rest)

theorem C2s.InFrames.next (h : InFrames env stream c) (hnx : Next env v c l c' r)
    (hkp : l = .recv → c.phase.read = []) : InFrames env stream c' := by
  obtain ⟨frames, rest, hspls, hproc, hrea⟩ := h
  cases hnx with
  | proceed hph =>
    refine ⟨frames, rest, hspls, hproc, ?_⟩
    intro haft
    obtain ⟨hrd, hbef⟩ := TaskPhase.read_proceed rfl hph
    have hrea := hrea (TaskPhase.looping_of_proceed hph haft)
    rw [hbef rfl haft] at hrea
    change Reading _ _ _ _ c.source.rest
    rw [hrd]
    exact hrea
  | enter hph =>
    rw [hph] at hrea
    exact ⟨frames, rest, hspls, hproc, hrea⟩
  | shutdown | fail =>
    refine ⟨frames, rest, hspls, hproc, ?_⟩
    intro haft
    cases haft
  | recv hph =>
    rw [hph] at hrea hkp
    refine ⟨frames, rest, hspls, hproc, ?_⟩
    intro _
    have hrea := hrea rfl
    rw [hkp rfl] at hrea
    exact hrea
  | fill hph _ hfill =>
    refine ⟨frames, rest, hspls, hproc, ?_⟩
    intro hlp
    rw [Source.rest_fill hfill]
    exact hrea hlp
  | @feed stop on byte later hph _ _ hpop =>
    rw [hph] at hrea
    have hrea := hrea rfl
    rw [Source.rest_pop hpop] at hrea
    simp only [C2s.feed]
    split
    · rename_i hmo
      exact ⟨frames, rest, hspls, hproc, fun _ => hrea.feed_more hmo⟩
    · rename_i payload hdn
      have hfrm := hrea.feed_done hdn
      refine ⟨_, _, hfrm, ?_, fun _ => .of_splits hfrm⟩
      rw [List.map_append, hproc]
      rfl
    · refine ⟨frames, rest, hspls, hproc, ?_⟩
      intro haft
      cases haft
  | work hph =>
    rw [hph] at hrea
    refine ⟨frames, rest, hspls, hproc, ?_⟩
    intro haft
    rename_i result _
    change Reading _ _ _ (afterRound _ result).read c.source.rest
    rcases result with e | flow
    · cases haft
    · cases flow with
      | «continue» => exact hrea rfl
      | finish => cases haft

theorem C2s.InFrames.initial (h : InFrames env stream c)
    (hall : Splits env.readClient.progress stream all []) :
    c.processed <+: all.map Prod.snd ∧
      (c.phase.looping = true → c.phase.read = [] → c.source.rest = [] →
        c.processed = all.map Prod.snd) := by
  obtain ⟨frames, rest, hspls, hproc, hrea⟩ := h
  rw [hproc]
  refine ⟨(hspls.initial hall).map _, ?_⟩
  intro hlp hrd hrs
  have hend := (hrea hlp).splits
  rw [hrd, hrs] at hend
  rw [hend.complete hall]

def Pump.keepsRead (p : Pump) (l : ShutdownState × PumpLabel) : Bool :=
  match l.2 with
  | .c2s .recv => p.c2s.phase.read.isEmpty
  | _ => true

theorem Pump.inFrames_of_run
    (h : Run (Pump.step env) (fun p l => p.keepsRead l = true) (.start shared stream backend) p) :
    p.c2s.InFrames env stream := by
  apply h.invariant (I := fun p => p.c2s.InFrames env stream)
  · exact ⟨[], stream, .nil, rfl, fun _ => .of_splits .nil⟩
  · intro p ⟨w, l⟩ q hp hkp hstep
    rcases Pump.c2s_cases hstep with ⟨l', rfl, hnx⟩ | ⟨raw, hoff⟩ | hsm
    · refine hp.next hnx ?_
      rintro rfl
      exact List.isEmpty_iff.mp hkp
    · rw [hoff]
      exact hp
    · rw [hsm]
      exact hp

def LimboPhase.read : LimboPhase → List UInt8
  | selecting _ read => read
  | _ => []

def LimboPhase.looping : LimboPhase → Bool
  | selecting .. | dialing | beating => true
  | parting | done _ => false

namespace Limbo

def keepsRead (b : Limbo) (move : Signal × Label) : Bool :=
  match move.2 with
  | .poll | .keepalive => b.phase.read.isEmpty
  | _ => true

def InFrames (protocol : UInt32) (stream : List UInt8) (b : Limbo) : Prop :=
  ∃ frames rest, Splits (readAndDiscard protocol).progress stream frames rest ∧
    b.discarded = frames.map Prod.fst ∧
    (b.phase.looping = true →
      Reading (readAndDiscard protocol).progress stream frames b.phase.read b.unread)

theorem InFrames.next (h : InFrames protocol stream b) (hnx : Next protocol signal b l b')
    (hkp : l = .poll ∨ l = .keepalive → b.phase.read = []) : InFrames protocol stream b' := by
  obtain ⟨frames, rest, hspls, hdis, hrea⟩ := h
  cases hnx with
  | listen hph | redial hph | beaten hph =>
    rw [hph] at hrea
    exact ⟨frames, rest, hspls, hdis, hrea⟩
  | poll hph | keepalive hph =>
    have hrd := hkp (by simp)
    rw [hrd, hph] at hrea
    exact ⟨frames, rest, hspls, hdis, hrea⟩
  | connected | beatLost | shutdown | part | fail =>
    refine ⟨frames, rest, hspls, hdis, ?_⟩
    intro haft
    cases haft
  | @feed w got byte later hph hunr =>
    rw [hph, hunr] at hrea
    have hrea := hrea rfl
    simp only [Limbo.feed]
    split
    · rename_i hmo
      exact ⟨frames, rest, hspls, hdis, fun _ => hrea.feed_more hmo⟩
    · rename_i hdn
      have hfrm := hrea.feed_done hdn
      refine ⟨_, _, hfrm, ?_, fun _ => .of_splits hfrm⟩
      rw [List.map_append, ← hdis]
      rfl
    · refine ⟨frames, rest, hspls, hdis, ?_⟩
      intro haft
      cases haft

theorem inFrames_of_run
    (h : Run (step protocol) (fun b l => b.keepsRead l = true) (.start stream) b) :
    InFrames protocol stream b := by
  apply h.invariant
  · exact ⟨[], stream, .nil, rfl, fun _ => .of_splits .nil⟩
  · intro b ⟨signal, l⟩ b' hb hkp hstep
    refine hb.next (next_of_step hstep) ?_
    rintro (rfl | rfl) <;> exact List.isEmpty_iff.mp hkp

theorem InFrames.initial (h : InFrames protocol stream b)
    (hall : Splits (readAndDiscard protocol).progress stream all []) :
    b.discarded <+: all.map Prod.fst ∧
      (b.phase.looping = true → b.phase.read = [] → b.unread = [] →
        b.discarded = all.map Prod.fst) := by
  obtain ⟨frames, rest, hspls, hdis, hrea⟩ := h
  rw [hdis]
  refine ⟨(hspls.initial hall).map _, ?_⟩
  intro hlp hrd hrs
  have hend := (hrea hlp).splits
  rw [hrd, hrs] at hend
  rw [hend.complete hall]

end Limbo

/-- In every run in which the other branches are only taken where the read in progress has consumed
nothing, the relay processes and limbo discards the first frames of the client's stream, and all of
them once it has read all bytes. -/
theorem frames_kept_of_run {env : PumpEnv} {shared : Shared} {backend stream stream' : List UInt8}
    {frames : List (List UInt8 × List UInt8)} {p : Pump} {protocol : UInt32}
    {frames' : List (List UInt8 × Unit)} {b : Limbo}
    (hstream : Splits env.readClient.progress stream frames [])
    (hrelay : Run (Pump.step env) (fun p l => p.keepsRead l = true)
      (.start shared stream backend) p)
    (hstream' : Splits (readAndDiscard protocol).progress stream' frames' [])
    (hlimbo : Run (Limbo.step protocol) (fun b l => b.keepsRead l = true) (.start stream') b) :
    (p.c2s.processed <+: frames.map Prod.snd ∧
      (p.c2s.phase.looping = true → p.c2s.phase.read = [] → p.c2s.source.rest = [] →
        p.c2s.processed = frames.map Prod.snd)) ∧
    (b.discarded <+: frames'.map Prod.fst ∧
      (b.phase.looping = true → b.phase.read = [] → b.unread = [] →
        b.discarded = frames'.map Prod.fst)) :=
  ⟨(Pump.inFrames_of_run hrelay).initial hstream, (Limbo.inFrames_of_run hlimbo).initial hstream'⟩

def oneFrame : List UInt8 := [2, 0x01, 0x05]

theorem splits_oneFrame :
    Splits lobbyPump.readClient.progress oneFrame [(oneFrame, [0x01, 0x05])] [] := by
  refine .single (.of_take (by decide) rfl ?_)
  intro n hpos hlt
  change n < 3 at hlt
  obtain rfl | rfl : n = 1 ∨ n = 2 := by omega
  · rfl
  · rfl

theorem splits_oneFrame_limbo :
    Splits (readAndDiscard 765).progress oneFrame [(oneFrame, ())] [] := by
  refine .single (.of_take (by decide) rfl ?_)
  intro n hpos hlt
  change n < 3 at hlt
  obtain rfl | rfl : n = 1 ∨ n = 2 := by omega
  · rfl
  · rfl

def toSelect : List (ShutdownState × PumpLabel) :=
  [(calm, .c2s .proceed), (calm, .c2s .proceed), (calm, .c2s .enter)]

theorem frames_kept_of_oneFrame : ∃ p b,
    Run (Pump.step lobbyPump) (fun p l => p.keepsRead l = true) (.start lobbyShared oneFrame []) p ∧
    Run (Limbo.step 765) (fun b l => b.keepsRead l = true) (.start oneFrame) b ∧
    p.c2s.processed = [[0x01, 0x05]] ∧ b.discarded = [oneFrame] := by
  have hrelay : Run (Pump.step lobbyPump) (fun p l => p.keepsRead l = true)
      (.start lobbyShared oneFrame []) _ :=
    Run.of_exec (toSelect ++ [(calm, .c2s (.fill 3)), (calm, .c2s .feed), (calm, .c2s .feed),
      (calm, .c2s .feed)]) rfl
  have hlimbo : Run (Limbo.step 765) (fun b l => b.keepsRead l = true) (.start oneFrame) _ :=
    Run.of_exec [(.new, .listen), (.new, .feed), (.new, .feed), (.new, .feed)] rfl
  obtain ⟨⟨-, hall⟩, -, hall'⟩ :=
    frames_kept_of_run splits_oneFrame hrelay splits_oneFrame_limbo hlimbo
  exact ⟨_, _, hrelay, hlimbo, hall rfl rfl rfl, hall' rfl rfl rfl⟩

/-- A packet from the channel, or a tick, that comes when the length of a frame has been read makes
the next read start in the middle of the frame. -/
theorem frames_torn :
    (¬ ∀ (env : PumpEnv) (shared : Shared) (stream backend : List UInt8)
        (frames : List (List UInt8 × List UInt8)) (p : Pump),
      Splits env.readClient.progress stream frames [] →
      Run (Pump.step env) (fun _ _ => True) (.start shared stream backend) p →
        p.c2s.processed <+: frames.map Prod.snd) ∧
    ¬ ∀ (protocol : UInt32) (stream : List UInt8) (frames : List (List UInt8 × Unit)) (b : Limbo),
      Splits (readAndDiscard protocol).progress stream frames [] →
      Run (Limbo.step protocol) (fun _ _ => True) (.start stream) b →
        b.discarded <+: frames.map Prod.fst := by
  constructor
  · intro h
    obtain ⟨p, hrun, hp⟩ : ∃ p,
        Run (Pump.step lobbyPump) (fun _ _ => True) (.start lobbyShared oneFrame []) p ∧
          ¬ p.c2s.processed <+: [[0x01, 0x05]] :=
      Run.exists_of_exec (toSelect ++ [(calm, .c2s (.fill 3)), (calm, .c2s .feed),
        (calm, .sendToBackend []), (calm, .c2s .recv), (calm, .c2s .work)] ++ toSelect ++
        [(calm, .c2s .feed), (calm, .c2s .feed)]) (by decide +kernel)
    exact hp (h _ _ _ _ _ _ splits_oneFrame hrun)
  · intro h
    obtain ⟨b, hrun, hb⟩ : ∃ b, Run (Limbo.step 765) (fun _ _ => True) (.start oneFrame) b ∧
        ¬ b.discarded <+: [oneFrame] :=
      Run.exists_of_exec [(.new, .listen), (.new, .feed), (.new, .keepalive),
        (.new, .beaten none), (.new, .listen), (.new, .feed), (.new, .feed)] (by decide +kernel)
    exact hb (h _ _ _ _ splits_oneFrame_limbo hrun)

end Kojacoord
