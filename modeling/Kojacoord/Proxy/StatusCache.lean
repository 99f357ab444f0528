import Kojacoord.Lib.Runs
import Kojacoord.Net.StatusResponse

namespace Kojacoord
open Json Runs List

inductive Refresher where
  | waiting
  | counted (count : Nat)
  | sampled (count : Nat) (sample : List Value)
  | built (suffix : String)

inductive ReloadPhase where
  | checked
  | built (suffix : String)
  | stored
  | finished

structure StatusReload where
  config : StatusConfig
  phase : ReloadPhase

structure StatusState where
  config : StatusConfig
  cached : String
  favicon : Option String
  sessions : List PlayerSession
  refresher : Refresher
  reloads : List StatusReload

def StatusState.new (config : StatusConfig) (favicon : Option String) : StatusState :=
  ⟨config, initialSuffix, favicon, [], .waiting, []⟩

inductive StatusStep where
  | join (session : PlayerSession)
  | leave (uuid : Uuid)
  | count
  | sample (seen : List (Option PlayerSession))
  | build
  | publish
  | reload (new : StatusConfig) (favicon : Option String)
  | render (i : Nat)
  | store (i : Nat)
  | finish (i : Nat)

def StatusStep.quiet : StatusStep → Bool
  | reload .. | render _ | store _ => false
  | _ => true

section System
variable (hyphenated : Uuid → String)

/-- One step of the refresher, of a reload or of the sessions. The refresher goes through the
sessions shard by shard, so that what it sees need not be what there is at any one time. -/
def StatusState.step (st : StatusState) : StatusStep → Option StatusState
  | .join session =>
    some { st with sessions := session :: st.sessions.filter (·.uuid ≠ session.uuid) }
  | .leave uuid => some { st with sessions := st.sessions.filter (·.uuid ≠ uuid) }
  | .count =>
    match st.refresher with
    | .waiting => some { st with refresher := .counted st.sessions.length }
    | _ => none
  | .sample seen =>
    match st.refresher with
    | .counted count =>
      let sample := playerSample hyphenated st.config.serverLore seen
      some { st with refresher := .sampled count sample }
    | _ => none
  | .build =>
    match st.refresher with
    | .sampled count sample =>
      some { st with refresher := .built (refreshSuffix st.config count sample st.favicon) }
    | _ => none
  | .publish =>
    match st.refresher with
    | .built suffix => some { st with cached := suffix, refresher := .waiting }
    | _ => none
  | .reload new favicon => some { st with favicon, reloads := st.reloads ++ [⟨new, .checked⟩] }
  | .render i =>
    match st.reloads[i]? with
    | some ⟨new, .checked⟩ =>
      some { st with reloads := st.reloads.set i ⟨new, .built (reloadSuffix new st.favicon)⟩ }
    | _ => none
  | .store i =>
    match st.reloads[i]? with
    | some ⟨new, .built suffix⟩ =>
      some { st with cached := suffix, reloads := st.reloads.set i ⟨new, .stored⟩ }
    | _ => none
  | .finish i =>
    match st.reloads[i]? with
    | some ⟨new, .stored⟩ => some { st with reloads := st.reloads.set i ⟨new, .finished⟩ }
    | _ => none

/-- States that are reached after a reload has completed, when no other reload has got on since it
stored its status. -/
inductive AfterReload (start new : StatusConfig) (t : StatusState) : Prop
  | intro {u v w x : StatusState} {favicon : Option String} {i : Nat} :
      Run (StatusState.step hyphenated) (fun _ _ => True) (.new start favicon) u →
      (u.reloads[i]?).map (·.config) = some new → u.step hyphenated (.store i) = some v →
      Run (StatusState.step hyphenated) (fun _ l => l.quiet = true) v w →
      w.step hyphenated (.finish i) = some x →
      Run (StatusState.step hyphenated) (fun _ l => l.quiet = true) x t → AfterReload start new t

end System

def Env.caching (env : Env) (st : StatusState) : Env :=
  { env with
    config := { env.config with maxPlayers := st.config.maxPlayers }, statusSuffix := st.cached,
    onlinePlayers := st.sessions.length }

def ShowsConfig (text : String) (config : StatusConfig) : Prop :=
  ∃ body, parse text = some body ∧ body.at? ["description"] = some config.description ∧
    body.at? ["players", "max"] = some (natJson config.maxPlayers)

def StatusState.Shows (st : StatusState) (config : StatusConfig) : Prop :=
  ∀ (env : Env) (c : Client), customSample ((env.caching st).pingResults c) = none →
    ∀ text ∈ Handler.statusBodies (env.caching st) c, ShowsConfig text config

theorem natJson_inj : natJson m = natJson n ↔ m = n := by
  constructor
  · intro h
    have hdigs : Nat.toDigits 10 m = Nat.toDigits 10 n := congrArg Literal.text (Value.num.inj h)
    rw [← Nat.ofDigitChars_ten_toDigits (n := m), hdigs, Nat.ofDigitChars_ten_toDigits]
  · rintro rfl
    rfl

theorem Listing.showsConfig_iff (l : Listing) :
    ShowsConfig (l.document protocol).text new ↔
      l.description = new.description ∧ l.max = new.maxPlayers := by
  obtain ⟨body, hbd, -, hmax, -, -, hdes⟩ := l.carries_document protocol
  unfold ShowsConfig
  simp only [hbd, Option.some.injEq, exists_eq_left', hmax, hdes, natJson_inj]

theorem StatusState.shows_iff {st : StatusState} {l : Listing} (h : st.cached = l.suffix)
    (new : StatusConfig) :
    st.Shows new ↔ l.description = new.description ∧ l.max = new.maxPlayers := by
  have htx (env : Env) (protocol : UInt32) :
      (env.caching st).statusJson protocol none = (l.document protocol).text := by
    have hcac : env.caching st = (env.caching st).showing l := by
      rw [Env.showing, ← h]
      rfl
    rw [hcac, Env.statusJson_none]
  constructor
  · intro hsho
    have hse : (l.document 47).text ∈
        Handler.statusBodies (onlineEnv.caching st) Handler.statusClient := by
      have hreq : (ExceptT.run Handler.readRequest Handler.statusClient).1.isOk = true := by
        decide +kernel
      rw [Handler.statusBodies_eq, if_pos hreq, ← htx onlineEnv]
      exact mem_singleton_self _
    exact l.showsConfig_iff.mp (hsho onlineEnv _ rfl _ hse)
  · intro hl env c hno text hse
    rw [Handler.statusBodies_eq, hno, htx] at hse
    split at hse
    · cases mem_singleton.mp hse
      exact l.showsConfig_iff.mpr hl
    · cases hse

structure StatusState.Sound (start : StatusConfig) (st : StatusState) : Prop where
  config : st.config = start
  built : ∀ suffix, st.refresher = .built suffix → ∃ count sample favicon,
    suffix = refreshSuffix start count sample favicon
  rendered : ∀ new suffix, ⟨new, .built suffix⟩ ∈ st.reloads → ∃ favicon,
    suffix = reloadSuffix new favicon

section System
variable {hyphenated : Uuid → String} {start new : StatusConfig} {st t : StatusState}

theorem StatusState.sound_new (favicon : Option String) :
    (StatusState.new start favicon).Sound start where
  config := rfl
  built _ h := nomatch h
  rendered _ _ h := nomatch h

theorem StatusState.Sound.moved (h : st.Sound start) {i : Nat} {phase : ReloadPhase}
    (hph : ∀ suffix, phase = .built suffix → ∃ favicon, suffix = reloadSuffix new favicon)
    (cached : String) :
    { st with cached, reloads := st.reloads.set i ⟨new, phase⟩ }.Sound start where
  config := h.config
  built := h.built
  rendered other suffix hmem := by
    rcases mem_or_eq_of_mem_set hmem with hmem | heq
    · exact h.rendered other suffix hmem
    · cases heq
      exact hph suffix rfl

theorem StatusState.Sound.step (h : st.Sound start) {l : StatusStep}
    (hstep : st.step hyphenated l = some t) : t.Sound start := by
  cases l with
  | join session | leave uuid =>
    cases hstep
    exact ⟨h.config, h.built, h.rendered⟩
  | count | sample seen | publish =>
    simp only [StatusState.step] at hstep
    split at hstep
    · cases hstep
      exact ⟨h.config, nofun, h.rendered⟩
    · cases hstep
  | build =>
    simp only [StatusState.step] at hstep
    split at hstep
    · rename_i count sample _
      cases hstep
      refine ⟨h.config, ?_, h.rendered⟩
      rintro suffix hsuf
      cases hsuf
      exact ⟨count, sample, st.favicon, by rw [h.config]⟩
    · cases hstep
  | reload other favicon =>
    cases hstep
    refine ⟨h.config, h.built, ?_⟩
    intro new suffix hmem
    rcases mem_append.mp hmem with hmem | hmem
    · exact h.rendered new suffix hmem
    · cases mem_singleton.mp hmem
  | render i =>
    simp only [StatusState.step] at hstep
    split at hstep
    · cases hstep
      refine h.moved (fun suffix hsuf => ?_) st.cached
      cases hsuf
      exact ⟨_, rfl⟩
    · cases hstep
  | store i =>
    simp only [StatusState.step] at hstep
    split at hstep
    · cases hstep
      exact h.moved (fun _ hsuf => by cases hsuf) _
    · cases hstep
  | finish i =>
    simp only [StatusState.step] at hstep
    split at hstep
    · cases hstep
      exact h.moved (fun _ hsuf => by cases hsuf) st.cached
    · cases hstep

theorem StatusState.cached_of_step {l : StatusStep} (hstep : st.step hyphenated l = some t) :
    t.cached = st.cached ∨
      (l = .publish ∧ st.refresher = .built t.cached) ∨
      ∃ i new, l = .store i ∧ st.reloads[i]? = some ⟨new, .built t.cached⟩ := by
  cases l with
  | join session | leave uuid | reload new icon =>
    cases hstep
    exact .inl rfl
  | publish =>
    simp only [StatusState.step] at hstep
    split at hstep
    · rename_i suffix hbui
      cases hstep
      exact .inr (.inl ⟨rfl, hbui⟩)
    · cases hstep
  | store i =>
    simp only [StatusState.step] at hstep
    split at hstep
    · rename_i new suffix hrel
      cases hstep
      exact .inr (.inr ⟨i, new, rfl, hrel⟩)
    · cases hstep
  | count | sample seen | build | render i | finish i =>
    simp only [StatusState.step] at hstep
    split at hstep
    · cases hstep
      exact .inl rfl
    · cases hstep

def StatusState.Holds (new : StatusConfig) (st : StatusState) : Prop :=
  ∃ l : Listing, st.cached = l.suffix ∧ l.description = new.description ∧ l.max = new.maxPlayers

theorem StatusState.Holds.step (h : st.Holds new) (hsou : st.Sound start)
    (hdes : start.description = new.description)
    (hmax : start.maxPlayers = new.maxPlayers) {l : StatusStep} (hqt : l.quiet = true)
    (hstep : st.step hyphenated l = some t) : t.Holds new := by
  rcases cached_of_step hstep with hkt | ⟨-, hbui⟩ | ⟨i, other, rfl, -⟩
  · obtain ⟨l, hcac, hl⟩ := h
    exact ⟨l, hkt.trans hcac, hl⟩
  · obtain ⟨count, sample, icon, heq⟩ := hsou.built _ hbui
    exact ⟨start.refreshed count sample icon, heq, hdes, hmax⟩
  · cases hqt

theorem StatusState.Sound.run {ok : StatusState → StatusStep → Prop} (h : st.Sound start)
    (hrun : Run (StatusState.step hyphenated) ok st t) : t.Sound start :=
  hrun.invariant h fun _ _ _ hs _ hstep => hs.step hstep

theorem StatusState.Holds.run (h : st.Holds new) (hsou : st.Sound start)
    (hdes : start.description = new.description)
    (hmax : start.maxPlayers = new.maxPlayers)
    (hrun : Run (StatusState.step hyphenated) (fun _ l => l.quiet = true) st t) : t.Holds new := by
  have hboth := hrun.invariant (I := fun s => s.Sound start ∧ s.Holds new) ⟨hsou, h⟩
    fun _ _ _ hs hqt hstep => ⟨hs.1.step hstep, hs.2.step hs.1 hdes hmax hqt hstep⟩
  exact hboth.2

theorem AfterReload.holds (h : AfterReload hyphenated start new t)
    (hmax : start.maxPlayers = new.maxPlayers)
    (hdes : start.description = new.description)
    (hmotd : new.description = textJson new.motd) : t.Holds new := by
  obtain @⟨u, v, w, x, favicon, i, hrea, hnew, hsto, hqt, hfin, hlat⟩ := h
  have hu := (StatusState.sound_new favicon).run hrea
  have hv := hu.step hsto
  have hw := hv.run hqt
  have hstor : v.Holds new := by
    simp only [StatusState.step] at hsto
    split at hsto
    · rename_i config suffix hrel
      rw [hrel] at hnew
      cases hnew
      cases hsto
      obtain ⟨icon, heq⟩ := hu.rendered _ _ (mem_of_getElem? hrel)
      exact ⟨_, heq.trans (reloadSuffix_eq _ icon), hmotd.symm, rfl⟩
    · cases hsto
  have hhe := hstor.run hv hdes hmax hqt
  have hdn := hhe.step hw hdes hmax rfl hfin
  exact hdn.run (hw.step hfin) hdes hmax hlat

def reloadedState (start new : StatusConfig) : StatusState :=
  ⟨start, reloadSuffix new none, none, [], .waiting, [⟨new, .finished⟩]⟩

def refreshedState (hyphenated : Uuid → String) (start new : StatusConfig) : StatusState :=
  { reloadedState start new with
    cached := refreshSuffix start 0 (playerSample hyphenated start.serverLore []) none }

theorem afterReload_reloadedState (hyphenated : Uuid → String) (start : StatusConfig) :
    AfterReload hyphenated start new (reloadedState start new) := by
  let checked : StatusState := { StatusState.new start none with reloads := [⟨new, .checked⟩] }
  let rendered : StatusState :=
    { checked with reloads := [⟨new, .built (reloadSuffix new none)⟩] }
  have hche : Run (StatusState.step hyphenated) (fun _ _ => True) (.new start none) checked :=
    .tail .refl trivial (l := .reload new none) rfl
  have hren : Run (StatusState.step hyphenated) (fun _ _ => True) (.new start none) rendered :=
    .tail hche trivial (l := .render 0) rfl
  exact .intro (i := 0) hren rfl rfl .refl rfl .refl

theorem AfterReload.later (h : AfterReload hyphenated start new st)
    (hrun : Run (StatusState.step hyphenated) (fun _ l => l.quiet = true) st t) :
    AfterReload hyphenated start new t := by
  obtain ⟨hrea, hnew, hsto, hqt, hfin, hlat⟩ := h
  exact .intro hrea hnew hsto hqt hfin (hlat.trans hrun)

theorem afterReload_refreshedState (hyphenated : Uuid → String) (start : StatusConfig) :
    AfterReload hyphenated start new (refreshedState hyphenated start new) := by
  apply (afterReload_reloadedState hyphenated start).later
  exact .of_exec [.count, .sample [], .build, .publish] rfl

/-- A reload is what the status shows from then on exactly if it leaves the MOTD and the number of
slots of the start, and its MOTD is a plain text. -/
theorem shows_afterReload_iff (hyphenated : Uuid → String) (start new : StatusConfig) :
    (∀ t, AfterReload hyphenated start new t → t.Shows new) ↔
      start.maxPlayers = new.maxPlayers ∧ start.description = new.description ∧
        new.description = textJson new.motd := by
  constructor
  · intro h
    have hreloaded := h _ (afterReload_reloadedState hyphenated start)
    have hrefreshed := h _ (afterReload_refreshedState hyphenated start)
    rw [StatusState.shows_iff (reloadSuffix_eq new none)] at hreloaded
    rw [StatusState.shows_iff (refreshSuffix_eq ..)] at hrefreshed
    exact ⟨hrefreshed.2, hrefreshed.1, hreloaded.1.symm⟩
  · rintro ⟨hmax, hdescription, hmotd⟩ t ht
    obtain ⟨l, hcached, hl⟩ := ht.holds hmax hdescription hmotd
    exact (StatusState.shows_iff hcached new).mpr hl

def oldStatus : StatusConfig := ⟨100, "Welcome", none, none⟩

def newStatus : StatusConfig := ⟨100, "Maintenance tonight", none, none⟩

/-- A second after the reload the status shows the old MOTD again. -/
theorem not_shows_afterReload_refreshed : ∃ t, AfterReload (fun _ => "") oldStatus newStatus t ∧
    Handler.statusBodies (onlineEnv.caching t) Handler.statusClient =
      ["\x7b\"version\":\x7b\"name\":\"Koja\",\"protocol\":47\x7d," ++
        "\"players\":\x7b\"max\":100,\"online\":0,\"sample\":[]\x7d," ++
          "\"description\":\x7b\"text\":\"Welcome\"\x7d\x7d"] ∧ ¬t.Shows newStatus := by
  refine ⟨_, afterReload_refreshedState _ oldStatus, by decide +kernel, ?_⟩
  rw [StatusState.shows_iff (refreshSuffix_eq ..)]
  rintro ⟨hdescription, -⟩
  simp [StatusConfig.refreshed, StatusConfig.description, oldStatus, newStatus, textJson]
    at hdescription

end System

end Kojacoord
