import Kojacoord.Net.Journal

namespace Kojacoord
open Journal

def Act.isConnecting : Act → Bool
  | connecting _ => true
  | _ => false

theorem routine_idle : Routine env (fun _ => True) fun a => a.isConnecting = false where
  steady := steady_true
  plays _ h := h
  wrote _ _ _ _ _ := rfl
  asked _ _ := rfl
  noticed _ := rfl
  removed _ := rfl

namespace Env
variable (env : Env) (c : Client) (uuid : Uuid) (username : String)
  (properties : List ProfileProperty)

def refuses : Bool :=
  env.maintenanceBlocks uuid || (env.signatureError c.protocolVersion properties).isSome

def greetingFails : Bool :=
  let preNetty := (nearest c.protocolVersion).canonicalTypedPacketVersion = .v1_6_4
  (decide preNetty || env.builds c.protocolVersion (.loginSuccess uuid username properties)) &&
    (env.writeError c.writes).isSome

def turnsAway : Bool :=
  env.refuses c uuid properties || env.greetingFails c uuid username properties

def postLoginResults : List HandlerResult := env.results c.events (.postLogin uuid username)

def joinResults : List HandlerResult := env.results (c.events + 1) (.playerJoin uuid username)

end Env

namespace Handler
variable {env : Env} {c : Client}

def admission (env : Env) (uuid : Uuid) (username : String) (properties : List ProfileProperty) :
    Handler Bool := do
  checkLogin env uuid properties
  sendLoginSuccess env uuid username properties
  insertSession env uuid username properties
  joinKicked env uuid username

def afterAdmission (env : Env) (uuid : Uuid) (username : String) : Bool → Handler Unit
  | true => do
    record (.removed uuid)
    ignore (sendPlayDisconnect env (redLiteral "You were not allowed to join."))
    throw (.auth "join rejected by plugin")
  | false => connectAndPlay env uuid username

theorem finaliseLogin_eq : finaliseLogin env uuid username properties =
    admission env uuid username properties >>= afterAdmission env uuid username := by
  have haft : (fun kicked : Bool => if kicked = true then do
        record (.removed uuid)
        ignore (sendPlayDisconnect env (redLiteral "You were not allowed to join."))
        throw (.auth "join rejected by plugin")
      else connectAndPlay env uuid username) = afterAdmission env uuid username := by
    funext kicked
    cases kicked <;> rfl
  simp only [finaliseLogin, admission, bind_assoc, haft]

theorem keeps_admission :
    Keeps Client.journal (fun a => a.isConnecting = false) (admission env uuid username properties) := by
  apply KeepsIn.keeps
  apply KeepsIn.bind (keeps_checkLogin routine_idle)
  intro _
  apply KeepsIn.bind (keeps_sendLoginSuccess routine_idle fun _ _ _ => rfl)
  intro _
  apply KeepsIn.bind (keeps_insertSession routine_idle fun _ _ => rfl)
  intro _
  exact keeps_joinKicked routine_idle

theorem run_checkLogin (h : env.refuses c uuid properties = false) :
    ExceptT.run (checkLogin env uuid properties) c = (.ok (), c) := by
  obtain ⟨hblo, herr⟩ : env.maintenanceBlocks uuid = false ∧
      env.signatureError c.protocolVersion properties = none := by simpa [Env.refuses] using h
  simp only [checkLogin, hblo, Bool.false_eq_true, if_false]
  rw [run_bind_ok _ (run_get c), herr]
  rfl

theorem run_checkLogin_refused (h : env.refuses c uuid properties = true) :
    ∃ e c', ExceptT.run (checkLogin env uuid properties) c = (.error e, c') := by
  have reject {reason : String} {error : ConnectionError} (c : Client) : ∃ e c',
      ExceptT.run (do ignore (sendDisconnectLogin env reason); throw error : Handler Unit) c =
        (.error e, c') := by
    obtain ⟨c', hc'⟩ := run_recover (sendDisconnectLogin env reason) c
    exact ⟨error, c', run_bind_ok (fun _ => throw error) hc'⟩
  unfold checkLogin
  cases hblo : env.maintenanceBlocks uuid with
  | true => exact reject c
  | false =>
    have herr : (env.signatureError c.protocolVersion properties).isSome = true := by
      simpa [Env.refuses, hblo] using h
    obtain ⟨e, he⟩ := Option.isSome_iff_exists.mp herr
    simp only [Bool.false_eq_true, if_false]
    rw [run_bind_ok _ (run_get c), he]
    exact reject c

theorem run_write_events : ∃ r c', ExceptT.run (write env packet) c = (r, c') ∧
    r.isOk = !(env.writeError c.writes).isSome ∧ c'.events = c.events := by
  rw [run_write]
  cases env.writeError c.writes <;> exact ⟨_, _, rfl, rfl, rfl⟩

theorem run_sendLoginSuccess (c : Client) :
    ∃ r c', ExceptT.run (sendLoginSuccess env uuid username properties) c = (r, c') ∧
      r.isOk = !env.greetingFails c uuid username properties ∧ c'.events = c.events := by
  have hcan : ExceptT.run canonical c =
      (.ok (nearest c.protocolVersion).canonicalTypedPacketVersion, c) := rfl
  unfold sendLoginSuccess Env.greetingFails
  rw [run_bind_ok _ hcan]
  split
  · rename_i hpre
    simp only [hpre, decide_true, Bool.true_or, Bool.true_and]
    exact run_write_events
  · rename_i hpre
    simp only [hpre, decide_false, Bool.false_or, writeBuilt]
    rw [run_bind_ok _ (run_get c)]
    split
    · rename_i hbui
      simp only [hbui, Bool.true_and]
      exact run_write_events
    · rename_i hbui
      simp only [hbui, Bool.false_and]
      exact ⟨_, _, rfl, rfl, rfl⟩

theorem run_ignored_write :
    ∃ c', ExceptT.run (ignore (write env packet)) c = (.ok (), c') ∧ c'.events = c.events := by
  have hrun : ExceptT.run (ignore (write env packet)) c = _ :=
    run_tryCatch (write env packet) (fun _ => pure ()) c
  rw [hrun, run_write]
  cases env.writeError c.writes <;> exact ⟨_, rfl, rfl⟩

theorem run_insertSession (c : Client) :
    ∃ c', ExceptT.run (insertSession env uuid username properties) c = (.ok (), c') ∧
      c'.events = c.events := by
  have hrec (act : Act) : ExceptT.run (record act) c =
      (.ok (), { c with journal := c.journal ++ [act] }) := rfl
  unfold insertSession
  rw [run_bind_ok _ (run_get c), run_bind_ok _ (hrec _)]
  split
  · exact run_ignored_write
  · exact ⟨_, rfl, rfl⟩

theorem run_dispatch : ExceptT.run (dispatch env event) c =
    (.ok (dispatchPluginEvent event (env.results c.events event)).subjectKicked, { c with
        events := c.events + 1
        journal := c.journal ++ [.asked event (env.results c.events event)] ++
          (dispatchPluginEvent event (env.results c.events event)).notices.map .noticed }) := rfl

/-- The veto as the source heeds it: some plugin kicks the player on `PlayerJoin`, and none cancels
the event. -/
theorem run_joinKicked (c : Client) :
    ∃ c', ExceptT.run (joinKicked env uuid username) c =
    (.ok (kickStands uuid (env.joinResults c uuid username)), c') := by
  unfold joinKicked
  rw [run_bind_ok _ run_dispatch, subjectKicked_of_subject_none rfl]
  simp only [Bool.false_eq_true, if_false]
  rw [run_dispatch, subjectKicked_eq rfl]
  exact ⟨_, rfl⟩

theorem run_admission (h : env.turnsAway c uuid username properties = false) :
    ∃ c', ExceptT.run (admission env uuid username properties) c =
      (.ok (kickStands uuid (env.joinResults c uuid username)), c') := by
  obtain ⟨href, hgre⟩ := Bool.or_eq_false_iff.mp h
  obtain ⟨r, c₁, hsend, hok, heve₁⟩ := run_sendLoginSuccess c
  obtain ⟨c₂, hins, heve₂⟩ := run_insertSession c₁
  obtain ⟨c₃, hjoin⟩ := run_joinKicked c₂
  rw [hgre] at hok
  cases r with
  | error e => cases hok
  | ok _ =>
    refine ⟨c₃, ?_⟩
    unfold admission
    rw [run_bind_ok _ (run_checkLogin href), run_bind_ok _ hsend, run_bind_ok _ hins, hjoin,
      Env.joinResults, heve₂, heve₁]
    rfl

theorem run_admission_refused (h : env.turnsAway c uuid username properties = true) :
    ∃ e c', ExceptT.run (admission env uuid username properties) c = (.error e, c') := by
  unfold admission
  cases href : env.refuses c uuid properties with
  | true =>
    obtain ⟨e, c', hc'⟩ := run_checkLogin_refused href
    exact ⟨e, c', run_bind_error _ hc'⟩
  | false =>
    have hgre : env.greetingFails c uuid username properties = true := by
      simpa [Env.turnsAway, href] using h
    obtain ⟨r, c₁, hsend, hok, -⟩ := run_sendLoginSuccess c
    rw [hgre] at hok
    cases r with
    | ok _ => cases hok
    | error e =>
      refine ⟨e, c₁, ?_⟩
      rw [run_bind_ok _ (run_checkLogin href), run_bind_error _ hsend]

theorem traces_connectAndPlay : Traces Client.journal (connectAndPlay env uuid username)
    fun acts _ => .connecting uuid ∈ acts := by
  apply Traces.bind (R := fun acts _ => acts = [Act.connecting uuid])
  · intro c
    exact ⟨_, rfl, rfl⟩
  · intro acts _ hacts
    apply Traces.mono (keeps_backendOutcome routine_idle _).keeps
    intro acts' r _
    rw [hacts]
    exact List.mem_append_left _ (List.mem_singleton_self _)
  · intro acts e hacts
    rw [hacts]
    exact List.mem_singleton_self _

def Connects (env : Env) (uuid : Uuid) (username : String) (properties : List ProfileProperty)
    (c : Client) : Prop :=
  ∃ a ∈ added Client.journal (finaliseLogin env uuid username properties) c, a.isConnecting = true

theorem not_connects (h : ∀ a ∈ added Client.journal (finaliseLogin env uuid username properties) c,
    a.isConnecting = false) : ¬ Connects env uuid username properties c := by
  rintro ⟨a, ha, hc⟩
  rw [h a ha] at hc
  cases hc

theorem connects_iff : Connects env uuid username properties c ↔
    env.turnsAway c uuid username properties = false ∧
      kickStands uuid (env.joinResults c uuid username) = false := by
  have hkp : Keeps Client.journal (fun a => a.isConnecting = false)
      (admission env uuid username properties) := keeps_admission
  cases haway : env.turnsAway c uuid username properties with
  | true =>
    obtain ⟨e, c', hadm⟩ := run_admission_refused haway
    simp only [Bool.true_eq_false, false_and, iff_false]
    apply not_connects
    rw [finaliseLogin_eq, added_bind_error hadm]
    exact hkp.added c
  | false =>
    obtain ⟨c', hadm⟩ := run_admission haway
    cases hki : kickStands uuid (env.joinResults c uuid username) with
    | true =>
      rw [hki] at hadm
      have hrej : Keeps Client.journal (fun a => a.isConnecting = false)
          (afterAdmission env uuid username true) := (keeps_rejectJoin routine_idle).keeps
      simp only [Bool.true_eq_false, and_false, iff_false]
      apply not_connects
      rw [finaliseLogin_eq, added_bind_ok hkp hrej hadm]
      intro a ha
      rcases List.mem_append.mp ha with ha | ha
      · exact hkp.added c a ha
      · exact hrej.added c' a ha
    | false =>
      rw [hki] at hadm
      have hcon : Traces Client.journal (afterAdmission env uuid username false)
          fun acts _ => .connecting uuid ∈ acts := traces_connectAndPlay
      simp only [and_self, iff_true]
      refine ⟨.connecting uuid, ?_, rfl⟩
      rw [finaliseLogin_eq, added_bind_ok hkp hcon hadm]
      exact List.mem_append_right _ (hcon.added c')

end Handler

end Kojacoord
