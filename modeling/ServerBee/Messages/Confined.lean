/-
The handlers of an agent's messages reach nothing of another server (`router/ws/agent`).

`Untouched B` compares two states in all that belongs to the server `B`. It is reflexive and transitive, and everything that a
handler does for another server leaves it: each of the operations that the handlers use has a lemma, and a handler is a chain of
them. What the chain needs of the state is that an upgrade job is stored under its own server (`Keyed`).
-/
import ServerBee.Messages.Model
import ServerBee.Transfers.Integrity

namespace ServerBee.Messages

open ServerBee.Lib
open ServerBee.Transfers (FileTransferManager Frame Fault TransferMeta)
open ServerBee.UpgradeJobs (UpgradeJob UpgradeLookup Jobs)

variable {δ : Type}

/-! ## What belongs to a server -/

/-- an entry, if it belongs to `B` -/
def ofServer {ρ : Type} (serverId : ρ → ℕ) (B : ℕ) (entry : Option ρ) : Option ρ := entry.filter fun r => decide (serverId r = B)

structure Untouched (B : ℕ) (s s' : State δ) : Prop where
  own : s'.own B = s.own B
  pending : ∀ k, ofServer Pending.serverId B (s'.pending k) = ofServer Pending.serverId B (s.pending k)
  delivered : (s'.delivered.filter fun d => decide (d.1.serverId = B)) = s.delivered.filter fun d => decide (d.1.serverId = B)
  terminals : ∀ k, ofServer TerminalSession.serverId B (s'.terminals k) = ofServer TerminalSession.serverId B (s.terminals k)
  transfers : ∀ k, ofServer TransferMeta.serverId B (s'.transfers.transfers.get k) =
    ofServer TransferMeta.serverId B (s.transfers.transfers.get k)
  /-- the temp file of a transfer, and its handle -/
  files : ∀ k, s.transfers.serverIdOf k = some B →
    s'.transfers.openFiles k = s.transfers.openFiles k ∧ s'.transfers.files k = s.transfers.files k
  traceroutes : ∀ k, ofServer TracerouteCacheEntry.serverId B (s'.traceroutes k) =
    ofServer TracerouteCacheEntry.serverId B (s.traceroutes k)
  records : ∀ k, ofServer TracerouteRecord.serverId B (s'.records k) = ofServer TracerouteRecord.serverId B (s.records k)
  jobs : s'.jobs B = s.jobs B
  taskResults : (s'.taskResults.filter fun row => decide (row.serverId = B)) =
    s.taskResults.filter fun row => decide (row.serverId = B)
  /-- no message that names `B` -/
  browser : (s'.browser.filter fun m => decide (m.1 = B)) = s.browser.filter fun m => decide (m.1 = B)

theorem ofServer_of_ne {ρ : Type} {serverId : ρ → ℕ} {B : ℕ} {r : ρ} (h : serverId r ≠ B) : ofServer serverId B (some r) = none := by
  rw [ofServer, Option.filter_some, if_neg (by simpa using h)]

/-- a map in which the entry of a key that is not `B`'s was changed -/
theorem ofServer_update {ρ : Type} {serverId : ρ → ℕ} {B : ℕ} {f : String → Option ρ} {k : String} {entry : Option ρ}
    (hold : ofServer serverId B (f k) = none) (hnew : ofServer serverId B entry = none) (k' : String) :
    ofServer serverId B (Function.update f k entry k') = ofServer serverId B (f k') := by
  by_cases hk : k' = k
  · subst hk
    rw [Function.update_self, hold, hnew]
  · rw [Function.update_of_ne hk]

theorem serverIdOf_eq_some {m : FileTransferManager} {k B : ℕ} :
    m.serverIdOf k = some B ↔ ofServer TransferMeta.serverId B (m.transfers.get k) ≠ none := by
  unfold FileTransferManager.serverIdOf ofServer
  cases m.transfers.get k with
  | none => simp
  | some r => simp [Option.filter_some]

theorem Untouched.refl (B : ℕ) (s : State δ) : Untouched B s s :=
  ⟨rfl, fun _ => rfl, rfl, fun _ => rfl, fun _ => rfl, fun _ _ => ⟨rfl, rfl⟩, fun _ => rfl, fun _ => rfl, rfl, rfl, rfl⟩

variable {A B : ℕ} {s s' s'' : State δ}

theorem Untouched.trans (h : Untouched B s s') (h' : Untouched B s' s'') : Untouched B s s'' where
  own := h'.own.trans h.own
  pending k := (h'.pending k).trans (h.pending k)
  delivered := h'.delivered.trans h.delivered
  terminals k := (h'.terminals k).trans (h.terminals k)
  transfers k := (h'.transfers k).trans (h.transfers k)
  files k hk := by
    have hk' : s'.transfers.serverIdOf k = some B := by
      rw [serverIdOf_eq_some] at hk ⊢
      rwa [h.transfers]
    obtain ⟨hopen, hfile⟩ := h.files k hk
    obtain ⟨hopen', hfile'⟩ := h'.files k hk'
    exact ⟨hopen'.trans hopen, hfile'.trans hfile⟩
  traceroutes k := (h'.traceroutes k).trans (h.traceroutes k)
  records k := (h'.records k).trans (h.records k)
  jobs := h'.jobs.trans h.jobs
  taskResults := h'.taskResults.trans h.taskResults
  browser := h'.browser.trans h.browser

/-! ## Upgrade jobs -/

/-- a job is stored under its server -/
def Keyed (jobs : Jobs) : Prop := ∀ n job, jobs n = some job → job.serverId = n

/-- an operation on the job of a server, and the job that it reports -/
structure OnJob (A : ℕ) (jobs : Jobs) (result : Jobs × Option UpgradeJob) : Prop where
  others : ∀ B, B ≠ A → result.1 B = jobs B
  named : ∀ job, result.2 = some job → job.serverId = A
  keyed : Keyed jobs → Keyed result.1

theorem keyed_update {jobs : Jobs} (h : Keyed jobs) {n : ℕ} {entry : Option UpgradeJob}
    (hentry : ∀ job, entry = some job → job.serverId = n) : Keyed (Function.update jobs n entry) := by
  intro n' job hjob
  by_cases hn : n' = n
  · subst hn
    rw [Function.update_self] at hjob
    exact hentry job hjob
  · rw [Function.update_of_ne hn] at hjob
    exact h n' job hjob

theorem onJob_same (A : ℕ) (jobs : Jobs) : OnJob A jobs (jobs, none) := ⟨fun _ _ => rfl, nofun, id⟩

theorem onJob_update {A : ℕ} {jobs : Jobs} {job : UpgradeJob} (h : job.serverId = A) :
    OnJob A jobs (Function.update jobs A (some job), some job) := by
  refine ⟨fun B hB => Function.update_of_ne hB _ _, fun job' hjob => ?_, fun hkeyed => keyed_update hkeyed fun job' hjob => ?_⟩
  · cases hjob
    exact h
  · cases hjob
    exact h

theorem matches_server {lookup : UpgradeLookup} {job : UpgradeJob} (h : lookup.matches job = true) :
    job.serverId = lookup.serverId := by
  by_contra hne
  rw [UpgradeLookup.matches, if_pos hne] at h
  cases h

theorem onJob_updateStage (jobs : Jobs) (lookup : UpgradeLookup) (stage : UpgradeJobs.UpgradeStage) :
    OnJob lookup.serverId jobs (UpgradeJobs.updateStage jobs lookup stage) := by
  unfold UpgradeJobs.updateStage
  split
  next => exact onJob_same _ jobs
  next job hjob =>
    split_ifs with hno hsame
    · exact onJob_same _ jobs
    · have hserver := matches_server (Bool.not_eq_false _ ▸ (not_or.1 hno).2)
      exact ⟨fun _ _ => rfl, fun job' hjob => by cases hjob; exact hserver, id⟩
    · exact onJob_update (matches_server (Bool.not_eq_false _ ▸ (not_or.1 hno).2))

theorem onJob_finish (jobs : Jobs) (lookup : UpgradeLookup) (status : UpgradeJobs.UpgradeStatus)
    (stage : Option UpgradeJobs.UpgradeStage) (error backupPath : Option String) (reported : Bool) (now : ℤ) :
    OnJob lookup.serverId jobs (UpgradeJobs.finishJobInner jobs lookup status stage error backupPath reported now) := by
  unfold UpgradeJobs.finishJobInner
  split
  next => exact onJob_same _ jobs
  next job hjob =>
    split_ifs with hcan
    · exact onJob_update (matches_server hcan.2)
    · exact onJob_same _ jobs

/-! ## The operations of the handlers -/

/-- a step for the server `A` leaves what belongs to others, and jobs under their servers -/
structure Confined (A : ℕ) (s s' : State δ) : Prop where
  untouched : ∀ B, A ≠ B → Untouched B s s'
  keyed : Keyed s.jobs → Keyed s'.jobs

theorem Confined.refl (A : ℕ) (s : State δ) : Confined A s s := ⟨fun B _ => Untouched.refl B s, id⟩

theorem Confined.trans (h : Confined A s s') (h' : Confined A s' s'') : Confined A s s'' :=
  ⟨fun B hne => (h.untouched B hne).trans (h'.untouched B hne), fun hkeyed => h'.keyed (h.keyed hkeyed)⟩

theorem confined_modifyOwn (A : ℕ) (s : State δ) (f : Own δ → Own δ) : Confined A s (s.modifyOwn A f) :=
  ⟨fun B hne => { Untouched.refl B s with own := Function.update_of_ne hne.symm _ _ }, id⟩

theorem confined_broadcast (A : ℕ) (s : State δ) (message : BrowserMessage δ) : Confined A s (s.broadcast A message) := by
  refine ⟨fun B hne => { Untouched.refl B s with browser := ?_ }, id⟩
  simp [State.broadcast, hne]

theorem confined_dispatch (A : ℕ) (s : State δ) (msgId : String) (message : AgentMessage δ) :
    Confined A s (s.dispatchPendingResponse A msgId message).1 := by
  unfold State.dispatchPendingResponse
  split
  next request hrequest =>
    split
    next howner =>
      refine ⟨fun B hne => ?_, id⟩
      have hother : request.serverId ≠ B := howner ▸ hne
      have hold : ofServer Pending.serverId B (s.pending msgId) = none := by
        rw [hrequest, ofServer_of_ne hother]
      refine { Untouched.refl B s with pending := ofServer_update hold rfl, delivered := ?_ }
      simp [hother]
    next => exact Confined.refl A s
  next => exact Confined.refl A s

theorem confined_dispatchOption (A : ℕ) (s : State δ) (msgId : Option String) (message : AgentMessage δ) :
    Confined A s (s.dispatch A msgId message) := by
  cases msgId with
  | none => exact Confined.refl A s
  | some msgId => exact confined_dispatch A s msgId message

/-- an entry of a terminal that is `A`'s, before and after -/
theorem confined_terminal {sessionId : String} {session : TerminalSession} (hsession : s.terminals sessionId = some session)
    (howner : session.serverId = A) {entry : Option TerminalSession} (hentry : ∀ r, entry = some r → r.serverId = A) :
    Confined A s { s with terminals := Function.update s.terminals sessionId entry } := by
  refine ⟨fun B hne => { Untouched.refl B s with terminals := ofServer_update ?_ ?_ }, id⟩
  · rw [hsession, ofServer_of_ne (howner ▸ hne)]
  · cases entry with
    | none => rfl
    | some r => exact ofServer_of_ne (hentry r rfl ▸ hne)

theorem confined_sendTerminal (A : ℕ) (s : State δ) (sessionId : String) (event : TerminalSessionEvent) :
    Confined A s (s.sendTerminal A sessionId event) := by
  unfold State.sendTerminal
  split
  next session hsession =>
    split
    next howner =>
      refine confined_terminal hsession howner ?_
      rintro r ⟨⟩
      exact howner
    next => exact Confined.refl A s
  next => exact Confined.refl A s

theorem confined_unregister (A : ℕ) (s : State δ) (sessionId : String) :
    Confined A s (s.unregisterAgentTerminalSession A sessionId) := by
  unfold State.unregisterAgentTerminalSession
  split
  next session hsession =>
    split
    next howner => exact confined_terminal hsession howner nofun
    next => exact Confined.refl A s
  next => exact Confined.refl A s

theorem confined_insertTaskResult (A : ℕ) (s : State δ) (result : TaskResult) : Confined A s (s.insertTaskResult A result) := by
  refine ⟨fun B hne => { Untouched.refl B s with taskResults := ?_ }, id⟩
  simp [State.insertTaskResult, hne]

theorem confined_jobs {result : Jobs × Option UpgradeJob} (h : OnJob A s.jobs result) :
    Confined A s { s with jobs := result.1 } :=
  ⟨fun B hne => { Untouched.refl B s with jobs := h.others B hne.symm }, h.keyed⟩

theorem confined_setJobs {result : Jobs × Option UpgradeJob} (h : OnJob A s.jobs result) : Confined A s (s.setJobs result) := by
  unfold State.setJobs
  split
  next job hjob =>
    rw [h.named job hjob]
    exact (confined_jobs h).trans (confined_broadcast A _ _)
  next => exact confined_jobs h

/-! ## Transfers -/

theorem serverIdOf_modify (m : FileTransferManager) (id k : ℕ) (f : TransferMeta → TransferMeta)
    (hf : ∀ r, (f r).transferId = r.transferId) (hserver : ∀ r, (f r).serverId = r.serverId) :
    (m.modify id f hf).serverIdOf k = m.serverIdOf k := by
  unfold FileTransferManager.serverIdOf
  rw [Transfers.get_modify]
  split_ifs
  · cases m.transfers.get k with
    | none => rfl
    | some r => exact congrArg some (hserver r)
  · rfl

/-- a frame does not change whose a transfer is -/
theorem serverIdOf_handleFrame (m : FileTransferManager) (id k : ℕ) (frame : Frame) (fault : Option Fault) :
    (Transfers.handleFrame m id frame fault).serverIdOf k = m.serverIdOf k := by
  have hmark : ∀ (u : FileTransferManager) status, (u.mark id status).serverIdOf k = u.serverIdOf k :=
    fun u status => serverIdOf_modify u id k _ _ fun _ => rfl
  have hbegin : ∀ size, (Transfers.beginDownload m id size).serverIdOf k = m.serverIdOf k := by
    intro size
    exact (hmark _ _).trans (serverIdOf_modify m id k _ _ fun _ => rfl)
  cases frame with
  | downloadReady size =>
    cases fault with
    | none => exact hbegin size
    | some e => exact (hmark _ _).trans (hbegin size)
  | downloadChunk offset data =>
    dsimp only [Transfers.handleFrame, Transfers.onDownloadChunk]
    split_ifs
    · cases data with
      | error e => exact hmark _ _
      | ok bytes =>
        cases fault with
        | none => exact serverIdOf_modify _ id k _ _ fun _ => rfl
        | some e => exact hmark _ _
    · rfl
  | downloadEnd => exact hmark _ _
  | downloadError error => exact hmark _ _
  | uploadAck offset => exact serverIdOf_modify m id k _ _ fun _ => rfl
  | uploadComplete => exact hmark _ _
  | uploadError error => exact hmark _ _

theorem ofServer_eq_none {m : FileTransferManager} {k : ℕ} :
    ofServer TransferMeta.serverId B (m.transfers.get k) = none ↔ m.serverIdOf k ≠ some B := by
  rw [Ne, serverIdOf_eq_some, not_not]

theorem confined_onFrame (A : ℕ) (s : State δ) (id : ℕ) (frame : Frame) (fault : Option Fault) :
    Confined A s { s with transfers := Transfers.onFrame s.transfers A id frame fault } := by
  unfold Transfers.onFrame
  split
  next howner =>
    refine ⟨fun B hne => ?_, fun hkeyed => hkeyed⟩
    have hid : s.transfers.serverIdOf id = some A := beq_iff_eq.1 howner
    have hnot : s.transfers.serverIdOf id ≠ some B := by
      rw [hid]
      exact fun h => hne (Option.some.inj h)
    refine { Untouched.refl B s with transfers := fun k => ?_, files := fun k hk => ?_ }
    · by_cases hk : k = id
      · subst hk
        rw [ofServer_eq_none.2 hnot, ofServer_eq_none, serverIdOf_handleFrame]
        exact hnot
      · rw [(Transfers.handleFrame_other frame fault hk).1]
    · have hk' : k ≠ id := by
        rintro rfl
        exact hnot hk
      exact (Transfers.handleFrame_other frame fault hk').2
  next => exact Confined.refl A s

/-! ## Handlers -/

section Handlers

variable (env : Env δ) (s) (A)

theorem confined_storeSystemInfo (info : SystemInfo δ) : Confined A s (storeSystemInfo env s A info) := by
  unfold storeSystemInfo
  split
  · exact (confined_broadcast A s _).trans (confined_modifyOwn A _ _)
  · exact confined_modifyOwn A s _

/-- the job of a server ends -/
theorem onJob_finishOwn (hkeyed : Keyed s.jobs) {job : UpgradeJob} (hjob : s.jobs A = some job) (status : UpgradeJobs.UpgradeStatus)
    (error : Option String) : OnJob A s.jobs
      (UpgradeJobs.finishJob s.jobs (UpgradeLookup.fromJob job) status none error none env.now) := by
  have hserver : (UpgradeLookup.fromJob job).serverId = A := hkeyed A job hjob
  have hfinish := onJob_finish s.jobs (UpgradeLookup.fromJob job) status none error none false env.now
  rwa [hserver] at hfinish

theorem confined_succeedUpgrade (hkeyed : Keyed s.jobs) (agentVersion : String) :
    Confined A s (succeedUpgrade env s A agentVersion) := by
  unfold succeedUpgrade
  split
  next job hjob =>
    split
    · exact confined_setJobs (onJob_finishOwn A s env hkeyed hjob _ _)
    · exact Confined.refl A s
  next => exact Confined.refl A s

theorem confined_onSystemInfo (hkeyed : Keyed s.jobs) (info : SystemInfo δ) (agentLocalCapabilities : Option ℕ)
    (temporary : List δ) : Confined A s (onSystemInfo env s A info agentLocalCapabilities temporary) := by
  unfold onSystemInfo
  have hgrants := confined_modifyOwn A s fun own => { own with temporaryGrants := temporary }
  split
  · exact hgrants
  · have hinfo := hgrants.trans (confined_storeSystemInfo A _ env info)
    have htail : ∀ u : State δ, Confined A s u → Confined A s
        ((succeedUpgrade env (u.broadcast A (.agentInfoUpdated info.protocolVersion info.agentVersion)) A
          info.agentVersion).modifyOwn A fun own => { own with externalIp := info.ipv4.or info.ipv6 }) := by
      intro u hu
      have htold := hu.trans (confined_broadcast A u (.agentInfoUpdated info.protocolVersion info.agentVersion))
      have hjob := htold.trans (confined_succeedUpgrade A _ env (htold.keyed hkeyed) info.agentVersion)
      exact hjob.trans (confined_modifyOwn A _ _)
    cases agentLocalCapabilities with
    | none => exact htail _ hinfo
    | some capabilities =>
      have hstored := (confined_modifyOwn A (storeSystemInfo env (s.modifyOwn A fun own =>
        { own with temporaryGrants := temporary }) A info) fun own => { own with localCapabilities := some capabilities }).trans
          (confined_broadcast A _ (.capabilitiesChanged capabilities temporary))
      exact htail _ (hinfo.trans hstored)

theorem confined_onIpChanged (ipv4 ipv6 : Option String) : Confined A s (onIpChanged env s A ipv4 ipv6) := by
  unfold onIpChanged
  split_ifs
  · exact confined_modifyOwn A s _
  · exact (confined_modifyOwn A s _).trans (confined_broadcast A _ _)
  · exact confined_modifyOwn A s _

theorem confined_onCapabilitiesChanged (capabilities : ℕ) (temporary : List δ) :
    Confined A s (onCapabilitiesChanged env s A capabilities temporary) := by
  unfold onCapabilitiesChanged
  split_ifs
  · exact Confined.refl A s
  · exact (confined_modifyOwn A s _).trans (confined_broadcast A _ _)

theorem confined_onTaskResult (msgId : String) (result : TaskResult) : Confined A s (onTaskResult env s A msgId result) := by
  have hdispatch := confined_dispatch A s result.taskId (.taskResult msgId result)
  unfold onTaskResult
  split
  next s' dispatched heq =>
    rw [heq] at hdispatch
    split_ifs
    · exact hdispatch
    · exact hdispatch
    · exact hdispatch.trans (confined_insertTaskResult A s' result)
    · exact hdispatch

theorem confined_denyUpgrade (hkeyed : Keyed s.jobs) (capability : String) (reason : UpgradeJobs.CapabilityDeniedReason) :
    Confined A s (denyUpgrade env s A capability reason) := by
  unfold denyUpgrade
  split
  next job hjob =>
    split
    · exact confined_setJobs (onJob_finishOwn A s env hkeyed hjob _ _)
    · exact Confined.refl A s
  next => exact Confined.refl A s

theorem confined_onCapabilityDenied (hkeyed : Keyed s.jobs) (msgId sessionId : Option String) (capability : String)
    (reason : UpgradeJobs.CapabilityDeniedReason) :
    Confined A s (onCapabilityDenied env s A msgId sessionId capability reason) := by
  have htail : ∀ u : State δ, Confined A s u → Confined A s (denyUpgrade env u A capability reason) :=
    fun u hu => hu.trans (confined_denyUpgrade A u env (hu.keyed hkeyed) capability reason)
  cases msgId with
  | none =>
    have hdenied := htail s (Confined.refl A s)
    cases sessionId with
    | none => exact hdenied
    | some sessionId => exact hdenied.trans (confined_unregister A _ sessionId)
  | some taskId =>
    have hdenied := htail _ (confined_onTaskResult A s env taskId ⟨taskId, capabilityDeniedOutput capability reason, -2⟩)
    cases sessionId with
    | none => exact hdenied
    | some sessionId => exact hdenied.trans (confined_unregister A _ sessionId)

theorem confined_wakeUpload (id : ℕ) (frame : Frame) (message : AgentMessage δ) :
    Confined A s (wakeUpload s A id frame message) := by
  cases frame with
  | uploadAck offset => exact confined_dispatch A s _ message
  | uploadComplete => exact confined_dispatch A s _ message
  | uploadError error =>
    have hfirst := confined_dispatch A s (uploadCompleteKey id) message
    simp only [wakeUpload]
    split
    · exact hfirst
    · exact hfirst.trans (confined_dispatch A _ _ message)
  | _ => exact Confined.refl A s

theorem confined_onFileTransfer (id : ℕ) (frame : Frame) : Confined A s (onFileTransfer env s A id frame) := by
  unfold onFileTransfer
  split
  · exact (confined_onFrame A s id frame env.fault).trans (confined_wakeUpload A _ id frame _)
  · exact Confined.refl A s

theorem confined_onDockerUnavailable (msgId : Option String) : Confined A s (onDockerUnavailable s A msgId) :=
  ((confined_modifyOwn A s _).trans (confined_broadcast A _ _)).trans (confined_dispatchOption A _ msgId _)

/-- a round in flight changes nothing yet -/
theorem confined_onTracerouteRoundUpdate (update : RoundUpdate δ) : Confined A s (onTracerouteRoundUpdate s A update) := by
  have hround : Confined A s { s with rounds := s.rounds ++ [(A, update)] } := ⟨fun B _ => { Untouched.refl B s with }, id⟩
  unfold onTracerouteRoundUpdate
  split
  · split
    · exact Confined.refl A s
    · exact hround
  · exact hround

theorem confined_onUpgradeProgress (jobId : Option ℕ) (targetVersion : String) (stage : UpgradeJobs.UpgradeStage) :
    Confined A s (onUpgradeProgress s A jobId targetVersion stage) := by
  have hjob := onJob_updateStage s.jobs ⟨A, jobId, targetVersion⟩ stage
  have hjobs := confined_jobs hjob
  unfold onUpgradeProgress
  simp only
  split
  next job heq =>
    split
    · exact hjobs
    · have hnamed : job.serverId = A := hjob.named job heq
      rw [hnamed]
      exact hjobs.trans (confined_broadcast A _ _)
  next => exact hjobs

theorem confined_onUnlockResults (egressIp : String) (results : List δ) :
    Confined A s (onUnlockResults env s A egressIp results) := by
  have hsaved := (confined_modifyOwn A s fun own => { own with rows := own.rows ++ results }).trans
    (confined_broadcast A _ (.ipQualityUpdate results none))
  unfold onUnlockResults
  split
  · split
    · exact hsaved
    · split
      · exact hsaved.trans (confined_broadcast A _ _)
      · exact hsaved
  · exact Confined.refl A s

theorem confined_onBlocklistAck (results : List BlocklistAckItem) : Confined A s (onBlocklistAck s A results) := by
  unfold onBlocklistAck
  induction results generalizing s with
  | nil => exact Confined.refl A s
  | cons item results ih => exact ((confined_modifyOwn A s _).trans (confined_broadcast A _ _)).trans (ih _)

end Handlers

end ServerBee.Messages
