/-
An agent changes what belongs to another server at two places.

A legacy traceroute result records its protocol in the placeholder of its request before anyone asks whose it is. A round is
checked before its hops are enriched, when there is a placeholder to check; the one that it is applied to may have come since.
These are the operations that `Respects` excludes. In a reachable state every other step of an agent leaves all other servers,
and these two do not.
-/
import ServerBee.Messages.Confined

namespace ServerBee.Messages

open ServerBee.Lib
open ServerBee.UpgradeJobs (Jobs)

variable {δ : Type} {A B : ℕ} {s s' : State δ}

/-! ## The two exceptions -/

def AgentMessage.isLegacyResult : AgentMessage δ → Bool
  | .tracerouteResult .. => true
  | _ => false

theorem confined_handleAgentMessage (env : Env δ) (hkeyed : Keyed s.jobs) (message : AgentMessage δ)
    (hlegacy : message.isLegacyResult = false) : Confined A s (handleAgentMessage env s A message) := by
  cases message with
  | systemInfo msgId info capabilities temporary => exact confined_onSystemInfo A s env hkeyed info capabilities temporary
  | capabilitiesChanged msgId capabilities temporary changes =>
    exact confined_onCapabilitiesChanged A s env capabilities temporary
  | report report => exact (confined_modifyOwn A s _).trans (confined_broadcast A _ _)
  | pingResult result => exact confined_modifyOwn A s fun own => { own with rows := own.rows ++ [result] }
  | securityEvent payload =>
    simp only [handleAgentMessage]
    split
    · exact confined_modifyOwn A s _
    · exact Confined.refl A s
  | taskResult msgId result => exact confined_onTaskResult A s env msgId result
  | terminal sessionId event => exact confined_sendTerminal A s sessionId event
  | capabilityDenied msgId sessionId capability reason =>
    exact confined_onCapabilityDenied A s env hkeyed msgId sessionId capability reason
  | networkProbeResults results =>
    exact (confined_broadcast A s _).trans (confined_modifyOwn A _ fun own => { own with rows := own.rows ++ results })
  | unlockResults egressIp results => exact confined_onUnlockResults A s env egressIp results
  | reply kind msgId content => exact confined_dispatch A s msgId _
  | fileTransfer transferId frame => exact confined_onFileTransfer A s env transferId frame
  | dockerInfo msgId info =>
    exact ((confined_modifyOwn A s _).trans (confined_dispatchOption A _ msgId _)).trans (confined_broadcast A _ _)
  | dockerContainers msgId containers =>
    exact ((confined_modifyOwn A s _).trans (confined_dispatchOption A _ msgId _)).trans (confined_broadcast A _ _)
  | dockerStats stats =>
    have hstats := confined_modifyOwn A s fun own => { own with dockerStats := some stats }
    simp only [handleAgentMessage]
    split
    · exact hstats.trans (confined_broadcast A _ _)
    · exact hstats
  | dockerLog sessionId entries =>
    exact confined_modifyOwn A s fun own =>
      { own with dockerLogs := Function.update own.dockerLogs sessionId ((own.dockerLogs sessionId).map (· ++ entries)) }
  | dockerEvent event => exact (confined_modifyOwn A s _).trans (confined_broadcast A _ _)
  | featuresUpdate features => exact (confined_modifyOwn A s _).trans (confined_broadcast A _ _)
  | dockerUnavailable msgId => exact confined_onDockerUnavailable A s msgId
  | ipChanged ipv4 ipv6 => exact confined_onIpChanged A s env ipv4 ipv6
  | tracerouteResult requestId hops completed error => cases hlegacy
  | tracerouteRoundUpdate update => exact confined_onTracerouteRoundUpdate A s update
  | upgradeProgress msgId jobId targetVersion stage => exact confined_onUpgradeProgress A s jobId targetVersion stage
  | upgradeResult msgId jobId targetVersion stage error backupPath =>
    exact confined_setJobs (onJob_finish s.jobs ⟨A, jobId, targetVersion⟩ _ _ _ _ _ _)
  | blocklistAck results => exact confined_onBlocklistAck A s results
  | blocklistResetAck ok reason =>
    simp only [handleAgentMessage]
    split
    · exact confined_modifyOwn A s _
    · exact Confined.refl A s
  | pong => exact Confined.refl A s

/-- a placeholder that is another's is left only where its protocol was legacy before -/
theorem untouched_legacy (env : Env δ) (requestId : String) (hops : List δ) (completed : Bool) (error : Option String) :
    (∀ B, A ≠ B → Untouched B s (handleAgentMessage env s A (.tracerouteResult requestId hops completed error))) ↔
      ∀ entry, s.traceroutes requestId = some entry → entry.serverId = A ∨ entry.protocol = .legacy := by
  -- the state after the protocol was recorded, and before the round
  let legacy : State δ := { s with
    traceroutes := Function.update s.traceroutes requestId
      ((s.traceroutes requestId).map fun entry => { entry with protocol := .legacy }) }
  have hround : Confined A legacy (handleAgentMessage env s A (.tracerouteResult requestId hops completed error)) :=
    confined_onTracerouteRoundUpdate A legacy ⟨requestId, 1, 1, hops, completed, error⟩
  constructor
  · intro h entry hentry
    by_contra hnot
    obtain ⟨hserver, hprotocol⟩ := not_or.1 hnot
    have hafter := ((hround.untouched entry.serverId (Ne.symm hserver)).traceroutes requestId).symm.trans
      ((h entry.serverId (Ne.symm hserver)).traceroutes requestId)
    have hset : legacy.traceroutes requestId = some { entry with protocol := .legacy } := by
      show Function.update s.traceroutes requestId _ requestId = _
      rw [Function.update_self, hentry]
      rfl
    rw [hset, hentry] at hafter
    simp only [ofServer, Option.filter_some, decide_true, if_true] at hafter
    exact hprotocol (congrArg TracerouteCacheEntry.protocol (Option.some.inj hafter)).symm
  · intro h B hne
    suffices hrecorded : Untouched B s legacy from hrecorded.trans (hround.untouched B hne)
    refine { Untouched.refl B s with traceroutes := fun k => ?_ }
    by_cases hk : k = requestId
    · subst hk
      show ofServer _ B (Function.update s.traceroutes k _ k) = _
      rw [Function.update_self]
      cases hentry : s.traceroutes k with
      | none => rfl
      | some entry =>
        rcases h entry hentry with hserver | hprotocol
        · have hother : entry.serverId ≠ B := hserver ▸ hne
          rw [ofServer_of_ne hother]
          exact ofServer_of_ne hother
        · have hsame : { entry with protocol := .legacy } = entry := by rw [← hprotocol]
          rw [Option.map_some, hsame]
    · show ofServer _ B (Function.update s.traceroutes requestId _ k) = _
      rw [Function.update_of_ne hk]

theorem untouched_insertCompletedRecord (env : Env δ) (requestId : String) {record : TracerouteRecord δ}
    (hserver : record.serverId ≠ B) : Untouched B s (insertCompletedRecord env s requestId record) := by
  unfold insertCompletedRecord
  split
  next => exact Untouched.refl B s
  next hfree =>
    have hnone : s.records requestId = none := by
      by_contra hsome
      exact hfree (by simp [Option.isSome_iff_ne_none.2 hsome])
    refine { Untouched.refl B s with records := ofServer_update ?_ (ofServer_of_ne hserver) }
    rw [hnone]
    rfl

/-- a round is told for the server of its placeholder, whose it is -/
theorem untouched_applyRound (env : Env δ) (update : RoundUpdate δ) (hops : List δ) :
    (∀ B, A ≠ B → Untouched B s (applyRound env s update hops)) ↔
      ∀ entry, s.traceroutes update.requestId = some entry → entry.serverId = A := by
  unfold applyRound
  cases hentry : s.traceroutes update.requestId with
  | none => exact ⟨fun _ => nofun, fun _ B _ => Untouched.refl B s⟩
  | some entry =>
    let applied := applyUpdate env entry update hops
    let cached : State δ := { s with traceroutes := Function.update s.traceroutes update.requestId (some applied) }
    let recorded := if update.completed then insertCompletedRecord env cached update.requestId (applied.record env.now) else cached
    have hlog : recorded.browser = s.browser := by
      show State.browser (if _ then _ else _) = _
      split
      · unfold insertCompletedRecord
        split <;> rfl
      · rfl
    constructor
    · rintro h entry' ⟨⟩
      by_contra hserver
      have htold := (h entry.serverId (Ne.symm hserver)).browser
      have hlength := congrArg List.length htold
      change (List.filter _ (recorded.browser ++ [(entry.serverId, _)])).length = _ at hlength
      rw [hlog, List.filter_append, List.length_append] at hlength
      simp at hlength
    · intro h B hne
      have hother : entry.serverId ≠ B := h entry rfl ▸ hne
      have hcached : Untouched B s cached := by
        refine { Untouched.refl B s with traceroutes := ofServer_update ?_ (ofServer_of_ne hother) }
        rw [hentry, ofServer_of_ne hother]
      have hrecorded : Untouched B cached recorded := by
        show Untouched B cached (if _ then _ else _)
        split
        · exact untouched_insertCompletedRecord env update.requestId hother
        · exact Untouched.refl B cached
      exact (hcached.trans hrecorded).trans ((confined_broadcast entry.serverId recorded _).untouched B hother)

/-! ## The server -/

/-- for whom an operation is, when it is the work of an agent -/
def sender (s : State δ) : Op δ → Option ℕ
  | .message serverId _ _ => some serverId
  | .enriched k _ _ => (s.rounds[k]?).map Prod.fst
  | _ => none

/-- a legacy result is not for a placeholder of another server which has another protocol, and a round that is applied finds a
placeholder of its sender's, or none -/
def Respects (s : State δ) : Op δ → Prop
  | .message serverId _ (.tracerouteResult requestId _ _ _) =>
    ∀ entry, s.traceroutes requestId = some entry → entry.serverId = serverId ∨ entry.protocol = .legacy
  | .enriched k _ _ => ∀ serverId update entry, s.rounds[k]? = some (serverId, update) →
      s.traceroutes update.requestId = some entry → entry.serverId = serverId
  | _ => True

/-- the work of an agent leaves what belongs to every other server -/
def Isolated (s : State δ) (op : Op δ) : Prop := ∀ A, sender s op = some A → ∀ B, A ≠ B → Untouched B s (step s op)

theorem keyed_message (env : Env δ) (message : AgentMessage δ) (hkeyed : Keyed s.jobs) :
    Keyed (handleAgentMessage env s A message).jobs := by
  cases hlegacy : message.isLegacyResult with
  | false => exact (confined_handleAgentMessage env hkeyed message hlegacy).keyed hkeyed
  | true =>
    cases message with
    | tracerouteResult requestId hops completed error => exact (confined_onTracerouteRoundUpdate A _ _).keyed hkeyed
    | _ => cases hlegacy

theorem jobs_applyRound (env : Env δ) (s : State δ) (update : RoundUpdate δ) (hops : List δ) :
    (applyRound env s update hops).jobs = s.jobs := by
  unfold applyRound insertCompletedRecord
  split
  next => rfl
  next =>
    simp only [State.broadcast]
    split_ifs <;> rfl

theorem onJob_sweepEntry {jobs : Jobs} (hkeyed : Keyed jobs) (now : ℤ) (A : ℕ) :
    OnJob A jobs (UpgradeJobs.sweepEntry jobs now A) := by
  unfold UpgradeJobs.sweepEntry
  split
  next => exact onJob_same A jobs
  next job hjob =>
    split
    · exact onJob_same A jobs
    · exact onJob_update (hkeyed A job hjob)

theorem keyed_step (op : Op δ) (hkeyed : Keyed s.jobs) : Keyed (step s op).jobs := by
  cases op with
  | message serverId env message => exact keyed_message env message hkeyed
  | enriched k env hops =>
    simp only [step]
    split
    · rwa [jobs_applyRound]
    · exact hkeyed
  | startUpgrade serverId jobId targetVersion now =>
    simp only [step]
    split
    · exact hkeyed
    · refine keyed_update hkeyed ?_
      rintro job ⟨⟩
      rfl
  | sweepUpgrade serverId now => exact (confined_setJobs (onJob_sweepEntry hkeyed now serverId)).keyed hkeyed
  | cleanupUpgrade serverId now =>
    show Keyed (UpgradeJobs.cleanupEntry s.jobs now serverId)
    unfold UpgradeJobs.cleanupEntry
    split
    · exact hkeyed
    · split
      · exact keyed_update hkeyed nofun
      · exact hkeyed
  | _ => exact hkeyed

theorem keyed_reachable (ops : List (Op δ)) : Keyed (runs step State.new ops).jobs := by
  induction ops using List.reverseRecOn with
  | nil => exact nofun
  | append_singleton ops op ih =>
    rw [runs_append]
    exact keyed_step op ih

theorem isolated_message (env : Env δ) (message : AgentMessage δ) (hkeyed : Keyed s.jobs) :
    Isolated s (.message A env message) ↔ Respects s (.message A env message) := by
  have hsender : Isolated s (.message A env message) ↔ ∀ B, A ≠ B → Untouched B s (handleAgentMessage env s A message) := by
    constructor
    · exact fun h => h A rfl
    · rintro h A' ⟨⟩
      exact h
  rw [hsender]
  cases hlegacy : message.isLegacyResult with
  | true =>
    cases message with
    | tracerouteResult requestId hops completed error => exact untouched_legacy env requestId hops completed error
    | _ => cases hlegacy
  | false =>
    have hconfined := (confined_handleAgentMessage (A := A) env hkeyed message hlegacy).untouched
    have hrespects : Respects s (.message A env message) := by
      cases message with
      | tracerouteResult => cases hlegacy
      | _ => trivial
    exact iff_of_true hconfined hrespects

theorem isolated_enriched (k : ℕ) (env : Env δ) (hops : List δ) :
    Isolated s (.enriched k env hops) ↔ Respects s (.enriched k env hops) := by
  unfold Isolated Respects
  simp only [sender, step]
  cases hround : s.rounds[k]? with
  | none => exact iff_of_true nofun nofun
  | some round =>
    obtain ⟨serverId, update⟩ := round
    -- to take the round out of the list is nobody's
    have happlied := untouched_applyRound (A := serverId) (s := { s with rounds := s.rounds.eraseIdx k }) env update hops
    constructor
    · rintro h serverId' update' entry ⟨⟩ hentry
      exact happlied.1 (fun B hne => { h serverId rfl B hne with }) entry hentry
    · rintro h A ⟨⟩ B hne
      exact { happlied.2 (fun entry => h serverId update entry rfl) B hne with }

/-- **Isolation.** In every reachable state, the work of an agent leaves what belongs to every other server exactly when it is
neither a legacy result for the placeholder of another nor a round that finds one. -/
theorem isolated_iff (ops : List (Op δ)) (op : Op δ) :
    Isolated (runs step State.new ops) op ↔ Respects (runs step State.new ops) op := by
  cases op with
  | message serverId env message => exact isolated_message env message (keyed_reachable ops)
  | enriched k env hops => exact isolated_enriched k env hops
  | _ => exact iff_of_true nofun trivial

/-- the agent of server 1 records the legacy protocol in a trace of server 2 -/
theorem legacy_reaches_another :
    let s : State Unit := runs step State.new [.insertTraceroutePlaceholder "req" 2 "192.0.2.1" .icmp 0]
    let env : Env Unit := ⟨1, 0, false, false, false, false, false, none, none⟩
    ¬ Untouched 2 s (step s (.message 1 env (.tracerouteResult "req" [] false none))) := by
  intro s env h
  have hentry := h.traceroutes "req"
  revert hentry
  decide

end ServerBee.Messages
