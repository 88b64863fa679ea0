/-
What the server does with the messages of an agent (`router/ws/agent/mod.rs`: `handle_agent_message`, and the handlers under
`router/ws/agent/`; `service/agent_manager.rs`; `service/upgrade_tracker.rs`).

A message is handled for the server that its connection was admitted for. `Own` is what the program keys by that server, over
all its maps; the other maps are keyed by ids that come from the messages. A handler is one step, but for a round of a
traceroute: after its check it waits for the names of the hops, and its round is applied in a step of its own, whatever has
happened since. `Env` is what a handler finds outside this state. Data that no handler looks into is of one type. Audit logs,
the outboxes of alerts, and what is sent to the agent are not here.
-/
import ServerBee.Lib.Regex
import ServerBee.Lib.Run
import ServerBee.Transfers.Model
import ServerBee.UpgradeJobs.Tracker

namespace ServerBee.Messages

open ServerBee.Lib
open ServerBee.Transfers (FileTransferManager Frame Fault)
open ServerBee.UpgradeJobs (UpgradeJob UpgradeLookup UpgradeStage UpgradeStatus CapabilityDeniedReason Jobs)

variable {δ : Type}

/-! ## Messages -/

structure SystemInfo (δ : Type) where
  ipv4 : Option String
  ipv6 : Option String
  features : List String
  protocolVersion : ℕ
  agentVersion : String
  rest : δ
deriving DecidableEq, Repr

structure TaskResult where
  taskId : String
  output : String
  exitCode : ℤ
deriving DecidableEq, Repr

structure BlocklistAckItem where
  id : String
  state : String
  reason : Option String
deriving DecidableEq, Repr

/-- what an agent says of a round of a traceroute -/
structure RoundUpdate (δ : Type) where
  requestId : String
  round : ℕ
  totalRounds : ℕ
  hops : List δ
  completed : Bool
  error : Option String
deriving DecidableEq, Repr

inductive TerminalSessionEvent where
  | output (data : String)
  | started
  | error (text : String)
deriving DecidableEq, Repr

/-- the list, stat, read and operation results of the file manager, and the replies of docker -/
inductive ReplyKind where
  | fileList
  | fileStat
  | fileRead
  | fileOp
  | dockerNetworks
  | dockerVolumes
  | dockerAction
deriving DecidableEq, Repr

inductive AgentMessage (δ : Type) where
  | systemInfo (msgId : String) (info : SystemInfo δ) (agentLocalCapabilities : Option ℕ) (temporary : List δ)
  | capabilitiesChanged (msgId : String) (capabilities : ℕ) (temporary : List δ) (changes : List δ)
  | report (report : δ)
  | pingResult (result : δ)
  | securityEvent (payload : δ)
  | taskResult (msgId : String) (result : TaskResult)
  | terminal (sessionId : String) (event : TerminalSessionEvent)
  | capabilityDenied (msgId sessionId : Option String) (capability : String) (reason : CapabilityDeniedReason)
  | networkProbeResults (results : List δ)
  | unlockResults (egressIp : String) (results : List δ)
  | reply (kind : ReplyKind) (msgId : String) (content : δ)
  | fileTransfer (transferId : ℕ) (frame : Frame)
  | dockerInfo (msgId : Option String) (info : δ)
  | dockerContainers (msgId : Option String) (containers : List δ)
  | dockerStats (stats : List δ)
  | dockerLog (sessionId : String) (entries : List δ)
  | dockerEvent (event : δ)
  | featuresUpdate (features : List String)
  | dockerUnavailable (msgId : Option String)
  | ipChanged (ipv4 ipv6 : Option String)
  | tracerouteResult (requestId : String) (hops : List δ) (completed : Bool) (error : Option String)
  | tracerouteRoundUpdate (update : RoundUpdate δ)
  | upgradeProgress (msgId : String) (jobId : Option ℕ) (targetVersion : String) (stage : UpgradeStage)
  | upgradeResult (msgId : String) (jobId : Option ℕ) (targetVersion : String) (stage : UpgradeStage) (error : String)
    (backupPath : Option String)
  | blocklistAck (results : List BlocklistAckItem)
  | blocklistResetAck (ok : Bool) (reason : Option String)
  | pong

/-! ## The state of the server -/

/-- what is keyed by the server -/
structure Own (δ : Type) where
  report : Option δ
  dockerInfo : Option δ
  dockerContainers : Option (List δ)
  dockerStats : Option (List δ)
  /-- the sessions, and what was sent to them -/
  dockerLogs : String → Option (List δ)
  features : List String
  protocolVersion : Option ℕ
  localCapabilities : Option ℕ
  temporaryGrants : List δ
  externalIp : Option String
  applyState : List BlocklistAckItem
  /-- security events retained for admission -/
  retained : List δ
  /-- rows of ping and probe results, docker events and unlock results -/
  rows : List δ

structure Pending where
  serverId : ℕ
  waiter : ℕ
deriving DecidableEq, Repr

structure TerminalSession where
  serverId : ℕ
  events : List TerminalSessionEvent
deriving DecidableEq, Repr

inductive RecordedProtocol where
  | icmp
  | udp
  | tcp
  | legacy
deriving DecidableEq, Repr

/-- `TracerouteCacheEntry`, with its meta -/
structure TracerouteCacheEntry (δ : Type) where
  serverId : ℕ
  target : String
  protocol : RecordedProtocol
  startedAt : ℤ
  round : ℕ
  totalRounds : ℕ
  hops : List δ
  completed : Bool
  error : Option String
  completedAt : Option ℤ
deriving DecidableEq, Repr

/-- `traceroute_record`, without its id -/
structure TracerouteRecord (δ : Type) where
  serverId : ℕ
  target : String
  protocol : RecordedProtocol
  startedAt : ℤ
  completedAt : ℤ
  totalRounds : ℕ
  completedRounds : ℕ
  hops : List δ
  error : Option String
deriving DecidableEq, Repr

structure TaskResultRow where
  taskId : String
  serverId : ℕ
  output : String
  exitCode : ℤ
deriving DecidableEq, Repr

/-- a scheduled or one-shot task; its list of servers may not parse -/
structure TaskRow where
  taskType : String
  serverIds : Option (List ℕ)
deriving DecidableEq, Repr

inductive BrowserMessage (δ : Type) where
  | update (report : δ)
  | capabilitiesChanged (capabilities : ℕ) (temporary : List δ)
  | agentInfoUpdated (protocolVersion : ℕ) (agentVersion : String)
  | upgradeProgress (job : UpgradeJob)
  | upgradeResult (job : UpgradeJob)
  | networkProbeUpdate (results : List δ)
  | tracerouteUpdate (requestId : String) (entry : TracerouteCacheEntry δ)
  | dockerUpdate (containers : List δ) (stats : Option (List δ))
  | dockerEvent (event : δ)
  | dockerAvailabilityChanged (available : Bool)
  | serverOffline
  | serverIpChanged (ipv4 ipv6 : Option String)
  | firewallApplyStateChanged (item : BlocklistAckItem)
  | ipQualityUpdate (results : List δ) (snapshot : Option δ)
deriving DecidableEq, Repr

structure State (δ : Type) where
  own : ℕ → Own δ
  pending : String → Option Pending
  /-- the requests that were answered, and with what -/
  delivered : List (Pending × AgentMessage δ)
  terminals : String → Option TerminalSession
  transfers : FileTransferManager
  traceroutes : String → Option (TracerouteCacheEntry δ)
  /-- rounds that have passed the check of their sender -/
  rounds : List (ℕ × RoundUpdate δ)
  records : String → Option (TracerouteRecord δ)
  jobs : Jobs
  tasks : String → Option TaskRow
  taskResults : List TaskResultRow
  /-- what browsers were told, each with the server that it names -/
  browser : List (ℕ × BrowserMessage δ)

structure Env (δ : Type) where
  now : ℤ
  effectiveCapabilities : ℕ
  /-- whether the transaction of an address or a capability change fails -/
  sourceFails : Bool
  addressesDiffer : Bool
  securityAuthority : Bool
  lookupFails : Bool
  insertFails : Bool
  fault : Option Fault
  ipQuality : Option δ

/-! ## What the handlers use -/

namespace State

variable (s : State δ) (serverId : ℕ)

def modifyOwn (f : Own δ → Own δ) : State δ := { s with own := Function.update s.own serverId (f (s.own serverId)) }

def broadcast (message : BrowserMessage δ) : State δ := { s with browser := s.browser ++ [(serverId, message)] }

/-- the slot is only consumed when it was registered for the same server -/
def dispatchPendingResponse (msgId : String) (message : AgentMessage δ) : State δ × Bool :=
  match s.pending msgId with
  | some request =>
    if request.serverId = serverId then
      ({ s with pending := Function.update s.pending msgId none, delivered := s.delivered ++ [(request, message)] }, true)
    else (s, false)
  | none => (s, false)

def dispatch (msgId : Option String) (message : AgentMessage δ) : State δ :=
  match msgId with
  | some msgId => (s.dispatchPendingResponse serverId msgId message).1
  | none => s

/-- to the session of this id, when it was opened on this server -/
def sendTerminal (sessionId : String) (event : TerminalSessionEvent) : State δ :=
  match s.terminals sessionId with
  | some session =>
    if session.serverId = serverId then
      { s with terminals := Function.update s.terminals sessionId (some { session with events := session.events ++ [event] }) }
    else s
  | none => s

def unregisterAgentTerminalSession (sessionId : String) : State δ :=
  match s.terminals sessionId with
  | some session => if session.serverId = serverId then { s with terminals := Function.update s.terminals sessionId none } else s
  | none => s

def isOneshotTarget (taskId : String) : Bool :=
  match s.tasks taskId with
  | some task => task.taskType == "oneshot" && (task.serverIds.getD []).contains serverId
  | none => false

def insertTaskResult (result : TaskResult) : State δ :=
  { s with taskResults := s.taskResults ++ [⟨result.taskId, serverId, result.output, result.exitCode⟩] }

/-- the result is that of a job which has ended -/
def setJobs (result : Jobs × Option UpgradeJob) : State δ :=
  match result.2 with
  | some job => { s with jobs := result.1 }.broadcast job.serverId (.upgradeResult job)
  | none => { s with jobs := result.1 }

end State

/-! ## Handlers -/

def capSecurityEvents : ℕ := 256
def capIpQuality : ℕ := 1024

def hasCapability (capabilities capBit : ℕ) : Bool := capabilities &&& capBit != 0

def uploadAckKey (transferId : ℕ) : String := "upload-ack-" ++ toString transferId
def uploadCompleteKey (transferId : ℕ) : String := "upload-complete-" ++ toString transferId

section Handlers

variable (env : Env δ) (s : State δ) (serverId : ℕ)

/-- the first part of `SystemInfo`: what the agent says of itself -/
def storeSystemInfo (info : SystemInfo δ) : State δ :=
  let s := if env.addressesDiffer then s.broadcast serverId (.serverIpChanged info.ipv4 info.ipv6) else s
  s.modifyOwn serverId fun own => { own with features := info.features, protocolVersion := some info.protocolVersion }

def storeCapabilities (capabilities : ℕ) (temporary : List δ) : State δ :=
  (s.modifyOwn serverId fun own => { own with localCapabilities := some capabilities }).broadcast serverId
    (.capabilitiesChanged capabilities temporary)

/-- the job of an upgrade to this version has succeeded -/
def succeedUpgrade (agentVersion : String) : State δ :=
  match s.jobs serverId with
  | some job =>
    if job.status = UpgradeStatus.running ∧ job.targetVersion = agentVersion then
      s.setJobs (UpgradeJobs.markSucceeded s.jobs (UpgradeLookup.fromJob job) none env.now)
    else s
  | none => s

def onSystemInfo (info : SystemInfo δ) (agentLocalCapabilities : Option ℕ) (temporary : List δ) : State δ :=
  let s := s.modifyOwn serverId fun own => { own with temporaryGrants := temporary }
  if env.sourceFails then s
  else
    let s := storeSystemInfo env s serverId info
    let s := match agentLocalCapabilities with
      | some capabilities => storeCapabilities s serverId capabilities temporary
      | none => s
    let s := s.broadcast serverId (.agentInfoUpdated info.protocolVersion info.agentVersion)
    (succeedUpgrade env s serverId info.agentVersion).modifyOwn serverId fun own =>
      { own with externalIp := info.ipv4.or info.ipv6 }

def onIpChanged (ipv4 ipv6 : Option String) : State δ :=
  let s := s.modifyOwn serverId fun own => { own with externalIp := ipv4.or ipv6 }
  if env.sourceFails then s
  else if env.addressesDiffer then s.broadcast serverId (.serverIpChanged ipv4 ipv6)
  else s

def onCapabilitiesChanged (capabilities : ℕ) (temporary : List δ) : State δ :=
  if env.sourceFails then s
  else
    (s.modifyOwn serverId fun own =>
      { own with localCapabilities := some capabilities, temporaryGrants := temporary }).broadcast serverId
        (.capabilitiesChanged capabilities temporary)

def onTaskResult (msgId : String) (result : TaskResult) : State δ :=
  let (s, dispatched) := s.dispatchPendingResponse serverId result.taskId (.taskResult msgId result)
  if dispatched then s
  else if env.lookupFails then s
  else if s.isOneshotTarget serverId result.taskId && !env.insertFails then s.insertTaskResult serverId result
  else s

def capabilityDeniedOutput (capability : String) (reason : CapabilityDeniedReason) : String :=
  if capability = "exec" then
    match reason with
    | .serverCapabilityDisabled => "Capability denied: exec disabled on server"
    | .agentCapabilityDisabled => "Capability denied: exec blocked by agent local policy"
  else s!"Capability denied: {capability}"

/-- the upgrade was denied -/
def denyUpgrade (capability : String) (reason : CapabilityDeniedReason) : State δ :=
  match s.jobs serverId with
  | some job =>
    if capability = "upgrade" then
      s.setJobs (UpgradeJobs.markFailedByCapabilityDenied s.jobs (UpgradeLookup.fromJob job) reason env.now)
    else s
  | none => s

def onCapabilityDenied (msgId sessionId : Option String) (capability : String) (reason : CapabilityDeniedReason) : State δ :=
  let s := match msgId with
    | some taskId => onTaskResult env s serverId taskId ⟨taskId, capabilityDeniedOutput capability reason, -2⟩
    | none => s
  let s := denyUpgrade env s serverId capability reason
  match sessionId with
  | some sessionId => s.unregisterAgentTerminalSession serverId sessionId
  | none => s

/-- what a frame of an upload tells the HTTP handler that waits -/
def wakeUpload (transferId : ℕ) (frame : Frame) (message : AgentMessage δ) : State δ :=
  match frame with
  | .uploadAck _ => (s.dispatchPendingResponse serverId (uploadAckKey transferId) message).1
  | .uploadComplete => (s.dispatchPendingResponse serverId (uploadCompleteKey transferId) message).1
  | .uploadError _ =>
    let (s, dispatched) := s.dispatchPendingResponse serverId (uploadCompleteKey transferId) message
    if dispatched then s else (s.dispatchPendingResponse serverId (uploadAckKey transferId) message).1
  | _ => s

def onFileTransfer (transferId : ℕ) (frame : Frame) : State δ :=
  if Transfers.senderOwnsTransfer s.transfers serverId transferId then
    wakeUpload { s with transfers := Transfers.onFrame s.transfers serverId transferId frame env.fault } serverId transferId frame
      (.fileTransfer transferId frame)
  else s

def onDockerUnavailable (msgId : Option String) : State δ :=
  let s := s.modifyOwn serverId fun own =>
    { own with
      dockerInfo := none
      dockerContainers := none
      dockerStats := none
      dockerLogs := fun _ => none
      features := own.features.filter fun feature => feature != "docker" }
  (s.broadcast serverId (.dockerAvailabilityChanged false)).dispatch serverId msgId (.dockerUnavailable msgId)

/-- another server's placeholder drops the round; a missing one does not, yet -/
def onTracerouteRoundUpdate (update : RoundUpdate δ) : State δ :=
  match s.traceroutes update.requestId with
  | some entry => if entry.serverId ≠ serverId then s else { s with rounds := s.rounds ++ [(serverId, update)] }
  | none => { s with rounds := s.rounds ++ [(serverId, update)] }

/-- a legacy result: its protocol is recorded, and it is one round -/
def onTracerouteResult (requestId : String) (hops : List δ) (completed : Bool) (error : Option String) : State δ :=
  let s := { s with
    traceroutes := Function.update s.traceroutes requestId
      ((s.traceroutes requestId).map fun entry => { entry with protocol := .legacy }) }
  onTracerouteRoundUpdate s serverId ⟨requestId, 1, 1, hops, completed, error⟩

def applyUpdate (entry : TracerouteCacheEntry δ) (update : RoundUpdate δ) (hops : List δ) : TracerouteCacheEntry δ :=
  { entry with
    round := update.round
    totalRounds := update.totalRounds
    hops := hops
    completed := update.completed
    error := update.error
    completedAt := if update.completed then entry.completedAt.or (some env.now) else entry.completedAt }

def TracerouteCacheEntry.record (entry : TracerouteCacheEntry δ) (now : ℤ) : TracerouteRecord δ :=
  ⟨entry.serverId, entry.target, entry.protocol, entry.startedAt, now, entry.totalRounds, entry.round, entry.hops, entry.error⟩

/-- the table has one row for an id -/
def insertCompletedRecord (requestId : String) (record : TracerouteRecord δ) : State δ :=
  if env.insertFails || (s.records requestId).isSome then s
  else { s with records := Function.update s.records requestId (some record) }

/-- the round after its hops were enriched -/
def applyRound (update : RoundUpdate δ) (hops : List δ) : State δ :=
  match s.traceroutes update.requestId with
  | none => s
  | some entry =>
    let entry := applyUpdate env entry update hops
    let s := { s with traceroutes := Function.update s.traceroutes update.requestId (some entry) }
    let s := if update.completed then insertCompletedRecord env s update.requestId (entry.record env.now) else s
    s.broadcast entry.serverId (.tracerouteUpdate update.requestId entry)

def onUpgradeProgress (jobId : Option ℕ) (targetVersion : String) (stage : UpgradeStage) : State δ :=
  let (jobs, updated) := UpgradeJobs.updateStage s.jobs ⟨serverId, jobId, targetVersion⟩ stage
  match updated with
  | some job =>
    if (s.jobs serverId).map UpgradeJob.stage = some stage then { s with jobs := jobs }
    else { s with jobs := jobs }.broadcast job.serverId (.upgradeProgress job)
  | none => { s with jobs := jobs }

def onUnlockResults (egressIp : String) (results : List δ) : State δ :=
  if hasCapability env.effectiveCapabilities capIpQuality then
    let s := s.modifyOwn serverId fun own => { own with rows := own.rows ++ results }
    let s := s.broadcast serverId (.ipQualityUpdate results none)
    if egressIp.toList.all isWhiteSpace then s
    else
      match env.ipQuality with
      | some snapshot => s.broadcast serverId (.ipQualityUpdate results (some snapshot))
      | none => s
  else s

def onBlocklistAck (results : List BlocklistAckItem) : State δ :=
  results.foldl (fun s item =>
    (s.modifyOwn serverId fun own =>
      { own with applyState := item :: own.applyState.filter fun other => other.id != item.id }).broadcast serverId
        (.firewallApplyStateChanged item)) s

def handleAgentMessage (message : AgentMessage δ) : State δ :=
  match message with
  | .systemInfo _ info agentLocalCapabilities temporary => onSystemInfo env s serverId info agentLocalCapabilities temporary
  | .capabilitiesChanged _ capabilities temporary _ => onCapabilitiesChanged env s serverId capabilities temporary
  | .report report => (s.modifyOwn serverId fun own => { own with report := some report }).broadcast serverId (.update report)
  | .pingResult result => s.modifyOwn serverId fun own => { own with rows := own.rows ++ [result] }
  | .securityEvent payload =>
    if hasCapability env.effectiveCapabilities capSecurityEvents && env.securityAuthority then
      s.modifyOwn serverId fun own => { own with retained := own.retained ++ [payload] }
    else s
  | .taskResult msgId result => onTaskResult env s serverId msgId result
  | .terminal sessionId event => s.sendTerminal serverId sessionId event
  | .capabilityDenied msgId sessionId capability reason => onCapabilityDenied env s serverId msgId sessionId capability reason
  | .networkProbeResults results => (s.broadcast serverId (.networkProbeUpdate results)).modifyOwn serverId fun own =>
      { own with rows := own.rows ++ results }
  | .unlockResults egressIp results => onUnlockResults env s serverId egressIp results
  | .reply _ msgId _ => (s.dispatchPendingResponse serverId msgId message).1
  | .fileTransfer transferId frame => onFileTransfer env s serverId transferId frame
  | .dockerInfo msgId info => ((s.modifyOwn serverId fun own => { own with dockerInfo := some info }).dispatch serverId msgId
      message).broadcast serverId (.dockerAvailabilityChanged true)
  | .dockerContainers msgId containers =>
    ((s.modifyOwn serverId fun own => { own with dockerContainers := some containers }).dispatch serverId msgId
      message).broadcast serverId (.dockerUpdate containers (s.own serverId).dockerStats)
  | .dockerStats stats =>
    let s := s.modifyOwn serverId fun own => { own with dockerStats := some stats }
    match (s.own serverId).dockerContainers with
    | some containers => s.broadcast serverId (.dockerUpdate containers (some stats))
    | none => s
  | .dockerLog sessionId entries => s.modifyOwn serverId fun own =>
      { own with
        dockerLogs := Function.update own.dockerLogs sessionId ((own.dockerLogs sessionId).map fun sent => sent ++ entries) }
  | .dockerEvent event => (s.modifyOwn serverId fun own => { own with rows := own.rows ++ [event] }).broadcast serverId
      (.dockerEvent event)
  | .featuresUpdate features => (s.modifyOwn serverId fun own => { own with features := features }).broadcast serverId
      (.dockerAvailabilityChanged (features.contains "docker"))
  | .dockerUnavailable msgId => onDockerUnavailable s serverId msgId
  | .ipChanged ipv4 ipv6 => onIpChanged env s serverId ipv4 ipv6
  | .tracerouteResult requestId hops completed error => onTracerouteResult s serverId requestId hops completed error
  | .tracerouteRoundUpdate update => onTracerouteRoundUpdate s serverId update
  | .upgradeProgress _ jobId targetVersion stage => onUpgradeProgress s serverId jobId targetVersion stage
  | .upgradeResult _ jobId targetVersion stage error backupPath =>
    s.setJobs (UpgradeJobs.markAgentReportedFailed s.jobs ⟨serverId, jobId, targetVersion⟩ stage error backupPath env.now)
  | .blocklistAck results => onBlocklistAck s serverId results
  | .blocklistResetAck ok _ => if ok then s.modifyOwn serverId fun own => { own with applyState := [] } else s
  | .pong => s

end Handlers

/-! ## The server -/

/-- `finish_connection_removal` -/
def finishConnectionRemoval (s : State δ) (serverId : ℕ) : State δ :=
  { s with
    pending := fun msgId => (s.pending msgId).filter fun pending => pending.serverId != serverId
    terminals := fun sessionId => (s.terminals sessionId).filter fun session => session.serverId != serverId }.modifyOwn serverId
      fun own =>
        { own with
          localCapabilities := none
          temporaryGrants := []
          dockerLogs := fun _ => none
          dockerInfo := none
          dockerContainers := none
          dockerStats := none }

inductive Op (δ : Type) where
  /-- a message on a connection that was admitted for this server -/
  | message (serverId : ℕ) (env : Env δ) (message : AgentMessage δ)
  /-- the hops of a round in flight were enriched -/
  | enriched (k : ℕ) (env : Env δ) (hops : List δ)
  | disconnected (serverId : ℕ)
  | registerPendingRequest (serverId : ℕ) (msgId : String) (waiter : ℕ)
  | cancelPendingRequest (msgId : String)
  | registerTerminalSession (serverId : ℕ) (sessionId : String)
  | unregisterTerminalSession (sessionId : String)
  | addDockerLogSession (serverId : ℕ) (sessionId : String)
  | removeDockerLogSession (serverId : ℕ) (sessionId : String)
  | createTransfer (id serverId : ℕ) (direction : Transfers.TransferDirection)
  | removeTransfer (id : ℕ) (deleted : Bool)
  | insertTraceroutePlaceholder (requestId : String) (serverId : ℕ) (target : String) (protocol : RecordedProtocol) (startedAt : ℤ)
  | evictTraceroute (requestId : String)
  | startUpgrade (serverId jobId : ℕ) (targetVersion : String) (now : ℤ)
  | sweepUpgrade (serverId : ℕ) (now : ℤ)
  | cleanupUpgrade (serverId : ℕ) (now : ℤ)
  | createTask (taskId : String) (row : TaskRow)

def Own.new : Own δ := ⟨none, none, none, none, fun _ => none, [], none, none, [], none, [], [], []⟩

def State.new : State δ :=
  ⟨fun _ => Own.new, fun _ => none, [], fun _ => none, FileTransferManager.new, fun _ => none, [], fun _ => none, fun _ => none,
    fun _ => none, [], []⟩

def placeholder (serverId : ℕ) (target : String) (protocol : RecordedProtocol) (startedAt : ℤ) : TracerouteCacheEntry δ :=
  ⟨serverId, target, protocol, startedAt, 0, 0, [], false, none, none⟩

def step (s : State δ) : Op δ → State δ
  | .message serverId env message => handleAgentMessage env s serverId message
  | .enriched k env hops =>
    match s.rounds[k]? with
    | some (_, update) => applyRound env { s with rounds := s.rounds.eraseIdx k } update hops
    | none => s
  | .disconnected serverId => (finishConnectionRemoval s serverId).broadcast serverId .serverOffline
  | .registerPendingRequest serverId msgId waiter =>
    { s with pending := Function.update s.pending msgId (some ⟨serverId, waiter⟩) }
  | .cancelPendingRequest msgId => { s with pending := Function.update s.pending msgId none }
  | .registerTerminalSession serverId sessionId =>
    { s with terminals := Function.update s.terminals sessionId (some ⟨serverId, []⟩) }
  | .unregisterTerminalSession sessionId => { s with terminals := Function.update s.terminals sessionId none }
  | .addDockerLogSession serverId sessionId => s.modifyOwn serverId fun own =>
      { own with dockerLogs := Function.update own.dockerLogs sessionId (some []) }
  | .removeDockerLogSession serverId sessionId => s.modifyOwn serverId fun own =>
      { own with dockerLogs := Function.update own.dockerLogs sessionId none }
  | .createTransfer id serverId direction =>
    { s with transfers := (s.transfers.createTransfer id serverId direction).getD s.transfers }
  | .removeTransfer id deleted => { s with transfers := s.transfers.remove id deleted }
  | .insertTraceroutePlaceholder requestId serverId target protocol startedAt =>
    { s with traceroutes := Function.update s.traceroutes requestId (some (placeholder serverId target protocol startedAt)) }
  | .evictTraceroute requestId => { s with traceroutes := Function.update s.traceroutes requestId none }
  | .startUpgrade serverId jobId targetVersion now =>
    match UpgradeJobs.conflict s.jobs serverId with
    | some _ => s
    | none => { s with jobs := UpgradeJobs.insertJob s.jobs serverId jobId targetVersion now }.broadcast serverId
        (.upgradeProgress (UpgradeJobs.newJob serverId jobId targetVersion now))
  | .sweepUpgrade serverId now => s.setJobs (UpgradeJobs.sweepEntry s.jobs now serverId)
  | .cleanupUpgrade serverId now => { s with jobs := UpgradeJobs.cleanupEntry s.jobs now serverId }
  | .createTask taskId row => { s with tasks := Function.update s.tasks taskId (some row) }

end ServerBee.Messages
