/-
The self-upgrade of an agent (`upgrade/transaction.rs`).

The binary, its backup, the failed candidate, the staged candidate and the record of the transaction are files; each
function is a program over them that may be killed between two operations. File operations fail only on a missing or an
existing file, and synchronising a directory changes nothing a later start sees, so it is left out, as are the messages
of errors and the paths in them. `windows` selects the statements that the source compiles there only.
-/
import ServerBee.Lib.Crash

namespace ServerBee.Upgrade

open ServerBee.Lib ServerBee.Lib.FileOp

/-- a binary: the version it was compiled with, and what else makes it this one -/
structure Binary where
  version : String
  build : ℕ
deriving DecidableEq, Repr

inductive TransactionPhase where
  | pending
  | booting
  | healthy
  | rolledBack
deriving DecidableEq, Repr

structure UpgradeTransaction where
  targetVersion : String
  jobId : Option String
  phase : TransactionPhase
  error : Option String
deriving DecidableEq, Repr

inductive FileName where
  | currentExe
  | bak
  | bakTmp
  | failed
  | candidate
  | state
  | stateTmp
deriving DecidableEq, Repr

inductive Content where
  | binary (b : Binary)
  | record (tx : UpgradeTransaction)
deriving DecidableEq, Repr

inductive UpgradeError where
  | missing (f : FileName)
  | taken (f : FileName)
  | invalidTransaction
  | pointsAtCandidate (version : String)
deriving DecidableEq, Repr

abbrev Fs := Files FileName Content

abbrev FsOp := FileOp FileName Content

abbrev Io := FileOp.Io FileName Content UpgradeError

/-- `trim_start_matches('v')` -/
def normalizeVersion (version : String) : String := String.ofList (version.toList.dropWhile (· == 'v'))

/-! ## Files -/

/-- a statement that is compiled for Windows only -/
def removeOnWindows (windows : Bool) (f : FileName) : Io Unit := if windows then removeAny f else pure ()

def copyAndReplace (windows : Bool) (source destination : FileName) : Io Unit := do
  removeAny .bakTmp
  copyFile (.missing source) source .bakTmp
  removeOnWindows windows destination
  renameFile (.missing .bakTmp) .bakTmp destination

def readState : Io (Option UpgradeTransaction) := do
  match (← look) .state with
  | none => pure none
  | some (.whole (.record tx)) => pure (some tx)
  | some _ => throw .invalidTransaction

def writeState (windows : Bool) (state : UpgradeTransaction) : Io Unit := do
  removeAny .stateTmp
  createWith (.taken .stateTmp) .stateTmp (.record state)
  removeOnWindows windows .state
  renameFile (.missing .stateTmp) .stateTmp .state

def removeState : Io Unit := removeAny .state

def rollbackFiles : Io Unit := do
  if ((← look) .bak).isNone then throw (.missing .bak)
  else
    removeAny .failed
    renameFile (.missing .currentExe) .currentExe .failed
    tryCatch (renameFile (.missing .bak) .bak .currentExe) fun restoreError => do
      renameFile (.missing .failed) .failed .currentExe
      throw restoreError

/-! ## The transaction -/

def installCandidateAt (windows : Bool) (targetVersion : String) (jobId : Option String) : Io Unit := do
  let fs ← look
  if (fs .currentExe).isNone then throw (.missing .currentExe)
  else if (fs .candidate).isNone then throw (.missing .candidate)
  else
    writeState windows ⟨normalizeVersion targetVersion, jobId, .pending, none⟩
    tryCatch (copyAndReplace windows .currentExe .bak) fun error => do
      removeState
      throw error
    tryCatch (renameFile (.missing .candidate) .candidate .currentExe) fun error => do
      removeState
      throw error

inductive StartupDisposition where
  | normal
  | trial
  | recovered
  | restartAfterRollback
deriving DecidableEq, Repr

def interrupted : String := "upgrade was interrupted before the candidate became healthy; previous binary is active"

def exitedEarly : String :=
  "candidate Agent exited before completing startup health confirmation; previous binary restored"

def missedHealth : String :=
  "candidate Agent did not complete startup health confirmation within 90s; previous binary restored"

def prepareStartupAt (windows : Bool) (runningVersion : String) : Io StartupDisposition := do
  match ← readState with
  | none => pure .normal
  | some state =>
    if normalizeVersion runningVersion ≠ normalizeVersion state.targetVersion then
      if state.phase ≠ .rolledBack then
        writeState windows { state with phase := .rolledBack, error := some interrupted }
        pure .recovered
      else pure .recovered
    else
      match state.phase with
      | .pending =>
        writeState windows { state with phase := .booting }
        pure .trial
      | .booting | .healthy =>
        rollbackFiles
        writeState windows { state with phase := .rolledBack, error := some exitedEarly }
        pure .restartAfterRollback
      | .rolledBack => throw (.pointsAtCandidate state.targetVersion)

def commitStartupTrialAt (windows : Bool) (runningVersion : String) : Io Bool := do
  match ← readState with
  | none => pure false
  | some state =>
    if state.phase ≠ .booting ∨ normalizeVersion runningVersion ≠ normalizeVersion state.targetVersion then pure false
    else
      writeState windows { state with phase := .healthy }
      pure true

def finalizeStartupTrialAt (runningVersion : String) : Io Unit := do
  match ← readState with
  | none => pure ()
  | some state =>
    if state.phase = .healthy ∧ normalizeVersion runningVersion = normalizeVersion state.targetVersion then removeState
    else pure ()

def rollbackUnhealthyTrialAt (windows : Bool) (runningVersion : String) : Io Bool := do
  match ← readState with
  | none => pure false
  | some state =>
    if ¬ (state.phase = .booting ∨ state.phase = .healthy) ∨
        normalizeVersion runningVersion ≠ normalizeVersion state.targetVersion then pure false
    else
      rollbackFiles
      writeState windows { state with phase := .rolledBack, error := some missedHealth }
      pure true

def rollbackFailedCandidateAt (windows : Bool) (targetVersion : String) (jobId : Option String) (error : String) :
    Io Unit := do
  let state ← readState
  rollbackFiles
  writeState windows { state.getD ⟨normalizeVersion targetVersion, jobId, .booting, none⟩ with
    phase := .rolledBack, error := some error }

structure RecoveryReport where
  targetVersion : String
  jobId : Option String
  error : String
deriving DecidableEq, Repr

def readRecoveryReportAt (runningVersion : String) : Io (Option RecoveryReport) := do
  match ← readState with
  | none => pure none
  | some state =>
    if state.phase ≠ .rolledBack ∨ normalizeVersion runningVersion = normalizeVersion state.targetVersion then pure none
    else
      pure (some ⟨state.targetVersion, state.jobId,
        state.error.getD "candidate Agent rolled back before becoming healthy"⟩)

/-- `read_recovery_report`, the message to the server and `acknowledge_recovery_report` -/
def reportRecovery (runningVersion : String) : Io Unit := do
  match ← readRecoveryReportAt runningVersion with
  | none => pure ()
  | some _ => removeState

def trialIsActiveAt (fs : Fs) : Bool :=
  match fs .state with
  | some (.whole (.record tx)) => tx.phase == .pending || tx.phase == .booting || tx.phase == .healthy
  | _ => false

/-! ## The machine -/

/-- `running` is the process that was started last, unless it has installed a candidate: then it counts among the
`installers`, each of which may still watch its candidate. The rest is history: the binaries before and after the last
candidate was put in place, how often that candidate was started to the end since then, whether it was finalized, and the file operation after which
the call of the last step was killed. -/
structure St where
  fs : Fs
  running : Option Binary
  installers : List (String × Option String)
  previous : Binary
  candidate : Binary
  starts : ℕ
  finalized : Bool
  killedAfter : Option FsOp

/-- a good installed binary -/
def St.init (b : Binary) : St :=
  ⟨fun f => if f = .currentExe then some (.whole (.binary b)) else none, none, [], b, b, 0, true, none⟩

/-- an operation with a number `n` is killed before its `n+1`-th file operation, if it has that many -/
inductive Op where
  /-- a process starts from the installed binary -/
  | start (n : ℕ)
  /-- the running process ends -/
  | stop
  /-- the running process writes the candidate's file -/
  | stage (file : File Content)
  | install (targetVersion : String) (jobId : Option String) (n : ℕ)
  | commit (n : ℕ)
  | finalize (n : ℕ)
  | watchdog (n : ℕ)
  /-- an installer whose candidate has exited rolls it back -/
  | rollbackFailed (targetVersion : String) (jobId : Option String) (error : String) (n : ℕ)
  | report (n : ℕ)

section Machine

variable (windows : Bool)

/-- a call that may be killed -/
def St.call {α : Type} (s : St) (program : Io α) (n : ℕ) : Fs × Prog.End FsOp (Except UpgradeError α) :=
  program.run.run FileOp.exec n none s.fs

/-- the binary that a file holds -/
def Fs.binary (fs : Fs) (f : FileName) : Option Binary :=
  match fs f with
  | some (.whole (.binary b)) => some b
  | _ => none

/-- the process keeps running when its call ended like this -/
def keeps {α : Type} (p : α → Bool) : Prog.End FsOp (Except UpgradeError α) → Bool
  | .finished (.ok a) => p a
  | _ => false

def fails {α : Type} : Prog.End FsOp (Except UpgradeError α) → Bool
  | .finished (.error _) => true
  | _ => false

def finished {α : Type} : Prog.End FsOp α → Bool
  | .finished _ => true
  | .killed _ => false

def killPoint {α : Type} : Prog.End FsOp α → Option FsOp
  | .finished _ => none
  | .killed last => last

/-- the candidate that the running process may install: a verified binary of the target version, which is newer than its
own version and so another one -/
def St.installable (s : St) (targetVersion : String) : Option (Binary × Binary) :=
  match s.running, Fs.binary s.fs .candidate with
  | some r, some b =>
    if normalizeVersion b.version = normalizeVersion targetVersion ∧
        normalizeVersion targetVersion ≠ normalizeVersion r.version then some (r, b)
    else none
  | _, _ => none

/-- a call of the running process ended: `goes` says when the process goes on -/
def St.after {α : Type} (s : St) (r : Binary) (goes : Prog.End FsOp (Except UpgradeError α) → Bool)
    (call : Fs × Prog.End FsOp (Except UpgradeError α)) : St :=
  { s with fs := call.1, running := if goes call.2 then some r else none, killedAfter := killPoint call.2 }

/-- a process whose installation succeeded watches its candidate from now on -/
def St.enlist (s : St) (entry : String × Option String) (result : Prog.End FsOp (Except UpgradeError Unit)) : St :=
  { s with installers := if keeps (fun _ => true) result then entry :: s.installers else s.installers }

/-- the candidate has left its file: it is the installed binary now -/
def St.place (s : St) (r b : Binary) : St :=
  if (s.fs .candidate).isNone then { s with previous := r, candidate := b, starts := 0, finalized := false } else s

def step (s : St) : Op → St
  | .start n =>
    match Fs.binary s.fs .currentExe with
    | none => { s with killedAfter := none }
    | some b =>
      let call := s.call (prepareStartupAt windows b.version) n
      { s.after b (keeps (· != .restartAfterRollback)) call with
        starts := if finished call.2 && b == s.candidate then s.starts + 1 else s.starts }
  | .stop => { s with running := none, killedAfter := none }
  | .stage file =>
    match s.running with
    | none => { s with killedAfter := none }
    | some _ => { s with fs := Function.update s.fs .candidate (some file), killedAfter := none }
  | .install targetVersion jobId n =>
    match s.installable targetVersion with
    | none => { s with killedAfter := none }
    | some (r, b) =>
      let call := s.call (installCandidateAt windows targetVersion jobId) n
      ((s.after r fails call).enlist (targetVersion, jobId) call.2).place r b
  | .commit n =>
    match s.running with
    | none => { s with killedAfter := none }
    | some r => s.after r finished (s.call (commitStartupTrialAt windows r.version) n)
  | .finalize n =>
    match s.running with
    | none => { s with killedAfter := none }
    | some r =>
      let call := s.call (finalizeStartupTrialAt r.version) n
      { s.after r finished call with
        finalized := s.finalized || (s.fs .state).isSome && (call.1 .state).isNone && r == s.candidate }
  | .watchdog n =>
    match s.running with
    | none => { s with killedAfter := none }
    | some r => s.after r (keeps (!·)) (s.call (rollbackUnhealthyTrialAt windows r.version) n)
  | .rollbackFailed targetVersion jobId error n =>
    if (targetVersion, jobId) ∈ s.installers then
      let call := s.call (rollbackFailedCandidateAt windows targetVersion jobId error) n
      { s with fs := call.1, running := none, killedAfter := killPoint call.2 }
    else { s with killedAfter := none }
  | .report n =>
    match s.running with
    | none => { s with killedAfter := none }
    | some r => s.after r finished (s.call (reportRecovery r.version) n)

def run (s : St) (ops : List Op) : St := ops.foldl (step windows) s

end Machine

end ServerBee.Upgrade
