/-
File transfers of the server (`service/file_transfer.rs`, `router/ws/agent/file_transfer.rs`).

A temp file belongs to one transfer. Where a handler uses it, an operation may fail: `fault` is the first failure of a
handler, with the number of bytes that a failed write has written before it. A chunk's data is what base64 makes of it. The
handlers of one agent run one after the other; `on_download_ready` shows others the state before the file is created.
-/
import ServerBee.Lib.Sparse
import ServerBee.Lib.Table

namespace ServerBee.Transfers

open ServerBee.Lib

/-! ## The manager -/

inductive TransferDirection where
  | download
  | upload
deriving DecidableEq, Repr

inductive TransferStatus where
  | pending
  | inProgress
  | ready
  | failed (reason : String)
deriving DecidableEq, Repr

structure TransferMeta where
  transferId : ℕ
  serverId : ℕ
  direction : TransferDirection
  fileSize : Option ℕ
  bytesTransferred : ℕ
  status : TransferStatus
deriving DecidableEq, Repr

structure FileTransferManager where
  transfers : Table TransferMeta.transferId
  openFiles : ℕ → Bool
  /-- the temp files, by transfer -/
  files : ℕ → Option (Sparse.Content UInt8)

namespace FileTransferManager

def new : FileTransferManager := ⟨∅, fun _ => false, fun _ => none⟩

def maxFileConcurrentTransfers : ℕ := 3

def serverTransferCount (m : FileTransferManager) (serverId : ℕ) : ℕ :=
  m.transfers.rows.countP fun r => r.serverId == serverId && (r.status == .pending || r.status == .inProgress)

/-- with an id that no transfer had before -/
def createTransfer (m : FileTransferManager) (id serverId : ℕ) (direction : TransferDirection) : Option FileTransferManager :=
  if maxFileConcurrentTransfers ≤ m.serverTransferCount serverId then none
  else (m.transfers.insert ⟨id, serverId, direction, none, 0, .pending⟩).map fun transfers => { m with transfers := transfers }

def serverIdOf (m : FileTransferManager) (id : ℕ) : Option ℕ := (m.transfers.get id).map TransferMeta.serverId

def modify (m : FileTransferManager) (id : ℕ) (f : TransferMeta → TransferMeta)
    (hf : ∀ r, (f r).transferId = r.transferId) : FileTransferManager :=
  { m with transfers := m.transfers.update (fun r => r.transferId == id) f fun r _ => hf r }

def updateSize (m : FileTransferManager) (id size : ℕ) : FileTransferManager :=
  m.modify id (fun r => { r with fileSize := some size }) fun _ => rfl

/-- the sum is a u64 -/
def updateProgress (m : FileTransferManager) (id bytes : ℕ) : FileTransferManager :=
  m.modify id (fun r => { r with bytesTransferred := bytes % 2 ^ 64 }) fun _ => rfl

def mark (m : FileTransferManager) (id : ℕ) (status : TransferStatus) : FileTransferManager :=
  m.modify id (fun r => { r with status := status }) fun _ => rfl

def markInProgress (m : FileTransferManager) (id : ℕ) : FileTransferManager := m.mark id .inProgress
def markReady (m : FileTransferManager) (id : ℕ) : FileTransferManager := m.mark id .ready
def markFailed (m : FileTransferManager) (id : ℕ) (error : String) : FileTransferManager := m.mark id (.failed error)

def removeFileHandle (m : FileTransferManager) (id : ℕ) : FileTransferManager :=
  { m with openFiles := Function.update m.openFiles id false }

def setFile (m : FileTransferManager) (id : ℕ) (content : Option (Sparse.Content UInt8)) : FileTransferManager :=
  { m with files := Function.update m.files id content }

/-- `File::create` truncates; the handle is stored -/
def createFile (m : FileTransferManager) (id : ℕ) : FileTransferManager :=
  { m.setFile id (some []) with openFiles := Function.update m.openFiles id true }

def writeFile (m : FileTransferManager) (id offset : ℕ) (bytes : List UInt8) : FileTransferManager :=
  m.setFile id ((m.files id).map fun c => Sparse.writeAt c offset bytes)

/-- the temp file may stay behind -/
def remove (m : FileTransferManager) (id : ℕ) (deleted : Bool) : FileTransferManager :=
  let m := m.removeFileHandle id
  match m.transfers.get id with
  | none => m
  | some _ =>
    let m := { m with transfers := m.transfers.delete fun r => r.transferId == id }
    if deleted then m.setFile id none else m

end FileTransferManager

/-! ## Frames -/

open FileTransferManager

/-- a failed operation on the temp file -/
structure Fault where
  text : String
  written : ℕ
deriving DecidableEq, Repr

inductive Frame where
  | downloadReady (size : ℕ)
  /-- the decoded data, or the error of its decoding -/
  | downloadChunk (offset : ℕ) (data : Except String (List UInt8))
  | downloadEnd
  | downloadError (error : String)
  | uploadAck (offset : ℕ)
  | uploadComplete
  | uploadError (error : String)

section Handlers

variable (m : FileTransferManager) (serverId id : ℕ)

def senderOwnsTransfer : Bool := m.serverIdOf id == some serverId

/-- `on_download_ready`, up to the creation of the file -/
def beginDownload (size : ℕ) : FileTransferManager := (m.updateSize id size).markInProgress id

def onDownloadReady (size : ℕ) (fault : Option Fault) : FileTransferManager :=
  match fault with
  | none => (beginDownload m id size).createFile id
  | some e => (beginDownload m id size).markFailed id ("Failed to create temp file: " ++ e.text)

def onDownloadChunk (offset : ℕ) (data : Except String (List UInt8)) (fault : Option Fault) : FileTransferManager :=
  if m.openFiles id then
    match data with
    | .error e => m.markFailed id ("Base64 decode error: " ++ e)
    | .ok bytes =>
      match fault with
      | none => (m.writeFile id offset bytes).updateProgress id (offset + bytes.length)
      | some e => (m.writeFile id offset (bytes.take e.written)).markFailed id ("Write error: " ++ e.text)
  else m

def onDownloadEnd : FileTransferManager := (m.removeFileHandle id).markReady id

def onDownloadError (error : String) : FileTransferManager := (m.removeFileHandle id).markFailed id error

/-- the handler of a frame of the transfer's agent -/
def handleFrame (frame : Frame) (fault : Option Fault) : FileTransferManager :=
  match frame with
  | .downloadReady size => onDownloadReady m id size fault
  | .downloadChunk offset data => onDownloadChunk m id offset data fault
  | .downloadEnd => onDownloadEnd m id
  | .downloadError error => onDownloadError m id error
  | .uploadAck offset => m.updateProgress id offset
  | .uploadComplete => m.markReady id
  | .uploadError error => m.markFailed id error

/-- every handler first asks whose the transfer is -/
def onFrame (frame : Frame) (fault : Option Fault) : FileTransferManager :=
  if senderOwnsTransfer m serverId id then handleFrame m id frame fault else m

/-- the states that others can see while a frame is handled -/
def seenOnFrame (frame : Frame) (fault : Option Fault) : List FileTransferManager :=
  match frame with
  | .downloadReady size =>
    if senderOwnsTransfer m serverId id then [beginDownload m id size, onFrame m serverId id frame fault] else [m]
  | _ => [onFrame m serverId id frame fault]

end Handlers

/-! ## Accessors -/

variable {m : FileTransferManager} {id id' : ℕ}

def FileTransferManager.statusOf (m : FileTransferManager) (id : ℕ) : Option TransferStatus :=
  (m.transfers.get id).map TransferMeta.status

theorem get_modify {f : TransferMeta → TransferMeta} {hf : ∀ r, (f r).transferId = r.transferId} :
    (m.modify id f hf).transfers.get id' = if id' = id then (m.transfers.get id').map f else m.transfers.get id' := by
  unfold FileTransferManager.modify
  dsimp only
  rw [Table.get_update]
  cases h : m.transfers.get id' with
  | none => simp
  | some r =>
    have hr : r.transferId = id' := (Table.get_eq_some.1 h).2
    by_cases hid : id' = id
    · simp [hr, hid]
    · simp [hr, hid]

theorem statusOf_mark {status : TransferStatus} :
    (m.mark id status).statusOf id' = if id' = id then (m.statusOf id').map fun _ => status else m.statusOf id' := by
  unfold FileTransferManager.statusOf FileTransferManager.mark
  rw [get_modify]
  split_ifs
  · cases m.transfers.get id' <;> rfl
  · rfl

theorem statusOf_modify {f : TransferMeta → TransferMeta} {hf : ∀ r, (f r).transferId = r.transferId}
    (hstatus : ∀ r, (f r).status = r.status) : (m.modify id f hf).statusOf id' = m.statusOf id' := by
  unfold FileTransferManager.statusOf
  rw [get_modify]
  split_ifs
  · cases m.transfers.get id' with
    | none => rfl
    | some r => exact congrArg some (hstatus r)
  · rfl

end ServerBee.Transfers
