/-
Uploads of the agent's file manager (`file_manager.rs`: `start_upload`, `receive_chunk`, `finish_upload`, `abort_upload`,
`cancel_all_transfers`, `write_file`).

A call runs to its next await in one step; the file operation that it awaits is a step of its own, and may fail. A start holds
`upload_start_lock` to its end, and a chunk holds the entry of its upload, so whatever needs one of them waits. Directories do
not change under these operations: `resolve` is the canonical directory of a path. A link to a file is an entry that shares
its inode.
-/
import ServerBee.Files.Paths
import ServerBee.Lib.Disk
import ServerBee.Lib.Table

namespace ServerBee.Files

open ServerBee.Lib

abbrev Bytes := List UInt8

/-! ## Uploads -/

/-- a chunk that is being written: its bytes, and the open file -/
structure Chunk where
  bytes : Bytes
  file : Option ℕ
deriving DecidableEq, Repr

/-- `UploadState`, under its transfer id. `path` is the key of the reservation; `tmp` and `target` are the entries that the
temporary path and `path` lead to. `acked` is a history: the chunks whose write was acknowledged. -/
structure Upload where
  id : String
  path : Path
  tmp : Loc
  target : Loc
  size : ℕ
  nextOffset : ℕ
  acked : List Bytes
  chunk : Option Chunk
  tmp_ne : tmp ≠ target
deriving DecidableEq, Repr

inductive StartPhase where
  | opening
  | opened
  | failed
deriving DecidableEq, Repr

inductive FinishPhase where
  | moving
  | removing
  | releasing
  | moved
deriving DecidableEq, Repr

inductive WritePhase where
  | writing
  | moving
  | moved
deriving DecidableEq, Repr

/-- a `write_file` past its checks -/
structure Write where
  target : Loc
  tmp : Loc
  content : Bytes
deriving DecidableEq, Repr

/-- a call at an await -/
inductive Call where
  | finish (up : Upload) (phase : FinishPhase)
  | abort (tmp : Loc)
  | write (w : Write) (phase : WritePhase)
deriving DecidableEq, Repr

/-! ## The file manager -/

/-- `resolve` is `canonicalize` for directories; `hash` is the first 16 digits of the SHA-256 in hex -/
structure FileManager where
  config : FileConfig
  canonicalRoots : List Dir
  resolve : Path → Option Dir
  hash : String → String

/-- `answers` is a history: what calls of `finish_upload` and `write_file` have returned, `true` for Ok -/
structure State where
  disk : Disk Loc UInt8
  uploads : Table Upload.id
  targets : Path → Option String
  starting : Option (Upload × StartPhase)
  calls : ℕ → Option Call
  answers : ℕ → Option Bool
  fresh : ℕ

def maxFileChunkSize : ℕ := 384 * 1024

namespace FileManager

variable (fm : FileManager)

/-- `validate_path`, once the path is canonical -/
def admits (canonical : Dir) : Bool :=
  !fm.config.rootPaths.isEmpty && fm.canonicalRoots.any (·.isPrefixOf canonical) && !canonical.getLast?.any fm.config.denies

/-- the checks of `start_upload`: the canonical parent -/
def uploadDir (path : Path) (size : ℕ) : Option Dir :=
  match (parent path).bind fm.resolve with
  | none => none
  | some dir =>
    if !fm.admits dir || (fileName path).any fm.config.denies || decide (fm.config.maxFileSize < size) then none
    else some dir

theorem partName_ne (name id : String) : "." ++ name ++ "." ++ fm.hash id ++ ".sb-part" ≠ name := by
  intro h
  have hlen := congrArg (fun text => text.toList.length) h
  simp only [String.toList_append, List.length_append] at hlen
  have hdot : ".".toList.length = 1 := by decide
  omega

def newUpload (id : String) (path : Path) (dir : Dir) (name : String) (size : ℕ) : Upload where
  id := id
  path := path
  tmp := ⟨dir, "." ++ name ++ "." ++ fm.hash id ++ ".sb-part"⟩
  target := ⟨dir, name⟩
  size := size
  nextOffset := 0
  acked := []
  chunk := none
  tmp_ne := fun h => fm.partName_ne name id (congrArg Loc.name h)

end FileManager

namespace State

variable (s : State)

/-- `insert` of the map -/
def putUpload (up : Upload) : State := { s with uploads := (s.uploads.insert up).getD (s.uploads.set up) }

def setUpload (up : Upload) : State := { s with uploads := s.uploads.set up }

def takeUpload (id : String) : State := { s with uploads := s.uploads.delete fun up => up.id == id }

def release (path : Path) : State := { s with targets := Function.update s.targets path none }

def spawn (call : Call) : State :=
  { s with calls := Function.update s.calls s.fresh (some call), fresh := s.fresh + 1 }

def goto (k : ℕ) (call : Call) : State := { s with calls := Function.update s.calls k (some call) }

def finished (k : ℕ) : State := { s with calls := Function.update s.calls k none }

def answer (k : ℕ) (ok : Bool) : State := { s.finished k with answers := Function.update s.answers k (some ok) }

end State

/-! ## Steps -/

/-- a write fails with nothing done, or after some bytes -/
inductive Fault where
  | before
  | after (n : ℕ)
deriving DecidableEq, Repr

inductive Op where
  | startUpload (id path : String) (size : ℕ)
  /-- the exclusive create of the temporary file -/
  | openTemp (fails : Bool)
  | startReturn
  /-- `none`: the data is no base64 -/
  | receiveChunk (id : String) (offset : ℕ) (data : Option Bytes)
  | openChunk (id : String) (fails : Bool)
  /-- the write of a chunk and what follows; it fails after some bytes -/
  | writeChunk (id : String) (fault : Option ℕ)
  | finishUpload (id : String)
  | abortUpload (id : String)
  /-- the removals that fail leave their file -/
  | cancelAll (fails : Loc → Bool)
  | writeFile (canonical : Loc) (content : Option Bytes)
  /-- the file operation that a call awaits -/
  | proceed (k : ℕ) (fault : Option Fault)
  | resume (k : ℕ)

/-- the file operation of a call -/
def proceed (k : ℕ) (fault : Option Fault) (s : State) : Call → State
  | .finish up .moving =>
    match if fault.isSome then none else s.disk.rename up.tmp up.target with
    | some disk => { s with disk := disk }.goto k (.finish up .moved)
    | none => s.goto k (.finish up .removing)
  | .finish up .removing =>
    { s with disk := if fault.isSome then s.disk else s.disk.remove up.tmp }.goto k (.finish up .releasing)
  | .abort tmp => { s with disk := if fault.isSome then s.disk else s.disk.remove tmp }.finished k
  | .write w .writing =>
    match fault with
    | none => { s with disk := s.disk.write w.tmp w.content }.goto k (.write w .moving)
    | some .before => s.answer k false
    | some (.after n) => { s with disk := s.disk.write w.tmp (w.content.take n) }.answer k false
  | .write w .moving =>
    match if fault.isSome then none else s.disk.rename w.tmp w.target with
    | some disk => { s with disk := disk }.goto k (.write w .moved)
    | none => s.answer k false
  | _ => s

def step (fm : FileManager) (s : State) : Op → State
  | .startUpload id path size =>
    let target := components path
    match fm.uploadDir target size with
    | none => s
    | some dir =>
      if s.starting.isSome || (s.uploads.get id).isSome || (s.targets target).isSome then s
      else
        let reserved := { s with targets := Function.update s.targets target (some id) }
        match fileName target with
        | none => reserved
        | some name => { reserved with starting := some (fm.newUpload id target dir name size, .opening) }
  | .openTemp fails =>
    match s.starting with
    | some (up, .opening) =>
      match if fails then none else s.disk.create up.tmp with
      | some disk => { s with disk := disk, starting := some (up, .opened) }
      | none => { s with starting := some (up, .failed) }
    | _ => s
  | .startReturn =>
    match s.starting with
    | some (up, .opened) => { s with starting := none }.putUpload up
    | some (up, .failed) => { s with starting := none }.release up.path
    | _ => s
  | .receiveChunk id offset data =>
    match data, s.uploads.get id with
    | some bytes, some up =>
      let newOffset := offset + bytes.length
      if maxFileChunkSize < bytes.length ∨ up.chunk.isSome = true ∨ offset ≠ up.nextOffset then s
      else if 2 ^ 64 ≤ newOffset ∨ up.size < newOffset ∨ fm.config.maxFileSize < newOffset then s
      else s.setUpload { up with chunk := some ⟨bytes, none⟩ }
    | _, _ => s
  | .openChunk id fails =>
    match s.uploads.get id with
    | none => s
    | some up =>
      match up.chunk with
      | some ⟨bytes, none⟩ =>
        match if fails then none else s.disk.files up.tmp with
        | some file => s.setUpload { up with chunk := some ⟨bytes, some file⟩ }
        | none => s.setUpload { up with chunk := none }
      | _ => s
  | .writeChunk id fault =>
    match s.uploads.get id with
    | none => s
    | some up =>
      match up.chunk with
      | some ⟨bytes, some file⟩ =>
        match fault with
        | none =>
          { s with disk := s.disk.overwrite file up.nextOffset bytes }.setUpload { up with
            nextOffset := up.nextOffset + bytes.length
            acked := up.acked ++ [bytes]
            chunk := none }
        | some n =>
          { s with disk := s.disk.overwrite file up.nextOffset (bytes.take n) }.setUpload { up with chunk := none }
      | _ => s
  | .finishUpload id =>
    match s.uploads.get id with
    | none => s
    | some up =>
      if up.chunk.isSome then s
      else (s.takeUpload id).spawn (.finish up (if up.nextOffset = up.size then .moving else .removing))
  | .abortUpload id =>
    match s.uploads.get id with
    | none => s
    | some up => if up.chunk.isSome then s else ((s.takeUpload id).release up.path).spawn (.abort up.tmp)
  | .cancelAll fails =>
    if s.uploads.rows.any fun up => up.chunk.isSome then s
    else { s with
      disk := (s.uploads.rows.map Upload.tmp).foldl (fun disk tmp => if fails tmp then disk else disk.remove tmp) s.disk
      uploads := ∅
      targets := fun _ => none }
  | .writeFile canonical content =>
    match content with
    | none => s
    | some bytes =>
      if fm.admits (canonical.dir ++ [canonical.name]) && (s.disk.files canonical).isSome then
        s.spawn (.write ⟨canonical, ⟨canonical.dir, withExtension canonical.name "sb-tmp"⟩, bytes⟩ .writing)
      else s
  | .proceed k fault =>
    match s.calls k with
    | none => s
    | some call => proceed k fault s call
  | .resume k =>
    match s.calls k with
    | some (.finish up .releasing) => (s.release up.path).answer k false
    | some (.finish up .moved) => (s.release up.path).answer k true
    | some (.write _ .moved) => s.answer k true
    | _ => s

end ServerBee.Files
