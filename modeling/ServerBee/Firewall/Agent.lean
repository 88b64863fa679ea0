/-
The agent's firewall (`firewall/guardrail.rs`, `firewall/nft.rs`, `firewall/manager.rs`).

The kernel holds a table with two sets of CIDR strings and a chain; every call of `nft` may fail and then changes nothing.
`desired` mirrors the entries that the agent believes to be applied. A message makes each call at most once for each
entry, so the faults of a message are given call by call (`Site`). The iteration order of hash maps is arbitrary (`Order`).
-/
import Mathlib.Data.Finset.Basic
import ServerBee.Firewall.Net
import ServerBee.Lib.Table

namespace ServerBee.Firewall

open ServerBee.Lib

structure BlockEntry where
  id : ℕ
  target : String
  family : ℕ
deriving DecidableEq, Repr

/-! ## The guardrail -/

section Guardrail

variable (T : IpText)

/-- `guardrail::check`: the reason of a refusal -/
def check (target : String) (ownExternalIp : Option IpAddr) : Option String :=
  match T.parseNet target with
  | none => some ("invalid CIDR: " ++ target)
  | some net =>
    match protectedCidrs.find? fun p => p.2.contains net.network || net.contains p.2.network with
    | some p => some ("guardrail: " ++ p.1)
    | none =>
      ownExternalIp.bind fun ip =>
        if (IpNet.single ip).network = net.network ∧ (IpNet.single ip).prefixLen = net.prefixLen then
          some ("guardrail: agent's own external IP " ++ T.showAddr ip)
        else if net.contains ip then some ("guardrail: range contains own external IP " ++ T.showAddr ip)
        else none

end Guardrail

/-! ## The kernel -/

inductive NftSet where
  | blockV4
  | blockV6
deriving DecidableEq, Repr

structure NftTable where
  sets : NftSet → Option (Finset String)
  /-- the sets for which the chain has a drop rule -/
  chain : Option (List NftSet)

/-- `none`: the table does not exist -/
abbrev Kernel := Option NftTable

inductive NftError where
  | permissionDenied
  | kernelMissing
  | binaryMissing
  | other (text : String)
deriving DecidableEq, Repr

def NftError.text : NftError → String
  | .permissionDenied => "permission denied — needs root or CAP_NET_ADMIN"
  | .kernelMissing => "nft kernel module unavailable"
  | .binaryMissing => "nft cli not found in PATH"
  | .other text => text

inductive NftCmd where
  | addTable
  | addSet (s : NftSet)
  | addChain
  | addRule (s : NftSet)
  | addElement (s : NftSet) (target : String)
  | deleteElement (s : NftSet) (target : String)
  | flushSet (s : NftSet)
  | deleteTable
deriving DecidableEq, Repr

/-- what nft complains about -/
inductive Signal where
  | fileExists
  | noSuchFile
deriving DecidableEq, Repr

def isIdempotentSignal : Signal → NftCmd → Bool
  | .noSuchFile, .deleteElement _ _ => true
  | .noSuchFile, .flushSet _ => true
  | .noSuchFile, .deleteTable => true
  | .noSuchFile, _ => false
  | .fileExists, .deleteElement _ _ => false
  | .fileExists, .flushSet _ => false
  | .fileExists, .deleteTable => false
  | .fileExists, _ => true

def NftTable.setElements (t : NftTable) (s : NftSet) (elements : Finset String) : NftTable :=
  { t with sets := Function.update t.sets s (some elements) }

/-- nft on the table; adding what exists is no error -/
def nftOn (t : NftTable) : NftCmd → Except Signal Kernel
  | .addTable => .ok (some t)
  | .addSet s => .ok (some (if (t.sets s).isSome then t else t.setElements s ∅))
  | .addChain => .ok (some { t with chain := some (t.chain.getD []) })
  | .addRule s => t.chain.elim (.error .noSuchFile) fun rules => .ok (some { t with chain := some (rules ++ [s]) })
  | .addElement s target =>
    (t.sets s).elim (.error .noSuchFile) fun elements =>
      if target ∈ elements then .error .fileExists else .ok (some (t.setElements s (insert target elements)))
  | .deleteElement s target =>
    (t.sets s).elim (.error .noSuchFile) fun elements =>
      if target ∈ elements then .ok (some (t.setElements s (elements.erase target))) else .error .noSuchFile
  | .flushSet s => (t.sets s).elim (.error .noSuchFile) fun _ => .ok (some (t.setElements s ∅))
  | .deleteTable => .ok none

def nft (cmd : NftCmd) : Kernel → Except Signal Kernel
  | some t => nftOn t cmd
  | none => if cmd = .addTable then .ok (some ⟨fun _ => none, none⟩) else .error .noSuchFile

/-! ## Calls of nft -/

/-- the places from which a message calls nft -/
inductive Site where
  | addTable
  | addSet (s : NftSet)
  | addChain
  | listChain
  | addRule (s : NftSet)
  | addElement (id : ℕ)
  | deleteElement (id : ℕ)
  | flushSet (s : NftSet)
  | deleteTable
deriving DecidableEq, Repr

abbrev Faults := Site → Option NftError

/-- programs on the kernel; an error keeps what was done before it -/
abbrev NftM := ExceptT NftError (StateM Kernel)

/-- `CliNftExecutor::run` -/
def runNft (fault : Option NftError) (cmd : NftCmd) (k : Kernel) : Except NftError Unit × Kernel :=
  match fault with
  | some e => (.error e, k)
  | none =>
    match nft cmd k with
    | .ok k' => (.ok (), k')
    | .error signal =>
      if isIdempotentSignal signal cmd then (.ok (), k)
      else if signal = .noSuchFile then (.error .kernelMissing, k)
      else (.error (.other "File exists"), k)

def run (fault : Option NftError) (cmd : NftCmd) : NftM Unit := ExceptT.mk (runNft fault cmd)

/-- the sets that the rules of the chain match -/
def listChain (fault : Option NftError) : NftM (List NftSet) :=
  ExceptT.mk fun k =>
    match fault, k.bind NftTable.chain with
    | some e, _ => (.error e, k)
    | none, some rules => (.ok rules, k)
    | none, none => (.error (.other "No such file or directory"), k)

def addDropRule (faults : Faults) (listing : List NftSet) (s : NftSet) : NftM Unit :=
  if s ∈ listing then pure () else run (faults (.addRule s)) (.addRule s)

def ensureResources (faults : Faults) : NftM Unit := do
  run (faults .addTable) .addTable
  run (faults (.addSet .blockV4)) (.addSet .blockV4)
  run (faults (.addSet .blockV6)) (.addSet .blockV6)
  run (faults .addChain) .addChain
  let listing ← listChain (faults .listChain)
  addDropRule faults listing .blockV4
  addDropRule faults listing .blockV6

def BlockEntry.set (e : BlockEntry) : NftSet := if e.family = 4 then .blockV4 else .blockV6

def addElement (faults : Faults) (e : BlockEntry) : Kernel → Except NftError Unit × Kernel :=
  runNft (faults (.addElement e.id)) (.addElement e.set e.target)

def deleteElement (faults : Faults) (e : BlockEntry) : Kernel → Except NftError Unit × Kernel :=
  runNft (faults (.deleteElement e.id)) (.deleteElement e.set e.target)

/-- only the last step counts -/
def unconditionalWipe (faults : Faults) (k : Kernel) : Except NftError Unit × Kernel :=
  let k := (runNft (faults (.flushSet .blockV4)) (.flushSet .blockV4) k).2
  let k := (runNft (faults (.flushSet .blockV6)) (.flushSet .blockV6) k).2
  runNft (faults .deleteTable) .deleteTable k

/-! ## The manager -/

structure Agent where
  desired : Table BlockEntry.id
  nftReady : Bool
  externalIp : Option IpAddr
  kernel : Kernel

def Agent.new : Agent := ⟨∅, false, none, none⟩

inductive EntryState where
  | present
  | absent
  | failed
deriving DecidableEq, Repr

structure AckItem where
  id : ℕ
  state : EntryState
  reason : Option String
deriving DecidableEq, Repr

inductive AgentMessage where
  | blocklistAck (results : List AckItem)
  | blocklistResetAck (ok : Bool) (reason : Option String)
deriving DecidableEq, Repr

/-- `HashMap::insert` -/
def upsert (t : Table BlockEntry.id) (e : BlockEntry) : Table BlockEntry.id := (t.insert e).getD (t.set e)

/-- `HashMap::remove` -/
def remove (t : Table BlockEntry.id) (id : ℕ) : Table BlockEntry.id := t.delete fun e => e.id == id

/-- an iteration order of a hash map -/
structure Order where
  apply : List BlockEntry → List BlockEntry
  perm : ∀ l, (apply l).Perm l

section Manager

variable (T : IpText) (faults : Faults)

def handleReset (a : Agent) : AgentMessage × Agent :=
  match unconditionalWipe faults a.kernel with
  | (.ok (), k) => (.blocklistResetAck true none, { a with desired := ∅, nftReady := false, kernel := k })
  | (.error e, k) => (.blocklistResetAck false (some e.text), { a with kernel := k })

/-- the reason why the resources are not there -/
def ensureReady (a : Agent) : Option String × Agent :=
  if a.nftReady then (none, a)
  else
    match ensureResources faults a.kernel with
    | (.ok (), k) => (none, { a with nftReady := true, kernel := k })
    | (.error e, k) => (some e.text, { a with kernel := k })

/-- one incoming entry of a sync -/
def syncEntry (p : Agent × List AckItem) (e : BlockEntry) : Agent × List AckItem :=
  match check T e.target p.1.externalIp with
  | some reason => ({ p.1 with desired := remove p.1.desired e.id }, p.2 ++ [⟨e.id, .failed, some reason⟩])
  | none =>
    match addElement faults e p.1.kernel with
    | (.ok (), k) => ({ p.1 with desired := upsert p.1.desired e, kernel := k }, p.2 ++ [⟨e.id, .present, none⟩])
    | (.error err, k) =>
      ({ p.1 with desired := remove p.1.desired e.id, kernel := k }, p.2 ++ [⟨e.id, .failed, some err.text⟩])

/-- one applied entry that a sync no longer names -/
def syncOrphan (p : Agent × List AckItem) (e : BlockEntry) : Agent × List AckItem :=
  match deleteElement faults e p.1.kernel with
  | (.ok (), k) => ({ p.1 with desired := remove p.1.desired e.id, kernel := k }, p.2 ++ [⟨e.id, .absent, none⟩])
  | (.error err, k) => ({ p.1 with kernel := k }, p.2 ++ [⟨e.id, .failed, some err.text⟩])

/-- the entries of a sync by id; the last one of an id wins -/
def incoming (entries : List BlockEntry) : Table BlockEntry.id := entries.foldl upsert ∅

def orphans (desired : Table BlockEntry.id) (entries : List BlockEntry) : List BlockEntry :=
  desired.rows.filter fun e => ((incoming entries).get e.id).isNone

def handleSync (incomingOrder orphanOrder : Order) (a : Agent) (entries : List BlockEntry) : AgentMessage × Agent :=
  match ensureReady faults a with
  | (some reason, a) => (.blocklistAck (entries.map fun e => ⟨e.id, .failed, some reason⟩), a)
  | (none, a) =>
    let toRemove := orphanOrder.apply (orphans a.desired entries)
    let added := (incomingOrder.apply (incoming entries).rows).foldl (syncEntry T faults) (a, [])
    let removed := toRemove.foldl (syncOrphan faults) added
    (.blocklistAck removed.2, removed.1)

def handleAdd (a : Agent) (entry : BlockEntry) : AgentMessage × Agent :=
  match ensureReady faults a with
  | (some reason, a) => (.blocklistAck [⟨entry.id, .failed, some reason⟩], a)
  | (none, a) =>
    match check T entry.target a.externalIp with
    | some reason => (.blocklistAck [⟨entry.id, .failed, some reason⟩], a)
    | none =>
      match addElement faults entry a.kernel with
      | (.ok (), k) =>
        (.blocklistAck [⟨entry.id, .present, none⟩], { a with desired := upsert a.desired entry, kernel := k })
      | (.error e, k) => (.blocklistAck [⟨entry.id, .failed, some e.text⟩], { a with kernel := k })

def handleRemove (a : Agent) (id : ℕ) : AgentMessage × Agent :=
  match a.desired.get id with
  | none => (.blocklistAck [⟨id, .absent, none⟩], a)
  | some entry =>
    match deleteElement faults entry a.kernel with
    | (.ok (), k) =>
      (.blocklistAck [⟨id, .absent, none⟩], { a with desired := remove a.desired id, kernel := k })
    | (.error e, k) => (.blocklistAck [⟨id, .failed, some e.text⟩], { a with kernel := k })

inductive ServerMessage where
  | blocklistReset
  | blocklistSync (entries : List BlockEntry)
  | blocklistAdd (entry : BlockEntry)
  | blocklistRemove (id : ℕ)
deriving DecidableEq, Repr

/-- `FirewallManager::handle`; other messages are not for it -/
def handle (incomingOrder orphanOrder : Order) (a : Agent) : ServerMessage → AgentMessage × Agent
  | .blocklistReset => handleReset faults a
  | .blocklistSync entries => handleSync T faults incomingOrder orphanOrder a entries
  | .blocklistAdd entry => handleAdd T faults a entry
  | .blocklistRemove id => handleRemove faults a id

def setExternalIp (a : Agent) (ip : Option IpAddr) : Agent := { a with externalIp := ip }

end Manager

end ServerBee.Firewall
