/-
Effective capabilities of an agent (`capability_grants/authority.rs`, `journal.rs`, `store.rs`; `constants.rs`).

The grants file is the list of records that the store loads, empty where the file is missing or corrupt. Which times chrono
represents is a parameter. A flush of the journal fails before it replaces the file, or after.
-/
import Mathlib.Data.Int.Notation
import Mathlib.Data.List.Basic

namespace ServerBee.Capabilities

inductive CapabilityKey where
  | terminal
  | exec
  | upgrade
  | pingIcmp
  | pingTcp
  | pingHttp
  | file
  | docker
  | securityEvents
  | firewallBlock
  | ipQuality
deriving DecidableEq, Repr

namespace CapabilityKey

def asStr : CapabilityKey → String
  | terminal => "terminal"
  | exec => "exec"
  | upgrade => "upgrade"
  | pingIcmp => "ping_icmp"
  | pingTcp => "ping_tcp"
  | pingHttp => "ping_http"
  | file => "file"
  | docker => "docker"
  | securityEvents => "security_events"
  | firewallBlock => "firewall_block"
  | ipQuality => "ip_quality"

/-- the position of the bit -/
def index : CapabilityKey → ℕ
  | terminal => 0
  | exec => 1
  | upgrade => 2
  | pingIcmp => 3
  | pingTcp => 4
  | pingHttp => 5
  | file => 6
  | docker => 7
  | securityEvents => 8
  | firewallBlock => 9
  | ipQuality => 10

def toBit (key : CapabilityKey) : BitVec 32 := BitVec.twoPow 32 key.index

/-- `ALL_CAPABILITIES` -/
def all : List CapabilityKey :=
  [terminal, exec, upgrade, pingIcmp, pingTcp, pingHttp, file, docker, securityEvents, firewallBlock, ipQuality]

/-- in the order of the names -/
def sorted : List CapabilityKey :=
  [docker, exec, file, firewallBlock, ipQuality, pingHttp, pingIcmp, pingTcp, securityEvents, terminal, upgrade]

end CapabilityKey

def capValidMask : BitVec 32 := 2047

def hasCapability (caps cap : BitVec 32) : Bool := caps &&& cap != 0

/-! ## Grants -/

structure GrantRecord where
  cap : String
  grantedAt : ℤ
  expiresAt : ℤ
  grantedBy : String
  reason : Option String
deriving DecidableEq, Repr

/-- a later record of a capability replaces an earlier one -/
abbrev CapabilityGrantStore := List GrantRecord

structure TemporaryGrant where
  cap : String
  grantedAt : ℤ
  expiresAt : ℤ
deriving DecidableEq, Repr

namespace CapabilityGrantStore

variable (store : CapabilityGrantStore)

def record (key : CapabilityKey) : Option GrantRecord := store.reverse.find? fun row => row.cap == key.asStr

/-- the grant turns the capability on, which is off in `base` -/
def grants (now : ℤ) (base : BitVec 32) (key : CapabilityKey) : Bool :=
  (store.record key).any fun row => decide (now < row.expiresAt) && base &&& key.toBit == 0

def activeBits (now : ℤ) (base : BitVec 32) : BitVec 32 :=
  CapabilityKey.all.foldl (fun bits key => if store.grants now base key then bits ||| key.toBit else bits) 0 &&& capValidMask

def activeGrants (now : ℤ) (base : BitVec 32) : List TemporaryGrant :=
  CapabilityKey.sorted.filterMap fun key =>
    if store.grants now base key then (store.record key).map fun row => ⟨row.cap, row.grantedAt, row.expiresAt⟩ else none

end CapabilityGrantStore

/-! ## Transitions -/

inductive CapabilityChangeAction where
  | granted
  | expired
  | revoked
deriving DecidableEq, Repr

structure CapabilityChangeEvent where
  cap : CapabilityKey
  action : CapabilityChangeAction
  expiresAt : Option ℤ
  grantedBy : Option String
  reason : Option String
deriving DecidableEq, Repr

structure CapabilityTransition where
  effective : BitVec 32
  temporary : List TemporaryGrant
  changes : List CapabilityChangeEvent
deriving DecidableEq, Repr

/-- what one capability adds to the changes -/
def changesOf (store : CapabilityGrantStore) (prevActiveBits activeBits : BitVec 32) (key : CapabilityKey) :
    List CapabilityChangeEvent :=
  let row := store.record key
  (if hasCapability (activeBits &&& ~~~prevActiveBits) key.toBit then
    [⟨key, .granted, row.map (·.expiresAt), row.map (·.grantedBy), row.bind (·.reason)⟩] else []) ++
  if hasCapability (prevActiveBits &&& ~~~activeBits) key.toBit then
    -- a record that is still there has expired
    [⟨key, if row.isSome then .expired else .revoked, none, none, none⟩] else []

structure Evaluation where
  effective : BitVec 32
  activeBits : BitVec 32
  temporary : List TemporaryGrant
  changes : List CapabilityChangeEvent
deriving DecidableEq, Repr

def evaluate (store : CapabilityGrantStore) (base prevActiveBits : BitVec 32) (now : ℤ) : Evaluation where
  effective := (base ||| store.activeBits now base) &&& capValidMask
  activeBits := store.activeBits now base
  temporary := store.activeGrants now base
  changes := CapabilityKey.all.flatMap (changesOf store prevActiveBits (store.activeBits now base))

def Evaluation.transition (e : Evaluation) : CapabilityTransition := ⟨e.effective, e.temporary, e.changes⟩

/-! ## The journal -/

structure Event where
  msgId : ℕ
  occurredAt : ℤ
  changes : List CapabilityChangeEvent
deriving DecidableEq, Repr

structure Journal where
  observedActive : BitVec 32
  destination : Option String
  events : List Event
  dirty : Bool
deriving DecidableEq, Repr

inductive Flush where
  | saved
  /-- the file stays as it was -/
  | failed
  /-- the file is replaced, but its directory is not synced -/
  | unsynced
deriving DecidableEq, Repr

/-- `fresh` is the next id to draw -/
structure CapabilityAuthority where
  base : BitVec 32
  journal : Journal
  /-- the journal's file -/
  file : Option Journal
  effective : BitVec 32
  fresh : ℕ
deriving DecidableEq, Repr

namespace CapabilityAuthority

variable (a : CapabilityAuthority)

/-- the journal of the last run, if its file is there, is taken as it is; `active_bits` is evaluated at two times -/
def tryNew (base : BitVec 32) (file : Option Journal) (store : CapabilityGrantStore) (now now' : ℤ) (flush : Flush) :
    CapabilityAuthority :=
  let opened : Journal := ⟨store.activeBits now' base, none, [], true⟩
  { base := base
    journal := match file with
      | some journal => { journal with dirty := false }
      | none => { opened with dirty := flush ≠ .saved }
    file := match file, flush with
      | none, .failed => none
      | none, _ => some { opened with dirty := false }
      | some journal, _ => some journal
    effective := (base ||| store.activeBits now base) &&& capValidMask
    fresh := match file with
      | some journal => (journal.events.map fun event => event.msgId + 1).foldl max 0
      | none => 0 }

def has (key : CapabilityKey) : Bool := hasCapability a.effective key.toBit

/-- the file after a flush of `journal` -/
def flushed (journal : Journal) : Flush → Option Journal
  | .saved => some { journal with dirty := false }
  | .unsynced => some { journal with dirty := false }
  | .failed => a.file

end CapabilityAuthority

/-- a grant has happened when the CLI recorded it -/
def occurredAt (store : CapabilityGrantStore) (now : ℤ) (change : CapabilityChangeEvent) : ℤ :=
  match change.action with
  | .granted => ((store.record change.cap).map GrantRecord.grantedAt).getD now
  | _ => now

variable (representable : ℤ → Bool)

/-- every change has a time that an event can have -/
def wellTimed (store : CapabilityGrantStore) (now : ℤ) (changes : List CapabilityChangeEvent) : Bool :=
  changes.all fun change => representable (occurredAt store now change)

/-- the events that a tick appends -/
def recordedEvents (store : CapabilityGrantStore) (now : ℤ) (fresh : ℕ) (changes : List CapabilityChangeEvent) : List Event :=
  changes.mapIdx fun i change => ⟨fresh + i, occurredAt store now change, [change]⟩

/-- the new state, what `observe` itself has sent, and what it returns -/
structure Observation where
  authority : CapabilityAuthority
  sent : Option CapabilityTransition
  result : Except Unit (Option CapabilityTransition)

def observe (a : CapabilityAuthority) (store : CapabilityGrantStore) (now : ℤ) (flush : Flush) : Observation :=
  let e := evaluate store a.base a.journal.observedActive now
  let localChanged := e.effective != a.effective
  let changed := e.activeBits != a.journal.observedActive
  if changed && !wellTimed representable store now e.changes then
    -- an event without a time: the function returns before it has changed the journal
    ⟨{ a with effective := e.effective }, none, .error ()⟩
  else
    let journal := if changed then { a.journal with
      observedActive := e.activeBits
      events := a.journal.events ++ recordedEvents store now a.fresh e.changes
      dirty := true } else a.journal
    let fresh := if changed then a.fresh + e.changes.length else a.fresh
    if journal.dirty then
      let file := a.flushed journal flush
      if flush = .saved then
        ⟨{ a with journal := { journal with dirty := false }, file := file, effective := e.effective, fresh := fresh }, none,
          .ok (if changed then some e.transition else none)⟩
      else
        ⟨{ a with journal := journal, file := file, effective := e.effective, fresh := fresh },
          if localChanged then some ⟨e.effective, e.temporary, []⟩ else none, .error ()⟩
    else
      ⟨{ a with effective := e.effective }, none, .ok (if changed then some e.transition else none)⟩

/-- one round of `run`: the authority after it and the transition that is broadcast -/
def tick (a : CapabilityAuthority) (store : CapabilityGrantStore) (now : ℤ) (flush : Flush) :
    CapabilityAuthority × Option CapabilityTransition :=
  let o := observe representable a store now flush
  match o.result with
  | .ok transition => (o.authority, transition)
  | .error _ => (o.authority, o.sent)

end ServerBee.Capabilities
