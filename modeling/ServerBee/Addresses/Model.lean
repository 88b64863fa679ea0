/-
How an agent reports its addresses over one connection (`reporter/mod.rs`: `derive_interface_ips`, `apply_external_ip`,
`primary_external_ip`, `spawn_external_ip_refresh`, and their uses in `connect_and_report`).

A refresh task has four steps that interleave with everything else: it waits for the external address, compares the merged
pair with its baseline and returns or goes on, sets the external address of the firewall guardrail, and puts `IpChanged` in
the channel. The connection loop sends what the channel holds, in its order. How texts denote addresses is a parameter. The
interface list is what the system shows when it is read. The unlock checker's copy of the address is not here.
-/
import ServerBee.Firewall.Net
import ServerBee.Lib.Run

namespace ServerBee.Addresses

open ServerBee.Firewall

structure NetworkInterface where
  name : String
  ipv4 : List String
  ipv6 : List String
deriving DecidableEq, Repr

/-- an IPv4 and an IPv6 text -/
abbrev Pair := Option String × Option String

variable (T : IpText)

/-! ## Primary addresses -/

/-- private, link-local or loopback, and an IPv4 address at all -/
def isPrivateIpv4Str (s : String) : Bool :=
  (T.parseAddr s).any fun ip =>
    ip.family = .v4 ∧ (ip.value / 2 ^ 24 = 10 ∨ ip.value / 2 ^ 20 = 0xac1 ∨ ip.value / 2 ^ 16 = 0xc0a8 ∨
      ip.value / 2 ^ 16 = 0xa9fe ∨ ip.value / 2 ^ 24 = 127)

/-- unique local, link-local or loopback, and an IPv6 address at all -/
def isPrivateIpv6Str (s : String) : Bool :=
  (T.parseAddr s).any fun ip =>
    ip.family = .v6 ∧ (ip.value / 2 ^ 121 = 0xfc / 2 ∨ ip.value / 2 ^ 118 = 0xfe80 / 64 ∨ ip.value = 1)

/-- the first public and the first private address so far -/
structure Found where
  publicIp : Option String
  privateIp : Option String
deriving DecidableEq, Repr

def Found.next (isPrivate : String → Bool) (found : Found) (ip : String) : Found :=
  if isPrivate ip then { found with privateIp := found.privateIp.or (some ip) }
  else { found with publicIp := found.publicIp.or (some ip) }

def Found.best (found : Found) : Option String := found.publicIp.or found.privateIp

/-- the loop over the interfaces, which ends early when both public addresses are found -/
def scan (v4 v6 : Found) : List NetworkInterface → Found × Found
  | [] => (v4, v6)
  | iface :: interfaces =>
    let v4 := iface.ipv4.foldl (Found.next (isPrivateIpv4Str T)) v4
    let v6 := iface.ipv6.foldl (Found.next (isPrivateIpv6Str T)) v6
    if v4.publicIp.isSome && v6.publicIp.isSome then (v4, v6) else scan v4 v6 interfaces

def deriveInterfaceIps (interfaces : List NetworkInterface) : Pair :=
  let (v4, v6) := scan T ⟨none, none⟩ ⟨none, none⟩ interfaces
  (v4.best, v6.best)

def applyExternalIp (ips : Pair) : Option String → Pair
  | none => ips
  | some ext => if ':' ∈ ext.toList then (ips.1, some ext) else (some ext, ips.2)

def primaryExternalIp (ips : Pair) : Option IpAddr := (ips.1.bind T.parseAddr).or (ips.2.bind T.parseAddr)

/-! ## Refreshes -/

inductive Phase where
  | fetching
  /-- the merged pair differs from the baseline -/
  | found (ips : Pair)
  /-- the guardrail is set -/
  | guarded (ips : Pair)
  | finished (ips : Pair)
deriving DecidableEq, Repr

structure Refresh where
  interfaces : List NetworkInterface
  baseline : Pair
  phase : Phase
deriving DecidableEq, Repr

structure State where
  /-- in the order in which they were started -/
  refreshes : List Refresh
  cachedIps : List NetworkInterface
  /-- the pairs of the `IpChanged` messages in `cmd_result` -/
  channel : List Pair
  /-- the pair of the last `SystemInfo` or `IpChanged` -/
  sent : Pair
  /-- `external_ip` of the firewall manager -/
  externalIp : Option IpAddr
deriving DecidableEq, Repr

/-- the start of a connection: `SystemInfo` is sent and the first refresh is started -/
def connect (externalIp : Option IpAddr) (initialIps cachedIps : List NetworkInterface) : State where
  refreshes := [⟨initialIps, deriveInterfaceIps T initialIps, .fetching⟩]
  cachedIps := cachedIps
  channel := []
  sent := deriveInterfaceIps T initialIps
  externalIp := (primaryExternalIp T (deriveInterfaceIps T initialIps)).or externalIp

/-- the pair that a refresh ends with -/
def Refresh.merged (r : Refresh) (external : Option String) : Pair :=
  applyExternalIp (deriveInterfaceIps T r.interfaces) external

def setPhase (s : State) (i : ℕ) (r : Refresh) (phase : Phase) : State :=
  { s with refreshes := s.refreshes.set i { r with phase } }

inductive Op where
  /-- the interval ticks, and the interfaces are these -/
  | check (interfaces : List NetworkInterface)
  /-- `fetch_external_ip` ends, with an address or none, and the result is compared with the baseline -/
  | fetched (i : ℕ) (external : Option String)
  | setExternalIp (i : ℕ)
  | enqueue (i : ℕ)
  /-- the loop takes a message and sends it -/
  | forward
deriving DecidableEq, Repr

def step (s : State) : Op → State
  | .check interfaces =>
    if interfaces = s.cachedIps then s
    else
      { s with
        cachedIps := interfaces
        refreshes := s.refreshes ++ [⟨interfaces, deriveInterfaceIps T s.cachedIps, .fetching⟩] }
  | .fetched i external =>
    match s.refreshes[i]? with
    | some r =>
      if r.phase = .fetching then
        if r.merged T external = r.baseline then setPhase s i r (.finished (r.merged T external))
        else setPhase s i r (.found (r.merged T external))
      else s
    | none => s
  | .setExternalIp i =>
    match s.refreshes[i]? with
    | some r =>
      match r.phase with
      | .found ips => { setPhase s i r (.guarded ips) with externalIp := (primaryExternalIp T ips).or s.externalIp }
      | _ => s
    | none => s
  | .enqueue i =>
    match s.refreshes[i]? with
    | some r =>
      match r.phase with
      | .guarded ips => { setPhase s i r (.finished ips) with channel := s.channel ++ [ips] }
      | _ => s
    | none => s
  | .forward =>
    match s.channel with
    | [] => s
    | ips :: channel => { s with sent := ips, channel }

end ServerBee.Addresses
