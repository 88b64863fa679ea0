/-
Probes and the targets they reach (`probe_utils.rs`, `traceroute.rs`, `common/src/ssrf.rs`).

The resolver is an adversary that answers every lookup of a run as it likes; a literal address resolves to itself, and a lookup
that fails gives nothing. `ping` resolves the name it is given. An HTTP client connects to a literal host as it is, and resolves
another one only when it is not pinned. Of what is sent the addresses are here. The URL parser is a parameter.
-/
import ServerBee.Probes.Address

namespace ServerBee.Probes

open ServerBee.Firewall ServerBee.Lib

/-! ## Targets -/

/-- `u16::from_str`: a plus sign can stand first -/
def parsePort (l : List Char) : Option ℕ :=
  let digits := if l.head? = some '+' then l.tail else l
  let value := digits.foldl (fun n ch => n * 10 + hexDigit ch) 0
  if digits ≠ [] ∧ digits.all Char.isDigit ∧ value < 65536 then some value else none

/-- the host of `[host]:port` or `[host]`, and what stands for the port -/
def bracketed (target : List Char) : Option (List Char × Option (List Char)) :=
  match target with
  | '[' :: rest =>
    match splitOnce [']', ':'] rest with
    | some (host, port) => some (host, some port)
    | none => if rest.getLast? = some ']' then some (rest.dropLast, none) else none
  | _ => none

def splitHostPort (target : List Char) (defaultPort : ℕ) : List Char × ℕ :=
  match bracketed target with
  | some (host, port) => (host, (port.bind parsePort).getD defaultPort)
  | none =>
    match rsplitOnce ':' target with
    | some (host, port) =>
      if ':' ∈ host then (target, defaultPort)
      else match parsePort port with
        | some parsed => (host, parsed)
        | none => (target, defaultPort)
    | none => (target, defaultPort)

structure Url where
  scheme : List Char
  username : List Char
  password : Option (List Char)
  hostStr : Option (List Char)
  port : Option ℕ
deriving DecidableEq, Repr

/-- `port_or_known_default`, for the schemes that pass -/
def Url.portOrKnownDefault (url : Url) : Option ℕ :=
  url.port.orElse fun _ => if url.scheme = "http".toList then some 80 else if url.scheme = "https".toList then some 443 else none

/-- `trim_start_matches('[').trim_end_matches(']')` -/
def trimBrackets (host : List Char) : List Char :=
  ((host.dropWhile (· == '[')).reverse.dropWhile (· == ']')).reverse

variable (parseUrl : List Char → Option Url)

/-- the host of a target with a scheme -/
def urlHost (target : List Char) : Option (List Char) :=
  if (splitOnce "://".toList target).isSome then ((parseUrl target).bind Url.hostStr).map trimBrackets else none

def extractTargetHost (target : List Char) : List Char :=
  match urlHost parseUrl target with
  | some host => host
  | none =>
    match bracketed target with
    | some (host, _) => host
    | none =>
      match rsplitOnce ':' target with
      | some (host, port) => if ':' ∉ host ∧ port ≠ [] ∧ port.all Char.isDigit then host else target
      | none => target

/-- `reject_literal_unsafe_target` returns an error -/
def rejectLiteralUnsafeTarget (target : List Char) : Bool :=
  match parseAddr (extractTargetHost parseUrl target) with
  | some ip => !isMonitorSafeAddr ip
  | none => false

/-! ## Probes -/

/-- what a run meets: the answers of the resolver, and which addresses accept a connection -/
structure Env where
  answers : ℕ → List Char → List IpAddr
  accepts : IpAddr → Bool

/-- the `n`-th lookup of a run -/
def Env.lookup (env : Env) (n : ℕ) (name : List Char) : List IpAddr :=
  match parseAddr name with
  | some ip => [ip]
  | none => env.answers n name

/-- `guard_probe_target`: the addresses of the first lookup, all of them safe -/
def guardProbeTarget (env : Env) (host : List Char) : Option (List IpAddr) :=
  let addrs := env.lookup 0 host
  if addrs = [] ∨ ∃ addr ∈ addrs, isMonitorSafeAddr addr = false then none else some addrs

/-- connects to one address after the other until one accepts -/
def tries (accepts : IpAddr → Bool) : List IpAddr → List IpAddr
  | [] => []
  | addr :: addrs => if accepts addr then [addr] else addr :: tries accepts addrs

inductive TraceProtocol where
  | icmp
  | udp
  | tcp
deriving DecidableEq, Repr

inductive Probe where
  | icmp (host : List Char)
  | icmpBatch (host : List Char) (count : ℕ)
  | tcp (host : List Char)
  | http (url : List Char)
  | traceroute (target : List Char) (protocol : TraceProtocol)
deriving DecidableEq, Repr

/-- `ping`, after the guard: the first address of its own lookup -/
def probeIcmp (env : Env) (host : List Char) : List IpAddr :=
  match guardProbeTarget env host with
  | none => []
  | some _ => (env.lookup 1 host).head?.toList

def probeTcp (env : Env) (host : List Char) : List IpAddr :=
  match guardProbeTarget env (splitHostPort host 80).1 with
  | none => []
  | some addrs => tries env.accepts addrs

def normalizedUrl (url : List Char) : List Char :=
  if "http://".toList.isPrefixOf url || "https://".toList.isPrefixOf url then url else "http://".toList ++ url

def validateMonitorUrl (url : List Char) : Option Url :=
  (parseUrl url).bind fun parsed =>
    if (parsed.scheme = "http".toList ∨ parsed.scheme = "https".toList) ∧ parsed.username = [] ∧ parsed.password = none then
      some parsed
    else none

/-- a host as it stands in a URL: an IPv6 address has brackets -/
def literalHost (host : List Char) : Option IpAddr :=
  match bracketed host with
  | some (inner, none) => parseAddr inner
  | _ => parseAddr host

def probeHttp (env : Env) (url : List Char) : List IpAddr :=
  match (validateMonitorUrl parseUrl (normalizedUrl url)).bind Url.hostStr with
  | none => []
  | some host =>
    match guardProbeTarget env host with
    | none => []
    | some addrs =>
      match literalHost host with
      | some ip => [ip]
      | none => tries env.accepts addrs

def spawnTraceroute (env : Env) (target : List Char) : List IpAddr :=
  match (env.lookup 0 target).head? with
  | none => []
  | some addr => if isMonitorSafeAddr addr then [addr] else []

/-- the addresses that a run sends to -/
def contacted (env : Env) : Probe → List IpAddr
  | .icmp host => probeIcmp env host
  | .icmpBatch host _ => probeIcmp env host
  | .tcp host => probeTcp env host
  | .http url => probeHttp parseUrl env url
  | .traceroute target _ => spawnTraceroute env target

end ServerBee.Probes
