/-
The address that a request is attributed to (`router/utils.rs`), and the proxies before the server.

A header value is a list of bytes; names are lower-case. A proxy writes down the address of its own peer, at the end of the
last line of X-Forwarded-For or on a line of its own. How an address is written is left open, as long as it is read back.
-/
import ServerBee.Probes.Address
import ServerBee.Lib.Regex
import Mathlib.Data.List.DropRight

namespace ServerBee.ClientAddress

open ServerBee.Lib ServerBee.Firewall ServerBee.Probes

/-! ## Headers -/

abbrev HeaderValue := List UInt8

/-- the lines in their order -/
abbrev HeaderMap := List (Text × HeaderValue)

def xForwardedFor : Text := "x-forwarded-for".toList

/-- the values of all lines with this name -/
def getAll (name : Text) (headers : HeaderMap) : List HeaderValue := (headers.filter fun e => e.1 = name).map Prod.snd

/-- `HeaderMap::get`: the value of the first line -/
def get (name : Text) (headers : HeaderMap) : Option HeaderValue := (getAll name headers).head?

/-- visible ASCII, a blank or a tab -/
def isVisible (b : UInt8) : Bool := (32 ≤ b && b < 127) || b == 9

/-- `HeaderValue::to_str` -/
def toStr (v : HeaderValue) : Option Text := if v.all isVisible then some (v.map fun b => Char.ofNat b.toNat) else none

/-! ## The server -/

def trim (t : Text) : Text := (t.dropWhile isWhiteSpace).rdropWhile isWhiteSpace

def isTrusted (ip : IpAddr) (proxies : List IpNet) : Bool := proxies.any fun net => net.contains ip

/-- the first of the parts that is an untrusted address -/
def firstUntrusted (proxies : List IpNet) : List Text → Option IpAddr
  | [] => none
  | part :: parts =>
    match parseAddr (trim part) with
    | some ip => if isTrusted ip proxies then firstUntrusted proxies parts else some ip
    | none => firstUntrusted proxies parts

def extractClientIp (tcpIp : IpAddr) (headers : HeaderMap) (trustedProxies : List IpNet) : IpAddr :=
  if trustedProxies.isEmpty then tcpIp
  else if !isTrusted tcpIp trustedProxies then tcpIp
  else
    match (get xForwardedFor headers).bind toStr with
    | some xff => (firstUntrusted trustedProxies (xff.splitOn ',').reverse).getD tcpIp
    | none => tcpIp

/-! ## The proxies -/

/-- an address with the text that the next proxy writes for it -/
structure Peer where
  ip : IpAddr
  text : Text
  reads : parseAddr text = some ip

inductive Mode where
  | extendLast
  | addLine
deriving DecidableEq, Repr

structure Proxy where
  peer : Peer
  mode : Mode

def bytes (t : Text) : HeaderValue := t.map fun c => UInt8.ofNat c.toNat

/-- `, <text>` at the end of a value -/
def extend (v : HeaderValue) (t : Text) : HeaderValue := v ++ bytes (',' :: ' ' :: t)

/-- the last line of X-Forwarded-For extended, if there is one -/
def extendLast (t : Text) : HeaderMap → Option HeaderMap
  | [] => none
  | e :: headers =>
    match extendLast t headers with
    | some headers' => some (e :: headers')
    | none => if e.1 = xForwardedFor then some ((e.1, extend e.2 t) :: headers) else none

def addLine (t : Text) (headers : HeaderMap) : HeaderMap := headers ++ [(xForwardedFor, bytes t)]

/-- what a proxy passes on of a request that its peer sent -/
def record (mode : Mode) (peer : Peer) (headers : HeaderMap) : HeaderMap :=
  match mode with
  | .extendLast => (extendLast peer.text headers).getD (addLine peer.text headers)
  | .addLine => addLine peer.text headers

def pass : Peer → List Proxy → HeaderMap → HeaderMap
  | _, [], headers => headers
  | peer, p :: proxies, headers => pass p.peer proxies (record p.mode peer headers)

/-- an untrusted client behind one or more trusted proxies -/
structure Chain (trustedProxies : List IpNet) where
  client : Peer
  first : Proxy
  rest : List Proxy
  client_untrusted : isTrusted client.ip trustedProxies = false
  proxies_trusted : ∀ p ∈ first :: rest, isTrusted p.peer.ip trustedProxies = true

namespace Chain

variable {trustedProxies : List IpNet} (c : Chain trustedProxies)

/-- the source of the connection to the server -/
def tcpIp : IpAddr := ((c.first :: c.rest).getLast (List.cons_ne_nil _ _)).peer.ip

def arrives (sent : HeaderMap) : HeaderMap := pass c.client (c.first :: c.rest) sent

/-- the address that the server sees when the client sends these headers -/
def seen (sent : HeaderMap) : IpAddr := extractClientIp c.tcpIp (c.arrives sent) trustedProxies

end Chain

end ServerBee.ClientAddress
