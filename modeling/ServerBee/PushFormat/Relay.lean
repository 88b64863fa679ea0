/-
The relay's half of the push format (`apps/push-relay/src/{relay,apns}.ts`).

A body is the JSON value that `JSON.parse` makes of the bytes that came, with their number. What the relay does not decide
itself (its limiters, its configuration, the clock, the upload and what APNs answers) is a field of the call.
-/
import ServerBee.Lib.Base64
import ServerBee.Lib.Json
import ServerBee.Push.Model

namespace ServerBee.PushFormat

open ServerBee.Lib

/-! ## Validation -/

/-- `length` of a string, in UTF-16 units -/
def jsLength (s : List Char) : ℕ := (s.map fun c => if c.toNat < 0x10000 then 1 else 2).sum

/-- `[a-f0-9]` -/
def isHex (c : Char) : Bool := ('a' ≤ c && c ≤ 'f') || ('0' ≤ c && c ≤ '9')

/-- runs of hexadecimal digits with hyphens between them -/
def hexRuns : List ℕ → List Char → Bool
  | [], s => s.isEmpty
  | [n], s => s.length == n && s.all isHex
  | n :: runs, s =>
    (s.take n).length == n && (s.take n).all isHex && (s.drop n).head? == some '-' && hexRuns runs (s.drop (n + 1))

def isUuid (s : List Char) : Bool := hexRuns [8, 4, 4, 4, 12] s

def isHex64 (s : List Char) : Bool := hexRuns [64] s

def maxRequestBytes : ℕ := 8192

def maxDeviceTokenChars : ℕ := 1024

/-- `value` has that form, decodes to so many bytes, and is how they are encoded -/
def canonicalBase64 (value : List Char) (min max : ℕ) : Bool :=
  decide (jsLength value ≤ (max + 2) / 3 * 4) && Base64.wellFormed value &&
    (Base64.decode value).any fun decoded =>
      decide (min ≤ decoded.length) && decide (decoded.length ≤ max) && Base64.encode decoded == value

inductive Environment where
  | sandbox
  | production
deriving DecidableEq, Repr

def Environment.parse (s : List Char) : Option Environment :=
  if s = "sandbox".toList then some .sandbox else if s = "production".toList then some .production else none

structure Envelope where
  keyId : List Char
  identity : List Char
  nonce : List Char
  ciphertext : List Char
deriving DecidableEq

structure SendRequest where
  deviceToken : List Char
  environment : Environment
  eventId : List Char
  expiresAt : ℤ
  envelope : Envelope
deriving DecidableEq

def maxSafeInteger : ℤ := 2 ^ 53 - 1

def keys (names : List String) : List (List Char) := names.map String.toList

def validateEnvelope (envelope : Json) : Option Envelope :=
  if envelope.hasKeys (keys ["version", "key_id", "identity", "nonce", "ciphertext"]) then
    match envelope.get "version".toList, envelope.get "key_id".toList, envelope.get "identity".toList,
        envelope.get "nonce".toList, envelope.get "ciphertext".toList with
    | some (.num version), some (.str keyId), some (.str identity), some (.str nonce), some (.str ciphertext) =>
      if version = 1 ∧ isUuid keyId = true ∧ isHex64 identity = true ∧ canonicalBase64 nonce 12 12 = true ∧
          canonicalBase64 ciphertext 16 2070 = true then
        some ⟨keyId, identity, nonce, ciphertext⟩
      else none
    | _, _, _, _, _ => none
  else none

/-- `now` in seconds -/
def validate (value : Json) (now : ℤ) : Option SendRequest :=
  if value.hasKeys (keys ["device_token", "environment", "event_id", "expires_at", "envelope"]) then
    match value.get "device_token".toList, value.get "environment".toList, value.get "event_id".toList,
        value.get "expires_at".toList, value.get "envelope".toList with
    | some (.str token), some (.str environment), some (.str eventId), some (.num expiresAt), some envelope =>
      if 2 ≤ jsLength token ∧ jsLength token ≤ maxDeviceTokenChars ∧ jsLength token % 2 = 0 ∧ token.all isHex = true ∧
          isUuid eventId = true ∧ |expiresAt| ≤ maxSafeInteger ∧ 0 < expiresAt ∧ expiresAt ≤ now + 1800 then do
        let environment ← Environment.parse environment
        let envelope ← validateEnvelope envelope
        pure ⟨token, environment, eventId, expiresAt, envelope⟩
      else none
    | _, _, _, _, _ => none
  else none

/-! ## Answers -/

structure DeliveryVerdict where
  outcome : Push.Verdict
  reason : String
  deviceInvalid : Bool
deriving DecidableEq, Repr

def verdict (outcome : Push.Verdict) (reason : String) : DeliveryVerdict := ⟨outcome, reason, false⟩

structure Answer where
  status : ℕ
  verdict : DeliveryVerdict
deriving DecidableEq, Repr

def outcomeText : Push.Verdict → String
  | .accepted => "accepted"
  | .retryable => "retryable"
  | .permanent => "permanent"
  | .expired => "expired"

/-- as the server sees it -/
def Answer.reply (answer : Answer) : Push.Reply :=
  .http answer.status (some ⟨outcomeText answer.verdict.outcome, answer.verdict.reason, answer.verdict.deviceInvalid⟩)

def json (status : ℕ) (outcome : Push.Verdict) (reason : String) : Answer := ⟨status, verdict outcome reason⟩

def classify (status : ℕ) (reason : Option String) : DeliveryVerdict :=
  if status < 200 ∨ 599 < status then verdict .retryable "NetworkUnavailable"
  else if status = 200 then verdict .accepted "Accepted"
  else if status = 410 ∧ reason = some "Unregistered" then ⟨.permanent, "Unregistered", true⟩
  else if status = 429 ∨ 500 ≤ status then verdict .retryable "ProviderUnavailable"
  else
    verdict .permanent
      (if reason = some "BadDeviceToken" then "DeviceOrEnvironmentMismatch" else "ProviderConfigurationOrPayload")

/-! ## APNs -/

def Envelope.json (e : Envelope) : Json :=
  .obj [("version".toList, .num 1), ("key_id".toList, .str e.keyId), ("identity".toList, .str e.identity),
    ("nonce".toList, .str e.nonce), ("ciphertext".toList, .str e.ciphertext)]

def payload (r : SendRequest) : Json :=
  .obj [("aps".toList, .obj [
      ("alert".toList, .obj [("title".toList, .str "ServerBee".toList),
        ("body".toList, .str "Open ServerBee to view this notification.".toList)]),
      ("mutable-content".toList, .num 1), ("sound".toList, .str "default".toList)]),
    ("serverbee_envelope".toList, r.envelope.json)]

/-- what becomes of an attempt before its deadline -/
inductive Attempt where
  | signingFailed
  /-- the deadline, an abort, the network or the answer's body -/
  | failed
  | answered (status : ℕ) (reason : Option String)

/-- with the clock at the call and before the request is forwarded -/
def apnsSend (r : SendRequest) (now forwardAt : ℤ) (attempt : Attempt) : DeliveryVerdict :=
  if r.expiresAt ≤ now then verdict .expired "Expired"
  else if 4096 < (payload r).bytes.length then verdict .permanent "PayloadTooLarge"
  else
    match attempt with
    | .signingFailed => verdict .permanent "RelayNotConfigured"
    | .failed => verdict .retryable "NetworkUnavailable"
    | .answered status reason =>
      if r.expiresAt ≤ forwardAt then verdict .expired "Expired" else classify status reason

/-! ## The handler -/

inductive Upload where
  | timeout
  | invalid
  /-- `value`: what the bytes say, if they are JSON -/
  | bytes (size : ℕ) (value : Option Json)

structure Call where
  sendPath : Bool
  post : Bool
  active : ℕ
  isolateAllows : Bool
  ipAllows : Bool
  targetAllows : Bool
  configured : Bool
  environments : Option (List Environment)
  jsonType : Bool
  contentLength : Option (Option ℕ)
  upload : Upload
  validateAt : ℤ
  expiryAt : ℤ
  sendAt : ℤ
  forwardAt : ℤ
  attempt : Attempt

def concurrency : ℕ := 32

def readRequest (call : Call) (environments : List Environment) : Answer ⊕ SendRequest :=
  match call.upload with
  | .timeout => .inl (json 408 .retryable "RequestTimeout")
  | .invalid => .inl (json 400 .permanent "InvalidRequest")
  | .bytes size value =>
    if maxRequestBytes < size then .inl (json 413 .permanent "RequestTooLarge")
    else
      match value.bind fun value => validate value call.validateAt with
      | none => .inl (json 400 .permanent "InvalidRequest")
      | some body =>
        if body.environment ∉ environments then .inl (json 400 .permanent "EnvironmentDisabled")
        else if body.expiresAt ≤ call.expiryAt then .inl (json 200 .expired "Expired")
        else .inr body

/-- `some none`: a Content-Length that is no number -/
def requestHeadersError (call : Call) : Option Answer :=
  if call.jsonType = false then some (json 415 .permanent "UnsupportedMediaType")
  else
    match call.contentLength with
    | none => none
    | some none => some (json 413 .permanent "RequestTooLarge")
    | some (some length) => if maxRequestBytes < length then some (json 413 .permanent "RequestTooLarge") else none

def fetch (call : Call) : Answer :=
  if call.sendPath = false then json 404 .permanent "NotFound"
  else if call.post = false then json 405 .permanent "MethodNotAllowed"
  else if concurrency ≤ call.active then json 503 .retryable "RelayBusy"
  else if (call.isolateAllows && call.ipAllows) = false then json 429 .retryable "RateLimited"
  else
    match call.configured, call.environments with
    | true, some environments =>
      match requestHeadersError call with
      | some answer => answer
      | none =>
        match readRequest call environments with
        | .inl answer => answer
        | .inr body =>
          if call.targetAllows = false then json 429 .retryable "RateLimited"
          else ⟨200, apnsSend body call.sendAt call.forwardAt call.attempt⟩
    | _, _ => json 503 .permanent "RelayNotConfigured"

end ServerBee.PushFormat
