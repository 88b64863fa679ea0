/-
The server's half of the push format (`service/push_envelope.rs`, `send` of `service/mobile_push_outbox.rs`).

The row of a registration and its checks are those of the outbox. `Crates` has what is third-party: a sealed text is as long as
the plain one and has a tag of 16 bytes after it, which the types say. A job's stored envelope is kept as the record that was
written, and the request as the JSON value that is posted.
-/
import ServerBee.Lib.Base64
import ServerBee.Lib.Json
import ServerBee.Push.Model

namespace ServerBee.PushFormat

open ServerBee.Lib

def hexDigits (bytes : List UInt8) : List Char :=
  bytes.flatMap fun b => [Nat.digitChar (b.toNat / 16), Nat.digitChar (b.toNat % 16)]

structure Uuid where
  bytes : Vector UInt8 16

/-- hyphenated, in lower case -/
def Uuid.text (id : Uuid) : List Char :=
  let bytes := id.bytes.toList
  hexDigits (bytes.take 4) ++ '-' :: (hexDigits ((bytes.drop 4).take 2) ++ '-' :: (hexDigits ((bytes.drop 6).take 2) ++
    '-' :: (hexDigits ((bytes.drop 8).take 2) ++ '-' :: hexDigits (bytes.drop 10))))

structure Crates where
  parseUuid : String → Option Uuid
  parseUrl : String → Option Push.Url
  /-- `serde_json::from_str::<Value>` succeeds -/
  jsonValid : String → Bool
  sha256 : List UInt8 → Vector UInt8 32
  /-- AES-256-GCM of a key, a nonce and additional data -/
  sealInPlace : Vector UInt8 32 → Vector UInt8 12 → List UInt8 → (plain : List UInt8) →
    Vector UInt8 plain.length × Vector UInt8 16

/-- the STANDARD engine: only canonical texts are read -/
def standardDecode (text : List Char) : Option (List UInt8) :=
  (Base64.decode text).filter fun bytes => Base64.encode bytes == text

/-- as the outbox sees the crates -/
def Crates.push (C : Crates) : Push.Crates where
  uuidCanonical text := (C.parseUuid text).any fun id => id.text == text.toList
  base64Decode text := (standardDecode text.toList).map List.length
  parseUrl := C.parseUrl
  jsonValid := C.jsonValid

/-! ## Content -/

def maxContentBytes : ℕ := 2048

structure TaskRunSummary where
  taskId : String
  runId : String
  total : ℕ
  failed : ℕ
  timedOut : ℕ
  offline : ℕ
  denied : ℕ

structure AlertPushTarget where
  alertKey : String
  status : String
  ruleName : String
  serverName : String

structure PushContent where
  kind : String
  deploymentId : String
  userId : String
  installationId : String
  eventId : String
  createdAt : ℤ
  expiresAt : ℤ
  serverId : Option String
  securityEventId : Option String
  securityEventType : Option String
  taskRun : Option TaskRunSummary
  alert : Option AlertPushTarget

def field (key : String) (value : Json) : List Char × Json := (key.toList, value)

def text (s : String) : Json := .str s.toList

def TaskRunSummary.json (s : TaskRunSummary) : Json :=
  .obj [field "task_id" (text s.taskId), field "run_id" (text s.runId), field "total" (.num s.total),
    field "failed" (.num s.failed), field "timed_out" (.num s.timedOut), field "offline" (.num s.offline),
    field "denied" (.num s.denied)]

def AlertPushTarget.json (a : AlertPushTarget) : Json :=
  .obj [field "alert_key" (text a.alertKey), field "status" (text a.status), field "rule_name" (text a.ruleName),
    field "server_name" (text a.serverName)]

def PushContent.json (content : PushContent) : Json :=
  .obj ([field "kind" (text content.kind), field "deployment_id" (text content.deploymentId),
      field "user_id" (text content.userId), field "installation_id" (text content.installationId),
      field "event_id" (text content.eventId), field "created_at" (.num content.createdAt),
      field "expires_at" (.num content.expiresAt)] ++
    (content.serverId.map fun id => field "server_id" (text id)).toList ++
    (content.securityEventId.map fun id => field "security_event_id" (text id)).toList ++
    (content.securityEventType.map fun type => field "security_event_type" (text type)).toList ++
    (content.taskRun.map fun run => field "task_run" run.json).toList ++
    (content.alert.map fun alert => field "alert" alert.json).toList)

/-! ## Envelope -/

structure PushEnvelope where
  version : ℕ
  keyId : List Char
  identity : List Char
  nonce : List Char
  ciphertext : List Char
deriving DecidableEq

def PushEnvelope.json (e : PushEnvelope) : Json :=
  .obj [field "version" (.num e.version), field "key_id" (.str e.keyId), field "identity" (.str e.identity),
    field "nonce" (.str e.nonce), field "ciphertext" (.str e.ciphertext)]

inductive AppError where
  | validation (message : String)
deriving DecidableEq

def identity (C : Crates) (deployment user installation : String) : List Char :=
  hexDigits (C.sha256 (Json.arr [text deployment, text user, text installation]).bytes).toList

def sealContent (C : Crates) (keyId : String) (secret : List UInt8) (content : PushContent) (nonce : Vector UInt8 12) :
    Except AppError PushEnvelope :=
  let bytes := content.json.bytes
  if maxContentBytes < bytes.length then .error (.validation "Push content is too large")
  else
    let identity := identity C content.deploymentId content.userId content.installationId
    let aad := Json.utf8 ("ServerBee.Push.v1|".toList ++ keyId.toList ++ '|' :: identity)
    if hkey : secret.length = 32 then
      let (bytes, tag) := C.sealInPlace ⟨secret.toArray, by simpa using hkey⟩ nonce aad bytes
      .ok ⟨1, keyId.toList, identity, Base64.encode nonce.toList, Base64.encode (bytes.toList ++ tag.toList)⟩
    else .error (.validation "Invalid push content key")

/-! ## Request -/

/-- a reading of the clock: chrono reads none before 1970 or after its last year -/
structure Timestamp where
  secs : ℤ
  nonneg : 0 ≤ secs
  le_max : secs ≤ 8210266876799

structure Job where
  eventId : String
  createdAt : Timestamp
  expiresAt : ℤ
  envelope : PushEnvelope

/-- a job as the enqueuers build it -/
def newJob (eventId : String) (createdAt : Timestamp) (envelope : PushEnvelope) : Job :=
  ⟨eventId, createdAt, createdAt.secs + 1800, envelope⟩

def optional (s : Option String) : Json := s.elim .null text

/-- the body that `send` posts -/
def request (job : Job) (row : Push.Registration) : Json :=
  .obj [field "device_token" (optional row.deviceToken), field "environment" (optional row.environment),
    field "event_id" (text job.eventId), field "expires_at" (.num job.expiresAt), field "envelope" job.envelope.json]

end ServerBee.PushFormat
