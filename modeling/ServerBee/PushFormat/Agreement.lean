/-
Server and relay agree on the push format.

A registered installation's job is taken by every relay whose clock is not before the job's creation; by an earlier clock its
deadline is too far ahead, and the job is refused for good. Answers that ask for a retry are taken as such, and a device token is
cleared for one answer only.
-/
import ServerBee.PushFormat.Requests

namespace ServerBee.PushFormat

open ServerBee.Lib

/-! ## Answers -/

/-- an answer of the relay's own, and which of them ask for a retry -/
def Rejected (answer : Answer) : Prop :=
  (∃ status reason, answer = json status .permanent reason) ∨ answer = json 200 .expired "Expired" ∨
    answer = json 503 .retryable "RelayBusy" ∨ answer = json 429 .retryable "RateLimited" ∨
    answer = json 408 .retryable "RequestTimeout"

theorem rejected_permanent (status : ℕ) (reason : String) : Rejected (json status .permanent reason) :=
  Or.inl ⟨status, reason, rfl⟩

theorem requestHeadersError_rejected {call : Call} {answer : Answer} (h : requestHeadersError call = some answer) :
    Rejected answer := by
  unfold requestHeadersError at h
  split_ifs at h
  · cases h
    exact rejected_permanent ..
  · split at h
    · cases h
    · cases h
      exact rejected_permanent ..
    · split_ifs at h
      cases h
      exact rejected_permanent ..

theorem readRequest_rejected {call : Call} {environments : List Environment} {answer : Answer}
    (h : readRequest call environments = .inl answer) : Rejected answer := by
  unfold readRequest at h
  split at h
  · cases h
    exact Or.inr (Or.inr (Or.inr (Or.inr rfl)))
  · cases h
    exact rejected_permanent ..
  · split_ifs at h
    · cases h
      exact rejected_permanent ..
    · split at h
      · cases h
        exact rejected_permanent ..
      · split_ifs at h
        · cases h
          exact Or.inr (Or.inl rfl)
        · cases h
          exact rejected_permanent ..

/-- the relay answers by itself or passes on what becomes of an attempt at APNs -/
theorem fetch_cases (call : Call) :
    Rejected (fetch call) ∨ ∃ body, fetch call = ⟨200, apnsSend body call.sendAt call.forwardAt call.attempt⟩ := by
  generalize hanswer : fetch call = answer
  unfold fetch at hanswer
  split at hanswer
  · exact Or.inl (hanswer ▸ rejected_permanent ..)
  split at hanswer
  · exact Or.inl (hanswer ▸ rejected_permanent ..)
  split at hanswer
  · exact Or.inl (Or.inr (Or.inr (Or.inl hanswer.symm)))
  split at hanswer
  · exact Or.inl (Or.inr (Or.inr (Or.inr (Or.inl hanswer.symm))))
  split at hanswer
  · split at hanswer
    · rename_i hheaders
      exact Or.inl (hanswer ▸ requestHeadersError_rejected hheaders)
    · split at hanswer
      · rename_i hread
        exact Or.inl (hanswer ▸ readRequest_rejected hread)
      · rename_i body hread
        split at hanswer
        · exact Or.inl (Or.inr (Or.inr (Or.inr (Or.inl hanswer.symm))))
        · exact Or.inr ⟨body, hanswer.symm⟩
  · exact Or.inl (hanswer ▸ rejected_permanent ..)

theorem finalVerdict_retryable {g : Push.Grant} {d : Push.RelayDelivery} (h : d.outcome = .retryable) (finished : ℤ) :
    (Push.finalVerdict g d finished).1 = .retryable ∨ (Push.finalVerdict g d finished).1 = .expired := by
  unfold Push.finalVerdict
  split_ifs
  · exact Or.inr rfl
  · exact Or.inl h

/-- the server takes an answer that asks for a retry as such -/
theorem send_retryable {C : Push.Crates} {call : Call} (h : (fetch call).verdict.outcome = .retryable) {job : Push.Job}
    (hstored : job.envelope.any C.jsonValid = true) : (Push.send C true job (fetch call).reply).outcome = .retryable := by
  have hjson : ¬ job.envelope.any C.jsonValid = false := by simp [hstored]
  unfold Push.send
  rw [if_neg (by decide), if_neg hjson]
  rcases fetch_cases call with hrejected | ⟨body, hbody⟩
  · rcases hrejected with ⟨status, reason, hanswer⟩ | hanswer | hanswer | hanswer | hanswer
    · rw [hanswer] at h
      cases h
    · rw [hanswer] at h
      cases h
    · rw [hanswer]
      decide
    · rw [hanswer]
      decide
    · rw [hanswer]
      decide
  · rw [hbody] at h ⊢
    generalize apnsSend body call.sendAt call.forwardAt call.attempt = delivery at h ⊢
    obtain ⟨outcome, reason, deviceInvalid⟩ := delivery
    obtain rfl : outcome = .retryable := h
    rfl

theorem boundedReason_unregistered {outcome : Push.Verdict} {reason : String}
    (h : Push.boundedReason outcome reason = "Unregistered") : reason = "Unregistered" := by
  unfold Push.boundedReason at h
  split_ifs at h
  · exact h
  · cases outcome <;> exact absurd h (by decide)

/-- a delivery that calls the device invalid has an answer of the relay behind it -/
theorem send_deviceInvalid {C : Push.Crates} {configured : Bool} {job : Push.Job} {reply : Push.Reply}
    (h : (Push.send C configured job reply).deviceInvalid = true)
    (hreason : (Push.send C configured job reply).reason = "Unregistered") :
    ∃ status body, reply = .http status (some body) ∧ body.deviceInvalid = true ∧ body.reason = "Unregistered" := by
  generalize hdelivery : Push.send C configured job reply = delivery at h hreason
  unfold Push.send at hdelivery
  split_ifs at hdelivery
  · subst hdelivery
    cases h
  · subst hdelivery
    cases h
  · cases reply with
    | failed =>
      subst hdelivery
      cases h
    | http status body =>
      cases body with
      | none =>
        dsimp only at hdelivery
        split_ifs at hdelivery <;> subst hdelivery <;> cases h
      | some body =>
        dsimp only at hdelivery
        split_ifs at hdelivery
        · cases hparse : Push.Verdict.parse body.outcome with
          | none =>
            rw [hparse] at hdelivery
            subst hdelivery
            cases h
          | some outcome =>
            rw [hparse] at hdelivery
            subst hdelivery
            exact ⟨status, body, rfl, h, boundedReason_unregistered hreason⟩
        all_goals
          subst hdelivery
          cases h

/-- a device token is cleared for one answer only -/
theorem record_world {C : Push.Crates} {configured : Bool} {reply : Push.Reply} {g : Push.Grant} {finished : ℤ} {db db' : Push.Db}
    (h : Push.record db g (Push.send C configured g.job reply) finished = some db') (hworld : db'.world ≠ db.world) :
    ∃ status body, reply = .http status (some body) ∧ body.deviceInvalid = true ∧ body.reason = "Unregistered" := by
  unfold Push.record at h
  split_ifs at h
  cases h
  dsimp only at hworld
  split_ifs at hworld with hclears
  · simp only [Bool.and_eq_true, beq_iff_eq] at hclears
    exact send_deviceInvalid hclears.1.1 hclears.1.2
  · exact absurd rfl hworld

theorem classify_deviceInvalid {status : ℕ} {reason : Option String} (h : (classify status reason).deviceInvalid = true) :
    status = 410 ∧ reason = some "Unregistered" := by
  unfold classify at h
  split at h
  · cases h
  split at h
  · cases h
  split at h
  · assumption
  split at h <;> cases h

/-- the relay calls a device invalid only when APNs does -/
theorem fetch_deviceInvalid {call : Call} (h : (fetch call).verdict.deviceInvalid = true) :
    call.attempt = .answered 410 (some "Unregistered") := by
  rcases fetch_cases call with hrejected | ⟨body, hbody⟩
  · rcases hrejected with ⟨status, reason, hanswer⟩ | hanswer | hanswer | hanswer | hanswer
    all_goals
      rw [hanswer] at h
      cases h
  · rw [hbody] at h
    unfold apnsSend at h
    dsimp only at h
    split at h
    · cases h
    split at h
    · cases h
    split at h
    · cases h
    · cases h
    · rename_i status reason hattempt
      split at h
      · cases h
      · obtain ⟨rfl, rfl⟩ := classify_deviceInvalid h
        exact hattempt

theorem send_invalidRequest {C : Push.Crates} {g : Push.Grant} (hstored : g.job.envelope.any C.jsonValid = true) (finished : ℤ) :
    Push.finalVerdict g (Push.send C true g.job (json 400 .permanent "InvalidRequest").reply) finished =
      (.permanent, "RelayPayloadRejected") := by
  have hjson : ¬ g.job.envelope.any C.jsonValid = false := by simp [hstored]
  unfold Push.send
  rw [if_neg (by decide), if_neg hjson]
  rfl

/-- a relay whose clock is before the job's creation -/
theorem readRequest_early {row : Push.Registration} {token environment keyId eventId : String} {secret : List UInt8}
    {e : PushEnvelope} (hrow : Registered row token environment keyId secret) (hsealed : Sealed e) {id : Uuid}
    (hevent : eventId.toList = id.text) {createdAt : Timestamp} {call : Call} {size : ℕ} (hsize : size ≤ maxRequestBytes)
    (hupload : call.upload = .bytes size (some (request (newJob eventId createdAt e) row)))
    (hearly : call.validateAt < createdAt.secs) (environments : List Environment) :
    readRequest call environments = .inl (json 400 .permanent "InvalidRequest") := by
  obtain ⟨sent, -, -, -, hvalidate⟩ := validate_request hrow hsealed hevent createdAt
  unfold readRequest
  rw [hupload]
  dsimp only
  rw [if_neg (not_lt.2 hsize), Option.bind_some, hvalidate, if_neg (not_le.2 hearly)]

/-! ## The contract -/

/-- **Server and relay agree.** For registrations that are complete when a job is queued and when it is sent, and content within
its limit: the request fits, the relay takes it at every clock value from the job's creation on and refuses it for good at every
earlier one, and what APNs gets fits. An answer that asks for a retry leaves the job retryable or expired, and a device token is
cleared only for `Unregistered`, which the relay says only when APNs does. -/
theorem server_and_relay_agree (C : Crates) {queued row : Push.Registration} (hqueued : queued.isRegistered C.push = true)
    (hrow : row.isRegistered C.push = true) {content : PushContent} (hfits : content.json.bytes.length ≤ maxContentBytes)
    {id : Uuid} (hevent : content.eventId.toList = id.text) (nonce : Vector UInt8 12) (createdAt : Timestamp) :
    (∃ keyId secret e body, queued.contentKeyId = some keyId ∧
      (queued.contentKey.bind fun key => standardDecode key.toList) = some secret ∧
      sealContent C keyId secret content nonce = .ok e ∧ body = request (newJob content.eventId createdAt e) row ∧
      body.bytes.length ≤ maxRequestBytes ∧
      (∃ sent : SendRequest, sent.value = body ∧ (payload sent).bytes.length ≤ 4096 ∧
        ∀ now, validate body now = if createdAt.secs ≤ now then some sent else none) ∧
      ∀ call environments, call.upload = .bytes body.bytes.length (some body) → call.validateAt < createdAt.secs →
        readRequest call environments = .inl (json 400 .permanent "InvalidRequest")) ∧
    (∀ g finished, g.job.envelope.any C.jsonValid = true →
      Push.finalVerdict g (Push.send C.push true g.job (json 400 .permanent "InvalidRequest").reply) finished =
        (.permanent, "RelayPayloadRejected") ∧
      ∀ call, (fetch call).verdict.outcome = .retryable →
        (Push.finalVerdict g (Push.send C.push true g.job (fetch call).reply) finished).1 = .retryable ∨
          (Push.finalVerdict g (Push.send C.push true g.job (fetch call).reply) finished).1 = .expired) ∧
    (∀ configured reply g finished db db', Push.record db g (Push.send C.push configured g.job reply) finished = some db' →
      db'.world ≠ db.world →
      ∃ status body, reply = .http status (some body) ∧ body.deviceInvalid = true ∧ body.reason = "Unregistered") ∧
    ∀ call, (fetch call).verdict.deviceInvalid = true → call.attempt = .answered 410 (some "Unregistered") := by
  refine ⟨?_, fun g finished hstored => ⟨send_invalidRequest hstored finished, fun call hretryable => ?_⟩,
    fun configured reply g finished db db' h hworld => record_world h hworld, fun call => fetch_deviceInvalid⟩
  · obtain ⟨_, _, keyId, secret, hregistered⟩ := isRegistered_registered C hqueued
    obtain ⟨_, _, _, _, hsent⟩ := isRegistered_registered C hrow
    obtain ⟨e, hseal, hsealed⟩ := sealContent_ok C nonce hregistered.keyId_uuid hregistered.secret_length hfits
    obtain ⟨sent, hvalue, -, henvelope, hvalidate⟩ := validate_request hsent hsealed hevent createdAt
    have hsize := size_request hsent hsealed hevent createdAt
    refine ⟨keyId, secret, e, _, hregistered.contentKeyId, hregistered.contentKey, hseal, rfl, hsize,
      ⟨sent, hvalue, size_payload hsealed henvelope, hvalidate⟩, fun call environments hupload hearly => ?_⟩
    exact readRequest_early hsent hsealed hevent hsize hupload hearly environments
  · exact finalVerdict_retryable (send_retryable hretryable hstored) finished

/-! ## The shared vector -/

/-- the decoded ciphertext -/
def vectorSealed : List UInt8 :=
  [169, 24, 205, 25, 2, 252, 56, 52, 56, 8, 39, 189, 181, 58, 216, 219, 180, 44, 156, 240, 232, 249, 14, 139, 2, 130, 51,
    123, 45, 168, 100, 43, 29, 250, 145, 116, 253, 31, 26, 245, 103, 152, 28, 228, 61, 123, 125, 173, 135, 4, 152, 235,
    233, 72, 15, 77, 236, 23, 12, 120, 62, 237, 99, 185, 250, 28, 239, 106, 250, 254, 134, 243, 169, 70, 203, 78, 213, 46,
    77, 0, 185, 251, 82, 112, 222, 148, 232, 65, 166, 43, 224, 16, 56, 104, 251, 175, 118, 121, 71, 56, 187, 48, 255, 159,
    165, 190, 136, 37, 198, 128, 168, 125, 4, 206, 230, 38, 179, 228, 141, 60, 97, 195, 54, 62, 196, 182, 179, 5, 13, 213,
    76, 175, 22, 218, 50, 128, 84, 162, 154, 91, 63, 14, 49, 151, 230, 251, 26, 4, 226, 169, 235, 187, 1, 57, 140, 13,
    166, 241, 178, 191, 188, 148, 72, 74, 184, 172, 22, 248, 195, 141, 251, 140, 150, 26, 43, 155, 155, 131, 140, 180,
    101, 225, 170, 69, 27, 169, 156, 193, 149, 101, 178, 222, 193, 153, 68, 38, 68, 182, 244, 111, 100, 37, 133, 142, 146,
    140, 15, 117, 33, 105, 145, 88, 111, 92, 67, 211, 133, 224, 84, 226, 66]

def vectorKeyId : Uuid :=
  ⟨#v[0x22, 0x22, 0x22, 0x22, 0x22, 0x22, 0x42, 0x22, 0x82, 0x22, 0x22, 0x22, 0x22, 0x22, 0x22, 0x22]⟩

def vectorEventId : Uuid :=
  ⟨#v[0x11, 0x11, 0x11, 0x11, 0x11, 0x11, 0x41, 0x11, 0x81, 0x11, 0x11, 0x11, 0x11, 0x11, 0x11, 0x11]⟩

/-- what the crates do on the vector -/
def vectorCrates : Crates where
  parseUuid s := if s = "22222222-2222-4222-8222-222222222222" then some vectorKeyId else none
  parseUrl s := if s = "https://serverbee.test" then some ⟨"https", some "serverbee.test", none⟩ else none
  jsonValid _ := true
  sha256 _ := #v[0x40, 0xe9, 0xea, 0x0a, 0x39, 0x5d, 0xec, 0x3b, 0xaf, 0xe5, 0xe8, 0x4a, 0xfb, 0xbe, 0x2e, 0x72, 0x6a, 0xc5,
    0x3a, 0xa2, 0x73, 0xf1, 0x68, 0xb4, 0xac, 0x65, 0x0b, 0x20, 0x8f, 0xde, 0xf5, 0x1f]
  sealInPlace _ _ _ plain :=
    if h : vectorSealed.length = plain.length + 16 then
      (⟨(vectorSealed.take plain.length).toArray, by simp [h]⟩, ⟨(vectorSealed.drop plain.length).toArray, by simp [h]⟩)
    else (.replicate _ 0, .replicate _ 0)

def vectorNonce : Vector UInt8 12 := #v[32, 33, 34, 35, 36, 37, 38, 39, 40, 41, 42, 43]

def vectorContent : PushContent :=
  ⟨"test", "https://serverbee.test", "alice", "test-install", "11111111-1111-4111-8111-111111111111", 2000000000, 2000001800,
    none, none, none, none, none⟩

def vectorEnvelope : PushEnvelope :=
  ⟨1, "22222222-2222-4222-8222-222222222222".toList,
    "40e9ea0a395dec3bafe5e84afbbe2e726ac53aa273f168b4ac650b208fdef51f".toList, "ICEiIyQlJicoKSor".toList,
    Base64.encode vectorSealed⟩

def vectorRow : Push.Registration :=
  ⟨0, 0, 0, 1, true, true, true, true, true, some "abababab", some "sandbox", some "22222222-2222-4222-8222-222222222222",
    some "AAECAwQFBgcICQoLDA0ODxAREhMUFRYXGBkaGxwdHh8=", some "https://serverbee.test"⟩

def vectorCreated : Timestamp := ⟨2000000000, by decide, by decide⟩

/-- the bytes from 0 to 31 -/
def vectorKey : List UInt8 := (List.range 32).map UInt8.ofNat

/-- what the kernel computes of the vector, all at once -/
theorem vector_computed :
    vectorRow.isRegistered vectorCrates.push = true ∧ vectorContent.json.bytes.length = 205 ∧
      identity vectorCrates vectorContent.deploymentId vectorContent.userId vectorContent.installationId =
        "40e9ea0a395dec3bafe5e84afbbe2e726ac53aa273f168b4ac650b208fdef51f".toList ∧
      Base64.encode vectorNonce.toList = "ICEiIyQlJicoKSor".toList ∧ vectorSealed.length = 205 + 16 ∧
      vectorContent.eventId.toList = vectorEventId.text ∧ "22222222-2222-4222-8222-222222222222".toList = vectorKeyId.text ∧
      (vectorRow.contentKey.bind fun key => standardDecode key.toList) = some vectorKey :=
  ⟨by decide +kernel, by decide +kernel, by decide +kernel, by decide +kernel, by decide +kernel, by decide +kernel,
    by decide +kernel, by decide +kernel⟩

theorem vector_registered : vectorRow.isRegistered vectorCrates.push = true := vector_computed.1

theorem vector_fits : vectorContent.json.bytes.length = 205 := vector_computed.2.1

theorem vector_sealInPlace {key : Vector UInt8 32} {nonce : Vector UInt8 12} {aad plain : List UInt8}
    (h : vectorSealed.length = plain.length + 16) :
    (vectorCrates.sealInPlace key nonce aad plain).1.toList ++ (vectorCrates.sealInPlace key nonce aad plain).2.toList =
      vectorSealed := by
  simp only [vectorCrates, dif_pos h]
  exact List.take_append_drop ..

theorem vector_sealed :
    sealContent vectorCrates "22222222-2222-4222-8222-222222222222" vectorKey vectorContent vectorNonce = .ok vectorEnvelope := by
  have hfits : ¬ maxContentBytes < vectorContent.json.bytes.length := by
    rw [vector_fits]
    decide
  obtain ⟨-, -, hidentity, hnonce, hsealed, -⟩ := vector_computed
  have hlength : vectorSealed.length = vectorContent.json.bytes.length + 16 := by rw [vector_fits, hsealed]
  have hkey : vectorKey.length = 32 := by decide
  unfold sealContent
  rw [if_neg hfits, dif_pos hkey]
  simp only [hidentity, hnonce, vector_sealInPlace hlength]
  rfl

theorem vector_agrees : vectorRow.isRegistered vectorCrates.push = true ∧ vectorContent.json.bytes.length ≤ maxContentBytes ∧
    (request (newJob vectorContent.eventId vectorCreated vectorEnvelope) vectorRow).bytes.length ≤ maxRequestBytes ∧
    ∃ sent, validate (request (newJob vectorContent.eventId vectorCreated vectorEnvelope) vectorRow) 2000000900 = some sent ∧
      (payload sent).bytes.length ≤ 4096 := by
  have hfits : vectorContent.json.bytes.length ≤ maxContentBytes := vector_fits ▸ by decide
  obtain ⟨-, -, -, -, -, hevent, -, hsecret⟩ := vector_computed
  obtain ⟨⟨keyId, secret, e, body, hkeyId, hkey, hseal, rfl, hsize, ⟨sent, -, hpayload, hvalidate⟩, -⟩, -⟩ :=
    server_and_relay_agree vectorCrates vector_registered vector_registered hfits hevent vectorNonce vectorCreated
  cases hkeyId
  obtain rfl : vectorKey = secret := Option.some.inj (hsecret.symm.trans hkey)
  cases hseal.symm.trans vector_sealed
  exact ⟨vector_registered, hfits, hsize, sent, hvalidate 2000000900, hpayload⟩

/-- the relay's clock is a second behind the server's -/
def slowCall : Call where
  sendPath := true
  post := true
  active := 0
  isolateAllows := true
  ipAllows := true
  targetAllows := true
  configured := true
  environments := some [.sandbox, .production]
  jsonType := true
  contentLength := none
  upload := .bytes 615
    (some (request (newJob vectorContent.eventId vectorCreated vectorEnvelope) vectorRow))
  validateAt := 1999999999
  expiryAt := 1999999999
  sendAt := 1999999999
  forwardAt := 1999999999
  attempt := .answered 200 none

theorem slow_relay_refuses :
    vectorRow.isRegistered vectorCrates.push = true ∧
      sealContent vectorCrates "22222222-2222-4222-8222-222222222222" vectorKey vectorContent vectorNonce = .ok vectorEnvelope ∧
      vectorCreated.secs - 60 ≤ slowCall.validateAt ∧
      Push.send vectorCrates.push true
        ⟨0, 0, 0, 0, 1, "member", none, "test", 2000001800, some "", .pending, "Queued", 0, 2000000000, none, 0⟩
        (fetch slowCall).reply = ⟨.permanent, "RelayPayloadRejected", false⟩ := by
  refine ⟨vector_registered, vector_sealed, by decide, ?_⟩
  have hrefused : fetch slowCall = json 400 .permanent "InvalidRequest" := by
    obtain ⟨_, _, _, _, hregistered⟩ := isRegistered_registered vectorCrates vector_registered
    obtain ⟨-, -, -, -, -, hevent, hkeyText, -⟩ := vector_computed
    have hkeyId : ∃ id : Uuid, "22222222-2222-4222-8222-222222222222".toList = id.text := ⟨vectorKeyId, hkeyText⟩
    obtain ⟨e, hseal, hsealed⟩ := sealContent_ok vectorCrates vectorNonce hkeyId (show vectorKey.length = 32 by decide)
      (show vectorContent.json.bytes.length ≤ maxContentBytes from vector_fits ▸ by decide)
    cases hseal.symm.trans vector_sealed
    have hread : readRequest slowCall [.sandbox, .production] = .inl (json 400 .permanent "InvalidRequest") :=
      readRequest_early hregistered hsealed hevent (show 615 ≤ maxRequestBytes by decide) rfl
        (show slowCall.validateAt < vectorCreated.secs by decide) _
    have hfetch : fetch slowCall = Sum.elim id
        (fun body => ⟨200, apnsSend body slowCall.sendAt slowCall.forwardAt slowCall.attempt⟩)
        (readRequest slowCall [.sandbox, .production]) := rfl
    rw [hfetch, hread, Sum.elim_inl, id]
  rw [hrefused]
  decide +kernel

end ServerBee.PushFormat
