/-
The request that the server posts, as the relay reads it.

What the server posts for a registered installation is within the relay's limits, and valid from the job's creation on
(`validate_request`).
-/
import ServerBee.PushFormat.Texts

namespace ServerBee.PushFormat

open ServerBee.Lib

/-! ## What the server writes -/

/-- an envelope as `sealContent` makes it -/
structure Sealed (e : PushEnvelope) : Prop where
  version : e.version = 1
  keyId : ∃ id : Uuid, e.keyId = id.text
  identity : ∃ digest : Vector UInt8 32, e.identity = hexDigits digest.toList
  nonce : ∃ nonce : Vector UInt8 12, e.nonce = Base64.encode nonce.toList
  ciphertext : ∃ bytes, 16 ≤ bytes.length ∧ bytes.length ≤ maxContentBytes + 16 ∧ e.ciphertext = Base64.encode bytes

/-- both sides write an envelope in the same way -/
theorem Sealed.json_eq {e : PushEnvelope} (h : Sealed e) :
    e.json = Envelope.json ⟨e.keyId, e.identity, e.nonce, e.ciphertext⟩ := by
  rw [PushEnvelope.json, h.version]
  rfl

theorem sealContent_ok (C : Crates) {keyId : String} {secret : List UInt8} {content : PushContent} (nonce : Vector UInt8 12)
    (hkeyId : ∃ id : Uuid, keyId.toList = id.text) (hsecret : secret.length = 32)
    (hfits : content.json.bytes.length ≤ maxContentBytes) :
    ∃ e, sealContent C keyId secret content nonce = .ok e ∧ Sealed e := by
  unfold sealContent
  rw [if_neg (not_lt.2 hfits), dif_pos hsecret]
  refine ⟨_, rfl, rfl, hkeyId, ⟨_, rfl⟩, ⟨nonce, rfl⟩, _, ?_, ?_, rfl⟩
  · simp
  · simpa using hfits

/-- a registration that may be sent to -/
structure Registered (row : Push.Registration) (token environment keyId : String) (secret : List UInt8) : Prop where
  deviceToken : row.deviceToken = some token
  contentKeyId : row.contentKeyId = some keyId
  contentKey : (row.contentKey.bind fun key => standardDecode key.toList) = some secret
  token_min : 2 ≤ token.toList.length
  token_max : token.toList.length ≤ maxDeviceTokenChars
  token_even : token.toList.length % 2 = 0
  token_hex : token.toList.all isHex = true
  environment_eq : row.environment = some environment ∧ (environment = "sandbox" ∨ environment = "production")
  keyId_uuid : ∃ id : Uuid, keyId.toList = id.text
  secret_length : secret.length = 32

theorem isLowerHex_isHex {c : Char} (h : Push.isLowerHex c = true) : isHex c = true := by
  simp only [Push.isLowerHex, Char.isDigit, Bool.or_eq_true, Bool.and_eq_true, decide_eq_true_eq] at h
  simp only [isHex, Bool.or_eq_true, Bool.and_eq_true, decide_eq_true_eq]
  rcases h with h | h
  · exact Or.inr h
  · exact Or.inl h

theorem isRegistered_registered (C : Crates) {row : Push.Registration} (h : row.isRegistered C.push = true) :
    ∃ token environment keyId secret, Registered row token environment keyId secret := by
  unfold Push.Registration.isRegistered at h
  obtain ⟨-, h⟩ := Bool.and_eq_true_iff.1 h
  split at h
  · rename_i token environment keyId key deployment htoken henvironment hkeyId hkey hdeployment
    simp only [Push.validRegistration, Bool.and_eq_true, decide_eq_true_eq, beq_iff_eq, Bool.or_eq_true, List.all_eq_true] at h
    obtain ⟨⟨⟨⟨⟨⟨⟨hmin, hmax⟩, heven⟩, hhex⟩, henv⟩, huuid⟩, hsecret⟩, -⟩ := h
    obtain ⟨id, -, hid⟩ := (Option.any_eq_true _ _).1 huuid
    obtain ⟨secret, hdecode, hlength⟩ := Option.map_eq_some_iff.1 hsecret
    refine ⟨token, environment, keyId, secret, htoken, hkeyId, ?_, hmin, hmax, heven, ?_, ⟨henvironment, henv⟩, ?_, hlength⟩
    · rw [hkey]
      exact hdecode
    · exact List.all_eq_true.2 fun c hc => isLowerHex_isHex (hhex c hc)
    · exact ⟨id, (beq_iff_eq.1 hid).symm⟩
  · cases h

/-! ## What the relay reads -/

/-- the value that a valid request is -/
def SendRequest.value (r : SendRequest) : Json :=
  .obj [field "device_token" (.str r.deviceToken),
    field "environment" (.str (match r.environment with | .sandbox => "sandbox" | .production => "production").toList),
    field "event_id" (.str r.eventId), field "expires_at" (.num r.expiresAt), field "envelope" r.envelope.json]

theorem validateEnvelope_sealed {e : PushEnvelope} (h : Sealed e) :
    validateEnvelope e.json = some ⟨e.keyId, e.identity, e.nonce, e.ciphertext⟩ := by
  obtain ⟨version, keyId, identity, nonce, ciphertext⟩ := e
  obtain ⟨rfl, ⟨id, rfl⟩, ⟨digest, rfl⟩, ⟨nonce, rfl⟩, ⟨bytes, hmin, hmax, rfl⟩⟩ := h
  have hnonce : canonicalBase64 (Base64.encode nonce.toList) 12 12 = true :=
    canonicalBase64_encode (by simp) (by simp)
  have hciphertext : canonicalBase64 (Base64.encode bytes) 16 2070 = true :=
    canonicalBase64_encode hmin (hmax.trans (by decide))
  have hvalid : (1 : ℤ) = 1 ∧ isUuid id.text = true ∧ isHex64 (hexDigits digest.toList) = true ∧
      canonicalBase64 (Base64.encode nonce.toList) 12 12 = true ∧ canonicalBase64 (Base64.encode bytes) 16 2070 = true :=
    ⟨rfl, isUuid_text id, isHex64_digest digest, hnonce, hciphertext⟩
  exact if_pos hvalid

theorem parse_environment {environment : String} (h : environment = "sandbox" ∨ environment = "production") :
    ∃ parsed, Environment.parse environment.toList = some parsed ∧
      (match parsed with | .sandbox => "sandbox" | .production => "production") = environment := by
  rcases h with rfl | rfl
  · exact ⟨.sandbox, rfl, rfl⟩
  · exact ⟨.production, rfl, rfl⟩

/-- the checks of a value that has the fields -/
theorem validate_fields (token environment eventId : List Char) (expiresAt now : ℤ) (envelope : Json) :
    validate (.obj [field "device_token" (.str token), field "environment" (.str environment), field "event_id" (.str eventId),
        field "expires_at" (.num expiresAt), field "envelope" envelope]) now =
      if 2 ≤ jsLength token ∧ jsLength token ≤ maxDeviceTokenChars ∧ jsLength token % 2 = 0 ∧ token.all isHex = true ∧
          isUuid eventId = true ∧ |expiresAt| ≤ maxSafeInteger ∧ 0 < expiresAt ∧ expiresAt ≤ now + 1800 then do
        let environment ← Environment.parse environment
        let envelope ← validateEnvelope envelope
        pure ⟨token, environment, eventId, expiresAt, envelope⟩
      else none := rfl

/-- the relay takes a request unless its clock is before the job's creation -/
theorem validate_request {row : Push.Registration} {token environment keyId eventId : String} {secret : List UInt8}
    {e : PushEnvelope} (hrow : Registered row token environment keyId secret) (hsealed : Sealed e) {id : Uuid}
    (hevent : eventId.toList = id.text) (createdAt : Timestamp) :
    ∃ sent : SendRequest, sent.value = request (newJob eventId createdAt e) row ∧
      sent.deviceToken = token.toList ∧ sent.envelope = ⟨e.keyId, e.identity, e.nonce, e.ciphertext⟩ ∧
      ∀ now, validate (request (newJob eventId createdAt e) row) now = if createdAt.secs ≤ now then some sent else none := by
  obtain ⟨henvironment, hknown⟩ := hrow.environment_eq
  obtain ⟨parsed, hparse, hprint⟩ := parse_environment hknown
  have hbody : request (newJob eventId createdAt e) row =
      .obj [field "device_token" (.str token.toList), field "environment" (.str environment.toList),
        field "event_id" (.str eventId.toList), field "expires_at" (.num (createdAt.secs + 1800)),
        field "envelope" e.json] := by
    simp only [request, newJob, hrow.deviceToken, henvironment]
    rfl
  refine ⟨⟨token.toList, parsed, eventId.toList, createdAt.secs + 1800, ⟨e.keyId, e.identity, e.nonce, e.ciphertext⟩⟩,
    ?_, rfl, rfl, fun now => ?_⟩
  · rw [hbody, SendRequest.value]
    simp only [hprint]
    rw [hsealed.json_eq]
  · have hlength : jsLength token.toList = token.toList.length := plain_jsLength (hex_plain hrow.token_hex)
    have hmin := createdAt.nonneg
    have hmax := createdAt.le_max
    have hsafe : |createdAt.secs + 1800| ≤ maxSafeInteger := by
      rw [abs_of_nonneg (by omega), maxSafeInteger]
      omega
    rw [hbody, validate_fields, hlength, hparse, validateEnvelope_sealed hsealed, hevent]
    have huuid := isUuid_text id
    by_cases hnow : createdAt.secs ≤ now
    · rw [if_pos hnow, if_pos ⟨hrow.token_min, hrow.token_max, hrow.token_even, hrow.token_hex, huuid, hsafe, by omega,
        by omega⟩]
      rfl
    · rw [if_neg hnow, if_neg fun h => hnow (by omega)]

/-! ## Sizes -/

/-- what an object adds to its values: the braces and, for each field, quotes, a colon and a comma -/
theorem size_envelope {e : PushEnvelope} (h : Sealed e) :
    Json.size (Envelope.json ⟨e.keyId, e.identity, e.nonce, e.ciphertext⟩).text ≤ 2934 := by
  obtain ⟨id, hid⟩ := h.keyId
  obtain ⟨digest, hdigest⟩ := h.identity
  obtain ⟨nonce, hnonce⟩ := h.nonce
  obtain ⟨bytes, -, hmax, hciphertext⟩ := h.ciphertext
  have hversion : Json.size (Json.whole 1) = 1 := rfl
  have hlength : (Base64.encode bytes).length ≤ 2752 := by
    rw [Base64.length_encode]
    unfold maxContentBytes at hmax
    omega
  rw [Envelope.json, Json.size_obj (by simp)]
  simp only [List.map_cons, List.map_nil, List.sum_cons, List.sum_nil, hversion, Json.text, hid, hdigest, hnonce, hciphertext,
    Json.size_quote (uuid_plain id), Json.size_quote (hexDigits_plain digest.toList),
    Json.size_quote (base64_plain nonce.toList), Json.size_quote (base64_plain bytes), length_uuid, length_hexDigits,
    Base64.length_encode nonce.toList, Vector.length_toList]
  have hkeys : "version".toList.length = 7 ∧ "key_id".toList.length = 6 ∧ "identity".toList.length = 8 ∧
      "nonce".toList.length = 5 ∧ "ciphertext".toList.length = 10 := by decide
  simp (disch := decide) only [Json.size_quote, hkeys]
  omega

/-- what the relay adds to an envelope -/
theorem size_payload {sent : SendRequest} {e : PushEnvelope} (h : Sealed e)
    (hsent : sent.envelope = ⟨e.keyId, e.identity, e.nonce, e.ciphertext⟩) : Json.size (payload sent).text ≤ 4096 := by
  have henvelope := size_envelope h
  have haps : Json.size (Json.text (.obj [
      ("alert".toList, .obj [("title".toList, .str "ServerBee".toList),
        ("body".toList, .str "Open ServerBee to view this notification.".toList)]),
      ("mutable-content".toList, .num 1), ("sound".toList, .str "default".toList)])) = 120 := by decide +kernel
  have hkeys : "aps".toList.length = 3 ∧ "serverbee_envelope".toList.length = 18 := by decide
  rw [payload, hsent, Json.size_obj (by simp)]
  simp only [List.map_cons, List.map_nil, List.sum_cons, List.sum_nil, haps]
  simp (disch := decide) only [Json.size_quote, hkeys]
  omega

theorem size_request {row : Push.Registration} {token environment keyId eventId : String} {secret : List UInt8}
    {e : PushEnvelope} (hrow : Registered row token environment keyId secret) (hsealed : Sealed e) {id : Uuid}
    (hevent : eventId.toList = id.text) (createdAt : Timestamp) :
    Json.size (request (newJob eventId createdAt e) row).text ≤ maxRequestBytes := by
  obtain ⟨henvironment, hknown⟩ := hrow.environment_eq
  have henvelope := size_envelope hsealed
  have htoken := Json.size_quote (hex_plain hrow.token_hex)
  have htoken_max := hrow.token_max
  have hevent_size := Json.size_quote (hevent ▸ uuid_plain id)
  have henvironment_size : Json.size (Json.quote environment.toList) ≤ 12 := by
    rcases hknown with rfl | rfl <;> decide +kernel
  have hexpires : Json.size (Json.whole (createdAt.secs + 1800)) ≤ 13 := by
    have hmin := createdAt.nonneg
    have hmax := createdAt.le_max
    exact Json.size_whole (by decide) (by omega) (by omega)
  have hkeys : "device_token".toList.length = 12 ∧ "environment".toList.length = 11 ∧ "event_id".toList.length = 8 ∧
      "expires_at".toList.length = 10 ∧ "envelope".toList.length = 8 := by decide
  rw [hevent, length_uuid, ← hevent] at hevent_size
  unfold maxDeviceTokenChars at htoken_max
  rw [request, Json.size_obj (by simp)]
  simp only [List.map_cons, List.map_nil, List.sum_cons, List.sum_nil, newJob, hrow.deviceToken, henvironment, optional,
    Option.elim_some, text, Json.text, field, htoken, hevent_size, hsealed.json_eq]
  simp (disch := decide) only [Json.size_quote, hkeys]
  unfold maxRequestBytes
  omega

end ServerBee.PushFormat
