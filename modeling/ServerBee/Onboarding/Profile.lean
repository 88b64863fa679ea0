/-
The profile of a new server: what is accepted, and the hash that recognises a repeated request
(`service/server_onboarding.rs`: `NormalizedProfile`, `service/server_tag.rs`: `validate_tags`).

A price is an f64, by its bits. `serde_json`, SHA-256 with base64 and the text forms of instants and ids are third-party:
`Encoding`. Of them the hash relies on not mapping two values to one text (`Encoding.Faithful`); that the fields of a profile
can be read back from its JSON is proved here (`requestJson_inj`).
-/
import ServerBee.Authority.Operations
import ServerBee.Renewal.Edits

namespace ServerBee.Onboarding

open ServerBee.Lib ServerBee.Authority
open ServerBee.Renewal (Crates RenewalInput RenewalState DeadlineOrigin)

/-! ## Input -/

/-- IEEE 754 binary64 -/
abbrev F64 := BitVec 64

def F64.isFinite (x : F64) : Bool := x.extractLsb' 52 11 != 0x7FF#11

/-- `x < 0.0` of a finite number: negative zero is not below zero -/
def F64.isNegative (x : F64) : Bool := x.msb && x.extractLsb' 0 63 != 0#63

structure ServerProfile where
  renewal : Option RenewalInput
  name : String
  groupId : Option String
  tags : List String
  remark : Option String
  publicRemark : Option String
  price : Option F64
  currency : Option String
  billingCycle : Option String
  billingStartDay : Option ℤ
  expiredAt : Option ℤ
  trafficLimit : Option ℤ
  trafficLimitType : Option String
deriving DecidableEq

structure OnboardServer where
  actorId : String
  requestId : String
  source : String
  profile : ServerProfile
  offerTtl : OfferTtl
deriving DecidableEq

inductive OnboardingError where
  | invalid (message : String)
  | validation (message : String)
  | limitReached (maxServers : ℕ)
  | idempotencyConflict
  | store (e : AppError)
deriving DecidableEq, Repr

instance : FromAppError OnboardingError := ⟨.store⟩

/-! ## Text -/

/-- `char::is_whitespace` -/
def isWhitespace (c : Char) : Bool :=
  let n := c.toNat
  (9 ≤ n && n ≤ 13) || n == 0x20 || n == 0x85 || n == 0xA0 || n == 0x1680 || (0x2000 ≤ n && n ≤ 0x200A) || n == 0x2028 ||
    n == 0x2029 || n == 0x202F || n == 0x205F || n == 0x3000

/-- `str::trim` -/
def trim (s : String) : String :=
  String.ofList ((s.toList.dropWhile isWhitespace).reverse.dropWhile isWhitespace).reverse

def normalizeOptional (value : Option String) : Option String :=
  (value.map trim).filter fun value => value != ""

def maxTags : ℕ := 8
def maxTagLen : ℕ := 16

def isTagChar (c : Char) : Bool := (c.toNat < 128 && c.isAlphanum) || c == '_' || c == '-' || c == '.'

/-- `BTreeSet::insert` -/
def insertTag (tag : String) (seen : List String) : List String :=
  if tag ∈ seen then seen else seen.orderedInsert (· ≤ ·) tag

def collectTags : List String → List String → Except String (List String)
  | [], seen => .ok seen
  | tag :: rest, seen =>
    let trimmed := trim tag
    if trimmed = "" then collectTags rest seen
    else if maxTagLen < trimmed.toList.length then .error s!"tag '{trimmed}' exceeds {maxTagLen} chars"
    else if !trimmed.toList.all isTagChar then .error s!"tag '{trimmed}' contains invalid characters"
    else collectTags rest (insertTag trimmed seen)

def validateTags (raw : List String) : Except String (List String) :=
  if maxTags < raw.length then .error s!"at most {maxTags} tags" else collectTags raw []

/-! ## Normalization -/

/-- `renewal_state` is stored decoded -/
structure NormalizedProfile where
  renewalState : Option RenewalState
  name : String
  groupId : Option String
  tags : List String
  remark : Option String
  publicRemark : Option String
  price : Option F64
  currency : Option String
  billingCycle : Option String
  billingStartDay : Option ℤ
  expiredAt : Option ℤ
  trafficLimit : Option ℤ
  trafficLimitType : Option String
deriving DecidableEq

/-- `fresh` is the first occurrence id that `apply_initial` may draw -/
def NormalizedProfile.fromInput (C : Crates) (fresh : ℕ) (profile : ServerProfile) :
    Except OnboardingError NormalizedProfile :=
  let name := trim profile.name
  if name = "" then .error (.invalid "name is required")
  else if profile.price.any fun price => !price.isFinite || price.isNegative then
    .error (.invalid "price must be finite and greater than or equal to 0")
  else if profile.billingCycle.any fun cycle => !(cycle == "monthly" || cycle == "quarterly" || cycle == "yearly") then
    .error (.invalid "billing_cycle must be monthly, quarterly, or yearly")
  else if profile.trafficLimitType.any fun kind => !(kind == "sum" || kind == "up" || kind == "down") then
    .error (.invalid "traffic_limit_type must be sum, up, or down")
  else if profile.billingStartDay.any fun day => !(1 ≤ day && day ≤ 28) then
    .error (.invalid "billing_start_day must be between 1 and 28")
  else
    match Renewal.applyInitial C fresh profile.renewal profile.expiredAt profile.billingCycle with
    | .error e => .error (.validation e)
    | .ok (renewal, expiredAt) =>
      match validateTags profile.tags with
      | .error e => .error (.validation e)
      | .ok tags => .ok {
          renewalState := profile.renewal.map fun _ => renewal
          name := name
          groupId := normalizeOptional profile.groupId
          tags := tags
          remark := normalizeOptional profile.remark
          publicRemark := normalizeOptional profile.publicRemark
          price := profile.price
          currency := normalizeOptional profile.currency
          billingCycle := normalizeOptional profile.billingCycle
          billingStartDay := profile.billingStartDay
          expiredAt := expiredAt
          trafficLimit := profile.trafficLimit
          trafficLimitType := normalizeOptional profile.trafficLimitType }

/-! ## Hash -/

/-- `serde_json::Value`, with the numbers of this module -/
inductive Json where
  | null
  | bool (b : Bool)
  | int (n : ℤ)
  | float (x : F64)
  | str (s : String)
  | arr (items : List Json)
  | obj (fields : List (String × Json))

structure Encoding where
  /-- `serde_json::to_string` -/
  print : Json → String
  /-- the text of a `DateTime<Utc>` -/
  instant : ℤ → String
  /-- the text of a UUID -/
  uuid : ℕ → String
  /-- SHA-256 and base64 -/
  digest : String → String

structure Encoding.Faithful (E : Encoding) : Prop where
  print : Function.Injective E.print
  instant : Function.Injective E.instant
  uuid : Function.Injective E.uuid
  digest : Function.Injective E.digest

def Json.opt {α : Type} (f : α → Json) : Option α → Json
  | none => .null
  | some a => f a

section Encode

variable (E : Encoding)

def originJson : DeadlineOrigin → Json
  | .confirmed => .str "confirmed"
  | .projected => .str "projected"
  | .frozen => .str "frozen"

def renewalJson (s : RenewalState) : Json :=
  .obj [("enabled", .bool s.enabled), ("deadline_origin", originJson s.deadlineOrigin),
    ("anchor_day", .opt (fun day : ℕ => .int day) s.anchorDay), ("occurrence_id", .opt (fun id => .str (E.uuid id)) s.occurrenceId),
    ("billing_timezone", .str s.billingTimezone),
    ("confirmed_expired_at", .opt (fun instant => .str (E.instant instant)) s.confirmedExpiredAt)]

/-- `renewal_state` is left out when there is none -/
def profileJson (p : NormalizedProfile) : Json :=
  .obj ((match p.renewalState with
    | none => []
    | some s => [("renewal_state", .str (E.print (renewalJson E s)))]) ++
    [("name", .str p.name), ("group_id", .opt .str p.groupId), ("tags", .arr (p.tags.map .str)),
      ("remark", .opt .str p.remark), ("public_remark", .opt .str p.publicRemark), ("price", .opt .float p.price),
      ("currency", .opt .str p.currency), ("billing_cycle", .opt .str p.billingCycle),
      ("billing_start_day", .opt .int p.billingStartDay), ("expired_at", .opt (fun instant => .str (E.instant instant)) p.expiredAt),
      ("traffic_limit", .opt .int p.trafficLimit), ("traffic_limit_type", .opt .str p.trafficLimitType)])

def requestJson (p : NormalizedProfile) (ttl : OfferTtl) : Json :=
  .obj [("profile", profileJson E p), ("offer_ttl_seconds", .int ttl.value)]

def NormalizedProfile.hash (p : NormalizedProfile) (ttl : OfferTtl) : String := E.digest (E.print (requestJson E p ttl))

end Encode

theorem Json.opt_inj {α : Type} {f : α → Json} (hf : Function.Injective f) (hnull : ∀ a, f a ≠ .null) :
    Function.Injective (Json.opt f) := by
  intro a b h
  cases a with
  | none =>
    cases b with
    | none => rfl
    | some b => exact absurd h.symm (hnull b)
  | some a =>
    cases b with
    | none => exact absurd h (hnull a)
    | some b => exact congrArg some (hf h)

section Injective

variable {E : Encoding}

theorem str_inj : Function.Injective Json.str := fun _ _ h => Json.str.inj h

theorem originJson_inj : Function.Injective originJson := by
  intro a b h
  cases a <;> cases b <;> simp_all [originJson]

theorem optStr_inj : Function.Injective (Json.opt Json.str) := Json.opt_inj str_inj fun _ => Json.noConfusion

theorem optText_inj {α : Type} {f : α → String} (hf : Function.Injective f) :
    Function.Injective (Json.opt fun a => Json.str (f a)) :=
  Json.opt_inj (fun _ _ h => hf (Json.str.inj h)) fun _ => Json.noConfusion

theorem optInt_inj : Function.Injective (Json.opt Json.int) := Json.opt_inj (fun _ _ h => Json.int.inj h) fun _ => Json.noConfusion

theorem renewalJson_inj (hE : E.Faithful) : Function.Injective (renewalJson E) := by
  intro s t h
  obtain ⟨enabled, origin, anchor, occurrence, zone, confirmed⟩ := s
  obtain ⟨enabled', origin', anchor', occurrence', zone', confirmed'⟩ := t
  simp only [renewalJson, Json.obj.injEq, List.cons.injEq, Prod.mk.injEq, true_and, and_true, Json.bool.injEq,
    Json.str.injEq] at h
  obtain ⟨rfl, horigin, hanchor, hoccurrence, rfl, hconfirmed⟩ := h
  have hday : Function.Injective (Json.opt fun day : ℕ => Json.int day) :=
    Json.opt_inj (fun _ _ h => Int.ofNat.inj (Json.int.inj h)) fun _ => Json.noConfusion
  rw [originJson_inj horigin, hday hanchor, optText_inj hE.uuid hoccurrence, optText_inj hE.instant hconfirmed]

/-- the fields after the optional first one -/
theorem profileRest_inj (hE : E.Faithful) {p q : NormalizedProfile} (hrenewal : p.renewalState = q.renewalState)
    (h : profileJson E { p with renewalState := none } = profileJson E { q with renewalState := none }) : p = q := by
  obtain ⟨renewal, name, group, tags, remark, publicRemark, price, currency, cycle, day, expired, limit, kind⟩ := p
  obtain ⟨renewal', name', group', tags', remark', publicRemark', price', currency', cycle', day', expired', limit', kind'⟩ := q
  obtain rfl : renewal = renewal' := hrenewal
  simp only [profileJson, List.nil_append, Json.obj.injEq, List.cons.injEq, Prod.mk.injEq, true_and, and_true,
    Json.str.injEq, Json.arr.injEq] at h
  obtain ⟨rfl, hgroup, htags, hremark, hpublic, hprice, hcurrency, hcycle, hday, hexpired, hlimit, hkind⟩ := h
  have hfloat : Function.Injective (Json.opt Json.float) :=
    Json.opt_inj (fun _ _ h => Json.float.inj h) fun _ => Json.noConfusion
  rw [optStr_inj hgroup, List.map_injective_iff.2 str_inj htags, optStr_inj hremark, optStr_inj hpublic, hfloat hprice,
    optStr_inj hcurrency, optStr_inj hcycle, optInt_inj hday, optText_inj hE.instant hexpired, optInt_inj hlimit,
    optStr_inj hkind]

theorem profileJson_inj (hE : E.Faithful) : Function.Injective (profileJson E) := by
  intro p q h
  cases hp : p.renewalState with
  | none =>
    cases hq : q.renewalState with
    | none =>
      refine profileRest_inj hE (hp.trans hq.symm) ?_
      rwa [← hp, show { q with renewalState := p.renewalState } = q by rw [hp, ← hq]]
    | some t =>
      have hlength := congrArg List.length (Json.obj.inj h)
      simp [hp, hq] at hlength
  | some s =>
    cases hq : q.renewalState with
    | none =>
      have hlength := congrArg List.length (Json.obj.inj h)
      simp [hp, hq] at hlength
    | some t =>
      have hfields := Json.obj.inj h
      rw [hp, hq] at hfields
      obtain ⟨hfirst, hrest⟩ := List.cons.inj hfields
      have hst : s = t := renewalJson_inj hE (hE.print (Json.str.inj (Prod.mk.inj hfirst).2))
      exact profileRest_inj hE (by rw [hp, hq, hst]) (congrArg Json.obj hrest)

/-- two requests have one hash iff they normalize to one profile, with one lifetime of the offer -/
theorem hash_inj (hE : E.Faithful) {p q : NormalizedProfile} {ttl ttl' : OfferTtl} :
    p.hash E ttl = q.hash E ttl' ↔ p = q ∧ ttl = ttl' := by
  constructor
  · intro h
    have hrequest := hE.print (hE.digest h)
    simp only [requestJson, Json.obj.injEq, List.cons.injEq, Prod.mk.injEq, true_and, and_true, Json.int.injEq] at hrequest
    refine ⟨profileJson_inj hE hrequest.1, ?_⟩
    obtain ⟨value, hvalue⟩ := ttl
    obtain ⟨value', hvalue'⟩ := ttl'
    obtain rfl : value = value' := hrequest.2
    rfl
  · rintro ⟨rfl, rfl⟩
    rfl

end Injective

/-! ## No chance in the hash -/

section Fresh

variable {C : Crates} {s : RenewalState} {original : Option ℤ} {input : Option RenewalInput} {legacy : Option (Option ℤ)}

/-- a schedule without its occurrence -/
def withoutOccurrence (x : RenewalState × Option ℤ) : RenewalState × Option ℤ := ({ x.1 with occurrenceId := none }, x.2)

theorem editedState_fresh (f f' : ℕ) (zone : String) (moved replaced enabled : Bool) (deadline : Option ℤ) :
    withoutOccurrence (Renewal.editedState C f s zone moved replaced enabled deadline, deadline) =
      withoutOccurrence (Renewal.editedState C f' s zone moved replaced enabled deadline, deadline) := by
  obtain ⟨_, origin, anchor, occurrence, _, _⟩ := s
  cases enabled <;> cases replaced <;> cases moved <;> cases origin <;> cases occurrence <;> cases anchor <;> rfl

theorem applyCalendar_fresh (f f' : ℕ) : (Renewal.applyCalendar C f s original input legacy).map withoutOccurrence =
    (Renewal.applyCalendar C f' s original input legacy).map withoutOccurrence := by
  rw [Renewal.applyCalendar_eq, Renewal.applyCalendar_eq]
  split_ifs
  · rfl
  · cases Renewal.editedZone C s input with
    | error e => rfl
    | ok zc =>
      dsimp only [Except.bind]
      cases Renewal.editedDate C zc.1 (Renewal.selectedDate C original s.billingTimezone) original (input.bind (·.expiryDate))
        legacy with
      | error e => rfl
      | ok dr =>
        dsimp only
        cases (if zc.2 && !dr.2 then Renewal.boundaryOf C (Renewal.selectedDate C original s.billingTimezone) zc.1
          else .ok dr.1) with
        | error e => rfl
        | ok deadline => exact congrArg Except.ok (editedState_fresh f f' _ _ _ _ _)

/-- the first schedule does not depend on the ids that were drawn -/
theorem applyInitial_fresh (f f' : ℕ) (legacy : Option ℤ) (cycle : Option String) :
    Renewal.applyInitial C f input legacy cycle = Renewal.applyInitial C f' input legacy cycle := by
  have h := @applyCalendar_fresh C ⟨false, .confirmed, none, none, "UTC", legacy⟩ legacy input none f f'
  unfold Renewal.applyInitial
  split_ifs
  · rfl
  · cases h₁ : Renewal.applyCalendar C f ⟨false, .confirmed, none, none, "UTC", legacy⟩ legacy input none with
    | error e =>
      cases h₂ : Renewal.applyCalendar C f' ⟨false, .confirmed, none, none, "UTC", legacy⟩ legacy input none with
      | error e' =>
        rw [h₁, h₂] at h
        rw [Except.error.inj h]
      | ok y =>
        rw [h₁, h₂] at h
        cases h
    | ok x =>
      cases h₂ : Renewal.applyCalendar C f' ⟨false, .confirmed, none, none, "UTC", legacy⟩ legacy input none with
      | error e' =>
        rw [h₁, h₂] at h
        cases h
      | ok y =>
        rw [h₁, h₂] at h
        have hxy := Except.ok.inj h
        obtain ⟨⟨enabled, origin, anchor, occurrence, zone, confirmed⟩, deadline⟩ := x
        obtain ⟨⟨enabled', origin', anchor', occurrence', zone', confirmed'⟩, deadline'⟩ := y
        simp only [withoutOccurrence, Prod.mk.injEq, RenewalState.mk.injEq, true_and] at hxy
        obtain ⟨⟨rfl, rfl, rfl, rfl, rfl⟩, rfl⟩ := hxy
        rfl

theorem fromInput_fresh (f f' : ℕ) (profile : ServerProfile) :
    NormalizedProfile.fromInput C f profile = NormalizedProfile.fromInput C f' profile := by
  unfold NormalizedProfile.fromInput
  rw [applyInitial_fresh f f']

end Fresh

/-! ## An encoding that loses nothing -/

/-- a text by its number -/
def textCode (s : String) : ℕ := Encodable.encode (s.toList.map Char.toNat)

theorem textCode_inj : Function.Injective textCode := by
  intro s t h
  have hchars := Encodable.encode_injective h
  exact String.toList_injective (List.map_injective_iff.2 (fun _ _ h => Char.toNat_inj.1 h) hchars)

mutual

/-- a value by its number -/
def Json.code : Json → ℕ
  | .null => 0
  | .bool b => Nat.pair 0 (Encodable.encode b) + 1
  | .int n => Nat.pair 1 (Encodable.encode n) + 1
  | .float x => Nat.pair 2 x.toNat + 1
  | .str s => Nat.pair 3 (textCode s) + 1
  | .arr items => Nat.pair 4 (Json.itemsCode items) + 1
  | .obj fields => Nat.pair 5 (Json.fieldsCode fields) + 1

def Json.itemsCode : List Json → ℕ
  | [] => 0
  | item :: items => Nat.pair item.code (Json.itemsCode items) + 1

def Json.fieldsCode : List (String × Json) → ℕ
  | [] => 0
  | (key, value) :: fields => Nat.pair (textCode key) (Nat.pair value.code (Json.fieldsCode fields)) + 1

end

mutual

theorem Json.code_inj : ∀ {a b : Json}, a.code = b.code → a = b
  | .null, b, h => by cases b <;> simp_all [Json.code]
  | .bool x, b, h => by
    cases b <;> simp [Json.code, Nat.pair_eq_pair] at h
    rw [h]
  | .int x, b, h => by
    cases b <;> simp [Json.code, Nat.pair_eq_pair] at h
    rw [h]
  | .float x, b, h => by
    cases b <;> simp [Json.code, Nat.pair_eq_pair] at h
    rw [BitVec.eq_of_toNat_eq h]
  | .str x, b, h => by
    cases b <;> simp [Json.code, Nat.pair_eq_pair] at h
    rw [textCode_inj h]
  | .arr x, b, h => by
    cases b <;> simp [Json.code, Nat.pair_eq_pair] at h
    rw [Json.itemsCode_inj h]
  | .obj x, b, h => by
    cases b <;> simp [Json.code, Nat.pair_eq_pair] at h
    rw [Json.fieldsCode_inj h]

theorem Json.itemsCode_inj : ∀ {a b : List Json}, Json.itemsCode a = Json.itemsCode b → a = b
  | [], [], _ => rfl
  | [], _ :: _, h => by simp [Json.itemsCode] at h
  | _ :: _, [], h => by simp [Json.itemsCode] at h
  | x :: a, y :: b, h => by
    simp only [Json.itemsCode, Nat.add_right_cancel_iff, Nat.pair_eq_pair] at h
    rw [Json.code_inj h.1, Json.itemsCode_inj h.2]

theorem Json.fieldsCode_inj : ∀ {a b : List (String × Json)}, Json.fieldsCode a = Json.fieldsCode b → a = b
  | [], [], _ => rfl
  | [], _ :: _, h => by simp [Json.fieldsCode] at h
  | _ :: _, [], h => by simp [Json.fieldsCode] at h
  | (k, x) :: a, (l, y) :: b, h => by
    simp only [Json.fieldsCode, Nat.add_right_cancel_iff, Nat.pair_eq_pair] at h
    rw [textCode_inj h.1, Json.code_inj h.2.1, Json.fieldsCode_inj h.2.2]

end

/-- a number in strokes -/
def strokes (n : ℕ) : String := String.ofList (List.replicate n '|')

theorem strokes_inj : Function.Injective strokes := by
  intro n m h
  have hlist := congrArg String.length h
  simpa [strokes] using hlist

def plainEncoding : Encoding where
  print value := strokes value.code
  instant instant := strokes (Encodable.encode instant)
  uuid := strokes
  digest := id

theorem plainEncoding_faithful : plainEncoding.Faithful where
  print _ _ h := Json.code_inj (strokes_inj h)
  instant _ _ h := Encodable.encode_injective (strokes_inj h)
  uuid := strokes_inj
  digest _ _ h := h

end ServerBee.Onboarding
