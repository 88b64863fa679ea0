/-
Paged listings of security events and of firewall blocks (`list_events` of `router/api/security.rs`, `list_blocks` of
`router/api/firewall.rs`).

Rows are listed from the newest, rows of one time from the greatest id, and the cursor of the next page is the position of the
last row as a text. base64 and chrono's format of a time are parameters. A stored time is a text whose order is the order of the
times. What a row shows in the answer is left out.
-/
import Mathlib.Data.Int.Order.Basic
import Mathlib.Data.Prod.Lex
import Mathlib.Data.String.Basic
import Mathlib.Order.OrderDual
import ServerBee.Lib.Keyset
import ServerBee.Lib.Splits

namespace ServerBee.Listings

open ServerBee.Lib

inductive AppError where
  | badRequest (message : String)
deriving DecidableEq, Repr

/-- newest first -/
abbrev Position := (ℤ ×ₗ String)ᵒᵈ

def position (createdAt : ℤ) (id : String) : Position := OrderDual.toDual (toLex (createdAt, id))

/-! ## Cursors -/

structure Codec where
  /-- `URL_SAFE_NO_PAD` -/
  encode : List Char → List Char
  /-- and the bytes as UTF-8 -/
  decode : List Char → Option (List Char)
  toRfc3339 : ℤ → List Char
  parseFromRfc3339 : List Char → Option ℤ

variable (codec : Codec)

def rawCursor (createdAt : ℤ) (id : String) : List Char := codec.toRfc3339 createdAt ++ '|' :: id.toList

def encodeCursor (createdAt : ℤ) (id : String) : List Char := codec.encode (rawCursor codec createdAt id)

def decodeCursor (cursor : List Char) : Except AppError (ℤ × String) :=
  match codec.decode cursor with
  | none => .error (.badRequest "invalid cursor")
  | some raw =>
    match splitOnce ['|'] raw with
    | none => .error (.badRequest "invalid cursor")
    | some (time, id) =>
      match codec.parseFromRfc3339 time with
      | none => .error (.badRequest "invalid cursor timestamp")
      | some createdAt => .ok (createdAt, String.ofList id)

def cursorOf (p : Position) : List Char := encodeCursor codec (ofLex (OrderDual.ofDual p)).1 (ofLex (OrderDual.ofDual p)).2

/-- the text of the position is one that base64 and chrono read back -/
structure Codec.Reads (createdAt : ℤ) (id : String) : Prop where
  text : codec.decode (codec.encode (rawCursor codec createdAt id)) = some (rawCursor codec createdAt id)
  time : codec.parseFromRfc3339 (codec.toRfc3339 createdAt) = some createdAt
  bar : '|' ∉ codec.toRfc3339 createdAt

/-! ## Listings -/

section

variable {ρ : Type} (createdAt : ρ → ℤ) (id : ρ → String)

/-- rows that match, behind the cursor, newest first: one more than the limit, and the cursor of the last one shown -/
def listed (shown : ρ → Bool) (limit : ℕ) (cursor : Option (List Char)) (rows : List ρ) :
    Except AppError (List ρ × Option (List Char)) :=
  let got (c : Option Position) := Keyset.page (fun r => position (createdAt r) (id r)) (rows.filter shown) c limit
  let answer (page : List ρ × Option Position) := (page.1, page.2.map (cursorOf codec))
  match cursor with
  | none => .ok (answer (got none))
  | some text => (decodeCursor codec text).map fun c => answer (got (some (position c.1 c.2)))

end

def DEFAULT_LIMIT : ℕ := 50

def MAX_LIMIT : ℕ := 200

def limitOf (limit : Option ℕ) : ℕ := min (limit.getD DEFAULT_LIMIT) MAX_LIMIT

/-- the columns that the listing reads -/
structure SecurityEvent where
  id : String
  serverId : String
  eventType : String
  severity : String
  sourceIp : String
  createdAt : ℤ
deriving DecidableEq, Repr

structure ListEventsParams where
  serverId : Option String
  eventType : Option String
  sourceIp : Option String
  severity : Option String
  since : Option ℤ
  till : Option ℤ
  limit : Option ℕ
deriving DecidableEq, Repr

def ListEventsParams.shows (params : ListEventsParams) (event : SecurityEvent) : Bool :=
  params.serverId.all (· == event.serverId) && params.eventType.all (· == event.eventType) &&
    params.sourceIp.all (· == event.sourceIp) && params.severity.all (· == event.severity) &&
    params.since.all (fun t => decide (t ≤ event.createdAt)) && params.till.all (fun t => decide (event.createdAt ≤ t))

def listEvents (params : ListEventsParams) (cursor : Option (List Char)) (events : List SecurityEvent) :
    Except AppError (List SecurityEvent × Option (List Char)) :=
  listed codec SecurityEvent.createdAt SecurityEvent.id params.shows (limitOf params.limit) cursor events

structure Block where
  id : String
  target : String
  origin : String
  createdAt : ℤ
deriving DecidableEq, Repr

structure ListQuery where
  origin : Option String
  targetQ : Option String
  limit : Option ℕ
deriving DecidableEq, Repr

/-- `like` is SQLite's LIKE with a pattern in percent signs -/
def ListQuery.shows (like : String → String → Bool) (q : ListQuery) (block : Block) : Bool :=
  q.origin.all (· == block.origin) && q.targetQ.all (like block.target)

def listBlocks (like : String → String → Bool) (q : ListQuery) (cursor : Option (List Char)) (blocks : List Block) :
    Except AppError (List Block × Option (List Char)) :=
  listed codec Block.createdAt Block.id (q.shows like) (limitOf q.limit) cursor blocks

end ServerBee.Listings
