/-
The registry of login identities (`security/first_seen_store.rs`).

The map is an association list, the queue a list with the oldest key first. A file is what serde_json reads from it: entries
that are written are read back as they were, since `Persisted` is a list of pairs of a string and an `i64`. `first_seen.tmp`
is not read by anything, so a flush either replaces the file or leaves it.
-/
import ServerBee.Lib.Regex
import ServerBee.Lib.Recency
import ServerBee.Lib.Run
import Mathlib.Data.List.AList

namespace ServerBee.FirstSeen

open ServerBee.Lib

/-! ## The file -/

abbrev Entries := List (Text × ℤ)

inductive File where
  | missing
  | unreadable
  | empty
  /-- bytes that are no `Persisted` -/
  | corrupt
  | persisted (entries : Entries)
deriving DecidableEq

/-! ## The store -/

abbrev Stamps := AList fun _ : Text => ℤ

structure FirstSeenStore where
  cap : ℕ
  map : Stamps
  order : List Text
  dirty : Bool

def fill (entries : Entries) : Stamps := entries.foldl (fun map e => map.insert e.1 e.2) ∅

/-- `none` is an error -/
def loadFrom : File → Option (Stamps × List Text)
  | .missing | .empty => some (∅, [])
  | .unreadable | .corrupt => none
  | .persisted entries => some (fill entries, entries.map Prod.fst)

def SEP : Char := '\x00'

def makeKey (user ip : Text) : Text := user ++ SEP :: ip

/-- the loop that drops the oldest keys while the map is over capacity -/
def evict (cap : ℕ) : Stamps → List Text → Stamps × List Text
  | map, [] => (map, [])
  | map, old :: order => if cap < map.keys.length then evict cap (map.erase old) order else (map, old :: order)

namespace FirstSeenStore

def openAt (cap : ℕ) (file : File) : FirstSeenStore :=
  match loadFrom file with
  | some (map, order) => ⟨cap, map, order, false⟩
  | none => ⟨cap, ∅, [], false⟩

def mark (s : FirstSeenStore) (user ip : Text) (nowTs : ℤ) : FirstSeenStore × Bool :=
  let key := makeKey user ip
  if key ∈ s.map then (s, false)
  else
    let (map, order) := evict s.cap (s.map.insert key nowTs) (s.order ++ [key])
    ({ s with map := map, order := order, dirty := true }, true)

def entries (s : FirstSeenStore) : Entries := s.order.filterMap fun k => (s.map.lookup k).map fun v => (k, v)

/-- the store, the file and whether the call returns `Ok`; `fails` if a call to the file system fails -/
def flush (s : FirstSeenStore) (file : File) (fails : Bool) : FirstSeenStore × File × Bool :=
  if s.dirty = false then (s, file, true)
  else if fails then (s, file, false)
  else ({ s with dirty := false }, .persisted s.entries, true)

end FirstSeenStore

/-! ## Identities -/

/-- a pair of user and address, or a key of a file that is none -/
inductive Identity where
  | pair (user ip : Text)
  | other (key : Text)
deriving DecidableEq, Repr

def Identity.key : Identity → Text
  | .pair user ip => makeKey user ip
  | .other key => key

/-- the part before the first separator and the part behind it -/
def splitKey : Text → Option (Text × Text)
  | [] => none
  | c :: k => if c = SEP then some ([], k) else (splitKey k).map fun (user, ip) => (c :: user, ip)

def identityOf (key : Text) : Identity := (splitKey key).elim (.other key) fun (user, ip) => .pair user ip

/-! ## Runs -/

inductive Op where
  | mark (user ip : Text) (nowTs : ℤ)
  | flush (fails : Bool)
  /-- a flush that succeeds, then a new process -/
  | restart

/-- the process with its file, and the identities that were marked, newest first -/
structure World where
  store : FirstSeenStore
  file : File
  marked : List Identity

/-- the entries that a file has are what was marked before -/
def World.start (cap : ℕ) (file : File) : World :=
  ⟨.openAt cap file, file, ((FirstSeenStore.openAt cap file).order.map identityOf).reverse⟩

def World.step (w : World) : Op → World
  | .mark user ip nowTs => { w with store := (w.store.mark user ip nowTs).1, marked := .pair user ip :: w.marked }
  | .flush fails => { w with store := (w.store.flush w.file fails).1, file := (w.store.flush w.file fails).2.1 }
  | .restart =>
    let file := (w.store.flush w.file false).2.1
    { w with store := .openAt w.store.cap file, file := file }

end ServerBee.FirstSeen
