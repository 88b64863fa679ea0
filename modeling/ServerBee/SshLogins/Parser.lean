/-
Login attempts read from sshd's log (`security/ssh_parser.rs`, `security/journal_watcher.rs`: `drain_journalctl_json`,
`extract_message`, `forward_auth_log_line`, `strip_syslog_prefix`).

Texts are lists of characters. A journal line is the JSON value that serde_json reads from it. The digits of `\d` are those
of Unicode's decimal numbers, of which only the ASCII part is fixed here; `\s` is White_Space.
-/
import ServerBee.Lib.Json
import ServerBee.Lib.Regex
import Mathlib.Data.List.DropRight

namespace ServerBee.SshLogins

open ServerBee.Lib

/-! ## Attempts -/

inductive AuthMethodHint where
  | publickey
  | password
  | keyboardInteractive
  | other
deriving DecidableEq, Repr

inductive AuthOutcome where
  | success (authMethod : AuthMethodHint)
  | failure (invalidUser : Bool)
deriving DecidableEq, Repr

structure AuthAttempt where
  outcome : AuthOutcome
  username : Text
  sourceIp : Text
  sourcePort : Option ℕ
deriving DecidableEq, Repr

/-! ## The expressions -/

/-- the decimal numbers of Unicode -/
structure Digits where
  isDigit : Char → Bool
  ascii : ∀ c, c.toNat < 128 → (isDigit c = true ↔ 48 ≤ c.toNat ∧ c.toNat ≤ 57)

def lit (s : String) : Regex := .lit s.toList

/-- `\S+` -/
def word : Regex := .plus fun c => !isWhiteSpace c

/-- `(\S+) from (\S+) port (\d+)`, with groups from number `n` on -/
def origin (digits : Digits) (n : ℕ) : Regex :=
  .seq (.group n word) (.seq (lit " from ") (.seq (.group (n + 1) word) (.seq (lit " port ") (.group (n + 2) (.plus digits.isDigit)))))

def methods : Regex := .alt (lit "publickey") (.alt (lit "password") (.alt (lit "keyboard-interactive") word))

def RE_ACCEPTED (digits : Digits) : Regex :=
  .seq (lit "Accepted ") (.seq (.group 1 methods) (.seq (lit " for ") (origin digits 2)))

def RE_FAILED (digits : Digits) : Regex :=
  .seq (lit "Failed ") (.seq word (.seq (lit " for ") (.seq (.opt (.group 1 (lit "invalid user "))) (origin digits 2))))

def RE_INVALID_USER (digits : Digits) : Regex := .seq (lit "Invalid user ") (origin digits 1)

/-! ## The parser -/

/-- `parse::<u16>()` of a text without a sign -/
def parseU16 (t : Text) : Option ℕ :=
  if t ≠ [] ∧ t.all Char.isDigit = true then
    let n := t.foldl (fun n c => 10 * n + (c.toNat - 48)) 0
    if n < 65536 then some n else none
  else none

def methodHint (m : Text) : AuthMethodHint :=
  if m = "publickey".toList then .publickey
  else if m = "password".toList then .password
  else if m = "keyboard-interactive".toList then .keyboardInteractive
  else .other

/-- `c[n]`, of a group that always takes part -/
def capture (c : ℕ → Option Text) (n : ℕ) : Text := (c n).getD []

def parseSshdLine (digits : Digits) (line : Text) : Option AuthAttempt :=
  match (RE_ACCEPTED digits).captures line with
  | some c => some ⟨.success (methodHint (capture c 1)), capture c 2, capture c 3, parseU16 (capture c 4)⟩
  | none =>
    match (RE_FAILED digits).captures line with
    | some c => some ⟨.failure (c 1).isSome, capture c 2, capture c 3, parseU16 (capture c 4)⟩
    | none =>
      match (RE_INVALID_USER digits).captures line with
      | some c => some ⟨.failure true, capture c 1, capture c 2, parseU16 (capture c 3)⟩
      | none => none

/-! ## The journal -/

/-- `u8::try_from(b.as_u64()?)` -/
def asByte : Json → Option UInt8
  | .num n => if 0 ≤ n ∧ n < 256 then some (UInt8.ofNat n.toNat) else none
  | _ => none

/-- `String::from_utf8` -/
def fromUtf8 (bytes : List UInt8) : Option Text := bytes.toByteArray.utf8Decode?.map Array.toList

def extractMessage (v : Json) : Option Text :=
  match v.get "MESSAGE".toList with
  | some (.str s) => some s
  | some (.arr bytes) => (bytes.mapM asByte).bind fromUtf8
  | _ => none

/-- what a line of `journalctl` sends on -/
def drainJournalLine (digits : Digits) (v : Json) : Option AuthAttempt := (extractMessage v).bind (parseSshdLine digits)

/-! ## auth.log -/

def trimEnd (s : Text) : Text := s.rdropWhile isWhiteSpace

def stripSyslogPrefix (line : Text) : Option Text := do
  let rest ← findText "sshd-session[".toList line <|> findText "sshd[".toList line
  let bracket ← findText "]: ".toList rest
  pure (bracket.drop 3)

/-- what a line of the log file sends on -/
def forwardAuthLogLine (digits : Digits) (line : Text) : Option AuthAttempt :=
  (stripSyslogPrefix (trimEnd line)).bind (parseSshdLine digits)

end ServerBee.SshLogins
