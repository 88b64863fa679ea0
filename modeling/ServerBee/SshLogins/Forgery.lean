/-
Which address a line of sshd is attributed to.

An `SshdLine` is what sshd wrote, a `Delivery` how its text reaches the agent. The attempt that the agent reads has the kind
and the address of the line exactly for the lines that are `Harmless`:
  1. no beginning of the user name is itself a name with an address and a port, other than the line's (`Names`),
  2. behind the tag `sshd[pid]: `, the line holds no `sshd-session[`, or what follows the next `]: ` is no other attempt.
Nothing keeps a client from choosing a name that fails both.
-/
import ServerBee.SshLogins.Grammar

namespace ServerBee.SshLogins

open ServerBee.Lib

/-! ## What sshd writes -/

structure Method where
  text : Text
  no_space : ' ' ∉ text

inductive Form where
  | accepted (method : Method)
  | failed (method : Method) (invalidUser : Bool)
  | invalidUser

def Form.kind : Form → Kind
  | .accepted _ => .success
  | .failed .. | .invalidUser => .failure

/-- a line with the name that the client chose and the address that it has; the tail is whatever follows -/
structure SshdLine where
  form : Form
  user : Text
  ip : Text
  port : Text
  tail : Text
  ip_word : Word ip
  port_ne : port ≠ []
  port_digits : ∀ d ∈ port, d.isDigit = true

namespace SshdLine

/-- `<user> from <ip> port <port><tail>` -/
def origin (l : SshdLine) : Text := l.user ++ (" from ".toList ++ (l.ip ++ (" port ".toList ++ (l.port ++ l.tail))))

def message (l : SshdLine) : Text :=
  match l.form with
  | .accepted m => "Accepted ".toList ++ (m.text ++ (" for ".toList ++ l.origin))
  | .failed m false => "Failed ".toList ++ (m.text ++ (" for ".toList ++ l.origin))
  | .failed m true => "Failed ".toList ++ (m.text ++ (" for invalid user ".toList ++ l.origin))
  | .invalidUser => "Invalid user ".toList ++ l.origin

end SshdLine

/-! ## How it reaches the agent -/

/-- `<date> <host> sshd[<pid>]: ` -/
structure SyslogHead where
  before : Text
  session : Bool
  pid : Text
  no_bracket : '[' ∉ before
  pid_digits : ∀ d ∈ pid, d.isDigit = true

def SyslogHead.tag (h : SyslogHead) : Text := if h.session then "sshd-session".toList else "sshd".toList

def SyslogHead.text (h : SyslogHead) : Text := h.before ++ (h.tag ++ '[' :: (h.pid ++ "]: ".toList))

/-- a binary field of the journal -/
def byteArray (m : Text) : Json := .arr ((Json.utf8 m).map fun b => .num b.toNat)

inductive Delivery (m : Text) where
  | journal (v : Json) (h : v.get "MESSAGE".toList = some (.str m) ∨ v.get "MESSAGE".toList = some (byteArray m))
  | authLog (head : SyslogHead)

def Delivery.attempt {m : Text} (digits : Digits) : Delivery m → Option AuthAttempt
  | .journal v _ => drainJournalLine digits v
  | .authLog head => forwardAuthLogLine digits (head.text ++ m)

/-! ## Names that carry an address -/

/-- the user name of a line begins like a name with an address and a port -/
inductive Names (digits : Digits) : Form → Text → Text → Prop
  | opens {form : Form} {user ip : Text} (h : Opens digits user ip) : Names digits form user ip
  | flagged {m : Method} {r ip : Text} (h : Opens digits r ip) : Names digits (.failed m false) ("invalid user ".toList ++ r) ip

/-- the method of the line can be read -/
def Form.Readable : Form → Prop
  | .accepted m | .failed m _ => Word m.text
  | .invalidUser => True

def SshdLine.Honest (digits : Digits) (l : SshdLine) : Prop :=
  l.form.Readable → ∀ ip, Names digits l.form l.user ip → ip = l.ip

/-- everything that the text can be read as has the kind and the address of the line -/
def SshdLine.ReadsOnly (digits : Digits) (l : SshdLine) (t : Text) : Prop :=
  ∀ k ip, ReadsAs digits t k ip → k = l.form.kind ∧ ip = l.ip

def Harmless (digits : Digits) (l : SshdLine) : Delivery l.message → Prop
  | .journal .. => l.Honest digits
  | .authLog head =>
    if head.session then l.Honest digits
    else
      match findText "sshd-session[".toList (trimEnd l.message) with
      | none => l.Honest digits
      | some rest => ∀ after, findText "]: ".toList rest = some after → l.ReadsOnly digits (after.drop 3)

/-- every attempt is attributed to the line's address, with the line's outcome -/
def Faithful (digits : Digits) (l : SshdLine) (d : Delivery l.message) : Prop :=
  ∀ a, d.attempt digits = some a → a.outcome.kind = l.form.kind ∧ a.sourceIp = l.ip

/-! ## Readings of a line -/

variable {digits : Digits}

theorem SshdLine.origin_eq (digits : Digits) (l : SshdLine) :
    ∃ p z, digits.isDigit p = true ∧ l.port ++ l.tail = p :: z ∧ l.origin = l.user ++ fromPort l.ip (p :: z) := by
  obtain ⟨p, port, hport⟩ := List.exists_cons_of_ne_nil l.port_ne
  have hp : p.isDigit = true := l.port_digits p (by rw [hport]; exact List.mem_cons_self)
  have hrange : 48 ≤ p.toNat ∧ p.toNat ≤ 57 := by
    simp only [Char.isDigit, Bool.and_eq_true, decide_eq_true_eq] at hp
    exact ⟨hp.1, hp.2⟩
  refine ⟨p, port ++ l.tail, (digits.ascii p (by omega)).2 hrange, by rw [hport]; rfl, ?_⟩
  rw [origin, hport]
  rfl

theorem SshdLine.opens_origin (l : SshdLine) {ip : Text} :
    Opens digits l.origin ip ↔ (Word l.user ∧ ip = l.ip) ∨ Opens digits l.user ip := by
  obtain ⟨p, z, hp, -, ho⟩ := l.origin_eq digits
  rw [ho]
  exact opens_line l.ip_word hp

/-- what stands behind `invalid user ` in an origin, if the origin begins so -/
theorem SshdLine.opens_behind (l : SshdLine) {r ip : Text} (hr : l.origin = invalidUser r) (h : Opens digits r ip) :
    ip = l.ip ∨ ∃ r', l.user = invalidUser r' ∧ Opens digits r' ip := by
  obtain ⟨p, z, hp, -, ho⟩ := l.origin_eq digits
  rw [ho] at hr
  rcases split_at word_invalid hr.symm with ⟨huser, hx⟩ | ⟨n₁, huser, h₁⟩
  · exact absurd (words_eq word_user word_from hx).1 (by decide)
  rcases split_at word_user h₁ with ⟨rfl, rfl⟩ | ⟨n₂, rfl, rfl⟩
  · exact absurd h (not_opens_from l.ip_word hp)
  · rcases (opens_line l.ip_word hp).1 h with ⟨-, rfl⟩ | h
    · exact Or.inl rfl
    · exact Or.inr ⟨n₂, huser, h⟩

/-- a line reads as the line it is, or at an address that its name carries -/
theorem SshdLine.reads (l : SshdLine) {k : Kind} {ip : Text} (h : ReadsAs digits l.message k ip) :
    k = l.form.kind ∧ l.form.Readable ∧ (ip = l.ip ∨ Names digits l.form l.user ip) := by
  have horigin : ∀ form, Opens digits l.origin ip → ip = l.ip ∨ Names digits form l.user ip := by
    intro form h
    rcases l.opens_origin.1 h with ⟨-, rfl⟩ | h
    · exact Or.inl rfl
    · exact Or.inr (.opens h)
  unfold message at h
  split at h
  next m hform =>
    obtain ⟨hm, rfl, hz⟩ := (readsAs_accepted m.no_space).1 h
    rw [hform]
    exact ⟨rfl, hm, horigin _ hz⟩
  next m hform =>
    obtain ⟨hm, rfl, hz | ⟨r, hr, hz⟩⟩ := (readsAs_failed m.no_space).1 h
    · rw [hform]
      exact ⟨rfl, hm, horigin _ hz⟩
    · rw [hform]
      refine ⟨rfl, hm, ?_⟩
      rcases l.opens_behind hr hz with rfl | ⟨r', huser, hr'⟩
      · exact Or.inl rfl
      · exact Or.inr (by rw [huser]; exact .flagged hr')
  next m hform =>
    change ReadsAs digits (opening "Failed" m.text (invalidUser l.origin)) k ip at h
    obtain ⟨hm, rfl, hz | ⟨r, hr, hz⟩⟩ := (readsAs_failed m.no_space).1 h
    · exact absurd hz not_opens_invalidUser
    · rw [hform]
      rw [← invalidUser_inj hr] at hz
      exact ⟨rfl, hm, horigin _ hz⟩
  next hform =>
    obtain ⟨rfl, hz⟩ := readsAs_invalid.1 h
    rw [hform]
    exact ⟨rfl, trivial, horigin _ hz⟩

/-- a name that carries an address is read at it -/
theorem SshdLine.reads_names (l : SshdLine) {ip : Text} (hread : l.form.Readable) (h : Names digits l.form l.user ip) :
    ReadsAs digits l.message l.form.kind ip := by
  have horigin : Opens digits l.user ip → Opens digits l.origin ip := fun h => l.opens_origin.2 (Or.inr h)
  obtain ⟨p, z, hp, -, ho⟩ := l.origin_eq digits
  unfold message
  split
  next m hform =>
    rw [hform] at hread h ⊢
    cases h with
    | opens h => exact (readsAs_accepted m.no_space).2 ⟨hread, rfl, horigin h⟩
  next m hform =>
    rw [hform] at hread h ⊢
    generalize huser : l.user = user at h
    cases h with
    | opens h =>
      subst huser
      exact (readsAs_failed m.no_space).2 ⟨hread, rfl, Or.inl (horigin h)⟩
    | flagged h =>
      refine (readsAs_failed m.no_space).2 ⟨hread, rfl, Or.inr ⟨_ ++ fromPort l.ip (p :: z), ?_, (opens_line l.ip_word hp).2 (Or.inr h)⟩⟩
      rw [ho, huser]
      rfl
  next m hform =>
    rw [hform] at hread h ⊢
    cases h with
    | opens h => exact (readsAs_failed m.no_space).2 ⟨hread, rfl, Or.inr ⟨_, rfl, horigin h⟩⟩
  next hform =>
    rw [hform] at hread h ⊢
    cases h with
    | opens h => exact readsAs_invalid.2 ⟨rfl, horigin h⟩

theorem SshdLine.readsOnly_iff (l : SshdLine) : l.ReadsOnly digits l.message ↔ l.Honest digits := by
  constructor
  · intro h hread ip hname
    exact (h _ _ (l.reads_names hread hname)).2
  · intro h k ip hreads
    obtain ⟨hk, hread, rfl | hname⟩ := l.reads hreads
    · exact ⟨hk, rfl⟩
    · exact ⟨hk, h hread ip hname⟩

/-! ## What the agent takes out of a delivery -/

theorem asByte_num (b : UInt8) : asByte (.num b.toNat) = some b := by
  have hb := b.toNat_lt
  have hrange : (0 : ℤ) ≤ b.toNat ∧ (b.toNat : ℤ) < 256 := ⟨by omega, by omega⟩
  simp only [asByte, hrange, and_self, if_true, Int.toNat_natCast, UInt8.ofNat_toNat]

theorem extractMessage_binary {v : Json} {m : Text} (h : v.get "MESSAGE".toList = some (byteArray m)) :
    extractMessage v = some m := by
  have hbytes : ∀ bytes : List UInt8, (bytes.map fun b => Json.num b.toNat).mapM asByte = some bytes := by
    intro bytes
    induction bytes with
    | nil => rfl
    | cons b bytes ih =>
      rw [List.map_cons, List.mapM_cons, asByte_num, ih]
      rfl
  unfold extractMessage
  rw [h, byteArray]
  simp only [hbytes, Option.bind_some, fromUtf8]
  change ((m.utf8Encode).utf8Decode?).map Array.toList = some m
  rw [List.utf8Decode?_utf8Encode]
  rfl

theorem attempt_journal {m : Text} (v : Json)
    (h : v.get "MESSAGE".toList = some (.str m) ∨ v.get "MESSAGE".toList = some (byteArray m)) :
    (Delivery.journal v h).attempt digits = parseSshdLine digits m := by
  have hmessage : extractMessage v = some m := by
    rcases h with h | h
    · unfold extractMessage
      rw [h]
    · exact extractMessage_binary h
  rw [Delivery.attempt, drainJournalLine, hmessage]
  rfl

/-- a digit is no white space -/
theorem isWhiteSpace_digit {d : Char} (h : d.isDigit = true) : isWhiteSpace d = false := by
  have hrange : 48 ≤ d.toNat ∧ d.toNat ≤ 57 := by
    simp only [Char.isDigit, Bool.and_eq_true, decide_eq_true_eq] at h
    exact ⟨h.1, h.2⟩
  simp only [isWhiteSpace, Bool.or_eq_false_iff, Bool.and_eq_false_iff, decide_eq_false_iff_not, beq_eq_false_iff_ne]
  omega

theorem trimEnd_append {c : Char} (hc : isWhiteSpace c = false) (a b : Text) : trimEnd (a ++ c :: b) = a ++ c :: trimEnd b := by
  induction b using List.reverseRecOn with
  | nil =>
    rw [trimEnd, List.rdropWhile_concat_neg _ _ _ (by rw [hc]; exact Bool.false_ne_true)]
    rfl
  | append_singleton b d ih =>
    rw [← List.cons_append, ← List.append_assoc, trimEnd, trimEnd, List.rdropWhile_concat, List.rdropWhile_concat]
    split_ifs
    · exact ih
    · rw [List.append_assoc, List.cons_append]

/-- a line without the white space behind it -/
def SshdLine.trimmed (l : SshdLine) : SshdLine := { l with tail := trimEnd l.tail }

/-- a line is its form's opening and its origin -/
theorem SshdLine.message_eq (form : Form) :
    ∃ first : Text, ∀ l : SshdLine, l.form = form → l.message = first ++ l.origin := by
  unfold message
  cases form with
  | accepted m =>
    refine ⟨"Accepted ".toList ++ (m.text ++ " for ".toList), fun l hl => ?_⟩
    simp only [hl, List.append_assoc]
  | failed m flag =>
    cases flag with
    | false =>
      refine ⟨"Failed ".toList ++ (m.text ++ " for ".toList), fun l hl => ?_⟩
      simp only [hl, List.append_assoc]
    | true =>
      refine ⟨"Failed ".toList ++ (m.text ++ " for invalid user ".toList), fun l hl => ?_⟩
      simp only [hl, List.append_assoc]
  | invalidUser =>
    refine ⟨"Invalid user ".toList, fun l hl => ?_⟩
    simp only [hl]

/-- the tail of a line follows a digit -/
theorem SshdLine.message_tail (l : SshdLine) :
    ∃ a d, d.isDigit = true ∧ ∀ tail, { l with tail := tail }.message = a ++ d :: tail := by
  obtain ⟨ds, d, hport⟩ := (List.eq_nil_or_concat' l.port).resolve_left l.port_ne
  have hd : d.isDigit = true := l.port_digits d (by rw [hport]; exact List.mem_append_right _ List.mem_cons_self)
  obtain ⟨first, hfirst⟩ := message_eq l.form
  refine ⟨first ++ (l.user ++ (" from ".toList ++ (l.ip ++ (" port ".toList ++ ds)))), d, hd, fun tail => ?_⟩
  rw [hfirst { l with tail := tail } rfl]
  simp only [origin, hport, List.append_assoc, List.singleton_append]

theorem SshdLine.trimEnd_behind (l : SshdLine) (head : Text) : trimEnd (head ++ l.message) = head ++ l.trimmed.message := by
  obtain ⟨a, d, hd, hm⟩ := l.message_tail
  have hmessage : l.message = a ++ d :: l.tail := hm l.tail
  have htrimmed : l.trimmed.message = a ++ d :: trimEnd l.tail := hm (trimEnd l.tail)
  rw [hmessage, htrimmed, ← List.append_assoc, trimEnd_append (isWhiteSpace_digit hd), List.append_assoc]

/-! ## The process tag -/

theorem findText_tag {t before : Text} (y : Text) (ht : '[' ∉ t) (hbefore : '[' ∉ before) :
    findText (t ++ ['[']) (before ++ (t ++ '[' :: y)) = some (t ++ '[' :: y) := by
  have hhere : findText (t ++ ['[']) (t ++ ['['] ++ y) = some (t ++ ['['] ++ y) := findText_here (by simp)
  rw [List.append_assoc, List.singleton_append] at hhere
  rw [findText_append, hhere]
  rintro b e rfl he ⟨w, hw⟩
  have hwords : t ++ '[' :: w = (e ++ t) ++ '[' :: y := by
    rw [List.append_assoc, ← hw, List.append_assoc]
    rfl
  have hlast : '[' ∉ e ++ t := by
    rw [List.mem_append, not_or]
    exact ⟨fun h => hbefore (List.mem_append_right _ h), ht⟩
  exact he (List.append_left_eq_self.1 (words_eq ht hlast hwords).1.symm)

/-- `sshd` does not end in the longer tag -/
theorem findText_session {before : Text} (y : Text) (hbefore : '[' ∉ before) :
    findText "sshd-session[".toList (before ++ ("sshd".toList ++ '[' :: y)) = findText "sshd-session[".toList ('[' :: y) := by
  rw [← List.append_assoc]
  apply findText_append
  rintro b e hbe he ⟨w, hw⟩
  have hmem : ∀ d ∈ e, d ∈ before ++ "sshd".toList := fun d hd => by rw [hbe]; exact List.mem_append_right _ hd
  have hbracket : '[' ∉ e := fun h => by
    rcases List.mem_append.1 (hmem _ h) with h | h
    · exact hbefore h
    · exact absurd h (by decide)
  have htag : "sshd-session".toList = e := (words_eq (by decide) hbracket hw).1
  have hlast : (before ++ "sshd".toList).getLast? = some 'd' := by
    rw [List.getLast?_append]
    rfl
  rw [hbe, ← htag, List.getLast?_append] at hlast
  have hchar : 'n' = 'd' := Option.some.inj hlast
  exact absurd hchar (by decide)

theorem SyslogHead.no_close (h : SyslogHead) : ']' ∉ h.pid := fun hmem => absurd (h.pid_digits _ hmem) (by decide)

theorem findText_close {h : SyslogHead} {t : Text} (x : Text) (ht : ']' ∉ t) :
    findText "]: ".toList (t ++ '[' :: (h.pid ++ ("]: ".toList ++ x))) = some ("]: ".toList ++ x) := by
  have hskip : findText "]: ".toList ((t ++ '[' :: h.pid) ++ ("]: ".toList ++ x)) = findText "]: ".toList ("]: ".toList ++ x) := by
    apply findText_skip
    simp only [List.mem_append, List.mem_cons, not_or]
    exact ⟨ht, by decide, h.no_close⟩
  rw [findText_here (by decide)] at hskip
  rw [← hskip, List.append_assoc]
  rfl

theorem strip_session {h : SyslogHead} (hs : h.session = true) (x : Text) : stripSyslogPrefix (h.text ++ x) = some x := by
  have htext : h.text ++ x = h.before ++ ("sshd-session".toList ++ '[' :: (h.pid ++ ("]: ".toList ++ x))) := by
    simp only [SyslogHead.text, SyslogHead.tag, hs, if_true, List.append_assoc, List.cons_append]
  have htag := findText_tag (h.pid ++ ("]: ".toList ++ x)) (t := "sshd-session".toList) (by decide) h.no_bracket
  have hclose := findText_close (h := h) (t := "sshd-session".toList) x (by decide)
  rw [stripSyslogPrefix, htext]
  change ((findText ("sshd-session".toList ++ ['[']) _ <|> _) >>= _) = _
  rw [htag]
  change (findText "]: ".toList _ >>= _) = _
  rw [hclose]
  rfl

/-- what is taken out of a line with the tag `sshd[pid]: ` -/
theorem strip_sshd {h : SyslogHead} (hs : h.session = false) (x : Text) :
    stripSyslogPrefix (h.text ++ x) =
      match findText "sshd-session[".toList x with
      | none => some x
      | some rest => (findText "]: ".toList rest).map (List.drop 3) := by
  have htext : h.text ++ x = h.before ++ ("sshd".toList ++ '[' :: (h.pid ++ ("]: ".toList ++ x))) := by
    simp only [SyslogHead.text, SyslogHead.tag, hs, Bool.false_eq_true, if_false, List.append_assoc, List.cons_append]
  have hlong : findText "sshd-session[".toList (h.text ++ x) = findText "sshd-session[".toList x := by
    have hskip : findText "sshd-session[".toList (('[' :: (h.pid ++ "]: ".toList)) ++ x) = findText "sshd-session[".toList x := by
      apply findText_skip
      simp only [List.mem_append, List.mem_cons, not_or]
      exact ⟨by decide, fun hmem => absurd (h.pid_digits _ hmem) (by decide), by decide⟩
    rw [htext, findText_session _ h.no_bracket, ← hskip, List.cons_append, List.append_assoc]
  have htag := findText_tag (h.pid ++ ("]: ".toList ++ x)) (t := "sshd".toList) (by decide) h.no_bracket
  have hclose := findText_close (h := h) (t := "sshd".toList) x (by decide)
  rw [stripSyslogPrefix, hlong]
  split
  next hnone =>
    rw [hnone, htext]
    change (findText ("sshd".toList ++ ['[']) _ >>= _) = _
    rw [htag]
    change (findText "]: ".toList _ >>= _) = _
    rw [hclose]
    rfl
  next rest hrest =>
    rw [hrest]
    change (findText "]: ".toList rest >>= _) = _
    cases findText "]: ".toList rest <;> rfl

/-! ## Attribution -/

/-- **Attribution.** A line of sshd is attributed to its own address, with its own outcome, exactly if it is harmless. -/
theorem faithful_iff_harmless (digits : Digits) (l : SshdLine) (d : Delivery l.message) :
    Faithful digits l d ↔ Harmless digits l d := by
  have hhonest : l.trimmed.ReadsOnly digits l.trimmed.message ↔ l.Honest digits := l.trimmed.readsOnly_iff
  cases d with
  | journal v h =>
    unfold Faithful Harmless
    rw [attempt_journal, parseSshdLine_all]
    exact l.readsOnly_iff
  | authLog head =>
    have hattempt : (Delivery.authLog (m := l.message) head).attempt digits =
        (stripSyslogPrefix (head.text ++ l.trimmed.message)).bind (parseSshdLine digits) := by
      rw [Delivery.attempt, forwardAuthLogLine, l.trimEnd_behind]
    have htrim : trimEnd l.message = l.trimmed.message := l.trimEnd_behind []
    unfold Faithful Harmless
    rw [hattempt]
    dsimp only
    rw [htrim]
    cases hs : head.session with
    | true =>
      simp only [if_true]
      rw [strip_session hs, Option.bind_some, parseSshdLine_all]
      exact hhonest
    | false =>
      simp only [Bool.false_eq_true, if_false]
      rw [strip_sshd hs]
      cases findText "sshd-session[".toList l.trimmed.message with
      | none =>
        dsimp only
        rw [Option.bind_some, parseSshdLine_all]
        exact hhonest
      | some rest =>
        dsimp only
        cases findText "]: ".toList rest with
        | none => simp
        | some after =>
          rw [Option.map_some, Option.bind_some, parseSshdLine_all]
          simp only [Option.some.injEq, forall_eq']
          rfl

/-- a wrong password for the name `root from 1.2.3.4 port 22`, sent from 203.0.113.9 -/
def namedAddress : SshdLine where
  form := .failed ⟨"password".toList, by decide⟩ false
  user := "root from 1.2.3.4 port 22".toList
  ip := "203.0.113.9".toList
  port := "5555".toList
  tail := " ssh2".toList
  ip_word := .of_all (by decide) (by decide)
  port_ne := by decide
  port_digits := List.all_eq_true.1 (by decide)

/-- an unknown user whose name is a whole line of the log -/
def namedLogin : SshdLine where
  form := .invalidUser
  user := "sshd-session[1]: Accepted password for root from 1.2.3.4 port 22".toList
  ip := "203.0.113.9".toList
  port := "5555".toList
  tail := []
  ip_word := .of_all (by decide) (by decide)
  port_ne := by decide
  port_digits := List.all_eq_true.1 (by decide)

def journalEntry (m : Text) : Delivery m := .journal (.obj [("MESSAGE".toList, .str m)]) (Or.inl rfl)

def logHead : SyslogHead := ⟨"Jan 02 03:04:05 host ".toList, false, "12".toList, by decide, List.all_eq_true.1 (by decide)⟩

def asciiDigits : Digits where
  isDigit c := c.isDigit
  ascii c _ := by simp only [Char.isDigit, Bool.and_eq_true, decide_eq_true_eq]; rfl

theorem namedAddress_attempt :
    (journalEntry namedAddress.message).attempt asciiDigits =
      some ⟨.failure false, "root".toList, "1.2.3.4".toList, some 22⟩ := by
  decide +kernel

theorem namedLogin_attempt :
    (Delivery.authLog (m := namedLogin.message) logHead).attempt asciiDigits =
      some ⟨.success .password, "root".toList, "1.2.3.4".toList, some 22⟩ := by
  decide +kernel

/-- the first is blamed on 1.2.3.4, the second makes 1.2.3.4 log in -/
theorem forged_attribution :
    ¬ Faithful asciiDigits namedAddress (journalEntry namedAddress.message) ∧
      ¬ Faithful asciiDigits namedLogin (.authLog logHead) := by
  constructor
  · intro h
    exact absurd (h _ namedAddress_attempt).2 (by decide)
  · intro h
    exact absurd (h _ namedLogin_attempt).1 (by decide)

end ServerBee.SshLogins
