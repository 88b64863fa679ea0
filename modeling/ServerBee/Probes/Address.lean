/-
Addresses as texts and as targets (`std::net::IpAddr`, `common/src/ssrf.rs`).

A text is a list of characters. An IPv4 text has four decimal parts without leading zeros; an IPv6 text has eight groups of hex
digits, of which the last two can be written as an IPv4 text, and one `::` for any number of missing groups.
-/
import ServerBee.Firewall.Net
import ServerBee.Lib.Splits

namespace ServerBee.Probes

open ServerBee.Firewall ServerBee.Lib

/-! ## Texts -/

def isHexDigit (ch : Char) : Bool :=
  (decide ('0' ≤ ch) && decide (ch ≤ '9')) || (decide ('a' ≤ ch) && decide (ch ≤ 'f')) || (decide ('A' ≤ ch) && decide (ch ≤ 'F'))

def hexDigit (ch : Char) : ℕ :=
  if ch ≤ '9' then ch.toNat - '0'.toNat else if ch ≤ 'F' then ch.toNat - 'A'.toNat + 10 else ch.toNat - 'a'.toNat + 10

def readOctet (part : List Char) : Option ℕ :=
  let value := part.foldl (fun n ch => n * 10 + hexDigit ch) 0
  if part ≠ [] ∧ part.all Char.isDigit ∧ (part.head? = some '0' → part.length = 1) ∧ part.length ≤ 3 ∧ value < 256 then some value
  else none

def readGroup (part : List Char) : Option ℕ :=
  if part ≠ [] ∧ part.all isHexDigit ∧ part.length ≤ 4 then some (part.foldl (fun n ch => n * 16 + hexDigit ch) 0) else none

def readV4 (l : List Char) : Option ℕ :=
  match l.splitOn '.' with
  | [p, q, r, t] => (readOctet p).bind fun p => (readOctet q).bind fun q => (readOctet r).bind fun r => (readOctet t).map fun t =>
    ((p * 256 + q) * 256 + r) * 256 + t
  | _ => none

/-- the last part can be an IPv4 address, which is two groups -/
def readGroups : List (List Char) → Option (List ℕ)
  | [] => some []
  | [last] =>
    match readV4 last with
    | some value => some [value / 65536, value % 65536]
    | none => (readGroup last).map fun group => [group]
  | part :: parts => (readGroup part).bind fun group => (readGroups parts).map fun groups => group :: groups

/-- the groups on one side of `::` -/
def readSide (read : List (List Char) → Option (List ℕ)) (l : List Char) : Option (List ℕ) :=
  if l = [] then some [] else read (l.splitOn ':')

def readV6 (l : List Char) : Option ℕ :=
  let groups := match splitOnce [':', ':'] l with
    | none => (readGroups (l.splitOn ':')).bind fun groups => if groups.length = 8 then some groups else none
    | some (before, after) =>
      (readSide (fun parts => parts.mapM readGroup) before).bind fun before => (readSide readGroups after).bind fun after =>
        if before.length + after.length ≤ 7 then some (before ++ List.replicate (8 - before.length - after.length) 0 ++ after)
        else none
  groups.map fun groups => groups.foldl (fun n group => n * 65536 + group) 0

def toAddr (family : Family) (value : ℕ) : Option IpAddr :=
  if h : value < 2 ^ family.bits then some ⟨family, value, h⟩ else none

/-- `IpAddr::from_str` -/
def parseAddr (l : List Char) : Option IpAddr :=
  match readV4 l with
  | some value => toAddr .v4 value
  | none => (readV6 l).bind (toAddr .v6)

example : (parseAddr "169.254.169.254".toList).map IpAddr.value = some 0xa9fea9fe := by decide
example : (parseAddr "64:FF9B::127.0.0.1".toList).map IpAddr.value = some (0x64ff9b * 2 ^ 96 + 0x7f000001) := by decide
example : parseAddr "127.0.0.01".toList = none := by decide

/-! ## The characters of an address -/

/-- what occurs in the text of an address -/
def IsAddrChar (ch : Char) : Prop := isHexDigit ch = true ∨ ch = '.' ∨ ch = ':'

instance (ch : Char) : Decidable (IsAddrChar ch) := inferInstanceAs (Decidable (_ ∨ _))

theorem isHexDigit_of_isDigit {ch : Char} (h : ch.isDigit = true) : isHexDigit ch = true := by
  simp only [Char.isDigit, Bool.and_eq_true, decide_eq_true_eq] at h
  have h0 : '0' ≤ ch := h.1
  have h9 : ch ≤ '9' := h.2
  simp [isHexDigit, h0, h9]

theorem readOctet_digits {part : List Char} {value : ℕ} (h : readOctet part = some value) :
    ∀ ch ∈ part, ch.isDigit = true := by
  unfold readOctet at h
  dsimp only at h
  split_ifs at h with hpart
  exact List.all_eq_true.1 hpart.2.1

theorem readGroup_digits {part : List Char} {value : ℕ} (h : readGroup part = some value) :
    ∀ ch ∈ part, isHexDigit ch = true := by
  unfold readGroup at h
  split_ifs at h with hpart
  exact List.all_eq_true.1 hpart.2.1

theorem readV4_chars {l : List Char} {value : ℕ} (h : readV4 l = some value) : ∀ ch ∈ l, ch.isDigit = true ∨ ch = '.' := by
  intro ch hch
  by_cases hdot : ch = '.'
  · exact Or.inr hdot
  · obtain ⟨part, hpart, hmem⟩ := mem_splitOn l hch hdot
    unfold readV4 at h
    split at h
    · rename_i p q r t hparts
      simp only [Option.bind_eq_some_iff, Option.map_eq_some_iff] at h
      obtain ⟨_, hp, _, hq, _, hr, _, ht, -⟩ := h
      rw [hparts] at hpart
      simp only [List.mem_cons, List.not_mem_nil, or_false] at hpart
      left
      rcases hpart with rfl | rfl | rfl | rfl
      · exact readOctet_digits hp ch hmem
      · exact readOctet_digits hq ch hmem
      · exact readOctet_digits hr ch hmem
      · exact readOctet_digits ht ch hmem
    · cases h

theorem readGroups_chars {parts : List (List Char)} {groups : List ℕ} (h : readGroups parts = some groups) :
    ∀ part ∈ parts, ∀ ch ∈ part, IsAddrChar ch := by
  induction parts using readGroups.induct generalizing groups with
  | case1 => intro part hpart; cases hpart
  | case2 last value hvalue =>
    intro part hpart ch hch
    rw [List.mem_singleton.1 hpart] at hch
    exact (readV4_chars hvalue ch hch).imp isHexDigit_of_isDigit Or.inl
  | case3 last hnone =>
    intro part hpart ch hch
    rw [List.mem_singleton.1 hpart] at hch
    simp only [readGroups, hnone, Option.map_eq_some_iff] at h
    obtain ⟨_, hgroup, -⟩ := h
    exact Or.inl (readGroup_digits hgroup ch hch)
  | case4 part parts hne ih =>
    rw [readGroups] at h
    · simp only [Option.bind_eq_some_iff, Option.map_eq_some_iff] at h
      obtain ⟨_, hgroup, _, hgroups, -⟩ := h
      intro part' hpart ch hch
      rcases List.mem_cons.1 hpart with rfl | hpart
      · exact Or.inl (readGroup_digits hgroup ch hch)
      · exact ih hgroups part' hpart ch hch
    · exact hne

theorem mapM_readGroup_chars {parts : List (List Char)} {groups : List ℕ} (h : parts.mapM readGroup = some groups) :
    ∀ part ∈ parts, ∀ ch ∈ part, IsAddrChar ch := by
  induction parts generalizing groups with
  | nil => intro part hpart; cases hpart
  | cons part parts ih =>
    rw [List.mapM_cons] at h
    obtain ⟨_, hgroup, h⟩ := Option.bind_eq_some_iff.1 h
    obtain ⟨_, hgroups, -⟩ := Option.bind_eq_some_iff.1 h
    intro part' hpart ch hch
    rcases List.mem_cons.1 hpart with rfl | hpart
    · exact Or.inl (readGroup_digits hgroup ch hch)
    · exact ih hgroups part' hpart ch hch

/-- a reader of parts that takes address characters only, on the text between colons -/
theorem chars_of_splitOn {l : List Char} (h : ∀ part ∈ l.splitOn ':', ∀ ch ∈ part, IsAddrChar ch) : ∀ ch ∈ l, IsAddrChar ch := by
  intro ch hch
  by_cases hcolon : ch = ':'
  · exact Or.inr (Or.inr hcolon)
  · obtain ⟨part, hpart, hmem⟩ := mem_splitOn l hch hcolon
    exact h part hpart ch hmem

theorem readSide_chars {read : List (List Char) → Option (List ℕ)}
    (hread : ∀ parts groups, read parts = some groups → ∀ part ∈ parts, ∀ ch ∈ part, IsAddrChar ch) {l : List Char}
    {groups : List ℕ} (h : readSide read l = some groups) : ∀ ch ∈ l, IsAddrChar ch := by
  unfold readSide at h
  split_ifs at h with hnil
  · intro ch hch
    rw [hnil] at hch
    cases hch
  · exact chars_of_splitOn (hread _ _ h)

theorem readV6_chars {l : List Char} {value : ℕ} (h : readV6 l = some value) : ∀ ch ∈ l, IsAddrChar ch := by
  simp only [readV6, Option.map_eq_some_iff] at h
  obtain ⟨groups, h, -⟩ := h
  split at h
  · obtain ⟨_, hgroups, -⟩ := Option.bind_eq_some_iff.1 h
    exact chars_of_splitOn (readGroups_chars hgroups)
  · rename_i before after hsplit
    obtain ⟨_, hbefore, h⟩ := Option.bind_eq_some_iff.1 h
    obtain ⟨_, hafter, -⟩ := Option.bind_eq_some_iff.1 h
    intro ch hch
    rw [splitOnce_eq_some hsplit] at hch
    rcases List.mem_append.1 hch with hch | hch
    · rcases List.mem_append.1 hch with hch | hch
      · exact readSide_chars (fun _ _ => mapM_readGroup_chars) hbefore ch hch
      · exact Or.inr (Or.inr (by simpa using hch))
    · exact readSide_chars (fun _ _ => readGroups_chars) hafter ch hch

theorem parseAddr_chars {l : List Char} {ip : IpAddr} (h : parseAddr l = some ip) : ∀ ch ∈ l, IsAddrChar ch := by
  unfold parseAddr at h
  split at h
  · rename_i value hvalue
    intro ch hch
    exact (readV4_chars hvalue ch hch).imp isHexDigit_of_isDigit Or.inl
  · obtain ⟨_, hvalue, -⟩ := Option.bind_eq_some_iff.1 h
    exact readV6_chars hvalue

/-- a text with one colon is no address -/
theorem parseAddr_eq_none_of_one_colon {before after : List Char} (hbefore : ':' ∉ before) (hafter : ':' ∉ after) :
    parseAddr (before ++ ':' :: after) = none := by
  have hv4 : readV4 (before ++ ':' :: after) = none := by
    cases h : readV4 (before ++ ':' :: after) with
    | none => rfl
    | some value => exact absurd (readV4_chars h ':' (by simp)) (by decide)
  have hsplit : (before ++ ':' :: after).splitOn ':' = [before, after] := by
    rw [List.splitOn_append_cons_self_of_not_mem hbefore, List.splitOn_eq_singleton hafter]
  have honce : splitOnce [':', ':'] (before ++ ':' :: after) = none := by
    cases h : splitOnce [':', ':'] (before ++ ':' :: after) with
    | none => rfl
    | some parts =>
      have hcount := congrArg (List.count ':') (splitOnce_eq_some h)
      simp only [List.count_append, List.count_cons_self, List.count_eq_zero.2 hbefore, List.count_eq_zero.2 hafter,
        List.count_nil] at hcount
      omega
  have hgroups : (readGroups [before, after]).bind (fun groups => if groups.length = 8 then some groups else none) = none := by
    cases h : readGroups [before, after] with
    | none => rfl
    | some groups =>
      simp only [readGroups, Option.bind_eq_some_iff, Option.map_eq_some_iff] at h
      obtain ⟨group, -, rest, hrest, rfl⟩ := h
      have hlen : rest.length ≤ 2 := by
        split at hrest
        · cases hrest
          exact le_rfl
        · obtain ⟨_, -, rfl⟩ := Option.map_eq_some_iff.1 hrest
          exact Nat.le_succ 1
      rw [Option.bind_some, if_neg]
      simp only [List.length_cons]
      omega
  unfold parseAddr
  rw [hv4]
  simp only [readV6, honce, hsplit, hgroups]
  rfl

/-! ## Ranges -/

/-- the octets of an IPv4 address -/
def octet (value i : ℕ) : ℕ := value / 256 ^ (3 - i) % 256

/-- the segments of an IPv6 address -/
def segment (value i : ℕ) : ℕ := value / 65536 ^ (7 - i) % 65536

def isLoopbackV4 (v4 : ℕ) : Bool := octet v4 0 == 127

def isPrivate (v4 : ℕ) : Bool :=
  octet v4 0 == 10 || (octet v4 0 == 172 && decide (16 ≤ octet v4 1 ∧ octet v4 1 ≤ 31)) || (octet v4 0 == 192 && octet v4 1 == 168)

def isLinkLocalV4 (v4 : ℕ) : Bool := octet v4 0 == 169 && octet v4 1 == 254

def isBroadcast (v4 : ℕ) : Bool := v4 == 0xffffffff

def isThisNetwork (v4 : ℕ) : Bool := octet v4 0 == 0

def isDocumentationV4 (v4 : ℕ) : Bool :=
  (octet v4 0 == 192 && octet v4 1 == 0 && octet v4 2 == 2) || (octet v4 0 == 198 && octet v4 1 == 51 && octet v4 2 == 100) ||
    (octet v4 0 == 203 && octet v4 1 == 0 && octet v4 2 == 113)

def isShared (v4 : ℕ) : Bool := octet v4 0 == 100 && octet v4 1 / 64 == 1

/-- of an IPv4-mapped or IPv4-compatible address -/
def toIpv4 (v6 : ℕ) : Option ℕ :=
  if (segment v6 0 = 0 ∧ segment v6 1 = 0 ∧ segment v6 2 = 0 ∧ segment v6 3 = 0 ∧ segment v6 4 = 0) ∧
      (segment v6 5 = 0 ∨ segment v6 5 = 0xffff) then some (v6 % 2 ^ 32) else none

def isLoopbackV6 (v6 : ℕ) : Bool := v6 == 1

def isUnspecified (v6 : ℕ) : Bool := v6 == 0

def isLinkLocalV6 (v6 : ℕ) : Bool := segment v6 0 / 64 == 0xfe80 / 64

def isUniqueLocal (v6 : ℕ) : Bool := segment v6 0 / 512 == 0xfc00 / 512

def isDocumentationV6 (v6 : ℕ) : Bool := segment v6 0 == 0x2001 && segment v6 1 == 0x0db8

def isNat64 (v6 : ℕ) : Bool :=
  segment v6 0 == 0x0064 && segment v6 1 == 0xff9b && segment v6 2 == 0 && segment v6 3 == 0 && segment v6 4 == 0 &&
    segment v6 5 == 0

def isGlobalV4 (v4 : ℕ) : Bool :=
  !isLoopbackV4 v4 && !isPrivate v4 && !isLinkLocalV4 v4 && !isBroadcast v4 && !isThisNetwork v4 && !isDocumentationV4 v4 &&
    !isShared v4

def isGlobalAddr (addr : IpAddr) : Bool :=
  match addr.family with
  | .v4 => isGlobalV4 addr.value
  | .v6 =>
    match toIpv4 addr.value with
    | some v4 => isGlobalV4 v4
    | none => !isLoopbackV6 addr.value && !isUnspecified addr.value && !isLinkLocalV6 addr.value &&
      !isUniqueLocal addr.value && !isDocumentationV6 addr.value && !isNat64 addr.value

def isMonitorSafeV4 (v4 : ℕ) : Bool := !isLoopbackV4 v4 && !isLinkLocalV4 v4 && !isBroadcast v4 && !isThisNetwork v4

def isMonitorSafeAddr (addr : IpAddr) : Bool :=
  match addr.family with
  | .v4 => isMonitorSafeV4 addr.value
  | .v6 =>
    match toIpv4 addr.value with
    | some v4 => isMonitorSafeV4 v4
    | none => !isLoopbackV6 addr.value && !isUnspecified addr.value && !isLinkLocalV6 addr.value && !isNat64 addr.value

theorem isMonitorSafeV4_of_isGlobalV4 {v4 : ℕ} (h : isGlobalV4 v4 = true) : isMonitorSafeV4 v4 = true := by
  simp only [isGlobalV4, Bool.and_eq_true] at h
  obtain ⟨⟨⟨⟨⟨⟨hloopback, -⟩, hlink⟩, hbroadcast⟩, hthis⟩, -⟩, -⟩ := h
  simp [isMonitorSafeV4, hloopback, hlink, hbroadcast, hthis]

theorem isMonitorSafeAddr_of_isGlobalAddr {addr : IpAddr} (h : isGlobalAddr addr = true) : isMonitorSafeAddr addr = true := by
  unfold isGlobalAddr at h
  unfold isMonitorSafeAddr
  cases hfamily : addr.family with
  | v4 =>
    rw [hfamily] at h
    exact isMonitorSafeV4_of_isGlobalV4 h
  | v6 =>
    rw [hfamily] at h
    cases hv4 : toIpv4 addr.value with
    | some v4 =>
      rw [hv4] at h
      exact isMonitorSafeV4_of_isGlobalV4 h
    | none =>
      rw [hv4] at h
      simp only [Bool.and_eq_true] at h
      obtain ⟨⟨⟨⟨⟨hloopback, hunspecified⟩, hlink⟩, -⟩, -⟩, hnat⟩ := h
      simp [hloopback, hunspecified, hlink, hnat]

end ServerBee.Probes
