/-
Probes and blocked addresses.

A TCP probe connects to the addresses that were checked, and a trace goes to the one that was checked. `ping` looks its host up
again after the check. An HTTP client connects to a bracketed IPv6 host as it is, while the guard looks the text with its brackets
up as a name. The two splitters differ on a port with a plus sign: it is a number for the agent and none for the server.
-/
import ServerBee.Probes.Model

namespace ServerBee.Probes

open ServerBee.Firewall ServerBee.Lib

/-! ## The guard -/

section Guard

variable {env : Env} {host : List Char} {addrs : List IpAddr}

theorem guardProbeTarget_eq_some (h : guardProbeTarget env host = some addrs) :
    addrs = env.lookup 0 host ∧ ∀ addr ∈ addrs, isMonitorSafeAddr addr = true := by
  unfold guardProbeTarget at h
  dsimp only at h
  split_ifs at h with hbad
  have heq := Option.some.inj h
  refine ⟨heq.symm, ?_⟩
  intro addr haddr
  by_contra hno
  exact hbad (Or.inr ⟨addr, heq ▸ haddr, by simpa using hno⟩)

theorem mem_of_mem_tries {accepts : IpAddr → Bool} {addr : IpAddr} (h : addr ∈ tries accepts addrs) : addr ∈ addrs := by
  induction addrs with
  | nil => exact h
  | cons head addrs ih =>
    simp only [tries] at h
    split_ifs at h
    · rw [List.mem_singleton.1 h]
      exact List.mem_cons_self
    · rcases List.mem_cons.1 h with rfl | h
      · exact List.mem_cons_self
      · exact List.mem_cons_of_mem _ (ih h)

theorem probeTcp_safe {target : List Char} : ∀ addr ∈ probeTcp env target, isMonitorSafeAddr addr = true := by
  intro addr haddr
  unfold probeTcp at haddr
  split at haddr
  · cases haddr
  · rename_i addrs hguard
    exact (guardProbeTarget_eq_some hguard).2 addr (mem_of_mem_tries haddr)

theorem spawnTraceroute_safe {target : List Char} : ∀ addr ∈ spawnTraceroute env target, isMonitorSafeAddr addr = true := by
  intro addr haddr
  unfold spawnTraceroute at haddr
  split at haddr
  · cases haddr
  · split_ifs at haddr with hsafe
    · rwa [List.mem_singleton.1 haddr]
    · cases haddr

/-- what `ping` looks up itself is safe, when the guard lets it begin -/
def SecondLookupSafe (env : Env) (host : List Char) : Prop :=
  (guardProbeTarget env host).isSome → ∀ addr ∈ (env.lookup 1 host).head?, isMonitorSafeAddr addr = true

theorem probeIcmp_safe_iff : (∀ addr ∈ probeIcmp env host, isMonitorSafeAddr addr = true) ↔ SecondLookupSafe env host := by
  unfold probeIcmp SecondLookupSafe
  cases guardProbeTarget env host with
  | none => simp
  | some addrs => simp

/-- a literal host has one answer only -/
theorem secondLookupSafe_of_literal {ip : IpAddr} (hip : parseAddr host = some ip) : SecondLookupSafe env host := by
  intro hsome
  obtain ⟨addrs, hguard⟩ := Option.isSome_iff_exists.1 hsome
  obtain ⟨rfl, hsafe⟩ := guardProbeTarget_eq_some hguard
  simp only [Env.lookup, hip] at hsafe ⊢
  intro addr haddr
  exact hsafe addr (by simpa [eq_comm] using haddr)

end Guard

section Http

variable (parseUrl : List Char → Option Url) (env : Env)

/-- a bracketed host that the guard lets pass is safe -/
def BracketedHostSafe (url : List Char) : Prop :=
  ∀ host inner ip, (validateMonitorUrl parseUrl (normalizedUrl url)).bind Url.hostStr = some host →
    bracketed host = some (inner, none) → parseAddr inner = some ip → (guardProbeTarget env host).isSome →
      isMonitorSafeAddr ip = true

theorem probeHttp_safe_iff (url : List Char) :
    (∀ addr ∈ probeHttp parseUrl env url, isMonitorSafeAddr addr = true) ↔ BracketedHostSafe parseUrl env url := by
  unfold probeHttp BracketedHostSafe
  cases hhost : (validateMonitorUrl parseUrl (normalizedUrl url)).bind Url.hostStr with
  | none => simp
  | some host =>
    dsimp only
    cases hguard : guardProbeTarget env host with
    | none =>
      simp only [List.not_mem_nil, false_imp_iff, implies_true, true_iff]
      intro host' inner ip heq _ _ hsome
      rw [← Option.some.inj heq, hguard] at hsome
      cases hsome
    | some addrs =>
      obtain ⟨haddrs, hsafe⟩ := guardProbeTarget_eq_some hguard
      -- a host without brackets was checked as it is
      have hplain {ip : IpAddr} (hip : parseAddr host = some ip) : isMonitorSafeAddr ip = true := by
        apply hsafe
        rw [haddrs]
        simp [Env.lookup, hip]
      have htries : ∀ addr ∈ tries env.accepts addrs, isMonitorSafeAddr addr = true :=
        fun addr haddr => hsafe addr (mem_of_mem_tries haddr)
      constructor
      · intro h host' inner ip heq hbracketed hinner _
        obtain rfl := Option.some.inj heq
        simp only [literalHost, hbracketed, hinner] at h
        exact h ip (List.mem_singleton_self ip)
      · intro h addr haddr
        cases hlit : literalHost host with
        | none =>
          simp only [hlit] at haddr
          exact htries addr haddr
        | some ip =>
          simp only [hlit, List.mem_singleton] at haddr
          subst haddr
          unfold literalHost at hlit
          split at hlit
          · rename_i inner hbracketed
            exact h host inner addr rfl hbracketed hlit (by simp [hguard])
          · exact hplain hlit

end Http

/-! ## Two splitters -/

section Splitters

variable {target : List Char} {defaultPort : ℕ}

theorem head_of_bracketed {parts : List Char × Option (List Char)} (h : bracketed target = some parts) :
    target.head? = some '[' := by
  unfold bracketed at h
  split at h
  · rfl
  · cases h

theorem parsePort_chars {port : List Char} {value : ℕ} (h : parsePort port = some value) :
    ∀ ch ∈ port, ch.isDigit = true ∨ ch = '+' := by
  unfold parsePort at h
  dsimp only at h
  split_ifs at h with hplus hdigits hdigits
  · intro ch hch
    cases port with
    | nil => cases hch
    | cons head tail =>
      rcases List.mem_cons.1 hch with rfl | hch
      · exact Or.inr (Option.some.inj hplus)
      · exact Or.inl (List.all_eq_true.1 hdigits.2.1 ch hch)
  · exact fun ch hch => Or.inl (List.all_eq_true.1 hdigits.2.1 ch hch)

/-- a port is digits, or a plus sign and digits -/
theorem parsePort_digits {port : List Char} {value : ℕ} (h : parsePort port = some value) :
    (port ≠ [] ∧ port.all Char.isDigit = true) ↔ port.head? ≠ some '+' := by
  unfold parsePort at h
  dsimp only at h
  split_ifs at h with hplus hdigits hdigits
  · cases port with
    | nil => cases hplus
    | cons head tail =>
      obtain rfl := Option.some.inj hplus
      simp
  · exact ⟨fun _ => hplus, fun _ => ⟨hdigits.1, hdigits.2.1⟩⟩

/-- the forms of a target that the agent tells apart -/
inductive Split (target : List Char) (host : List Char) : Prop where
  | brackets (port : Option (List Char)) (h : bracketed target = some (host, port))
  | port (port : List Char) (value : ℕ) (hbrackets : bracketed target = none) (hsplit : rsplitOnce ':' target = some (host, port))
      (hhost : ':' ∉ host) (hport : parsePort port = some value)
  | whole (hbrackets : bracketed target = none) (heq : host = target)

theorem split_splitHostPort (target : List Char) (defaultPort : ℕ) : Split target (splitHostPort target defaultPort).1 := by
  unfold splitHostPort
  split
  · rename_i host port hbrackets
    exact .brackets port hbrackets
  · rename_i hbrackets
    split
    · rename_i host port hsplit
      split_ifs with hcolon
      · exact .whole hbrackets rfl
      · split
        · rename_i value hport
          exact .port port value hbrackets hsplit hcolon hport
        · exact .whole hbrackets rfl
    · exact .whole hbrackets rfl

theorem not_scheme_of_one_colon {host port : List Char} (hhost : ':' ∉ host) (hport : ':' ∉ port) (hslash : '/' ∉ port) :
    splitOnce "://".toList (host ++ ':' :: port) = none := by
  cases h : splitOnce "://".toList (host ++ ':' :: port) with
  | none => rfl
  | some parts =>
    have heq : host ++ ':' :: port = parts.1 ++ ':' :: ('/' :: '/' :: parts.2) := by
      rw [splitOnce_eq_some h]
      simp
    obtain ⟨-, -, rfl⟩ := (List.append_cons_inj_of_notMem hhost hport).1 heq
    exact absurd List.mem_cons_self hslash

theorem not_scheme_of_no_slash {l : List Char} (hslash : '/' ∉ l) : splitOnce "://".toList l = none := by
  cases h : splitOnce "://".toList l with
  | none => rfl
  | some parts =>
    exfalso
    apply hslash
    rw [splitOnce_eq_some h]
    simp

variable {parseUrl : List Char → Option Url}

/-- a target whose host is a literal for the agent is no URL for the server -/
theorem urlHost_eq_none (hurl : ∀ l url, parseUrl l = some url → l.head? ≠ some '[') {host : List Char} {ip : IpAddr}
    (hsplit : Split target host) (hip : parseAddr host = some ip) : urlHost parseUrl target = none := by
  unfold urlHost
  cases hsplit with
  | brackets port h =>
    have hnone : parseUrl target = none := by
      cases hparse : parseUrl target with
      | none => rfl
      | some url => exact absurd (head_of_bracketed h) (hurl _ _ hparse)
    simp [hnone]
  | port port value hbrackets hsplit hhost hport =>
    obtain ⟨rfl, hcolon⟩ := rsplitOnce_eq_some hsplit
    have hslash : '/' ∉ port := fun hmem => absurd (parsePort_chars hport '/' hmem) (by decide)
    rw [not_scheme_of_one_colon hhost hcolon hslash]
    rfl
  | whole hbrackets heq =>
    subst heq
    have hslash : '/' ∉ host := fun hmem => absurd (parseAddr_chars hip '/' hmem) (by decide)
    rw [not_scheme_of_no_slash hslash]
    rfl

/-- a port with a plus sign, after a host without brackets -/
def PlusPort (target : List Char) : Prop :=
  bracketed target = none ∧ ∃ host port, rsplitOnce ':' target = some (host, port) ∧ port.head? = some '+'

/-- the server finds the agent's host, but for a port with a plus sign -/
theorem extractTargetHost_of_split (hurl : ∀ l url, parseUrl l = some url → l.head? ≠ some '[') {host : List Char} {ip : IpAddr}
    (hsplit : Split target host) (hip : parseAddr host = some ip) (hplus : ¬ PlusPort target) :
    extractTargetHost parseUrl target = host := by
  unfold extractTargetHost
  rw [urlHost_eq_none hurl hsplit hip]
  cases hsplit with
  | brackets port h => simp [h]
  | port port value hbrackets hsplit hhost hport =>
    have hdigits := (parsePort_digits hport).2 fun hhead => hplus ⟨hbrackets, host, port, hsplit, hhead⟩
    simp only [hbrackets, hsplit]
    rw [if_pos ⟨hhost, hdigits⟩]
  | whole hbrackets heq =>
    subst heq
    simp only [hbrackets]
    split
    · rename_i before after hsplit
      split_ifs with hcond
      · obtain ⟨heq, hafter⟩ := rsplitOnce_eq_some hsplit
        rw [heq, parseAddr_eq_none_of_one_colon hcond.1 hafter] at hip
        cases hip
      · rfl
    · rfl

/-- for the server the whole target is the host then, which is no address -/
theorem not_reject_of_plusPort (hurl : ∀ l url, parseUrl l = some url → l.head? ≠ some '[') {host : List Char} {ip : IpAddr}
    (hsplit : Split target host) (hip : parseAddr host = some ip) (hplus : PlusPort target) :
    rejectLiteralUnsafeTarget parseUrl target = false := by
  obtain ⟨hbrackets, before, after, honce, hhead⟩ := hplus
  obtain ⟨heq, hafter⟩ := rsplitOnce_eq_some honce
  have hwhole : extractTargetHost parseUrl target = target := by
    unfold extractTargetHost
    rw [urlHost_eq_none hurl hsplit hip]
    simp only [hbrackets, honce]
    rw [if_neg]
    rintro ⟨-, -, hall⟩
    cases after with
    | nil => cases hhead
    | cons head tail =>
      obtain rfl := Option.some.inj hhead
      simp at hall
  have hnone : parseAddr target = none := by
    cases hparse : parseAddr target with
    | none => rfl
    | some ip =>
      have hmem : '+' ∈ target := by
        rw [heq]
        cases after with
        | nil => cases hhead
        | cons head tail =>
          obtain rfl := Option.some.inj hhead
          simp
      exact absurd (parseAddr_chars hparse '+' hmem) (by decide)
  unfold rejectLiteralUnsafeTarget
  rw [hwhole, hnone]

theorem reject_iff_unsafe_iff (hurl : ∀ l url, parseUrl l = some url → l.head? ≠ some '[') {ip : IpAddr}
    (hip : parseAddr (splitHostPort target defaultPort).1 = some ip) :
    (rejectLiteralUnsafeTarget parseUrl target = true ↔ isMonitorSafeAddr ip = false) ↔
      (PlusPort target → isMonitorSafeAddr ip = true) := by
  have hsplit := split_splitHostPort target defaultPort
  by_cases hplus : PlusPort target
  · rw [not_reject_of_plusPort hurl hsplit hip hplus]
    simp [hplus]
  · have hreject : rejectLiteralUnsafeTarget parseUrl target = !isMonitorSafeAddr ip := by
      unfold rejectLiteralUnsafeTarget
      rw [extractTargetHost_of_split hurl hsplit hip hplus, hip]
    simp [hreject, hplus]

end Splitters

/-! ## All probes -/

/-- on what a run depends for every address that it sends to -/
def Meets (parseUrl : List Char → Option Url) (env : Env) : Probe → Prop
  | .icmp host => SecondLookupSafe env host
  | .icmpBatch host _ => SecondLookupSafe env host
  | .http url => BracketedHostSafe parseUrl env url
  | .tcp _ => True
  | .traceroute _ _ => True

theorem contacted_safe_iff (parseUrl : List Char → Option Url) (env : Env) (probe : Probe) :
    (∀ addr ∈ contacted parseUrl env probe, isMonitorSafeAddr addr = true) ↔ Meets parseUrl env probe := by
  cases probe with
  | icmp host => exact probeIcmp_safe_iff
  | icmpBatch host count => exact probeIcmp_safe_iff
  | tcp host => exact iff_of_true probeTcp_safe trivial
  | http url => exact probeHttp_safe_iff parseUrl env url
  | traceroute target protocol => exact iff_of_true spawnTraceroute_safe trivial

theorem isMonitorSafeAddr_of_toIpv4 {addr v4 : IpAddr} (hfamily : addr.family = .v6) (hv4 : v4.family = .v4)
    (h : toIpv4 addr.value = some v4.value) : isMonitorSafeAddr addr = isMonitorSafeAddr v4 := by
  simp only [isMonitorSafeAddr, hfamily, hv4, h]

/-- **Probes and blocked addresses.** A probe sends to safe addresses only just when its host is looked up safely; a globally
routable address is safe; an IPv6 address that embeds an IPv4 address is as safe as that one; and the server rejects a literal
just when it is not safe just when no port with a plus sign hides one. A text that begins with a bracket is no URL -/
theorem probes_reach_safe_iff (parseUrl : List Char → Option Url) (hurl : ∀ l url, parseUrl l = some url → l.head? ≠ some '[') :
    (∀ env probe, (∀ addr ∈ contacted parseUrl env probe, isMonitorSafeAddr addr = true) ↔ Meets parseUrl env probe) ∧
    (∀ addr, isGlobalAddr addr = true → isMonitorSafeAddr addr = true) ∧
    (∀ addr v4 : IpAddr, addr.family = .v6 → v4.family = .v4 → toIpv4 addr.value = some v4.value →
      isMonitorSafeAddr addr = isMonitorSafeAddr v4) ∧
    ∀ target defaultPort ip, parseAddr (splitHostPort target defaultPort).1 = some ip →
      ((rejectLiteralUnsafeTarget parseUrl target = true ↔ isMonitorSafeAddr ip = false) ↔
        (PlusPort target → isMonitorSafeAddr ip = true)) :=
  ⟨contacted_safe_iff parseUrl, fun _ => isMonitorSafeAddr_of_isGlobalAddr, fun _ _ => isMonitorSafeAddr_of_toIpv4,
    fun _ _ _ => reject_iff_unsafe_iff hurl⟩

/-! ## Blocked addresses that are reached -/

def publicAddr : IpAddr := ⟨.v4, 0x08080808, by decide⟩

def metadataAddr : IpAddr := ⟨.v4, 0xa9fea9fe, by decide⟩

def loopbackV4 : IpAddr := ⟨.v4, 0x7f000001, by decide⟩

theorem loopbackV6_lt : 1 < 2 ^ Family.v6.bits := by decide

def loopbackV6 : IpAddr := ⟨.v6, 1, loopbackV6_lt⟩

/-- every name is public when it is checked and the metadata endpoint afterwards -/
def rebinding : Env where
  answers n _ := if n = 0 then [publicAddr] else [metadataAddr]
  accepts _ := true

def loopbackUrl : List Char := "http://[::1]/".toList

/-- a parser that knows one URL -/
def parseLoopbackUrl (l : List Char) : Option Url :=
  if l = loopbackUrl then some ⟨"http".toList, [], none, some "[::1]".toList, none⟩ else none

/-- the server rejects a loopback address with a port -/
theorem probes_reach_safe_iff_once :
    (∀ addr ∈ contacted parseLoopbackUrl rebinding (.tcp "probe.example:443".toList), isMonitorSafeAddr addr = true) ∧
      rejectLiteralUnsafeTarget parseLoopbackUrl "127.0.0.1:80".toList = true := by
  have hurl : ∀ l url, parseLoopbackUrl l = some url → l.head? ≠ some '[' := by
    intro l url h
    unfold parseLoopbackUrl at h
    split_ifs at h with hl
    rw [hl]
    decide
  obtain ⟨hcontacted, -, -, hreject⟩ := probes_reach_safe_iff parseLoopbackUrl hurl
  constructor
  · exact (hcontacted rebinding (.tcp "probe.example:443".toList)).2 trivial
  · have hplain : ¬ PlusPort "127.0.0.1:80".toList := by
      rintro ⟨-, host, port, hsplit, hhead⟩
      have heq : rsplitOnce ':' "127.0.0.1:80".toList = some ("127.0.0.1".toList, "80".toList) := by decide
      cases heq.symm.trans hsplit
      exact absurd hhead (by decide)
    exact ((hreject "127.0.0.1:80".toList 80 loopbackV4 (by decide)).2 fun hplus => absurd hplus hplain).2 (by decide)

/-- **Blocked addresses that are reached.** `ping` sends to the metadata endpoint, an HTTP probe connects to the loopback address,
and the server accepts a loopback target that the agent takes for one -/
theorem blocked_addresses_reached :
    (contacted parseLoopbackUrl rebinding (.icmp "probe.example".toList) = [metadataAddr] ∧
      isMonitorSafeAddr metadataAddr = false) ∧
    (contacted parseLoopbackUrl rebinding (.http loopbackUrl) = [loopbackV6] ∧ isMonitorSafeAddr loopbackV6 = false) ∧
    (parseAddr (splitHostPort "127.0.0.1:+80".toList 80).1 = some loopbackV4 ∧ isMonitorSafeAddr loopbackV4 = false ∧
      rejectLiteralUnsafeTarget parseLoopbackUrl "127.0.0.1:+80".toList = false) := by
  decide

end ServerBee.Probes
