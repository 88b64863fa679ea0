/-
The server's guardrail (`service/firewall.rs`: `canonicalize_target`, `is_protected`).

A network denotes the set of its addresses. Two networks of a family are nested or disjoint, so that a network meets
another exactly if one contains the first address of the other (`overlaps_iff`); and the set determines the canonical
network. From these: what the canonical text of an input says, and when a target is protected.
-/
import ServerBee.Firewall.Text
import Mathlib.Order.CompletePartialOrder

namespace ServerBee.Firewall

/-! ## Networks as sets -/

namespace IpNet

def addrs (n : IpNet) : Set IpAddr := {ip | n.contains ip = true}

/-- `IpNet::new(net.network(), net.prefix_len())` -/
def canonical (n : IpNet) : IpNet := ⟨n.family, n.networkValue, n.prefixLen, n.networkValue_lt, n.prefixLen_le⟩

theorem networkValue_eq (n : IpNet) : n.networkValue = n.size * (n.addr / n.size) := by
  have h := Nat.div_add_mod n.addr n.size
  rw [networkValue]
  omega

/-- the addresses of a network have one quotient by its size -/
theorem mem_addrs {n : IpNet} {ip : IpAddr} :
    ip ∈ n.addrs ↔ n.family = ip.family ∧ ip.value / n.size = n.addr / n.size := by
  have hpos := n.size_pos
  show n.contains ip = true ↔ _
  simp only [contains, broadcastValue, networkValue_eq, Bool.and_eq_true, beq_iff_eq, decide_eq_true_eq, and_assoc]
  refine and_congr_right fun _ => ?_
  rw [Nat.div_eq_iff hpos, Nat.mul_comm (n.addr / n.size)]
  omega

theorem network_mem (n : IpNet) : n.network ∈ n.addrs := by
  refine mem_addrs.2 ⟨rfl, ?_⟩
  show n.networkValue / n.size = _
  rw [networkValue_eq, Nat.mul_div_cancel_left _ n.size_pos]

theorem mem_single {ip ip' : IpAddr} : ip' ∈ (single ip).addrs ↔ ip' = ip := by
  rw [mem_addrs]
  obtain ⟨family, value, hvalue⟩ := ip
  obtain ⟨family', value', hvalue'⟩ := ip'
  simp only [single, size, Nat.sub_self, pow_zero, Nat.div_one, IpAddr.mk.injEq]
  exact and_congr_left' eq_comm

theorem single_canonical (ip : IpAddr) : (single ip).canonical = single ip := by
  simp [canonical, single, networkValue, size, Nat.mod_one]

end IpNet

/-- the quotient by a multiple of a divisor is that of the first multiple below -/
theorem mul_div_div (x m k : ℕ) (hm : 0 < m) : m * (x / m) / (m * k) = x / (m * k) := by
  rw [← Nat.div_div_eq_div_mul, Nat.mul_div_cancel_left _ hm, Nat.div_div_eq_div_mul]

def overlaps (a b : IpNet) : Bool := a.contains b.network || b.contains a.network

/-- of two networks with a common address the larger contains the first address of the smaller -/
theorem contains_network_of_le {a b : IpNet} {ip : IpAddr} (ha : ip ∈ a.addrs) (hb : ip ∈ b.addrs)
    (hle : b.prefixLen ≤ a.prefixLen) : a.network ∈ b.addrs := by
  obtain ⟨hfa, hqa⟩ := IpNet.mem_addrs.1 ha
  obtain ⟨hfb, hqb⟩ := IpNet.mem_addrs.1 hb
  have hfamily : b.family = a.family := hfb.trans hfa.symm
  refine IpNet.mem_addrs.2 ⟨hfamily, ?_⟩
  have hsize : b.size = a.size * 2 ^ (a.prefixLen - b.prefixLen) := by
    have hlen := a.prefixLen_le
    rw [IpNet.size, IpNet.size, hfamily, ← pow_add]
    congr 1
    omega
  show a.networkValue / b.size = b.addr / b.size
  rw [← hqb, a.networkValue_eq, ← hqa, hsize, mul_div_div _ _ _ a.size_pos]

/-- **Networks overlap exactly if they have a common address.** -/
theorem overlaps_iff (a b : IpNet) : overlaps a b = true ↔ ¬ Disjoint a.addrs b.addrs := by
  rw [Set.not_disjoint_iff, overlaps, Bool.or_eq_true]
  constructor
  · rintro (h | h)
    · exact ⟨b.network, h, b.network_mem⟩
    · exact ⟨a.network, a.network_mem, h⟩
  · rintro ⟨ip, ha, hb⟩
    rcases le_total b.prefixLen a.prefixLen with hle | hle
    · exact Or.inr (contains_network_of_le ha hb hle)
    · exact Or.inl (contains_network_of_le hb ha hle)

namespace IpNet

theorem canonical_size (n : IpNet) : n.canonical.size = n.size := rfl

theorem canonical_quotient (n : IpNet) : n.canonical.addr / n.size = n.addr / n.size := by
  show n.networkValue / n.size = _
  rw [networkValue_eq, Nat.mul_div_cancel_left _ n.size_pos]

theorem addrs_canonical (n : IpNet) : n.canonical.addrs = n.addrs := by
  ext ip
  rw [mem_addrs, mem_addrs, canonical_size, canonical_quotient]
  exact Iff.rfl

theorem canonical_canonical (n : IpNet) : n.canonical.canonical = n.canonical := by
  have h : n.canonical.networkValue = n.networkValue := by
    rw [networkValue_eq, canonical_size, canonical_quotient, networkValue_eq]
  unfold canonical at h ⊢
  simp only [h]

theorem size_dvd (n : IpNet) : n.size ∣ 2 ^ n.family.bits := Nat.pow_dvd_pow 2 (Nat.sub_le _ _)

/-- the network ends within the family -/
theorem networkValue_add_size_le (n : IpNet) : n.networkValue + n.size ≤ 2 ^ n.family.bits := by
  obtain ⟨k, hk⟩ := n.size_dvd
  have hlt : n.addr / n.size < k := by
    rw [Nat.div_lt_iff_lt_mul n.size_pos, Nat.mul_comm, ← hk]
    exact n.addr_lt
  rw [networkValue_eq, hk]
  nlinarith [Nat.mul_le_mul_left n.size hlt]

theorem networkValue_le_of_subset {n n' : IpNet} (h : n.addrs ⊆ n'.addrs) : n'.networkValue ≤ n.networkValue := by
  have hmem : n'.contains n.network = true := h n.network_mem
  simp only [contains, Bool.and_eq_true, decide_eq_true_eq] at hmem
  exact hmem.1.2

theorem family_eq_of_subset {n n' : IpNet} (h : n.addrs ⊆ n'.addrs) : n.family = n'.family :=
  (mem_addrs.1 (h n.network_mem)).1.symm

/-- the last address of a network that is in another with the same first address -/
theorem size_le_of_subset {n n' : IpNet} (h : n.addrs ⊆ n'.addrs) (hfirst : n.networkValue = n'.networkValue) :
    n.size ≤ n'.size := by
  have hpos := n.size_pos
  have hend := n.networkValue_add_size_le
  have hlast : (⟨n.family, n.broadcastValue, by unfold broadcastValue; omega⟩ : IpAddr) ∈ n.addrs := by
    show n.contains _ = true
    simp [contains, broadcastValue]
  have hmem := h hlast
  have hle : n.broadcastValue ≤ n'.broadcastValue := by
    simp only [addrs, Set.mem_ofPred_eq, contains, Bool.and_eq_true, decide_eq_true_eq] at hmem
    exact hmem.2
  have hsize' := n'.size_pos
  unfold broadcastValue at hle
  omega

/-- the set of its addresses determines the canonical network -/
theorem canonical_eq_of_addrs {n n' : IpNet} (h : n.addrs = n'.addrs) : n.canonical = n'.canonical := by
  have hfamily := family_eq_of_subset h.subset
  have hfirst : n.networkValue = n'.networkValue :=
    le_antisymm (networkValue_le_of_subset h.superset) (networkValue_le_of_subset h.subset)
  have hsize : n.size = n'.size :=
    le_antisymm (size_le_of_subset h.subset hfirst) (size_le_of_subset h.superset hfirst.symm)
  have hprefix : n.prefixLen = n'.prefixLen := by
    have hexp : n.family.bits - n.prefixLen = n'.family.bits - n'.prefixLen := Nat.pow_right_injective (le_refl 2) hsize
    have hlen := n.prefixLen_le
    have hlen' := n'.prefixLen_le
    rw [hfamily] at hexp hlen
    omega
  unfold canonical
  simp only [hfamily, hfirst, hprefix]

end IpNet

/-! ## Targets -/

section Targets

variable (T : IpText)

/-- the network that a text denotes: an address is the network of itself -/
def IpText.read (s : String) : Option IpNet := ((T.parseAddr s).map IpNet.single).or (T.parseNet s)

def Family.number : Family → ℕ
  | .v4 => 4
  | .v6 => 6

def canonicalizeTarget (input : String) : Except String (String × ℕ) :=
  match T.parseAddr input with
  | some addr => .ok (T.showNet (IpNet.single addr), addr.family.number)
  | none =>
    match T.parseNet input with
    | none => .error ("invalid IP or CIDR: " ++ input)
    | some net => .ok (T.showNet net.canonical, net.family.number)

/-- the entries of `extra_allow` in turn, each as a network and as an address -/
def isProtected (target : String) (extraAllow : List String) : Option String :=
  match T.parseNet target with
  | none => some "invalid CIDR"
  | some target =>
    match protectedCidrs.find? fun p => overlaps target p.2 with
    | some p => some ("hits hard-coded guardrail: " ++ T.showNet p.2)
    | none => extraAllow.findSome? fun raw =>
      if (T.parseNet raw).any (overlaps target) || (T.parseAddr raw).any (fun addr => overlaps target (IpNet.single addr)) then
        some ("hits allow_list: " ++ raw)
      else none

end Targets

section Meaning

variable {T : IpText}

theorem canonicalizeTarget_eq (input : String) : canonicalizeTarget T input =
    match T.read input with
    | none => .error ("invalid IP or CIDR: " ++ input)
    | some net => .ok (T.showNet net.canonical, net.family.number) := by
  unfold canonicalizeTarget IpText.read
  cases T.parseAddr input with
  | some addr =>
    show _ = Except.ok (T.showNet (IpNet.single addr).canonical, _)
    rw [IpNet.single_canonical]
    rfl
  | none => rfl

theorem canonicalizeTarget_eq_ok {input target : String} {family : ℕ} : canonicalizeTarget T input = .ok (target, family) ↔
    ∃ net, T.read input = some net ∧ T.showNet net.canonical = target ∧ net.family.number = family := by
  rw [canonicalizeTarget_eq]
  cases T.read input with
  | none => simp
  | some net => simp

theorem IpText.Lawful.read_showNet (hT : T.Lawful) (net : IpNet) : T.read (T.showNet net) = some net := by
  rw [IpText.read, hT.parseAddr_showNet, hT.parseNet_showNet]
  rfl

theorem IpText.Lawful.read_showAddr (hT : T.Lawful) (ip : IpAddr) : T.read (T.showAddr ip) = some (IpNet.single ip) := by
  rw [IpText.read, hT.parseAddr_showAddr]
  rfl

/-- what a canonical target denotes -/
theorem read_canonical (hT : T.Lawful) {input target : String} {family : ℕ}
    (h : canonicalizeTarget T input = .ok (target, family)) :
    ∃ net, T.read input = some net ∧ T.read target = some net.canonical ∧ net.family.number = family := by
  obtain ⟨net, hread, rfl, hfamily⟩ := canonicalizeTarget_eq_ok.1 h
  exact ⟨net, hread, hT.read_showNet net.canonical, hfamily⟩

theorem canonicalize_idempotent (hT : T.Lawful) {input target : String} {family : ℕ}
    (h : canonicalizeTarget T input = .ok (target, family)) : canonicalizeTarget T target = .ok (target, family) := by
  obtain ⟨net, -, rfl, hfamily⟩ := canonicalizeTarget_eq_ok.1 h
  exact canonicalizeTarget_eq_ok.2 ⟨net.canonical, hT.read_showNet _, by rw [IpNet.canonical_canonical], hfamily⟩

theorem canonicalize_unique {input input' : String} {net net' : IpNet} (h : T.read input = some net)
    (h' : T.read input' = some net') (haddrs : net.addrs = net'.addrs) :
    canonicalizeTarget T input = canonicalizeTarget T input' := by
  have hfamily := IpNet.family_eq_of_subset haddrs.subset
  rw [canonicalizeTarget_eq, canonicalizeTarget_eq, h, h']
  dsimp only
  rw [IpNet.canonical_eq_of_addrs haddrs, hfamily]

/-- the entry of an allow list that meets the target -/
theorem allow_hits_iff (hT : T.Lawful) {target : IpNet} {raw : String} :
    ((T.parseNet raw).any (overlaps target) || (T.parseAddr raw).any fun addr => overlaps target (IpNet.single addr)) = true ↔
      ∃ net, T.read raw = some net ∧ ¬ Disjoint target.addrs net.addrs := by
  unfold IpText.read
  cases haddr : T.parseAddr raw with
  | some addr =>
    rw [hT.exclusive raw addr haddr]
    simp [overlaps_iff]
  | none => cases T.parseNet raw <;> simp [overlaps_iff]

/-- **When a target is protected:** exactly if its addresses meet a hard-coded range or an entry of the allow list. -/
theorem isProtected_iff (hT : T.Lawful) {target : String} {net : IpNet} (h : T.read target = some net)
    (haddr : T.parseAddr target = none) (allow : List String) :
    (isProtected T target allow).isSome = true ↔ (∃ p ∈ protectedCidrs, ¬ Disjoint net.addrs p.2.addrs) ∨
      ∃ raw ∈ allow, ∃ net', T.read raw = some net' ∧ ¬ Disjoint net.addrs net'.addrs := by
  have hparse : T.parseNet target = some net := by
    rw [IpText.read, haddr] at h
    exact h
  rw [isProtected, hparse]
  dsimp only
  cases hfind : protectedCidrs.find? fun p => overlaps net p.2 with
  | some p =>
    have hmeets : overlaps net p.2 = true := by simpa using List.find?_some hfind
    exact iff_of_true rfl (Or.inl ⟨p, List.mem_of_find?_eq_some hfind, (overlaps_iff net p.2).1 hmeets⟩)
  | none =>
    have hnone : ¬ ∃ p ∈ protectedCidrs, ¬ Disjoint net.addrs p.2.addrs := fun ⟨p, hp, hmeets⟩ =>
      List.find?_eq_none.1 hfind p hp ((overlaps_iff net p.2).2 hmeets)
    rw [or_iff_right hnone, List.isSome_findSome?, List.any_eq_true]
    refine exists_congr fun raw => and_congr_right fun _ => ?_
    rw [← allow_hits_iff hT]
    split_ifs with hhit
    · exact iff_of_true rfl hhit
    · exact iff_of_false Bool.false_ne_true hhit

end Meaning

end ServerBee.Firewall
