/-
IP addresses and networks (`std::net::IpAddr`, `ipnet::IpNet`), and the ranges that may never be blocked
(`common/src/firewall.rs`).

An address is a number below 2^32 or 2^128 with its family. A network keeps the address it was written with; its first
and last addresses are those of its block. What strings denote addresses and networks is left to `IpText`.
-/
import Mathlib.Tactic

namespace ServerBee.Firewall

inductive Family where
  | v4
  | v6
deriving DecidableEq, Repr

def Family.bits : Family → ℕ
  | .v4 => 32
  | .v6 => 128

structure IpAddr where
  family : Family
  value : ℕ
  value_lt : value < 2 ^ family.bits
deriving DecidableEq, Repr

structure IpNet where
  family : Family
  addr : ℕ
  prefixLen : ℕ
  addr_lt : addr < 2 ^ family.bits
  prefixLen_le : prefixLen ≤ family.bits
deriving DecidableEq, Repr

namespace IpNet

/-- the number of addresses -/
def size (n : IpNet) : ℕ := 2 ^ (n.family.bits - n.prefixLen)

def networkValue (n : IpNet) : ℕ := n.addr - n.addr % n.size

def broadcastValue (n : IpNet) : ℕ := n.networkValue + (n.size - 1)

theorem size_pos (n : IpNet) : 0 < n.size := Nat.two_pow_pos _

theorem networkValue_lt (n : IpNet) : n.networkValue < 2 ^ n.family.bits :=
  (Nat.sub_le _ _).trans_lt n.addr_lt

def network (n : IpNet) : IpAddr := ⟨n.family, n.networkValue, n.networkValue_lt⟩

/-- false for an address of the other family -/
def contains (n : IpNet) (ip : IpAddr) : Bool :=
  n.family == ip.family && decide (n.networkValue ≤ ip.value) && decide (ip.value ≤ n.broadcastValue)

/-- the network of one address: /32 or /128 -/
def single (ip : IpAddr) : IpNet := ⟨ip.family, ip.value, ip.family.bits, ip.value_lt, le_rfl⟩

end IpNet

/-- the text forms of addresses and networks -/
structure IpText where
  parseAddr : String → Option IpAddr
  showAddr : IpAddr → String
  parseNet : String → Option IpNet
  showNet : IpNet → String

/-- `PROTECTED_CIDRS`, with the networks they denote -/
def protectedCidrs : List (String × IpNet) :=
  [("127.0.0.0/8", ⟨.v4, 0x7f000000, 8, by decide, by decide⟩),
    ("10.0.0.0/8", ⟨.v4, 0x0a000000, 8, by decide, by decide⟩),
    ("172.16.0.0/12", ⟨.v4, 0xac100000, 12, by decide, by decide⟩),
    ("192.168.0.0/16", ⟨.v4, 0xc0a80000, 16, by decide, by decide⟩),
    ("169.254.0.0/16", ⟨.v4, 0xa9fe0000, 16, by decide, by decide⟩),
    ("0.0.0.0/8", ⟨.v4, 0, 8, by decide, by decide⟩),
    ("224.0.0.0/4", ⟨.v4, 0xe0000000, 4, by decide, by decide⟩),
    ("::1/128", ⟨.v6, 1, 128, by decide, by decide⟩),
    ("fc00::/7", ⟨.v6, 0xfc00 * 2 ^ 112, 7, by decide, by decide⟩),
    ("fe80::/10", ⟨.v6, 0xfe80 * 2 ^ 112, 10, by decide, by decide⟩),
    ("ff00::/8", ⟨.v6, 0xff00 * 2 ^ 112, 8, by decide, by decide⟩),
    ("::/128", ⟨.v6, 0, 128, by decide, by decide⟩)]

end ServerBee.Firewall
