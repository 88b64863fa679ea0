/-
What is relied on of the text forms of addresses and networks, and text forms that have it.

A network prints as its address, a slash and the length of its prefix, and parses back; no text is both an address and a
network. `plainText` writes IPv4 addresses with dots and IPv6 addresses as eight groups, without the short form for zeros.
-/
import ServerBee.Firewall.Net
import ServerBee.Lib.Parts

namespace ServerBee.Firewall

open ServerBee.Lib

/-- `FromStr` and `Display` of `IpAddr` and `IpNet` -/
structure IpText.Lawful (T : IpText) : Prop where
  parseAddr_showAddr : ∀ ip, T.parseAddr (T.showAddr ip) = some ip
  parseNet_showNet : ∀ net, T.parseNet (T.showNet net) = some net
  exclusive : ∀ s ip, T.parseAddr s = some ip → T.parseNet s = none

theorem IpText.Lawful.parseAddr_showNet {T : IpText} (hT : T.Lawful) (net : IpNet) : T.parseAddr (T.showNet net) = none := by
  cases h : T.parseAddr (T.showNet net) with
  | none => rfl
  | some ip => cases (hT.exclusive _ _ h).symm.trans (hT.parseNet_showNet net)

/-! ## Plain texts -/

namespace Plain

def showAddr : Family → ℕ → List Char
  | .v4, value => Parts.showParts '.' 10 256 4 value
  | .v6, value => Parts.showParts ':' 16 65536 8 value

def readValue (family : Family) (l : List Char) : Option IpAddr :=
  let value := match family with
    | .v4 => Parts.readParts '.' 10 256 4 l
    | .v6 => Parts.readParts ':' 16 65536 8 l
  value.bind fun value => if h : value < 2 ^ family.bits then some ⟨family, value, h⟩ else none

def readAddr (l : List Char) : Option IpAddr :=
  if '/' ∈ l then none else if ':' ∈ l then readValue .v6 l else readValue .v4 l

def readNet (l : List Char) : Option IpNet :=
  match l.splitOn '/' with
  | [addr, len] => (readAddr addr).bind fun ip => (Parts.readPart 10 129 len).bind fun len =>
    if h : len ≤ ip.family.bits then some ⟨ip.family, ip.value, len, ip.value_lt, h⟩ else none
  | _ => none

theorem slash_not_mem (family : Family) (value : ℕ) : '/' ∉ showAddr family value := by
  cases family with
  | v4 =>
    show '/' ∉ Parts.showParts '.' 10 256 4 value
    exact Parts.not_mem_showParts (by decide) (by decide) (by decide) (by decide) 256 4 value
  | v6 =>
    show '/' ∉ Parts.showParts ':' 16 65536 8 value
    exact Parts.not_mem_showParts (by decide) (by decide) (by decide) (by decide) 65536 8 value

theorem colon_mem {value : ℕ} : ':' ∈ showAddr .v6 value := by
  show ':' ∈ [':'].intercalate (_ :: _ :: _)
  rw [List.intercalate_cons_cons]
  simp

theorem readAddr_showAddr (ip : IpAddr) : readAddr (showAddr ip.family ip.value) = some ip := by
  obtain ⟨family, value, hvalue⟩ := ip
  rw [readAddr, if_neg (slash_not_mem family value)]
  cases family with
  | v4 =>
    have hread : Parts.readParts '.' 10 256 4 (showAddr .v4 value) = some value :=
      Parts.readParts_showParts (by decide) (by decide) (by decide) (by decide) (by decide) hvalue
    have hcolon : ':' ∉ Parts.showParts '.' 10 256 4 value :=
      Parts.not_mem_showParts (by decide) (by decide) (by decide) (by decide) 256 4 value
    rw [if_neg (show ':' ∉ showAddr .v4 value from hcolon), readValue, hread]
    exact dif_pos hvalue
  | v6 =>
    have hlt : value < 65536 ^ 8 := hvalue
    have hread : Parts.readParts ':' 16 65536 8 (showAddr .v6 value) = some value :=
      Parts.readParts_showParts (by decide) (by decide) (by decide) (by decide) (by decide) hlt
    rw [if_pos colon_mem, readValue, hread]
    exact dif_pos hvalue

end Plain

def plainText : IpText where
  parseAddr s := Plain.readAddr s.toList
  showAddr ip := String.ofList (Plain.showAddr ip.family ip.value)
  parseNet s := Plain.readNet s.toList
  showNet net := String.ofList (Plain.showAddr net.family net.addr ++ '/' :: Nat.toDigits 10 net.prefixLen)

theorem plainText_lawful : plainText.Lawful where
  parseAddr_showAddr ip := by
    show Plain.readAddr (String.ofList _).toList = some ip
    rw [String.toList_ofList, Plain.readAddr_showAddr]
  parseNet_showNet net := by
    obtain ⟨family, addr, prefixLen, haddr, hbits⟩ := net
    have hslash : '/' ∉ Nat.toDigits 10 prefixLen :=
      Parts.Separates.not_mem (by decide) (by decide) (by decide) prefixLen
    have hlen : prefixLen < 129 := Nat.lt_succ_of_le (hbits.trans (by cases family <;> decide))
    have hsplit : (Plain.showAddr family addr ++ '/' :: Nat.toDigits 10 prefixLen).splitOn '/' =
        [Plain.showAddr family addr, Nat.toDigits 10 prefixLen] := by
      rw [List.splitOn_append_cons_self_of_not_mem (Plain.slash_not_mem family addr), List.splitOn_eq_singleton hslash]
    show Plain.readNet (String.ofList _).toList = _
    rw [String.toList_ofList, Plain.readNet, hsplit]
    show (Plain.readAddr (Plain.showAddr family addr)).bind _ = _
    rw [Plain.readAddr_showAddr ⟨family, addr, haddr⟩, Option.bind_some,
      Parts.readPart_toDigits (by decide) (by decide) hlen, Option.bind_some]
    exact dif_pos hbits
  exclusive s ip h := by
    have hslash : '/' ∉ s.toList := fun hmem => by
      have hnone : Plain.readAddr s.toList = none := if_pos hmem
      cases hnone.symm.trans h
    show Plain.readNet s.toList = none
    rw [Plain.readNet, List.splitOn_eq_singleton hslash]

end ServerBee.Firewall
