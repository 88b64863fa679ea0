/-
What the parser reads, as a grammar.

`Opens t ip`: the text begins with `<word> from <ip> port <digit>`. `ReadsAs t k ip`: it begins with one of the three forms.
The parser returns an attempt exactly for the texts that read as one, and a text reads as at most one kind and address. A
name before ` from <ip> port <port>` does not change the address, unless the name itself opens so (`opens_line`).
-/
import ServerBee.SshLogins.Parser

namespace ServerBee.SshLogins

open ServerBee.Lib ServerBee.Lib.Regex

/-! ## Words -/

def Word (w : Text) : Prop := w ≠ [] ∧ ∀ c ∈ w, isWhiteSpace c = false

theorem Word.of_all {w : Text} (hne : w ≠ []) (h : w.all (fun c => !isWhiteSpace c) = true) : Word w :=
  ⟨hne, fun c hc => Bool.not_eq_true' _ ▸ List.all_eq_true.1 h c hc⟩

theorem Word.no_space {w : Text} (h : Word w) : ' ' ∉ w := fun hmem => Bool.noConfusion ((h.2 ' ' hmem).symm.trans rfl)

/-- the part of a text before its first separator -/
theorem split_at {sep : Char} {u x name y : Text} (hu : sep ∉ u) (h : u ++ sep :: x = name ++ sep :: y) :
    (name = u ∧ x = y) ∨ ∃ name', name = u ++ sep :: name' ∧ x = name' ++ sep :: y := by
  induction u generalizing name with
  | nil =>
    cases name with
    | nil => exact Or.inl ⟨rfl, (List.cons.inj h).2⟩
    | cons c name =>
      obtain ⟨rfl, hx⟩ := List.cons.inj h
      exact Or.inr ⟨name, rfl, hx⟩
  | cons c u ih =>
    have hrest : sep ∉ u := fun hmem => hu (List.mem_cons_of_mem _ hmem)
    cases name with
    | nil => exact absurd (List.mem_cons.2 (Or.inl (List.cons.inj h).1.symm)) hu
    | cons d name =>
      obtain ⟨rfl, htail⟩ := List.cons.inj h
      rcases ih hrest htail with ⟨rfl, hx⟩ | ⟨name', rfl, hx⟩
      · exact Or.inl ⟨rfl, hx⟩
      · exact Or.inr ⟨name', rfl, hx⟩

theorem words_eq {sep : Char} {u x w y : Text} (hu : sep ∉ u) (hw : sep ∉ w) (h : u ++ sep :: x = w ++ sep :: y) :
    u = w ∧ x = y := by
  rcases split_at hu h with ⟨rfl, hx⟩ | ⟨name', rfl, -⟩
  · exact ⟨rfl, hx⟩
  · exact absurd (List.mem_append_right _ List.mem_cons_self) hw

/-! ## Forms -/

/-- ` from <ip> port ` -/
def fromPort (ip z : Text) : Text := ' ' :: ("from".toList ++ ' ' :: (ip ++ ' ' :: ("port".toList ++ ' ' :: z)))

/-- the text begins with `<word> from <ip> port <digit>` -/
def Opens (digits : Digits) (t ip : Text) : Prop :=
  ∃ u d z, Word u ∧ Word ip ∧ digits.isDigit d = true ∧ t = u ++ fromPort ip (d :: z)

inductive Kind where
  | success
  | failure
deriving DecidableEq, Repr

def AuthOutcome.kind : AuthOutcome → Kind
  | .success _ => .success
  | .failure _ => .failure

/-- `<first> <method> for ` -/
def opening (first : String) (method z : Text) : Text := first.toList ++ ' ' :: (method ++ ' ' :: ("for".toList ++ ' ' :: z))

def invalidUser (z : Text) : Text := "invalid".toList ++ ' ' :: ("user".toList ++ ' ' :: z)

inductive ReadsAs (digits : Digits) : Text → Kind → Text → Prop
  | accepted {m z ip : Text} (hm : Word m) (h : Opens digits z ip) : ReadsAs digits (opening "Accepted" m z) .success ip
  | failed {m z ip : Text} (hm : Word m) (h : Opens digits z ip) : ReadsAs digits (opening "Failed" m z) .failure ip
  | failedInvalid {m z ip : Text} (hm : Word m) (h : Opens digits z ip) :
    ReadsAs digits (opening "Failed" m (invalidUser z)) .failure ip
  | invalid {z ip : Text} (h : Opens digits z ip) :
    ReadsAs digits ("Invalid".toList ++ ' ' :: ("user".toList ++ ' ' :: z)) .failure ip

/-! ## At most one reading -/

variable {digits : Digits}

theorem Digits.letter (digits : Digits) {c : Char} (h : c.toNat < 48 ∨ 57 < c.toNat ∧ c.toNat < 128) :
    digits.isDigit c = false := by
  have := digits.ascii c (by omega)
  rw [Bool.eq_false_iff]
  intro hc
  have := this.1 hc
  omega

theorem Digits.no_letter (digits : Digits) {c : Char} {P : Prop} (h : c.toNat < 48 ∨ 57 < c.toNat ∧ c.toNat < 128)
    (hc : digits.isDigit c = true) : P := absurd hc (by rw [digits.letter h]; exact Bool.false_ne_true)

theorem word_from : ' ' ∉ "from".toList := by decide

theorem word_port : ' ' ∉ "port".toList := by decide

theorem word_for : ' ' ∉ "for".toList := by decide

theorem word_invalid : ' ' ∉ "invalid".toList := by decide

theorem word_user : ' ' ∉ "user".toList := by decide

theorem Opens.unique {t ip ip' : Text} (h : Opens digits t ip) (h' : Opens digits t ip') : ip = ip' := by
  obtain ⟨u, d, z, hu, hip, -, rfl⟩ := h
  obtain ⟨u', d', z', hu', hip', -, heq⟩ := h'
  have hfrom := (words_eq hu.no_space hu'.no_space heq).2
  have haddress := (words_eq word_from word_from hfrom).2
  exact (words_eq hip.no_space hip'.no_space haddress).1

/-- `invalid user ` is no name before an address -/
theorem not_opens_invalidUser {z ip : Text} : ¬ Opens digits (invalidUser z) ip := by
  rintro ⟨u, d, z', hu, -, -, heq⟩
  have huser := (words_eq word_invalid hu.no_space heq).2
  have hword := (words_eq word_user word_from huser).1
  exact absurd hword (by decide)

/-- nor is the address itself one -/
theorem not_opens_from {ip z ip' : Text} {p : Char} (hip : Word ip) (hp : digits.isDigit p = true) :
    ¬ Opens digits ("from".toList ++ ' ' :: (ip ++ ' ' :: ("port".toList ++ ' ' :: p :: z))) ip' := by
  rintro ⟨u, d, z', hu, hip', -, heq⟩
  have hfrom := (words_eq word_from hu.no_space heq).2
  have haddress := (words_eq hip.no_space word_from hfrom).2
  have hport := (words_eq word_port hip'.no_space haddress).2
  obtain ⟨rfl, -⟩ := List.cons.inj hport
  exact digits.no_letter (by decide) hp

/-- a name before the address of a line opens at that address or at one of its own -/
theorem opens_line {user ip z ip' : Text} {p : Char} (hip : Word ip) (hp : digits.isDigit p = true) :
    Opens digits (user ++ fromPort ip (p :: z)) ip' ↔ (Word user ∧ ip' = ip) ∨ Opens digits user ip' := by
  constructor
  · rintro ⟨u, d, z', hu, hip', hd, heq⟩
    rcases split_at hu.no_space heq.symm with ⟨rfl, hfrom⟩ | ⟨n₁, rfl, h₁⟩
    · have haddress := (words_eq word_from word_from hfrom).2
      exact Or.inl ⟨hu, (words_eq hip'.no_space hip.no_space haddress).1⟩
    refine Or.inr ?_
    rcases split_at word_from h₁ with ⟨rfl, hx⟩ | ⟨n₂, rfl, h₂⟩
    · -- the name ends in ` from`: its address would be the word `from`, its port the address
      have haddress := (words_eq hip'.no_space word_from hx).2
      have hport := (words_eq word_port hip.no_space haddress).2
      obtain ⟨rfl, -⟩ := List.cons.inj hport
      exact digits.no_letter (by decide) hd
    rcases split_at hip'.no_space h₂ with ⟨rfl, hx⟩ | ⟨n₃, rfl, h₃⟩
    · exact absurd (words_eq word_port word_from hx).1 (by decide)
    rcases split_at word_port h₃ with ⟨rfl, hx⟩ | ⟨n₄, rfl, h₄⟩
    · obtain ⟨rfl, -⟩ := List.cons.inj hx
      exact digits.no_letter (by decide) hd
    cases n₄ with
    | nil =>
      obtain ⟨rfl, -⟩ := List.cons.inj h₄
      exact digits.no_letter (by decide) hd
    | cons c n =>
      obtain ⟨rfl, -⟩ := List.cons.inj h₄
      exact ⟨u, d, n, hu, hip', hd, rfl⟩
  · rintro (⟨huser, rfl⟩ | ⟨u, d, z', hu, hip', hd, rfl⟩)
    · exact ⟨user, p, z, huser, hip, hp, rfl⟩
    · exact ⟨u, d, z' ++ fromPort ip (p :: z), hu, hip', hd, by simp [fromPort]⟩

theorem invalidUser_inj {z z' : Text} (h : invalidUser z = invalidUser z') : z = z' := by
  have huser := (words_eq word_invalid word_invalid h).2
  exact (words_eq word_user word_user huser).2

theorem opening_inj {first : String} {m z m' z' : Text} (hm : ' ' ∉ m) (hm' : ' ' ∉ m')
    (h : opening first m z = opening first m' z') : m = m' ∧ z = z' := by
  have hmethod := (List.cons.inj (List.append_cancel_left h)).2
  obtain ⟨rfl, hfor⟩ := words_eq hm hm' hmethod
  exact ⟨rfl, (words_eq word_for word_for hfor).2⟩

/-! ## Readings of each form -/

variable {m z k ip : Text}

theorem readsAs_accepted {k : Kind} (hm : ' ' ∉ m) :
    ReadsAs digits (opening "Accepted" m z) k ip ↔ Word m ∧ k = .success ∧ Opens digits z ip := by
  constructor
  · intro h
    generalize ht : opening "Accepted" m z = t at h
    cases h with
    | accepted hm' h =>
      obtain ⟨rfl, rfl⟩ := opening_inj hm hm'.no_space ht
      exact ⟨hm', rfl, h⟩
    | failed | failedInvalid | invalid => exact absurd (List.cons.inj ht).1 (by decide)
  · rintro ⟨hm', rfl, h⟩
    exact .accepted hm' h

theorem readsAs_failed {k : Kind} (hm : ' ' ∉ m) :
    ReadsAs digits (opening "Failed" m z) k ip ↔
      Word m ∧ k = .failure ∧ (Opens digits z ip ∨ ∃ r, z = invalidUser r ∧ Opens digits r ip) := by
  constructor
  · intro h
    generalize ht : opening "Failed" m z = t at h
    cases h with
    | failed hm' h =>
      obtain ⟨rfl, rfl⟩ := opening_inj hm hm'.no_space ht
      exact ⟨hm', rfl, Or.inl h⟩
    | failedInvalid hm' h =>
      obtain ⟨rfl, rfl⟩ := opening_inj hm hm'.no_space ht
      exact ⟨hm', rfl, Or.inr ⟨_, rfl, h⟩⟩
    | accepted | invalid => exact absurd (List.cons.inj ht).1 (by decide)
  · rintro ⟨hm', rfl, h | ⟨r, rfl, h⟩⟩
    · exact .failed hm' h
    · exact .failedInvalid hm' h

theorem readsAs_invalid {k : Kind} :
    ReadsAs digits ("Invalid".toList ++ ' ' :: ("user".toList ++ ' ' :: z)) k ip ↔ k = .failure ∧ Opens digits z ip := by
  constructor
  · intro h
    generalize ht : "Invalid".toList ++ ' ' :: ("user".toList ++ ' ' :: z) = t at h
    cases h with
    | invalid h =>
      have huser := (words_eq (by decide) (by decide) ht).2
      obtain rfl := (words_eq word_user word_user huser).2
      exact ⟨rfl, h⟩
    | accepted | failed | failedInvalid => exact absurd (List.cons.inj ht).1 (by decide)
  · rintro ⟨rfl, h⟩
    exact .invalid h

theorem ReadsAs.unique {t ip' : Text} {k k' : Kind} (h : ReadsAs digits t k ip) (h' : ReadsAs digits t k' ip') :
    k = k' ∧ ip = ip' := by
  cases h with
  | accepted hm h =>
    obtain ⟨-, rfl, hz⟩ := (readsAs_accepted hm.no_space).1 h'
    exact ⟨rfl, h.unique hz⟩
  | failed hm h =>
    obtain ⟨-, rfl, hz | ⟨r, rfl, -⟩⟩ := (readsAs_failed hm.no_space).1 h'
    · exact ⟨rfl, h.unique hz⟩
    · exact absurd h not_opens_invalidUser
  | failedInvalid hm h =>
    obtain ⟨-, rfl, hz | ⟨r, hr, hz⟩⟩ := (readsAs_failed hm.no_space).1 h'
    · exact absurd hz not_opens_invalidUser
    · obtain rfl := invalidUser_inj hr
      exact ⟨rfl, h.unique hz⟩
  | invalid h =>
    obtain ⟨rfl, hz⟩ := readsAs_invalid.1 h'
    exact ⟨rfl, h.unique hz⟩

/-! ## The parser reads what the grammar says -/

/-- what the address part captures, with groups from number `n` on -/
structure Origin (digits : Digits) (n : ℕ) (h : Hit) (s ip : Text) : Prop where
  opens : Opens digits s ip
  groups : ∃ u ds, h.groups = [(n, u), (n + 1, ip), (n + 2, ds)]

theorem mem_word {h : Hit} {s : Text} : h ∈ hits word s ↔ s = h.matched ++ h.rest ∧ Word h.matched ∧ h.groups = [] := by
  simp only [word, mem_plus, Word, Bool.not_eq_true', and_assoc]

theorem origin_sound {n : ℕ} {h : Hit} {s : Text} (hh : h ∈ hits (origin digits n) s) : ∃ ip, Origin digits n h s ip := by
  simp only [origin, lit, mem_seq, mem_group, mem_lit, mem_word, mem_plus] at hh
  obtain ⟨_, ⟨u, ⟨rfl, hu, hug⟩, rfl⟩, _, ⟨_, ⟨hfrom, hx⟩, _, ⟨_, ⟨i, ⟨hi, hip, hig⟩, rfl⟩, _, ⟨_, ⟨hport, hy⟩, _,
    ⟨ds, ⟨hds, hne, hall, hdg⟩, rfl⟩, rfl⟩, rfl⟩, rfl⟩, rfl⟩ := hh
  obtain ⟨d, ds', hd⟩ := List.exists_cons_of_ne_nil hne
  refine ⟨i.matched, ⟨u.matched, d, ds' ++ ds.rest, hu, hip, hall d (by rw [hd]; exact List.mem_cons_self), ?_⟩, ?_⟩
  · dsimp only at hfrom hport hi hds
    rw [hfrom, hi, hport, hds, hd]
    rfl
  · rw [hx, hy, hug, hig, hdg]
    exact ⟨u.matched, ds.matched, rfl⟩

theorem origin_complete {n : ℕ} {s : Text} (h : Opens digits s ip) : ∃ x, x ∈ hits (origin digits n) s := by
  obtain ⟨u, d, z, hu, hip, hd, rfl⟩ := h
  let afterIp : Text := " port ".toList ++ d :: z
  have hport : (⟨[d], z, []⟩ : Hit) ∈ hits (.plus digits.isDigit) (d :: z) :=
    mem_plus.2 ⟨rfl, List.cons_ne_nil _ _, by simpa using hd, rfl⟩
  have hports : (⟨" port ".toList, d :: z, []⟩ : Hit) ∈ hits (lit " port ") afterIp := mem_lit.2 ⟨rfl, rfl⟩
  have hips : (⟨ip, afterIp, []⟩ : Hit) ∈ hits word (ip ++ afterIp) := mem_word.2 ⟨rfl, hip, rfl⟩
  have hfrom : (⟨" from ".toList, ip ++ afterIp, []⟩ : Hit) ∈ hits (lit " from ") (fromPort ip (d :: z)) :=
    mem_lit.2 ⟨rfl, rfl⟩
  have huser : (⟨u, fromPort ip (d :: z), []⟩ : Hit) ∈ hits word (u ++ fromPort ip (d :: z)) := mem_word.2 ⟨rfl, hu, rfl⟩
  exact ⟨_, mem_seq.2 ⟨_, mem_group.2 ⟨_, huser, rfl⟩, _, mem_seq.2 ⟨_, hfrom, _, mem_seq.2 ⟨_,
    mem_group.2 ⟨_, hips, rfl⟩, _, mem_seq.2 ⟨_, hports, _, mem_group.2 ⟨_, hport, rfl⟩, rfl⟩, rfl⟩, rfl⟩, rfl⟩⟩

theorem mem_methods {h : Hit} {s : Text} (hh : h ∈ hits methods s) :
    s = h.matched ++ h.rest ∧ Word h.matched ∧ h.groups = [] := by
  have hpublickey : Word "publickey".toList := .of_all (by decide) (by decide)
  have hpassword : Word "password".toList := .of_all (by decide) (by decide)
  have hinteractive : Word "keyboard-interactive".toList := .of_all (by decide) (by decide)
  simp only [methods, lit, mem_alt, mem_lit] at hh
  rcases hh with ⟨hs, hh⟩ | ⟨hs, hh⟩ | ⟨hs, hh⟩ | hh
  · rw [hh]
    exact ⟨hs, hpublickey, rfl⟩
  · rw [hh]
    exact ⟨hs, hpassword, rfl⟩
  · rw [hh]
    exact ⟨hs, hinteractive, rfl⟩
  · exact mem_word.1 hh

theorem accepted_sound {h : Hit} {s : Text} (hh : h ∈ hits (RE_ACCEPTED digits) s) :
    ReadsAs digits s .success (capture (fun n => h.groups.lookup n) 3) := by
  simp only [RE_ACCEPTED, lit, mem_seq, mem_group, mem_lit] at hh
  obtain ⟨x, ⟨hs, hx⟩, _, ⟨_, ⟨w, hw, rfl⟩, _, ⟨y, ⟨hfor, hy⟩, o, ho, rfl⟩, rfl⟩, rfl⟩ := hh
  obtain ⟨ip, ⟨hopens, u, ds, hg⟩⟩ := origin_sound ho
  obtain ⟨hrest, hword, hwg⟩ := mem_methods hw
  dsimp only at hfor
  have htext : s = opening "Accepted" w.matched y.rest := by
    rw [hs, hrest, hfor]
    rfl
  have hip : capture (fun n => (x.groups ++ ((1, w.matched) :: w.groups ++ (y.groups ++ o.groups))).lookup n) 3 = ip := by
    rw [hx, hy, hwg, hg]
    rfl
  rw [hip, htext]
  exact .accepted hword hopens

theorem accepted_complete {z : Text} (hm : Word m) (h : Opens digits z ip) :
    ∃ x, x ∈ hits (RE_ACCEPTED digits) (opening "Accepted" m z) := by
  obtain ⟨o, ho⟩ := origin_complete (n := 2) h
  have hfirst : (⟨"Accepted ".toList, m ++ (" for ".toList ++ z), []⟩ : Hit) ∈ hits (lit "Accepted ") (opening "Accepted" m z) :=
    mem_lit.2 ⟨rfl, rfl⟩
  have hmethod : (⟨m, " for ".toList ++ z, []⟩ : Hit) ∈ hits methods (m ++ (" for ".toList ++ z)) :=
    mem_alt.2 (Or.inr (mem_alt.2 (Or.inr (mem_alt.2 (Or.inr (mem_word.2 ⟨rfl, hm, rfl⟩))))))
  have hfor : (⟨" for ".toList, z, []⟩ : Hit) ∈ hits (lit " for ") (" for ".toList ++ z) := mem_lit.2 ⟨rfl, rfl⟩
  exact ⟨_, mem_seq.2 ⟨_, hfirst, _, mem_seq.2 ⟨_, mem_group.2 ⟨_, hmethod, rfl⟩, _, mem_seq.2 ⟨_, hfor, _, ho, rfl⟩, rfl⟩, rfl⟩⟩

theorem failed_sound {h : Hit} {s : Text} (hh : h ∈ hits (RE_FAILED digits) s) :
    ReadsAs digits s .failure (capture (fun n => h.groups.lookup n) 3) := by
  simp only [RE_FAILED, lit, mem_seq, mem_group, mem_lit, mem_opt, mem_word] at hh
  obtain ⟨x, ⟨hs, hx⟩, _, ⟨w, ⟨hw, hword, hwg⟩, _, ⟨y, ⟨hfor, hy⟩, _, ⟨i, hi, o, ho, rfl⟩, rfl⟩, rfl⟩, rfl⟩ := hh
  obtain ⟨ip, ⟨hopens, u, ds, hg⟩⟩ := origin_sound ho
  have htext : s = opening "Failed" w.matched y.rest := by
    rw [hs, hw, hfor]
    rfl
  rcases hi with ⟨v, ⟨hv, hvh⟩, rfl⟩ | rfl
  · have hip : capture (fun n => (x.groups ++ (w.groups ++ (y.groups ++ ((1, v.matched) :: v.groups ++ o.groups)))).lookup n) 3 = ip := by
      rw [hx, hy, hwg, hvh, hg]
      rfl
    rw [hip, htext, hv]
    exact .failedInvalid hword hopens
  · have hip : capture (fun n => (x.groups ++ (w.groups ++ (y.groups ++ ([] ++ o.groups)))).lookup n) 3 = ip := by
      rw [hx, hy, hwg, hg]
      rfl
    rw [hip, htext]
    exact .failed hword hopens

theorem failed_complete {z t : Text} (hm : Word m) (h : Opens digits z ip) (ht : t = z ∨ t = invalidUser z) :
    ∃ x, x ∈ hits (RE_FAILED digits) (opening "Failed" m t) := by
  obtain ⟨o, ho⟩ := origin_complete (n := 2) h
  have hfirst : (⟨"Failed ".toList, m ++ (" for ".toList ++ t), []⟩ : Hit) ∈ hits (lit "Failed ") (opening "Failed" m t) :=
    mem_lit.2 ⟨rfl, rfl⟩
  have hmethod : (⟨m, " for ".toList ++ t, []⟩ : Hit) ∈ hits word (m ++ (" for ".toList ++ t)) := mem_word.2 ⟨rfl, hm, rfl⟩
  have hfor : (⟨" for ".toList, t, []⟩ : Hit) ∈ hits (lit " for ") (" for ".toList ++ t) := mem_lit.2 ⟨rfl, rfl⟩
  have hinvalid : ∃ i ∈ hits (.opt (.group 1 (lit "invalid user "))) t, i.rest = z := by
    rcases ht with rfl | rfl
    · exact ⟨_, mem_opt.2 (Or.inr rfl), rfl⟩
    · have : (⟨"invalid user ".toList, z, []⟩ : Hit) ∈ hits (lit "invalid user ") (invalidUser z) := mem_lit.2 ⟨rfl, rfl⟩
      exact ⟨_, mem_opt.2 (Or.inl (mem_group.2 ⟨_, this, rfl⟩)), rfl⟩
  obtain ⟨i, hi, rfl⟩ := hinvalid
  exact ⟨_, mem_seq.2 ⟨_, hfirst, _, mem_seq.2 ⟨_, hmethod, _, mem_seq.2 ⟨_, hfor, _, mem_seq.2 ⟨_, hi, _, ho, rfl⟩, rfl⟩, rfl⟩, rfl⟩⟩

theorem invalid_sound {h : Hit} {s : Text} (hh : h ∈ hits (RE_INVALID_USER digits) s) :
    ReadsAs digits s .failure (capture (fun n => h.groups.lookup n) 2) := by
  simp only [RE_INVALID_USER, lit, mem_seq, mem_lit] at hh
  obtain ⟨x, ⟨hs, hx⟩, o, ho, rfl⟩ := hh
  obtain ⟨ip, ⟨hopens, u, ds, hg⟩⟩ := origin_sound ho
  have hip : capture (fun n => (x.groups ++ o.groups).lookup n) 2 = ip := by
    rw [hx, hg]
    rfl
  rw [hip, hs]
  exact .invalid hopens

theorem invalid_complete {z : Text} (h : Opens digits z ip) :
    ∃ x, x ∈ hits (RE_INVALID_USER digits) ("Invalid".toList ++ ' ' :: ("user".toList ++ ' ' :: z)) := by
  obtain ⟨o, ho⟩ := origin_complete (n := 1) h
  have hfirst : (⟨"Invalid user ".toList, z, []⟩ : Hit) ∈
      hits (lit "Invalid user ") ("Invalid".toList ++ ' ' :: ("user".toList ++ ' ' :: z)) := mem_lit.2 ⟨rfl, rfl⟩
  exact ⟨_, mem_seq.2 ⟨_, hfirst, _, ho, rfl⟩⟩

/-- what the parser returns is a reading of the line -/
theorem parseSshdLine_sound {t : Text} {a : AuthAttempt} (h : parseSshdLine digits t = some a) :
    ReadsAs digits t a.outcome.kind a.sourceIp := by
  unfold parseSshdLine at h
  split at h
  next c hc =>
    obtain ⟨x, hx, rfl⟩ := captures_eq_some hc
    obtain rfl := Option.some.inj h
    exact accepted_sound hx
  next =>
    split at h
    next c hc =>
      obtain ⟨x, hx, rfl⟩ := captures_eq_some hc
      obtain rfl := Option.some.inj h
      exact failed_sound hx
    next =>
      split at h
      next c hc =>
        obtain ⟨x, hx, rfl⟩ := captures_eq_some hc
        obtain rfl := Option.some.inj h
        exact invalid_sound hx
      next => exact nomatch h

/-- a line that has a reading is not passed over -/
theorem parseSshdLine_ne_none {t : Text} {k : Kind} (h : ReadsAs digits t k ip) : parseSshdLine digits t ≠ none := by
  intro hnone
  unfold parseSshdLine at hnone
  split at hnone
  next => exact nomatch hnone
  next hacc =>
    split at hnone
    next => exact nomatch hnone
    next hfail =>
      split at hnone
      next => exact nomatch hnone
      next hinv =>
        rw [captures_eq_none] at hacc hfail hinv
        cases h with
        | accepted hm h => exact (accepted_complete hm h).elim hacc
        | failed hm h => exact (failed_complete hm h (Or.inl rfl)).elim hfail
        | failedInvalid hm h => exact (failed_complete hm h (Or.inr rfl)).elim hfail
        | invalid h => exact (invalid_complete h).elim hinv

/-- **The parser and the grammar.** Every attempt read from a text has kind `k` and address `ip` exactly if every reading has. -/
theorem parseSshdLine_all {t : Text} {k : Kind} :
    (∀ a, parseSshdLine digits t = some a → a.outcome.kind = k ∧ a.sourceIp = ip) ↔
      ∀ k' ip', ReadsAs digits t k' ip' → k' = k ∧ ip' = ip := by
  constructor
  · intro hall k' ip' h
    obtain ⟨a, ha⟩ := Option.ne_none_iff_exists'.1 (parseSshdLine_ne_none h)
    obtain ⟨hk, hi⟩ := (parseSshdLine_sound ha).unique h
    rw [← hk, ← hi]
    exact hall a ha
  · intro hall a ha
    exact hall _ _ (parseSshdLine_sound ha)

end ServerBee.SshLogins
