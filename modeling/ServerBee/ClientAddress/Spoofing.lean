/-
When the server sees the client's own address.

The server reads the first line of X-Forwarded-For only. Of the entries that proxies write only the first decides, which is
the client's own (`answer_pass`), and it is on the first line exactly if the client sent no such line, or one that the first
proxy extended. `seen_iff` is the exact condition: the client's entry is on the first line and the line is visible ASCII, or
the client's own text names its address.
-/
import ServerBee.ClientAddress.Model

namespace ServerBee.ClientAddress

open ServerBee.Lib ServerBee.Firewall ServerBee.Probes

/-! ## Entries -/

/-- the address that a value gives -/
def verdict (trustedProxies : List IpNet) (v : HeaderValue) : Option IpAddr :=
  (toStr v).bind fun xff => firstUntrusted trustedProxies (xff.splitOn ',').reverse

/-- an address character stands in a header as one byte, and nothing cuts it off -/
theorem addrChar_facts {ch : Char} (h : IsAddrChar ch) : isVisible (UInt8.ofNat ch.toNat) = true ∧
    Char.ofNat (UInt8.ofNat ch.toNat).toNat = ch ∧ isWhiteSpace ch = false ∧ ch ≠ ',' := by
  have hrange : ∀ n < 128, IsAddrChar (Char.ofNat n) → isVisible (UInt8.ofNat n) = true ∧ (UInt8.ofNat n).toNat = n ∧
      isWhiteSpace (Char.ofNat n) = false ∧ Char.ofNat n ≠ ',' := by decide +kernel
  have hsmall : ch.toNat < 128 := by
    simp only [IsAddrChar, isHexDigit, Bool.or_eq_true, Bool.and_eq_true, decide_eq_true_eq, Char.le_def] at h
    rcases h with ((h | h) | h) | rfl | rfl
    · exact lt_of_le_of_lt (show ch.toNat ≤ 57 from UInt32.le_iff_toNat_le.1 h.2) (by decide)
    · exact lt_of_le_of_lt (show ch.toNat ≤ 102 from UInt32.le_iff_toNat_le.1 h.2) (by decide)
    · exact lt_of_le_of_lt (show ch.toNat ≤ 70 from UInt32.le_iff_toNat_le.1 h.2) (by decide)
    · decide
    · decide
  have hch : Char.ofNat ch.toNat = ch := Char.ofNat_toNat ch
  obtain ⟨hvisible, hbyte, hspace, hcomma⟩ := hrange ch.toNat hsmall (hch.symm ▸ h)
  rw [hch] at hspace hcomma
  exact ⟨hvisible, by rw [hbyte, hch], hspace, hcomma⟩

theorem text_chars (p : Peer) : ∀ ch ∈ p.text, IsAddrChar ch := parseAddr_chars p.reads

theorem comma_not_mem (p : Peer) : ',' ∉ p.text := fun h => (addrChar_facts (text_chars p ',' h)).2.2.2 rfl

theorem toStr_bytes {t : Text} (h : ∀ ch ∈ t, IsAddrChar ch) : toStr (bytes t) = some t := by
  have hvisible : (bytes t).all isVisible = true := by
    simp only [bytes, List.all_map, List.all_eq_true]
    intro ch hch
    exact (addrChar_facts (h ch hch)).1
  have hback : (bytes t).map (fun b => Char.ofNat b.toNat) = t := by
    rw [bytes, List.map_map]
    calc t.map _ = t.map id := List.map_congr_left fun ch hch => (addrChar_facts (h ch hch)).2.1
      _ = t := List.map_id t
  rw [toStr, if_pos hvisible, hback]

theorem toStr_extend {t : Text} (h : ∀ ch ∈ t, IsAddrChar ch) (v : HeaderValue) :
    toStr (extend v t) = (toStr v).map (· ++ ',' :: ' ' :: t) := by
  have hrest := toStr_bytes h
  unfold toStr at hrest
  split_ifs at hrest with ht
  have hmap := Option.some.inj hrest
  have hall : (extend v t).all isVisible = v.all isVisible := by
    rw [extend, List.all_append]
    change (_ && (isVisible 44 && (isVisible 32 && (bytes t).all isVisible))) = _
    rw [ht]
    exact Bool.and_true _
  unfold toStr
  rw [hall]
  split_ifs with hv
  · rw [extend, List.map_append, Option.map_some]
    exact congrArg (fun rest => some (v.map _ ++ ',' :: ' ' :: rest)) hmap
  · rfl

theorem trim_text (p : Peer) : trim p.text = p.text := by
  have hspace : ∀ ch ∈ p.text, isWhiteSpace ch = false := fun ch hch => (addrChar_facts (text_chars p ch hch)).2.2.1
  have hdrop : p.text.dropWhile isWhiteSpace = p.text := by
    rw [List.dropWhile_eq_self_iff]
    intro hlen
    rw [hspace _ (List.getElem_mem hlen)]
    exact Bool.false_ne_true
  rw [trim, hdrop, List.rdropWhile_eq_self_iff]
  intro hne
  rw [hspace _ (List.getLast_mem hne)]
  exact Bool.false_ne_true

theorem trim_blank (p : Peer) : trim (' ' :: p.text) = p.text := by
  have hblank : isWhiteSpace ' ' = true := by decide
  have h := trim_text p
  unfold trim at h ⊢
  rwa [List.dropWhile_cons_of_pos hblank]

variable (trustedProxies : List IpNet)

/-- what an entry of a proxy means before the entries to its left -/
theorem firstUntrusted_text {part : Text} {p : Peer} (h : trim part = p.text) (parts : List Text) :
    firstUntrusted trustedProxies (part :: parts) =
      if isTrusted p.ip trustedProxies then firstUntrusted trustedProxies parts else some p.ip := by
  rw [firstUntrusted, h, p.reads]

theorem verdict_bytes (p : Peer) :
    verdict trustedProxies (bytes p.text) = if isTrusted p.ip trustedProxies then none else some p.ip := by
  rw [verdict, toStr_bytes (text_chars p), Option.bind_some, List.splitOn_eq_singleton (comma_not_mem p)]
  exact firstUntrusted_text trustedProxies (trim_text p) []

theorem verdict_extend (p : Peer) (v : HeaderValue) : verdict trustedProxies (extend v p.text) =
    if isTrusted p.ip trustedProxies then verdict trustedProxies v else (toStr v).map fun _ => p.ip := by
  rw [verdict, toStr_extend (text_chars p), verdict]
  cases toStr v with
  | none => simp
  | some xff =>
    have hcomma : ',' ∉ ' ' :: p.text := by
      intro h
      exact (List.mem_cons.1 h).elim (by decide) (comma_not_mem p)
    have hsplit : (xff ++ ',' :: ' ' :: p.text).splitOn ',' = xff.splitOn ',' ++ [' ' :: p.text] := by
      rw [List.splitOn_append_cons_self, List.splitOn_eq_singleton hcomma]
    simp only [Option.map_some, Option.bind_some]
    rw [hsplit, List.reverse_append]
    exact firstUntrusted_text trustedProxies (trim_blank p) _

/-! ## Lines -/

theorem getAll_addLine (t : Text) (headers : HeaderMap) :
    getAll xForwardedFor (addLine t headers) = getAll xForwardedFor headers ++ [bytes t] := by
  simp [getAll, addLine]

/-- the last value is extended, if there is one -/
theorem extendLast_spec (t : Text) (headers : HeaderMap) :
    (getAll xForwardedFor headers = [] ∧ extendLast t headers = none) ∨
    ∃ vs v headers', getAll xForwardedFor headers = vs ++ [v] ∧ extendLast t headers = some headers' ∧
      getAll xForwardedFor headers' = vs ++ [extend v t] := by
  induction headers with
  | nil => exact Or.inl ⟨rfl, rfl⟩
  | cons e headers ih =>
    have hcons : ∀ hs : HeaderMap, getAll xForwardedFor (e :: hs) =
        (if e.1 = xForwardedFor then [e.2] else []) ++ getAll xForwardedFor hs := by
      intro hs
      by_cases he : e.1 = xForwardedFor <;> simp [getAll, he]
    rcases ih with ⟨hnil, hnone⟩ | ⟨vs, v, headers', hvs, hsome, hvs'⟩
    · by_cases he : e.1 = xForwardedFor
      · refine Or.inr ⟨[], e.2, (e.1, extend e.2 t) :: headers, ?_, ?_, ?_⟩
        · rw [hcons, if_pos he, hnil]
          rfl
        · rw [extendLast, hnone]
          exact if_pos he
        · simp only [getAll] at hnil
          simp [getAll, he, hnil]
      · refine Or.inl ⟨?_, ?_⟩
        · rw [hcons, if_neg he, hnil]
          rfl
        · rw [extendLast, hnone]
          exact if_neg he
    · refine Or.inr ⟨(if e.1 = xForwardedFor then [e.2] else []) ++ vs, v, e :: headers', ?_, ?_, ?_⟩
      · rw [hcons, hvs, List.append_assoc]
      · rw [extendLast, hsome]
      · rw [hcons, hvs', List.append_assoc]

theorem getAll_record_nil {headers : HeaderMap} (h : getAll xForwardedFor headers = []) (mode : Mode) (p : Peer) :
    getAll xForwardedFor (record mode p headers) = [bytes p.text] := by
  have hline : getAll xForwardedFor (addLine p.text headers) = [bytes p.text] := by
    rw [getAll_addLine, h]
    rfl
  cases mode with
  | addLine => exact hline
  | extendLast =>
    rcases extendLast_spec p.text headers with ⟨-, hnone⟩ | ⟨vs, v, _, hvs, -, -⟩
    · rw [record, hnone]
      exact hline
    · rw [h] at hvs
      exact absurd hvs.symm (List.append_ne_nil_of_right_ne_nil vs (List.cons_ne_nil v []))

theorem getAll_record_extendLast {headers : HeaderMap} (vs : List HeaderValue) {v : HeaderValue}
    (h : getAll xForwardedFor headers = vs ++ [v]) (p : Peer) :
    getAll xForwardedFor (record .extendLast p headers) = vs ++ [extend v p.text] := by
  rcases extendLast_spec p.text headers with ⟨hnil, -⟩ | ⟨ws, w, headers', hws, hsome, hws'⟩
  · rw [h] at hnil
    exact absurd hnil (List.append_ne_nil_of_right_ne_nil vs (List.cons_ne_nil v []))
  · rw [h] at hws
    obtain ⟨rfl, hv⟩ := List.append_inj' hws rfl
    cases hv
    rw [record, hsome]
    exact hws'

/-- what the server reads from the first line -/
def answer (headers : HeaderMap) : Option IpAddr := (get xForwardedFor headers).bind (verdict trustedProxies)

theorem answer_cons {headers : HeaderMap} {v : HeaderValue} {vs : List HeaderValue}
    (h : getAll xForwardedFor headers = v :: vs) : answer trustedProxies headers = verdict trustedProxies v := by
  rw [answer, get, h]
  rfl

/-- a proxy that writes down a trusted peer leaves the answer as it is -/
theorem answer_record_trusted {p : Peer} (hp : isTrusted p.ip trustedProxies = true) (mode : Mode) {headers : HeaderMap}
    (hne : getAll xForwardedFor headers ≠ []) :
    getAll xForwardedFor (record mode p headers) ≠ [] ∧
      answer trustedProxies (record mode p headers) = answer trustedProxies headers := by
  obtain ⟨v, vs, h⟩ := List.exists_cons_of_ne_nil hne
  cases mode with
  | addLine =>
    have hline : getAll xForwardedFor (record .addLine p headers) = v :: (vs ++ [bytes p.text]) := by
      rw [record, getAll_addLine, h]
      rfl
    rw [answer_cons _ hline, answer_cons _ h, hline]
    exact ⟨List.cons_ne_nil _ _, rfl⟩
  | extendLast =>
    cases vs using List.reverseRecOn with
    | nil =>
      have hline : getAll xForwardedFor (record .extendLast p headers) = [extend v p.text] :=
        getAll_record_extendLast [] h p
      rw [answer_cons _ hline, answer_cons _ h, hline, verdict_extend, if_pos hp]
      exact ⟨List.cons_ne_nil _ _, rfl⟩
    | append_singleton vs w _ =>
      have hline : getAll xForwardedFor (record .extendLast p headers) = v :: (vs ++ [extend w p.text]) :=
        getAll_record_extendLast (v :: vs) h p
      rw [answer_cons _ hline, answer_cons _ h, hline]
      exact ⟨List.cons_ne_nil _ _, rfl⟩

/-- of the entries of proxies only the first one, by the client's peer, decides -/
theorem answer_pass {p : Peer} {first : Proxy} {rest : List Proxy} {headers : HeaderMap}
    (htrusted : ∀ q ∈ first :: rest, isTrusted q.peer.ip trustedProxies = true) :
    answer trustedProxies (pass p (first :: rest) headers) = answer trustedProxies (record first.mode p headers) := by
  have hrun : ∀ (proxies : List Proxy) (q : Peer) (hs : HeaderMap), isTrusted q.ip trustedProxies = true →
      (∀ r ∈ proxies, isTrusted r.peer.ip trustedProxies = true) → getAll xForwardedFor hs ≠ [] →
      answer trustedProxies (pass q proxies hs) = answer trustedProxies hs := by
    intro proxies
    induction proxies with
    | nil =>
      intro q hs _ _ _
      rfl
    | cons r proxies ih =>
      intro q hs hq hproxies hne
      obtain ⟨hne', hsame⟩ := answer_record_trusted trustedProxies hq r.mode hne
      have hrest := fun s hs => hproxies s (List.mem_cons_of_mem r hs)
      rw [pass, ih r.peer _ (hproxies r List.mem_cons_self) hrest hne', hsame]
  have hrest := fun q hq => htrusted q (List.mem_cons_of_mem first hq)
  refine hrun rest first.peer _ (htrusted first List.mem_cons_self) hrest ?_
  cases h : getAll xForwardedFor headers using List.reverseRecOn with
  | nil =>
    rw [getAll_record_nil h]
    exact List.cons_ne_nil _ _
  | append_singleton vs v _ =>
    cases first.mode with
    | addLine =>
      rw [record, getAll_addLine]
      exact List.append_ne_nil_of_right_ne_nil _ (List.cons_ne_nil _ _)
    | extendLast =>
      rw [getAll_record_extendLast _ h]
      exact List.append_ne_nil_of_right_ne_nil _ (List.cons_ne_nil _ _)

/-! ## The client -/

variable {trustedProxies} (c : Chain trustedProxies)

theorem Chain.seen_eq (sent : HeaderMap) : c.seen sent = (answer trustedProxies (c.arrives sent)).getD c.tcpIp := by
  have htcp : isTrusted c.tcpIp trustedProxies = true :=
    c.proxies_trusted _ (List.getLast_mem (List.cons_ne_nil c.first c.rest))
  have hsome : trustedProxies.isEmpty = false := by
    obtain ⟨net, hnet, -⟩ := List.any_eq_true.1 htcp
    exact List.isEmpty_eq_false_iff_exists_mem.2 ⟨net, hnet⟩
  rw [Chain.seen, extractClientIp, hsome, htcp, answer]
  cases get xForwardedFor (c.arrives sent) with
  | none => rfl
  | some v =>
    simp only [Option.bind_some, verdict]
    cases toStr v <;> rfl

/-- the connection to the server comes from a proxy, never from the client -/
theorem Chain.tcpIp_ne : c.tcpIp ≠ c.client.ip := by
  intro h
  have htcp := c.proxies_trusted _ (List.getLast_mem (List.cons_ne_nil c.first c.rest))
  change isTrusted c.tcpIp trustedProxies = true at htcp
  rw [h, c.client_untrusted] at htcp
  cases htcp

theorem Chain.seen_iff_answer (sent : HeaderMap) :
    c.seen sent = c.client.ip ↔ answer trustedProxies (record c.first.mode c.client sent) = some c.client.ip := by
  rw [c.seen_eq, Chain.arrives, answer_pass trustedProxies c.proxies_trusted]
  cases answer trustedProxies (record c.first.mode c.client sent) with
  | none => exact ⟨fun h => absurd h c.tcpIp_ne, fun h => nomatch h⟩
  | some ip => exact (Option.some_inj).symm

/-- the last part of a line that is an untrusted address is this one -/
def Names (trustedProxies : List IpNet) (v : HeaderValue) (ip : IpAddr) : Prop :=
  ∃ xff before part after, toStr v = some xff ∧ xff.splitOn ',' = before ++ part :: after ∧ parseAddr (trim part) = some ip ∧
    isTrusted ip trustedProxies = false ∧
    ∀ other ∈ after, ∀ ip', parseAddr (trim other) = some ip' → isTrusted ip' trustedProxies = true

theorem firstUntrusted_eq_some {parts : List Text} {ip : IpAddr} : firstUntrusted trustedProxies parts = some ip ↔
    ∃ after part before, parts = after ++ part :: before ∧ parseAddr (trim part) = some ip ∧
      isTrusted ip trustedProxies = false ∧
      ∀ other ∈ after, ∀ ip', parseAddr (trim other) = some ip' → isTrusted ip' trustedProxies = true := by
  induction parts with
  | nil =>
    constructor
    · intro h
      cases h
    · rintro ⟨after, part, before, h, -⟩
      exact absurd h.symm (List.append_ne_nil_of_right_ne_nil after (List.cons_ne_nil part before))
  | cons first parts ih =>
    -- the walk goes on exactly if the part is no untrusted address
    by_cases hstop : ∃ ip', parseAddr (trim first) = some ip' ∧ isTrusted ip' trustedProxies = false
    · obtain ⟨ip', hparse, huntrusted⟩ := hstop
      have hfirst : firstUntrusted trustedProxies (first :: parts) = some ip' := by
        rw [firstUntrusted, hparse]
        exact if_neg (huntrusted ▸ Bool.false_ne_true)
      rw [hfirst]
      constructor
      · intro h
        cases h
        exact ⟨[], first, parts, rfl, hparse, huntrusted, fun _ h => nomatch h⟩
      · rintro ⟨after, part, before, hparts, hpart, -, hafter⟩
        cases after with
        | nil =>
          cases hparts
          exact hparse.symm.trans hpart
        | cons other after =>
          cases hparts
          have htrusted := hafter first List.mem_cons_self ip' hparse
          rw [huntrusted] at htrusted
          cases htrusted
    · push Not at hstop
      have hgo : ∀ ip', parseAddr (trim first) = some ip' → isTrusted ip' trustedProxies = true := by
        intro ip' hparse
        exact Bool.eq_true_of_not_eq_false (hstop ip' hparse)
      have hfirst : firstUntrusted trustedProxies (first :: parts) = firstUntrusted trustedProxies parts := by
        rw [firstUntrusted]
        cases hparse : parseAddr (trim first) with
        | none => rfl
        | some ip' => exact if_pos (hgo ip' hparse)
      rw [hfirst, ih]
      constructor
      · rintro ⟨after, part, before, rfl, hpart, huntrusted, hafter⟩
        refine ⟨first :: after, part, before, rfl, hpart, huntrusted, ?_⟩
        intro other hother
        rcases List.mem_cons.1 hother with rfl | hother
        · exact hgo
        · exact hafter other hother
      · rintro ⟨after, part, before, hparts, hpart, huntrusted, hafter⟩
        cases after with
        | nil =>
          cases hparts
          exact absurd huntrusted (hstop ip hpart)
        | cons other after =>
          cases hparts
          exact ⟨after, part, before, rfl, hpart, huntrusted, fun r hr => hafter r (List.mem_cons_of_mem first hr)⟩

theorem verdict_eq_some {v : HeaderValue} {ip : IpAddr} : verdict trustedProxies v = some ip ↔ Names trustedProxies v ip := by
  simp only [verdict, Option.bind_eq_some_iff, firstUntrusted_eq_some, Names]
  constructor
  · rintro ⟨xff, hstr, after, part, before, hparts, hpart, huntrusted, hafter⟩
    refine ⟨xff, before.reverse, part, after.reverse, hstr, ?_, hpart, huntrusted, ?_⟩
    · rw [← List.reverse_reverse (xff.splitOn ','), hparts]
      simp
    · intro other hother
      exact hafter other (List.mem_reverse.1 hother)
  · rintro ⟨xff, before, part, after, hstr, hparts, hpart, huntrusted, hafter⟩
    refine ⟨xff, hstr, after.reverse, part, before.reverse, ?_, hpart, huntrusted, ?_⟩
    · rw [hparts]
      simp
    · intro other hother
      exact hafter other (List.mem_reverse.1 hother)

/-- **The client's entry stands on the first line.** The server sees the client's own address exactly if the client sends no
line of X-Forwarded-For; or one line, in visible ASCII, which the first proxy extends; or if the first line that it sends names
that address itself. In every other case the first proxy's entry is on a line that the server does not read. -/
theorem seen_iff (sent : HeaderMap) : c.seen sent = c.client.ip ↔
    match getAll xForwardedFor sent with
    | [] => True
    | [v] =>
      match c.first.mode with
      | .extendLast => v.all isVisible = true
      | .addLine => Names trustedProxies v c.client.ip
    | v :: _ :: _ => Names trustedProxies v c.client.ip := by
  rw [c.seen_iff_answer]
  cases h : getAll xForwardedFor sent with
  | nil =>
    rw [answer_cons _ (getAll_record_nil h c.first.mode c.client), verdict_bytes, c.client_untrusted]
    simp
  | cons v vs =>
    cases vs with
    | nil =>
      cases hmode : c.first.mode with
      | extendLast =>
        rw [answer_cons _ (getAll_record_extendLast [] h c.client), verdict_extend, c.client_untrusted, toStr]
        by_cases hv : v.all isVisible = true
        · simp [hv]
        · simp [hv]
      | addLine =>
        have hline : getAll xForwardedFor (record .addLine c.client sent) = v :: [bytes c.client.text] := by
          rw [record, getAll_addLine, h]
          rfl
        rw [answer_cons _ hline]
        exact verdict_eq_some
    | cons w vs =>
      have hline : ∃ ws, getAll xForwardedFor (record c.first.mode c.client sent) = v :: ws := by
        cases c.first.mode with
        | addLine =>
          refine ⟨w :: vs ++ [bytes c.client.text], ?_⟩
          rw [record, getAll_addLine, h]
          rfl
        | extendLast =>
          obtain ⟨us, u, hus⟩ := (w :: vs).eq_nil_or_concat.resolve_left (List.cons_ne_nil w vs)
          refine ⟨us ++ [extend u c.client.text], ?_⟩
          rw [List.concat_eq_append] at hus
          exact getAll_record_extendLast (v :: us) (by rw [h, hus]; rfl) c.client
      obtain ⟨ws, hws⟩ := hline
      rw [answer_cons _ hws]
      exact verdict_eq_some

theorem ten_lt : 0x0a000000 < 2 ^ Family.v4.bits := by decide

theorem eight_le : 8 ≤ Family.v4.bits := by decide

/-- one proxy in 10.0.0.0/8, before it a client elsewhere -/
def oneProxy (mode : Mode) : Chain [⟨.v4, 0x0a000000, 8, ten_lt, eight_le⟩] where
  client := ⟨⟨.v4, 0xc6336409, by decide⟩, "198.51.100.9".toList, by decide +kernel⟩
  first := ⟨⟨⟨.v4, 0x0a000001, by decide⟩, "10.0.0.1".toList, by decide +kernel⟩, mode⟩
  rest := []
  client_untrusted := by decide
  proxies_trusted := by
    intro p hp
    rw [List.mem_singleton.1 hp]
    rfl

/-- the client's own text is taken where the proxy adds a line, and the proxy is seen where the line is not ASCII -/
theorem forged_lines :
    (oneProxy .addLine).seen [] = (oneProxy .addLine).client.ip ∧
      ((oneProxy .addLine).seen [(xForwardedFor, bytes "6.6.6.6".toList)]).value = 0x06060606 ∧
      (oneProxy .extendLast).seen [(xForwardedFor, [0xff])] = (oneProxy .extendLast).first.peer.ip := by
  decide +kernel

/-- behind every chain of proxies a client can be seen as any untrusted address, with two lines -/
theorem seen_chosen (p : Peer) (hp : isTrusted p.ip trustedProxies = false) (w : HeaderValue) :
    c.seen [(xForwardedFor, bytes p.text), (xForwardedFor, w)] = p.ip := by
  have hline : ∃ ws, getAll xForwardedFor (record c.first.mode c.client
      [(xForwardedFor, bytes p.text), (xForwardedFor, w)]) = bytes p.text :: ws := by
    cases c.first.mode with
    | addLine => exact ⟨[w, bytes c.client.text], rfl⟩
    | extendLast => exact ⟨[extend w c.client.text], getAll_record_extendLast [bytes p.text] rfl c.client⟩
  obtain ⟨ws, hws⟩ := hline
  rw [c.seen_eq, Chain.arrives, answer_pass trustedProxies c.proxies_trusted, answer_cons _ hws, verdict_bytes, hp]
  rfl

end ServerBee.ClientAddress
