import ClashNative.DnsTruncation
/-!
# DnsServerResponses — one response to every query

What a query is answered with, over UDP and over TCP.  A success is passed on; a failure is mapped to
SERVFAIL by a message built from the query, which UDP keeps and TCP has moved away.
-/
namespace ClashNative.Dns.Server

open List

/-! ## What is promised -/

def QueryPacket.name (query : QueryPacket) : Bytes :=
  normalizeName ((query.questions.head?.map (·.name)).getD [])

/-- The message a query is to be answered with; there is none where it is to be SERVFAIL. -/
def Config.wanted (s : Config) (query : QueryPacket) (outcome : Outcome) : Option Bytes :=
  match s.fakeIpAddress query with
  | some none => none
  | some (some address) => (encodeResponse query { addresses := [address], ttlSeconds := 60 }).toOption
  | none =>
    match s.queryService, outcome with
    | true, .success packet => some packet.wire
    | _, _ => none

/-- **Over UDP** the query gets the response `u`, and no other. -/
structure UdpResponds (s : Config) (query : QueryPacket) (outcome : Outcome) (u : Bytes) : Prop where
  sent : s.runUdpResolve query outcome = [u]
  id : u.take 2 = u16 query.id
  answer : ∀ wire, s.wanted query outcome = some wire →
    if wire.length ≤ udpPayloadLimit query then u = wire
    else u.length ≤ udpPayloadLimit query ∧ u.getD 2 0 &&& 0x02 = 0x02
  servfail : s.wanted query outcome = none → wireCode u = 2

/-- **Over TCP** it gets the response `t`, and the connection stays. -/
structure TcpResponds (s : Config) (payload : Bytes) (query : QueryPacket) (outcome : Outcome)
    (t : Bytes) : Prop where
  served : ∀ connection : TcpConnection, connection.connected = true →
    connection.serve s payload outcome = { connection with written := connection.written ++ frame t }
  id : t.take 2 = u16 query.id
  answer : ∀ wire, s.wanted query outcome = some wire → t = wire
  servfail : s.wanted query outcome = none → wireCode t = 2

/-- **What the server promises** of a query: over either listener one response, with the same code. -/
def Responds (s : Config) (payload : Bytes) (query : QueryPacket) (outcome : Outcome) : Prop :=
  ∃ u t, UdpResponds s query outcome u ∧ TcpResponds s payload query outcome t ∧ wireCode u = wireCode t

/-! ## When it does -/

/-- What the query service answers with is a message with the query's identifier. -/
structure IsAnswer (c : CAres) (query : QueryPacket) (packet : DnsPacket) : Prop where
  length : packet.wire.length ≤ 0xffff
  id : packet.wire.take 2 = u16 query.id
  parsed : ∃ r, c.parse packet.wire = .ok r

/-- A response keeps its code over UDP: it fits; or c-ares has a name for the code, and the code has four
bits (or is SERVFAIL without the others) or the response fits without any record but the EDNS data. -/
def KeepsCode (c : CAres) (wire : Bytes) (maximumSize : Nat) : Prop :=
  wire.length ≤ maximumSize ∨ ∃ r, c.parse wire = .ok r ∧ (wireCode wire).toNat = r.rcode % 16 ∧
    (r.rcode < 16 ∨ r.rcode % 16 = 2 ∨ CAres.KeepsOpt c r maximumSize)

variable {wire : Bytes} {r : Record}

theorem keepsCode_of_rcode {c : CAres} (hparse : c.parse wire = .ok r)
    (hcode : r.rcode = (wireCode wire).toNat) (maximumSize : Nat) : KeepsCode c wire maximumSize := by
  have hlt := wireCode_lt wire
  rw [← hcode] at hlt
  exact .inr ⟨r, hparse, by rw [← hcode, Nat.mod_eq_of_lt hlt], .inl hlt⟩

/-- The octets of a response to a query, with `answers` octets of answers. -/
def responseLength (query : QueryPacket) (answers : Nat) : Nat :=
  16 + (encodeName query.name).length + answers + query.opt.elim 0 fun opt => 11 + opt.rdata.length

def AnsweredHere (s : Config) (query : QueryPacket) : Prop :=
  match s.fakeIpAddress query with
  | some none => Encodable query.name ∧ responseLength query 0 ≤ 0xffff
  | some (some _) => Encodable query.name ∧ query.responseCode = 0 ∧ responseLength query 16 ≤ 0xffff
  | none => s.queryService = false ∧ Encodable query.name ∧ responseLength query 0 ≤ 0xffff

def Config.Forwarded (s : Config) (query : QueryPacket) (outcome : Outcome) (packet : DnsPacket) : Prop :=
  s.fakeIpAddress query = none ∧ s.queryService = true ∧ outcome = .success packet

/-! ## Messages that are built here -/

structure Head (wire : Bytes) (id : UInt16) (code : UInt8) : Prop where
  long : 4 ≤ wire.length
  id : wire.take 2 = u16 id
  code : wireCode wire = code

variable {code : UInt8} {id : UInt16}

theorem Head.set (h : Head wire id code) {i : Nat} (hi : 3 < i) (b : UInt8) :
    Head (wire.set i b) id code := by
  refine ⟨by rw [length_set]; exact h.long, ?_, ?_⟩
  · rw [take_set_of_le (by omega)]
    exact h.id
  · unfold wireCode
    rw [getD_eq_getElem?_getD, getElem?_set_ne (by omega), ← getD_eq_getElem?_getD]
    exact h.code

theorem Head.append (h : Head wire id code) (more : Bytes) :
    Head (wire ++ more) id code := by
  have hlong := h.long
  refine ⟨by rw [length_append]; omega, ?_, ?_⟩
  · rw [take_append_of_le_length (by omega)]
    exact h.id
  · unfold wireCode
    rw [getD_eq_getElem?_getD, getElem?_append_left (by omega), ← getD_eq_getElem?_getD]
    exact h.code

theorem Head.appendOptRecord (h : Head wire id code) (query : QueryPacket)
    (responseCode : UInt16) : Head (appendOptRecord wire query responseCode) id code := by
  unfold Server.appendOptRecord
  split
  · exact h
  · exact ((h.append _).set (by decide) _).set (by decide) _

theorem responseFlags_code (query : QueryPacket) :
    (responseFlags query 2 &&& 0xff).toUInt8 &&& 0xf = 2 ∧
    (responseFlags query 0 &&& 0xff).toUInt8 &&& 0xf = 0 := by
  unfold responseFlags
  constructor
  all_goals
    apply UInt8.toBitVec_inj.1
    ext i hi
    have hbit : i = 0 ∨ i = 1 ∨ i = 2 ∨ i = 3 ∨ i = 4 ∨ i = 5 ∨ i = 6 ∨ i = 7 := by omega
    rcases hbit with rfl | rfl | rfl | rfl | rfl | rfl | rfl | rfl <;> simp

section Built

variable {query : QueryPacket} {question : DnsQuestion}

theorem name_eq (h : query.questions = [question]) : query.name = normalizeName question.name := by
  unfold QueryPacket.name
  rw [h]
  rfl

theorem length_appendOptRecord (query : QueryPacket) {code : UInt16} (hcode : code ≤ 0x0f) (wire : Bytes) :
    (appendOptRecord wire query code).length = wire.length + query.opt.elim 0 fun opt =>
    11 + opt.rdata.length := by
  unfold appendOptRecord
  cases hopt : query.opt with
  | none =>
    rw [if_pos ⟨rfl, hcode⟩]
    rfl
  | some opt =>
    rw [if_neg (fun h => nomatch h.1)]
    simp only [length_set, length_append, length_cons, Option.elim, u16, u32, length_nil]
    omega

theorem encodeErrorResponse_spec (h : query.questions = [question]) (hquery : query.response = false) :
    (Encodable query.name → ∃ wire, encodeErrorResponse query 2 = .ok wire ∧ Head wire query.id 2 ∧
      wire.length = responseLength query 0) ∧
    (¬ Encodable query.name → ∃ e, encodeErrorResponse query 2 = .error e) := by
  unfold encodeErrorResponse encodeQueryPacket
  rw [name_eq h, h]
  dsimp only
  rw [hquery, if_neg Bool.false_ne_true, if_neg (by decide)]
  refine ⟨fun hname => ?_, fun hname => ?_⟩
  · rw [if_pos hname]
    refine ⟨_, rfl, Head.appendOptRecord ?_ _ _, ?_⟩
    · exact ⟨by simp [setFlags, u16], rfl, (responseFlags_code query).1⟩
    · rw [length_appendOptRecord query (by decide)]
      unfold responseLength
      rw [name_eq h]
      simp [setFlags, u16]
      omega
  · rw [if_neg hname]
    exact ⟨_, rfl⟩

theorem encodeResponse_spec (h : query.questions = [question]) (hquery : query.response = false)
    (htype : question.type = dnsRecordTypeA) (address : Fin 4 → UInt8) (ttl : UInt32) :
    (Encodable query.name → query.responseCode = 0 →
      ∃ wire, encodeResponse query ⟨[address], ttl⟩ = .ok wire ∧ Head wire query.id 0 ∧
        wire.length = responseLength query 16) ∧
    (¬ (Encodable query.name ∧ query.responseCode = 0) →
      ∃ e, encodeResponse query ⟨[address], ttl⟩ = .error e) := by
  unfold encodeResponse encodeQueryPacket
  rw [name_eq h, h]
  dsimp only
  rw [hquery, if_neg (show ¬ [address].length > 0xffff from Nat.not_lt.2 (by simp))]
  refine ⟨fun hname hcode => ?_, fun hnot => ?_⟩
  · rw [if_neg (by simp [hcode]), if_pos hname]
    dsimp only
    rw [if_neg (fun h => absurd (htype.symm.trans h.1) (by decide))]
    refine ⟨_, rfl, Head.appendOptRecord ?_ _ _, ?_⟩
    · exact ⟨by simp [setFlags, u16], rfl, (responseFlags_code query).2⟩
    · rw [length_appendOptRecord query (by decide)]
      unfold responseLength
      rw [name_eq h]
      simp [setFlags, u16, answerRecords, u32]
      omega
  · by_cases hcode : query.responseCode = 0
    · have hname : ¬ Encodable (normalizeName question.name) := fun hname => hnot ⟨hname, hcode⟩
      rw [if_neg (by simp [hcode]), if_neg hname]
      exact ⟨_, rfl⟩
    · rw [if_pos (.inr hcode)]
      exact ⟨_, rfl⟩

end Built

/-! ## Either listener -/

section Listeners

variable {s : Config} {payload : Bytes} {query : QueryPacket} {question : DnsQuestion}
  {outcome : Outcome} {wire : Bytes}

theorem udpPayloadLimit_bounds (query : QueryPacket) :
    512 ≤ udpPayloadLimit query ∧ udpPayloadLimit query ≤ 0xffff := by
  unfold udpPayloadLimit
  cases query.opt with
  | none => decide
  | some opt =>
    have := opt.classCode.toNat_lt
    dsimp only [Option.elim]
    omega

/-- **A message behind the limit** on UDP payloads. -/
structure Limited (s : Config) (query : QueryPacket) (wire u : Bytes) : Prop where
  length : u.length ≤ 0xffff
  id : u.take 2 = wire.take 2
  cut : if wire.length ≤ udpPayloadLimit query then u = wire
    else u.length ≤ udpPayloadLimit query ∧ u.getD 2 0 &&& 0x02 = 0x02
  code : wireCode u = wireCode wire ↔ KeepsCode s.cares wire (udpPayloadLimit query)

variable {r : Record}

theorem limitUdpResponse_spec (hc : s.cares.Sound) (hparse : s.cares.parse wire = .ok r) (query : QueryPacket) :
    ∃ u, s.limitUdpResponse query (.ok wire) = .ok u ∧ Limited s query wire u := by
  obtain ⟨hmin, hmax⟩ := udpPayloadLimit_bounds query
  by_cases hfits : wire.length ≤ udpPayloadLimit query
  · refine ⟨wire, ?_, by omega, rfl, by rw [if_pos hfits], fun _ => .inl hfits, fun _ => rfl⟩
    unfold Config.limitUdpResponse CAres.truncateUdpResponse
    dsimp only
    rw [if_neg (by omega), if_pos hfits]
  · obtain ⟨cut, hcut, hlength, htruncated, hid, hcode⟩ :=
      CAres.truncateUdpResponse_spec hc hparse hmin (Nat.not_le.1 hfits)
    refine ⟨cut, hcut, by omega, hid, by rw [if_neg hfits]; exact ⟨hlength, htruncated⟩, hcode.trans ?_⟩
    constructor
    · exact fun h => .inr ⟨r, hparse, h⟩
    · rintro (h | ⟨r', hr', h⟩)
      · exact absurd h hfits
      · cases hparse.symm.trans hr'
        exact h

theorem parse_of_decodePacket {expected : Option UInt16} (h : s.cares.decodePacket wire expected = .ok query) :
    ∃ r, s.cares.parse wire = .ok r := by
  unfold CAres.decodePacket at h
  cases hparse : s.cares.parse wire with
  | error e =>
    rw [hparse] at h
    cases h
  | ok r => exact ⟨r, rfl⟩

theorem serve_resolved (hc : s.cares.Sound) (hpayload : payload.length ≤ 0xffff)
    (hquery : s.cares.decodePacket payload none = .ok query) (connection : TcpConnection)
    (hopen : connection.connected = true) :
    (∀ t, s.resolve query outcome = .ok t → t.length ≤ 0xffff →
      connection.serve s payload outcome = { connection with written := connection.written ++ frame t }) ∧
    ((∀ t, s.resolve query outcome = .ok t → 0xffff < t.length) →
      connection.serve s payload outcome = connection.close) := by
  obtain ⟨r, hparse⟩ := parse_of_decodePacket hquery
  have hlength := hc.length payload r hparse
  unfold TcpConnection.serve
  rw [if_neg (by simp [hopen]), if_neg (by omega), hquery]
  dsimp only
  refine ⟨fun t ht hfits => ?_, fun hnone => ?_⟩
  · rw [ht]
    exact if_neg (Nat.not_lt.2 hfits)
  · cases hresolve : s.resolve query outcome with
    | error e => rfl
    | ok t => exact if_pos (hnone t hresolve)

theorem not_responds (hc : s.cares.Sound) (hpayload : payload.length ≤ 0xffff)
    (hquery : s.cares.decodePacket payload none = .ok query) (hnone : ∀ t, s.resolve query outcome = .ok t →
      0xffff < t.length) :
    ¬ Responds s payload query outcome := by
  rintro ⟨u, t, -, htcp, -⟩
  have hserved := htcp.served {} rfl
  rw [(serve_resolved hc hpayload hquery {} rfl).2 hnone] at hserved
  exact absurd (congrArg TcpConnection.connected hserved) Bool.false_ne_true

theorem responds_of_resolve (hc : s.cares.Sound) (hpayload : payload.length ≤ 0xffff)
    (hquery : s.cares.decodePacket payload none = .ok query) (hparse : s.cares.parse wire = .ok r)
    (hresolve : s.resolve query outcome = .ok wire) (hlength : wire.length ≤ 0xffff)
    (hid : wire.take 2 = u16 query.id)
    (hudp : ∀ u, s.limitUdpResponse query (.ok wire) = .ok u → u.length ≤ 0xffff →
      s.runUdpResolve query outcome = [u])
    (hwanted : s.wanted query outcome = some wire ∨ s.wanted query outcome = none ∧ wireCode wire = 2) :
    Responds s payload query outcome ↔ KeepsCode s.cares wire (udpPayloadLimit query) := by
  obtain ⟨u, hlimit, hlimited⟩ := limitUdpResponse_spec hc hparse query
  have hsent := hudp u hlimit hlimited.length
  constructor
  · rintro ⟨u', t, hu, ht, hcode⟩
    have hu' : u = u' := by
      have := hsent.symm.trans hu.sent
      cases this
      rfl
    have ht' : wireCode t = wireCode wire := by
      rcases hwanted with h | ⟨h, hservfail⟩
      · rw [ht.answer wire h]
      · rw [ht.servfail h, hservfail]
    exact hlimited.code.1 (by rw [hu', hcode, ht'])
  · intro hkeeps
    have hcode := hlimited.code.2 hkeeps
    refine ⟨u, wire, ⟨hsent, hlimited.id.trans hid, fun w hw => ?_, fun hnone => ?_⟩,
      ⟨fun connection hopen => (serve_resolved hc hpayload hquery connection hopen).1 wire hresolve hlength, hid,
        fun w hw => ?_, fun hnone => ?_⟩, hcode⟩
    · obtain h | ⟨h, -⟩ := hwanted
      · cases h.symm.trans hw
        exact hlimited.cut
      · cases h.symm.trans hw
    · obtain h | ⟨-, h⟩ := hwanted
      · cases h.symm.trans hnone
      · rw [hcode, h]
    · obtain h | ⟨h, -⟩ := hwanted
      · cases h.symm.trans hw
        rfl
      · cases h.symm.trans hw
    · obtain h | ⟨-, h⟩ := hwanted
      · cases h.symm.trans hnone
      · exact h

theorem responds_servfail (hc : s.cares.Sound) (hpayload : payload.length ≤ 0xffff)
    (hquery : s.cares.decodePacket payload none = .ok query) (hquestion : query.questions = [question])
    (hresponse : query.response = false) (hresolve : s.resolve query outcome = encodeErrorResponse query 2)
    (hudp : ∀ wire u, encodeErrorResponse query 2 = .ok wire → s.limitUdpResponse query (.ok wire) = .ok u →
      u.length ≤ 0xffff → s.runUdpResolve query outcome = [u]) (hwanted : s.wanted query outcome = none) :
    Responds s payload query outcome ↔ Encodable query.name ∧ responseLength query 0 ≤ 0xffff := by
  obtain ⟨hcan, hcannot⟩ := encodeErrorResponse_spec hquestion hresponse
  by_cases hname : Encodable query.name
  · obtain ⟨wire, hwire, hhead, hlength⟩ := hcan hname
    rw [← hlength]
    by_cases hfits : wire.length ≤ 0xffff
    · obtain ⟨r, hparse, hcode, -⟩ := hc.built payload query wire hquery (.inl hwire) hfits
      rw [responds_of_resolve hc hpayload hquery hparse (hresolve.trans hwire) hfits hhead.id
        (fun u => hudp wire u hwire)
        (.inr ⟨hwanted, hhead.code⟩)]
      exact ⟨fun _ => ⟨hname, hfits⟩, fun _ => keepsCode_of_rcode hparse hcode _⟩
    · refine ⟨fun h => absurd h (not_responds hc hpayload hquery fun t ht => ?_), fun h => absurd h.2 hfits⟩
      rw [hresolve, hwire] at ht
      cases ht
      exact Nat.not_le.1 hfits
  · obtain ⟨e, he⟩ := hcannot hname
    refine ⟨fun h => absurd h (not_responds hc hpayload hquery fun t ht => ?_), fun h => absurd h.1 hname⟩
    rw [hresolve, he] at ht
    cases ht

theorem responds_address (hc : s.cares.Sound) (hpayload : payload.length ≤ 0xffff)
    (hquery : s.cares.decodePacket payload none = .ok query) (hquestion : query.questions = [question])
    (hresponse : query.response = false) (htype : question.type = dnsRecordTypeA) {address : Fin 4 → UInt8}
    (haddress : s.fakeIpAddress query = some (some address)) :
    Responds s payload query outcome ↔ Encodable query.name ∧ query.responseCode = 0 ∧
    responseLength query 16 ≤ 0xffff := by
  obtain ⟨hcan, hcannot⟩ := encodeResponse_spec hquestion hresponse htype address 60
  have hfake : s.fakeIpResponse query = some (encodeResponse query ⟨[address], 60⟩) := by
    unfold Config.fakeIpResponse
    rw [haddress]
    rfl
  have hresolve : s.resolve query outcome = encodeResponse query ⟨[address], 60⟩ := by
    unfold Config.resolve
    rw [hfake]
  by_cases hbuilt : Encodable query.name ∧ query.responseCode = 0
  · obtain ⟨wire, hwire, hhead, hlength⟩ := hcan hbuilt.1 hbuilt.2
    rw [← hlength]
    by_cases hfits : wire.length ≤ 0xffff
    · obtain ⟨r, hparse, hcode, -⟩ := hc.built payload query wire hquery (.inr ⟨_, hwire⟩) hfits
      have hwanted : s.wanted query outcome = some wire := by
        unfold Config.wanted
        rw [haddress]
        dsimp only
        rw [hwire]
        rfl
      have hudp : ∀ u, s.limitUdpResponse query (.ok wire) = .ok u → u.length ≤ 0xffff →
          s.runUdpResolve query outcome = [u] := by
        intro u hu hlong
        unfold Config.runUdpResolve
        rw [hfake]
        dsimp only
        rw [hwire, hu]
        exact if_pos hlong
      rw [responds_of_resolve hc hpayload hquery hparse (hresolve.trans hwire) hfits hhead.id hudp
        (.inl hwanted)]
      exact ⟨fun _ => ⟨hbuilt.1, hbuilt.2, hfits⟩, fun _ => keepsCode_of_rcode hparse hcode _⟩
    · refine ⟨fun h => absurd h (not_responds hc hpayload hquery fun t ht => ?_), fun h => absurd h.2.2 hfits⟩
      rw [hresolve, hwire] at ht
      cases ht
      exact Nat.not_le.1 hfits
  · obtain ⟨e, he⟩ := hcannot hbuilt
    refine ⟨fun h => absurd h (not_responds hc hpayload hquery fun t ht => ?_),
      fun h => absurd ⟨h.1, h.2.1⟩ hbuilt⟩
    rw [hresolve, he] at ht
    cases ht

theorem fakeIpAddress_type (hquestion : query.questions = [question]) {address : Option (Fin 4 → UInt8)}
    (h : s.fakeIpAddress query = some address) : question.type = dnsRecordTypeA := by
  unfold Config.fakeIpAddress at h
  rw [hquestion] at h
  cases hfake : s.fakeIp with
  | none =>
    rw [hfake] at h
    cases h
  | some store =>
    rw [hfake] at h
    dsimp only at h
    split at h
    · cases h
    · rename_i hnot
      exact not_not.1 fun hne => hnot (.inr (.inl hne))

theorem responds_unserved (hc : s.cares.Sound) (hpayload : payload.length ≤ 0xffff)
    (hquery : s.cares.decodePacket payload none = .ok query) (hquestion : query.questions = [question])
    (hresponse : query.response = false) (hfake : s.fakeIpAddress query = none)
    (hservice : s.queryService = false) :
    Responds s payload query outcome ↔ Encodable query.name ∧ responseLength query 0 ≤ 0xffff := by
  have hnone : s.fakeIpResponse query = none := by
    unfold Config.fakeIpResponse
    rw [hfake]
    rfl
  refine responds_servfail hc hpayload hquery hquestion hresponse ?_ (fun wire u hwire hu hlong => ?_) ?_
  · unfold Config.resolve
    rw [hnone]
    exact if_pos hservice
  · unfold Config.runUdpResolve
    rw [hnone]
    rw [if_pos hservice, hwire, hu]
  · unfold Config.wanted
    rw [hfake, hservice]

theorem responds_unresolved (hc : s.cares.Sound) (hpayload : payload.length ≤ 0xffff)
    (hquery : s.cares.decodePacket payload none = .ok query) (hquestion : query.questions = [question])
    (hresponse : query.response = false) (hfake : s.fakeIpAddress query = some none) :
    Responds s payload query outcome ↔ Encodable query.name ∧ responseLength query 0 ≤ 0xffff := by
  have hsome : s.fakeIpResponse query = some (encodeErrorResponse query 2) := by
    unfold Config.fakeIpResponse
    rw [hfake]
    rfl
  refine responds_servfail hc hpayload hquery hquestion hresponse ?_ (fun wire u hwire hu hlong => ?_) ?_
  · unfold Config.resolve
    rw [hsome]
  · unfold Config.runUdpResolve
    rw [hsome]
    dsimp only
    rw [hwire, hu]
    exact if_pos hlong
  · unfold Config.wanted
    rw [hfake]

theorem resolve_failed (hfake : s.fakeIpAddress query = none) (hservice : s.queryService = true)
    (hfailed : ∀ packet, outcome ≠ .success packet) (t : Bytes) : s.resolve query outcome ≠ .ok t := by
  unfold Config.resolve Config.fakeIpResponse
  rw [hfake]
  rw [if_neg (by simp [hservice])]
  cases outcome with
  | success packet => exact absurd rfl (hfailed packet)
  | failure error => exact nofun
  | exception error =>
    cases error with
    | some error => exact nofun
    | none => exact nofun

theorem responds_forwarded (hc : s.cares.Sound) (hpayload : payload.length ≤ 0xffff)
    (hquery : s.cares.decodePacket payload none = .ok query) (hfake : s.fakeIpAddress query = none)
    (hservice : s.queryService = true) {packet : DnsPacket} (hanswer : IsAnswer s.cares query packet) :
    Responds s payload query (.success packet) ↔ KeepsCode s.cares packet.wire (udpPayloadLimit query) := by
  obtain ⟨r, hparse⟩ := hanswer.parsed
  have hnone : s.fakeIpResponse query = none := by
    unfold Config.fakeIpResponse
    rw [hfake]
    rfl
  refine responds_of_resolve hc hpayload hquery hparse ?_ hanswer.length hanswer.id
    (fun u hu hlong => ?_) (.inl ?_)
  · unfold Config.resolve
    rw [hnone]
    exact if_neg (by simp [hservice])
  · unfold Config.runUdpResolve
    rw [hnone]
    dsimp only
    rw [if_neg (by simp [hservice]), hu]
    exact if_neg (Nat.not_lt.2 hlong)
  · unfold Config.wanted
    rw [hfake, hservice]

end Listeners

/-- **A query gets its one response over either listener if and only if** the server answers it itself,
with a message that it can build, or the query service has answered it, with a message whose code a UDP
response keeps. -/
theorem responds_iff (s : Config) (payload : Bytes) (query : QueryPacket) (question : DnsQuestion)
    (outcome : Outcome)
    (hc : s.cares.Sound) (hpayload : payload.length ≤ 0xffff)
    (hquery : s.cares.decodePacket payload none = .ok query)
    (hquestion : query.questions = [question]) (hresponse : query.response = false)
    (hanswer : ∀ packet, outcome = .success packet → IsAnswer s.cares query packet) :
    Responds s payload query outcome ↔ AnsweredHere s query ∨
      ∃ packet, s.Forwarded query outcome packet ∧ KeepsCode s.cares packet.wire (udpPayloadLimit query) := by
  unfold AnsweredHere Config.Forwarded
  cases hfake : s.fakeIpAddress query with
  | some resolved =>
    have hforwarded : ∀ P : DnsPacket → Prop, ¬ ∃ packet, (some resolved = none ∧ s.queryService = true ∧
        outcome = .success packet) ∧ P packet := fun P ⟨_, h, _⟩ => nomatch h.1
    rw [or_iff_left (hforwarded _)]
    cases resolved with
    | none => exact responds_unresolved hc hpayload hquery hquestion hresponse hfake
    | some address =>
      exact responds_address hc hpayload hquery hquestion hresponse (fakeIpAddress_type hquestion hfake) hfake
  | none =>
    by_cases hservice : s.queryService = false
    · rw [responds_unserved hc hpayload hquery hquestion hresponse hfake hservice]
      constructor
      · exact fun h => .inl ⟨hservice, h⟩
      · rintro (h | ⟨packet, ⟨-, h, -⟩, -⟩)
        · exact h.2
        · rw [hservice] at h
          cases h
    · have hservice : s.queryService = true := by simpa using hservice
      rw [or_iff_right (fun h => absurd (hservice.symm.trans h.1) Bool.noConfusion)]
      by_cases hsuccess : ∃ packet, outcome = .success packet
      · obtain ⟨packet, rfl⟩ := hsuccess
        rw [responds_forwarded hc hpayload hquery hfake hservice (hanswer packet rfl)]
        constructor
        · exact fun h => ⟨packet, ⟨rfl, hservice, rfl⟩, h⟩
        · rintro ⟨packet', ⟨-, -, heq⟩, h⟩
          cases heq
          exact h
      · constructor
        · refine fun h => absurd h (not_responds hc hpayload hquery fun t ht => ?_)
          exact absurd ht (resolve_failed hfake hservice (fun packet h => hsuccess ⟨packet, h⟩) t)
        · rintro ⟨packet, ⟨-, -, heq⟩, -⟩
          exact absurd ⟨packet, heq⟩ hsuccess

/-! ## A failure that is no response -/

/-- c-ares, on messages that ask for `a`, whose records are of `a` or of the root and whose codes have
four bits.  The data of a record are its TTL, its length and its octets. -/
def plainRrs : Nat → Bytes → List Rr × Bytes
  | 0, wire => ([], wire)
  | n + 1, wire =>
    let fields := if wire.head? = some 0 then wire.tail else wire.drop 2
    let type := (fields.getD 0 0).toUInt16 <<< 8 ||| (fields.getD 1 0).toUInt16
    let classCode := (fields.getD 2 0).toUInt16 <<< 8 ||| (fields.getD 3 0).toUInt16
    let size := 6 + (fields.getD 9 0).toNat
    let rest := plainRrs n (fields.drop (4 + size))
    (⟨if wire.head? = some 0 then [] else [97], type, classCode, (fields.drop 4).take size⟩ :: rest.1, rest.2)

def bySection (answers authorities additionals : List Rr) : Section → List Rr
  | .answer => answers
  | .authority => authorities
  | .additional => additionals

def plainRecord (wire : Bytes) : Record :=
  let answers := plainRrs (wire.getD 7 0).toNat (wire.drop 19)
  let authorities := plainRrs (wire.getD 9 0).toNat answers.2
  let additionals := plainRrs (wire.getD 11 0).toNat authorities.2
  { id := (wire.getD 0 0).toUInt16 <<< 8 ||| (wire.getD 1 0).toUInt16
    rcode := (wireCode wire).toNat
    header := (wire.drop 2).take 4 ++ (wire.drop 12).take 7
    rrs := bySection answers.1 authorities.1 additionals.1 }

def plainRr (rr : Rr) : Bytes := (if rr.name = [] then [0] else [0xc0, 0x0c]) ++
    (u16 rr.type ++ (u16 rr.classCode ++ rr.data))

def plainWire (r : Record) : Bytes :=
  let count := fun s => u16 (UInt16.ofNat (r.rrs s).length)
  u16 r.id ++ (r.header.getD 0 0 :: ((r.header.getD 1 0 &&& 0xf0) ||| UInt8.ofNat r.rcode) ::
    ([0, 1] ++ (count .answer ++
    (count .authority ++ (count .additional ++ (r.header.drop 4).take 7))))) ++
    (r.rrs .answer).flatMap plainRr ++
    (r.rrs .authority).flatMap plainRr ++ (r.rrs .additional).flatMap plainRr

def plainCares : CAres where
  parse wire := if 12 ≤ wire.length then .ok (plainRecord wire) else
  .error (codecError "c-ares returned an invalid DNS message")
  write r := .ok (plainWire r)
  packet r := some { wire := [], flags := (r.header.getD 0 0).toUInt16 <<< 8 |||
    (r.header.getD 1 0).toUInt16, questions := [⟨[97], 1, 1⟩] }

theorem u16_join (a b : UInt8) : u16 ((a.toUInt16 <<< 8) ||| b.toUInt16) = [a, b] := by
  unfold u16
  congr 2
  · apply UInt8.toBitVec_inj.1
    ext i hi
    have hbit : i = 0 ∨ i = 1 ∨ i = 2 ∨ i = 3 ∨ i = 4 ∨ i = 5 ∨ i = 6 ∨ i = 7 := by omega
    rcases hbit with rfl | rfl | rfl | rfl | rfl | rfl | rfl | rfl <;> simp
  · apply UInt8.toBitVec_inj.1
    ext i hi
    have hbit : i = 0 ∨ i = 1 ∨ i = 2 ∨ i = 3 ∨ i = 4 ∨ i = 5 ∨ i = 6 ∨ i = 7 := by omega
    rcases hbit with rfl | rfl | rfl | rfl | rfl | rfl | rfl | rfl <;> simp

theorem plainCares_parse (h : plainCares.parse wire = .ok r) :
    12 ≤ wire.length ∧ r = plainRecord wire := by
  unfold plainCares at h
  dsimp only at h
  split at h
  · rename_i hlong
    cases h
    exact ⟨hlong, rfl⟩
  · cases h

theorem and_or_and (a b : UInt8) : ((a &&& 0xf0) ||| b) &&& 0xf = b &&& 0xf := by
  apply UInt8.toBitVec_inj.1
  ext i hi
  have hbit : i = 0 ∨ i = 1 ∨ i = 2 ∨ i = 3 ∨ i = 4 ∨ i = 5 ∨ i = 6 ∨ i = 7 := by omega
  rcases hbit with rfl | rfl | rfl | rfl | rfl | rfl | rfl | rfl <;> simp

theorem encodeQueryPacket_length {question : DnsQuestion}
    (h : encodeQueryPacket question id = .ok wire) : 12 ≤ wire.length := by
  unfold encodeQueryPacket at h
  dsimp only at h
  split at h
  · cases h
    simp [u16]
  · cases h

variable {query : QueryPacket}

theorem encodeErrorResponse_length {code : UInt16}
    (h : encodeErrorResponse query code = .ok wire) : 12 ≤ wire.length := by
  unfold encodeErrorResponse at h
  split at h
  · rename_i question _
    split at h
    · cases h
    · split at h
      · cases h
      · cases hencoded : encodeQueryPacket question query.id with
        | error e =>
          rw [hencoded] at h
          cases h
        | ok encoded =>
          rw [hencoded] at h
          cases h
          refine Nat.le_trans ?_ (length_appendOptRecord_le _ query code)
          unfold setFlags
          rw [length_set, length_set]
          exact encodeQueryPacket_length hencoded
  · cases h

theorem encodeResponse_length {answer : DnsAnswer}
    (h : encodeResponse query answer = .ok wire) : 12 ≤ wire.length := by
  unfold encodeResponse at h
  split at h
  · rename_i question _
    split at h
    · cases h
    · split at h
      · cases h
      · cases hencoded : encodeQueryPacket question query.id with
        | error e =>
          rw [hencoded] at h
          cases h
        | ok encoded =>
          rw [hencoded] at h
          dsimp only at h
          split at h
          · cases h
          · cases h
            refine Nat.le_trans ?_ (length_appendOptRecord_le _ query 0)
            unfold setFlags
            rw [length_set, length_set, length_append, length_set, length_set]
            exact Nat.le_trans (encodeQueryPacket_length hencoded) (Nat.le_add_right _ _)
  · cases h

theorem plainCares_sound : plainCares.Sound where
  length wire r h := (plainCares_parse h).1
  id wire r h := by
    obtain ⟨hlong, rfl⟩ := plainCares_parse h
    match wire, hlong with
    | a :: b :: flags, _ => exact (u16_join a b).symm
  code wire r h _ := by
    obtain ⟨-, rfl⟩ := plainCares_parse h
    exact (Nat.mod_eq_of_lt (wireCode_lt wire)).symm
  extended wire r h hcode := by
    obtain ⟨-, rfl⟩ := plainCares_parse h
    exact absurd (wireCode_lt wire) (Nat.not_lt.2 hcode)
  write wire r r' h hsub := by
    obtain ⟨-, rfl⟩ := plainCares_parse h
    refine ⟨_, rfl, by simp [plainWire, u16], ?_, ?_, fun hnone => ?_⟩
    · rw [← hsub.id]
      rfl
    · have hlt := wireCode_lt wire
      have hrcode : r'.rcode = (wireCode wire).toNat := hsub.rcode
      have hwritten : (wireCode (plainWire r')).toNat = (UInt8.ofNat r'.rcode &&& 0xf).toNat :=
        congrArg UInt8.toNat (and_or_and _ _)
      rw [hwritten, hrcode, UInt8.ofNat_toNat, UInt8.toNat_and, if_neg fun h => absurd hlt (Nat.not_lt.2 h.1)]
      exact (Nat.and_two_pow_sub_one_of_lt_two_pow (n := 4) hlt).trans (Nat.mod_eq_of_lt hlt).symm
    · simp [plainWire, hnone, u16]
      omega
  built payload query wire _ hbuilt _ := by
    have hlength : 12 ≤ wire.length := by
      rcases hbuilt with h | ⟨answer, h⟩
      · exact encodeErrorResponse_length h
      · exact encodeResponse_length h
    exact ⟨_, if_pos hlength, rfl, rfl⟩

/-- **A response is sent as it is, or cut down**: then it fits, says so, has the identifier and the header
with the questions, and c-ares writes it from whole record sets, which went from the ends of the sections
in their order, the EDNS data last. -/
theorem response_cut_down {c : CAres} {wire : Bytes} {r : Record} {maximumSize : Nat} (hc : c.Sound)
    (hparse : c.parse wire = .ok r)
    (hmax : 512 ≤ maximumSize) : ∃ cut, c.truncateUdpResponse wire maximumSize = .ok cut ∧
    (wire.length ≤ maximumSize ∧ cut = wire ∨
      cut.length ≤ maximumSize ∧ cut.getD 2 0 &&& 0x02 = 0x02 ∧ cut.take 2 = wire.take 2 ∧
      ∃ r' written, CAres.Shortened r r' ∧
        r'.id = r.id ∧ r'.header = r.header ∧
        (∀ s x y, CAres.sameSet x y → x ∈ r.rrs s → y ∈ r.rrs s → (x ∈ r'.rrs s ↔ y ∈ r'.rrs s)) ∧
        c.write r' = .ok written ∧ cut = written.set 2 (written.getD 2 0 ||| 0x02)) := by
  by_cases hfits : wire.length ≤ maximumSize
  · exact ⟨wire, by rw [CAres.truncateUdpResponse, if_neg (by omega), if_pos hfits], .inl ⟨hfits, rfl⟩⟩
  · obtain ⟨cut, hcut, hlength, htruncated, hid, -⟩ :=
      CAres.truncateUdpResponse_spec hc hparse hmax (Nat.not_le.1 hfits)
    obtain ⟨r', hshort, heq⟩ := CAres.truncateUdpResponse_shortened hc hparse
      (Nat.le_trans (by decide) hmax) (Nat.not_le.1 hfits)
    refine ⟨cut, hcut, .inr ⟨hlength, htruncated, hid, r', ?_⟩⟩
    rw [heq, CAres.encodeTruncated] at hcut
    cases hwrite : c.write r' with
    | error e => rw [hwrite] at hcut; cases hcut
    | ok written =>
      rw [hwrite] at hcut
      dsimp only at hcut
      split at hcut
      · cases hcut
      · exact ⟨written, hshort, hshort.sets.1.id, hshort.sets.1.header, hshort.sets.2, rfl,
          (Except.ok.inj hcut).symm⟩

def plainQuery : Bytes := [0x12, 0x34, 1, 0, 0, 1, 0, 0, 0, 0, 0, 0, 1, 97, 0, 0, 1, 0, 1]

def plainPacket : QueryPacket :=
  { wire := plainQuery, id := 0x1234, flags := 0x0100, questions := [⟨[97], 1, 1⟩] }

def plainNxdomain : DnsPacket :=
  { wire := [0x12, 0x34, 0x81, 0x83, 0, 1, 0, 0, 0, 0, 0, 0, 1, 97, 0, 0, 1, 0, 1],
    id := 0x1234, flags := 0x8183, questions := [⟨[97], 1, 1⟩] }

theorem plainNxdomain_isAnswer : IsAnswer plainCares plainPacket plainNxdomain := ⟨by decide, rfl, _, rfl⟩

/-- Twenty addresses, a set of authority records, a set of additional ones, and the EDNS data. -/
def longRecord : Record where
  id := 0x1234
  rcode := 0
  header := [0x81, 0x80, 0, 1, 1, 97, 0, 0, 1, 0, 1]
  rrs := bySection (List.replicate 20 ⟨[97], 1, 1, [0, 0, 0, 60, 0, 4, 192, 0, 2, 1]⟩)
    (List.replicate 12 ⟨[97], 16, 1, [0, 0, 0, 60, 0, 4, 3, 97, 98, 99]⟩)
    [⟨[97], 2, 1, [0, 0, 0, 60, 0, 3, 1, 98, 0]⟩, ⟨[], 41, 1232, [0, 0, 0, 0, 0, 0]⟩,
      ⟨[97], 2, 1, [0, 0, 0, 60, 0, 3, 1, 99, 0]⟩]

/-- 572 octets, of which 350 are left: the set of additional records goes, then the authority records; the
EDNS data stay. -/
theorem long_cut_down : (plainWire longRecord).length = 572 ∧
    (plainCares.truncateUdpResponse (plainWire longRecord) 512).map (·.length) = .ok 350 ∧
    ∃ cut r' written, plainCares.truncateUdpResponse (plainWire longRecord) 512 = .ok cut ∧ cut.length ≤ 512 ∧
      cut.getD 2 0 &&& 0x02 = 0x02 ∧ cut.take 2 = [0x12, 0x34] ∧ CAres.Shortened longRecord r' ∧
      r'.header = longRecord.header ∧
      plainCares.write r' = .ok written ∧ cut = written.set 2 (written.getD 2 0 ||| 0x02) := by
  refine ⟨by decide +kernel, by decide +kernel, ?_⟩
  obtain ⟨cut, hcut, ⟨hfits, -⟩ | ⟨hlength, htruncated, hid, r', written, hshort, -, hheader, -, hwrite, heq⟩⟩ :=
    @response_cut_down plainCares (plainWire longRecord) longRecord 512 plainCares_sound rfl (Nat.le_refl 512)
  · exact absurd hfits (by decide +kernel)
  · exact ⟨cut, r', written, hcut, hlength, htruncated, hid, hshort, hheader, hwrite, heq⟩

/-- **A query that fails is answered over UDP, and closes a TCP connection.** -/
theorem failed_query_closes_tcp : (∃ u, (Config.mk plainCares none true).runUdpResolve plainPacket
    (.failure failedTcpQuery) = [u] ∧
      wireCode u = 2) ∧
    ({} : TcpConnection).serve (Config.mk plainCares none true) plainQuery (.failure failedTcpQuery) =
    { connected := false } ∧
    ¬ Responds (Config.mk plainCares none true) plainQuery plainPacket (.failure failedTcpQuery) := by
  have hquery : plainCares.decodePacket plainQuery none = .ok plainPacket := rfl
  refine ⟨⟨_, rfl, rfl⟩, rfl, not_responds plainCares_sound (by decide) hquery fun t ht => ?_⟩
  refine absurd ht (resolve_failed rfl rfl (fun packet h => ?_) t)
  cases h

/-- And one that gets its answer has it from both. -/
theorem responds_nxdomain : Responds (Config.mk plainCares none true) plainQuery plainPacket (.success
    plainNxdomain) :=
  (responds_iff (Config.mk plainCares none true) plainQuery plainPacket ⟨[97], 1, 1⟩
    (.success plainNxdomain) plainCares_sound
    (by decide) rfl rfl rfl fun packet h => by cases h; exact plainNxdomain_isAnswer).2
    (.inr ⟨plainNxdomain, ⟨rfl, rfl, rfl⟩, .inl (by decide)⟩)

end ClashNative.Dns.Server
