import ClashNative.Socks4
/-!
# Socks4Reads — the SOCKS4 handshake against its request read whole

`parseRequest` reads the request off the whole byte string.  The handshake agrees with it, and hands the
opened target every byte after the request, exactly when the reads end where the strings end (`ReadsFit`):
`read_socks4_cstring` empties on entry what the read before it left behind, and `start_relay` does not
pass it on.
-/
namespace ClashNative.Socks4

open Wire List

/-- **The handshake serves the request**: it takes the request's user id; a user it does not know is
refused; for one it knows it opens the requested target, which is then sent every byte after the request.
-/
def Serves (owner : ProxyServer) (m : Request) (tail : List UInt8) (r : ProxySession × Verdict) : Prop :=
  r.1.socks4UserId = m.userId ∧
    match authenticate owner.socks5Users m.userId with
    | none => r.2 = .reply kSocks4IdentdMismatched
    | some user => r.1.authenticatedUser = some user ∧ r.2 = .openTarget (openSocks4Target m.header m.domain) ∧
        startRelay r.1 = tail

/-- **The reads fit the request**: a read ends with the user id's NUL and, for SOCKS4a, one with the
domain's.  For a user who is refused it is enough that the read that holds the user id's NUL ends inside
the payload's limit. -/
def ReadsFit (owner : ProxyServer) (m : Request) (boundaries : List Nat) : Prop :=
  match authenticate owner.socks5Users m.userId with
  | none => ∃ b ∈ boundaries, 8 + (m.userId.length + 1) ≤ b ∧ b ≤ 8 + (kSocks4MaximumStringLength + 1)
  | some _ => 8 + (m.userId.length + 1) ∈ boundaries ∧
      (isSocks4aAddress m.header = true → 8 + (m.userId.length + 1) + (m.domain.length + 1) ∈ boundaries)

/-! ## The strings -/

variable {l : List UInt8}

theorem nullPosition_eq_none (h : 0 ∉ l) : nullPosition l = none := by
  unfold nullPosition
  rw [findIdx?_eq_none_iff]
  intro x hx
  have hne : x ≠ 0 := fun h0 => h (h0 ▸ hx)
  simpa using hne

variable {text : List UInt8}

theorem nullPosition_append (h0 : 0 ∉ text) (rest : List UInt8) :
    nullPosition (text ++ 0 :: rest) = some text.length := by
  have hnone := nullPosition_eq_none h0
  unfold nullPosition at hnone ⊢
  rw [findIdx?_append, hnone]
  simp [findIdx?_cons]

variable {rest : List UInt8}

theorem cstring_eq_some (h : cstring l = some (text, rest)) :
    l = text ++ 0 :: rest ∧ 0 ∉ text := by
  have hmem : 0 ∈ l := by
    by_contra hn
    simp [cstring, nullPosition_eq_none hn] at h
  obtain ⟨t, r, rfl, ht⟩ := eq_append_cons_of_mem hmem
  simp only [cstring, nullPosition_append ht, Option.map_some, Option.some.injEq, Prod.mk.injEq] at h
  obtain ⟨h1, h2⟩ := h
  rw [take_left] at h1
  rw [← drop_drop, drop_left] at h2
  subst h1 h2
  exact ⟨rfl, ht⟩

theorem parseRequest_eq_some {bytes tail : List UInt8} {m : Request} (h : parseRequest bytes = some (m, tail)) :
    8 ≤ bytes.length ∧ m.header = headerOf bytes ∧ m.header 0 = kSocks4Version ∧ m.header 1 = kSocks4Connect ∧
    0 ∉ m.userId ∧ m.userId.length ≤ kSocks4MaximumStringLength ∧
    ∃ rest, bytes.drop 8 = m.userId ++ 0 :: rest ∧
      if isSocks4aAddress m.header = true then
        rest = m.domain ++ 0 :: tail ∧ 0 ∉ m.domain ∧ m.domain ≠ [] ∧
        m.domain.length ≤ kSocks4MaximumStringLength
      else rest = tail ∧ m.domain = [] := by
  unfold parseRequest at h
  split at h
  · cases h
  rename_i hhead
  simp only [not_or, Nat.not_lt, not_not] at hhead
  split at h
  · cases h
  rename_i userId rest huser
  obtain ⟨hbytes, hnul⟩ := cstring_eq_some huser
  split at h
  · cases h
  rename_i hlen
  split at h
  · rename_i h4a
    split at h
    · cases h
    rename_i domain tail' hdomain
    obtain ⟨hrest, hnul'⟩ := cstring_eq_some hdomain
    split at h
    · cases h
    rename_i hdom
    simp only [not_or, Nat.not_lt] at hdom
    obtain ⟨rfl, rfl⟩ := h
    exact ⟨hhead.1, rfl, hhead.2.1, hhead.2.2, hnul, Nat.le_of_not_lt hlen, rest, hbytes,
      by rw [if_pos h4a]; exact ⟨hrest, hnul', hdom.1, hdom.2⟩⟩
  · rename_i h4
    simp only [Option.some.injEq, Prod.mk.injEq] at h
    obtain ⟨rfl, rfl⟩ := h
    exact ⟨hhead.1, rfl, hhead.2.1, hhead.2.2, hnul, Nat.le_of_not_lt hlen, rest, hbytes,
      by rw [if_neg h4]; exact ⟨rfl, rfl⟩⟩

/-! ## The read loop -/

variable {payload more : List UInt8}

theorem eq_take_of_append_eq (h : payload ++ more = text ++ 0 :: rest)
    (hlt : text.length < payload.length) : ∃ left, payload = text ++ 0 :: left := by
  have hp : payload = (text ++ 0 :: rest).take payload.length := by rw [← h, take_left]
  rw [take_append, take_of_length_le (Nat.le_of_lt hlt)] at hp
  obtain ⟨k, hk⟩ := Nat.exists_eq_add_of_lt hlt
  have hk' : payload.length - text.length = k + 1 := by omega
  rw [hk', take_succ_cons] at hp
  exact ⟨_, hp⟩

theorem not_mem_of_append_eq (h : payload ++ more = text ++ 0 :: rest)
    (h0 : 0 ∉ text) (hle : payload.length ≤ text.length) : 0 ∉ payload := by
  have hp : payload = text.take payload.length := by
    rw [← @take_append_of_le_length _ text (0 :: rest) _ hle, ← h, take_left]
  rw [hp]
  exact fun hm => h0 (mem_of_mem_take hm)

theorem readSocks4CstringLoop_eq : ∀ (fuel : Nat) (self : ProxySession) (text rest : List UInt8),
    self.socks4Payload ++ self.client.bytes = text ++ 0 :: rest → 0 ∉ text →
    self.socks4Payload.length ≤ kSocks4MaximumStringLength + 1 →
    kSocks4MaximumStringLength + 2 ≤ fuel + self.socks4Payload.length →
    readSocks4CstringLoop fuel self =
      if self.socks4Payload.length + (self.client.gather (text.length + 1 - self.socks4Payload.length)).1.length
          ≤ kSocks4MaximumStringLength + 1 then
        .ok (text, { self with
          client := (self.client.gather (text.length + 1 - self.socks4Payload.length)).2,
          socks4Payload := (self.socks4Payload ++
            (self.client.gather (text.length + 1 - self.socks4Payload.length)).1).drop (text.length + 1) })
      else .error stringTooLong
  | 0, self, text, rest, _, _, hlen, hfuel => by omega
  | fuel + 1, self, text, rest, heq, h0, hlen, hfuel => by
    rw [readSocks4CstringLoop]
    by_cases hin : text.length < self.socks4Payload.length
    · obtain ⟨left, hleft⟩ := eq_take_of_append_eq heq hin
      have hpos : nullPosition self.socks4Payload = some text.length := hleft ▸ nullPosition_append h0 left
      have hzero : text.length + 1 - self.socks4Payload.length = 0 := by omega
      have htake : self.socks4Payload.take text.length = text := by rw [hleft, take_left]
      simp only [hpos, hzero, Segments.gather_zero, htake, append_nil, length_nil, Nat.add_zero]
      rw [if_pos hlen]
    · have hnone := nullPosition_eq_none (not_mem_of_append_eq heq h0 (Nat.le_of_not_lt hin))
      obtain ⟨n, hn⟩ : ∃ n, text.length + 1 - self.socks4Payload.length = n + 1 :=
        ⟨text.length - self.socks4Payload.length, by omega⟩
      have htotal : self.socks4Payload.length + self.client.bytes.length = text.length + 1 + rest.length := by
        have := congrArg List.length heq
        simp only [length_append, length_cons] at this
        omega
      rw [hnone]
      by_cases hmax : self.socks4Payload.length > kSocks4MaximumStringLength
      · have hg := Segments.le_gather_length (text.length + 1 - self.socks4Payload.length) self.client (by omega)
        rw [if_pos hmax]
        exact (if_neg (by omega)).symm
      · rw [if_neg hmax]
        obtain ⟨⟨ps, hps⟩, readFails, request, payload, userId, domain, user, initial⟩ := self
        dsimp only at *
        cases ps with
        | nil =>
          simp only [Segments.bytes, flatten_nil, length_nil] at htotal
          omega
        | cons p ps =>
          have hps' : ∀ q ∈ ps, q ≠ [] := fun q hq => hps q (mem_cons_of_mem p hq)
          have hbytes := Segments.bytes_cons p ps hps hps'
          rw [hn, Segments.gather_cons n p ps hps hps']
          simp only [Segments.readSome, length_append]
          by_cases hbig : p.length > 1024
          · have hchunk : (p.take 1024).length = 1024 := by rw [length_take]; omega
            rw [if_pos (by rw [hchunk, kSocks4MaximumStringLength]; omega),
              if_neg (by rw [kSocks4MaximumStringLength]; omega)]
          · have hchunk : p.take 1024 = p := take_of_length_le (by omega)
            have hrest : p.drop 1024 = [] := drop_eq_nil_iff.2 (by omega)
            have hp : 0 < p.length := length_pos_iff.2 (hps p mem_cons_self)
            simp only [hchunk, hrest, Segments.push, dif_pos]
            by_cases hfit : payload.length + p.length > kSocks4MaximumStringLength + 1
            · rw [if_pos hfit, if_neg (by omega)]
            · rw [if_neg hfit, readSocks4CstringLoop_eq fuel _ text rest
                (by simp only [append_assoc]; rw [← hbytes]; exact heq) h0
                (by simp only [length_append]; omega) (by simp only [length_append]; omega)]
              have hsub : text.length + 1 - (payload.length + p.length) = n + 1 - p.length := by omega
              simp only [length_append, hsub, append_assoc, Nat.add_assoc]

theorem readSocks4CstringLoop_error : ∀ (fuel : Nat) (self : ProxySession),
    0 ∉ self.socks4Payload ++ self.client.bytes → ∃ e, readSocks4CstringLoop fuel self = .error e
  | 0, _, _ => ⟨_, rfl⟩
  | fuel + 1, self, h => by
    rw [readSocks4CstringLoop, nullPosition_eq_none (fun hm => h (mem_append_left _ hm))]
    dsimp only
    split
    · exact ⟨_, rfl⟩
    · cases hread : self.client.readSome 1024 with
      | none => exact ⟨_, rfl⟩
      | some r =>
        have hbytes := Segments.readSome_bytes 1024 self.client r.2 r.1 hread
        dsimp only
        split
        · exact ⟨_, rfl⟩
        · refine readSocks4CstringLoop_error fuel _ ?_
          rwa [append_assoc, ← hbytes]

theorem readSocks4Cstring_eq (self : ProxySession) (text rest : List UInt8)
    (h : self.client.bytes = text ++ 0 :: rest) (h0 : 0 ∉ text) :
    readSocks4Cstring self =
      if (self.client.gather (text.length + 1)).1.length ≤ kSocks4MaximumStringLength + 1 then
        .ok (text, { self with
          client := (self.client.gather (text.length + 1)).2,
          socks4Payload := (self.client.gather (text.length + 1)).1.drop (text.length + 1) })
      else .error stringTooLong := by
  unfold readSocks4Cstring
  rw [readSocks4CstringLoop_eq _ _ text rest (by simpa using h) h0 (Nat.zero_le _) (Nat.le_refl _)]
  simp

/-! ## The handshake -/

variable {client : Segments UInt8}

theorem gather_rest_eq_iff (h : client.bytes = text ++ 0 :: rest) :
    (client.gather (text.length + 1)).2.bytes = rest ↔ text.length + 1 ∈ client.boundaries := by
  have hle : text.length + 1 ≤ client.bytes.length := by rw [h]; simp
  rw [← Segments.gather_length_eq_iff _ _ hle]
  have hsplit := Segments.gather_bytes (text.length + 1) client
  rw [h] at hsplit
  have hlen := congrArg List.length hsplit
  simp only [length_append, length_cons] at hlen
  constructor
  · intro hrest
    rw [hrest] at hlen
    omega
  · intro hg
    have htext : text ++ 0 :: rest = (text ++ [0]) ++ rest := by simp
    rw [htext] at hsplit
    exact (append_inj hsplit (by simpa using hg)).2

theorem gather_rest_length_lt (h : client.bytes = text ++ 0 :: rest)
    (hne : text.length + 1 ∉ client.boundaries) :
    (client.gather (text.length + 1)).2.bytes.length < rest.length := by
  have hle : text.length + 1 ≤ client.bytes.length := by rw [h]; simp
  have hge := Segments.le_gather_length _ _ hle
  have hne' := mt (Segments.gather_length_eq_iff _ _ hle).1 hne
  have hlen := congrArg List.length (Segments.gather_bytes (text.length + 1) client)
  rw [h] at hlen
  simp only [length_append, length_cons] at hlen
  omega

theorem readTarget_iff (self : ProxySession) (domain tail : List UInt8)
    (h4a : isSocks4aAddress self.socks4Request = true) (hinit : self.httpInitialData = [])
    (h : self.client.bytes = domain ++ 0 :: tail) (h0 : 0 ∉ domain) (hne : domain ≠ [])
    (hlen : domain.length ≤ kSocks4MaximumStringLength) :
    ((readTarget self).2 = .openTarget (openSocks4Target self.socks4Request domain) ∧
      startRelay (readTarget self).1 = tail) ↔
      domain.length + 1 ∈ self.client.boundaries := by
  have hle : domain.length + 1 ≤ self.client.bytes.length := by rw [h]; simp
  have hcut := gather_rest_eq_iff h
  simp only [readTarget, h4a, if_true]
  rw [readSocks4Cstring_eq self domain tail h h0]
  by_cases hfit : (self.client.gather (domain.length + 1)).1.length ≤ kSocks4MaximumStringLength + 1
  · rw [if_pos hfit]
    simp only [hne, Nat.not_lt.2 hlen, or_self, if_false, startRelay, hinit, nil_append, true_and]
    exact hcut
  · rw [if_neg hfit]
    simp only [reduceCtorEq, false_and, false_iff]
    intro hb
    have := (Segments.gather_length_eq_iff _ _ hle).2 hb
    omega

theorem readTarget_short (self : ProxySession) (domain tail : List UInt8)
    (h4a : isSocks4aAddress self.socks4Request = true) (hinit : self.httpInitialData = [])
    (hlt : self.client.bytes.length < domain.length + 1 + tail.length) :
    ¬ ((readTarget self).2 = .openTarget (openSocks4Target self.socks4Request domain) ∧
      startRelay (readTarget self).1 = tail) := by
  rintro ⟨hopen, hrelay⟩
  simp only [readTarget, h4a, if_true] at hopen hrelay
  by_cases hnul : (0 : UInt8) ∈ self.client.bytes
  · obtain ⟨text, rest, hbytes, h0⟩ := eq_append_cons_of_mem hnul
    rw [readSocks4Cstring_eq self text rest hbytes h0] at hopen hrelay
    have hle : text.length + 1 ≤ self.client.bytes.length := by rw [hbytes]; simp
    have hge := Segments.le_gather_length _ _ hle
    have hsum := congrArg List.length (Segments.gather_bytes (text.length + 1) self.client)
    rw [length_append] at hsum
    by_cases hfit : (self.client.gather (text.length + 1)).1.length ≤ kSocks4MaximumStringLength + 1
    · rw [if_pos hfit] at hopen hrelay
      dsimp only at hopen hrelay
      by_cases hdom : text = [] ∨ text.length > kSocks4MaximumStringLength
      · rw [if_pos hdom] at hopen
        cases hopen
      · rw [if_neg hdom] at hopen hrelay
        simp only [openSocks4Target, h4a, if_true, Verdict.openTarget.injEq,
          Destination.domain.injEq, and_true] at hopen
        simp only [startRelay, hinit, nil_append] at hrelay
        rw [hrelay, hopen] at hsum
        rw [hopen] at hge
        omega
    · rw [if_neg hfit] at hopen
      cases hopen
  · obtain ⟨e, he⟩ := readSocks4CstringLoop_error
      (kSocks4MaximumStringLength + 2) { self with socks4Payload := [] }
      (by simpa using hnul)
    rw [readSocks4Cstring, he] at hopen
    cases hopen

/-- `ReadsFit` past the header: what the reads of the strings must meet. -/
def StringsFit (owner : ProxyServer) (m : Request) (boundaries : List Nat) : Prop :=
  match authenticate owner.socks5Users m.userId with
  | none => ∃ b ∈ boundaries, m.userId.length + 1 ≤ b ∧ b ≤ kSocks4MaximumStringLength + 1
  | some _ => m.userId.length + 1 ∈ boundaries ∧
      (isSocks4aAddress m.header = true → m.userId.length + 1 + (m.domain.length + 1) ∈ boundaries)

theorem readSocks4CstringLoop_frame : ∀ (fuel : Nat) (self self' : ProxySession) (text : List UInt8),
    readSocks4CstringLoop fuel self = .ok (text, self') →
      self' = { self with client := self'.client, socks4Payload := self'.socks4Payload }
  | 0, _, _, _, h => by simp [readSocks4CstringLoop] at h
  | fuel + 1, self, self', text, h => by
    rw [readSocks4CstringLoop] at h
    split at h
    · simp only [Except.ok.injEq, Prod.mk.injEq] at h
      obtain ⟨_, rfl⟩ := h
      rfl
    · split at h
      · cases h
      · split at h
        · cases h
        · split at h
          · cases h
          · have hself := readSocks4CstringLoop_frame fuel _ self' text h
            exact hself

theorem readTarget_user (self : ProxySession) : (readTarget self).1.socks4UserId = self.socks4UserId ∧
    (readTarget self).1.authenticatedUser = self.authenticatedUser := by
  unfold readTarget
  split
  · cases hread : readSocks4Cstring self with
    | error e => exact ⟨rfl, rfl⟩
    | ok r =>
      have hframe := readSocks4CstringLoop_frame _ _ r.2 r.1 hread
      dsimp only
      split <;> exact ⟨by rw [hframe], by rw [hframe]⟩
  · exact ⟨rfl, rfl⟩

theorem readUser_serves_iff (owner : ProxyServer) (self : ProxySession) (m : Request) (rest tail : List UInt8)
    (hhead : self.socks4Request = m.header) (hinit : self.httpInitialData = [])
    (h : self.client.bytes = m.userId ++ 0 :: rest) (h0 : 0 ∉ m.userId)
    (hlen : m.userId.length ≤ kSocks4MaximumStringLength)
    (hrest : if isSocks4aAddress m.header = true then
        rest = m.domain ++ 0 :: tail ∧ 0 ∉ m.domain ∧ m.domain ≠ [] ∧
        m.domain.length ≤ kSocks4MaximumStringLength
      else rest = tail ∧ m.domain = []) :
    Serves owner m tail (readUser owner self) ↔ StringsFit owner m self.client.boundaries := by
  have hle : m.userId.length + 1 ≤ self.client.bytes.length := by rw [h]; simp
  have hcut := gather_rest_eq_iff h
  unfold readUser
  rw [readSocks4Cstring_eq self m.userId rest h h0]
  by_cases hfit : (self.client.gather (m.userId.length + 1)).1.length ≤ kSocks4MaximumStringLength + 1
  · rw [if_pos hfit]
    simp only [Nat.not_lt.2 hlen, if_false]
    unfold Serves StringsFit
    cases huser : authenticate owner.socks5Users m.userId with
    | none =>
      simp only [true_and, true_iff]
      exact (Segments.gather_length_le_iff _ _ _ hle).1 hfit
    | some user =>
      rw [(readTarget_user _).1, (readTarget_user _).2]
      simp only [true_and]
      by_cases h4a : isSocks4aAddress m.header = true
      · rw [if_pos h4a] at hrest
        obtain ⟨hrest, hd0, hdne, hdlen⟩ := hrest
        by_cases hb : m.userId.length + 1 ∈ self.client.boundaries
        · have hg := (Segments.gather_length_eq_iff _ _ hle).2 hb
          have htarget := readTarget_iff
            { self with
              client := (self.client.gather (m.userId.length + 1)).2,
              socks4Payload := (self.client.gather (m.userId.length + 1)).1.drop (m.userId.length + 1),
              socks4UserId := m.userId, authenticatedUser := some user }
            m.domain tail (by rw [hhead]; exact h4a) hinit ((hcut.2 hb).trans hrest) hd0 hdne hdlen
          rw [hhead] at htarget
          rw [hhead, htarget, Segments.gather_boundaries _ _ _ (Nat.succ_pos _), hg]
          simp only [hb, h4a, true_and, true_imp_iff]
        · have hlt := gather_rest_length_lt h hb
          rw [hrest] at hlt
          simp only [length_append, length_cons] at hlt
          have htarget := readTarget_short
            { self with
              client := (self.client.gather (m.userId.length + 1)).2,
              socks4Payload := (self.client.gather (m.userId.length + 1)).1.drop (m.userId.length + 1),
              socks4UserId := m.userId, authenticatedUser := some user }
            m.domain tail (by rw [hhead]; exact h4a) hinit (by dsimp only; omega)
          rw [hhead] at htarget
          rw [hhead]
          simp only [hb, false_and, iff_false]
          exact htarget
      · rw [if_neg h4a] at hrest
        obtain ⟨rfl, hd⟩ := hrest
        simp only [readTarget, hhead, h4a, if_false, openSocks4Target, startRelay, hinit, nil_append, true_and,
          false_imp_iff, and_true, Bool.false_eq_true]
        exact hcut
  · rw [if_neg hfit]
    unfold Serves StringsFit
    cases huser : authenticate owner.socks5Users m.userId with
    | none =>
      simp only [reduceCtorEq, and_false, false_iff]
      exact fun hb => hfit ((Segments.gather_length_le_iff _ _ _ hle).2 hb)
    | some user =>
      simp only [reduceCtorEq, and_false, false_and, false_iff]
      rintro ⟨hb, _⟩
      have := (Segments.gather_length_eq_iff _ _ hle).2 hb
      omega

theorem headerOf_split (bytes : List UInt8) :
    headerOf (bytes.getD 0 0 :: (bytes.drop 1).take 7) = headerOf bytes := by
  funext i
  unfold headerOf
  obtain ⟨i, hi⟩ := i
  cases i with
  | zero => simp
  | succ i =>
    rw [getD_cons_succ, getD_eq_getElem?_getD, getElem?_take_of_lt (by omega), getElem?_drop,
      Nat.add_comm 1 i, getD_eq_getElem?_getD]

/-- **The SOCKS4 handshake serves a request exactly when the reads fit it.** -/
theorem runHandshake_serves_iff (owner : ProxyServer) (hmode : owner.inboundMode ≠ .http)
    (client : Segments UInt8)
    (readFails : Bool) (m : Request) (tail : List UInt8) (h : parseRequest client.bytes = some (m, tail)) :
    Serves owner m tail (runHandshake owner { client, readFails }) ↔ ReadsFit owner m client.boundaries := by
  obtain ⟨hlen, hhead, hversion, hcommand, h0, huser, rest, hbytes, hrest⟩ := parseRequest_eq_some h
  obtain ⟨s1, hread1, hs1⟩ := Segments.readExact_bytes 1 client (by omega)
  obtain ⟨s2, hread2, hs2⟩ := Segments.readExact_bytes 7 s1 (by rw [hs1, length_drop]; omega)
  have hs2' : s2.bytes = client.bytes.drop 8 := by rw [hs2, hs1, drop_drop]
  have hbound : ∀ k, 0 < k → (k ∈ s2.boundaries ↔ 8 + k ∈ client.boundaries) := by
    intro k hk
    rw [Segments.readExact_boundaries 7 s1 s2 _ k hk hread2,
      Segments.readExact_boundaries 1 client s1 _ (7 + k) (by omega) hread1, ← Nat.add_assoc]
  have hfirst : (client.bytes.take 1).getD 0 0 = client.bytes.getD 0 0 := by
    rw [getD_eq_getElem?_getD, getD_eq_getElem?_getD, getElem?_take_of_lt (by omega)]
  have hheader := headerOf_split client.bytes
  rw [← hs1] at hheader
  have hbyte : client.bytes.getD 0 0 = kSocks4Version := hversion ▸ congrFun hhead.symm 0 ▸ rfl
  have hrun : runHandshake owner { client, readFails } =
      readUser owner { client := s2, readFails, socks4Request := m.header } := by
    unfold runHandshake runSocks4Request
    rw [hread1]
    dsimp only
    rw [hfirst, if_pos hbyte, if_neg hmode, hread2]
    dsimp only
    rw [hheader, ← hhead, if_neg (by simp [hversion, hcommand])]
  rw [hrun, readUser_serves_iff owner _ m rest tail rfl rfl (by dsimp only; rw [hs2', hbytes]) h0 huser hrest]
  unfold StringsFit ReadsFit
  cases authenticate owner.socks5Users m.userId with
  | none =>
    constructor
    · rintro ⟨b, hb, h1, h2⟩
      exact ⟨8 + b, (hbound b (by omega)).1 hb, by omega, by omega⟩
    · rintro ⟨b, hb, h1, h2⟩
      obtain ⟨k, rfl⟩ := Nat.exists_eq_add_of_le (show 8 ≤ b by omega)
      exact ⟨k, (hbound k (by omega)).2 hb, by omega, by omega⟩
  | some user =>
    rw [hbound _ (Nat.succ_pos _), hbound _ (by omega), ← Nat.add_assoc]

/-- A SOCKS4a request for user `u` and domain `d`, port 80. -/
def requestBytes : List UInt8 := [4, 1, 0, 80, 0, 0, 0, 1, 117, 0, 100, 0]

def request : Request := ⟨headerOf requestBytes, [117], [100]⟩

/-- The request in three reads: the header and the user id, the domain, and what follows it. -/
def fittingClient : Segments UInt8 :=
  ⟨[[4, 1, 0, 80, 0, 0, 0, 1, 117, 0], [100, 0], [9]], by decide⟩

/-- **A request whose reads fit** is served, and the byte after it reaches the target. -/
theorem runHandshake_serves_fitting :
    parseRequest fittingClient.bytes = some (⟨headerOf fittingClient.bytes, [117], [100]⟩, [9]) ∧
    Serves ⟨.mixed, []⟩ ⟨headerOf fittingClient.bytes, [117], [100]⟩ [9]
      (runHandshake ⟨.mixed, []⟩ { client := fittingClient, readFails := false }) :=
  ⟨rfl, (runHandshake_serves_iff ⟨.mixed, []⟩ (by decide) fittingClient false _ [9] rfl).2
    ⟨by decide, fun _ => by decide⟩⟩

def coalescedClient : Segments UInt8 := ⟨[requestBytes], by decide⟩

/-- **A request that comes in one read closes the session**: the domain was read with the user id, and
dropped. -/
theorem runHandshake_drops_domain :
    parseRequest coalescedClient.bytes = some (request, []) ∧
    (runHandshake ⟨.mixed, []⟩ { client := coalescedClient, readFails := false }).2 = .closed ∧
    ¬ Serves ⟨.mixed, []⟩ request [] (runHandshake
      ⟨.mixed, []⟩ { client := coalescedClient, readFails := false }) := by
  refine ⟨rfl, rfl, ?_⟩
  rintro ⟨_, _, hopen, _⟩
  cases hopen

end ClashNative.Socks4
