import ClashNative.DatagramSizes
import ClashNative.GunFrames
import ClashNative.Socks4
/-!
# Socks5Handshake — the SOCKS5 inbound handshake

`ProxySession::run_socks5_handshake` behind the protocol byte, and `open_socks_target`.  The client socket
is its unread input, cut as it arrives; a write may fail.  `open_socks_udp_association` stays outside: it
is handed the port the request names.
-/
namespace ClashNative.Socks5Handshake

open List hiding Vector
open Wire
open Socks4 (ProxyServer)
open Socks5Udp (portAt encodeProxyAddress)

abbrev Bytes := List UInt8

def kSocksVersion : UInt8 := 0x05
def kNoAuthentication : UInt8 := 0x00
def kUsernamePasswordAuthentication : UInt8 := 0x02
def kNoAcceptableMethods : UInt8 := 0xff
def kSocksAuthVersion : UInt8 := 0x01
def kConnectCommand : UInt8 := 0x01
def kUdpAssociateCommand : UInt8 := 0x03

/-- `written`: the answers sent. -/
structure Session where
  client : Segments UInt8
  written : List Bytes := []
  authenticatedUser : Option Bytes := none

inductive Refusal
  | closed
  | reply (status : UInt8)

inductive Request
  | openTarget (target : Socks5Udp.Destination)
  | udpAssociation (port : UInt16)

abbrev Handshake := ExceptT Refusal (StateM Session)

def readHandshakeExact (size : Nat) : Handshake Bytes := fun self =>
  match self.client.readExact size with
  | none => (.error .closed, self)
  | some (bytes, client) => (.ok bytes, { self with client })

def readByte : Handshake UInt8 := do return (← readHandshakeExact 1).getD 0 0

section
variable (writeFails : Nat → Bool) (owner : ProxyServer)

def writeHandshakeAll (bytes : Bytes) : Handshake Unit := fun self =>
  if writeFails self.written.length then (.error .closed, self)
  else (.ok (), { self with written := self.written ++ [bytes] })

def requiredMethod : UInt8 :=
  if owner.socks5Users.isEmpty then kNoAuthentication else kUsernamePasswordAuthentication

def negotiate : Handshake UInt8 := do
  let count ← readByte
  if count = 0 then
    writeHandshakeAll writeFails [kSocksVersion, kNoAcceptableMethods]
    throw .closed
  else
    let methods ← readHandshakeExact count.toNat
    let negotiated :=
      if methods.contains (requiredMethod owner) then requiredMethod owner else kNoAcceptableMethods
    writeHandshakeAll writeFails [kSocksVersion, negotiated]
    if negotiated ≠ kNoAuthentication ∧ negotiated ≠ kUsernamePasswordAuthentication then throw .closed
    else return negotiated

def refuseLogin : Handshake Unit := do
  writeHandshakeAll writeFails [kSocksAuthVersion, 0x01]
  throw .closed

def authenticate : Handshake Unit := do
  let header ← readHandshakeExact 2
  if header.getD 0 0 ≠ kSocksAuthVersion ∨ header.getD 1 0 = 0 then refuseLogin writeFails
  else
    let username ← readHandshakeExact (header.getD 1 0).toNat
    let passwordLength ← readByte
    if passwordLength = 0 then refuseLogin writeFails
    else
      let password ← readHandshakeExact passwordLength.toNat
      match owner.socks5Users.find? fun candidate =>
      candidate.username == username && candidate.password == password with
      | none => refuseLogin writeFails
      | some user =>
        modify fun self => { self with authenticatedUser := some user.username }
        writeHandshakeAll writeFails [kSocksAuthVersion, 0x00]

def checkLogin (negotiated : UInt8) : Handshake Unit :=
  if negotiated = kUsernamePasswordAuthentication then authenticate writeFails owner else pure ()

end

/-- `open_socks_target`: `body` is what follows the address type, behind the length of a domain. -/
def openSocksTarget (command type : UInt8) (body : Bytes) : Request :=
  let port := portAt (body.drop (body.length - 2))
  if command = kUdpAssociateCommand then .udpAssociation port
  else if type = 0x01 then .openTarget ⟨.v4 (Vector.ofFn fun i => body.getD i 0), port⟩
  else if type = 0x04 then .openTarget ⟨.v6 (Vector.ofFn fun i => body.getD i 0), port⟩
  else .openTarget ⟨.domain (body.take (body.length - 2)), port⟩

def readRequestBody (type : UInt8) : Handshake Bytes := do
  if type = 0x01 then readHandshakeExact 6
  else if type = 0x03 then
    let size ← readByte
    if size = 0 then throw .closed else readHandshakeExact (size.toNat + 2)
  else if type = 0x04 then readHandshakeExact 18
  else throw (.reply 0x08)

def readRequest : Handshake Request := do
  let header ← readHandshakeExact 4
  let command := header.getD 1 0
  let type := header.getD 3 0
  if header.getD 0 0 ≠ kSocksVersion then throw .closed
  else if command ≠ kConnectCommand ∧ command ≠ kUdpAssociateCommand then throw (.reply 0x07)
  else return openSocksTarget command type (← readRequestBody type)

def runSocks5Handshake (writeFails : Nat → Bool) (owner : ProxyServer) : Handshake Request := do
  checkLogin writeFails owner (← negotiate writeFails owner)
  readRequest

/-! ### What a client says -/

def greeting (methods : Bytes) : Bytes := UInt8.ofNat methods.length :: methods

def login (username password : Bytes) : Bytes :=
  kSocksAuthVersion :: UInt8.ofNat username.length :: username ++ UInt8.ofNat password.length :: password

def Sized (name : Bytes) : Prop := 0 < name.length ∧ name.length < 256

/-- **A login that a server takes**: none where it has no users, else the name and password of one of
them. -/
def LogsIn (owner : ProxyServer) (said : Bytes) (answers : List Bytes) (user : Option Bytes) : Prop :=
  if owner.socks5Users = [] then said = [] ∧ answers = [] ∧ user = none
  else ∃ u ∈ owner.socks5Users, Sized u.username ∧ Sized u.password ∧ said = login u.username u.password ∧
    answers = [[kSocksAuthVersion, 0x00]] ∧ user = some u.username

def asked (command : UInt8) (destination : Socks5Udp.Destination) : Request :=
  if command = kUdpAssociateCommand then .udpAssociation destination.port else .openTarget destination

/-! ### Reads and answers -/

section
variable {α β : Type} {s t : Session}

theorem bind_ok {x : Handshake α} {f : α → Handshake β} {b : β} :
    (x >>= f) s = (.ok b, t) ↔ ∃ a u, x s = (.ok a, u) ∧ f a u = (.ok b, t) := by
  have hbind : (x >>= f) s = match x s with
      | (.ok a, u) => f a u
      | (.error e, u) => (.error e, u) := by
    show (StateT.bind x (ExceptT.bindCont f)) s = _
    unfold StateT.bind
    obtain ⟨a | a, u⟩ := x s <;> rfl
  rw [hbind]
  obtain ⟨e | a, u⟩ := x s
  · exact ⟨nofun, fun ⟨_, _, h, _⟩ => by cases h⟩
  · exact ⟨fun h => ⟨a, u, rfl, h⟩, fun ⟨_, _, h, hf⟩ => by cases h; exact hf⟩

variable {b : α}

theorem pure_ok {a : α} : (pure a : Handshake α) s = (.ok b, t) ↔ a = b ∧ s = t :=
  ⟨fun h => by cases h; exact ⟨rfl, rfl⟩, fun ⟨ha, hs⟩ => by rw [ha, hs]; rfl⟩

@[simp] theorem throw_ok {refusal : Refusal} : (throw refusal : Handshake α) s = (.ok b, t) ↔ False :=
  ⟨nofun, False.elim⟩

variable {n : Nat}

theorem read_ok {b : Bytes} (h : readHandshakeExact n s = (.ok b, t)) :
    b.length = n ∧ s.client.bytes = b ++ t.client.bytes ∧ t = { s with client := t.client } := by
  unfold readHandshakeExact at h
  by_cases hn : n ≤ s.client.bytes.length
  · obtain ⟨client, hread, hrest⟩ := Segments.readExact_bytes n s.client hn
    rw [hread] at h
    cases h
    exact ⟨length_take_of_le hn, by rw [hrest, take_append_drop], rfl⟩
  · rw [Gun.readExact_short (Nat.not_le.1 hn)] at h
    cases h

variable {rest : Bytes}

theorem read_of {b : Bytes} (h : s.client.bytes = b ++ rest) :
    ∃ client, client.bytes = rest ∧ readHandshakeExact b.length s = (.ok b, { s with client }) := by
  obtain ⟨client, hread, hrest⟩ := Segments.readExact_bytes b.length s.client
    (by rw [h, length_append]; exact Nat.le_add_right _ _)
  rw [h, take_left] at hread
  rw [h, drop_left] at hrest
  exact ⟨client, hrest, by rw [readHandshakeExact, hread]⟩

variable {f : Bytes → Handshake β} {b : β}

theorem read_bind_ok (h : (readHandshakeExact n >>= f) s = (.ok b, t)) : ∃ bytes client,
    bytes.length = n ∧ s.client.bytes = bytes ++ client.bytes ∧ f bytes { s with client } = (.ok b, t) := by
  obtain ⟨bytes, u, hread, h⟩ := bind_ok.1 h
  obtain ⟨hlength, hbytes, hu⟩ := read_ok hread
  exact ⟨bytes, u.client, hlength, hbytes, hu ▸ h⟩

theorem read_bind_of {l : Bytes} (h : s.client.bytes = l ++ rest) : ∃ client, client.bytes = rest ∧
    ∀ t (b : β), f l { s with client } = (.ok b, t) → (readHandshakeExact l.length >>= f) s = (.ok b, t) := by
  obtain ⟨client, hrest, hread⟩ := read_of h
  exact ⟨client, hrest, fun t b hf => bind_ok.2 ⟨l, _, hread, hf⟩⟩

theorem byte_bind_ok {f : UInt8 → Handshake β} (h : (readByte >>= f) s = (.ok b, t)) : ∃ x client,
    s.client.bytes = x :: client.bytes ∧ f x { s with client } = (.ok b, t) := by
  obtain ⟨x, u, hread, h⟩ := bind_ok.1 h
  obtain ⟨bytes, client, hlength, hbytes, hx⟩ := read_bind_ok hread
  obtain ⟨x, rfl⟩ := length_eq_one_iff.1 hlength
  obtain ⟨rfl, rfl⟩ := pure_ok.1 hx
  exact ⟨x, client, hbytes, h⟩

theorem byte_bind_of {f : UInt8 → Handshake β} {x : UInt8} (h : s.client.bytes = x :: rest) :
    ∃ client, client.bytes = rest ∧
    ∀ t (b : β), f x { s with client } = (.ok b, t) → (readByte >>= f) s = (.ok b, t) := by
  obtain ⟨client, hrest, hread⟩ := read_of (b := [x]) h
  exact ⟨client, hrest, fun t b hf => bind_ok.2 ⟨x, _, bind_ok.2 ⟨[x], _, hread, rfl⟩, hf⟩⟩

theorem write_ok {writeFails : Nat → Bool} {bytes : Bytes} {u : Unit} :
    writeHandshakeAll writeFails bytes s = (.ok u, t) ↔
    writeFails s.written.length = false ∧ t = { s with written := s.written ++ [bytes] } := by
  unfold writeHandshakeAll
  cases writeFails s.written.length with
  | true => exact ⟨nofun, nofun⟩
  | false => exact ⟨fun h => by cases h; exact ⟨rfl, rfl⟩, fun ⟨_, h⟩ => by rw [h]; rfl⟩

end

section
variable {writeFails : Nat → Bool} {owner : ProxyServer} {s t : Session} {name : Bytes}

theorem toNat_ofNat (h : Sized name) : (UInt8.ofNat name.length).toNat = name.length :=
  UInt8.toNat_ofNat_of_lt' h.2

theorem ofNat_ne (h : Sized name) : UInt8.ofNat name.length ≠ 0 := by
  intro hzero
  have hlength := toNat_ofNat h
  rw [hzero] at hlength
  exact absurd hlength (Nat.ne_of_lt h.1)

theorem sized_of {l : Bytes} {n : UInt8} (hn : n ≠ 0) (h : l.length = n.toNat) :
    Sized l ∧ UInt8.ofNat l.length = n := by
  refine ⟨⟨?_, h ▸ n.toNat_lt⟩, by rw [h, UInt8.ofNat_toNat]⟩
  rw [h]
  exact Nat.pos_of_ne_zero fun hzero => hn (UInt8.toNat_inj.1 hzero)

theorem requiredMethod_cases (owner : ProxyServer) :
    requiredMethod owner = kNoAuthentication ∧ owner.socks5Users = [] ∨
      requiredMethod owner = kUsernamePasswordAuthentication ∧ owner.socks5Users ≠ [] := by
  unfold requiredMethod
  cases owner.socks5Users with
  | nil => exact .inl ⟨rfl, rfl⟩
  | cons u us => exact .inr ⟨rfl, nofun⟩

theorem negotiate_ok {m : UInt8} (h : negotiate writeFails owner s = (.ok m, t)) :
    m = requiredMethod owner ∧ ∃ methods, Sized methods ∧ requiredMethod owner ∈ methods ∧
      s.client.bytes = greeting methods ++ t.client.bytes ∧ writeFails s.written.length = false ∧
      t = { s with client := t.client, written := s.written ++ [[kSocksVersion, requiredMethod owner]] } := by
  obtain ⟨count, c₁, hbytes, h⟩ := byte_bind_ok h
  split at h
  · obtain ⟨_, _, -, h⟩ := bind_ok.1 h
    exact (throw_ok.1 h).elim
  · rename_i hzero
    obtain ⟨methods, c₂, hlength, hbytes', h⟩ := read_bind_ok h
    obtain ⟨_, _, hwritten, h⟩ := bind_ok.1 h
    obtain ⟨hwrite, rfl⟩ := write_ok.1 hwritten
    obtain ⟨hsized, hcode⟩ := sized_of hzero hlength
    by_cases hmem : requiredMethod owner ∈ methods
    · rw [if_pos (contains_iff_mem.2 hmem)] at h
      split at h
      · exact (throw_ok.1 h).elim
      · obtain ⟨rfl, rfl⟩ := pure_ok.1 h
        exact ⟨rfl, methods, hsized, hmem, by rw [hbytes, hbytes', greeting, hcode]; rfl, hwrite, rfl⟩
    · rw [if_neg fun hc => hmem (contains_iff_mem.1 hc)] at h
      exact absurd h (by rw [if_pos (by decide)]; exact fun h => throw_ok.1 h)

variable {rest : Bytes}

theorem negotiate_of {methods : Bytes} (hsized : Sized methods) (hmem : requiredMethod owner ∈ methods)
    (hbytes : s.client.bytes = greeting methods ++ rest) (hwrite : writeFails s.written.length = false) :
    ∃ client, client.bytes = rest ∧ negotiate writeFails owner s =
      (.ok (requiredMethod owner), { s with client, written := s.written ++
        [[kSocksVersion, requiredMethod owner]] }) := by
  obtain ⟨c, hc, hread⟩ := byte_bind_of hbytes
  obtain ⟨client, hclient, hread'⟩ := read_bind_of (s := { s with client := c }) hc
  refine ⟨client, hclient, hread _ _ ?_⟩
  rw [if_neg (ofNat_ne hsized), toNat_ofNat hsized]
  refine hread' _ _ ?_
  rw [if_pos (contains_iff_mem.2 hmem)]
  refine bind_ok.2 ⟨(), _, write_ok.2 ⟨hwrite, rfl⟩, ?_⟩
  rw [if_neg]
  · rfl
  · obtain ⟨hm, -⟩ | ⟨hm, -⟩ := requiredMethod_cases owner <;> rw [hm] <;> decide

variable {u : Unit}

theorem refuseLogin_ok : ¬ refuseLogin writeFails s = (.ok u, t) := by
  intro h
  obtain ⟨_, _, -, h⟩ := bind_ok.1 h
  exact throw_ok.1 h

theorem authenticate_ok (h : authenticate writeFails owner s = (.ok u, t)) : ∃ user ∈ owner.socks5Users,
    Sized user.username ∧ Sized user.password ∧
    s.client.bytes = login user.username user.password ++ t.client.bytes ∧
      writeFails s.written.length = false ∧
      t = ⟨t.client, s.written ++ [[kSocksAuthVersion, 0x00]], some user.username⟩ := by
  obtain ⟨header, c₁, hlength, hbytes₁, h⟩ := read_bind_ok h
  obtain ⟨version, length, rfl⟩ := length_eq_two.1 hlength
  split at h
  · exact (refuseLogin_ok h).elim
  rename_i hversion
  obtain ⟨hversion, hzero⟩ := not_or.1 hversion
  obtain rfl : version = kSocksAuthVersion := Classical.not_not.1 hversion
  obtain ⟨username, c₂, hlength₂, hbytes₂, h⟩ := read_bind_ok h
  obtain ⟨size, c₃, hbytes₃, h⟩ := byte_bind_ok h
  split at h
  · exact (refuseLogin_ok h).elim
  rename_i hzero'
  obtain ⟨password, c₄, hlength₄, hbytes₄, h⟩ := read_bind_ok h
  obtain hfind | ⟨user, hfind⟩ := (owner.socks5Users.find? fun candidate =>
    candidate.username == username && candidate.password == password).eq_none_or_eq_some
  · rw [hfind] at h
    exact (refuseLogin_ok h).elim
  rw [hfind] at h
  obtain ⟨_, _, hmodify, h⟩ := bind_ok.1 h
  cases hmodify
  obtain ⟨hwrite, rfl⟩ := write_ok.1 h
  have hmatch := find?_some hfind
  rw [Bool.and_eq_true, beq_iff_eq, beq_iff_eq] at hmatch
  obtain ⟨rfl, rfl⟩ := hmatch
  obtain ⟨hsized, rfl⟩ := sized_of hzero hlength₂
  obtain ⟨hsized', rfl⟩ := sized_of hzero' hlength₄
  refine ⟨user, mem_of_find?_eq_some hfind, hsized, hsized', ?_, hwrite, rfl⟩
  rw [hbytes₁, hbytes₂, hbytes₃, hbytes₄, login, append_assoc]
  rfl

theorem authenticate_of {user : Socks4.Socks5User} (hmem : user ∈ owner.socks5Users)
    (hsized : Sized user.username) (hsized' : Sized user.password)
    (hbytes : s.client.bytes = login user.username user.password ++ rest)
    (hwrite : writeFails s.written.length = false) :
    ∃ client, client.bytes = rest ∧ authenticate writeFails owner s =
      (.ok (), ⟨client, s.written ++ [[kSocksAuthVersion, 0x00]], some user.username⟩) := by
  obtain ⟨c₁, hc₁, hread₁⟩ := read_bind_of (l := [kSocksAuthVersion, UInt8.ofNat user.username.length])
    (hbytes.trans (by rw [login, append_assoc]; rfl))
  obtain ⟨c₂, hc₂, hread₂⟩ := read_bind_of (s := { s with client := c₁ }) hc₁
  obtain ⟨c₃, hc₃, hread₃⟩ := byte_bind_of (s := { s with client := c₂ }) hc₂
  obtain ⟨c₄, hc₄, hread₄⟩ := read_bind_of (s := { s with client := c₃ }) hc₃
  refine ⟨c₄, hc₄, hread₁ _ _ ?_⟩
  simp only [getD_cons_zero, getD_cons_succ]
  rw [if_neg (not_or.2 ⟨fun h => h rfl, ofNat_ne hsized⟩), toNat_ofNat hsized]
  refine hread₂ _ _ (hread₃ _ _ ?_)
  rw [if_neg (ofNat_ne hsized'), toNat_ofNat hsized']
  refine hread₄ _ _ ?_
  obtain ⟨found, hfind⟩ := Option.isSome_iff_exists.1 (find?_isSome (p := fun candidate : Socks4.Socks5User =>
    candidate.username == user.username && candidate.password == user.password) |>.2 ⟨user, hmem, by simp⟩)
  have hmatch := find?_some hfind
  rw [Bool.and_eq_true, beq_iff_eq, beq_iff_eq] at hmatch
  rw [hfind]
  exact bind_ok.2 ⟨(), _, rfl, write_ok.2 ⟨hwrite, by rw [hmatch.1]⟩⟩

end

/-! ### The request -/

open PacketStream (putPort)

variable {body : Bytes}

theorem body_split {k : Nat} (h : body.length = k + 2) :
    ∃ (front : Vector UInt8 k) (port : UInt16), body = front.toList ++ putPort port := by
  refine ⟨⟨(body.take k).toArray, by simp [h]⟩, portAt (body.drop k), ?_⟩
  obtain ⟨a, b, hport⟩ := length_eq_two.1
    (show (body.drop k).length = 2 by rw [length_drop, h, Nat.add_sub_cancel_left])
  have hmask : ∀ i (h : i < 8), (255#8)[i] = true := by decide
  have hbytes : putPort (portAt [a, b]) = [a, b] := by
    unfold putPort portAt
    congr 2
    · apply UInt8.toBitVec_inj.1
      ext i hi
      simp [Nat.add_comm 8, show i + 8 < 16 by omega, Nat.lt_trans hi, hi]
    · apply UInt8.toBitVec_inj.1
      ext i hi
      simpa using fun _ => hmask i hi
  rw [hport, hbytes, ← hport]
  exact (take_append_drop k body).symm

theorem openSocksTarget_eq (command type : UInt8) (front : Bytes) (port : UInt16) :
    openSocksTarget command type (front ++ putPort port) =
      if command = kUdpAssociateCommand then .udpAssociation port
      else if type = 0x01 then .openTarget ⟨.v4 (Vector.ofFn fun i => (front ++ putPort port).getD i 0), port⟩
      else if type = 0x04 then .openTarget ⟨.v6 (Vector.ofFn fun i => (front ++ putPort port).getD i 0), port⟩
      else .openTarget ⟨.domain front, port⟩ := by
  have hlength : (front ++ putPort port).length - 2 = front.length := by rw [length_append]; rfl
  unfold openSocksTarget
  rw [hlength, drop_left, take_left, PacketStream.portAt_putPort]

theorem openSocksTarget_v4 (command : UInt8) (front : Vector UInt8 4) (port : UInt16) :
    openSocksTarget command 0x01 (front.toList ++ putPort port) = asked command ⟨.v4 front, port⟩ := by
  rw [openSocksTarget_eq, DatagramSizes.ofFn_append front]
  rfl

theorem openSocksTarget_v6 (command : UInt8) (front : Vector UInt8 16) (port : UInt16) :
    openSocksTarget command 0x04 (front.toList ++ putPort port) = asked command ⟨.v6 front, port⟩ := by
  rw [openSocksTarget_eq, DatagramSizes.ofFn_append front]
  rfl

theorem openSocksTarget_domain (command : UInt8) (name : Bytes) (port : UInt16) :
    openSocksTarget command 0x03 (name ++ putPort port) = asked command ⟨.domain name, port⟩ :=
    openSocksTarget_eq command 0x03 name port

variable {s : Session} {command type : UInt8} {t : Session}

theorem readRequestBody_ok (h : readRequestBody type s = (.ok body, t)) :
    ∃ destination address, encodeProxyAddress destination = .ok (type :: address) ∧
    s.client.bytes = address ++ t.client.bytes ∧
      t = { s with client := t.client } ∧ openSocksTarget command type body = asked command destination := by
  unfold readRequestBody at h
  split at h
  · subst type
    obtain ⟨hlength, hbytes, ht⟩ := read_ok h
    obtain ⟨front, port, rfl⟩ := body_split (k := 4) hlength
    exact ⟨⟨.v4 front, port⟩, _, rfl, hbytes, ht, openSocksTarget_v4 command front port⟩
  · split at h
    · subst type
      obtain ⟨size, c, hbytes, h⟩ := byte_bind_ok h
      split at h
      · exact (throw_ok.1 h).elim
      · rename_i hzero
        obtain ⟨hlength, hbytes', ht⟩ := read_ok h
        obtain ⟨front, port, rfl⟩ := body_split hlength
        obtain ⟨hsized, hcode⟩ := sized_of (l := front.toList) hzero front.length_toList
        refine ⟨⟨.domain front.toList, port⟩, size :: (front.toList ++ putPort port),
          ?_, by rw [hbytes, hbytes']; rfl, ht,
          openSocksTarget_domain command _ port⟩
        refine (if_neg (not_or.2 ⟨length_pos_iff.1 hsized.1,
          Nat.not_lt.2 (Nat.le_of_lt_succ hsized.2)⟩)).trans ?_
        rw [hcode]
        rfl
    · split at h
      · subst type
        obtain ⟨hlength, hbytes, ht⟩ := read_ok h
        obtain ⟨front, port, rfl⟩ := body_split (k := 16) hlength
        exact ⟨⟨.v6 front, port⟩, _, rfl, hbytes, ht, openSocksTarget_v6 command front port⟩
      · exact (throw_ok.1 h).elim

variable {address rest : Bytes} {destination : Socks5Udp.Destination}

theorem readRequestBody_of (command : UInt8)
    (haddress : encodeProxyAddress destination = .ok (type :: address))
    (hbytes : s.client.bytes = address ++ rest) :
    ∃ client body, client.bytes = rest ∧ readRequestBody type s = (.ok body, { s with client }) ∧
      openSocksTarget command type body = asked command destination := by
  obtain ⟨host, port⟩ := destination
  cases host with
  | v4 front =>
    cases haddress
    obtain ⟨client, hclient, hread⟩ := read_of hbytes
    rw [show (List.append _ _).length = 6 by simp] at hread
    exact ⟨client, _, hclient, hread, openSocksTarget_v4 command front port⟩
  | v6 front =>
    cases haddress
    obtain ⟨client, hclient, hread⟩ := read_of hbytes
    rw [show (List.append _ _).length = 18 by simp] at hread
    exact ⟨client, _, hclient, hread, openSocksTarget_v6 command front port⟩
  | domain name =>
    rw [encodeProxyAddress] at haddress
    dsimp only at haddress
    split at haddress
    · cases haddress
    rename_i hname
    obtain ⟨hempty, hlong⟩ := not_or.1 hname
    have hsized : Sized name := ⟨length_pos_iff.2 hempty, Nat.lt_succ_of_le (Nat.not_lt.1 hlong)⟩
    cases haddress
    obtain ⟨c, hc, hread⟩ := byte_bind_of hbytes
    obtain ⟨client, hclient, hread'⟩ := read_of (s := { s with client := c }) hc
    refine ⟨client, _, hclient, hread _ _ ?_, openSocksTarget_domain command name port⟩
    rw [if_neg (ofNat_ne hsized), toNat_ofNat hsized]
    have hlength : (name ++ putPort port).length = name.length + 2 := length_append
    exact hlength ▸ hread'

theorem readRequest_ok {request : Request} (h : readRequest s = (.ok request, t)) :
    ∃ command reserved destination address,
    s.client.bytes = kSocksVersion :: command :: reserved :: (address ++ t.client.bytes) ∧
    encodeProxyAddress destination = .ok address ∧
      (command = kConnectCommand ∨ command = kUdpAssociateCommand) ∧ request = asked command destination ∧
      t = { s with client := t.client } := by
  obtain ⟨header, c, hlength, hbytes, h⟩ := read_bind_ok h
  obtain ⟨version, command, reserved, type, rfl⟩ : ∃ a b c d, header = [a, b, c, d] := by
    match header, hlength with
    | [a, b, c, d], _ => exact ⟨a, b, c, d, rfl⟩
  simp only [getD_cons_zero, getD_cons_succ] at h
  split at h
  · exact (throw_ok.1 h).elim
  rename_i hversion
  split at h
  · exact (throw_ok.1 h).elim
  rename_i hcommand
  obtain ⟨body, s₂, hbody, h⟩ := bind_ok.1 h
  obtain ⟨rfl, rfl⟩ := pure_ok.1 h
  obtain ⟨destination, address, haddress, hbytes', hs₂, hasked⟩ := readRequestBody_ok hbody
  refine ⟨command, reserved, destination, _, ?_, haddress, ?_, hasked, hs₂⟩
  · rw [hbytes, hbytes', show version = kSocksVersion from Classical.not_not.1 hversion]
    rfl
  · exact (Classical.not_and_iff_not_or_not.1 hcommand).imp Classical.not_not.1 Classical.not_not.1

theorem readRequest_of {reserved : UInt8}
    (hbytes : s.client.bytes = kSocksVersion :: command :: reserved :: (address ++ rest))
    (haddress : encodeProxyAddress destination = .ok address) (hcommand : command = kConnectCommand ∨
      command = kUdpAssociateCommand) :
    ∃ client, client.bytes = rest ∧ readRequest s = (.ok (asked command destination), { s with client }) := by
  obtain ⟨type, address, rfl⟩ := exists_cons_of_ne_nil (DatagramSizes.address_length haddress).1
  obtain ⟨c, hc, hread⟩ := read_bind_of (l := [kSocksVersion, command, reserved, type]) hbytes
  obtain ⟨client, body, hclient, hbody, hasked⟩ :=
    readRequestBody_of (s := { s with client := c }) command haddress hc
  refine ⟨client, hclient, hread _ _ ?_⟩
  simp only [getD_cons_zero, getD_cons_succ]
  rw [if_neg fun h => h rfl, if_neg fun h => hcommand.elim h.1 h.2]
  exact bind_ok.2 ⟨body, _, hbody, by rw [hasked]; rfl⟩

/-- **What opens a target**: a session takes the login and opens what its client asks for exactly when all
its client has said is a greeting with the method the server requires, a login that the server takes and a
request.  What comes behind it stays unread. -/
theorem handshake_opens_iff (writeFails : Nat → Bool) (owner : ProxyServer) (client : Segments UInt8)
    (request : Request) (rest : Bytes)
    (answers : List Bytes) (user : Option Bytes) :
    (∃ client', client'.bytes = rest ∧ runSocks5Handshake writeFails owner ⟨client, [], none⟩ =
      (.ok request, ⟨client', answers, user⟩)) ↔
      ∃ methods said logins command reserved destination address,
        client.bytes = greeting methods ++ (said ++ kSocksVersion :: command :: reserved :: (address ++ rest)) ∧
        Sized methods ∧ requiredMethod owner ∈ methods ∧ LogsIn owner said logins user ∧
        encodeProxyAddress destination = .ok address ∧
        (command = kConnectCommand ∨ command = kUdpAssociateCommand) ∧
        request = asked command destination ∧ answers = [kSocksVersion, requiredMethod owner] :: logins ∧
        ∀ i < answers.length, writeFails i = false := by
  constructor
  · rintro ⟨client', rfl, h⟩
    obtain ⟨m, s₁, hm, h⟩ := bind_ok.1 h
    obtain ⟨rfl, methods, hmethods, hmem, hbytes, hwrite, hs₁⟩ := negotiate_ok hm
    obtain ⟨_, s₂, hlogin, h⟩ := bind_ok.1 h
    obtain ⟨command, reserved, destination, address, hbytes', haddress, hcommand, hasked, hs₂⟩ :=
      readRequest_ok h
    obtain ⟨hm, husers⟩ | ⟨hm, husers⟩ := requiredMethod_cases owner
    · rw [checkLogin, if_neg (by rw [hm]; decide)] at hlogin
      obtain ⟨-, rfl⟩ := pure_ok.1 hlogin
      rw [hs₁] at hs₂
      cases hs₂
      refine ⟨methods, [], [], command, reserved, destination,
        address, by rw [hbytes, hbytes']; rfl, hmethods, hmem, ?_, haddress, hcommand,
        hasked, rfl, fun i hi => ?_⟩
      · exact (if_pos husers).mpr ⟨rfl, rfl, rfl⟩
      · obtain rfl := Nat.lt_one_iff.1 hi
        exact hwrite
    · rw [checkLogin, if_pos hm] at hlogin
      obtain ⟨u, hu, hsized, hsized', hbytes'', hwrite', hs₃⟩ := authenticate_ok hlogin
      rw [hs₁] at hwrite' hs₃
      rw [hs₃] at hs₂
      cases hs₂
      refine ⟨methods, _, _, command, reserved, destination,
        address, by rw [hbytes, hbytes'', hbytes'], hmethods, hmem, ?_, haddress, hcommand,
        hasked, rfl, fun i hi => ?_⟩
      · exact (if_neg husers).mpr ⟨u, hu, hsized, hsized', rfl, rfl, rfl⟩
      · match i, hi with
        | 0, _ => exact hwrite
        | 1, _ => exact hwrite'
  · rintro ⟨methods, said, logins, command, reserved, destination, address, hbytes, hmethods, hmem, hlogs,
      haddress, hcommand, rfl, rfl, hwrite⟩
    obtain ⟨c₁, hc₁, hm⟩ := negotiate_of (s := ⟨client, [], none⟩) hmethods hmem hbytes
      (hwrite 0 (Nat.succ_pos _))
    unfold LogsIn at hlogs
    obtain ⟨hmethod, husers⟩ | ⟨hmethod, husers⟩ := requiredMethod_cases owner
    · rw [if_pos husers] at hlogs
      obtain ⟨rfl, rfl, rfl⟩ := hlogs
      obtain ⟨c₂, hc₂, hrequest⟩ := readRequest_of
          (s := ⟨c₁, [[kSocksVersion, requiredMethod owner]], none⟩) hc₁ haddress hcommand
      refine ⟨c₂, hc₂, bind_ok.2 ⟨_, _, hm, bind_ok.2 ⟨(), _, ?_, hrequest⟩⟩⟩
      rw [checkLogin, if_neg (by rw [hmethod]; decide)]
      rfl
    · rw [if_neg husers] at hlogs
      obtain ⟨u, hu, hsized, hsized', rfl, rfl, rfl⟩ := hlogs
      obtain ⟨c₂, hc₂, hlogin⟩ := authenticate_of (s := ⟨c₁, [[kSocksVersion, requiredMethod owner]], none⟩)
        hu hsized hsized' hc₁
        (hwrite 1 (Nat.lt_succ_self 1))
      obtain ⟨c₃, hc₃, hrequest⟩ := readRequest_of
          (s := ⟨c₂, [[kSocksVersion, requiredMethod owner], [kSocksAuthVersion, 0x00]],
        some u.username⟩) hc₂ haddress hcommand
      refine ⟨c₃, hc₃, bind_ok.2 ⟨_, _, hm, bind_ok.2 ⟨(), _, ?_, hrequest⟩⟩⟩
      rw [checkLogin, if_pos hmethod]
      exact hlogin

end ClashNative.Socks5Handshake
