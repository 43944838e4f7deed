import ClashNative.Socks5Udp
import Mathlib.Data.Vector.Defs
/-!
# PacketFrames — datagrams on a stream

`udp_over_tcp.cpp` and `trojan/packet_conn.cpp` carry datagrams on a stream, each in a frame: an address,
a length and the payload. They differ in values (`Dialect`) and in when they look at the size of a
payload.  A frame is read a field at a time (`Stage`).
-/
namespace ClashNative.PacketStream

open List hiding Vector

open Socks5Udp (Host portAt)

abbrev Bytes := List UInt8

/-- `io::DatagramAddress`; a `core::Destination` says the same. -/
abbrev DatagramAddress := Socks5Udp.Destination

/-! ## Addresses -/

structure Families where
  ipv4 : UInt8
  ipv6 : UInt8
  domain : UInt8
  ipv4_ne_ipv6 : ipv4 ≠ ipv6
  ipv4_ne_domain : ipv4 ≠ domain
  ipv6_ne_domain : ipv6 ≠ domain

def uotFamilies : Families := ⟨0x00, 0x01, 0x02, by decide, by decide, by decide⟩

def socksFamilies : Families := ⟨0x01, 0x04, 0x03, by decide, by decide, by decide⟩

def putPort (port : UInt16) : Bytes := [(port >>> 8).toUInt8, (port &&& 0xff).toUInt8]

/-- The body of the three encoders, which name hosts and refuse a domain in their own way. -/
def encodeHostPort (families : Families) (context : String)
    (destination : DatagramAddress) : Except Error Bytes :=
  match destination.host with
  | .v4 bytes => .ok (families.ipv4 :: bytes.toList ++ putPort destination.port)
  | .v6 bytes => .ok (families.ipv6 :: bytes.toList ++ putPort destination.port)
  | .domain name =>
    if name = [] ∨ name.length > 255 then .error ⟨.configuration, context⟩
    else .ok (families.domain :: UInt8.ofNat name.length :: name ++ putPort destination.port)

def encodeDestination : DatagramAddress → Except Error Bytes :=
  encodeHostPort uotFamilies "UDP-over-TCP domain length is invalid"

def encodeRequestDestination : DatagramAddress → Except Error Bytes :=
  encodeHostPort socksFamilies "UDP-over-TCP request domain length is invalid"

def encodeAddress : DatagramAddress → Except Error Bytes :=
  encodeHostPort socksFamilies "Trojan packet domain length is invalid"

/-! ## Fields -/

structure Dialect where
  families : Families
  encode : DatagramAddress → Except Error Bytes
  /-- It stands behind the length. -/
  suffix : Bytes
  /-- The largest length taken. -/
  maxPayload : Option Nat
  /-- The room is looked at before the payload is read, and an empty payload is not read. -/
  looksAhead : Bool

def udpOverTcp : Dialect := ⟨uotFamilies, encodeDestination, [], none, false⟩

def kMaxPacketPayload : Nat := 8192

def trojan : Dialect := ⟨socksFamilies, encodeAddress, [0x0d, 0x0a], some kMaxPacketPayload, true⟩

def putBe16 (n : Nat) : Bytes := [UInt8.ofNat (n >>> 8), UInt8.ofNat (n &&& 0xff)]

def be16 (bytes : Bytes) : Nat := (bytes.getD 0 0).toNat <<< 8 ||| (bytes.getD 1 0).toNat

/-- What `send` makes of an encoded address and a payload. -/
def Dialect.frame (d : Dialect) (address payload : Bytes) : Bytes :=
  address ++ putBe16 payload.length ++ d.suffix ++ payload

inductive ErrorCode
  | eof | protocolError | messageSize | operationAborted | alreadyStarted | lower
  deriving DecidableEq, Repr

/-- What a receive handler is called with; the payload is what the caller's buffer holds. -/
inductive Received
  | packet (source : DatagramAddress) (payload : Bytes)
  | error (code : ErrorCode)
  deriving DecidableEq

/-- The exact reads of a frame, with what was read before: `read_family` and the ones behind it. -/
inductive Stage
  | family
  | domainLength
  | domainName (size : Nat)
  | domainPort (domain : Bytes)
  | numericAddress (family : UInt8) (addressSize : Nat)
  | port (family : UInt8) (address : Bytes)
  | payloadLength (source : DatagramAddress)
  | payload (source : DatagramAddress) (size : Nat)
  deriving DecidableEq

def Stage.size (d : Dialect) : Stage → Nat
  | .family => 1
  | .domainLength => 1
  | .domainName size => size
  | .domainPort _ => 2
  | .numericAddress _ addressSize => addressSize
  | .port _ _ => 2
  | .payloadLength _ => 2 + d.suffix.length
  | .payload _ size => size

inductive Next
  | read (stage : Stage)
  | finish (result : Received)
  deriving DecidableEq

namespace Dialect

def readPayloadBytes (d : Dialect) (room : Nat) (source : DatagramAddress) (size : Nat) : Next :=
  if d.looksAhead = true ∧ size = 0 then .finish (.packet source [])
  else if d.looksAhead = true ∧ room < size then .finish (.error .messageSize)
  else .read (.payload source size)

/-- **The completion of a stage** with its bytes, for a receive with a buffer of `room`.  A payload that
was not checked against this buffer is copied over its end: `payload` is what fits. -/
def next (d : Dialect) (room : Nat) (stage : Stage) (bytes : Bytes) : Next :=
  match stage with
  | .family =>
    let value := bytes.headD 0
    if value = d.families.ipv4 then .read (.numericAddress value 4)
    else if value = d.families.ipv6 then .read (.numericAddress value 16)
    else if value = d.families.domain then .read .domainLength
    else .finish (.error .protocolError)
  | .domainLength =>
    let size := (bytes.headD 0).toNat
    if size = 0 then .finish (.error .protocolError) else .read (.domainName size)
  | .domainName _ => .read (.domainPort bytes)
  | .domainPort domain => .read (.payloadLength ⟨.domain domain, portAt bytes⟩)
  | .numericAddress family _ => .read (.port family bytes)
  | .port family address =>
    let host : Host := if family = d.families.ipv4 then .v4 (Vector.ofFn fun i => address.getD i 0)
      else .v6 (Vector.ofFn fun i => address.getD i 0)
    .read (.payloadLength ⟨host, portAt bytes⟩)
  | .payloadLength source =>
    if bytes.drop 2 ≠ d.suffix then .finish (.error .protocolError)
    else if d.maxPayload.any (· < be16 bytes) then .finish (.error .protocolError)
    else d.readPayloadBytes room source (be16 bytes)
  | .payload source size =>
    if d.looksAhead = false ∧ room < size then .finish (.error .messageSize) else
      .finish (.packet source (bytes.take room))

/-- A stage meets a receive with room for it: its length is not refused, and its payload was checked
against this buffer. -/
def Takes (d : Dialect) (room : Nat) (stage : Stage) (bytes : Bytes) : Prop :=
  match stage with
  | .payloadLength _ => d.maxPayload.all (be16 bytes ≤ ·) = true ∧ (d.looksAhead = true → be16 bytes ≤ room)
  | .payload _ size => d.looksAhead = true → size ≤ room
  | _ => True

instance (d : Dialect) (room : Nat) (stage : Stage) (bytes : Bytes) : Decidable (d.Takes room stage bytes) :=
  match stage with
  | .payloadLength _ => inferInstanceAs (Decidable (_ ∧ (_ → _)))
  | .payload _ _ => inferInstanceAs (Decidable (_ → _))
  | .family | .domainLength | .domainName _ | .domainPort _ | .numericAddress _ _ | .port _ _ =>
    inferInstanceAs (Decidable True)

end Dialect

/-! ## A packet and the fields of its frame -/

structure Packet where
  address : DatagramAddress
  payload : Bytes
  domain_valid : ∀ name, address.host = .domain name → name ≠ [] ∧ name.length ≤ 255
  payload_le : payload.length ≤ 65535

namespace Packet

def family (d : Dialect) (p : Packet) : UInt8 :=
  match p.address.host with
  | .v4 _ => d.families.ipv4
  | .v6 _ => d.families.ipv6
  | .domain _ => d.families.domain

def hostBytes (p : Packet) : Bytes :=
  match p.address.host with
  | .v4 bytes => bytes.toList
  | .v6 bytes => bytes.toList
  | .domain name => UInt8.ofNat name.length :: name

def lengthBytes (d : Dialect) (p : Packet) : Bytes := putBe16 p.payload.length ++ d.suffix

def wire (d : Dialect) (p : Packet) : Bytes :=
  [p.family d] ++ (p.hostBytes ++ (putPort p.address.port ++ (p.lengthBytes d ++ p.payload)))

/-- What its source may be told of it: a payload that is larger than the buffer is an error. -/
def answer (p : Packet) (room : Nat) : Received :=
  if room < p.payload.length then .error .messageSize else .packet p.address p.payload

end Packet

/-- **Where a stage is in a frame**: the field that it reads, and what follows the field. -/
inductive At (d : Dialect) (p : Packet) : Stage → Bytes → Bytes → Prop
  | family : At d p .family [p.family d]
    (p.hostBytes ++ (putPort p.address.port ++ (p.lengthBytes d ++ p.payload)))
  | v4 (bytes : Vector UInt8 4) (h : p.address.host = .v4 bytes) :
    At d p (.numericAddress d.families.ipv4 4) bytes.toList
    (putPort p.address.port ++ (p.lengthBytes d ++ p.payload))
  | v6 (bytes : Vector UInt8 16) (h : p.address.host = .v6 bytes) :
    At d p (.numericAddress d.families.ipv6 16) bytes.toList
    (putPort p.address.port ++ (p.lengthBytes d ++ p.payload))
  | portV4 (bytes : Vector UInt8 4) (h : p.address.host = .v4 bytes) :
    At d p (.port d.families.ipv4 bytes.toList) (putPort p.address.port) (p.lengthBytes d ++ p.payload)
  | portV6 (bytes : Vector UInt8 16) (h : p.address.host = .v6 bytes) :
    At d p (.port d.families.ipv6 bytes.toList) (putPort p.address.port) (p.lengthBytes d ++ p.payload)
  | domainLength (name : Bytes) (h : p.address.host = .domain name) :
    At d p .domainLength [UInt8.ofNat name.length]
    (name ++ (putPort p.address.port ++ (p.lengthBytes d ++ p.payload)))
  | domainName (name : Bytes) (h : p.address.host = .domain name) :
    At d p (.domainName name.length) name (putPort p.address.port ++ (p.lengthBytes d ++ p.payload))
  | domainPort (name : Bytes) (h : p.address.host = .domain name) :
    At d p (.domainPort name) (putPort p.address.port) (p.lengthBytes d ++ p.payload)
  | payloadLength : At d p (.payloadLength p.address) (p.lengthBytes d) p.payload
  | payload : At d p (.payload p.address p.payload.length) p.payload []

/-! ## Numbers and addresses come back -/

variable {n : Nat}

theorem shift_or (h : n < 65536) : (n / 256 % 256) <<< 8 ||| n % 256 = n := by
  have hlow : n % 256 < 2 ^ 8 := Nat.mod_lt _ (by decide)
  rw [Nat.shiftLeft_eq, Nat.mul_comm, ← Nat.two_pow_add_eq_or_of_lt hlow]
  omega

theorem portAt_putPort (port : UInt16) : portAt (putPort port) = port := by
  have hport := port.toNat_lt
  apply UInt16.toNat_inj.1
  unfold portAt putPort
  simp only [getD_cons_zero, getD_cons_succ, UInt16.toNat_or, UInt16.toNat_shiftLeft, UInt8.toNat_toUInt16,
    UInt16.toNat_toUInt8,
    UInt16.toNat_shiftRight, UInt16.toNat_and]
  rw [show port.toNat &&& UInt16.toNat 0xff = port.toNat % 256 from Nat.and_two_pow_sub_one_eq_mod _ 8,
    show UInt16.toNat 8 % 16 = 8 from rfl, Nat.shiftRight_eq_div_pow, Nat.mod_mod_of_dvd _ (by decide)]
  have hhigh : (port.toNat / 2 ^ 8 % 2 ^ 8) <<< 8 < 2 ^ 16 := by
    omega
  rw [Nat.mod_eq_of_lt hhigh]
  exact shift_or hport

theorem be16_putBe16 (h : n ≤ 65535) (suffix : Bytes) : be16 (putBe16 n ++ suffix) = n := by
  unfold be16 putBe16
  simp only [cons_append, nil_append, getD_cons_zero, getD_cons_succ, UInt8.toNat_ofNat']
  rw [show n &&& 0xff = n % 256 from Nat.and_two_pow_sub_one_eq_mod n 8, Nat.shiftRight_eq_div_pow, Nat.mod_mod]
  exact shift_or (by omega)

theorem ofFn_toList {k : Nat} (bytes : Vector UInt8 k) :
    (Vector.ofFn fun i : Fin k => bytes.toList.getD i 0) = bytes := by
  apply Vector.ext
  intro i hi
  simp

theorem ofNat_length {name : Bytes} (h : name.length ≤ 255) : (UInt8.ofNat name.length).toNat = name.length := by
  exact Nat.mod_eq_of_lt (by omega)

/-! ## The fields of a frame, one after the other -/

theorem frame_eq (d : Dialect) (context : String) (p : Packet) : ∃ address,
    encodeHostPort d.families context p.address = .ok address ∧ d.frame address p.payload = p.wire d := by
  unfold encodeHostPort Dialect.frame Packet.wire Packet.family Packet.hostBytes Packet.lengthBytes
  cases hhost : p.address.host with
  | v4 bytes => exact ⟨_, rfl, by simp⟩
  | v6 bytes => exact ⟨_, rfl, by simp⟩
  | domain name =>
    obtain ⟨hname, hlength⟩ := p.domain_valid name hhost
    exact ⟨_, if_neg (not_or.2 ⟨hname, Nat.not_lt.2 hlength⟩), by simp⟩

/-! ### The completion of each stage -/

namespace Dialect

variable (d : Dialect) (room : Nat)

theorem next_family (value : UInt8) : d.next room .family [value] =
    if value = d.families.ipv4 then .read (.numericAddress value 4)
    else if value = d.families.ipv6 then .read (.numericAddress value 16)
    else if value = d.families.domain then .read .domainLength
    else .finish (.error .protocolError) := rfl

theorem next_domainLength (size : UInt8) : d.next room .domainLength [size] =
    if size.toNat = 0 then .finish (.error .protocolError) else .read (.domainName size.toNat) := rfl

theorem next_domainPort (name bytes : Bytes) :
    d.next room (.domainPort name) bytes = .read (.payloadLength ⟨.domain name, portAt bytes⟩) := rfl

theorem next_portV4 (address bytes : Bytes) : d.next room (.port d.families.ipv4 address) bytes =
    .read (.payloadLength ⟨.v4 (Vector.ofFn fun i => address.getD i 0), portAt bytes⟩) := by
  unfold next
  dsimp only
  rw [if_pos rfl]

theorem next_portV6 (address bytes : Bytes) : d.next room (.port d.families.ipv6 address) bytes =
    .read (.payloadLength ⟨.v6 (Vector.ofFn fun i => address.getD i 0), portAt bytes⟩) := by
  unfold next
  dsimp only
  rw [if_neg d.families.ipv4_ne_ipv6.symm]

theorem next_payloadLength (source : DatagramAddress) (bytes : Bytes) :
    d.next room (.payloadLength source) bytes =
    if bytes.drop 2 ≠ d.suffix then .finish (.error .protocolError)
    else if d.maxPayload.any (· < be16 bytes) then .finish (.error .protocolError)
    else d.readPayloadBytes room source (be16 bytes) := rfl

theorem next_payload (source : DatagramAddress) (size : Nat) (bytes : Bytes) :
    d.next room (.payload source size) bytes =
    if d.looksAhead = false ∧ room < size then .finish (.error .messageSize) else
    .finish (.packet source (bytes.take room)) := rfl

end Dialect

namespace Packet

variable {d : Dialect} {p : Packet} {bytes : Vector UInt8 4}

theorem family_v4 (h : p.address.host = .v4 bytes) : p.family d = d.families.ipv4 := by
  unfold family
  rw [h]

theorem family_v6 {bytes : Vector UInt8 16} (h : p.address.host = .v6 bytes) : p.family d = d.families.ipv6 := by
  unfold family
  rw [h]

variable {name : Bytes}

theorem family_domain (h : p.address.host = .domain name) : p.family d = d.families.domain := by
  unfold family
  rw [h]

theorem hostBytes_v4 (h : p.address.host = .v4 bytes) : p.hostBytes = bytes.toList := by
  unfold hostBytes
  rw [h]

theorem hostBytes_v6 {bytes : Vector UInt8 16} (h : p.address.host = .v6 bytes) : p.hostBytes =
    bytes.toList := by
  unfold hostBytes
  rw [h]

theorem hostBytes_domain (h : p.address.host = .domain name) :
    p.hostBytes = UInt8.ofNat name.length :: name := by
  unfold hostBytes
  rw [h]

end Packet

namespace At

variable {d : Dialect} {p : Packet} {stage : Stage} {field tail : Bytes}

theorem length_eq (h : At d p stage field tail) : field.length = stage.size d := by
  cases h <;> simp [Stage.size, putPort, Packet.lengthBytes, putBe16]
  omega

theorem ne_nil (h : At d p stage field tail) (hpayload : ∀ source size, stage ≠ .payload source size) :
    field ≠ [] := by
  intro hnil
  have hlength := h.length_eq
  rw [hnil, length_nil] at hlength
  cases h with
  | domainName _ hhost => exact (p.domain_valid field hhost).1 hnil
  | payload => exact hpayload _ _ rfl
  | payloadLength =>
    rw [Stage.size] at hlength
    omega
  | _ => simp [Stage.size] at hlength

theorem tail_nil (h : At d p stage field tail) (hfield : field = []) : tail = [] := by
  by_contra htail
  refine h.ne_nil (fun source size hstage => ?_) hfield
  subst hstage
  cases h
  exact htail rfl

theorem payload_nil (h : At d p stage field tail) (hfield : field = []) : p.payload = [] := by
  by_contra hpayload
  refine h.ne_nil (fun source size hstage => ?_) hfield
  subst hstage
  cases h
  exact hpayload hfield

theorem payload_tail {source : DatagramAddress} {size : Nat}
    (h : At d p (.payload source size) field tail) : tail = [] := by
  cases h
  rfl

theorem next (h : At d p stage field tail) {room : Nat} (htakes : d.Takes room stage field) :
    (∃ stage' field' tail', d.next room stage field = .read stage' ∧ At d p stage' field' tail' ∧
      tail = field' ++ tail') ∨
    (tail = [] ∧ (d.looksAhead = true ∨ field = p.payload) ∧
      d.next room stage field = .finish (p.answer room)) := by
  cases h with
  | family =>
    refine .inl ?_
    cases hhost : p.address.host with
    | v4 bytes =>
      refine ⟨_, _, _, ?_, .v4 bytes hhost, by rw [Packet.hostBytes_v4 hhost]⟩
      rw [d.next_family, Packet.family_v4 hhost, if_pos rfl]
    | v6 bytes =>
      refine ⟨_, _, _, ?_, .v6 bytes hhost, by rw [Packet.hostBytes_v6 hhost]⟩
      rw [d.next_family, Packet.family_v6 hhost, if_neg d.families.ipv4_ne_ipv6.symm, if_pos rfl]
    | domain name =>
      refine ⟨_, _, _, ?_, .domainLength name hhost, by rw [Packet.hostBytes_domain hhost]; rfl⟩
      rw [d.next_family, Packet.family_domain hhost, if_neg d.families.ipv4_ne_domain.symm,
        if_neg d.families.ipv6_ne_domain.symm, if_pos rfl]
  | v4 bytes hhost => exact .inl ⟨_, _, _, rfl, .portV4 bytes hhost, rfl⟩
  | v6 bytes hhost => exact .inl ⟨_, _, _, rfl, .portV6 bytes hhost, rfl⟩
  | portV4 bytes hhost =>
    refine .inl ⟨.payloadLength p.address, _, _, ?_, .payloadLength, rfl⟩
    rw [d.next_portV4, ofFn_toList, portAt_putPort, ← hhost]
  | portV6 bytes hhost =>
    refine .inl ⟨.payloadLength p.address, _, _, ?_, .payloadLength, rfl⟩
    rw [d.next_portV6, ofFn_toList, portAt_putPort, ← hhost]
  | domainLength name hhost =>
    obtain ⟨hname, hlength⟩ := p.domain_valid name hhost
    refine .inl ⟨.domainName name.length, _, _, ?_, .domainName name hhost, rfl⟩
    rw [d.next_domainLength, ofNat_length hlength, if_neg (length_eq_zero_iff.not.2 hname)]
  | domainName _ hhost => exact .inl ⟨_, _, _, rfl, .domainPort _ hhost, rfl⟩
  | domainPort name hhost =>
    refine .inl ⟨.payloadLength p.address, _, _, ?_, .payloadLength, rfl⟩
    rw [d.next_domainPort, portAt_putPort, ← hhost]
  | payloadLength =>
    have hsize : be16 (p.lengthBytes d) = p.payload.length := be16_putBe16 p.payload_le d.suffix
    obtain ⟨hmax, hfits⟩ := htakes
    rw [hsize] at hmax hfits
    have hmax : ¬ d.maxPayload.any (· < p.payload.length) = true := by
      cases hbound : d.maxPayload with
      | none => exact Bool.noConfusion
      | some bound =>
        rw [hbound] at hmax
        simpa using hmax
    rw [d.next_payloadLength, hsize, if_neg (not_not.2 (show (p.lengthBytes d).drop 2 = d.suffix from rfl)),
      if_neg hmax,
      Dialect.readPayloadBytes]
    by_cases hahead : d.looksAhead = true
    · by_cases hnil : p.payload.length = 0
      · have hnil' : p.payload = [] := length_eq_zero_iff.1 hnil
        refine .inr ⟨hnil', .inl hahead, ?_⟩
        rw [if_pos ⟨hahead, hnil⟩, Packet.answer, if_neg (by omega), hnil']
      · refine .inl ⟨_, _, _, ?_, .payload, (append_nil _).symm⟩
        rw [if_neg (fun h => hnil h.2), if_neg (fun h => absurd h.2 (Nat.not_lt.2 (hfits hahead)))]
    · refine .inl ⟨_, _, _, ?_, .payload, (append_nil _).symm⟩
      rw [if_neg (fun h => hahead h.1), if_neg (fun h => hahead h.1)]
  | payload =>
    refine .inr ⟨rfl, .inr rfl, ?_⟩
    rw [d.next_payload, Packet.answer]
    by_cases hfits : room < p.payload.length
    · have hahead : d.looksAhead = false := by
        by_contra hahead
        exact absurd (htakes (by simpa using hahead)) (Nat.not_le.2 hfits)
      rw [if_pos ⟨hahead, hfits⟩, if_pos hfits]
    · rw [if_neg (fun h => hfits h.2), if_neg hfits, take_of_length_le (Nat.not_lt.1 hfits)]

end At

end ClashNative.PacketStream
