import ClashNative.DnsTypes
import Mathlib.Algebra.GroupWithZero.Nat
/-!
# DnsServer — the local DNS server

`dns_server.cpp`, and of `dns_codec.cpp` what it answers with.  c-ares is an argument (`CAres`); the
server's configuration is that of the snapshot at the query.  A socket neither fails nor is closed from
outside here.
-/
namespace ClashNative.Dns.Server

abbrev Bytes := List UInt8

def dnsRecordTypeA : UInt16 := 1
def dnsRecordTypeAaaa : UInt16 := 28
def dnsRecordTypeOpt : UInt16 := 41

structure Additional where
  type : UInt16
  classCode : UInt16
  ttlSeconds : UInt32
  rdata : Bytes := []
  deriving DecidableEq, Repr

structure QueryPacket extends DnsPacket where
  additionals : List Additional := []
  deriving DecidableEq, Repr

def QueryPacket.opt (query : QueryPacket) : Option Additional :=
  query.additionals.find? (·.type = dnsRecordTypeOpt)

def QueryPacket.movedFrom (query : QueryPacket) : QueryPacket :=
  { query with wire := [], questions := [], answers := [], authorities := [], additionals := [] }

/-! ## Messages -/

def codecError (context : String) : Error := ⟨.protocolFraming, context⟩

def u16 (value : UInt16) : Bytes := [(value >>> 8).toUInt8, value.toUInt8]

def u32 (value : UInt32) : Bytes :=
  [(value >>> 24).toUInt8, (value >>> 16).toUInt8, (value >>> 8).toUInt8, value.toUInt8]

/-- The checks of `encode_query_packet` on a normalized name: its labels are those between the dots. -/
def Encodable (name : Bytes) : Prop :=
  name ≠ [] ∧ name.length ≤ 253 ∧ name.head? ≠ some 46 ∧ name.getLast? ≠ some 46 ∧
    ∀ label ∈ name.splitOn 46, label ≠ [] ∧ label.length ≤ 63

instance (name : Bytes) : Decidable (Encodable name) := inferInstanceAs (Decidable (_ ∧ _))

def encodeName (name : Bytes) : Bytes :=
  (name.splitOn 46).flatMap (fun label => UInt8.ofNat label.length :: label) ++ [0]

/-- `encode_query_packet`; the two errors of its checks are one here. -/
def encodeQueryPacket (question : DnsQuestion) (id : UInt16) : Except Error Bytes :=
  let name := normalizeName question.name
  if Encodable name then
    .ok (u16 id ++ (u16 0x0100 ++ (u16 1 ++
      (u16 0 ++ (u16 0 ++ (u16 0 ++ (encodeName name ++ (u16 question.type ++
      u16 question.classCode))))))))
  else .error (codecError "DNS query name is invalid")

def appendOptRecord (response : Bytes) (query : QueryPacket) (responseCode : UInt16) : Bytes :=
  if query.opt = none ∧ responseCode ≤ 0x0f then response
  else
    let size := query.opt.elim 1232 fun opt => max 512 opt.classCode
    let ttl := ((responseCode >>> 4).toUInt32 <<< 24) |||
      query.opt.elim 0 (fun opt => opt.ttlSeconds &&& 0x00ffffff)
    let rdata := query.opt.elim [] (·.rdata)
    ((response ++ (0 :: (u16 dnsRecordTypeOpt ++
      (u16 size ++ (u32 ttl ++ (u16 (UInt16.ofNat rdata.length) ++ rdata)))))).set 10 0).set 11 1

theorem length_appendOptRecord_le (wire : Bytes) (query : QueryPacket) (code : UInt16) :
    wire.length ≤ (appendOptRecord wire query code).length := by
  unfold appendOptRecord
  split
  · exact Nat.le_refl _
  · rw [List.length_set, List.length_set, List.length_append]
    exact Nat.le_add_right _ _

def responseFlags (query : QueryPacket) (code : UInt16) : UInt16 :=
  (query.flags &&& 0x7910) ||| 0x8080 ||| (code &&& 0x0f)

def setFlags (wire : Bytes) (flags : UInt16) : Bytes :=
  (wire.set 2 (flags >>> 8).toUInt8).set 3 (flags &&& 0xff).toUInt8

def encodeErrorResponse (query : QueryPacket) (code : UInt16) : Except Error Bytes :=
  match query.questions with
  | [question] =>
    if query.response then .error (codecError "DNS error response requires one query question")
    else if code > 0x0fff then .error (codecError "DNS response code exceeds the 12-bit wire limit")
    else (encodeQueryPacket question query.id).map fun wire =>
      appendOptRecord (setFlags wire (responseFlags query code)) query code
  | _ => .error (codecError "DNS error response requires one query question")

/-- `DnsAnswer`, with IPv4 addresses: the fields that the server sets. -/
structure DnsAnswer where
  addresses : List (Fin 4 → UInt8)
  ttlSeconds : UInt32

def answerRecords (question : DnsQuestion) (answer : DnsAnswer) : Bytes :=
  answer.addresses.flatMap fun address => [0xc0, 0x0c] ++ (u16 question.type ++ (u16 question.classCode ++
    (u32 answer.ttlSeconds ++ (u16 4 ++ [address 0, address 1, address 2, address 3]))))

/-- `encode_response`, of an answer to the query's own question. -/
def encodeResponse (query : QueryPacket) (answer : DnsAnswer) : Except Error Bytes :=
  match query.questions with
  | [question] =>
    if query.response ∨ query.responseCode ≠ 0 then
      .error (codecError "DNS response requires one valid query question")
    else if answer.addresses.length > 0xffff then .error (codecError "DNS response contains too many answers")
    else
      match encodeQueryPacket question query.id with
      | .error e => .error e
      | .ok encoded =>
        if question.type = dnsRecordTypeAaaa ∧ answer.addresses ≠ [] then
          .error (codecError "DNS answer address type does not match the query")
        else
          let count := UInt16.ofNat answer.addresses.length
          let wire := (encoded.set 6 (count >>> 8).toUInt8).set 7 count.toUInt8 ++ answerRecords question answer
          .ok (appendOptRecord (setFlags wire (responseFlags query 0)) query 0)
  | _ => .error (codecError "DNS response requires one valid query question")

/-! ## c-ares -/

inductive Section
  | additional | authority | answer
  deriving DecidableEq, Repr

structure Rr where
  name : Bytes
  type : UInt16
  classCode : UInt16
  data : Bytes := []
  deriving DecidableEq, Repr

/-- `ares_dns_record_t`.  `header`: its other fields and its questions. -/
structure Record where
  id : UInt16
  rcode : Nat
  header : Bytes
  rrs : Section → List Rr

/-- c-ares: what it parses and writes, and `packet`, what `decode_packet` reads of a record when it can.
-/
structure CAres where
  parse : Bytes → Except Error Record
  write : Record → Except Error Bytes
  packet : Record → Option QueryPacket

def Record.hasOpt (r : Record) : Bool := (r.rrs .additional).any fun rr => rr.type = dnsRecordTypeOpt

def Record.setRrs (r : Record) (s : Section) (rrs : List Rr) : Record :=
  { r with rrs := fun t => if t = s then rrs else r.rrs t }

namespace CAres

variable (c : CAres)

def decodePacket (message : Bytes) (expectedId : Option UInt16) : Except Error QueryPacket :=
  match c.parse message with
  | .error e => .error e
  | .ok r =>
    if expectedId.isSome ∧ expectedId ≠ some r.id then
      .error (codecError "DNS response transaction ID does not match")
    else
      match c.packet r with
      | none => .error (codecError "c-ares returned an invalid DNS resource record")
      | some packet => .ok { packet with id := r.id, wire := message }

def exceedsCapacity : Error := codecError "DNS question and EDNS data exceed the UDP payload capacity"

def encodeTruncated (maximumSize : Nat) (r : Record) : Except Error Bytes :=
  match c.write r with
  | .error e => .error e
  | .ok wire => if wire.length > maximumSize then .error exceedsCapacity else
    .ok (wire.set 2 (wire.getD 2 0 ||| 0x02))

def lastRemovable (s : Section) (r : Record) : Option Rr :=
  (r.rrs s).reverse.find? fun rr => !(s == .additional && rr.type == dnsRecordTypeOpt)

def removeSet (s : Section) (rr : Rr) (r : Record) : Record :=
  r.setRrs s ((r.rrs s).filter fun x => !(x.type == rr.type && x.classCode == rr.classCode && x.name == rr.name))

/-- The loop over one section, of at most `n` sets: what is left, and what is returned. -/
def dropSets (maximumSize : Nat) (s : Section) : Nat → Record → Record × Option (Except Error Bytes)
  | 0, r => (r, none)
  | n + 1, r =>
    match lastRemovable s r with
    | none => (r, none)
    | some rr =>
      match c.encodeTruncated maximumSize (removeSet s rr r) with
      | .ok wire => (removeSet s rr r, some (.ok wire))
      | .error e =>
        if e.context ≠ exceedsCapacity.context then (removeSet s rr r, some (.error e))
        else dropSets maximumSize s n (removeSet s rr r)

def dropSections (maximumSize : Nat) : List Section → Record → Record × Option (Except Error Bytes)
  | [], r => (r, none)
  | s :: rest, r =>
    let dropped := c.dropSets maximumSize s (r.rrs s).length r
    if dropped.2.isSome then dropped else dropSections maximumSize rest dropped.1

def dropOpt (r : Record) : Record := r.setRrs .additional
    ((r.rrs .additional).filter (·.type ≠ dnsRecordTypeOpt))

def truncateUdpResponse (response : Bytes) (maximumSize : Nat) : Except Error Bytes :=
  if maximumSize < 12 then .error (codecError "UDP DNS payload capacity is smaller than a DNS header")
  else if response.length ≤ maximumSize then .ok response
  else
    match c.parse response with
    | .error e => .error e
    | .ok r =>
      let dropped := c.dropSections maximumSize [.additional, .authority, .answer] r
      dropped.2.getD (c.encodeTruncated maximumSize (dropOpt dropped.1))

end CAres

/-! ## The server -/

/-- The configuration that a query meets.  `fakeIp`: the filter and `resolve` of the store, where there
are both; `queryService`: there is one. -/
structure Config where
  cares : CAres
  fakeIp : Option ((Bytes → Bool) × (Bytes → Option (Fin 4 → UInt8))) := none
  queryService : Bool := true

inductive Outcome
  | success (packet : DnsPacket)
  | failure (error : Error)
  | exception (error : Option Error)

def udpPayloadLimit (query : QueryPacket) : Nat := query.opt.elim 512 fun opt => max 512 opt.classCode.toNat

def failedUdpQuery : Error := ⟨.transportIo, "DNS UDP query failed"⟩
def failedTcpQuery : Error := ⟨.transportIo, "DNS TCP query failed"⟩

namespace Config

variable (s : Config)

def limitUdpResponse (query : QueryPacket) (response : Except Error Bytes) : Except Error Bytes :=
  match response with
  | .error e => .error e
  | .ok wire => s.cares.truncateUdpResponse wire (udpPayloadLimit query)

def fakeIpAddress (query : QueryPacket) : Option (Option (Fin 4 → UInt8)) :=
  match s.fakeIp, query.questions with
  | some (filter, resolve), [question] =>
    if query.response ∨ question.type ≠ dnsRecordTypeA ∨ filter question.name = false then none
    else some (resolve question.name)
  | _, _ => none

def fakeIpResponse (query : QueryPacket) : Option (Except Error Bytes) :=
  (s.fakeIpAddress query).map fun
    | none => encodeErrorResponse query 2
    | some address => encodeResponse query { addresses := [address], ttlSeconds := 60 }

/-- `error_response`: the wire message of the packet. -/
def errorResponse (query : QueryPacket) : Except Error Bytes :=
  match encodeErrorResponse query 2 with
  | .error _ => .error failedUdpQuery
  | .ok encoded => (s.cares.decodePacket encoded (some query.id)).map (·.wire)

/-- What `run_udp_resolve` sends.  An answer without a value throws, and nothing is sent. -/
def runUdpResolve (query : QueryPacket) (outcome : Outcome) : List Bytes :=
  match s.fakeIpResponse query with
  | some fake =>
    match s.limitUdpResponse query fake with
    | .ok response => if response.length ≤ 0xffff then [response] else []
    | .error _ => []
  | none =>
    if s.queryService = false then
      match s.limitUdpResponse query (encodeErrorResponse query 2) with
      | .ok response => [response]
      | .error _ => []
    else
      let answered : Except Error Bytes :=
        match outcome with
        | .success packet => .ok packet.wire
        | .failure _ | .exception _ => s.errorResponse query
      match answered with
      | .error _ => []
      | .ok wire =>
        match s.limitUdpResponse query (.ok wire) with
        | .ok response => if response.length > 0xffff then [] else [response]
        | .error _ => []

/-- `TcpConnection::resolve`.  The query is moved into `query_sender`. -/
def resolve (query : QueryPacket) (outcome : Outcome) : Except Error Bytes :=
  match s.fakeIpResponse query with
  | some fake => fake
  | none =>
    if s.queryService = false then encodeErrorResponse query 2
    else
      match outcome with
      | .success packet => .ok packet.wire
      | .failure _ => encodeErrorResponse query.movedFrom 2
      | .exception (some error) => .error error
      | .exception none => .error failedTcpQuery

end Config

structure TcpConnection where
  connected : Bool := true
  written : Bytes := []
  deriving DecidableEq, Repr

def frame (response : Bytes) : Bytes :=
  UInt8.ofNat (response.length / 2 ^ 8) :: UInt8.ofNat response.length :: response

def TcpConnection.close (t : TcpConnection) : TcpConnection := { t with connected := false }

/-- The loop of `TcpConnection::run`, from a body that was read. -/
def TcpConnection.serve (t : TcpConnection) (s : Config) (payload : Bytes) (outcome : Outcome) : TcpConnection :=
  if t.connected = false then t
  else if payload.length = 0 ∨ payload.length > 0xffff then t.close
  else
    match s.cares.decodePacket payload none with
    | .error _ => t.close
    | .ok query =>
      match s.resolve query outcome with
      | .error _ => t.close
      | .ok response => if response.length > 0xffff then t.close else
        { t with written := t.written ++ frame response }

end ClashNative.Dns.Server
