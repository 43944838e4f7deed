import ClashNative.ObfsReads
import ClashNative.Runs
import Mathlib.Data.Vector.Defs
/-!
# ObfsHello — the TLS that simple-obfs pretends

`make_tls_client_hello_impl` of `simple_obfs.cpp`, whose lengths are sums of constants and sizes, against
a reader of TLS that takes a message only where every length in it covers exactly what is there.
-/
namespace ClashNative.SimpleObfs

open List hiding Vector

open Wire (putU16 getU16)

/-! ### The encoder -/

def putU32 (n : UInt32) : Bytes := [24, 16, 8, 0].map fun shift => UInt8.ofNat (n.toNat / 2 ^ shift)

def helloSuites : Bytes := [
  0xc0, 0x2c, 0xc0, 0x30, 0x00, 0x9f, 0xcc, 0xa9, 0xcc, 0xa8, 0xcc, 0xaa,
  0xc0, 0x2b, 0xc0, 0x2f, 0x00, 0x9e, 0xc0, 0x24, 0xc0, 0x28, 0x00, 0x6b,
  0xc0, 0x23, 0xc0, 0x27, 0x00, 0x67, 0xc0, 0x0a, 0xc0, 0x14, 0x00, 0x39,
  0xc0, 0x09, 0xc0, 0x13, 0x00, 0x33, 0x00, 0x9d, 0x00, 0x9c, 0x00, 0x3d,
  0x00, 0x3c, 0x00, 0x35, 0x00, 0x2f, 0x00, 0xff]

def ecPointFormats : Bytes := [0x00, 0x0b, 0x00, 0x04, 0x03, 0x01, 0x00, 0x02]

def ellipticCurves : Bytes := [0x00, 0x0a, 0x00, 0x0a, 0x00, 0x08, 0x00, 0x1d, 0x00, 0x17, 0x00, 0x19,
    0x00, 0x18]

def signatureAlgorithms : Bytes := [
  0x00, 0x0d, 0x00, 0x20, 0x00, 0x1e, 0x06, 0x01, 0x06, 0x02, 0x06, 0x03,
  0x05, 0x01, 0x05, 0x02, 0x05, 0x03, 0x04, 0x01, 0x04, 0x02, 0x04, 0x03,
  0x03, 0x01, 0x03, 0x02, 0x03, 0x03, 0x02, 0x01, 0x02, 0x02, 0x02, 0x03]

/-- `make_tls_client_hello_impl`, at the second `time`; `none` where it gives nothing.  The two calls of
`random_bytes` may fail. -/
def makeTlsClientHello (randomBuffer : Option (Vector UInt8 28)) (randomId : Option (Vector UInt8 32))
    (time : UInt32)
    (payload serverName requestedSessionId : Bytes) : Option Bytes :=
  if serverName = [] ∨ 0xff < serverName.length ∨ 65535 < payload.length ∨
    0xff00 < serverName.length + payload.length then none
  else
    let sessionId :=
      if requestedSessionId = [] then randomId.map Vector.toList
      else if requestedSessionId.length = 32 then some requestedSessionId
      else none
    match randomBuffer, sessionId with
    | some random, some sessionId =>
      let bodyLength := 212 + payload.length + serverName.length
      let handshakeLength := 208 + payload.length + serverName.length
      if 65535 < bodyLength ∨ 65535 < handshakeLength then none
      else some ([0x16, 0x03, 0x01] ++ putU16 bodyLength ++ [0x01, 0x00] ++ putU16 handshakeLength ++
        [0x03, 0x03] ++ putU32 time ++
        random.toList ++ [32] ++ sessionId ++ putU16 0x0038 ++ helloSuites ++ [0x01, 0x00] ++ putU16
        (79 + payload.length + serverName.length) ++
        [0x00, 0x23] ++ putU16 payload.length ++ payload ++
        [0x00, 0x00] ++ putU16 (serverName.length + 5) ++ putU16 (serverName.length + 3) ++ [0] ++
        putU16 serverName.length ++ serverName ++
        ecPointFormats ++ ellipticCurves ++ signatureAlgorithms ++ [0x00, 0x16, 0x00, 0x00] ++ [0x00,
          0x17, 0x00, 0x00])
    | _, _ => none

/-! ### The reader of TLS -/

/-- A length of two bytes and as many bytes as it tells, with what is behind them. -/
def readVector (bytes : Bytes) : Option (Bytes × Bytes) :=
  if bytes.length < 2 + getU16 bytes then none else some ((bytes.drop 2).take (getU16 bytes),
    bytes.drop (2 + getU16 bytes))

def readShortVector (bytes : Bytes) : Option (Bytes × Bytes) :=
  match bytes with
  | [] => none
  | size :: bytes => if bytes.length < size.toNat then none else
    some (bytes.take size.toNat, bytes.drop size.toNat)

def readWhole (bytes : Bytes) : Option Bytes :=
  match readVector bytes with
  | some (whole, []) => some whole
  | _ => none

structure Extension where
  type : Bytes
  data : Bytes
  deriving DecidableEq

/-- At most `n` extensions, which are all that there is. -/
def readExtensions : Nat → Bytes → Option (List Extension)
  | _, [] => some []
  | 0, _ => none
  | n + 1, bytes =>
    match readVector (bytes.drop 2) with
    | none => none
    | some (data, rest) => (readExtensions n rest).map fun extensions => ⟨bytes.take 2, data⟩ :: extensions

structure ClientHello where
  sessionId : Bytes
  cipherSuites : Bytes
  compressionMethods : Bytes
  extensions : List Extension
  deriving DecidableEq

/-- **The message in a record**: the record, the handshake message and its extensions end where their
lengths say, all at the same place. -/
def readClientHello (wire : Bytes) : Option ClientHello := do
  guard (wire.take 3 = [0x16, 0x03, 0x01])
  let body ← readWhole (wire.drop 3)
  -- the length of the message has three bytes
  guard (body.take 2 = [0x01, 0x00])
  let message ← readWhole (body.drop 2)
  guard (message.take 2 = [0x03, 0x03])
  let (sessionId, rest) ← readShortVector (message.drop 34)
  let (cipherSuites, rest) ← readVector rest
  let (compressionMethods, rest) ← readShortVector rest
  let extensions ← readWhole rest
  some ⟨sessionId, cipherSuites, compressionMethods, ← readExtensions extensions.length extensions⟩

def sessionTicketType : Bytes := [0x00, 0x23]

def serverNameType : Bytes := [0x00, 0x00]

def ClientHello.sessionTickets (hello : ClientHello) : List Bytes :=
  (hello.extensions.filter fun e => decide (e.type = sessionTicketType)).map Extension.data

/-- The list of one host name, in an extension of its type. -/
def readServerName (data : Bytes) : Option Bytes :=
  match readWhole data with
  | some (0 :: name) => readWhole name
  | _ => none

def ClientHello.serverNames (hello : ClientHello) : List (Option Bytes) :=
  (hello.extensions.filter fun e => decide (e.type = serverNameType)).map fun e => readServerName e.data

/-! ### The lengths -/

theorem readVector_putU16 {bytes : Bytes} (h : bytes.length < 65536) (rest : Bytes) :
    readVector (putU16 bytes.length ++ (bytes ++ rest)) = some (bytes, rest) := by
  have hlength : (putU16 bytes.length ++ (bytes ++ rest)).length = 2 + (bytes.length + rest.length) := by
    rw [length_append, length_append, Wire.length_putU16]
  have hget := Wire.getU16_putU16_append h (bytes ++ rest)
  rw [readVector, hget, if_neg (by omega)]
  have hdrop : (putU16 bytes.length ++ (bytes ++ rest)).drop 2 = bytes ++ rest := drop_left' rfl
  rw [← drop_drop, hdrop, take_left, drop_left]

theorem readWhole_putU16 {bytes : Bytes} (h : bytes.length < 65536) :
    readWhole (putU16 bytes.length ++ bytes) = some bytes := by
  have hread := readVector_putU16 h []
  rw [append_nil] at hread
  rw [readWhole, hread]

theorem readShortVector_cons {bytes : Bytes} {size : UInt8} (h : size.toNat = bytes.length) (rest : Bytes) :
    readShortVector (size :: (bytes ++ rest)) = some (bytes, rest) := by
  rw [readShortVector, h, length_append, if_neg (by omega), take_left, drop_left]

def Extension.bytes (e : Extension) : Bytes := e.type ++ (putU16 e.data.length ++ e.data)

theorem Extension.length_bytes (e : Extension) : e.bytes.length = e.type.length + (2 + e.data.length) := by
  rw [Extension.bytes, length_append, length_append, Wire.length_putU16]

theorem readExtensions_bytes : ∀ (extensions : List Extension) (n : Nat),
    (∀ e ∈ extensions, e.type.length = 2 ∧ e.data.length < 65536) →
    (extensions.flatMap Extension.bytes).length ≤ n →
    readExtensions n (extensions.flatMap Extension.bytes) = some extensions
  | [], n, _, _ => by cases n <;> rfl
  | e :: extensions, n, h, hn => by
    obtain ⟨htype, hdata⟩ := h e mem_cons_self
    rw [flatMap_cons] at hn ⊢
    rw [length_append, e.length_bytes] at hn
    obtain ⟨n, rfl⟩ : ∃ k, n = k + 1 := ⟨n - 1, by omega⟩
    have hrest := readExtensions_bytes extensions n
      (fun other hother => h other (mem_cons_of_mem _ hother)) (by omega)
    rw [Extension.bytes, append_assoc, append_assoc]
    obtain ⟨a, b, hab⟩ := length_eq_two.1 htype
    rw [hab]
    have hread := readVector_putU16 hdata (extensions.flatMap Extension.bytes)
    change (match readVector (putU16 e.data.length ++ (e.data ++ extensions.flatMap Extension.bytes)) with
      | none => none
      | some (data, rest) => (readExtensions n rest).map fun extensions =>
        (⟨[a, b], data⟩ : Extension) :: extensions) = _
    rw [hread]
    dsimp only
    rw [hrest, Option.map_some, ← hab]

def helloExtensions (payload serverName : Bytes) : List Extension := [
  ⟨sessionTicketType, payload⟩,
  ⟨serverNameType, putU16 (serverName.length + 3) ++ (0 :: (putU16 serverName.length ++ serverName))⟩,
  ⟨[0x00, 0x0b], ecPointFormats.drop 4⟩,
  ⟨[0x00, 0x0a], ellipticCurves.drop 4⟩,
  ⟨[0x00, 0x0d], signatureAlgorithms.drop 4⟩,
  ⟨[0x00, 0x16], []⟩,
  ⟨[0x00, 0x17], []⟩]

def helloMessage (time : UInt32) (random : Vector UInt8 28) (sessionId payload serverName : Bytes) : Bytes :=
  let extensions := (helloExtensions payload serverName).flatMap Extension.bytes
  ([0x03, 0x03] ++ (putU32 time ++ random.toList)) ++
  (32 :: (sessionId ++ (putU16 helloSuites.length ++ (helloSuites ++
    (1 :: ([0x00] ++ (putU16 extensions.length ++ extensions)))))))

theorem helloExtensions_bytes (payload serverName : Bytes) :
    (helloExtensions payload serverName).flatMap Extension.bytes =
    [0x00, 0x23] ++ putU16 payload.length ++ payload ++
      [0x00, 0x00] ++ putU16 (serverName.length + 5) ++ putU16 (serverName.length + 3) ++ [0] ++
      putU16 serverName.length ++ serverName ++
      ecPointFormats ++ ellipticCurves ++ signatureAlgorithms ++ [0x00, 0x16, 0x00, 0x00] ++ [0x00, 0x17,
        0x00, 0x00] := by
  have hname : (putU16 (serverName.length + 3) ++ (0 :: (putU16 serverName.length ++ serverName))).length =
    serverName.length + 5 := by
    rw [length_append, length_cons, length_append, Wire.length_putU16, Wire.length_putU16]
    omega
  have hpoints : Extension.bytes ⟨[0x00, 0x0b], ecPointFormats.drop 4⟩ = ecPointFormats := by decide
  have hcurves : Extension.bytes ⟨[0x00, 0x0a], ellipticCurves.drop 4⟩ = ellipticCurves := by decide
  have hsignatures : Extension.bytes ⟨[0x00, 0x0d], signatureAlgorithms.drop 4⟩ = signatureAlgorithms :=
    by decide
  have hmac : Extension.bytes ⟨[0x00, 0x16], []⟩ = [0x00, 0x16, 0x00, 0x00] := by decide
  have hsecret : Extension.bytes ⟨[0x00, 0x17], []⟩ = [0x00, 0x17, 0x00, 0x00] := by decide
  simp only [helloExtensions, flatMap_cons, flatMap_nil, hpoints, hcurves, hsignatures, hmac, hsecret]
  simp only [Extension.bytes, hname, sessionTicketType, serverNameType, append_assoc, cons_append, nil_append]

theorem length_helloExtensions (payload serverName : Bytes) :
    ((helloExtensions payload serverName).flatMap Extension.bytes).length =
    79 + payload.length + serverName.length := by
  have hpoints : ecPointFormats.length = 8 := rfl
  have hcurves : ellipticCurves.length = 14 := rfl
  have hsignatures : signatureAlgorithms.length = 36 := rfl
  rw [helloExtensions_bytes]
  simp only [length_append, length_cons, length_nil, Wire.length_putU16]
  omega

variable {sessionId : Bytes}

theorem length_helloMessage (time : UInt32) (random : Vector UInt8 28) (hsession : sessionId.length = 32)
    (payload serverName : Bytes) : (helloMessage time random sessionId payload serverName).length =
    208 + payload.length + serverName.length := by
  have htime : (putU32 time).length = 4 := rfl
  have hrandom : random.toList.length = 28 := random.size_toArray
  have hsuites : helloSuites.length = 56 := rfl
  simp only [helloMessage, length_append, length_cons, length_nil, Wire.length_putU16, length_helloExtensions]
  omega

variable {payload : Bytes} {serverName : Bytes}

theorem makeTlsClientHello_shape {randomBuffer : Option (Vector UInt8 28)}
    {randomId : Option (Vector UInt8 32)} {time : UInt32}
    {requestedSessionId wire : Bytes}
    (h : makeTlsClientHello randomBuffer randomId time payload serverName requestedSessionId = some wire) :
    ∃ random sessionId, sessionId.length = 32 ∧ (requestedSessionId ≠ [] → sessionId = requestedSessionId) ∧
      serverName ≠ [] ∧ serverName.length ≤ 255 ∧ serverName.length + payload.length ≤ 0xff00 ∧
      let message := helloMessage time random sessionId payload serverName
      let body := [0x01, 0x00] ++ (putU16 message.length ++ message)
      wire = [0x16, 0x03, 0x01] ++ (putU16 body.length ++ body) := by
  rw [makeTlsClientHello] at h
  split at h
  · cases h
  rename_i hsizes
  generalize hsession : (if requestedSessionId = [] then randomId.map Vector.toList
      else if requestedSessionId.length = 32 then some requestedSessionId else none) = found at h
  cases randomBuffer with
  | none => cases h
  | some random =>
    cases found with
    | none => cases h
    | some sessionId =>
      have hid : sessionId.length = 32 ∧ (requestedSessionId ≠ [] → sessionId = requestedSessionId) := by
        split at hsession
        · rename_i hnone
          obtain ⟨id, -, rfl⟩ := Option.map_eq_some_iff.1 hsession
          exact ⟨id.size_toArray, fun hsome => absurd hnone hsome⟩
        · split at hsession
          · rename_i hlength
            cases hsession
            exact ⟨hlength, fun _ => rfl⟩
          · cases hsession
      dsimp only at h
      rw [if_neg (by omega)] at h
      refine ⟨random, sessionId, hid.1, hid.2, fun hnil => hsizes (.inl hnil), by omega, by omega, ?_⟩
      have hmessage := length_helloMessage time random hid.1 payload serverName
      have hbody : ([0x01, 0x00] ++ (putU16 (208 + payload.length + serverName.length) ++
          helloMessage time random sessionId payload serverName)).length =
          212 + payload.length + serverName.length := by
        simp only [length_append, hmessage, Wire.length_putU16, length_cons, length_nil]
        omega
      have hsuites : helloSuites.length = 0x0038 := rfl
      dsimp only
      rw [hmessage, hbody, ← Option.some.inj h, helloMessage]
      rw [length_helloExtensions, helloExtensions_bytes, hsuites]
      simp only [append_assoc, cons_append, nil_append]

theorem readClientHello_shape (time : UInt32) (random : Vector UInt8 28) (hsession : sessionId.length = 32)
    (hname : serverName.length ≤ 255) (hfits : serverName.length + payload.length ≤ 0xff00) :
    let message := helloMessage time random sessionId payload serverName
    let body := [0x01, 0x00] ++ (putU16 message.length ++ message)
    readClientHello ([0x16, 0x03, 0x01] ++ (putU16 body.length ++ body)) =
      some ⟨sessionId, helloSuites, [0x00], helloExtensions payload serverName⟩ := by
  have hmessage := length_helloMessage time random hsession payload serverName
  have hextensions := length_helloExtensions payload serverName
  have hall : ∀ e ∈ helloExtensions payload serverName, e.type.length = 2 ∧ e.data.length < 65536 := by
    intro e he
    simp only [helloExtensions, mem_cons, not_mem_nil, or_false] at he
    rcases he with rfl | rfl | rfl | rfl | rfl | rfl | rfl
    · exact ⟨rfl, by dsimp only; omega⟩
    · refine ⟨rfl, ?_⟩
      simp only [length_append, length_cons, Wire.length_putU16]
      omega
    all_goals exact ⟨rfl, by decide⟩
  have hread := readExtensions_bytes (helloExtensions payload serverName) _ hall (Nat.le_refl _)
  intro message body
  have hbody : body.length = 212 + payload.length + serverName.length := by
    show (0x01 :: 0x00 :: (putU16 message.length ++ message)).length = _
    rw [length_cons, length_cons, length_append, hmessage, Wire.length_putU16]
    omega
  have hwhole : readWhole (putU16 body.length ++ body) = some body := readWhole_putU16 (by omega)
  have hinner : readWhole (putU16 message.length ++ message) = some message :=
    readWhole_putU16 (hmessage ▸ by omega)
  have hid (rest : Bytes) : readShortVector (32 :: (sessionId ++ rest)) = some (sessionId, rest) :=
    readShortVector_cons (show (32 : UInt8).toNat = _ from hsession.symm) rest
  have hsuites (rest : Bytes) : readVector (putU16 helloSuites.length ++ (helloSuites ++ rest)) =
    some (helloSuites, rest) :=
    readVector_putU16 (by decide) rest
  have hmethods (rest : Bytes) : readShortVector (1 :: ([0x00] ++ rest)) = some ([0x00], rest) :=
    readShortVector_cons rfl rest
  have hlast : readWhole (putU16 ((helloExtensions payload serverName).flatMap Extension.bytes).length ++
      (helloExtensions payload serverName).flatMap Extension.bytes) =
      some ((helloExtensions payload serverName).flatMap Extension.bytes) :=
    readWhole_putU16 (by omega)
  have hdrop : message.drop 34 = 32 :: (sessionId ++
    (putU16 helloSuites.length ++ (helloSuites ++ (1 :: ([0x00] ++
      (putU16 ((helloExtensions payload serverName).flatMap Extension.bytes).length ++
        (helloExtensions payload serverName).flatMap Extension.bytes)))))) := drop_left' (by
      have htime : (putU32 time).length = 4 := rfl
      have hrandom : random.toList.length = 28 := random.size_toArray
      rw [length_append, length_append, htime, hrandom]
      rfl)
  have hthree : ([0x16, 0x03, 0x01] ++ (putU16 body.length ++ body)).drop 3 = putU16 body.length ++ body := rfl
  have htwo : body.drop 2 = putU16 message.length ++ message := rfl
  have hrecord : ([0x16, 0x03, 0x01] ++ (putU16 body.length ++ body)).take 3 = [0x16, 0x03, 0x01] := rfl
  have hclient : body.take 2 = [0x01, 0x00] := rfl
  have hversion : message.take 2 = [0x03, 0x03] := rfl
  simp only [readClientHello, hthree, hwhole, htwo, hinner, hdrop, hid, hsuites, hmethods, hlast, hread,
    hrecord, hclient, hversion, guard, if_true,
    Option.bind_eq_bind, Option.bind_some, Option.pure_def]

/-! ### Records in pieces -/

/-- One `TlsObfsRead` after the other on a connection that brings `socket`. -/
structure RecordReads where
  socket : Bytes
  taken : Bytes := []
  output : Bytes := []
  failed : Bool := false

/-- The connection brings at most `n` bytes of what the read at hand waits for. -/
def RecordReads.piece (s : RecordReads) (n : Nat) : RecordReads :=
  if s.failed then s
  else
    let got := s.socket.take (min n (tlsWant false s.taken - s.taken.length))
    let s := { s with socket := s.socket.drop got.length, taken := s.taken ++ got }
    match tlsTurn false s.taken with
    | .more => s
    | .failed => { s with failed := true }
    | .done payload => { s with taken := [], output := s.output ++ payload }

/-- What is left of the records, from the front of the one at hand. -/
structure Reading (payload : Bytes) (s : RecordReads) (payloads : List Bytes) : Prop where
  framable : ∀ p ∈ payloads, Framable p
  wire : s.taken ++ s.socket = payloads.flatMap tlsRecord
  inside : ∀ p ∈ payloads.head?, s.taken.length < (tlsRecord p).length
  output : s.output ++ payloads.flatten = payload
  sound : s.failed = false

theorem piece_reading {s : RecordReads} {payloads : List Bytes} (h : Reading payload s payloads) (n : Nat) :
    (∃ payloads', Reading payload (s.piece n) payloads') ∧
    (0 < n → (s.piece n).socket.length ≤ s.socket.length - 1) := by
  rw [RecordReads.piece, if_neg (by rw [h.sound]; decide)]
  dsimp only
  generalize hgot : s.socket.take (min n (tlsWant false s.taken - s.taken.length)) = got
  cases payloads with
  | nil =>
    obtain ⟨htaken, hsocket⟩ := append_eq_nil_iff.1 h.wire
    have hnone : got = [] := by
      rw [← hgot, hsocket, take_nil]
    rw [hnone, htaken, hsocket]
    exact ⟨⟨[], h.framable, rfl, (nofun), h.output, h.sound⟩, fun _ => Nat.le_refl 0⟩
  | cons p payloads =>
    have hp := h.framable p mem_cons_self
    have hlt : s.taken.length < (recordHead.frame p).length := h.inside p rfl
    have hwire : s.taken ++ s.socket = recordHead.frame p ++ payloads.flatMap tlsRecord := h.wire
    obtain ⟨hmore, hwant⟩ := tlsWant_of_append hp hwire hlt
    have hlength : got.length = min (min n (tlsWant false s.taken - s.taken.length)) s.socket.length := by
      rw [← hgot, length_take]
    have hsplit : got ++ s.socket.drop got.length = s.socket := prefix_iff_eq_append.1 (hgot ▸ take_prefix _ _)
    have hless (hn : 0 < n) : (s.socket.drop got.length).length ≤ s.socket.length - 1 := by
      rw [length_drop]
      omega
    have hbehind : s.taken ++ got ++ s.socket.drop got.length =
      recordHead.frame p ++ payloads.flatMap tlsRecord := by
      rw [append_assoc, hsplit, hwire]
    rw [tlsTurn_of_append hp hbehind (by rw [length_append]; omega)]
    by_cases hinside : (s.taken ++ got).length < (recordHead.frame p).length
    · rw [if_pos hinside]
      refine ⟨⟨p :: payloads, h.framable, hbehind, fun q hq => ?_, h.output, h.sound⟩, hless⟩
      obtain rfl := Option.some.inj hq
      exact hinside
    · rw [if_neg hinside]
      have hwhole := append_inj_left hbehind (by rw [length_append] at hinside ⊢; omega)
      rw [hwhole] at hbehind
      refine ⟨⟨payloads, fun q hq => h.framable q (mem_cons_of_mem _ hq), append_cancel_left hbehind,
        fun q _ => ?_, ?_, h.sound⟩, hless⟩
      · rw [length_tlsRecord]
        exact Nat.lt_of_lt_of_le (Nat.zero_lt_succ 4) (Nat.le_add_right 5 _)
      · rw [← h.output, flatten_cons, append_assoc]

theorem pieces_reading : ∀ (pieces : List Nat) {s : RecordReads} {payloads : List Bytes},
    Reading payload s payloads →
    (∃ payloads', Reading payload (Runs.run RecordReads.piece s pieces) payloads') ∧
      ((∀ n ∈ pieces, 0 < n) → s.socket.length ≤ pieces.length →
        (Runs.run RecordReads.piece s pieces).socket = [])
  | [], s, payloads, h => ⟨⟨payloads, h⟩, fun _ hle => length_eq_zero_iff.1 (Nat.le_zero.1 hle)⟩
  | n :: pieces, s, payloads, h => by
    obtain ⟨⟨payloads', hnext⟩, hless⟩ := piece_reading h n
    obtain ⟨hrest, hdone⟩ := pieces_reading pieces hnext
    rw [Runs.run_cons]
    refine ⟨hrest, fun hpositive hle => hdone (fun k hk => hpositive k (mem_cons_of_mem _ hk)) ?_⟩
    rw [length_cons] at hle
    have hstep := hless (hpositive n mem_cons_self)
    omega

/-- **The pretended TLS.**  Whatever the encoder accepts, a reader that goes by the lengths finds one
session ticket, which is the payload, and the name; and records read back, in whatever pieces, are the
payload that was split into them. -/
theorem hello_and_records {randomBuffer : Option (Vector UInt8 28)} {randomId : Option (Vector UInt8 32)}
    {time : UInt32}
    {payload serverName requestedSessionId wire : Bytes}
    (h : makeTlsClientHello randomBuffer randomId time payload serverName requestedSessionId = some wire) :
    (∃ hello, readClientHello wire = some hello ∧ hello.sessionTickets = [payload] ∧
      hello.serverNames = [some serverName] ∧
      hello.sessionId.length = 32 ∧ (requestedSessionId ≠ [] → hello.sessionId = requestedSessionId)) ∧
    ∀ (later : Bytes) (pieces : List Nat),
      let s := Runs.run RecordReads.piece { socket := makeTlsRecords later } pieces
      s.failed = false ∧ s.output <+: later ∧ (s.socket = [] → s.output = later) ∧
        ((∀ n ∈ pieces, 0 < n) → (makeTlsRecords later).length ≤ pieces.length → s.socket = []) := by
  constructor
  · obtain ⟨random, sessionId, hsession, hrequested, -, hname, hfits, hwire⟩ := makeTlsClientHello_shape h
    have hread := readClientHello_shape time random hsession hname hfits
    dsimp only at hwire hread
    rw [← hwire] at hread
    refine ⟨_, hread, rfl, ?_, hsession, hrequested⟩
    have hinner : readWhole (putU16 serverName.length ++ serverName) = some serverName :=
      readWhole_putU16 (by omega)
    have hlength : (0 :: (putU16 serverName.length ++ serverName)).length = serverName.length + 3 := by
      rw [length_cons, length_append, Wire.length_putU16]
      omega
    have houter : readWhole (putU16 (serverName.length + 3) ++ (0 :: (putU16 serverName.length ++ serverName))) =
        some (0 :: (putU16 serverName.length ++ serverName)) := by
      rw [← hlength]
      exact readWhole_putU16 (by omega)
    show [readServerName (putU16 (serverName.length + 3) ++ (0 :: (putU16 serverName.length ++ serverName)))] = _
    rw [readServerName, houter]
    exact congrArg (fun name => [name]) hinner
  · intro later pieces s
    obtain ⟨payloads, hsizes, hsocket, hstream⟩ := makeTlsRecords_framed later
    have hstart : Reading later { socket := makeTlsRecords later } payloads := by
      refine ⟨fun p hp => ⟨(hsizes p hp).1, Nat.lt_of_le_of_lt (hsizes p hp).2 (by decide)⟩, hsocket,
        fun p _ => ?_, hstream.symm, rfl⟩
      rw [length_tlsRecord]
      exact Nat.lt_of_lt_of_le (Nat.zero_lt_succ 4) (Nat.le_add_right 5 _)
    obtain ⟨⟨rest, hrest⟩, hdone⟩ := pieces_reading pieces hstart
    refine ⟨hrest.sound, ⟨rest.flatten, hrest.output⟩, fun hempty => ?_, hdone⟩
    have hwire := hrest.wire
    have houtput := hrest.output
    cases rest with
    | nil => rwa [flatten_nil, append_nil] at houtput
    | cons p rest =>
      -- a record is not whole in what is taken of it
      have hinside := hrest.inside p rfl
      have hlength := congrArg List.length hwire
      rw [hempty, append_nil, flatMap_cons, length_append] at hlength
      omega

theorem hello_and_records_two_bytes :
    let wire := (makeTlsClientHello (some (Vector.replicate 28 7)) (some (Vector.replicate 32 8)) 5 [1, 2]
      [97, 98] []).getD []
    (∃ hello, readClientHello wire = some hello ∧ hello.sessionTickets = [[1, 2]] ∧
      hello.serverNames = [some [97, 98]] ∧
      hello.sessionId.length = 32 ∧ (([] : Bytes) ≠ [] → hello.sessionId = [])) ∧
    ∀ (later : Bytes) (pieces : List Nat),
      let s := Runs.run RecordReads.piece { socket := makeTlsRecords later } pieces
      s.failed = false ∧ s.output <+: later ∧ (s.socket = [] → s.output = later) ∧
        ((∀ n ∈ pieces, 0 < n) → (makeTlsRecords later).length ≤ pieces.length → s.socket = []) :=
  have haccepted : makeTlsClientHello (some (Vector.replicate 28 7)) (some (Vector.replicate 32 8)) 5 [1, 2]
    [97, 98] [] =
    some ((makeTlsClientHello (some (Vector.replicate 28 7)) (some (Vector.replicate 32 8)) 5 [1, 2]
      [97, 98] []).getD []) := rfl
  hello_and_records haccepted

end ClashNative.SimpleObfs
