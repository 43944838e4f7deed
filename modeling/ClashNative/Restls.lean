import ClashNative.AeadRecords
import ClashNative.Runs
/-!
# Restls — application records of ResTLS

`RestlsApplicationCodec` of `restls.cpp`: a record carries its data behind a MAC and a masked header, both
of them keyed by the counter of its direction.  A link is two codecs with the records between them, and
others' records that reach the receiver.
-/
namespace ClashNative.Restls

open List

open Wire (putU16 getU16 putU64 getU64 length_putU64 getU64_putU64)

abbrev Bytes := List UInt8

/-- `blake3_keyed`: a function of the key and of the parts one after the other. -/
structure KeyedHash where
  keyed : Bytes → Bytes → Bytes
  length_keyed : ∀ secret parts, (keyed secret parts).length = 32

def kRestlsApplicationMacLength : Nat := 8
def kRestlsMaskLength : Nat := 4
def kRestlsAuthHeaderLength : Nat := kRestlsApplicationMacLength + kRestlsMaskLength
def kTlsRecordHeaderLength : Nat := 5

inductive RestlsError
  | payloadTooLarge | recordTooLarge | invalidRecord | gcmCounter | authentication | dataLength | command
  deriving DecidableEq, Repr

inductive RestlsCommandKind
  | noop | response
  deriving DecidableEq, Repr

structure RestlsCommand where
  kind : RestlsCommandKind := .noop
  response : UInt8 := 0
  deriving DecidableEq, Repr

def RestlsCommand.wire (command : RestlsCommand) : Bytes :=
  match command.kind with
  | .response => [0x01, command.response]
  | .noop => [0x00, 0x00]

def RestlsCommand.carried (command : RestlsCommand) : RestlsCommand :=
  match command.kind with
  | .response => command
  | .noop => {}

structure RestlsDecodedRecord where
  data : Bytes
  command : RestlsCommand
  deriving DecidableEq, Repr

/-! ### The codec -/

structure RestlsApplicationCodec where
  secret : Bytes
  serverRandom : Bytes
  toClient : Bool
  tls12Gcm : Bool
  initialAuthExtra : Bytes := []
  counter : UInt64 := 0
  deriving DecidableEq, Repr

def toClientLabel : Bytes := "server-to-client".toUTF8.toList
def toServerLabel : Bytes := "client-to-server".toUTF8.toList

namespace RestlsApplicationCodec

variable (hash : KeyedHash) (c : RestlsApplicationCodec)

def gcmLength : Nat := if c.tls12Gcm then 8 else 0

def payloadOffset : Nat := kTlsRecordHeaderLength + c.gcmLength

def authHash (extra : Bytes) : Bytes :=
  hash.keyed c.secret (c.serverRandom ++
    ((if c.toClient then toClientLabel else toServerLabel) ++ (putU64 c.counter ++ extra)))

/-- The TLS header of a record, and its number where the cipher suite has one. -/
def header (payloadLength : Nat) : Bytes :=
  [23, 3, 3] ++ (putU16 payloadLength ++ if c.tls12Gcm then putU64 (c.counter + 1) else [])

/-- The length and the command under the mask that the first bytes behind them give. -/
def masked (body plain : Bytes) : Bytes :=
  List.zipWith (· ^^^ ·) plain ((c.authHash hash (body.take 32)).take kRestlsMaskLength)

def encode (data : Bytes) (dataLength paddingLength : Nat) (command : RestlsCommand) :
    Except RestlsError Bytes × RestlsApplicationCodec :=
  if data.length < dataLength ∨ 65535 < dataLength ∨ 65535 < paddingLength then (.error .payloadTooLarge, c)
  else if 65535 < c.gcmLength + kRestlsAuthHeaderLength + dataLength + paddingLength then
    (.error .recordTooLarge, c)
  else
    let head := c.header (c.gcmLength + kRestlsAuthHeaderLength + dataLength + paddingLength)
    let body := data.take dataLength ++ List.replicate paddingLength 0
    let maskedHeader := c.masked hash body (putU16 dataLength ++ command.wire)
    let extra := if c.initialAuthExtra ≠ [] ∧ c.counter = 0 then c.initialAuthExtra else []
    let auth := c.authHash hash (extra ++ (head ++ (maskedHeader ++ body)))
    (.ok (head ++ (auth.take kRestlsApplicationMacLength ++ (maskedHeader ++ body))),
      { c with counter := c.counter + 1, initialAuthExtra := [] })

def commandOf (bytes : Bytes) : Option RestlsCommand :=
  if bytes.getD 0 0 = 0 ∧ bytes.getD 1 0 = 0 then some {}
  else if bytes.getD 0 0 = 1 then some ⟨.response, bytes.getD 1 0⟩
  else none

def Framed (record : Bytes) : Prop :=
  c.payloadOffset + kRestlsAuthHeaderLength ≤ record.length ∧ record.take 3 = [23, 3, 3] ∧
    getU16 (record.drop 3) = record.length - kTlsRecordHeaderLength

instance (record : Bytes) : Decidable (c.Framed record) := inferInstanceAs (Decidable (_ ∧ _ ∧ _))

/-- The counter moves on with the record that is given out, and with no other. -/
def decode (record : Bytes) : Except RestlsError RestlsDecodedRecord × RestlsApplicationCodec :=
  if ¬ c.Framed record then (.error .invalidRecord, c)
  else if c.tls12Gcm = true ∧ getU64 ((record.drop kTlsRecordHeaderLength).take 8) ≠
    (c.counter + 1).toNat then (.error .gcmCounter, c)
  else
    let payload := record.drop c.payloadOffset
    let auth := c.authHash hash (record.take c.payloadOffset ++ payload.drop kRestlsApplicationMacLength)
    if auth.take kRestlsApplicationMacLength ≠ payload.take kRestlsApplicationMacLength then
      (.error .authentication, c)
    else
      let body := payload.drop kRestlsAuthHeaderLength
      let plain := c.masked hash body ((payload.drop kRestlsApplicationMacLength).take kRestlsMaskLength)
      if body.length < getU16 plain then (.error .dataLength, c)
      else
        match commandOf (plain.drop 2) with
        | none => (.error .command, c)
        | some command => (.ok ⟨body.take (getU16 plain), command⟩, { c with counter := c.counter + 1 })

end RestlsApplicationCodec

/-! ### One record -/

section Record

variable {hash : KeyedHash} {c d : RestlsApplicationCodec}

open RestlsApplicationCodec

/-- Two codecs of one direction: what the record of a counter is made of is the same for both. -/
structure Agree (c d : RestlsApplicationCodec) : Prop where
  secret : d.secret = c.secret
  serverRandom : d.serverRandom = c.serverRandom
  toClient : d.toClient = c.toClient
  tls12Gcm : d.tls12Gcm = c.tls12Gcm
  counter : d.counter = c.counter

theorem Agree.authHash (h : Agree c d) (extra : Bytes) : d.authHash hash extra = c.authHash hash extra := by
  unfold RestlsApplicationCodec.authHash
  rw [h.secret, h.serverRandom, h.toClient, h.counter]

theorem Agree.masked (h : Agree c d) (body plain : Bytes) :
    d.masked hash body plain = c.masked hash body plain := by
  unfold RestlsApplicationCodec.masked
  rw [h.authHash]

theorem Agree.payloadOffset (h : Agree c d) : d.payloadOffset = c.payloadOffset := by
  unfold RestlsApplicationCodec.payloadOffset gcmLength
  rw [h.tls12Gcm]

theorem length_take_authHash (hash : KeyedHash) (c : RestlsApplicationCodec) {n : Nat} (hn : n ≤ 32)
    (extra : Bytes) :
    ((c.authHash hash extra).take n).length = n := by
  rw [length_take, RestlsApplicationCodec.authHash, hash.length_keyed]
  omega

variable {plain : Bytes}

theorem length_masked (body : Bytes) (h : plain.length = 4) : (c.masked hash body plain).length = 4 := by
  have hmask := length_take_authHash hash c (n := kRestlsMaskLength) (by decide) (body.take 32)
  rw [RestlsApplicationCodec.masked, length_zipWith, hmask, h]
  rfl

theorem zipWith_xor_cancel : ∀ {plain mask : Bytes}, plain.length = mask.length →
    List.zipWith (· ^^^ ·) (List.zipWith (· ^^^ ·) plain mask) mask = plain
  | [], [], _ => rfl
  | p :: plain, m :: mask, h => by
    have hrest := zipWith_xor_cancel (Nat.succ.inj h)
    have hbyte : p ^^^ m ^^^ m = p := by rw [UInt8.xor_assoc, UInt8.xor_self, UInt8.xor_zero]
    rw [zipWith_cons_cons, zipWith_cons_cons, hbyte, hrest]

theorem masked_masked (body : Bytes) (h : plain.length = 4) :
    c.masked hash body (c.masked hash body plain) = plain := by
  have hmask := length_take_authHash hash c (n := kRestlsMaskLength) (by decide) (body.take 32)
  exact zipWith_xor_cancel (h.trans hmask.symm)

theorem length_wire (command : RestlsCommand) : command.wire.length = 2 := by
  unfold RestlsCommand.wire
  cases command.kind <;> rfl

theorem commandOf_wire (command : RestlsCommand) : commandOf command.wire = some command.carried := by
  obtain ⟨kind, response⟩ := command
  cases kind <;> simp [commandOf, RestlsCommand.wire, RestlsCommand.carried]

theorem length_header (payloadLength : Nat) : (c.header payloadLength).length = c.payloadOffset := by
  unfold RestlsApplicationCodec.header RestlsApplicationCodec.payloadOffset gcmLength
  cases c.tls12Gcm <;> rfl

variable {c' : RestlsApplicationCodec} {command : RestlsCommand} {dataLength paddingLength : Nat}
    {data record : Bytes}

theorem encode_ok
    (hextra : c.initialAuthExtra = []) (h : c.encode hash data dataLength paddingLength command =
      (.ok record, c')) :
    dataLength ≤ data.length ∧ c' = { c with counter := c.counter + 1 } ∧ ∃ payloadLength masked body,
      payloadLength = c.gcmLength + kRestlsAuthHeaderLength + body.length ∧ payloadLength < 65536 ∧
      body = data.take dataLength ++ List.replicate paddingLength 0 ∧ dataLength < 65536 ∧
      masked = c.masked hash body (putU16 dataLength ++ command.wire) ∧
      record = c.header payloadLength ++
        ((c.authHash hash (c.header payloadLength ++ (masked ++ body))).take kRestlsApplicationMacLength ++
          (masked ++ body)) := by
  unfold RestlsApplicationCodec.encode at h
  split at h
  · cases h
  · rename_i hlengths
    split at h
    · cases h
    · rename_i hsize
      cases h
      have hnone : (if c.initialAuthExtra ≠ [] ∧ c.counter = 0 then c.initialAuthExtra else []) = [] := by
        rw [hextra, ite_self]
      refine ⟨by omega, by rw [hextra], c.gcmLength + kRestlsAuthHeaderLength + dataLength + paddingLength,
        _, _, ?_, by omega, rfl,
        by omega, rfl, ?_⟩
      · rw [length_append, length_take, length_replicate]
        omega
      · rw [hnone, nil_append]

variable {e : RestlsError}

theorem encode_error
    (h : c.encode hash data dataLength paddingLength command = (.error e, c')) : c' = c := by
  unfold RestlsApplicationCodec.encode at h
  split at h
  · cases h
    rfl
  · split at h
    · cases h
      rfl
    · cases h

theorem decode_error {d' : RestlsApplicationCodec} (h : d.decode hash record = (.error e, d')) :
    d' = d := by
  unfold RestlsApplicationCodec.decode at h
  split at h
  · cases h
    rfl
  · split at h
    · cases h
      rfl
    · dsimp only at h
      split at h
      · cases h
        rfl
      · split at h
        · cases h
          rfl
        · split at h
          · cases h
            rfl
          · cases h

theorem Agree.framed (h : Agree c d) (record : Bytes) : d.Framed record ↔ c.Framed record := by
  unfold RestlsApplicationCodec.Framed
  rw [h.payloadOffset]

theorem header_framed {payloadLength : Nat} (rest : Bytes) (hlt : payloadLength < 65536)
    (hlength : payloadLength = c.gcmLength + rest.length) (hrest : kRestlsAuthHeaderLength ≤ rest.length) :
    c.Framed (c.header payloadLength ++ rest) ∧
      ¬ (c.tls12Gcm = true ∧
        getU64 (((c.header payloadLength ++ rest).drop kTlsRecordHeaderLength).take 8) ≠
        (c.counter + 1).toNat) := by
  have hhead := length_header (c := c) payloadLength
  have hoffset : c.payloadOffset = 5 + c.gcmLength := rfl
  refine ⟨⟨?_, rfl, ?_⟩, fun ⟨hgcm, hne⟩ => hne ?_⟩
  · rw [length_append, hhead]
    omega
  · have hfield : (c.header payloadLength ++ rest).drop 3 =
        putU16 payloadLength ++ ((if c.tls12Gcm then putU64 (c.counter + 1) else []) ++ rest) := rfl
    rw [hfield, Wire.getU16_putU16_append hlt, length_append, hhead, hoffset]
    show payloadLength = 5 + c.gcmLength + rest.length - 5
    omega
  · have hnumber : (c.header payloadLength ++ rest).drop kTlsRecordHeaderLength =
      putU64 (c.counter + 1) ++ rest := by
      unfold RestlsApplicationCodec.header
      rw [hgcm]
      rfl
    rw [hnumber, ← length_putU64 (c.counter + 1), take_left, getU64_putU64]

theorem payload_parts {mac masked : Bytes} (body : Bytes) (hmac : mac.length = kRestlsApplicationMacLength)
    (hmasked : masked.length = 4) :
    (mac ++ (masked ++ body)).take kRestlsApplicationMacLength = mac ∧
      (mac ++ (masked ++ body)).drop kRestlsApplicationMacLength = masked ++ body ∧
      (masked ++ body).take kRestlsMaskLength = masked ∧
      (mac ++ (masked ++ body)).drop kRestlsAuthHeaderLength = body := by
  have hauth : kRestlsAuthHeaderLength = mac.length + masked.length := by
    rw [hmac, hmasked]
    rfl
  refine ⟨by rw [← hmac, take_left], by rw [← hmac, drop_left], ?_, ?_⟩
  · show (masked ++ body).take 4 = masked
    rw [← hmasked, take_left]
  · rw [hauth, ← drop_drop, drop_left, drop_left]

theorem decode_encode (hagree : Agree c d) (hextra : c.initialAuthExtra = [])
    (h : c.encode hash data dataLength paddingLength command = (.ok record, c')) :
    d.decode hash record = (.ok ⟨data.take dataLength, command.carried⟩,
      { d with counter := d.counter + 1 }) := by
  obtain ⟨hle, -, payloadLength, masked, body, hpayload, hlt, hbody, hdata, hmasked, hrecord⟩ :=
    encode_ok hextra h
  have hplain : (putU16 dataLength ++ command.wire).length =
    4 := by rw [length_append, length_wire, Wire.length_putU16]
  have hfour : masked.length = 4 := by rw [hmasked, length_masked body hplain]
  have hmac := length_take_authHash hash c (n := kRestlsApplicationMacLength) (by decide)
    (c.header payloadLength ++ (masked ++ body))
  obtain ⟨hframed, hnumber⟩ := header_framed (c := c)
    ((c.authHash hash (c.header payloadLength ++ (masked ++ body))).take
    kRestlsApplicationMacLength ++ (masked ++ body)) hlt (by
      rw [length_append, length_append, hmac, hfour]
      have hauth : kRestlsAuthHeaderLength = kRestlsApplicationMacLength + 4 := rfl
      omega) (by
      rw [length_append, length_append, hmac, hfour]
      have hauth : kRestlsAuthHeaderLength = kRestlsApplicationMacLength + 4 := rfl
      omega)
  rw [← hrecord] at hframed hnumber
  have hhead := length_header (c := c) payloadLength
  have htake : record.take c.payloadOffset = c.header payloadLength := by rw [hrecord, ← hhead, take_left]
  have hdrop : record.drop c.payloadOffset =
      (c.authHash hash (c.header payloadLength ++ (masked ++ body))).take kRestlsApplicationMacLength ++
      (masked ++ body) := by
    rw [hrecord, ← hhead, drop_left]
  obtain ⟨hmacs, hrest, hmask, hbodies⟩ := payload_parts body hmac hfour
  unfold RestlsApplicationCodec.decode
  rw [hagree.payloadOffset, hagree.counter, hagree.tls12Gcm, if_neg (not_not.2 (by rwa [hagree.framed])),
    if_neg hnumber, htake, hdrop]
  dsimp only
  have hunmasked : d.masked hash body masked = putU16 dataLength ++ command.wire := by
    rw [hagree.masked, hmasked, masked_masked body hplain]
  have hlength : (data.take dataLength).length = dataLength := by
    rw [length_take]
    omega
  have hdrop2 : (putU16 dataLength ++ command.wire).drop 2 = command.wire := rfl
  rw [hmacs, hrest, hmask, hbodies, hagree.authHash, if_neg (not_not.2 rfl), hunmasked,
    Wire.getU16_putU16_append hdata, if_neg (by
    rw [hbody, length_append, hlength]
    omega), hdrop2, commandOf_wire, hbody, take_append_of_le_length (by omega), take_take, Nat.min_self]

end Record

/-! ### A link -/

/-- Two codecs and the records that are on the way, the oldest first; `sent`: what the accepted records
carry, `received`: what the receiver has given to the application. -/
structure Link where
  encoder : RestlsApplicationCodec
  decoder : RestlsApplicationCodec
  flight : List Bytes := []
  sent : List RestlsDecodedRecord := []
  received : List RestlsDecodedRecord := []
  deriving DecidableEq, Repr

inductive Event
  | encode (data : Bytes) (dataLength paddingLength : Nat) (command : RestlsCommand)
  | deliver
  | foreign (record : Bytes)
  deriving DecidableEq, Repr

namespace Link

variable (hash : KeyedHash)

def send (s : Link) (data : Bytes) (dataLength paddingLength : Nat) (command : RestlsCommand) : Link :=
  match s.encoder.encode hash data dataLength paddingLength command with
  | (.error _, encoder) => { s with encoder := encoder }
  | (.ok record, encoder) =>
    { s with encoder := encoder, flight := s.flight ++ [record], sent := s.sent ++
      [⟨data.take dataLength, command.carried⟩] }

def receive (s : Link) (record : Bytes) : Link :=
  match s.decoder.decode hash record with
  | (.error _, decoder) => { s with decoder := decoder }
  | (.ok decoded, decoder) => { s with decoder := decoder, received := s.received ++ [decoded] }

def step (s : Link) : Event → Link
  | .encode data dataLength paddingLength command => s.send hash data dataLength paddingLength command
  | .deliver =>
    match s.flight with
    | [] => s
    | record :: flight => { s with flight := flight }.receive hash record
  | .foreign record => s.receive hash record

/-- A record that the encoder has not made is one that `decode` rejects. -/
def Rejected (s : Link) : Event → Prop
  | .foreign record => (s.decoder.decode hash record).1.isOk = false
  | _ => True

instance (s : Link) (e : Event) : Decidable (Rejected hash s e) := by
  unfold Rejected
  cases e <;> infer_instance

def start (secret serverRandom : Bytes) (toClient tls12Gcm : Bool) : Link where
  encoder := { secret := secret, serverRandom := serverRandom, toClient := toClient, tls12Gcm := tls12Gcm }
  decoder := { secret := secret, serverRandom := serverRandom, toClient := toClient, tls12Gcm := tls12Gcm }

def run (s : Link) (events : List Event) : Link := Runs.run (step hash) s events

end Link

/-! ### What holds along a run -/

section Runs

variable {hash : KeyedHash} {c d : RestlsApplicationCodec} {s : Link}

def RestlsApplicationCodec.advance (c : RestlsApplicationCodec) (n : Nat) : RestlsApplicationCodec :=
  { c with counter := c.counter + UInt64.ofNat n }

theorem advance_succ (c : RestlsApplicationCodec) (n : Nat) : ({ c with counter := c.counter + 1 }).advance
    n = c.advance (n + 1) := by
  have hcounter : c.counter + 1 + UInt64.ofNat n = c.counter + UInt64.ofNat (n + 1) := by
    rw [UInt64.ofNat_add, UInt64.add_assoc, UInt64.add_comm 1]
    rfl
  simp only [RestlsApplicationCodec.advance, hcounter]

/-- **What records on the way carry** for a receiver that has come as far as `c`. -/
def Carries (hash : KeyedHash) : RestlsApplicationCodec → List Bytes → List RestlsDecodedRecord → Prop
  | _, [], left => left = []
  | _, _ :: _, [] => False
  | c, record :: flight, carried :: left =>
    (∀ d, Agree c d → d.decode hash record = (.ok carried, { d with counter := d.counter + 1 })) ∧
      Carries hash { c with counter := c.counter + 1 } flight left

variable {record : Bytes}

theorem Carries.snoc {carried : RestlsDecodedRecord} : ∀ {flight : List Bytes} {left : List RestlsDecodedRecord}
    {c : RestlsApplicationCodec}, Carries hash c flight left →
    (∀ d, Agree (c.advance flight.length) d →
      d.decode hash record = (.ok carried, { d with counter := d.counter + 1 })) →
    Carries hash c (flight ++ [record]) (left ++ [carried])
  | [], left, c, h, hlast => by
    rw [show left = [] from h]
    refine ⟨fun d hagree => hlast d { hagree with counter := ?_ }, rfl⟩
    rw [hagree.counter]
    exact (UInt64.add_zero _).symm
  | _ :: _, [], c, h, _ => h.elim
  | first :: flight, _ :: left, c, h, hlast =>
    ⟨h.1, h.2.snoc fun d hagree => hlast d (by rwa [length_cons, ← advance_succ])⟩

/-- **The invariant**: the receiver has given out what was sent but for what is on the way, and its
counter is where the oldest record on the way was made. -/
structure Inv (hash : KeyedHash) (s : Link) : Prop where
  sent : ∃ left, s.sent = s.received ++ left ∧ Carries hash s.decoder s.flight left ∧
    left.length = s.flight.length
  agree : Agree (s.decoder.advance s.flight.length) s.encoder
  extra : s.encoder.initialAuthExtra = []
  counter : s.decoder.counter = UInt64.ofNat s.received.length

theorem start_inv (secret serverRandom : Bytes) (toClient tls12Gcm : Bool) :
    Inv hash (Link.start secret serverRandom toClient tls12Gcm) :=
  ⟨⟨[], rfl, rfl, rfl⟩, ⟨rfl, rfl, rfl, rfl, rfl⟩, rfl, rfl⟩

theorem send_inv (h : Inv hash s) (data : Bytes) (dataLength paddingLength : Nat) (command : RestlsCommand) :
    Inv hash (s.send hash data dataLength paddingLength command) := by
  unfold Link.send
  split
  · rename_i e encoder hencode
    rw [encode_error hencode]
    exact h
  · rename_i record encoder hencode
    obtain ⟨left, hsent, hcarries, hlength⟩ := h.sent
    obtain ⟨-, rfl, -⟩ := encode_ok h.extra hencode
    have hlast : ∀ d, Agree (s.decoder.advance s.flight.length) d → d.decode hash record =
        (.ok ⟨data.take dataLength, command.carried⟩, { d with counter := d.counter + 1 }) := fun d hagree =>
      decode_encode ⟨hagree.secret.trans h.agree.secret.symm,
        hagree.serverRandom.trans h.agree.serverRandom.symm,
        hagree.toClient.trans h.agree.toClient.symm, hagree.tls12Gcm.trans h.agree.tls12Gcm.symm,
        hagree.counter.trans h.agree.counter.symm⟩ h.extra hencode
    refine ⟨⟨left ++ [⟨data.take dataLength, command.carried⟩], ?_, hcarries.snoc hlast, ?_⟩, ?_,
      h.extra, h.counter⟩
    · rw [hsent, append_assoc]
    · rw [length_append, length_append, hlength]
      rfl
    · refine ⟨h.agree.secret, h.agree.serverRandom, h.agree.toClient, h.agree.tls12Gcm, ?_⟩
      show s.encoder.counter + 1 = s.decoder.counter + UInt64.ofNat (s.flight ++ [record]).length
      rw [h.agree.counter, length_append, UInt64.ofNat_add, ← UInt64.add_assoc]
      rfl

theorem deliver_inv {flight : List Bytes} (h : Inv hash s) (hflight : s.flight = record :: flight) :
    Inv hash (({ s with flight := flight }).receive hash record) := by
  obtain ⟨left, hsent, hcarries, hlength⟩ := h.sent
  rw [hflight] at hcarries hlength
  cases left with
  | nil => exact hcarries.elim
  | cons carried left =>
    have hdecode := hcarries.1 s.decoder ⟨rfl, rfl, rfl, rfl, rfl⟩
    have hagree := h.agree
    rw [hflight, length_cons, ← advance_succ] at hagree
    unfold Link.receive
    rw [hdecode]
    refine ⟨⟨left, by rw [hsent, append_assoc]; rfl, hcarries.2, Nat.succ.inj hlength⟩, hagree, h.extra, ?_⟩
    rw [h.counter, length_append, UInt64.ofNat_add]
    rfl

theorem receive_rejected (hrejected : (s.decoder.decode hash record).1.isOk = false) :
    s.receive hash record = s := by
  unfold Link.receive
  split
  · rename_i e decoder hdecode
    rw [decode_error hdecode]
  · rename_i decoded decoder hdecode
    rw [hdecode] at hrejected
    cases hrejected

theorem step_inv (s : Link) (e : Event) (h : Inv hash s) (hrejected : Link.Rejected hash s e) : Inv hash
    (Link.step hash s e) := by
  cases e with
  | encode data dataLength paddingLength command => exact send_inv h data dataLength paddingLength command
  | deliver =>
    show Inv hash (match s.flight with
      | [] => s
      | record :: flight => { s with flight := flight }.receive hash record)
    split
    · exact h
    · rename_i record flight hflight
      exact deliver_inv h hflight
  | foreign record =>
    show Inv hash (s.receive hash record)
    rw [receive_rejected hrejected]
    exact h

/-- **What was sent is received**, in order and without its padding, whatever others' records come in
between: the receiver has all but the records on the way, both counters are where these say, what is
rejected changes nothing and the next record of the encoder decodes. -/
theorem restls_records_received (hash : KeyedHash) (secret serverRandom : Bytes) (toClient tls12Gcm : Bool)
    (events : List Event)
    (hrejected : Runs.Along (Link.step hash) (Link.Rejected hash)
      (Link.start secret serverRandom toClient tls12Gcm) events) :
    let s := (Link.start secret serverRandom toClient tls12Gcm).run hash events
    s.received <+: s.sent ∧ s.received.length + s.flight.length = s.sent.length ∧
      s.encoder.counter = UInt64.ofNat s.sent.length ∧ s.decoder.counter = UInt64.ofNat s.received.length ∧
      (∀ record e decoder, s.decoder.decode hash record = (.error e, decoder) → decoder = s.decoder) ∧
      ∀ record flight, s.flight = record :: flight → ∃ decoded, s.sent[s.received.length]? = some decoded ∧
        s.decoder.decode hash record = (.ok decoded, { s.decoder with counter := s.decoder.counter + 1 }) := by
  intro s
  have h : Inv hash s := Runs.along_induction step_inv events _
    (start_inv secret serverRandom toClient tls12Gcm) hrejected
  obtain ⟨left, hsent, hcarries, hlength⟩ := h.sent
  have htotal : s.received.length + s.flight.length = s.sent.length := by rw [hsent, length_append, hlength]
  refine ⟨⟨left, hsent.symm⟩, htotal, ?_, h.counter, fun record e decoder herror => decode_error herror, ?_⟩
  · rw [h.agree.counter, ← htotal, UInt64.ofNat_add, ← h.counter]
    rfl
  · intro record flight hflight
    rw [hflight] at hcarries
    cases left with
    | nil => exact hcarries.elim
    | cons carried left => exact ⟨carried,
      by rw [hsent, getElem?_append_right (Nat.le_refl _), Nat.sub_self]; rfl,
        hcarries.1 s.decoder ⟨rfl, rfl, rfl, rfl, rfl⟩⟩

def exampleHash : KeyedHash where
  keyed secret parts := ((secret ++ parts).reverse ++ List.replicate 32 0).take 32
  length_keyed secret parts := by
    rw [List.length_take, List.length_append, List.length_replicate]
    omega

/-- A record with padding and one with a command, each behind a record of another. -/
theorem restls_records_received_tampered :
    let events : List Event := [.encode [1, 2, 3, 4] 3 5 {}, .foreign [23, 3, 3, 0, 1, 0], .deliver,
      .encode [] 0 40 ⟨.response, 7⟩, .foreign ([23, 3, 3, 0, 20] ++ List.replicate 20 0), .deliver]
    let s := (Link.start [9, 9] [5] false true).run exampleHash events
    s.received = [⟨[1, 2, 3], {}⟩, ⟨[], ⟨.response, 7⟩⟩] ∧ s.received <+: s.sent :=
  ⟨by decide +kernel, (restls_records_received exampleHash [9, 9] [5] false true _ (by decide +kernel)).1⟩

end Runs

end ClashNative.Restls
