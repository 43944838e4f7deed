import ClashNative.AeadRecords
/-!
# JlsHello — the authentication data of a JLS hello

`jls_client_hello_auth_data` and `jls_server_hello_auth_data` of `jls.cpp`: the handshake message with its
random zeroed, and in a ClientHello the PSK binders too.  A byte that is read or written outside of the
message is an outcome of its own (`outside`).
-/
namespace ClashNative.Jls

open List

open Wire (putU16 getU16)

abbrev Bytes := List UInt8

def kHandshakeHeaderLength : Nat := 4
def kHelloRandomOffset : Nat := 6
def kHelloRandomLength : Nat := 32
def kClientHelloType : UInt8 := 1
def kServerHelloType : UInt8 := 2
def kPresharedKeyExtension : Nat := 0x0029

/-- The messages of `jls_error`; `outside`: an access that is not inside of the message, `unfinished`: a
loop that does not end. -/
inductive JlsError
  | clientHello | serverHello | sessionId | cipherSuites | compressionMethods | extensions | extension
  | pskIdentities | pskBinders | pskBinder | pskBinderList | extensionList | outside | unfinished
  deriving DecidableEq, Repr

/-! ### Access to the message -/

def sizeSub (a b : Nat) : Nat := if b ≤ a then a - b else a + 2 ^ 64 - b

def byteAt (data : Bytes) (i : Nat) : Except JlsError Nat :=
  match data[i]? with
  | none => .error .outside
  | some byte => .ok byte.toNat

def readU8 (data : Bytes) (offset : Nat) (e : JlsError) : Except JlsError (Nat × Nat) :=
  if data.length ≤ offset then .error e
  else do
    let value ← byteAt data offset
    return (value, offset + 1)

def readU16 (data : Bytes) (offset : Nat) (e : JlsError) : Except JlsError (Nat × Nat) :=
  if sizeSub data.length offset < 2 then .error e
  else do
    let high ← byteAt data offset
    let low ← byteAt data (offset + 1)
    return (high * 256 + low, offset + 2)

def skipBytes (data : Bytes) (offset length : Nat) (e : JlsError) : Except JlsError Nat :=
  if sizeSub data.length offset < length then .error e else .ok (offset + length)

def zeroFill (data : Bytes) (start length : Nat) : Except JlsError Bytes :=
  if data.length < start + length then .error .outside
  else .ok (data.take start ++ (List.replicate length 0 ++ data.drop (start + length)))

/-! ### The authentication data -/

def helloWireIsValid (wire : Bytes) (type : UInt8) : Bool :=
  kHandshakeHeaderLength + 2 + kHelloRandomLength ≤ wire.length && wire.getD 0 0 == type &&
    ((wire.getD 1 0).toNat * 65536 + (wire.getD 2 0).toNat * 256 + (wire.getD 3 0).toNat == wire.length -
      kHandshakeHeaderLength) &&
      decide (2 + kHelloRandomLength ≤ (wire.getD 1 0).toNat * 65536 + (wire.getD 2 0).toNat * 256 +
        (wire.getD 3 0).toNat)

def zeroRandom (wire : Bytes) : Except JlsError Bytes := zeroFill wire kHelloRandomOffset kHelloRandomLength

def zeroBinders : Nat → Bytes → Nat → Nat → Except JlsError (Bytes × Nat)
  | 0, _, _, _ => .error .unfinished
  | fuel + 1, wire, cursor, bindersEnd =>
    if cursor < bindersEnd then do
      let (binderLength, cursor) ← readU8 wire cursor .pskBinder
      if sizeSub bindersEnd cursor < binderLength then .error .pskBinder
      else do
        let wire ← zeroFill wire cursor binderLength
        zeroBinders fuel wire (cursor + binderLength) bindersEnd
    else .ok (wire, cursor)

def zeroPresharedKey (wire : Bytes) (extensionData extensionLength : Nat) : Except JlsError Bytes := do
  let extensionEnd := extensionData + extensionLength
  let (identitiesLength, cursor) ← readU16 wire extensionData .pskIdentities
  if sizeSub extensionEnd cursor < identitiesLength then .error .pskIdentities
  else do
    let cursor ← skipBytes wire cursor identitiesLength .pskIdentities
    let (bindersLength, cursor) ← readU16 wire cursor .pskBinders
    if bindersLength ≠ sizeSub extensionEnd cursor then .error .pskBinders
    else do
      let bindersEnd := cursor + bindersLength
      let (wire, cursor) ← zeroBinders (wire.length + 1) wire cursor bindersEnd
      if cursor ≠ bindersEnd then .error .pskBinderList else .ok wire

def zeroExtension (wire : Bytes) (extensionType extensionData extensionLength : Nat) : Except JlsError Bytes :=
  if extensionType = kPresharedKeyExtension then
    zeroPresharedKey wire extensionData extensionLength else .ok wire

def zeroExtensions : Nat → Bytes → Nat → Nat → Except JlsError (Bytes × Nat)
  | 0, _, _, _ => .error .unfinished
  | fuel + 1, wire, offset, extensionsEnd =>
    if offset < extensionsEnd then do
      let (extensionType, offset) ← readU16 wire offset .extension
      let (extensionLength, offset) ← readU16 wire offset .extension
      if sizeSub extensionsEnd offset < extensionLength then .error .extension
      else do
        let wire ← zeroExtension wire extensionType offset extensionLength
        zeroExtensions fuel wire (offset + extensionLength) extensionsEnd
    else .ok (wire, offset)

def skipVector8 (wire : Bytes) (offset : Nat) (e : JlsError) : Except JlsError Nat := do
  let (length, offset) ← readU8 wire offset e
  skipBytes wire offset length e

def skipCipherSuites (wire : Bytes) (offset : Nat) : Except JlsError Nat := do
  let (cipherSuitesLength, offset) ← readU16 wire offset .cipherSuites
  if cipherSuitesLength % 2 ≠ 0 then .error .cipherSuites else
    skipBytes wire offset cipherSuitesLength .cipherSuites

def zeroExtensionBlock (wire : Bytes) (offset : Nat) : Except JlsError Bytes := do
  let (extensionsLength, offset) ← readU16 wire offset .extensions
  if extensionsLength ≠ sizeSub wire.length offset then .error .extensions
  else do
    let extensionsEnd := offset + extensionsLength
    let (wire, offset) ← zeroExtensions (wire.length + 1) wire offset extensionsEnd
    if offset ≠ extensionsEnd then .error .extensionList else .ok wire

def zeroClientHelloBinders (wire : Bytes) : Except JlsError Bytes :=
  if helloWireIsValid wire kClientHelloType = false then .error .clientHello
  else do
    let wire ← zeroRandom wire
    let offset ← skipVector8 wire (kHandshakeHeaderLength + 2 + kHelloRandomLength) .sessionId
    let offset ← skipCipherSuites wire offset
    let offset ← skipVector8 wire offset .compressionMethods
    zeroExtensionBlock wire offset

def jlsClientHelloAuthData (wireMessage : Bytes) : Except JlsError Bytes := zeroClientHelloBinders wireMessage

def jlsServerHelloAuthData (wireMessage : Bytes) : Except JlsError Bytes :=
  if helloWireIsValid wireMessage kServerHelloType = false then .error .serverHello else zeroRandom wireMessage

/-! ## Hellos -/

def vector8 (bytes : Bytes) : Bytes := UInt8.ofNat bytes.length :: bytes
def vector16 (bytes : Bytes) : Bytes := putU16 bytes.length ++ bytes

def zeros (bytes : Bytes) : Bytes := List.replicate bytes.length 0

def bindersWire (binders : List Bytes) : Bytes := binders.flatMap vector8

/-- **An extension** that fits its length; a pre-shared key has its identities and its binders. -/
inductive Extension
  | presharedKey (identities : Bytes) (binders : List Bytes)
    (binder_length : ∀ binder ∈ binders, binder.length < 256)
      (length : 4 + identities.length + (bindersWire binders).length < 65536)
  | other (type : Nat) (data : Bytes) (type_lt : type < 65536) (not_psk : type ≠ kPresharedKeyExtension)
    (length : data.length < 65536)

namespace Extension

def type : Extension → Nat
  | presharedKey .. => kPresharedKeyExtension
  | other type .. => type

def data : Extension → Bytes
  | presharedKey identities binders _ _ => vector16 identities ++ vector16 (bindersWire binders)
  | other _ data _ _ _ => data

def wire (extension : Extension) : Bytes := putU16 extension.type ++ vector16 extension.data

theorem length_zeros (bytes : Bytes) : (zeros bytes).length = bytes.length := length_replicate

theorem length_bindersWire_zeros : ∀ binders : List Bytes, (bindersWire (binders.map zeros)).length =
    (bindersWire binders).length
  | [] => rfl
  | binder :: binders => by
    show (vector8 (zeros binder) ++ bindersWire (binders.map zeros)).length =
    (vector8 binder ++ bindersWire binders).length
    rw [length_append, length_append, length_bindersWire_zeros binders]
    simp [vector8, length_zeros]

def zeroed : Extension → Extension
  | presharedKey identities binders hbinder hlength =>
    presharedKey identities (binders.map zeros)
      (fun binder hmem => by
        obtain ⟨binder', hmem', rfl⟩ := List.mem_map.1 hmem
        rw [length_zeros]
        exact hbinder binder' hmem')
      (by rwa [length_bindersWire_zeros])
  | other type data htype hnot hlength => other type data htype hnot hlength

end Extension

def extensionsWire (extensions : List Extension) : Bytes := extensions.flatMap Extension.wire

def handshake (type : UInt8) (body : Bytes) : Bytes :=
  [type, UInt8.ofNat (body.length / 65536), UInt8.ofNat (body.length / 256), UInt8.ofNat body.length] ++ body

/-- **A ClientHello** whose vectors fit their lengths, with the extensions in any order. -/
structure ClientHello where
  version : Bytes
  random : Bytes
  sessionId : Bytes
  cipherSuites : Bytes
  compressionMethods : Bytes
  extensions : List Extension
  version_length : version.length = 2
  random_length : random.length = 32
  sessionId_length : sessionId.length < 256
  cipherSuites_length : cipherSuites.length < 65536
  cipherSuites_even : cipherSuites.length % 2 = 0
  compressionMethods_length : compressionMethods.length < 256
  extensions_length : (extensionsWire extensions).length < 65536

namespace ClientHello

def rest (hello : ClientHello) : Bytes :=
  vector8 hello.sessionId ++ (vector16 hello.cipherSuites ++
    (vector8 hello.compressionMethods ++ vector16 (extensionsWire hello.extensions)))

def wire (hello : ClientHello) : Bytes :=
  handshake kClientHelloType (hello.version ++ (hello.random ++ hello.rest))

theorem length_extensionsWire_zeroed : ∀ extensions : List Extension,
    (extensionsWire (extensions.map Extension.zeroed)).length = (extensionsWire extensions).length
  | [] => rfl
  | extension :: extensions => by
    show (extension.zeroed.wire ++ extensionsWire (extensions.map Extension.zeroed)).length =
      (extension.wire ++ extensionsWire extensions).length
    rw [length_append, length_append, length_extensionsWire_zeroed extensions]
    cases extension <;>
      simp [Extension.zeroed, Extension.wire, Extension.data, vector16, Extension.length_bindersWire_zeros,
        Wire.length_putU16]

/-- **The hello with its random and its binders zeroed.** -/
def zeroed (hello : ClientHello) : ClientHello :=
  { hello with
    random := zeros hello.random
    extensions := hello.extensions.map Extension.zeroed
    random_length := by rw [Extension.length_zeros, hello.random_length]
    extensions_length := by rw [length_extensionsWire_zeroed]; exact hello.extensions_length }

end ClientHello

/-- **A ServerHello**: one cipher suite, one compression method, and extensions or none. -/
structure ServerHello where
  version : Bytes
  random : Bytes
  sessionId : Bytes
  cipherSuite : Bytes
  compressionMethod : UInt8
  extensions : Option Bytes
  version_length : version.length = 2
  random_length : random.length = 32
  sessionId_length : sessionId.length < 256
  cipherSuite_length : cipherSuite.length = 2
  extensions_length : ∀ bytes, extensions = some bytes → bytes.length < 65536

namespace ServerHello

def rest (hello : ServerHello) : Bytes :=
  vector8 hello.sessionId ++ (hello.cipherSuite ++
    (hello.compressionMethod :: (hello.extensions.map vector16).getD []))

def wire (hello : ServerHello) : Bytes :=
  handshake kServerHelloType (hello.version ++ (hello.random ++ hello.rest))

def zeroed (hello : ServerHello) : ServerHello :=
  { hello with random := zeros hello.random, random_length := by rw [Extension.length_zeros,
    hello.random_length] }

end ServerHello

/-! ## What the reads come to -/

section Reads

variable {α : Type} {e : JlsError}

theorem sizeSub_of_le {a b : Nat} (h : b ≤ a) : sizeSub a b = a - b := if_pos h

theorem byteAt_append (before rest : Bytes) (byte : UInt8) :
    byteAt (before ++ byte :: rest) before.length = .ok byte.toNat := by
  unfold byteAt
  rw [getElem?_append_right (Nat.le_refl _), Nat.sub_self]
  rfl

theorem readU8_append (before rest : Bytes) (byte : UInt8) :
    readU8 (before ++ byte :: rest) before.length e = .ok (byte.toNat, before.length + 1) := by
  unfold readU8
  rw [if_neg (by simp), byteAt_append]
  rfl

theorem readU8_end (before : Bytes) : readU8 before before.length e = .error e := if_pos (Nat.le_refl _)

theorem readU16_append (before rest : Bytes) (high low : UInt8) :
    readU16 (before ++ high :: low :: rest) before.length e = .ok (high.toNat * 256 + low.toNat,
      before.length + 2) := by
  have hlow : byteAt (before ++ high :: low :: rest) (before.length + 1) = .ok low.toNat := by
    have hsplit : before ++ high :: low :: rest = (before ++ [high]) ++ low :: rest := by simp
    rw [hsplit, show before.length + 1 = (before ++ [high]).length by simp, byteAt_append]
  unfold readU16
  rw [sizeSub_of_le (by simp), if_neg (by simp), byteAt_append, hlow]
  rfl

variable {before rest : Bytes}

theorem readU16_short (h : rest.length < 2) : readU16 (before ++ rest) before.length e = .error e := by
  unfold readU16
  rw [sizeSub_of_le (by simp), if_pos (by simpa using h)]

theorem skipBytes_append (before skipped rest : Bytes) :
    skipBytes (before ++ (skipped ++ rest)) before.length skipped.length e =
    .ok (before.length + skipped.length) := by
  unfold skipBytes
  rw [sizeSub_of_le (by simp), if_neg (by simp)]

variable {n : Nat}

theorem skipBytes_short (h : rest.length < n) : skipBytes (before ++ rest) before.length n e = .error e := by
  unfold skipBytes
  rw [sizeSub_of_le (by simp), if_pos (by simpa using h)]

theorem zeroFill_append (before filled rest : Bytes) :
    zeroFill (before ++ (filled ++ rest)) before.length filled.length =
    .ok (before ++ (zeros filled ++ rest)) := by
  unfold zeroFill
  rw [if_neg (by simp), take_left, ← drop_drop, drop_left, drop_left]
  rfl

theorem readU16_putU16 (before rest : Bytes) (hn : n < 65536) :
    readU16 (before ++ (putU16 n ++ rest)) before.length e = .ok (n, before.length + 2) := by
  have h := readU16_append (e := e) before rest (UInt8.ofNat (n / 256)) (UInt8.ofNat n)
  have hvalue : (UInt8.ofNat (n / 256)).toNat * 256 + (UInt8.ofNat n).toNat = n := by
    rw [UInt8.toNat_ofNat', UInt8.toNat_ofNat']
    omega
  rwa [hvalue] at h

/-- **A result that is a refusal** of the message: nothing outside of it was touched, and no loop ran on.
-/
def Refused {α : Type} (result : Except JlsError α) : Prop := ∃ e, result = .error e ∧ e ≠ .outside ∧
    e ≠ .unfinished

theorem refused_error (h : e ≠ .outside ∧ e ≠ .unfinished) : Refused (.error e : Except JlsError α) :=
  ⟨e, rfl, h⟩

theorem Refused.bind {β : Type} {result : Except JlsError α} (h : Refused result) (f : α →
    Except JlsError β) : Refused (result >>= f) := by
  obtain ⟨e, rfl, hne⟩ := h
  exact ⟨e, rfl, hne⟩

end Reads

end ClashNative.Jls
