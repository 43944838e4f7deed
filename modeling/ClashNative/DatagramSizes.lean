import ClashNative.AeadRecords
import ClashNative.HttpText
import ClashNative.PacketFrames
import Mathlib.Data.List.GetD
/-!
# DatagramSizes — how large a Shadowsocks datagram may be

The sending halves of `ShadowsocksDatagramHandle::State` and of `LegacyDatagramState`, with the datagrams
that `aead_packet.cpp`, `ss2022_packet.cpp` and `legacy_packet.cpp` make, beside the payload limits that
they give.  A call into a crypto library may fail; what it returns has its documented length.
-/
namespace ClashNative.DatagramSizes

open List hiding Vector

open Http (ascii)
open Socks5Udp (encodeProxyAddress decodeProxyAddress)
open Wire (putU16 putU64 length_putU16 length_putU64)

abbrev Bytes := List UInt8

/-! ### Methods -/

inductive CipherKind
  | aead
  | stream
  deriving DecidableEq

structure CipherMethod where
  kind : CipherKind
  keySize : Nat
  saltSize : Nat
  nonceSize : Nat
  overhead : Nat
  ivSize : Nat
  shadowsocks2022 : Bool
  name : Bytes
  deriving DecidableEq

def kAeadTagSize : Nat := 16
def kAesBlockSize : Nat := 16

def aeadMethod (name : String) (keySize nonceSize : Nat) (shadowsocks2022 : Bool) : CipherMethod :=
  ⟨.aead, keySize, keySize, nonceSize, kAeadTagSize, 0, shadowsocks2022, ascii name⟩

def streamMethod (name : String) (keySize ivSize : Nat) : CipherMethod :=
  ⟨.stream, keySize, 0, 0, 0, ivSize, false, ascii name⟩

def methods : List CipherMethod := [
  aeadMethod "aes-128-gcm" 16 12 false,
  aeadMethod "aes-192-gcm" 24 12 false,
  aeadMethod "aes-256-gcm" 32 12 false,
  aeadMethod "chacha20-ietf-poly1305" 32 12 false,
  aeadMethod "xchacha20-ietf-poly1305" 32 24 false,
  aeadMethod "chacha8-ietf-poly1305" 32 12 false,
  aeadMethod "xchacha8-ietf-poly1305" 32 24 false,
  aeadMethod "aes-128-ccm" 16 12 false,
  aeadMethod "aes-192-ccm" 24 12 false,
  aeadMethod "aes-256-ccm" 32 12 false,
  aeadMethod "2022-blake3-aes-128-gcm" 16 12 true,
  aeadMethod "2022-blake3-aes-256-gcm" 32 12 true,
  aeadMethod "2022-blake3-chacha20-poly1305" 32 12 true,
  streamMethod "chacha20" 32 8,
  streamMethod "chacha20-ietf" 32 12,
  streamMethod "xchacha20" 32 24,
  streamMethod "aes-128-ctr" 16 kAesBlockSize,
  streamMethod "aes-192-ctr" 24 kAesBlockSize,
  streamMethod "aes-256-ctr" 32 kAesBlockSize,
  streamMethod "aes-128-cfb" 16 kAesBlockSize,
  streamMethod "aes-192-cfb" 24 kAesBlockSize,
  streamMethod "aes-256-cfb" 32 kAesBlockSize,
  streamMethod "rc4-md5" 16 kAesBlockSize]

def cipherMethod (name : Bytes) : Option CipherMethod := methods.find? fun m =>
    decide (m.name = name.map toLower)

def CipherMethod.isAesMethod (m : CipherMethod) : Bool :=
  decide (m.name = ascii "2022-blake3-aes-128-gcm") || decide (m.name = ascii "2022-blake3-aes-256-gcm")

/-! ### Keys and ciphers -/

def intMax : Nat := 2147483647

/-- What OpenSSL, Botan and BLAKE3 do.  `aeadSeal` and `streamUpdate` stand for the ciphers of a method.
-/
structure Libraries where
  random : Nat → Option Bytes
  md5 : Bytes → Option Bytes
  hmacSha1 : Bytes → Bytes → Option Bytes
  blake3 : Bytes → Nat → Bytes
  aeadSeal : CipherMethod → Bytes → Bytes → Bytes → Option Bytes
  xchachaSeal : Bytes → Bytes → Bytes → Option Bytes
  aesEcb : Bytes → Bytes → Option Bytes
  streamUpdate : CipherMethod → Bytes → Bytes → Bytes → Option Bytes
  random_length : ∀ {n bytes}, random n = some bytes → bytes.length = n
  md5_length : ∀ {input digest}, md5 input = some digest → digest.length = 16
  hmacSha1_length : ∀ {key input digest}, hmacSha1 key input = some digest → digest.length = 20
  blake3_length : ∀ input n, (blake3 input n).length = n
  aeadSeal_length : ∀ {m key nonce plaintext sealed}, aeadSeal m key nonce plaintext = some sealed →
    sealed.length = plaintext.length + m.overhead
  xchachaSeal_length : ∀ {key nonce plaintext sealed}, xchachaSeal key nonce plaintext = some sealed →
    sealed.length = plaintext.length + kAeadTagSize
  aesEcb_length : ∀ {key block output}, aesEcb key block = some output → output.length = block.length
  streamUpdate_length : ∀ {m key iv data output}, streamUpdate m key iv data = some output →
    output.length = data.length

/-- **No call fails** that is made with sizes the libraries take; `aes_ccm_crypt` takes `0xffffff` bytes.
-/
structure Libraries.Works (lib : Libraries) : Prop where
  random : ∀ n, (lib.random n).isSome
  md5 : ∀ input, (lib.md5 input).isSome
  hmacSha1 : ∀ key input, (lib.hmacSha1 key input).isSome
  aeadSeal : ∀ m key nonce plaintext, key.length = m.keySize → nonce.length = m.nonceSize →
    plaintext.length ≤ 0xffffff →
    (lib.aeadSeal m key nonce plaintext).isSome
  xchachaSeal : ∀ key nonce plaintext, key.length = 32 → nonce.length = 24 → plaintext.length ≤ intMax →
    (lib.xchachaSeal key nonce plaintext).isSome
  aesEcb : ∀ key block, key.length = 16 ∨ key.length = 32 → block.length = 16 → (lib.aesEcb key block).isSome
  streamUpdate : ∀ m key iv data, key.length = m.keySize → iv.length = m.ivSize → data.length ≤ intMax →
    (lib.streamUpdate m key iv data).isSome

/-- The digests of `md5_chain` and `hkdf_sha1`, each made of a counter and the one before it. -/
def digests (digest : UInt8 → Bytes → Option Bytes) (counter : UInt8) (previous : Bytes) : Nat → Option Bytes
  | 0 => some []
  | n + 1 => do
    let block ← digest counter previous
    let rest ← digests digest (counter + 1) block n
    some (block ++ rest)

section Keys

variable (lib : Libraries)

def md5Chain (password : Bytes) (outputSize : Nat) : Option Bytes :=
  (digests (fun _ previous => lib.md5 (previous ++ password)) 1 [] ((outputSize + 15) / 16)).map
  (·.take outputSize)

def hkdfSha1 (inputKey salt info : Bytes) (outputSize : Nat) : Option Bytes := do
  let pseudorandomKey ← lib.hmacSha1 salt inputKey
  let output ← digests (fun counter previous => lib.hmacSha1 pseudorandomKey
    (previous ++ info ++ [counter])) 1 [] ((outputSize + 19) / 20)
  some (output.take outputSize)

def deriveAeadSubkey (m : CipherMethod) (password salt : Bytes) : Option Bytes :=
  if m.kind ≠ .aead ∨ m.shadowsocks2022 = true then none
  else if password = [] ∨ salt.length ≠ m.saltSize then none
  else do
    let masterKey ← md5Chain lib password m.keySize
    hkdfSha1 lib masterKey salt (ascii "ss-subkey") m.keySize

def deriveLegacyKey (m : CipherMethod) (password iv : Bytes) : Option Bytes :=
  if m.kind ≠ .stream then none
  else if password = [] ∨ iv.length ≠ m.ivSize then none
  else md5Chain lib password m.keySize

def aeadEncrypt (m : CipherMethod) (key nonce plaintext : Bytes) : Option Bytes :=
  if m.kind ≠ .aead then none
  else if key.length ≠ m.keySize ∨ nonce.length ≠ m.nonceSize ∨ intMax < plaintext.length then none
  else lib.aeadSeal m key nonce plaintext

def xchacha20Poly1305Encrypt (key nonce plaintext : Bytes) : Option Bytes :=
  if key.length ≠ 32 ∨ nonce.length ≠ 24 ∨ intMax < plaintext.length then none else
    lib.xchachaSeal key nonce plaintext

def streamEncrypt (m : CipherMethod) (key iv data : Bytes) : Option Bytes :=
  if m.kind ≠ .stream ∨ key.length ≠ m.keySize ∨ iv.length ≠ m.ivSize then none
  else if intMax < data.length then none
  else lib.streamUpdate m key iv data

end Keys

/-! ### Datagrams -/

def kPacketHeaderSize : Nat := 16
def kPacketNonceSize : Nat := 24
def kFixedBodySize : Nat := 1 + 8 + 8 + 2
def kClientHeader : UInt8 := 0
def kMaxUdpWireSize : Nat := 65507
def kMaxEncryptedUdpDatagramSize : Nat := 1500
def kMaxProxyAddressSize : Nat := 1 + 1 + 255 + 2

/-- A datagram handle: `decodedPassword` is what `base64_decode` makes of the password, `sessionId` is 0
where none could be made. -/
structure Handle where
  method : Bytes
  password : Bytes
  decodedPassword : Option Bytes
  sessionId : UInt64
  packetId : UInt64
  sendInProgress : Bool

section Encrypt

variable (lib : Libraries) (h : Handle) (m : CipherMethod)

def aesEcbCrypt (key block : Bytes) : Option Bytes :=
  if block.length ≠ kPacketHeaderSize then none
  else if key.length ≠ 16 ∧ key.length ≠ 32 then none
  else lib.aesEcb key block

def Handle.decodeShadowsocks2022Psk : Option Bytes := h.decodedPassword.filter fun decoded =>
    decide (decoded.length = m.keySize)

def Handle.psk : Bytes := (h.decodeShadowsocks2022Psk m).getD []

def deriveShadowsocks2022Subkey (salt : Bytes) : Option Bytes :=
  (h.decodeShadowsocks2022Psk m).map fun decoded => lib.blake3 (decoded ++ salt) m.keySize

/-- `Shadowsocks2022DatagramCodec::encrypt`, at the second `now`. -/
def encrypt2022 (now : UInt64) (destination payload : Bytes) : Option Bytes :=
  if m.shadowsocks2022 = false ∨ h.psk m = [] ∨ destination = [] then none
  else if h.sessionId = 0 then none
  else
    let body := [kClientHeader] ++ putU64 now ++ putU16 1 ++ [0] ++ destination ++ payload
    let packetHeader := putU64 h.sessionId ++ putU64 h.packetId
    if m.isAesMethod then do
      let sessionKey ← deriveShadowsocks2022Subkey lib h m (packetHeader.take 8)
      let ciphertext ← aeadEncrypt lib m sessionKey ((packetHeader.drop 4).take 12) body
      let encryptedHeader ← aesEcbCrypt lib (h.psk m) packetHeader
      some (encryptedHeader ++ ciphertext)
    else do
      let nonce ← lib.random kPacketNonceSize
      let ciphertext ← xchacha20Poly1305Encrypt lib (h.psk m) nonce (packetHeader ++ body)
      some (nonce ++ ciphertext)

def encryptAeadDatagram (plaintext : Bytes) : Option Bytes :=
  if m.kind ≠ .aead ∨ m.shadowsocks2022 = true then none
  else do
    let salt ← lib.random m.keySize
    let key ← deriveAeadSubkey lib m h.password salt
    let ciphertext ← aeadEncrypt lib m key (List.replicate m.nonceSize 0) plaintext
    some (salt ++ ciphertext)

def encryptLegacyDatagram (plaintext : Bytes) : Option Bytes :=
  if m.kind ≠ .stream then none
  else do
    let iv ← lib.random m.ivSize
    let key ← deriveLegacyKey lib m h.password iv
    let encrypted ← streamEncrypt lib m key iv plaintext
    some (iv ++ encrypted)

def encrypt (now : UInt64) (address payload : Bytes) : Option Bytes :=
  if m.kind = .stream then encryptLegacyDatagram lib h m (address ++ payload)
  else if m.shadowsocks2022 = true then encrypt2022 lib h m now address payload
  else encryptAeadDatagram lib h m (address ++ payload)

end Encrypt

/-! ### Sends and limits -/

inductive SendError
  | alreadyStarted
  | protocol
  | encryption
  | messageSize
  deriving DecidableEq

/-- `State::send` and `LegacyDatagramState::async_send`: the datagram for the transport.  A datagram that
cannot be encrypted is a message size for the one and an error of its own for the other. -/
def Handle.send (lib : Libraries) (h : Handle) (now : UInt64) (destination : Socks5Udp.Destination)
    (payload : Bytes) : Except SendError Bytes :=
  if h.sendInProgress then .error .alreadyStarted
  else match encodeProxyAddress destination, cipherMethod h.method with
    | .ok address, some m =>
      match encrypt lib h m now address payload with
      | none => .error (if m.kind = .stream then .encryption else .messageSize)
      | some wire => if kMaxEncryptedUdpDatagramSize < wire.length then .error .messageSize else .ok wire
    | _, _ => .error .protocol

/-- A difference of two `std::size_t`, which wraps. -/
def sizeSub (a b : Nat) : Nat := (a + 18446744073709551616 - b) % 18446744073709551616

def aeadDatagramPayloadLimit (m : CipherMethod) (wireLimit addressLimit : Nat) : Nat :=
  if m.kind ≠ .aead ∨ m.shadowsocks2022 = true ∨ wireLimit < m.keySize + m.overhead + addressLimit then 0
  else sizeSub (sizeSub (sizeSub wireLimit m.keySize) m.overhead) addressLimit

def legacyDatagramPayloadLimit (m : CipherMethod) (wireLimit addressLimit : Nat) : Nat :=
  if m.kind ≠ .stream ∨ wireLimit < m.ivSize then 0
  else
    let encryptedLimit := sizeSub wireLimit m.ivSize
    if addressLimit < encryptedLimit then sizeSub encryptedLimit addressLimit else 0

/-- `Shadowsocks2022DatagramCodec::max_datagram_size`. -/
def codecMaxDatagramSize (m : CipherMethod) (wireLimit destinationLimit : Nat) : Nat :=
  if m.shadowsocks2022 = false then 0
  else
    let overhead :=
      if m.isAesMethod then kPacketHeaderSize + kAeadTagSize + kFixedBodySize else
        kPacketNonceSize + kAeadTagSize + 8 * 2 + kFixedBodySize
    if wireLimit ≤ overhead + destinationLimit then 0 else sizeSub (sizeSub wireLimit overhead) destinationLimit

def CipherMethod.maxDatagramSize (m : CipherMethod) : Nat :=
  if m.kind = .stream then min (legacyDatagramPayloadLimit m kMaxEncryptedUdpDatagramSize
    kMaxProxyAddressSize) kMaxUdpWireSize
  else if m.shadowsocks2022 = true then min
    (codecMaxDatagramSize m kMaxEncryptedUdpDatagramSize kMaxProxyAddressSize) kMaxUdpWireSize
  else min (aeadDatagramPayloadLimit m kMaxEncryptedUdpDatagramSize kMaxProxyAddressSize) kMaxUdpWireSize

def Handle.maxDatagramSize (h : Handle) : Nat :=
  ((cipherMethod h.method).map CipherMethod.maxDatagramSize).getD 0

/-! ### What a datagram has around the address and the payload -/

def CipherMethod.wireOverhead (m : CipherMethod) : Nat :=
  if m.kind = .stream then m.ivSize
  else if m.shadowsocks2022 = true then
    (if m.isAesMethod then kPacketHeaderSize else kPacketNonceSize + 8 + 8) + (1 + 8 + 2 + 1) + kAeadTagSize
  else m.keySize + kAeadTagSize

/-- The sizes of a method that the codecs take for granted. -/
structure CipherMethod.Shape (m : CipherMethod) : Prop where
  overhead : m.kind = .aead → m.overhead = kAeadTagSize
  salt : m.kind = .aead → m.saltSize = m.keySize
  nonce : m.shadowsocks2022 = true → m.kind = .aead ∧ m.nonceSize = 12 ∧ 0 < m.keySize
  aes : m.isAesMethod = true → m.keySize = 16 ∨ m.keySize = 32
  chacha : m.shadowsocks2022 = true → m.isAesMethod = false → m.keySize = 32
  room : m.wireOverhead + m.maxDatagramSize + kMaxProxyAddressSize ≤ kMaxEncryptedUdpDatagramSize

variable {m : CipherMethod} {name : Bytes}

theorem mem_methods (h : cipherMethod name = some m) : m ∈ methods := mem_of_find?_eq_some h

theorem shape_of_mem (h : m ∈ methods) : m.Shape where
  overhead := by revert h; revert m; decide
  salt := by revert h; revert m; decide
  nonce := by revert h; revert m; decide
  aes := by revert h; revert m; decide
  chacha := by revert h; revert m; decide
  room := by revert h; revert m; decide

section Lengths

variable {lib : Libraries} {h : Handle} {m : CipherMethod} {size : Nat} {digest : UInt8 → Bytes → Option Bytes}

theorem digests_length
    (hsize : ∀ counter previous block, digest counter previous = some block → block.length = size) :
    ∀ (n : Nat) (counter : UInt8) (previous : Bytes) {output : Bytes}, digests digest counter previous n =
    some output → output.length = n * size
  | 0, _, _, _, houtput => by
    cases houtput
    exact (Nat.zero_mul _).symm
  | n + 1, counter, previous, output, houtput => by
    obtain ⟨block, hblock, houtput⟩ := Option.bind_eq_some_iff.1 houtput
    obtain ⟨rest, hrest, houtput⟩ := Option.bind_eq_some_iff.1 houtput
    cases houtput
    rw [length_append, hsize _ _ _ hblock, digests_length hsize n _ _ hrest, Nat.succ_mul, Nat.add_comm]

theorem digests_isSome (hworks : ∀ counter previous, (digest counter previous).isSome) :
    ∀ (n : Nat) (counter : UInt8) (previous : Bytes), (digests digest counter previous n).isSome
  | 0, _, _ => rfl
  | n + 1, counter, previous => by
    obtain ⟨block, hblock⟩ := Option.isSome_iff_exists.1 (hworks counter previous)
    obtain ⟨rest, hrest⟩ := Option.isSome_iff_exists.1 (digests_isSome hworks n (counter + 1) block)
    simp [digests, hblock, hrest]

variable {output : Bytes} {password : Bytes}

theorem md5Chain_length (houtput : md5Chain lib password size = some output) : output.length = size := by
  obtain ⟨all, hall, rfl⟩ := Option.map_eq_some_iff.1 houtput
  have hlength := digests_length (fun _ _ _ => lib.md5_length) _ _ _ hall
  rw [length_take]
  omega

variable {key : Bytes} {salt : Bytes}

theorem hkdfSha1_length {info : Bytes} (houtput : hkdfSha1 lib key salt info size = some output) :
    output.length = size := by
  obtain ⟨_, _, houtput⟩ := Option.bind_eq_some_iff.1 houtput
  obtain ⟨all, hall, houtput⟩ := Option.bind_eq_some_iff.1 houtput
  cases houtput
  have hlength := digests_length (fun _ _ _ => lib.hmacSha1_length) _ _ _ hall
  rw [length_take]
  omega

variable {nonce plaintext : Bytes} {sealed : Bytes}

theorem aeadEncrypt_length (hsealed : aeadEncrypt lib m key nonce plaintext = some sealed) :
    sealed.length = plaintext.length + m.overhead := by
  unfold aeadEncrypt at hsealed
  split at hsealed
  · cases hsealed
  split at hsealed
  · cases hsealed
  exact lib.aeadSeal_length hsealed

theorem aeadEncrypt_exists (works : lib.Works) (hkind : m.kind = .aead) (hkey : key.length = m.keySize)
    (hnonce : nonce.length = m.nonceSize) (hplaintext : plaintext.length ≤ 0xffffff) :
    ∃ sealed, aeadEncrypt lib m key nonce plaintext = some sealed := by
  have hmax : intMax = 2147483647 := rfl
  rw [aeadEncrypt, if_neg (not_not.2 hkind), if_neg (by omega)]
  exact Option.isSome_iff_exists.1 (works.aeadSeal m key nonce plaintext hkey hnonce hplaintext)

theorem xchacha20Poly1305Encrypt_length
    (hsealed : xchacha20Poly1305Encrypt lib key nonce plaintext = some sealed) :
    sealed.length = plaintext.length + kAeadTagSize := by
  unfold xchacha20Poly1305Encrypt at hsealed
  split at hsealed
  · cases hsealed
  exact lib.xchachaSeal_length hsealed

theorem streamEncrypt_length {iv data : Bytes} (houtput : streamEncrypt lib m key iv data = some output) :
    output.length = data.length := by
  unfold streamEncrypt at houtput
  split at houtput
  · cases houtput
  split at houtput
  · cases houtput
  exact lib.streamUpdate_length houtput

theorem aesEcbCrypt_length {block : Bytes} (houtput : aesEcbCrypt lib key block = some output) :
    output.length = kPacketHeaderSize := by
  unfold aesEcbCrypt at houtput
  split at houtput
  · cases houtput
  split at houtput
  · cases houtput
  rw [lib.aesEcb_length houtput]
  omega

variable {address payload : Bytes}

theorem encrypt_length (hm : m ∈ methods) {now : UInt64} {wire : Bytes}
    (hwire : encrypt lib h m now address payload = some wire) :
    wire.length = m.wireOverhead + address.length + payload.length := by
  have shape := shape_of_mem hm
  have htag : kAeadTagSize = 16 := rfl
  unfold encrypt at hwire
  unfold CipherMethod.wireOverhead
  split at hwire
  · rename_i hkind
    rw [if_pos hkind]
    rw [encryptLegacyDatagram, if_neg (not_not.2 hkind)] at hwire
    obtain ⟨iv, hiv, hwire⟩ := Option.bind_eq_some_iff.1 hwire
    obtain ⟨key, -, hwire⟩ := Option.bind_eq_some_iff.1 hwire
    obtain ⟨encrypted, hencrypted, hwire⟩ := Option.bind_eq_some_iff.1 hwire
    cases hwire
    rw [length_append, lib.random_length hiv, streamEncrypt_length hencrypted, length_append]
    omega
  rename_i hkind
  rw [if_neg hkind]
  split at hwire
  · rename_i h2022
    rw [if_pos h2022]
    have hoverhead := shape.overhead (shape.nonce h2022).1
    unfold encrypt2022 at hwire
    split at hwire
    · cases hwire
    split at hwire
    · cases hwire
    dsimp only at hwire
    split at hwire
    · rename_i haes
      rw [if_pos haes]
      obtain ⟨sessionKey, -, hwire⟩ := Option.bind_eq_some_iff.1 hwire
      obtain ⟨ciphertext, hciphertext, hwire⟩ := Option.bind_eq_some_iff.1 hwire
      obtain ⟨encryptedHeader, hheader, hwire⟩ := Option.bind_eq_some_iff.1 hwire
      cases hwire
      rw [length_append, aesEcbCrypt_length hheader, aeadEncrypt_length hciphertext]
      simp only [length_append, length_putU64, length_putU16, length_singleton]
      omega
    · rename_i haes
      rw [if_neg haes]
      obtain ⟨nonce, hnonce, hwire⟩ := Option.bind_eq_some_iff.1 hwire
      obtain ⟨ciphertext, hciphertext, hwire⟩ := Option.bind_eq_some_iff.1 hwire
      cases hwire
      rw [length_append, lib.random_length hnonce, xchacha20Poly1305Encrypt_length hciphertext]
      simp only [length_append, length_putU64, length_putU16, length_singleton]
      omega
  · rename_i h2022
    rw [if_neg h2022]
    unfold encryptAeadDatagram at hwire
    split at hwire
    · cases hwire
    rename_i hclassic
    have hoverhead := shape.overhead (by_contra fun hne => hclassic (.inl hne))
    obtain ⟨salt, hsalt, hwire⟩ := Option.bind_eq_some_iff.1 hwire
    obtain ⟨key, -, hwire⟩ := Option.bind_eq_some_iff.1 hwire
    obtain ⟨ciphertext, hciphertext, hwire⟩ := Option.bind_eq_some_iff.1 hwire
    cases hwire
    rw [length_append, lib.random_length hsalt, aeadEncrypt_length hciphertext, length_append]
    omega

/-! ### When a payload is encrypted -/

/-- A configuration that can encrypt at all: a password or, for a 2022 method, a key and a session. -/
def Handle.Usable (h : Handle) (m : CipherMethod) : Prop :=
  if m.shadowsocks2022 = true then (h.decodeShadowsocks2022Psk m).isSome ∧ h.sessionId ≠ 0 else h.password ≠ []

theorem md5Chain_exists (works : lib.Works) (password : Bytes) (size : Nat) :
    ∃ key, md5Chain lib password size = some key ∧ key.length = size := by
  obtain ⟨all, hall⟩ := Option.isSome_iff_exists.1
    (digests_isSome (fun _ previous => works.md5 (previous ++ password)) ((size + 15) / 16) 1 [])
  have hkey : md5Chain lib password size = some (all.take size) := by
    rw [md5Chain, hall]
    rfl
  exact ⟨_, hkey, md5Chain_length hkey⟩

theorem deriveAeadSubkey_exists (works : lib.Works) (hkind : m.kind = .aead)
    (hclassic : m.shadowsocks2022 ≠ true)
    (hpassword : password ≠ []) (hsalt : salt.length = m.saltSize) :
    ∃ key, deriveAeadSubkey lib m password salt = some key ∧ key.length = m.keySize := by
  obtain ⟨master, hmaster, -⟩ := md5Chain_exists works password m.keySize
  obtain ⟨pseudorandom, hpseudorandom⟩ := Option.isSome_iff_exists.1 (works.hmacSha1 salt master)
  obtain ⟨all, hall⟩ := Option.isSome_iff_exists.1 (digests_isSome
    (fun counter previous => works.hmacSha1 pseudorandom (previous ++ ascii "ss-subkey" ++ [counter]))
    ((m.keySize + 19) / 20) 1 [])
  have hkey : hkdfSha1 lib master salt (ascii "ss-subkey") m.keySize = some (all.take m.keySize) := by
    simp only [hkdfSha1, hpseudorandom, Option.bind_eq_bind, Option.bind_some, hall]
  refine ⟨_, ?_, hkdfSha1_length hkey⟩
  rw [deriveAeadSubkey, if_neg (not_or.2 ⟨not_not.2 hkind, hclassic⟩),
    if_neg (not_or.2 ⟨hpassword, not_not.2 hsalt⟩)]
  simp only [hmaster, Option.bind_eq_bind, Option.bind_some, hkey]

theorem psk_exists (hkey : h.decodeShadowsocks2022Psk m = some key) :
    h.psk m = key ∧ key.length = m.keySize := by
  refine ⟨by rw [Handle.psk, hkey]; rfl, ?_⟩
  have hlength := (Option.filter_eq_some_iff.1 hkey).2
  exact of_decide_eq_true hlength

theorem encryptLegacyDatagram_exists (works : lib.Works) (hstream : m.kind = .stream)
    (hpassword : h.password ≠ [])
    (hlength : plaintext.length ≤ intMax) : ∃ wire, encryptLegacyDatagram lib h m plaintext = some wire := by
  obtain ⟨iv, hiv⟩ := Option.isSome_iff_exists.1 (works.random m.ivSize)
  have hivLength := lib.random_length hiv
  obtain ⟨key, hkey, hkeyLength⟩ := md5Chain_exists works h.password m.keySize
  have hlegacy : deriveLegacyKey lib m h.password iv = some key := by
    rw [deriveLegacyKey, if_neg (not_not.2 hstream), if_neg (not_or.2 ⟨hpassword, not_not.2 hivLength⟩), hkey]
  obtain ⟨encrypted, hencrypted⟩ := Option.isSome_iff_exists.1
    (works.streamUpdate m key iv _ hkeyLength hivLength hlength)
  have hstreamed : streamEncrypt lib m key iv plaintext = some encrypted := by
    rw [streamEncrypt, if_neg (by simp [hstream, hkeyLength, hivLength]),
      if_neg (Nat.not_lt.2 hlength), hencrypted]
  refine ⟨iv ++ encrypted, ?_⟩
  rw [encryptLegacyDatagram, if_neg (not_not.2 hstream)]
  simp only [hiv, Option.bind_eq_bind, Option.bind_some, hlegacy, hstreamed]

theorem encryptAeadDatagram_exists (works : lib.Works) (hm : m ∈ methods) (hkind : m.kind = .aead)
    (hclassic : m.shadowsocks2022 ≠ true)
    (hpassword : h.password ≠ []) (hlength : plaintext.length ≤ 0xffffff) :
    ∃ wire, encryptAeadDatagram lib h m plaintext = some wire := by
  obtain ⟨salt, hsalt⟩ := Option.isSome_iff_exists.1 (works.random m.keySize)
  have hsaltLength := (lib.random_length hsalt).trans ((shape_of_mem hm).salt hkind).symm
  obtain ⟨key, hkey, hkeyLength⟩ := deriveAeadSubkey_exists works hkind hclassic hpassword hsaltLength
  obtain ⟨ciphertext, hciphertext⟩ := aeadEncrypt_exists works hkind hkeyLength
    (length_replicate (a := 0)) hlength
  refine ⟨salt ++ ciphertext, ?_⟩
  rw [encryptAeadDatagram, if_neg (not_or.2 ⟨not_not.2 hkind, hclassic⟩)]
  simp only [hsalt, Option.bind_eq_bind, Option.bind_some, hkey, hciphertext]

theorem encrypt2022_exists (works : lib.Works) (hm : m ∈ methods) (h2022 : m.shadowsocks2022 = true)
    (hdecoded : (h.decodeShadowsocks2022Psk m).isSome) (hsession : h.sessionId ≠ 0) (now : UInt64)
    (haddress : address ≠ []) (hlength : address.length + payload.length ≤ kMaxEncryptedUdpDatagramSize) :
    ∃ wire, encrypt2022 lib h m now address payload = some wire := by
  have shape := shape_of_mem hm
  have hmax : intMax = 2147483647 := rfl
  have hwireMax : kMaxEncryptedUdpDatagramSize = 1500 := rfl
  obtain ⟨psk, hdecoded⟩ := Option.isSome_iff_exists.1 hdecoded
  obtain ⟨hpsk, hpskLength⟩ := psk_exists hdecoded
  obtain ⟨hkind, hnonceSize, hkeySize⟩ := shape.nonce h2022
  have hpskNe : h.psk m ≠ [] := by
    rw [hpsk]
    exact ne_nil_of_length_pos (by omega)
  rw [encrypt2022, if_neg (not_or.2 ⟨by simp [h2022], not_or.2 ⟨hpskNe, haddress⟩⟩), if_neg hsession, hpsk]
  have hheaderLength : (putU64 h.sessionId ++ putU64 h.packetId).length = kPacketHeaderSize := rfl
  generalize putU64 h.sessionId ++ putU64 h.packetId = packetHeader at hheaderLength ⊢
  have hbodyLength : ([kClientHeader] ++ putU64 now ++ putU16 1 ++ [0] ++ address ++ payload).length ≤ 2000 := by
    simp only [length_append, length_putU64, length_putU16, length_singleton]
    omega
  generalize [kClientHeader] ++ putU64 now ++ putU16 1 ++ [0] ++ address ++ payload = body at hbodyLength ⊢
  have hheaderSize : kPacketHeaderSize = 16 := rfl
  by_cases haes : m.isAesMethod = true
  · have hsize := shape.aes haes
    have hsubkey : deriveShadowsocks2022Subkey lib h m (packetHeader.take 8) =
      some (lib.blake3 (psk ++ packetHeader.take 8) m.keySize) := by
      rw [deriveShadowsocks2022Subkey, hdecoded]
      rfl
    have hnonce : ((packetHeader.drop 4).take 12).length = m.nonceSize := by
      rw [length_take, length_drop]
      omega
    obtain ⟨ciphertext, hciphertext⟩ := aeadEncrypt_exists works hkind
      (lib.blake3_length (psk ++ packetHeader.take 8) m.keySize) hnonce
      (Nat.le_trans hbodyLength (by decide))
    obtain ⟨header, hheader⟩ := Option.isSome_iff_exists.1
      (works.aesEcb psk packetHeader (by omega) hheaderLength)
    have hecb : aesEcbCrypt lib psk packetHeader = some header := by
      rw [aesEcbCrypt, if_neg (not_not.2 hheaderLength), if_neg (by omega), hheader]
    refine ⟨header ++ ciphertext, ?_⟩
    rw [if_pos haes]
    simp only [hsubkey, Option.bind_eq_bind, Option.bind_some, hciphertext, hecb]
  · have hkey : psk.length = 32 := hpskLength.trans (shape.chacha h2022 (Bool.not_eq_true _ ▸ haes))
    obtain ⟨nonce, hnonce⟩ := Option.isSome_iff_exists.1 (works.random kPacketNonceSize)
    have hnonceLength : nonce.length = 24 := lib.random_length hnonce
    have hplaintext : (packetHeader ++ body).length ≤ intMax := by
      rw [length_append]
      omega
    obtain ⟨ciphertext, hciphertext⟩ := Option.isSome_iff_exists.1
      (works.xchachaSeal psk nonce _ hkey hnonceLength hplaintext)
    have hsealed : xchacha20Poly1305Encrypt lib psk nonce (packetHeader ++ body) = some ciphertext := by
      rw [xchacha20Poly1305Encrypt, if_neg (by omega), hciphertext]
    refine ⟨nonce ++ ciphertext, ?_⟩
    rw [if_neg haes]
    simp only [hnonce, Option.bind_eq_bind, Option.bind_some, hsealed]

theorem encrypt_exists (works : lib.Works) (hm : m ∈ methods) (usable : h.Usable m) (now : UInt64)
    (haddress : address ≠ []) (hlength : address.length + payload.length ≤ kMaxEncryptedUdpDatagramSize) :
    ∃ wire, encrypt lib h m now address payload = some wire := by
  have hplaintext : (address ++ payload).length ≤ kMaxEncryptedUdpDatagramSize := by
    rwa [length_append]
  unfold Handle.Usable at usable
  unfold encrypt
  cases hkind : m.kind with
  | stream =>
    have hclassic : m.shadowsocks2022 ≠ true :=
      fun h2022 => nomatch hkind.symm.trans ((shape_of_mem hm).nonce h2022).1
    rw [if_neg hclassic] at usable
    rw [if_pos rfl]
    exact encryptLegacyDatagram_exists works hkind usable (Nat.le_trans hplaintext (by decide))
  | aead =>
    rw [if_neg (by decide)]
    by_cases h2022 : m.shadowsocks2022 = true
    · rw [if_pos h2022] at usable ⊢
      exact encrypt2022_exists works hm h2022 usable.1 usable.2 now haddress hlength
    · rw [if_neg h2022] at usable ⊢
      exact encryptAeadDatagram_exists works hm hkind h2022 usable (Nat.le_trans hplaintext (by decide))

end Lengths

/-! ### Addresses -/

variable {address : Bytes} {destination : Socks5Udp.Destination}

theorem address_length (h : encodeProxyAddress destination = .ok address) :
    address ≠ [] ∧ address.length ≤ kMaxProxyAddressSize := by
  have hmax : kMaxProxyAddressSize = 259 := rfl
  unfold encodeProxyAddress at h
  split at h
  · cases h
    simp
    omega
  · cases h
    simp
    omega
  · split at h
    · cases h
    · cases h
      simp
      omega

theorem ofFn_append {k : Nat} (bytes : Vector UInt8 k) (rest : Bytes) :
    (Vector.ofFn fun i : Fin k => (bytes.toList ++ rest).getD i 0) = bytes := by
  have hfirst (i : Fin k) : (bytes.toList ++ rest).getD i 0 = bytes.toList.getD i 0 :=
    getD_append _ _ _ _ (by simp)
  simp only [hfirst]
  exact PacketStream.ofFn_toList bytes

variable {n : Nat}

theorem portAt_drop (front : Bytes) (port : UInt16) (rest : Bytes) (hn : front.length = n) :
    Socks5Udp.portAt ((front ++ (port >>> 8).toUInt8 :: (port &&& 0xff).toUInt8 :: rest).drop n) = port := by
  rw [drop_left' hn]
  exact PacketStream.portAt_putPort port

theorem toNat_ofNat_length (h : name.length ≤ 255) : (UInt8.ofNat name.length).toNat = name.length := by
  rw [UInt8.toNat_ofNat']
  omega

theorem decode_encode (h : encodeProxyAddress destination = .ok address) (payload : Bytes) :
    decodeProxyAddress (address ++ payload) 0 = .ok ⟨destination, address.length⟩ := by
  obtain ⟨host, port⟩ := destination
  cases host with
  | v4 bytes =>
    cases h
    have hlength : bytes.toList.length = 4 := bytes.size_toArray
    rw [cons_append, cons_append, append_assoc, decodeProxyAddress, drop_zero]
    dsimp only
    rw [if_pos rfl, if_neg (by simp; omega), ofFn_append, cons_append, cons_append, portAt_drop _ _ _ hlength]
    simp
  | v6 bytes =>
    cases h
    have hlength : bytes.toList.length = 16 := bytes.size_toArray
    rw [cons_append, cons_append, append_assoc, decodeProxyAddress, drop_zero]
    dsimp only
    rw [if_neg (by decide), if_pos rfl, if_neg (by simp; omega), ofFn_append, cons_append, cons_append,
      portAt_drop _ _ _ hlength]
    simp
  | domain name =>
    rw [encodeProxyAddress] at h
    dsimp only at h
    split at h
    · cases h
    rename_i hname
    cases h
    have hsize := toNat_ofNat_length (Nat.not_lt.1 fun hlt => hname (.inr hlt))
    have hpositive := length_pos_of_ne_nil fun hnil => hname (.inl hnil)
    have hnot : UInt8.ofNat name.length ≠ 0 := by
      intro hzero
      rw [hzero] at hsize
      exact absurd hsize (by simp; omega)
    rw [cons_append, cons_append, cons_append, cons_append, append_assoc, decodeProxyAddress, drop_zero]
    dsimp only
    rw [if_neg (by decide), if_neg (by decide), if_pos rfl, if_neg (not_or.2 ⟨hnot, by rw [hsize]; simp⟩), hsize,
      cons_append, cons_append, portAt_drop _ _ _ rfl, take_left]
    simp
    omega

theorem isOk_ite_error {α : Type} {c : Prop} [Decidable c] {e : Error} {x : Except Error α} (h : c) :
    (if c then .error e else x).isOk = false := by
  rw [if_pos h]
  rfl

theorem decode_prefix (h : encodeProxyAddress destination = .ok address)
    (hn : n < address.length) : (decodeProxyAddress (address.take n) 0).isOk = false := by
  obtain ⟨host, port⟩ := destination
  cases n with
  | zero => rfl
  | succ n =>
    cases host with
    | v4 bytes =>
      cases h
      have hlength : bytes.toList.length = 4 := bytes.size_toArray
      simp only [length_cons, length_append, length_nil] at hn
      rw [cons_append, take_succ_cons, decodeProxyAddress, drop_zero]
      dsimp only
      rw [if_pos rfl]
      exact isOk_ite_error (by rw [length_take]; omega)
    | v6 bytes =>
      cases h
      have hlength : bytes.toList.length = 16 := bytes.size_toArray
      simp only [length_cons, length_append, length_nil] at hn
      rw [cons_append, take_succ_cons, decodeProxyAddress, drop_zero]
      dsimp only
      rw [if_neg (by decide), if_pos rfl]
      exact isOk_ite_error (by rw [length_take]; omega)
    | domain name =>
      rw [encodeProxyAddress] at h
      dsimp only at h
      split at h
      · cases h
      rename_i hname
      cases h
      have hsize := toNat_ofNat_length (Nat.not_lt.1 fun hlt => hname (.inr hlt))
      simp only [length_cons, length_append, length_nil] at hn
      rw [cons_append, take_succ_cons, decodeProxyAddress, drop_zero]
      dsimp only
      rw [if_neg (by decide), if_neg (by decide), if_pos rfl]
      cases n with
      | zero => rfl
      | succ n =>
        rw [cons_append, take_succ_cons]
        exact isOk_ite_error (.inr (by rw [hsize, length_take]; omega))

/-! ### The contract -/

/-- The crypto libraries with everything they return made of zeros. -/
def zeros : Libraries where
  random n := some (List.replicate n 0)
  md5 _ := some (List.replicate 16 0)
  hmacSha1 _ _ := some (List.replicate 20 0)
  blake3 _ n := List.replicate n 0
  aeadSeal m _ _ plaintext := some (plaintext ++ List.replicate m.overhead 0)
  xchachaSeal _ _ plaintext := some (plaintext ++ List.replicate kAeadTagSize 0)
  aesEcb _ block := some block
  streamUpdate _ _ _ data := some data
  random_length h := by cases h; exact List.length_replicate
  md5_length h := by cases h; rfl
  hmacSha1_length h := by cases h; rfl
  blake3_length _ _ := List.length_replicate
  aeadSeal_length h := by cases h; simp
  xchachaSeal_length h := by cases h; simp
  aesEcb_length h := by cases h; rfl
  streamUpdate_length h := by cases h; rfl

/-- A payload that keeps the limit: its datagram keeps the wire limit and is sent, and it has one where
the configuration and the libraries can make any. -/
structure Sends (lib : Libraries) (h : Handle) (m : CipherMethod) (destination : Socks5Udp.Destination)
    (address : Bytes) (now : UInt64)
    (payload : Bytes) : Prop where
  wire : ∀ wire, encrypt lib h m now address payload = some wire →
    wire.length ≤ kMaxEncryptedUdpDatagramSize ∧
    (h.sendInProgress = false → h.send lib now destination payload = .ok wire)
  encrypted : lib.Works → h.Usable m → (encrypt lib h m now address payload).isSome

/-- **The size contract** of a Shadowsocks datagram handle. -/
theorem datagram_sizes (lib : Libraries) (h : Handle) {m : CipherMethod}
    (hm : cipherMethod h.method = some m) {destination : Socks5Udp.Destination}
    {address : Bytes} (haddress : encodeProxyAddress destination = .ok address) :
    (∀ now payload, payload.length ≤ h.maxDatagramSize → Sends lib h m destination address now payload) ∧
      m.wireOverhead + h.maxDatagramSize + kMaxProxyAddressSize ≤ kMaxEncryptedUdpDatagramSize ∧
      (∀ payload, decodeProxyAddress (address ++ payload) 0 = .ok ⟨destination, address.length⟩) ∧
      ∀ n < address.length, (decodeProxyAddress (address.take n) 0).isOk = false := by
  have hmem := mem_methods hm
  have hmax : h.maxDatagramSize = m.maxDatagramSize := by
    rw [Handle.maxDatagramSize, hm]
    rfl
  have hroom := (shape_of_mem hmem).room
  rw [← hmax] at hroom
  obtain ⟨hne, hlength⟩ := address_length haddress
  refine ⟨fun now payload hpayload => ⟨fun wire hwire => ?_, fun works usable => ?_⟩, hroom,
    decode_encode haddress, fun n => decode_prefix haddress⟩
  · have hfits : wire.length ≤ kMaxEncryptedUdpDatagramSize := by
      rw [encrypt_length hmem hwire]
      omega
    refine ⟨hfits, fun hidle => ?_⟩
    rw [Handle.send, hidle, haddress, hm]
    dsimp only
    rw [if_neg (by decide), hwire]
    exact if_neg (Nat.not_lt.2 hfits)
  · exact Option.isSome_iff_exists.2 (encrypt_exists works hmem usable now hne (by omega))

theorem gcm_sizes :
    let h : Handle := ⟨ascii "AES-128-GCM", [1], none, 0, 0, false⟩
    let address := [0x01, 192, 0, 2, 7, 0, 53]
    (∀ now payload, payload.length ≤ h.maxDatagramSize →
        Sends zeros h (aeadMethod "aes-128-gcm" 16 12 false) ⟨.v4 #v[192, 0, 2, 7], 53⟩ address now payload) ∧
      (aeadMethod "aes-128-gcm" 16 12 false).wireOverhead + h.maxDatagramSize + kMaxProxyAddressSize ≤
      kMaxEncryptedUdpDatagramSize ∧
      (∀ payload, decodeProxyAddress (address ++ payload) 0 = .ok ⟨⟨.v4 #v[192, 0, 2, 7], 53⟩, 7⟩) ∧
      ∀ n < 7, (decodeProxyAddress (address.take n) 0).isOk = false :=
  datagram_sizes zeros ⟨ascii "AES-128-GCM", [1], none, 0, 0, false⟩ (by decide) rfl

end ClashNative.DatagramSizes
