import ClashNative.CoreTypes
import Mathlib.Algebra.GroupWithZero.Nat
import Mathlib.Data.List.Basic
/-!
# KcptunPacket — the datagrams of kcptun

`crypt_packet` and `decrypt_packet` of `kcptun_packet_codec.cpp`.  What Botan computes, and TEA and XTEA
with it, is an argument (`Cipher`): CFB only ever encrypts blocks, so a datagram is read back whatever the
block cipher is.
-/
namespace ClashNative.Kcptun

open List

abbrev Bytes := List UInt8

def kMaximumDatagramSize : Nat := 1500
def kCryptNonceSize : Nat := 16
def kCryptHeaderSize : Nat := 20
def kAeadNonceSize : Nat := 12
def kAeadTagSize : Nat := 16

def kInitialVector : Bytes := [167, 115, 79, 156, 18, 172, 27, 1, 164, 21, 242, 193, 252, 120, 230, 107]

/-! ## Numbers on the wire -/

def putU16 (value : Nat) : Bytes := [UInt8.ofNat value, UInt8.ofNat (value / 2 ^ 8)]

def putU32 (value : Nat) : Bytes :=
  [UInt8.ofNat value, UInt8.ofNat (value / 2 ^ 8), UInt8.ofNat (value / 2 ^ 16), UInt8.ofNat (value / 2 ^ 24)]

def byteAt (input : Bytes) (i : Nat) : Nat := (input.getD i 0).toNat

def getU16 (input : Bytes) : Nat := byteAt input 0 + byteAt input 1 * 2 ^ 8

def getU32 (input : Bytes) : Nat :=
  byteAt input 0 + byteAt input 1 * 2 ^ 8 + byteAt input 2 * 2 ^ 16 + byteAt input 3 * 2 ^ 24

variable {value : Nat}

theorem getU16_putU16 (h : value < 2 ^ 16) (rest : Bytes) : getU16 (putU16 value ++ rest) = value := by
  simp only [getU16, putU16, byteAt, cons_append, getD_cons_zero, getD_cons_succ, UInt8.toNat_ofNat']
  omega

theorem getU32_putU32 (h : value < 2 ^ 32) (rest : Bytes) : getU32 (putU32 value ++ rest) = value := by
  simp only [getU32, putU32, byteAt, cons_append, getD_cons_zero, getD_cons_succ, UInt8.toNat_ofNat']
  omega

@[simp] theorem putU16_length (value : Nat) : (putU16 value).length = 2 := rfl
@[simp] theorem putU32_length (value : Nat) : (putU32 value).length = 4 := rfl

/-! ## The checksum -/

def crcEntry (index : UInt32) : UInt32 :=
  (List.range 8).foldl (fun value _ => if value &&& 1 ≠ 0 then
    (value >>> 1) ^^^ 0xedb88320 else value >>> 1) index

def crc32Ieee (input : Bytes) : UInt32 :=
  input.foldl (fun value byte => crcEntry ((value ^^^ byte.toUInt32) &&& 0xff) ^^^ (value >>> 8))
    0xffffffff ^^^ 0xffffffff

/-! ## Ciphers -/

inductive CipherKind
  | nullCipher | none | block | xorCipher | salsa20 | aesGcm
  deriving DecidableEq, Repr

/-- What a codec encrypts with: of each kind, the part that it uses.  `sealPacket` and `openPacket` are
AES-128-GCM with the codec's key, `salsa20` gives the key stream of a nonce. -/
structure Cipher where
  kind : CipherKind
  blockSize : Nat := 16
  encryptBlock : Bytes → Bytes := id
  xorTable : Bytes := []
  salsa20 : Bytes → Nat → UInt8 := fun _ _ => 0
  sealPacket : Bytes → Bytes → Option Bytes := fun _ _ => Option.none
  openPacket : Bytes → Bytes → Option Bytes := fun _ _ => Option.none

/-- **What the ciphers promise**: blocks are not empty, and what AES-GCM has sealed it opens, with its tag
behind it. -/
structure Cipher.Sound (c : Cipher) : Prop where
  blocks : 0 < c.blockSize
  opens : ∀ nonce plaintext ciphertext, c.sealPacket nonce plaintext = some ciphertext →
    c.openPacket nonce ciphertext = some plaintext
  tagged : ∀ nonce plaintext ciphertext, c.sealPacket nonce plaintext = some ciphertext →
    ciphertext.length = plaintext.length + kAeadTagSize

def xorWith (key : Nat → UInt8) (data : Bytes) : Bytes := data.mapIdx fun i byte => byte ^^^ key i

@[simp] theorem xorWith_length (key : Nat → UInt8) (data : Bytes) : (xorWith key data).length = data.length :=
  length_mapIdx

theorem xorWith_xorWith (key : Nat → UInt8) (data : Bytes) : xorWith key (xorWith key data) = data := by
  unfold xorWith
  apply ext_getElem
  · simp
  · intro i h _
    rw [getElem_mapIdx, getElem_mapIdx, UInt8.xor_assoc, UInt8.xor_self, UInt8.xor_zero]

/-- The loop of `apply_cfb`, of at most `n` blocks. -/
def cfbBlocks (c : Cipher) (decrypt : Bool) : Nat → Bytes → Bytes → Bytes
  | 0, _, _ => []
  | n + 1, keystream, data =>
    if data = [] then []
    else
      let next := data.take c.blockSize
      let output := xorWith (keystream.getD · 0) next
      output ++ cfbBlocks c decrypt n
        (if next.length = c.blockSize then c.encryptBlock (if decrypt then next else output) else keystream)
        (data.drop c.blockSize)

/-- `apply_cfb`, of every kind that it is called for. -/
def applyCfb (c : Cipher) (decrypt : Bool) (data : Bytes) : Bytes :=
  match c.kind with
  | .xorCipher => xorWith (fun i => c.xorTable.getD (i % c.xorTable.length) 0) data
  | .salsa20 => if data.length < 8 then data else data.take 8 ++ xorWith (c.salsa20 (data.take 8)) (data.drop 8)
  | .block => cfbBlocks c decrypt data.length (c.encryptBlock (kInitialVector.take c.blockSize)) data
  | _ => data

/-- `random_bytes` of a size: a stream that it is taken from, unless it fails. -/
def randomBytes (random : Option (Nat → UInt8)) (size : Nat) : Option Bytes := random.map fun r =>
    (List.range size).map r

def cryptPacket (c : Cipher) (random : Option (Nat → UInt8)) (plaintext : Bytes) : Bytes :=
  match c.kind with
  | .nullCipher => plaintext
  | .aesGcm =>
    match randomBytes random kAeadNonceSize with
    | Option.none => []
    | some nonce => ((c.sealPacket nonce plaintext).map (nonce ++ ·)).getD []
  | _ =>
    match randomBytes random kCryptNonceSize with
    | Option.none => []
    | some nonce => applyCfb c false (nonce ++ (putU32 (crc32Ieee plaintext).toNat ++ plaintext))

def decryptPacket (c : Cipher) (wire : Bytes) : Bytes :=
  match c.kind with
  | .nullCipher => wire
  | .aesGcm =>
    if wire.length < kAeadNonceSize + kAeadTagSize then []
    else (c.openPacket (wire.take kAeadNonceSize) (wire.drop kAeadNonceSize)).getD []
  | _ =>
    if wire.length < kCryptHeaderSize then []
    else
      let output := applyCfb c true wire
      if (crc32Ieee (output.drop kCryptHeaderSize)).toNat ≠ getU32 (output.drop kCryptNonceSize) then []
      else output.drop kCryptHeaderSize

/-! ## What is encrypted is read back -/

@[simp] theorem cfbBlocks_length (c : Cipher) (hblocks : 0 < c.blockSize) (decrypt : Bool) :
    ∀ (n : Nat) (keystream data : Bytes), data.length ≤ n →
    (cfbBlocks c decrypt n keystream data).length = data.length
  | 0, _, data, h => by simpa [cfbBlocks] using (Nat.le_zero.1 h).symm
  | n + 1, keystream, data, h => by
    unfold cfbBlocks
    split
    · rename_i hempty
      rw [hempty]
    · have hdrop : (data.drop c.blockSize).length ≤ n := by
        rw [length_drop]
        omega
      rw [length_append, xorWith_length, cfbBlocks_length c hblocks decrypt n _ _ hdrop,
        length_take, length_drop]
      omega

/-- **CFB is undone with the same block cipher**, in either direction: the key stream of a block is what
the ciphertext before it encrypts to. -/
theorem cfbBlocks_cfbBlocks (c : Cipher) (hblocks : 0 < c.blockSize) (decrypt : Bool) :
    ∀ (n : Nat) (keystream data : Bytes),
    data.length ≤ n → cfbBlocks c (!decrypt) n keystream (cfbBlocks c decrypt n keystream data) = data
  | 0, _, data, h => by simpa [cfbBlocks] using (length_eq_zero_iff.1 (Nat.le_zero.1 h)).symm
  | n + 1, keystream, data, h => by
    by_cases hempty : data = []
    · rw [hempty]
      rfl
    · have hdrop : (data.drop c.blockSize).length ≤ n := by
        rw [length_drop]
        omega
      have hlength := cfbBlocks_length c hblocks decrypt n
      rw [show cfbBlocks c decrypt (n + 1) keystream data = xorWith (keystream.getD · 0)
        (data.take c.blockSize) ++
        cfbBlocks c decrypt n (if (data.take c.blockSize).length = c.blockSize then
          c.encryptBlock (if decrypt then data.take c.blockSize else
            xorWith (keystream.getD · 0) (data.take c.blockSize))
          else keystream) (data.drop c.blockSize) from if_neg hempty]
      generalize hk : (if (data.take c.blockSize).length = c.blockSize then
        c.encryptBlock (if decrypt then data.take c.blockSize else
          xorWith (keystream.getD · 0) (data.take c.blockSize))
        else keystream) = keystream'
      have hrest := hlength keystream' _ hdrop
      generalize hw : cfbBlocks c decrypt n keystream' (data.drop c.blockSize) = rest at hrest
      have hout : (xorWith (keystream.getD · 0) (data.take c.blockSize)).length =
        (data.take c.blockSize).length :=
        xorWith_length ..
      -- Only the last block is short, and nothing follows it.
      have hsplit : (xorWith (keystream.getD · 0) (data.take c.blockSize) ++ rest).take c.blockSize =
          xorWith (keystream.getD · 0) (data.take c.blockSize) ∧
          (xorWith (keystream.getD · 0) (data.take c.blockSize) ++ rest).drop c.blockSize = rest := by
        rw [length_take] at hout
        rw [length_drop] at hrest
        by_cases hfull : c.blockSize ≤ data.length
        · exact ⟨take_left' (by omega), drop_left' (by omega)⟩
        · have hnil : rest = [] := length_eq_zero_iff.1 (by omega)
          rw [hnil, append_nil]
          exact ⟨take_of_length_le (by omega), drop_of_length_le (by omega)⟩
      have hne : ¬ xorWith (keystream.getD · 0) (data.take c.blockSize) ++ rest = [] := by
        intro hnil
        have hzero := congrArg List.length hnil
        rw [length_append, hout, length_take] at hzero
        have hpos := length_pos_iff.2 hempty
        change _ = 0 at hzero
        omega
      -- What one direction feeds back as its input, the other has as its output.
      have hfeedback : (if (!decrypt) = true then xorWith (keystream.getD · 0) (data.take c.blockSize) else
        data.take c.blockSize) =
          if decrypt = true then data.take c.blockSize else
            xorWith (keystream.getD · 0) (data.take c.blockSize) := by
        cases decrypt <;> rfl
      unfold cfbBlocks
      rw [if_neg hne]
      dsimp only
      rw [hsplit.1, hsplit.2, xorWith_xorWith, hout, hfeedback, hk, ← hw,
        cfbBlocks_cfbBlocks c hblocks decrypt n _ _ hdrop,
        take_append_drop]

variable {c : Cipher}

theorem applyCfb_length (h : c.Sound) (decrypt : Bool) (data : Bytes) :
    (applyCfb c decrypt data).length = data.length := by
  unfold applyCfb
  split
  · exact xorWith_length ..
  · split
    · rfl
    · rw [length_append, xorWith_length, ← length_append, take_append_drop]
  · exact cfbBlocks_length c h.blocks decrypt _ _ _ (Nat.le_refl _)
  · rfl

theorem applyCfb_applyCfb (h : c.Sound) (decrypt : Bool) (data : Bytes) :
    applyCfb c (!decrypt) (applyCfb c decrypt data) = data := by
  have hlength := applyCfb_length h decrypt data
  cases hkind : c.kind with
  | xorCipher =>
    simp only [applyCfb, hkind]
    exact xorWith_xorWith ..
  | salsa20 =>
    simp only [applyCfb, hkind] at hlength ⊢
    by_cases hshort : data.length < 8
    · rw [if_pos hshort, if_pos hshort]
    · rw [if_neg hshort] at hlength ⊢
      have height : (data.take 8).length = 8 := by
        rw [length_take]
        omega
      rw [hlength, if_neg hshort, take_left' height, drop_left' height, xorWith_xorWith, take_append_drop]
  | block =>
    simp only [applyCfb, hkind] at hlength ⊢
    rw [hlength]
    exact cfbBlocks_cfbBlocks c h.blocks decrypt _ _ _ (Nat.le_refl _)
  | nullCipher => simp only [applyCfb, hkind]
  | none => simp only [applyCfb, hkind]
  | aesGcm => simp only [applyCfb, hkind]

variable {random : Option (Nat → UInt8)}

@[simp] theorem randomBytes_length {size : Nat} {nonce : Bytes}
    (h : randomBytes random size = some nonce) : nonce.length = size := by
  cases random with
  | none => cases h
  | some r =>
    cases h
    simp

theorem decryptPacket_cryptPacket (h : c.Sound) {plaintext : Bytes}
    (hsent : cryptPacket c random plaintext ≠ []) :
    decryptPacket c (cryptPacket c random plaintext) = plaintext := by
  have hchecked : ∀ nonce : Bytes, nonce.length = kCryptNonceSize →
      let wire := applyCfb c false (nonce ++ (putU32 (crc32Ieee plaintext).toNat ++ plaintext))
      (if wire.length < kCryptHeaderSize then []
        else
          let output := applyCfb c true wire
          if (crc32Ieee (output.drop kCryptHeaderSize)).toNat ≠ getU32 (output.drop kCryptNonceSize) then []
          else output.drop kCryptHeaderSize) = plaintext := by
    intro nonce hnonce
    have hbody : (nonce ++ (putU32 (crc32Ieee plaintext).toNat ++ plaintext)).drop kCryptHeaderSize =
      plaintext := by
      rw [← append_assoc]
      exact drop_left' (by rw [length_append, hnonce]; rfl)
    have hsum : (nonce ++ (putU32 (crc32Ieee plaintext).toNat ++ plaintext)).drop kCryptNonceSize =
        putU32 (crc32Ieee plaintext).toNat ++ plaintext := drop_left' hnonce
    dsimp only
    rw [applyCfb_length h, show applyCfb c true _ = _ from applyCfb_applyCfb h false _, hbody, hsum,
      getU32_putU32 (UInt32.toNat_lt _),
      if_neg (by rw [length_append, hnonce, length_append, putU32_length, kCryptNonceSize,
        kCryptHeaderSize]; omega),
      if_neg (fun hne => hne rfl)]
  unfold cryptPacket at hsent ⊢
  unfold decryptPacket
  cases hkind : c.kind with
  | nullCipher => rfl
  | aesGcm =>
    rw [hkind] at hsent
    dsimp only at hsent ⊢
    split at hsent
    · exact absurd rfl hsent
    · rename_i nonce hnonce
      cases hseal : c.sealPacket nonce plaintext with
      | none =>
        rw [hseal] at hsent
        exact absurd rfl hsent
      | some ciphertext =>
        have hsize := randomBytes_length hnonce
        have htag := h.tagged _ _ _ hseal
        change (if (nonce ++ ciphertext).length < kAeadNonceSize + kAeadTagSize then [] else
          (c.openPacket ((nonce ++ ciphertext).take kAeadNonceSize)
            ((nonce ++ ciphertext).drop kAeadNonceSize)).getD []) = _
        rw [if_neg (by rw [length_append]; omega), take_left' hsize, drop_left' hsize, h.opens _ _ _ hseal]
        rfl
  | none | block | xorCipher | salsa20 =>
    rw [hkind] at hsent
    dsimp only at hsent ⊢
    split at hsent
    · exact absurd rfl hsent
    · rename_i nonce hnonce
      exact hchecked nonce (randomBytes_length hnonce)

end ClashNative.Kcptun
