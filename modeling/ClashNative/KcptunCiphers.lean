import ClashNative.KcptunPacket
import Mathlib.Logic.Function.Iterate
/-!
# KcptunCiphers — what a codec is created with

The cipher of `KcptunPacketCodec::create`: PBKDF2, the word ciphers, and the name of a setting to its
`Cipher`.  Botan is an argument. Of the settings that have a checksum, `decrypt_packet` gives a payload
exactly for the datagrams that were made from it.
-/
namespace ClashNative.Kcptun

open List

def kMtuLimit : Nat := 1500
def kcpSalt : Bytes := "kcp-go".toUTF8.toList
def kXorSalt : Bytes := "sH3CIVoF#rWLtJo6".toUTF8.toList

/-- `Botan::BlockCipher` of an algorithm: the key first. -/
structure BlockCipher where
  blockSize : Nat
  encrypt : Bytes → Bytes → Bytes

/-- **What Botan provides.**  `salsa20` takes the key and the nonce, AES-128-GCM the key, the nonce and
the text. -/
structure Botan where
  hmacSha1 : Bytes → Bytes → Bytes
  blockCipher : String → Option BlockCipher
  salsa20 : Bytes → Bytes → Nat → UInt8
  sealGcm : Bytes → Bytes → Bytes → Bytes
  openGcm : Bytes → Bytes → Bytes → Option Bytes

/-- **What it promises**: no block is empty, and AES-GCM opens what it has sealed, with its tag behind it.
-/
structure Botan.Lawful (b : Botan) : Prop where
  blocks : ∀ algorithm cipher, b.blockCipher algorithm = some cipher → 0 < cipher.blockSize
  opens : ∀ key nonce plaintext, b.openGcm key nonce (b.sealGcm key nonce plaintext) = some plaintext
  tagged : ∀ key nonce plaintext, (b.sealGcm key nonce plaintext).length = plaintext.length + kAeadTagSize

/-! ## Keys -/

def blockNumber (block : Nat) : Bytes :=
  [UInt8.ofNat (block / 2 ^ 24), UInt8.ofNat (block / 2 ^ 16), UInt8.ofNat (block / 2 ^ 8), UInt8.ofNat block]

/-- The iterations of a block: `u` is the last code, `t` their sum. -/
def pbkdf2Iterations (mac : Bytes → Bytes) : Nat → Bytes → Bytes → Bytes
  | 0, _, t => t
  | n + 1, u, t => pbkdf2Iterations mac n (mac u) (t.zipWith (· ^^^ ·) (mac u))

/-- The blocks from `block` on, of which at most `n` are needed for `length` bytes. -/
def pbkdf2Blocks (mac : Bytes → Bytes) (salt : Bytes) (iterations : Nat) : Nat → Nat → Nat → Bytes
  | 0, _, _ => []
  | n + 1, block, length =>
    if length = 0 then []
    else
      let u := mac (salt ++ blockNumber block)
      let t := (pbkdf2Iterations mac (iterations - 1) u u).take length
      t ++ pbkdf2Blocks mac salt iterations n (block + 1) (length - t.length)

def pbkdf2Sha1 (b : Botan) (password salt : Bytes) (length iterations : Nat) : Bytes :=
  pbkdf2Blocks (b.hmacSha1 password) salt iterations length 1 length

/-! ## Word ciphers -/

def loadBe32 (input : Bytes) (offset : Nat) : UInt32 :=
  (input.getD offset 0).toUInt32 <<< 24 ||| (input.getD (offset + 1) 0).toUInt32 <<< 16 |||
    (input.getD (offset + 2) 0).toUInt32 <<< 8 ||| (input.getD (offset + 3) 0).toUInt32

def storeBe32 (value : UInt32) : Bytes :=
  [(value >>> 24).toUInt8, (value >>> 16).toUInt8, (value >>> 8).toUInt8, value.toUInt8]

structure WordKey where
  k0 : UInt32
  k1 : UInt32
  k2 : UInt32
  k3 : UInt32
  deriving DecidableEq, Repr

def WordKey.at (key : WordKey) (index : UInt32) : UInt32 :=
  match (index &&& 3).toNat with
  | 0 => key.k0
  | 1 => key.k1
  | 2 => key.k2
  | _ => key.k3

def makeWordKey (key : Bytes) : Option WordKey :=
  if key.length ≠ 16 then none else some ⟨loadBe32 key 0, loadBe32 key 4, loadBe32 key 8, loadBe32 key 12⟩

def kDelta : UInt32 := 0x9e3779b9

/-- A round of `tea_encrypt`, over the sum and the two words. -/
def teaRound (key : WordKey) : UInt32 × UInt32 × UInt32 → UInt32 × UInt32 × UInt32
  | (sum, v0, v1) =>
    let sum := sum + kDelta
    let v0 := v0 + (((v1 <<< 4) + key.k0) ^^^ (v1 + sum) ^^^ ((v1 >>> 5) + key.k1))
    let v1 := v1 + (((v0 <<< 4) + key.k2) ^^^ (v0 + sum) ^^^ ((v0 >>> 5) + key.k3))
    (sum, v0, v1)

def xteaRound (key : WordKey) : UInt32 × UInt32 × UInt32 → UInt32 × UInt32 × UInt32
  | (sum, v0, v1) =>
    let v0 := v0 + ((((v1 <<< 4) ^^^ (v1 >>> 5)) + v1) ^^^ (sum + key.at sum))
    let sum := sum + kDelta
    let v1 := v1 + ((((v0 <<< 4) ^^^ (v0 >>> 5)) + v0) ^^^ (sum + key.at (sum >>> 11)))
    (sum, v0, v1)

def wordEncrypt (round : UInt32 × UInt32 × UInt32 → UInt32 × UInt32 × UInt32) (rounds : Nat)
    (input : Bytes) : Bytes :=
  let (_, v0, v1) := round^[rounds] (0, loadBe32 input 0, loadBe32 input 4)
  storeBe32 v0 ++ storeBe32 v1

def teaEncrypt (key : WordKey) : Bytes → Bytes := wordEncrypt (teaRound key) 8
def xteaEncrypt (key : WordKey) : Bytes → Bytes := wordEncrypt (xteaRound key) 32

/-! ## Settings -/

def codecError (message : String) : Error := ⟨.authentication, message⟩

/-- The algorithm of a setting, and how much of the key it is given; AES-256 for a name that is not known.
-/
def blockAlgorithm (crypt : String) : String × Nat :=
  if crypt = "aes-128" then ("AES-128", 16)
  else if crypt = "aes-192" then ("AES-192", 24)
  else if crypt = "blowfish" then ("Blowfish", 32)
  else if crypt = "twofish" then ("Twofish", 32)
  else if crypt = "cast5" then ("CAST-128", 16)
  else if crypt = "3des" then ("3DES", 24)
  else ("AES-256", 32)

def wordCipher (name : String) (encrypt : WordKey → Bytes → Bytes) (pass : Bytes) : Except Error Cipher :=
  match makeWordKey (pass.take 16) with
  | none => .error (codecError ("invalid " ++ name ++ " key"))
  | some key => .ok { kind := .block, blockSize := 8, encryptBlock := encrypt key }

def Cipher.ofPass (b : Botan) (pass : Bytes) (crypt : String) : Except Error Cipher :=
  if crypt = "null" then .ok { kind := .nullCipher }
  else if crypt = "none" then .ok { kind := .none }
  else if crypt = "xor" then .ok { kind := .xorCipher, xorTable := pbkdf2Sha1 b pass kXorSalt kMtuLimit 32 }
  else if crypt = "salsa20" then .ok { kind := .salsa20, salsa20 := b.salsa20 pass }
  else if crypt = "aes-128-gcm" then
    .ok {
      kind := .aesGcm
      sealPacket := fun nonce plaintext => some (b.sealGcm (pass.take 16) nonce plaintext)
      openPacket := b.openGcm (pass.take 16) }
  else if crypt = "tea" then wordCipher "TEA" teaEncrypt pass
  else if crypt = "xtea" then wordCipher "XTEA" xteaEncrypt pass
  else
    match b.blockCipher (blockAlgorithm crypt).1 with
    | none => .error (codecError ("Botan does not provide kcptun cipher " ++ (blockAlgorithm crypt).1))
    | some cipher =>
      .ok { kind := .block, blockSize := cipher.blockSize, encryptBlock := cipher.encrypt (pass.take
        (blockAlgorithm crypt).2) }

def Cipher.create (b : Botan) (key : Bytes) (crypt : String) : Except Error Cipher :=
  Cipher.ofPass b (pbkdf2Sha1 b key kcpSalt 32 4096) crypt

def Cipher.checksummed (c : Cipher) : Bool := decide (c.kind ≠ .nullCipher) && decide (c.kind ≠ .aesGcm)

/-! ## What a setting promises -/

variable {c : Cipher}

theorem Cipher.sound_of_blocks (hblocks : 0 < c.blockSize)
    (hseal : ∀ nonce plaintext, c.sealPacket nonce plaintext = none) :
    c.Sound := by
  refine ⟨hblocks, fun nonce plaintext ciphertext h => ?_, fun nonce plaintext ciphertext h => ?_⟩
  · rw [hseal] at h
    cases h
  · rw [hseal] at h
    cases h

theorem sound_of_wordCipher {name : String} {encrypt : WordKey → Bytes → Bytes} {pass : Bytes}
    (h : wordCipher name encrypt pass = .ok c) : c.Sound := by
  unfold wordCipher at h
  split at h
  · cases h
  · cases h
    exact Cipher.sound_of_blocks (by show 0 < 8; decide) fun _ _ => rfl

variable {crypt : String} {key : Bytes} {b : Botan}

theorem Cipher.sound_of_create (hb : b.Lawful)
    (h : Cipher.create b key crypt = .ok c) : c.Sound := by
  have hsixteen : 0 < 16 := by decide
  unfold Cipher.create at h
  unfold Cipher.ofPass at h
  split at h
  · cases h
    exact sound_of_blocks hsixteen fun _ _ => rfl
  · split at h
    · cases h
      exact sound_of_blocks hsixteen fun _ _ => rfl
    · split at h
      · cases h
        exact sound_of_blocks hsixteen fun _ _ => rfl
      · split at h
        · cases h
          exact sound_of_blocks hsixteen fun _ _ => rfl
        · split at h
          · cases h
            refine ⟨hsixteen, fun nonce plaintext ciphertext hseal => ?_,
              fun nonce plaintext ciphertext hseal => ?_⟩
            · rw [← Option.some.inj hseal]
              exact hb.opens _ nonce plaintext
            · rw [← Option.some.inj hseal]
              exact hb.tagged _ nonce plaintext
          · split at h
            · exact sound_of_wordCipher h
            · split at h
              · exact sound_of_wordCipher h
              · split at h
                · cases h
                · rename_i cipher hcipher
                  cases h
                  exact sound_of_blocks (hb.blocks _ _ hcipher) fun _ _ => rfl

/-! ## Datagrams with a checksum -/

/-- **A datagram carries a payload**: behind the nonce and the checksum, which is its own. -/
structure Carries (c : Cipher) (wire payload : Bytes) : Prop where
  long : kCryptHeaderSize ≤ wire.length
  body : (applyCfb c true wire).drop kCryptHeaderSize = payload
  checksum : getU32 ((applyCfb c true wire).drop kCryptNonceSize) = (crc32Ieee payload).toNat

theorem putU32_getU32 {input : Bytes} (h : 4 ≤ input.length) : putU32 (getU32 input) = input.take 4 := by
  obtain ⟨b0, b1, b2, b3, rest, rfl⟩ : ∃ b0 b1 b2 b3 rest, input = b0 :: b1 :: b2 :: b3 :: rest := by
    match input, h with
    | b0 :: b1 :: b2 :: b3 :: rest, _ => exact ⟨b0, b1, b2, b3, rest, rfl⟩
  have h0 := b0.toNat_lt
  have h1 := b1.toNat_lt
  have h2 := b2.toNat_lt
  have h3 := b3.toNat_lt
  have hbyte : ∀ (b : UInt8) (n : Nat), n % 2 ^ 8 = b.toNat → UInt8.ofNat n = b := fun b n hn =>
    UInt8.toNat_inj.1 (by rw [UInt8.toNat_ofNat', hn])
  simp only [putU32, getU32, byteAt, getD_cons_zero, getD_cons_succ, take_succ_cons, take_zero]
  rw [hbyte b0 _ (by omega), hbyte b1 _ (by omega), hbyte b2 _ (by omega), hbyte b3 _ (by omega)]

section Checksummed

variable {c : Cipher} (hsum : c.checksummed = true)
include hsum

theorem cryptPacket_of_checksummed (random : Nat → UInt8) (payload : Bytes) :
    cryptPacket c (some random) payload =
    applyCfb c false ((List.range kCryptNonceSize).map random ++
      (putU32 (crc32Ieee payload).toNat ++ payload)) := by
  unfold Cipher.checksummed at hsum
  unfold cryptPacket
  split
  · simp [*] at hsum
  · simp [*] at hsum
  · rfl

theorem decryptPacket_of_checksummed (wire : Bytes) : decryptPacket c wire =
    if wire.length < kCryptHeaderSize then []
    else if (crc32Ieee ((applyCfb c true wire).drop kCryptHeaderSize)).toNat ≠ getU32
    ((applyCfb c true wire).drop kCryptNonceSize) then []
    else (applyCfb c true wire).drop kCryptHeaderSize := by
  unfold Cipher.checksummed at hsum
  unfold decryptPacket
  split
  · simp [*] at hsum
  · simp [*] at hsum
  · rfl

variable {wire : Bytes} {payload : Bytes}

theorem decryptPacket_eq_iff (hpayload : payload ≠ []) :
    decryptPacket c wire = payload ↔ Carries c wire payload := by
  rw [decryptPacket_of_checksummed hsum]
  constructor
  · intro h
    split at h
    · exact absurd h.symm hpayload
    · rename_i hlong
      split at h
      · exact absurd h.symm hpayload
      · rename_i hchecksum
        exact ⟨Nat.not_lt.1 hlong, h, by rw [← not_not.1 hchecksum, h]⟩
  · intro h
    rw [if_neg (Nat.not_lt.2 h.long), h.body, h.checksum, if_neg (not_not.2 rfl)]

theorem decryptPacket_eq_nil (h : ∀ payload, payload ≠ [] → ¬ Carries c wire payload) :
    decryptPacket c wire = [] := by
  by_contra hne
  exact h _ hne ((decryptPacket_eq_iff hsum hne).1 rfl)

theorem carries_iff_sent (h : c.Sound) :
    Carries c wire payload ↔ ∃ random, cryptPacket c (some random) payload = wire := by
  simp only [cryptPacket_of_checksummed hsum]
  constructor
  · intro hcarries
    have hlength : (applyCfb c true wire).length = wire.length := applyCfb_length h true wire
    have hlong := hcarries.long
    have hnonce : ((applyCfb c true wire).take kCryptNonceSize).length = kCryptNonceSize := by
      rw [length_take, hlength, kCryptNonceSize, Nat.min_eq_left]
      exact Nat.le_trans (by decide) hlong
    refine ⟨fun i => ((applyCfb c true wire).take kCryptNonceSize).getD i 0, ?_⟩
    have hmap : ((List.range kCryptNonceSize).map fun i =>
      ((applyCfb c true wire).take kCryptNonceSize).getD i 0) =
        (applyCfb c true wire).take kCryptNonceSize := by
      refine ext_getElem (by rw [length_map, length_range, hnonce]) fun i _ hi => ?_
      rw [getElem_map, getElem_range, getD_eq_getElem?_getD, getElem?_eq_getElem hi, Option.getD_some]
    have hsumBytes : putU32 (crc32Ieee payload).toNat =
      ((applyCfb c true wire).drop kCryptNonceSize).take 4 := by
      rw [← hcarries.checksum]
      refine putU32_getU32 ?_
      rw [length_drop, hlength, kCryptNonceSize]
      exact Nat.le_sub_of_add_le hlong
    have hrest : payload = ((applyCfb c true wire).drop kCryptNonceSize).drop 4 := by
      rw [drop_drop]
      exact hcarries.body.symm
    rw [hmap, hsumBytes]
    conv => lhs; rw [hrest]
    rw [take_append_drop, take_append_drop]
    exact applyCfb_applyCfb h true wire
  · rintro ⟨random, rfl⟩
    have hnonce : ((List.range kCryptNonceSize).map random).length = kCryptNonceSize :=
      by rw [length_map, length_range]
    have hplain := applyCfb_applyCfb h false
      ((List.range kCryptNonceSize).map random ++ (putU32 (crc32Ieee payload).toNat ++ payload))
    rw [Bool.not_false] at hplain
    refine ⟨?_, ?_, ?_⟩
    · rw [applyCfb_length h, length_append, hnonce, length_append, putU32_length, ← Nat.add_assoc]
      exact Nat.le_add_right _ _
    · rw [hplain, ← append_assoc]
      exact drop_left' (by rw [length_append, hnonce]; rfl)
    · rw [hplain, drop_left' hnonce, getU32_putU32 (UInt32.toNat_lt _)]

end Checksummed

/-! ## Every setting -/

theorem Cipher.seals_of_create (h : Cipher.create b key crypt = .ok c)
    (hkind : c.kind = .aesGcm) (nonce plaintext : Bytes) : c.sealPacket nonce plaintext ≠ none := by
  have hword : ∀ {name encrypt pass}, wordCipher name encrypt pass = .ok c → c.kind = .block := by
    intro name encrypt pass hc
    unfold wordCipher at hc
    split at hc
    · cases hc
    · cases hc
      rfl
  unfold Cipher.create Cipher.ofPass at h
  split at h
  · cases h
    cases hkind
  · split at h
    · cases h
      cases hkind
    · split at h
      · cases h
        cases hkind
      · split at h
        · cases h
          cases hkind
        · split at h
          · cases h
            exact Option.some_ne_none _
          · split at h
            · rw [hword h] at hkind
              cases hkind
            · split at h
              · rw [hword h] at hkind
                cases hkind
              · split at h
                · cases h
                · cases h
                  cases hkind

theorem cryptPacket_ne_nil (hcreate : Cipher.create b key crypt = .ok c)
    (h : c.Sound) (random : Nat → UInt8) {payload : Bytes} (hpayload : payload ≠ []) :
    cryptPacket c (some random) payload ≠ [] := by
  by_cases hsum : c.checksummed = true
  · rw [cryptPacket_of_checksummed hsum]
    intro hnil
    have hlength := congrArg List.length hnil
    rw [applyCfb_length h, length_append, length_map, length_range, kCryptNonceSize, length_nil] at hlength
    omega
  · unfold Cipher.checksummed at hsum
    cases hkind : c.kind with
    | nullCipher =>
      simp only [cryptPacket, hkind]
      exact hpayload
    | aesGcm =>
      simp only [cryptPacket, hkind]
      cases hseal : c.sealPacket ((List.range kAeadNonceSize).map random) payload with
      | none => exact absurd hseal (Cipher.seals_of_create hcreate hkind _ _)
      | some ciphertext =>
        show ((c.sealPacket ((List.range kAeadNonceSize).map random) payload).map
          ((List.range kAeadNonceSize).map random ++ ·)).getD [] ≠ []
        rw [hseal]
        exact append_ne_nil_of_left_ne_nil (by simp [kAeadNonceSize]) _
    | none => simp [hkind] at hsum
    | block => simp [hkind] at hsum
    | xorCipher => simp [hkind] at hsum
    | salsa20 => simp [hkind] at hsum

/-- **For every setting, key and nonce** a datagram is read back; and where there is a checksum, a payload
is told of exactly the datagrams that carry it, which are those that are made from it, and every other is
refused. -/
theorem packets_read_back {b : Botan} (hb : b.Lawful) {key : Bytes} {crypt : String} {c : Cipher}
    (hcreate : Cipher.create b key crypt = .ok c) :
    (∀ random payload, payload ≠ [] → decryptPacket c (cryptPacket c (some random) payload) = payload) ∧
    (c.checksummed = true → ∀ wire,
      (∀ payload, payload ≠ [] → (decryptPacket c wire = payload ↔ Carries c wire payload)) ∧
      ((∀ payload, payload ≠ [] → ¬ Carries c wire payload) → decryptPacket c wire = []) ∧
      ∀ payload, Carries c wire payload ↔ ∃ random, cryptPacket c (some random) payload = wire) := by
  have hsound := Cipher.sound_of_create hb hcreate
  refine ⟨fun random payload hpayload => ?_,
    fun hsum wire => ⟨fun payload hpayload => ?_, fun hnone => ?_, fun payload => ?_⟩⟩
  · exact decryptPacket_cryptPacket hsound (cryptPacket_ne_nil hcreate hsound random hpayload)
  · exact decryptPacket_eq_iff hsum hpayload
  · exact decryptPacket_eq_nil hsum hnone
  · exact carries_iff_sent hsum hsound

def emptyTag : Botan where
  hmacSha1 _ _ := List.replicate 20 0
  blockCipher _ := none
  salsa20 _ _ _ := 0
  sealGcm _ _ plaintext := plaintext ++ List.replicate kAeadTagSize 0
  openGcm _ _ ciphertext := some (ciphertext.take (ciphertext.length - kAeadTagSize))

theorem emptyTag_lawful : emptyTag.Lawful where
  blocks _ _ h := nomatch h
  opens key nonce plaintext := by
    show some ((plaintext ++ List.replicate kAeadTagSize 0).take
      ((plaintext ++ List.replicate kAeadTagSize 0).length - kAeadTagSize)) = _
    rw [length_append, length_replicate, Nat.add_sub_cancel, take_left']
    rfl
  tagged key nonce plaintext := by
    show (plaintext ++ List.replicate kAeadTagSize 0).length = _
    rw [length_append, length_replicate]

theorem iterations_zeros (u : Bytes) : ∀ n,
    pbkdf2Iterations (fun _ => List.replicate 20 0) n u (List.replicate 20 0) = List.replicate 20 0
  | 0 => rfl
  | n + 1 => iterations_zeros _ n

theorem blocks_zeros (salt : Bytes) (iterations : Nat) : ∀ n block length, length ≤ n →
    pbkdf2Blocks (fun _ => List.replicate 20 0) salt iterations n block length = List.replicate length 0
  | 0, _, _, h => by rw [Nat.le_zero.1 h]; rfl
  | n + 1, block, length, h => by
    unfold pbkdf2Blocks
    split
    · rename_i hzero
      rw [hzero]
      rfl
    · dsimp only
      rw [iterations_zeros, take_replicate, length_replicate, blocks_zeros salt iterations n _ _ (by omega),
        ← replicate_add,
        Nat.add_sub_cancel' (Nat.min_le_left _ _)]

/-- TEA with a key of zeros. -/
def zeroTea : Cipher := { kind := .block, blockSize := 8, encryptBlock := teaEncrypt ⟨0, 0, 0, 0⟩ }

theorem zeroTea_created : Cipher.create emptyTag [] "tea" = .ok zeroTea := by
  have hpass : pbkdf2Sha1 emptyTag [] kcpSalt 32 4096 = List.replicate 32 0 :=
    blocks_zeros _ _ _ _ _ (Nat.le_refl _)
  unfold Cipher.create
  rw [hpass]
  rfl

/-- The setting `tea`: a payload comes back, and a datagram of three bytes is refused. -/
theorem packets_read_back_tea :
    decryptPacket zeroTea (cryptPacket zeroTea (some fun _ => 7) [1, 2]) = [1, 2] ∧
    decryptPacket zeroTea [1, 2, 3] = [] := by
  obtain ⟨hback, hsum⟩ := packets_read_back emptyTag_lawful zeroTea_created
  exact ⟨hback _ _ (cons_ne_nil _ _), (hsum rfl [1, 2, 3]).2.1 fun _ _ hcarries => absurd hcarries.long
    (by decide)⟩

end ClashNative.Kcptun
