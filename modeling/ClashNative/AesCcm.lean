import ClashNative.Ccm
import Mathlib.Data.List.GetD
/-!
# AesCcm — AES-CCM of the classic Shadowsocks methods

`aes_ccm_crypt` (`crypto.cpp`) seals and opens in one routine.  AES is a function of the key and the
block; what the routine makes of a message is the CCM of RFC 3610 with tags of 16 and lengths of 3 bytes.
-/
namespace ClashNative.AesCcm

open Wire List

abbrev Bytes := List UInt8

inductive CcmError
  | configuration | authentication
  deriving DecidableEq, Repr

section Routine

-- `AES_encrypt` under the key schedule at hand
variable (aes : Block → Block) (nonce : Bytes)

def threeBytes (n : Nat) : Bytes := [UInt8.ofNat (n >>> 16), UInt8.ofNat (n >>> 8), UInt8.ofNat n]

/-- `counter` with a block counter in its last three bytes. -/
def counter (n : Nat) : Block := Block.ofBytes (2 :: (nonce ++ threeBytes n))

def firstBlock (size : Nat) : Block := Block.ofBytes
    (UInt8.ofNat (((16 - 2) / 2) <<< 3 ||| 2) :: (nonce ++ threeBytes size))

/-- The loop from `offset` on, over what is left of the input, of at most `n` blocks: the output and the
MAC. -/
def cryptBlocks (encrypt : Bool) : Nat → Nat → Bytes → Block → Bytes × Block
  | 0, _, _, mac => ([], mac)
  | n + 1, offset, rest, mac =>
    if rest = [] then ([], mac)
    else
      let inputBlock := rest.take 16
      let block := aes (counter nonce (1 + offset / 16))
      let output := inputBlock.mapIdx fun index byte => byte ^^^ block.toList.getD index 0
      let mac := aes (mac.xor (Block.ofBytes (if encrypt then inputBlock else output)))
      let done := cryptBlocks encrypt n (offset + 16) (rest.drop 16) mac
      (output ++ done.1, done.2)

end Routine

def aesCcmCrypt (aes : Bytes → Block → Block) (key nonce input : Bytes)
    (encrypt : Bool) : Except CcmError Bytes :=
  if (key.length ≠ 16 ∧ key.length ≠ 24 ∧ key.length ≠ 32) ∨ nonce.length ≠ 12 ∨ 0xFFFFFF < input.length ∨
      (encrypt = false ∧ input.length < 16) then .error .configuration
  else
    let size := if encrypt then input.length else input.length - 16
    let (output, mac) := cryptBlocks (aes key) nonce encrypt size 0 (input.take size)
      (aes key (firstBlock nonce size))
    let mac := mac.xor (aes key (counter nonce 0))
    if encrypt = false ∧ mac.toList ≠ input.drop size then .error .authentication
    else if encrypt then .ok (output ++ mac.toList)
    else .ok output

/-! ### The routine is RFC 3610 -/

/-- **The CCM of the methods**: tags of 16 bytes, lengths of 3. -/
def rfc (aes : Block → Block) (nonce : Bytes) : Ccm := ⟨aes, 16, 3, nonce⟩

section Rfc

variable {aes : Block → Block} {nonce : Bytes}

theorem threeBytes_eq (n : Nat) : threeBytes n = Ccm.bigEndian 3 n := by
  simp [threeBytes, Ccm.bigEndian, Nat.shiftRight_eq_div_pow]

variable (aes) in
theorem counter_eq (n : Nat) : counter nonce n = (rfc aes nonce).a n := by
  rw [counter, threeBytes_eq]
  rfl

variable (aes) in
theorem firstBlock_eq (size : Nat) : firstBlock nonce size = (rfc aes nonce).b₀ size := by
  have hflags : UInt8.ofNat (((16 - 2) / 2) <<< 3 ||| 2) = UInt8.ofNat (8 * ((16 - 2) / 2) + (3 - 1)) :=
    by decide
  rw [firstBlock, threeBytes_eq, hflags]
  rfl

theorem ofBytes_take (bytes : Bytes) : Block.ofBytes (bytes.take 16) = Block.ofBytes bytes := by
  refine Vector.ext fun i hi => ?_
  simp [Block.ofBytes]

/-- **The loop**: the output is the input under the key stream, and the MAC goes over the plaintext,
whichever of the two that is. -/
theorem cryptBlocks_eq (encrypt : Bool) : ∀ (n i : Nat) (rest : Bytes) (mac : Block), rest.length ≤ n →
    cryptBlocks aes nonce encrypt n (16 * i) rest mac =
      ((rfc aes nonce).mask i rest, (rfc aes nonce).mac mac (if encrypt then rest else
        (rfc aes nonce).mask i rest))
  | 0, i, rest, mac, h => by
    obtain rfl := length_eq_zero_iff.1 (Nat.le_zero.1 h)
    simp [cryptBlocks]
  | n + 1, i, rest, mac, h => by
    rw [cryptBlocks]
    by_cases hempty : rest = []
    · simp [hempty]
    · rw [if_neg hempty]
      dsimp only
      have hpos := length_pos_iff.2 hempty
      have ih := fun mac => cryptBlocks_eq encrypt n (i + 1) (rest.drop 16) mac (by rw [length_drop]; omega)
      have hstream : aes (counter nonce (1 + 16 * i / 16)) = (rfc aes nonce).s (i + 1) := by
        rw [counter_eq aes, Nat.mul_div_cancel_left i (by decide), Nat.add_comm]
        rfl
      rw [hstream, ← Nat.mul_succ, ih, ← Ccm.mask_step]
      refine congrArg (Prod.mk _) ?_
      cases encrypt with
      | true =>
        rw [if_pos rfl, if_pos rfl, if_pos rfl, Ccm.mac_step mac hempty, ofBytes_take]
        rfl
      | false =>
        have hmask : (rfc aes nonce).mask i rest ≠ [] := ne_nil_of_length_pos (by rwa [Ccm.length_mask])
        have hdrop : ((rfc aes nonce).mask i rest).drop 16 = (rfc aes nonce).mask (i + 1) (rest.drop 16) := by
          by_cases hshort : rest.length ≤ 16
          · rw [drop_eq_nil_of_le (by rwa [Ccm.length_mask]), drop_eq_nil_of_le hshort]
            rfl
          · rw [Ccm.mask_step, drop_left' (by simp; omega)]
        have hhead : Block.ofBytes ((rest.take 16).mapIdx fun index byte => byte ^^^
          ((rfc aes nonce).s (i + 1)).toList.getD index 0) =
            Block.ofBytes ((rfc aes nonce).mask i rest) := by
          by_cases hshort : rest.length ≤ 16
          · rw [Ccm.mask_step, drop_eq_nil_of_le hshort]
            exact congrArg Block.ofBytes (append_nil _).symm
          · rw [← ofBytes_take ((rfc aes nonce).mask i rest), Ccm.mask_step, take_left' (by simp; omega)]
        rw [if_neg Bool.false_ne_true, if_neg Bool.false_ne_true, if_neg Bool.false_ne_true,
          Ccm.mac_step mac hmask, hhead, hdrop]
        rfl

end Rfc

section Crypt

variable {aes : Bytes → Block → Block} {key nonce : Bytes}

def Accepts (key nonce : Bytes) : Prop :=
  (key.length = 16 ∨ key.length = 24 ∨ key.length = 32) ∧ nonce.length = 12

theorem aesCcmCrypt_seals (plaintext ciphertext : Bytes) :
    aesCcmCrypt aes key nonce plaintext true = .ok ciphertext ↔
    Accepts key nonce ∧ plaintext.length ≤ 0xFFFFFF ∧ ciphertext = (rfc (aes key) nonce).sealed plaintext := by
  unfold aesCcmCrypt Accepts
  split
  · rename_i hrefused
    refine iff_of_false nofun fun h => ?_
    simp only [Bool.true_eq_false, false_and, or_false] at hrefused
    omega
  · rename_i hfine
    simp only [Bool.true_eq_false, false_and, or_false] at hfine
    dsimp only
    rw [if_pos rfl, take_length, show cryptBlocks (aes key) nonce true plaintext.length 0 plaintext _ = _ from
      cryptBlocks_eq true plaintext.length 0 plaintext _ (Nat.le_refl _), if_pos rfl,
      if_neg (fun h => Bool.noConfusion h.1), if_pos rfl]
    have hsealed : (rfc (aes key) nonce).mask 0 plaintext ++
      (((rfc (aes key) nonce).mac (aes key (firstBlock nonce plaintext.length))
        plaintext).xor (aes key (counter nonce 0))).toList = (rfc (aes key) nonce).sealed plaintext := by
      rw [firstBlock_eq (aes key), counter_eq (aes key), Ccm.sealed, Ccm.u, take_of_length_le (by simp [rfc])]
      rfl
    rw [hsealed, Except.ok.injEq, eq_comm]
    exact ⟨fun h => ⟨by omega, by omega, h⟩, fun h => h.2.2⟩

theorem aesCcmCrypt_opens (input plaintext : Bytes) : aesCcmCrypt aes key nonce input false = .ok plaintext ↔
    Accepts key nonce ∧ input.length ≤ 0xFFFFFF ∧ input = (rfc (aes key) nonce).sealed plaintext := by
  unfold aesCcmCrypt Accepts
  split
  · rename_i hrefused
    refine iff_of_false (fun h => by cases h) fun h => ?_
    have hlength := congrArg List.length h.2.2
    rw [Ccm.length_sealed rfl] at hlength
    simp only [true_and] at hrefused
    omega
  · rename_i hfine
    simp only [true_and] at hfine
    have hlong : 16 ≤ input.length := by omega
    dsimp only
    rw [if_neg Bool.false_ne_true, show cryptBlocks (aes key) nonce false
      (input.length - 16) 0 (input.take (input.length - 16)) _ = _ from
      cryptBlocks_eq false (input.length - 16) 0 _ _ (by rw [length_take]; omega), if_neg Bool.false_ne_true]
    generalize hplain : (rfc (aes key) nonce).mask 0 (input.take (input.length - 16)) = output
    have hlength : output.length = input.length - 16 := by
      rw [← hplain, Ccm.length_mask, length_take]
      omega
    have htag : (((rfc (aes key) nonce).mac (aes key (firstBlock nonce (input.length - 16))) output).xor
        (aes key (counter nonce 0))).toList = (rfc (aes key) nonce).u output := by
      rw [firstBlock_eq (aes key), counter_eq (aes key), Ccm.u, take_of_length_le (by simp [rfc]), ← hlength]
      rfl
    have hinput : (rfc (aes key) nonce).mask 0 output = input.take (input.length - 16) :=
      by rw [← hplain, Ccm.mask_mask]
    rw [htag]
    by_cases hmatch : (rfc (aes key) nonce).u output = input.drop (input.length - 16)
    · rw [if_neg (fun h => h.2 hmatch), if_neg Bool.false_ne_true, Except.ok.injEq]
      refine ⟨fun h => ⟨by omega, by omega, ?_⟩, fun h => ?_⟩
      · rw [← h, Ccm.sealed, hinput, hmatch, take_append_drop]
      · have hseal := h.2.2
        have hsize : plaintext.length = input.length - 16 := by
          rw [hseal, Ccm.length_sealed rfl, Nat.add_sub_cancel]
        have htake : input.take (input.length - 16) = (rfc (aes key) nonce).mask 0 plaintext := by
          rw [hseal, Ccm.length_sealed rfl, Nat.add_sub_cancel, Ccm.sealed, take_left' (Ccm.length_mask ..)]
        rw [← hplain, htake, Ccm.mask_mask]
    · rw [if_pos ⟨rfl, hmatch⟩]
      refine iff_of_false (fun h => by cases h) fun h => hmatch ?_
      have hseal := h.2.2
      have htake : input.take (input.length - 16) = (rfc (aes key) nonce).mask 0 plaintext := by
        rw [hseal, Ccm.length_sealed rfl, Nat.add_sub_cancel, Ccm.sealed, take_left' (Ccm.length_mask ..)]
      rw [htake, Ccm.mask_mask] at hplain
      rw [← hplain]
      conv_rhs => rw [hseal, Ccm.length_sealed rfl, Nat.add_sub_cancel, Ccm.sealed,
        drop_left' (Ccm.length_mask ..)]

theorem counter_inj (h : nonce.length = 12) {i j : Nat} (hi : i < 2 ^ 24) (hj : j < 2 ^ 24)
    (heq : counter nonce i = counter nonce j) :
    i = j := by
  have hbyte : ∀ k < 3, (threeBytes i).getD k 0 = (threeBytes j).getD k 0 := fun k hk => by
    have hget := congrArg (fun block : Block => block.toList.getD (13 + k) 0) heq
    have hfront : ∀ n, ((counter nonce n).toList.getD (13 + k) 0) = (threeBytes n).getD k 0 := fun n => by
      rw [counter, Block.getD_ofBytes _ (by omega), show 13 + k = nonce.length + k + 1 by omega, getD_cons_succ,
        getD_append_right _ _ _ _ (Nat.le_add_right _ _), Nat.add_sub_cancel_left]
    simpa only [hfront] using hget
  have h0 := congrArg UInt8.toNat (hbyte 0 (by decide))
  have h1 := congrArg UInt8.toNat (hbyte 1 (by decide))
  have h2 := congrArg UInt8.toNat (hbyte 2 (by decide))
  simp only [threeBytes, getD_cons_zero, getD_cons_succ, UInt8.toNat_ofNat',
    Nat.shiftRight_eq_div_pow] at h0 h1 h2
  omega

end Crypt

/-! ### What is sealed is opened -/

/-- **The routine is sound** for a plaintext and its ciphertext: opening gives the plaintext back, both
are as RFC 3610 has them, no counter is used twice, and whatever is opened carries its tag. -/
structure Sound (aes : Bytes → Block → Block) (key nonce plaintext ciphertext : Bytes) : Prop where
  returns : aesCcmCrypt aes key nonce ciphertext false = .ok plaintext
  conforms : ciphertext = (rfc (aes key) nonce).mask 0 plaintext ++ (rfc (aes key) nonce).u plaintext
  counters : ((List.range (Ccm.blocks plaintext + 1)).map (rfc (aes key) nonce).a).Nodup
  tagged : ∀ input output, aesCcmCrypt aes key nonce input false = .ok output →
    input.drop (input.length - 16) = (rfc (aes key) nonce).u output

/-- **What is sealed is opened exactly up to the limit for what is opened**, which counts the tag. -/
theorem ccm_sound_iff (aes : Bytes → Block → Block) (key nonce plaintext ciphertext : Bytes)
    (h : aesCcmCrypt aes key nonce plaintext true = .ok ciphertext) :
    Sound aes key nonce plaintext ciphertext ↔ plaintext.length ≤ 0xFFFFFF - 16 := by
  obtain ⟨haccepts, hlength, hsealed⟩ := (aesCcmCrypt_seals ..).1 h
  have hlong : ciphertext.length = plaintext.length + 16 := by rw [hsealed, Ccm.length_sealed rfl]
  refine ⟨fun hsound => ?_, fun hle => ⟨?_, hsealed, ?_, fun input output hopen => ?_⟩⟩
  · have hopened := ((aesCcmCrypt_opens ..).1 hsound.returns).2.1
    omega
  · exact (aesCcmCrypt_opens ..).2 ⟨haccepts, by omega, hsealed⟩
  · refine List.Nodup.map_on (fun i hi j hj heq => ?_) nodup_range
    rw [← counter_eq, ← counter_eq] at heq
    rw [mem_range, Ccm.blocks] at hi hj
    exact counter_inj haccepts.2 (by omega) (by omega) heq
  · have hseal := ((aesCcmCrypt_opens ..).1 hopen).2.2
    rw [hseal, Ccm.length_sealed rfl, Nat.add_sub_cancel, Ccm.sealed, drop_left' (Ccm.length_mask ..)]

theorem ccm_sound_three_bytes : ∃ ciphertext, aesCcmCrypt (fun _ block => block) (List.replicate 16 1)
    (List.replicate 12 2) [1, 2, 3] true = .ok ciphertext ∧
    Sound (fun _ block => block) (List.replicate 16 1) (List.replicate 12 2) [1, 2, 3] ciphertext :=
  ⟨_, rfl, (ccm_sound_iff (fun _ block => block) (List.replicate 16 1) (List.replicate 12 2) [1,
    2, 3] _ rfl).2 (by decide)⟩

/-- **The longest plaintext that is sealed is not opened again.** -/
theorem longest_not_opened : ∃ ciphertext,
    aesCcmCrypt (fun _ block => block) (List.replicate 16 1) (List.replicate 12 2)
    (List.replicate 0xFFFFFF 0) true = .ok ciphertext ∧
    aesCcmCrypt (fun _ block => block) (List.replicate 16 1) (List.replicate 12 2) ciphertext false =
    .error .configuration := by
  refine ⟨(rfc (fun block => block) (List.replicate 12 2)).sealed (List.replicate 0xFFFFFF 0), ?_, ?_⟩
  · refine (@aesCcmCrypt_seals (fun _ block => block) _ _ _ _).2
      ⟨⟨.inl length_replicate, length_replicate⟩, ?_, rfl⟩
    rw [length_replicate]
  · have hlong : 0xFFFFFF < ((rfc (fun block => block) (List.replicate 12 2)).sealed
      (List.replicate 0xFFFFFF 0)).length := by
      rw [Ccm.length_sealed rfl, length_replicate]
      omega
    exact if_pos (.inr (.inr (.inl hlong)))

end ClashNative.AesCcm
