import ClashNative.KcptunFecOnce
import Mathlib.Data.Set.Card
/-!
# KcptunFecRejections — what a refused packet leaves behind

`encode` numbers a packet and keeps its share before it knows that nothing will be sent; `decode` keeps a
share before it looks at its length.  And the groups that the receiver holds are counted.
-/
namespace ClashNative.Kcptun

open Runs List

/-! ## Sizes -/

def Cipher.overhead (c : Cipher) : Nat :=
  match c.kind with
  | .nullCipher => 0
  | .aesGcm => kAeadNonceSize + kAeadTagSize
  | _ => kCryptHeaderSize

theorem Cipher.overhead_le (c : Cipher) : c.overhead ≤ 28 := by
  unfold overhead
  split
  · exact Nat.zero_le _
  · exact Nat.le_refl 28
  · exact (by decide : kCryptHeaderSize ≤ 28)

theorem cryptPacket_length {c : Cipher} (h : c.Sound) (random : Option (Nat → UInt8)) (plaintext : Bytes) :
    cryptPacket c random plaintext = [] ∨
    (cryptPacket c random plaintext).length = c.overhead + plaintext.length := by
  unfold cryptPacket Cipher.overhead
  cases hkind : c.kind with
  | nullCipher => exact .inr (Nat.zero_add _).symm
  | aesGcm =>
    cases hnonce : randomBytes random kAeadNonceSize with
    | none => exact .inl rfl
    | some nonce =>
      dsimp only
      cases hseal : c.sealPacket nonce plaintext with
      | none => exact .inl rfl
      | some ciphertext =>
        refine .inr ?_
        change (nonce ++ ciphertext).length = _
        rw [length_append, randomBytes_length hnonce, h.tagged _ _ _ hseal]
        omega
  | none | block | xorCipher | salsa20 =>
    dsimp only
    cases hnonce : randomBytes random kCryptNonceSize with
    | none => exact .inl rfl
    | some nonce =>
      refine .inr ?_
      rw [applyCfb_length h, length_append, randomBytes_length hnonce, length_append, putU32_length,
        kCryptNonceSize, kCryptHeaderSize]
      omega

namespace KcptunPacketCodec

def TooLong (c : KcptunPacketCodec) (plaintext : Bytes) : Prop :=
  kMaximumDatagramSize < c.cipher.overhead + plaintext.length

instance (c : KcptunPacketCodec) (plaintext : Bytes) : Decidable (c.TooLong plaintext) :=
  inferInstanceAs (Decidable (_ < _))

/-- **`encode` refuses a packet for its length**, or for that of what would be sent with it. -/
def Rejects (c : KcptunPacketCodec) (packet : Bytes) (now : Int) : Prop :=
  0xffff - 2 < packet.length ∨ ∃ plaintext ∈ (c.encodePackets packet now).2, c.TooLong plaintext

instance (c : KcptunPacketCodec) (packet : Bytes) (now : Int) : Decidable (c.Rejects packet now) :=
  inferInstanceAs (Decidable (_ ∨ _))

def heldGroups (c : KcptunPacketCodec) : Set Nat := { g | ∃ slot, (c.receiveGroups g slot).isSome = true }

/-- **`decode` refuses a packet**: no share, or a data packet whose length is not in its bounds. -/
def Refuses (c : KcptunPacketCodec) (wirePacket : Bytes) : Prop := ∀ x ∈ c.incoming wirePacket, x.Malformed

end KcptunPacketCodec

/-! ## Runs of one codec -/

inductive FecCall
  | encode (packet : Bytes) (now : Int) (random : Nat → Option (Nat → UInt8))
  | decode (wirePacket : Bytes)

namespace KcptunPacketCodec

def call (c : KcptunPacketCodec) : FecCall → KcptunPacketCodec
  | .encode packet now random => (c.encode packet now random).1
  | .decode wirePacket => (c.decode wirePacket).1

/-- **What is kept**: a packet that `encode` or `decode` refuses changes nothing, and no more groups are
held than there may be. -/
def Keeps (c : KcptunPacketCodec) : FecCall → Prop
  | .encode packet now random => c.Rejects packet now → c.encode packet now random = (c, [])
  | .decode wirePacket =>
    (c.Refuses wirePacket → (c.decode wirePacket).1 = c) ∧
    (c.decode wirePacket).1.heldGroups.encard ≤ kMaximumRetainedFecGroups

/-- A share comes to a place that is taken, or was just this, and no group is to be dropped or to be the
newest. -/
structure Undisturbed (c : KcptunPacketCodec) (x : Share) : Prop where
  known : c.haveNewestReceiveGroup = true
  newest : x.group ≤ c.newestReceiveGroup
  dropped : ∀ g slot, g ≠ x.group → kMaximumRetainedFecGroups < c.newestReceiveGroup - g →
    c.receiveGroups g slot = none
  taken : if kMaximumRetainedFecGroups < c.newestReceiveGroup - x.group then
      ∀ slot, c.receiveGroups x.group slot = if slot = x.slot then some x.share else none
    else (c.receiveGroups x.group x.slot).isSome = true

/-- There is room for the group of a share, once old groups are dropped: it is held, or two others at most
are, or one share is enough. -/
def Roomy (c : KcptunPacketCodec) (x : Share) : Prop :=
  x.group ∈ (c.retain x.group).heldGroups ∨
  (c.retain x.group).heldGroups.encard < kMaximumRetainedFecGroups ∨ c.dataShard ≤ 1

def Modest (c : KcptunPacketCodec) : FecCall → Prop
  | .encode packet _ _ => 0xffff - 2 < packet.length ∨
      c.cipher.overhead + (packet.length + kFecHeaderSizePlusTwo) ≤ kMaximumDatagramSize
  | .decode wirePacket => ∀ x ∈ c.incoming wirePacket, if x.Malformed then c.Undisturbed x else c.Roomy x

/-! ## Refused shares -/

variable {c : KcptunPacketCodec} {x : Share}

theorem incoming_slot (hpos : 0 < c.dataShard) {wirePacket : Bytes} (h : c.incoming wirePacket = some x) :
    x.slot < c.shardSize := by
  unfold incoming at h
  dsimp only at h
  split at h
  · cases h
  · split at h
    · cases h
    · split at h
      · cases h
      · rw [← Option.some.inj h]
        exact Nat.mod_lt _ (Nat.lt_of_lt_of_le hpos (Nat.le_add_right _ _))

def withShare (c : KcptunPacketCodec) (x : Share) (g slot : Nat) : Option Bytes :=
  if (c.receiveGroups x.group x.slot).isSome = false ∧ g = x.group ∧ slot = x.slot then some x.share
  else c.receiveGroups g slot

theorem receiveShare_malformed (h : x.Malformed) :
    (c.receiveShare x.group x.slot x.data x.share).1 = { c with receiveGroups := c.withShare x } := by
  unfold receiveShare
  by_cases htaken : (c.receiveGroups x.group x.slot).isSome = true
  · rw [if_pos htaken]
    have hsame : c.withShare x = c.receiveGroups := by
      funext g slot
      refine if_neg fun hfree => ?_
      rw [htaken] at hfree
      cases hfree.1
    rw [hsame]
  · rw [if_neg htaken]
    refine (congrArg Prod.fst (if_pos h)).trans ?_
    have hset : c.withShare x = (c.setShare x.group x.slot x.share).receiveGroups := by
      funext g slot
      exact if_congr (and_iff_right (by simpa using htaken)) rfl rfl
    rw [hset]
    rfl

theorem retain_receiveGroups (c : KcptunPacketCodec) (groupId g : Nat) : (c.retain groupId).receiveGroups g =
    if kMaximumRetainedFecGroups < (c.retain groupId).newestReceiveGroup - g then fun _ =>
    none else c.receiveGroups g := by
  have hiff : ((c.retain groupId).newestReceiveGroup > g ∧
    (c.retain groupId).newestReceiveGroup - g > kMaximumRetainedFecGroups) ↔
      kMaximumRetainedFecGroups < (c.retain groupId).newestReceiveGroup - g :=
    ⟨fun h => h.2, fun h => ⟨Nat.lt_of_sub_pos (Nat.lt_of_le_of_lt (Nat.zero_le _) h), h⟩⟩
  exact if_congr hiff rfl rfl

theorem retain_newest_eq (c : KcptunPacketCodec) (groupId : Nat) :
    (c.retain groupId).newestReceiveGroup = c.newestReceiveGroup ∧ c.haveNewestReceiveGroup = true →
      groupId ≤ c.newestReceiveGroup := by
  rintro ⟨hnewest, hknown⟩
  by_contra hlt
  have hretain : (c.retain groupId).newestReceiveGroup = groupId := if_pos (.inr (Nat.not_le.1 hlt))
  omega

theorem retain_newest_of_le {groupId : Nat} (hknown : c.haveNewestReceiveGroup = true)
    (hle : groupId ≤ c.newestReceiveGroup) :
    (c.retain groupId).newestReceiveGroup = c.newestReceiveGroup := by
  refine if_neg ?_
  rw [hknown]
  exact fun h => h.elim Bool.noConfusion (Nat.not_lt.2 hle)

theorem receive_malformed_iff (h : x.Malformed) :
    ((c.retain x.group).receiveShare x.group x.slot x.data x.share).1 = c ↔ c.Undisturbed x := by
  rw [receiveShare_malformed h]
  have hretain := c.retain_receiveGroups x.group
  constructor
  · intro hsame
    have hnewest : (c.retain x.group).newestReceiveGroup = c.newestReceiveGroup := by
      have heq := congrArg newestReceiveGroup hsame
      exact heq
    have hknown : c.haveNewestReceiveGroup = true := by
      have heq := congrArg haveNewestReceiveGroup hsame
      exact heq.symm
    have hgroups (g slot : Nat) : (c.retain x.group).withShare x g slot = c.receiveGroups g slot :=
      congrFun (congrFun (congrArg receiveGroups hsame) g) slot
    rw [hnewest] at hretain
    unfold withShare at hgroups
    refine ⟨hknown, c.retain_newest_eq x.group ⟨hnewest, hknown⟩, fun g slot hg hold => ?_, ?_⟩
    · have hslot := hgroups g slot
      rw [if_neg (fun hboth => hg hboth.2.1), hretain g, if_pos hold] at hslot
      exact hslot.symm
    · by_cases hold : kMaximumRetainedFecGroups < c.newestReceiveGroup - x.group
      · rw [if_pos hold]
        intro slot
        rw [← hgroups x.group slot, hretain x.group, if_pos hold]
        exact if_congr ⟨fun hfree => hfree.2.2, fun hslot => ⟨rfl, rfl, hslot⟩⟩ rfl rfl
      · rw [if_neg hold]
        have hslot := hgroups x.group x.slot
        rw [hretain x.group, if_neg hold] at hslot
        by_contra hnone
        have hnone : (c.receiveGroups x.group x.slot).isSome = false := by simpa using hnone
        rw [if_pos ⟨hnone, rfl, rfl⟩] at hslot
        rw [← hslot] at hnone
        cases hnone
  · intro hquiet
    have hnewest := retain_newest_of_le hquiet.known hquiet.newest
    have htaken := hquiet.taken
    rw [hnewest] at hretain
    have hgroups : (c.retain x.group).withShare x = c.receiveGroups := by
      funext g slot
      unfold withShare
      rw [hretain x.group, hretain g]
      by_cases hg : g = x.group
      · subst hg
        split at htaken
        · rename_i hold
          rw [if_pos hold, htaken slot]
          exact if_congr ⟨fun hfree => hfree.2.2, fun hslot => ⟨rfl, rfl, hslot⟩⟩ rfl rfl
        · rename_i hold
          rw [if_neg hold, htaken, if_neg (fun hfree => Bool.noConfusion hfree.1)]
      · rw [if_neg (fun hboth => hg hboth.2.1)]
        by_cases hold : kMaximumRetainedFecGroups < c.newestReceiveGroup - g
        · rw [if_pos hold, hquiet.dropped g slot hg hold]
        · rw [if_neg hold]
    rw [hgroups]
    change { c with newestReceiveGroup :=
      (c.retain x.group).newestReceiveGroup, haveNewestReceiveGroup := true } = c
    rw [hnewest, ← hquiet.known]

/-! ## The groups that are held -/

theorem heldGroups_retain (c : KcptunPacketCodec) (groupId : Nat) :
    (c.retain groupId).heldGroups ⊆ c.heldGroups := by
  rintro g ⟨slot, hslot⟩
  rw [retain_receiveGroups] at hslot
  split at hslot
  · cases hslot
  · exact ⟨slot, hslot⟩

theorem heldGroups_setShare (c : KcptunPacketCodec) (groupId slot : Nat) (share : Bytes) :
    (c.setShare groupId slot share).heldGroups = insert groupId c.heldGroups := by
  ext g
  constructor
  · rintro ⟨s, hs⟩
    by_cases hplace : g = groupId ∧ s = slot
    · exact .inl hplace.1
    · refine .inr ⟨s, ?_⟩
      change (if g = groupId ∧ s = slot then some share else c.receiveGroups g s).isSome = true at hs
      rwa [if_neg hplace] at hs
  · rintro (rfl | ⟨s, hs⟩)
    · refine ⟨slot, ?_⟩
      change (if g = g ∧ slot = slot then some share else c.receiveGroups g slot).isSome = true
      rw [if_pos ⟨rfl, rfl⟩]
      rfl
    · refine ⟨s, ?_⟩
      change (if g = groupId ∧ s = slot then some share else c.receiveGroups g s).isSome = true
      split
      · rfl
      · exact hs

theorem heldGroups_eraseGroup (c : KcptunPacketCodec) (groupId : Nat) :
    (c.eraseGroup groupId).heldGroups ⊆ c.heldGroups \ {groupId} := by
  rintro g ⟨slot, hslot⟩
  change ((if g = groupId then fun _ => none else c.receiveGroups g) slot).isSome = true at hslot
  split at hslot
  · cases hslot
  · rename_i hg
    exact ⟨⟨slot, hslot⟩, hg⟩

theorem groupSize_first (hgroup : x.group ∉ c.heldGroups) (hslot : x.slot < c.shardSize) :
    (c.setShare x.group x.slot x.share).groupSize x.group = 1 := by
  have hone (slot : Nat) : ((c.setShare x.group x.slot x.share).receiveGroups x.group slot).isSome =
    (slot == x.slot) := by
    change (if x.group = x.group ∧ slot = x.slot then some x.share else c.receiveGroups x.group slot).isSome = _
    by_cases hplace : slot = x.slot
    · rw [if_pos ⟨rfl, hplace⟩, hplace]
      exact (beq_self_eq_true _).symm
    · rw [if_neg (fun hboth => hplace hboth.2), beq_false_of_ne hplace]
      by_contra hheld
      exact hgroup ⟨slot, Bool.not_eq_false _ ▸ hheld⟩
  unfold groupSize
  rw [countP_congr (q := fun slot => slot == x.slot) fun slot _ => by rw [hone]]
  exact count_eq_one_of_mem nodup_range (mem_range.2 hslot)

theorem receiveShare_fst (hwell : ¬ x.Malformed) (hfree : ¬ (c.receiveGroups x.group x.slot).isSome = true) :
    (c.receiveShare x.group x.slot x.data x.share).1 =
      if (c.setShare x.group x.slot x.share).groupSize x.group < c.dataShard then
      c.setShare x.group x.slot x.share
      else (c.setShare x.group x.slot x.share).eraseGroup x.group := by
  unfold receiveShare
  rw [if_neg hfree]
  refine (congrArg Prod.fst (if_neg hwell)).trans ?_
  exact apply_ite Prod.fst _ _ _

theorem held_receive_iff (hwell : ¬ x.Malformed) (hslot : x.slot < c.shardSize) {most : Nat}
    (hheld : c.heldGroups.encard ≤ most) :
    (c.receiveShare x.group x.slot x.data x.share).1.heldGroups.encard ≤ most ↔
      x.group ∈ c.heldGroups ∨ c.heldGroups.encard < most ∨ c.dataShard ≤ 1 := by
  by_cases htaken : (c.receiveGroups x.group x.slot).isSome = true
  · have hsame : (c.receiveShare x.group x.slot x.data x.share).1 = c := congrArg Prod.fst (if_pos htaken)
    rw [hsame]
    exact ⟨fun _ => .inl ⟨x.slot, htaken⟩, fun _ => hheld⟩
  · rw [receiveShare_fst hwell htaken]
    by_cases hwaits : (c.setShare x.group x.slot x.share).groupSize x.group < c.dataShard
    · rw [if_pos hwaits, heldGroups_setShare]
      by_cases hgroup : x.group ∈ c.heldGroups
      · rw [Set.insert_eq_of_mem hgroup]
        exact ⟨fun _ => .inl hgroup, fun _ => hheld⟩
      · rw [groupSize_first hgroup hslot] at hwaits
        have hfinite : c.heldGroups.encard ≠ ⊤ := ne_top_of_le_ne_top (ENat.natCast_ne_top most) hheld
        rw [Set.encard_insert_of_notMem hgroup, ENat.add_one_le_iff hfinite]
        exact ⟨fun hless => .inr (.inl hless),
          fun hroom => (hroom.resolve_left hgroup).resolve_right (Nat.not_le.2 hwaits)⟩
    · rw [if_neg hwaits]
      have hless : ((c.setShare x.group x.slot x.share).eraseGroup x.group).heldGroups ⊆ c.heldGroups := by
        refine (heldGroups_eraseGroup _ _).trans ?_
        rw [heldGroups_setShare]
        rintro g ⟨hin, hg⟩
        exact (Set.mem_insert_iff.1 hin).resolve_left hg
      refine ⟨fun _ => ?_, fun _ => (Set.encard_le_encard hless).trans hheld⟩
      by_cases hgroup : x.group ∈ c.heldGroups
      · exact .inl hgroup
      · rw [groupSize_first hgroup hslot] at hwaits
        exact .inr (.inr (Nat.not_lt.1 hwaits))

theorem keeps_decode_iff (hpos : 0 < c.dataShard) (hheld : c.heldGroups.encard ≤ kMaximumRetainedFecGroups)
    (wirePacket : Bytes) :
    c.Keeps (.decode wirePacket) ↔ c.Modest (.decode wirePacket) := by
  unfold Keeps Modest Refuses
  dsimp only
  rw [decode_eq hpos]
  cases hincoming : c.incoming wirePacket with
  | none =>
    exact ⟨fun _ x hx => (by cases hx), fun _ => ⟨fun _ => rfl, hheld⟩⟩
  | some x =>
    have hslot : x.slot < (c.retain x.group).shardSize := incoming_slot hpos hincoming
    have hretain := (Set.encard_le_encard (c.heldGroups_retain x.group)).trans hheld
    have hall {p : Share → Prop} : (∀ y ∈ some x, p y) ↔ p x :=
      ⟨fun h => h x rfl, fun h y hy => Option.some.inj hy ▸ h⟩
    rw [hall, hall]
    by_cases hmalformed : x.Malformed
    · rw [if_pos hmalformed, ← receive_malformed_iff hmalformed]
      refine ⟨fun h => h.1 hmalformed, fun hsame => ⟨fun _ => hsame, ?_⟩⟩
      rw [hsame]
      exact hheld
    · rw [if_neg hmalformed, held_receive_iff hmalformed hslot hretain]
      exact ⟨fun h => h.2, fun hroom => ⟨fun h => absurd h hmalformed, hroom⟩⟩

theorem decode_fst (hpos : 0 < c.dataShard) (wirePacket : Bytes) : ∃ groups newest known,
    (c.decode wirePacket).1 =
      { c with
        receiveGroups := groups
        newestReceiveGroup := newest
        haveNewestReceiveGroup := known } := by
  rw [decode_eq hpos]
  cases c.incoming wirePacket with
  | none => exact ⟨_, _, _, rfl⟩
  | some x =>
    unfold receiveShare
    dsimp only
    split
    · exact ⟨_, _, _, rfl⟩
    · split
      · exact ⟨_, _, _, rfl⟩
      · split
        · exact ⟨_, _, _, rfl⟩
        · exact ⟨_, _, _, rfl⟩

/-! ## Refused packets -/

variable {packet : Bytes}

theorem encodePackets_long (hfec : 0 < c.dataShard) (hlong : 0xffff - 2 < packet.length) (now : Int) :
    c.encodePackets packet now = (c, []) := by
  unfold encodePackets
  rw [if_neg (Nat.ne_of_gt hfec), if_pos hlong]

theorem encode_of_rejects (hfec : 0 < c.dataShard) (hsound : c.cipher.Sound) {now : Int}
    (h : c.Rejects packet now)
    (random : Nat → Option (Nat → UInt8)) : (c.encode packet now random).2 = [] := by
  unfold encode cryptAll
  rcases h with hlong | ⟨plaintext, hmem, hlong⟩
  · rw [encodePackets_long hfec hlong]
    rfl
  · obtain ⟨i, hi, hget⟩ := mem_iff_getElem.1 hmem
    refine if_pos (any_eq_true.2 ⟨cryptPacket c.cipher (random i) plaintext, ?_, ?_⟩)
    · exact mem_mapIdx.2 ⟨i, hi, by rw [hget]⟩
    · rcases cryptPacket_length hsound (random i) plaintext with hempty | hlength
      · rw [hempty]
        rfl
      · rw [hlength, decide_eq_true (show kMaximumDatagramSize <
          c.cipher.overhead + plaintext.length from hlong), Bool.or_true]

end KcptunPacketCodec

/-- **A codec in a run of modest calls**: what it holds is as long as it may be, and as many. -/
structure Sane (c₀ c : KcptunPacketCodec) : Prop where
  encodes : ∃ packets group j, Encodes c₀ packets group j c
  sizes : c.cipher.overhead + (c.fecGroup.maxSize + kFecHeaderSize) ≤ kMaximumDatagramSize
  held : c.heldGroups.encard ≤ kMaximumRetainedFecGroups

namespace Encodes

variable {c₀ c : KcptunPacketCodec} {packets : List Bytes} {group j : Nat}

theorem fec_pos (h : Encodes c₀ packets group j c) : 0 < c.dataShard := by
  rw [h.dataShard]
  exact Nat.lt_of_le_of_lt (Nat.zero_le j) h.partly

variable {packet : Bytes}

theorem takes_of_le (h : Encodes c₀ packets group j c) (hlength : packet.length ≤ 0xffff - 2) :
    c.takes packet = true := by
  unfold KcptunPacketCodec.takes
  rw [decide_eq_true (Nat.ne_of_gt h.fec_pos), decide_eq_true hlength]
  rfl

theorem data_length (sequence : Nat) (packet : Bytes) :
    (makeFecPacket sequence kFecData (fecShare packet)).length = packet.length + kFecHeaderSizePlusTwo := by
  unfold makeFecPacket fecShare
  rw [length_append, length_append, length_append, putU32_length, putU16_length, putU16_length,
    kFecHeaderSizePlusTwo]
  omega

theorem parity_length (h : Encodes c₀ packets group j c) (hfec : c₀.fec.Mds c₀.dataShard c₀.parityShard)
    (now : Int)
    (hend : j + 1 = c₀.dataShard) {parity : Bytes} (hparity : parity ∈ (c.push packet now).parityPackets) :
    parity.length = max c.fecGroup.maxSize (packet.length + 2) + kFecHeaderSize := by
  obtain ⟨i, hi, rfl⟩ := mem_iff_getElem.1 hparity
  obtain ⟨hlt, hpacket⟩ := KcptunPacketCodec.parityPackets_get (getElem?_eq_getElem hi)
  have hmax : (c.push packet now).fecGroup.maxSize = max c.fecGroup.maxSize (packet.length + 2) := by
    change max c.fecGroup.maxSize (fecShare packet).length = _
    unfold fecShare
    rw [length_append, putU16_length, Nat.add_comm 2]
  have hcode : (c.push packet now).fec.Mds (c.push packet now).dataShard (c.push packet now).parityShard := by
    change c.fec.Mds c.dataShard c.parityShard
    rw [h.fec, h.dataShard, h.parityShard]
    exact hfec
  have hshares : (c.push packet now).fecGroup.shares.length = (c.push packet now).dataShard :=
    (h.push_length packet now).trans (hend.trans h.dataShard.symm)
  rw [hpacket, makeFecPacket, length_append, length_append, putU32_length, putU16_length, hcode.length _ _ _
    (by rw [length_map, hshares]) (fun share hshare => ?_) (Nat.add_lt_add_left hlt _), hmax, kFecHeaderSize]
  · omega
  · obtain ⟨old, hold, rfl⟩ := mem_map.1 hshare
    exact resize_length ((le_longest hold).trans (Nat.le_of_eq (h.push_maxSize packet now).symm))

theorem not_rejects (h : Encodes c₀ packets group j c) (hfec : c₀.fec.Mds c₀.dataShard c₀.parityShard)
    (hsizes : c.cipher.overhead + (c.fecGroup.maxSize + kFecHeaderSize) ≤ kMaximumDatagramSize) (now : Int)
    (htaken : packet.length ≤ 0xffff - 2)
    (hmodest : c.cipher.overhead + (packet.length + kFecHeaderSizePlusTwo) ≤ kMaximumDatagramSize) :
    ¬ c.Rejects packet now := by
  rintro (hlong | ⟨plaintext, hmem, hlong⟩)
  · exact Nat.not_lt.2 htaken hlong
  · unfold KcptunPacketCodec.TooLong at hlong
    have hdata : plaintext ≠ makeFecPacket c.nextFecSequence kFecData (fecShare packet) := by
      rintro rfl
      rw [data_length] at hlong
      omega
    rw [h.encodePackets_eq (h.takes_of_le htaken)] at hmem
    split at hmem
    · rename_i hend
      have hparity := (mem_cons.1 hmem).resolve_left hdata
      split at hparity
      · rw [h.parity_length hfec now hend hparity] at hlong
        unfold kFecHeaderSizePlusTwo at hmodest
        unfold kFecHeaderSize at hlong hsizes
        omega
      · cases hparity
    · exact hdata (mem_singleton.1 hmem)

theorem sequenceOf_ne (c₀ : KcptunPacketCodec) (group j : Nat) {i : Nat} (hi : 0 < i) (hlt : i < kFecPaws) :
    c₀.sequenceOf group (j + i) ≠ c₀.sequenceOf group j := by
  unfold KcptunPacketCodec.sequenceOf
  unfold kFecPaws at hlt ⊢
  omega

theorem sequence_advances (h : Encodes c₀ packets group j c) (hparity : c₀.parityShard ≤ 0xff)
    (htaken : packet.length ≤ 0xffff - 2) (now : Int) :
    (c.encodePackets packet now).1.nextFecSequence ≠ c.nextFecSequence := by
  rw [h.encodePackets_eq (h.takes_of_le htaken), h.sequence]
  have hnext : (c.push packet now).nextFecSequence = c₀.sequenceOf group (j + 1) := by
    change advanceFecSequence c.nextFecSequence = _
    rw [h.sequence]
    exact sequenceOf_succ c₀ group j 1
  split
  · rw [hnext, sequenceOf_succ, h.parityShard, Nat.add_assoc]
    refine sequenceOf_ne c₀ group j (by omega) ?_
    unfold kFecPaws
    omega
  · rw [hnext]
    exact sequenceOf_ne c₀ group j Nat.one_pos (by decide)

theorem encodePackets_receives (c : KcptunPacketCodec) (packet : Bytes) (now : Int) :
    (c.encodePackets packet now).1.receiveGroups = c.receiveGroups := by
  unfold KcptunPacketCodec.encodePackets
  split
  · rfl
  · split
    · rfl
    · split
      · rfl
      · rfl

theorem of_decode (h : Encodes c₀ packets group j c) (wirePacket : Bytes) :
    Encodes c₀ packets group j (c.decode wirePacket).1 := by
  obtain ⟨groups, newest, known, hdecode⟩ := KcptunPacketCodec.decode_fst h.fec_pos wirePacket
  rw [hdecode]
  exact { h with }

end Encodes

namespace Sane

variable {c₀ c : KcptunPacketCodec}

theorem keeps_encode_iff (h : Sane c₀ c) (hsound : c₀.cipher.Sound)
    (hfec : c₀.fec.Mds c₀.dataShard c₀.parityShard)
    (hparity : c₀.parityShard ≤ 0xff) (packet : Bytes) (now : Int) (random : Nat → Option (Nat → UInt8)) :
    c.Keeps (.encode packet now random) ↔ c.Modest (.encode packet now random) := by
  obtain ⟨packets, group, j, hencodes⟩ := h.encodes
  have hcipher : c.cipher.Sound := by
    rw [hencodes.cipher]
    exact hsound
  constructor
  · intro hkeeps
    by_contra hnot
    obtain ⟨htaken, hlong⟩ := not_or.1 hnot
    have htaken := Nat.not_lt.1 htaken
    have hrejects : c.Rejects packet now := by
      refine .inr ⟨makeFecPacket c.nextFecSequence kFecData (fecShare packet), ?_, ?_⟩
      · rw [hencodes.encodePackets_eq (hencodes.takes_of_le htaken)]
        split
        · exact mem_cons_self
        · exact mem_cons_self
      · exact Nat.not_le.1 hlong
    have hsame : (c.encodePackets packet now).1 = c := congrArg Prod.fst (hkeeps hrejects)
    exact hencodes.sequence_advances hparity htaken now (congrArg KcptunPacketCodec.nextFecSequence hsame)
  · intro hmodest hrejects
    have hlong : 0xffff - 2 < packet.length := by
      by_contra htaken
      have htaken := Nat.not_lt.1 htaken
      exact hencodes.not_rejects hfec h.sizes now htaken (hmodest.resolve_left (Nat.not_lt.2 htaken)) hrejects
    have hsame : (c.encode packet now random).1 = c :=
      congrArg Prod.fst (KcptunPacketCodec.encodePackets_long hencodes.fec_pos hlong now)
    exact Prod.ext hsame (KcptunPacketCodec.encode_of_rejects hencodes.fec_pos hcipher hrejects random)

theorem call (h : Sane c₀ c) {e : FecCall} (hmodest : c.Modest e) : Sane c₀ (c.call e) := by
  obtain ⟨packets, group, j, hencodes⟩ := h.encodes
  cases e with
  | encode packet now random =>
    change Sane c₀ (c.encodePackets packet now).1
    by_cases hlong : 0xffff - 2 < packet.length
    · rw [KcptunPacketCodec.encodePackets_long hencodes.fec_pos hlong now]
      exact h
    · have htakes := hencodes.takes_of_le (Nat.not_lt.1 hlong)
      have hlength : c.cipher.overhead + (packet.length + kFecHeaderSizePlusTwo) ≤ kMaximumDatagramSize :=
        Or.resolve_left hmodest hlong
      obtain ⟨group', j', hstep⟩ := hencodes.step htakes now
      refine ⟨⟨_, _, _, hstep⟩, ?_, ?_⟩
      · rw [hstep.cipher, ← hencodes.cipher, hencodes.encodePackets_eq htakes]
        have hsizes := h.sizes
        unfold kFecHeaderSizePlusTwo at hlength
        split
        · change c.cipher.overhead + (0 + kFecHeaderSize) ≤ _
          omega
        · change c.cipher.overhead + (max c.fecGroup.maxSize (fecShare packet).length + kFecHeaderSize) ≤ _
          unfold fecShare
          rw [length_append, putU16_length]
          unfold kFecHeaderSize at hsizes ⊢
          omega
      · unfold KcptunPacketCodec.heldGroups
        rw [Encodes.encodePackets_receives]
        exact h.held
  | decode wirePacket =>
    refine ⟨⟨_, _, _, hencodes.of_decode wirePacket⟩, ?_, ?_⟩
    · obtain ⟨groups, newest, known, hdecode⟩ := KcptunPacketCodec.decode_fst hencodes.fec_pos wirePacket
      change (c.decode wirePacket).1.cipher.overhead +
        ((c.decode wirePacket).1.fecGroup.maxSize + kFecHeaderSize) ≤ _
      rw [hdecode]
      exact h.sizes
    · exact ((KcptunPacketCodec.keeps_decode_iff hencodes.fec_pos h.held wirePacket).2 hmodest).2

theorem keeps_iff (h : Sane c₀ c) (hsound : c₀.cipher.Sound) (hfec : c₀.fec.Mds c₀.dataShard c₀.parityShard)
    (hparity : c₀.parityShard ≤ 0xff) (e : FecCall) : c.Keeps e ↔ c.Modest e := by
  cases e with
  | encode packet now random => exact h.keeps_encode_iff hsound hfec hparity packet now random
  | decode wirePacket =>
    obtain ⟨packets, group, j, hencodes⟩ := h.encodes
    exact KcptunPacketCodec.keeps_decode_iff hencodes.fec_pos h.held wirePacket

theorem along_iff (hsound : c₀.cipher.Sound) (hfec : c₀.fec.Mds c₀.dataShard c₀.parityShard)
    (hparity : c₀.parityShard ≤ 0xff) :
    ∀ (calls : List FecCall) {c : KcptunPacketCodec}, Sane c₀ c →
      (Along KcptunPacketCodec.call KcptunPacketCodec.Keeps c calls ↔
        Along KcptunPacketCodec.call KcptunPacketCodec.Modest c calls)
  | [], _, _ => Iff.rfl
  | e :: calls, _, h => by
    unfold Along
    rw [h.keeps_iff hsound hfec hparity e]
    exact and_congr_right fun hmodest => along_iff hsound hfec hparity calls (h.call hmodest)

end Sane

/-! ## As if it had not been offered -/

namespace KcptunPacketCodec

def sent : KcptunPacketCodec → List FecCall → List Bytes
  | _, [] => []
  | c, .encode packet now random :: calls =>
      (c.encode packet now random).2 ++ sent (c.encode packet now random).1 calls
  | c, .decode wirePacket :: calls => sent (c.decode wirePacket).1 calls

/-- The calls without the packets that `encode` refuses. -/
def accepted : KcptunPacketCodec → List FecCall → List FecCall
  | _, [] => []
  | c, .encode packet now random :: calls =>
    if c.Rejects packet now then accepted (c.encode packet now random).1 calls
    else .encode packet now random :: accepted (c.encode packet now random).1 calls
  | c, .decode wirePacket :: calls => .decode wirePacket :: accepted (c.decode wirePacket).1 calls

theorem accepted_same : ∀ (calls : List FecCall) (c : KcptunPacketCodec), Along call Keeps c calls →
    c.sent (c.accepted calls) = c.sent calls ∧ run call c (c.accepted calls) = run call c calls
  | [], _, _ => ⟨rfl, rfl⟩
  | .encode packet now random :: calls, c, hkeeps => by
    obtain ⟨hfirst, hrest⟩ := hkeeps
    have ih := accepted_same calls (c.encode packet now random).1 hrest
    unfold accepted
    by_cases hrejects : c.Rejects packet now
    · rw [if_pos hrejects]
      have hsame := hfirst hrejects
      have hcall : c.call (.encode packet now random) = c := congrArg Prod.fst hsame
      rw [hsame] at ih ⊢
      rw [run_cons, hcall]
      refine ⟨ih.1.trans ?_, ih.2⟩
      change c.sent calls = (c.encode packet now random).2 ++ (c.encode packet now random).1.sent calls
      rw [hsame]
      rfl
    · rw [if_neg hrejects]
      exact ⟨congrArg (_ ++ ·) ih.1, ih.2⟩
  | .decode wirePacket :: calls, c, hkeeps => accepted_same calls (c.decode wirePacket).1 hkeeps.2

end KcptunPacketCodec

theorem sane_of_create {cipher : Cipher} {fec : ZFec} {dataShard parityShard : Int} {c : KcptunPacketCodec}
    (hcreate : KcptunPacketCodec.create cipher fec dataShard parityShard = .ok c) (hpos : 0 < c.dataShard) :
    Sane c c ∧ c.parityShard ≤ 0xff := by
  unfold KcptunPacketCodec.create at hcreate
  split at hcreate
  · rename_i hcounts
    cases hcreate
    have hparity : ¬ parityShard > 0xff := fun h => hcounts (.inr (.inr (.inr (.inl h))))
    refine ⟨⟨⟨_, _, _, Encodes.init cipher fec _ hpos⟩, ?_, ?_⟩, ?_⟩
    · have hoverhead := cipher.overhead_le
      change cipher.overhead + (0 + kFecHeaderSize) ≤ kMaximumDatagramSize
      unfold kFecHeaderSize kMaximumDatagramSize
      omega
    · have hempty : KcptunPacketCodec.heldGroups
        { cipher, fec, dataShard := dataShard.toNat, parityShard := parityShard.toNat } = ∅ := by
        refine Set.eq_empty_of_forall_notMem fun g hg => ?_
        obtain ⟨slot, hslot⟩ := hg
        cases hslot
      rw [hempty, Set.encard_empty]
      exact bot_le
    · change parityShard.toNat ≤ 0xff
      omega
  · cases hcreate

/-- **What is refused changes nothing, and no more groups are held than there may be**, in every run of
calls exactly if its calls are modest. What is accepted is then encoded as if nothing had been refused. -/
theorem fec_rejections_iff {cipher : Cipher} {fec : ZFec} {dataShard parityShard : Int} {c : KcptunPacketCodec}
    (hcreate : KcptunPacketCodec.create cipher fec dataShard parityShard = .ok c) (hpos : 0 < c.dataShard)
    (hsound : c.cipher.Sound)
    (hfec : c.fec.Mds c.dataShard c.parityShard) (calls : List FecCall) :
    (Along KcptunPacketCodec.call KcptunPacketCodec.Keeps c calls ↔
      Along KcptunPacketCodec.call KcptunPacketCodec.Modest c calls) ∧
    (Along KcptunPacketCodec.call KcptunPacketCodec.Modest c calls → c.sent (c.accepted calls) = c.sent calls ∧
      run KcptunPacketCodec.call c (c.accepted calls) = run KcptunPacketCodec.call c calls) := by
  obtain ⟨hsane, hparity⟩ := sane_of_create hcreate hpos
  have hiff := Sane.along_iff hsound hfec hparity calls hsane
  exact ⟨hiff, fun hmodest => c.accepted_same calls (hiff.2 hmodest)⟩

def dataWire (sequence length : Nat) : Bytes := makeFecPacket sequence kFecData (putU16 length ++ [7])

theorem refused_packet_counts : ¬ twoOneCodec.Keeps (.encode (List.replicate 1493 0) 1 fun _ => none) := by
  intro h
  have hsame := congrArg (fun r : KcptunPacketCodec × List Bytes => r.1.nextFecSequence) (h (by decide +kernel))
  exact absurd hsame (by decide +kernel)

theorem refused_share_kept : ¬ twoOneCodec.Keeps (.decode (dataWire 0 0xffff)) := by
  intro h
  have hincoming : twoOneCodec.incoming (dataWire 0 0xffff) = some ⟨0, 0, true, [255, 255, 7]⟩ :=
    by decide +kernel
  have hrefuses : twoOneCodec.Refuses (dataWire 0 0xffff) := by
    intro x hx
    rw [hincoming] at hx
    rw [← Option.some.inj hx]
    decide
  exact absurd (congrArg KcptunPacketCodec.haveNewestReceiveGroup (h.1 hrefuses)) (by decide +kernel)

theorem four_groups_held :
    ¬ Along KcptunPacketCodec.call KcptunPacketCodec.Keeps twoOneCodec
    (([0, 3, 6, 9] : List Nat).map fun n => .decode (dataWire n 3)) := by
  rintro ⟨-, -, -, ⟨-, hheld⟩, -⟩
  have hfour : ((({0, 1, 2, 3} : Finset Nat) : Set Nat)).encard ≤ kMaximumRetainedFecGroups := by
    refine (Set.encard_le_encard fun g hg => ?_).trans hheld
    refine ⟨0, ?_⟩
    revert g
    decide +kernel
  rw [Set.encard_coe_eq_coe_finsetCard] at hfour
  exact absurd (Nat.cast_le.1 hfour) (by decide)

/-- Each of the three leaves something behind. -/
theorem refusals_leave_traces :
    ¬ twoOneCodec.Keeps (.encode (List.replicate 1493 0) 1 fun _ => none) ∧
    ¬ twoOneCodec.Keeps (.decode (dataWire 0 0xffff)) ∧
    ¬ Along KcptunPacketCodec.call KcptunPacketCodec.Keeps twoOneCodec
    (([0, 3, 6, 9] : List Nat).map fun n => .decode (dataWire n 3)) :=
  ⟨refused_packet_counts, refused_share_kept, four_groups_held⟩

/-- A share is taken, one with a length out of range comes to its place, a packet is sent and one that is
too long is not. -/
theorem fec_rejections_two_one :
    let calls : List FecCall :=
      [.decode (dataWire 0 3), .decode (dataWire 0 0xffff), .encode [7] 1 fun _ => none,
        .encode (List.replicate 65534 0) 2 fun _ => none]
    Along KcptunPacketCodec.call KcptunPacketCodec.Keeps twoOneCodec calls ∧
    twoOneCodec.sent (twoOneCodec.accepted calls) = twoOneCodec.sent calls := by
  intro calls
  have hempty (g slot : Nat) : (twoOneCodec.retain 0).receiveGroups g slot = none := by
    unfold KcptunPacketCodec.retain
    dsimp only
    split <;> split <;> rfl
  have hfirst : twoOneCodec.incoming (dataWire 0 3) = some ⟨0, 0, true, [3, 0, 7]⟩ := by decide +kernel
  have hsecond : (twoOneCodec.call (.decode (dataWire 0 3))).incoming (dataWire 0 0xffff) =
    some ⟨0, 0, true, [255, 255, 7]⟩ := by
    decide +kernel
  have hmodest : Along KcptunPacketCodec.call KcptunPacketCodec.Modest twoOneCodec calls := by
    refine ⟨fun x hx => ?_, fun x hx => ?_, .inr (by decide +kernel),
      .inl (by rw [length_replicate]; decide), trivial⟩
    · obtain rfl := Option.some.inj (hfirst.symm.trans hx)
      have hnone : (twoOneCodec.retain 0).heldGroups = ∅ := Set.eq_empty_of_forall_notMem fun g hg => by
        obtain ⟨slot, hslot⟩ := hg
        rw [hempty] at hslot
        cases hslot
      rw [if_neg (by decide)]
      exact .inr (.inl (by rw [hnone, Set.encard_empty]; decide))
    · obtain rfl := Option.some.inj (hsecond.symm.trans hx)
      rw [if_pos (by decide)]
      exact ⟨by decide +kernel, by decide +kernel,
        fun g slot hg _ => (if_neg fun h => hg h.1).trans (hempty g slot),
        by rw [if_neg (by decide +kernel)]; decide +kernel⟩
  have hiff := fec_rejections_iff (show KcptunPacketCodec.create _ _ 2 1 = .ok twoOneCodec from rfl)
    (by decide) plain_sound twoOne_mds calls
  exact ⟨hiff.1.2 hmodest, (hiff.2 hmodest).1⟩

end ClashNative.Kcptun
