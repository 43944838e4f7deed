import ClashNative.KcptunFecAlignment
import ClashNative.KcptunFecShares
import ClashNative.Runs
/-!
# KcptunFecRecovery — what a receiver delivers of the packets that arrive

The receiver keeps the shares of a group until it has enough, or until a group more than three later has
come.  Where no number wraps, what arrives of a group is kept, so the share that makes it enough gives the
whole group.
-/
namespace ClashNative.Kcptun

open List

open Runs (run run_nil run_cons run_append)

def receive (r : KcptunPacketCodec × List Bytes) (s : Sent) : KcptunPacketCodec × List Bytes :=
  ((r.1.decode s.wire).1, r.2 ++ (r.1.decode s.wire).2)

def Arrived (delivery : List Sent) (group slot : Nat) : Prop := ∃ s ∈ delivery, s.group = group ∧ s.slot = slot

instance (delivery : List Sent) (group slot : Nat) : Decidable (Arrived delivery group slot) :=
  inferInstanceAs (Decidable (∃ s ∈ delivery, _))

def arrived (c : KcptunPacketCodec) (delivery : List Sent) (group : Nat) : Nat :=
  (List.range c.shardSize).countP fun slot => decide (Arrived delivery group slot)

/-- **No packet is overtaken** by packets of a group more than three groups later. -/
def Timely (delivery : List Sent) : Prop :=
  delivery.Pairwise fun s t => s.group ≤ t.group + kMaximumRetainedFecGroups

instance (delivery : List Sent) : Decidable (Timely delivery) := inferInstanceAs (Decidable (List.Pairwise _ _))

/-- **What FEC promises** of the packets that were encoded: each delivery is that of one of them, the
`places` say of which, and all of a group of which enough has arrived are among them. -/
structure Recovered (c : KcptunPacketCodec) (packets : List Bytes) (delivery : List Sent)
    (outputs : List Bytes) (places : List Nat) :
    Prop where
  told : outputs.map some = places.map (packets[·]?)
  whole : ∀ group, c.dataShard ≤ arrived c delivery group →
    ∀ index < c.dataShard, group * c.dataShard + index ∈ places

/-! ## One packet -/

section Steps

variable {c₀ c : KcptunPacketCodec} {packets : List Bytes} {s : Sent}

theorem Sent.Spec.two_le_shareOf (h : s.Spec c₀ packets) (hpos : 0 < c₀.dataShard)
    (hfec : c₀.fec.Mds c₀.dataShard c₀.parityShard) :
    2 ≤ (c₀.shareOf packets s.group s.slot).length := by
  unfold KcptunPacketCodec.shareOf
  by_cases hdata : s.slot < c₀.dataShard
  · rw [if_pos hdata, fecShare, length_append, putU16_length]
    exact Nat.le_add_right ..
  · rw [if_neg hdata]
    have hwhole := h.parity (Nat.not_lt.1 hdata)
    rw [hfec.length _ _ _ (by rw [length_map, groupShares_length hwhole])
      (fun x hx => by
        obtain ⟨y, hy, rfl⟩ := mem_map.1 hx
        exact resize_length (le_longest hy)) h.slot]
    have hle := le_longest (mem_iff_getElem?.2 ⟨0, groupShares_get hwhole hpos⟩)
    unfold fecShare at hle
    rw [length_append, putU16_length] at hle
    omega

theorem Sent.Spec.decode_eq (h : s.Spec c₀ packets) (hcipher : c.cipher = c₀.cipher)
    (hdata : c.dataShard = c₀.dataShard)
    (hparity : c.parityShard = c₀.parityShard) (hpos : 0 < c₀.dataShard) (hsound : c₀.cipher.Sound)
    (hfec : c₀.fec.Mds c₀.dataShard c₀.parityShard) (hwrap : (s.group + 1) * c₀.shardSize ≤ kFecPaws) :
    c.decode s.wire = (c.retain s.group).receiveShare s.group s.slot (decide (s.slot < c₀.dataShard))
      (c₀.shareOf packets s.group s.slot) := by
  obtain ⟨random, hwire, hne⟩ := h.wire
  have hplain : decryptPacket c.cipher s.wire = s.packet := by
    rw [hcipher, hwire]
    exact decryptPacket_cryptPacket hsound (hwire ▸ hne)
  have hslot := h.slot
  have hshard : c.shardSize = c₀.shardSize := by
    unfold KcptunPacketCodec.shardSize
    rw [hdata, hparity]
  have hlength : s.packet.length = 6 + (c₀.shareOf packets s.group s.slot).length := by
    rw [h.packet, makeFecPacket, length_append, length_append, putU32_length, putU16_length]
    omega
  have htwo := h.two_le_shareOf hpos hfec
  have hlt : s.group * c₀.shardSize + s.slot < kFecPaws := by
    rw [Nat.succ_mul] at hwrap
    omega
  have hsequence : getU32 s.packet = s.group * c₀.shardSize + s.slot :=
    h.sequence_eq.trans (Nat.mod_eq_of_lt hlt)
  have htype : getU16 (s.packet.drop 4) = if s.slot < c₀.dataShard then kFecData else kFecParity := h.type_eq
  have hshardPos : 0 < c₀.shardSize := by omega
  have hgroup : getU32 s.packet / c.shardSize = s.group := by
    rw [hsequence, hshard, Nat.mul_comm, Nat.mul_add_div hshardPos, Nat.div_eq_of_lt hslot, Nat.add_zero]
  have hmod : getU32 s.packet % c.shardSize = s.slot := by
    rw [hsequence, hshard, Nat.mul_comm, Nat.mul_add_mod, Nat.mod_eq_of_lt hslot]
  have hdrop : s.packet.drop kFecHeaderSize = c₀.shareOf packets s.group s.slot := by rw [h.packet]; rfl
  have hisData : decide (getU16 (s.packet.drop 4) = kFecData) = decide (s.slot < c₀.dataShard) :=
    decide_eq_decide.2 h.type_data
  have hknown : ¬ (getU16 (s.packet.drop 4) ≠ kFecData ∧ getU16 (s.packet.drop 4) ≠ kFecParity ∨
    getU32 s.packet ≥ kFecPaws) := by
    rw [htype, hsequence]
    split
    · rintro (hd | hw)
      · exact hd.1 rfl
      · exact Nat.not_le.2 hlt hw
    · rintro (hd | hw)
      · exact hd.2 rfl
      · exact Nat.not_le.2 hlt hw
  unfold KcptunPacketCodec.decode
  rw [hplain, if_neg (by intro hnil; rw [hnil] at hlength; change 0 = _ at hlength; omega),
    if_neg (by rw [hdata]; omega), if_neg (by rw [hlength, kFecHeaderSizePlusTwo]; omega)]
  unfold KcptunPacketCodec.receivePacket
  rw [if_neg hknown, hisData, hmod, hdata, if_neg (fun hne => hne rfl), hgroup, hdrop]

end Steps

/-! ## What has arrived -/

section Arrivals

variable {c₀ : KcptunPacketCodec} {pre : List Sent} {x : Sent} {group slot : Nat}

theorem arrived_append : Arrived (pre ++ [x]) group slot ↔ Arrived pre group slot ∨ x.group = group ∧
    x.slot = slot := by
  constructor
  · rintro ⟨s, hs, hplace⟩
    rcases mem_append.1 hs with hs | hs
    · exact .inl ⟨s, hs, hplace⟩
    · rw [mem_singleton.1 hs] at hplace
      exact .inr hplace
  · rintro (⟨s, hs, hplace⟩ | hplace)
    · exact ⟨s, mem_append_left _ hs, hplace⟩
    · exact ⟨x, mem_append_right _ (mem_singleton.2 rfl), hplace⟩

theorem arrived_mono (c₀ : KcptunPacketCodec) (pre : List Sent) (x : Sent) (group : Nat) :
    arrived c₀ pre group ≤ arrived c₀ (pre ++ [x]) group :=
  countP_mono_left fun _ _ h => decide_eq_true (arrived_append.2 (.inl (of_decide_eq_true h)))

theorem arrived_same (h : x.group = group → Arrived pre group x.slot) :
    arrived c₀ (pre ++ [x]) group = arrived c₀ pre group := by
  unfold arrived
  congr 1
  funext slot
  refine decide_eq_decide.2 (arrived_append.trans ⟨?_, .inl⟩)
  rintro (hin | ⟨hgroup, rfl⟩)
  · exact hin
  · exact h hgroup

end Arrivals

/-! ## What the receiver keeps -/

structure SameCode (c₀ c : KcptunPacketCodec) : Prop where
  cipher : c.cipher = c₀.cipher
  fec : c.fec = c₀.fec
  dataShard : c.dataShard = c₀.dataShard
  parityShard : c.parityShard = c₀.parityShard

namespace SameCode

variable {c₀ c : KcptunPacketCodec}

theorem shardSize (h : SameCode c₀ c) : c.shardSize = c₀.shardSize := by
  unfold KcptunPacketCodec.shardSize
  rw [h.dataShard, h.parityShard]

theorem shareOf (h : SameCode c₀ c) (packets : List Bytes) (group slot : Nat) :
    c.shareOf packets group slot = c₀.shareOf packets group slot := by
  unfold KcptunPacketCodec.shareOf KcptunPacketCodec.groupShares
  rw [h.dataShard, h.fec]

end SameCode

def Stored (c₀ : KcptunPacketCodec) (packets : List Bytes) (pre : List Sent) (groups : Nat → Nat →
    Option Bytes) : Prop :=
  ∀ group slot share, groups group slot = some share → Arrived pre group slot ∧
  share = c₀.shareOf packets group slot

structure Receives (c₀ : KcptunPacketCodec) (packets : List Bytes) (pre : List Sent) (places : List Nat)
    (r : KcptunPacketCodec × List Bytes) : Prop where
  code : SameCode c₀ r.1
  spec : ∀ s ∈ pre, s.Spec c₀ packets
  newest : r.1.haveNewestReceiveGroup = true → ∃ s ∈ pre, s.group = r.1.newestReceiveGroup
  stored : Stored c₀ packets pre r.1.receiveGroups
  kept : ∀ group, (∀ s ∈ pre, s.group ≤ group + kMaximumRetainedFecGroups) →
    arrived c₀ pre group < c₀.dataShard →
    ∀ slot, Arrived pre group slot → (r.1.receiveGroups group slot).isSome = true
  data : ∀ s ∈ pre, s.slot < c₀.dataShard → s.group * c₀.dataShard + s.slot ∈ places
  recovered : Recovered c₀ packets pre r.2 places

namespace Stored

variable {c₀ c : KcptunPacketCodec} {packets : List Bytes} {pre : List Sent} {groups : Nat → Nat → Option Bytes}

theorem holds (h : Stored c₀ packets pre groups) (hcode : SameCode c₀ c)
    (hspec : ∀ s ∈ pre, s.Spec c₀ packets) (group : Nat) :
    Holds c packets group (groups group) := by
  have hplace : ∀ slot share, groups group slot = some share → ∃ s ∈ pre, s.group = group ∧ s.slot = slot :=
    fun slot share hshare => (h group slot share hshare).1
  refine ⟨fun slot share hshare => ?_, fun slot share hshare hdata => ?_, fun slot share hshare hparity => ?_,
    fun slot share hshare => ?_⟩
  · obtain ⟨s, hs, -, rfl⟩ := hplace slot share hshare
    rw [hcode.shardSize]
    exact (hspec s hs).slot
  · obtain ⟨s, hs, rfl, rfl⟩ := hplace slot share hshare
    rw [hcode.dataShard] at hdata ⊢
    exact (hspec s hs).data hdata
  · obtain ⟨s, hs, rfl, rfl⟩ := hplace slot share hshare
    rw [hcode.dataShard] at hparity ⊢
    exact (hspec s hs).parity hparity
  · rw [hcode.shareOf]
    exact (h group slot share hshare).2

theorem append (h : Stored c₀ packets pre groups) (x : Sent) : Stored c₀ packets (pre ++ [x]) groups :=
  fun group slot share hshare => ⟨arrived_append.2 (.inl (h group slot share hshare).1),
    (h group slot share hshare).2⟩

theorem groupSize_le (h : Stored c₀ packets pre c.receiveGroups) (hcode : SameCode c₀ c) (group : Nat) :
    c.groupSize group ≤ arrived c₀ pre group := by
  unfold KcptunPacketCodec.groupSize arrived
  rw [hcode.shardSize]
  refine countP_mono_left fun slot _ hslot => decide_eq_true ?_
  obtain ⟨share, hshare⟩ := Option.isSome_iff_exists.1 hslot
  exact (h group slot share hshare).1

end Stored

section Retain

variable {c₀ : KcptunPacketCodec} {packets : List Bytes} {pre : List Sent} {places : List Nat}
    {r : KcptunPacketCodec × List Bytes}
  {x : Sent} {group : Nat}

theorem retain_stored {c : KcptunPacketCodec} {groupId slot : Nat} {share : Bytes}
    (h : (c.retain groupId).receiveGroups group slot = some share) :
    c.receiveGroups group slot = some share := by
  unfold KcptunPacketCodec.retain at h
  dsimp only at h
  split at h
  · split at h
    · cases h
    · exact h
  · split at h
    · cases h
    · exact h

theorem Receives.retain_newest (h : Receives c₀ packets pre places r) (x : Sent) :
    ∃ s ∈ pre ++ [x], s.group = (r.1.retain x.group).newestReceiveGroup := by
  unfold KcptunPacketCodec.retain
  split
  · exact ⟨x, mem_append_right _ (mem_singleton.2 rfl), rfl⟩
  · rename_i hgo
    obtain ⟨s, hs, hgroup⟩ := h.newest (by simpa using (not_or.1 hgo).1)
    exact ⟨s, mem_append_left _ hs, hgroup⟩

theorem Receives.retain_kept (h : Receives c₀ packets pre places r)
    (hlate : ∀ s ∈ pre ++ [x], s.group ≤ group + kMaximumRetainedFecGroups) :
    (r.1.retain x.group).receiveGroups group = r.1.receiveGroups group := by
  obtain ⟨s, hs, hgroup⟩ := h.retain_newest x
  have hle := hlate s hs
  rw [hgroup] at hle
  unfold KcptunPacketCodec.retain at hle ⊢
  dsimp only at hle ⊢
  exact if_neg fun hgone => by omega

end Retain

namespace Receives

variable {c₀ c : KcptunPacketCodec} {packets : List Bytes} {pre : List Sent} {places : List Nat}
    {r : KcptunPacketCodec × List Bytes}
  {x : Sent}

theorem init (c₀ : KcptunPacketCodec) (hfresh : c₀.haveNewestReceiveGroup = false)
    (hempty : ∀ group slot, c₀.receiveGroups group slot = none) (packets : List Bytes)
    (hpos : 0 < c₀.dataShard) :
    Receives c₀ packets [] [] (c₀, []) := by
  refine ⟨⟨rfl, rfl, rfl, rfl⟩, fun s hs => (nomatch hs), fun h => ?_, fun group slot share h => ?_,
    fun _ _ _ _ h => ?_,
    fun s hs => (nomatch hs), ⟨rfl, fun group h => ?_⟩⟩
  · rw [hfresh] at h
    cases h
  · rw [hempty] at h
    cases h
  · obtain ⟨s, hs, -⟩ := h
    cases hs
  · have hzero : arrived c₀ [] group = 0 := countP_eq_zero.2 fun slot _ hslot => by
      obtain ⟨s, hs, -⟩ := of_decide_eq_true hslot
      cases hs
    rw [hzero] at h
    exact absurd hpos (Nat.not_lt.2 h)

theorem seen (h : Receives c₀ packets pre places r) (hx : x.Spec c₀ packets)
    (hseen : ((r.1.retain x.group).receiveGroups x.group x.slot).isSome = true) :
    Receives c₀ packets (pre ++ [x]) places (r.1.retain x.group, r.2 ++ []) := by
  obtain ⟨share, hshare⟩ := Option.isSome_iff_exists.1 hseen
  have hin : Arrived pre x.group x.slot := (h.stored _ _ _ (retain_stored hshare)).1
  have hcount : ∀ group, arrived c₀ (pre ++ [x]) group = arrived c₀ pre group := fun group =>
    arrived_same fun hgroup => hgroup ▸ hin
  refine ⟨⟨h.code.cipher, h.code.fec, h.code.dataShard, h.code.parityShard⟩, fun s hs => ?_,
    fun _ => h.retain_newest x,
    fun group slot share hs => ?_, fun group hlate hfew slot harrived => ?_, fun s hs hdata =>
    ?_, ⟨?_, fun group henough => ?_⟩⟩
  · rcases mem_append.1 hs with hs | hs
    · exact h.spec s hs
    · rw [mem_singleton.1 hs]
      exact hx
  · exact h.stored.append x group slot share (retain_stored hs)
  · rw [hcount] at hfew
    have harrived : Arrived pre group slot := by
      rcases arrived_append.1 harrived with hin' | ⟨rfl, rfl⟩
      · exact hin'
      · exact hin
    rw [h.retain_kept hlate]
    exact h.kept group (fun s hs => hlate s (mem_append_left _ hs)) hfew slot harrived
  · rcases mem_append.1 hs with hs | hs
    · exact h.data s hs hdata
    · rw [mem_singleton.1 hs] at hdata ⊢
      obtain ⟨t, ht, hgroup, hslot⟩ := hin
      have hdelivered := h.data t ht (hslot.symm ▸ hdata)
      rwa [hgroup, hslot] at hdelivered
  · rw [append_nil]
    exact h.recovered.told
  · rw [hcount] at henough
    exact h.recovered.whole group henough

structure Placed (c₀ : KcptunPacketCodec) (packets : List Bytes) (pre : List Sent) (places : List Nat) (x : Sent)
    (c : KcptunPacketCodec) (outputs : List Bytes) : Prop where
  code : SameCode c₀ c
  spec : ∀ s ∈ pre ++ [x], s.Spec c₀ packets
  newest : ∃ s ∈ pre ++ [x], s.group = c.newestReceiveGroup
  stored : Stored c₀ packets (pre ++ [x]) c.receiveGroups
  kept : ∀ group, (∀ s ∈ pre ++ [x], s.group ≤ group + kMaximumRetainedFecGroups) →
    arrived c₀ pre group < c₀.dataShard →
    ∀ slot, Arrived (pre ++ [x]) group slot → (c.receiveGroups group slot).isSome = true
  data : ∀ s ∈ pre ++ [x], s.slot < c₀.dataShard → s.group * c₀.dataShard + s.slot ∈ places
  recovered : Recovered c₀ packets pre outputs places

theorem place (h : Receives c₀ packets pre places r) (hx : x.Spec c₀ packets)
    (hshort : ∀ packet ∈ packets, packet.length ≤ 0xffff - 2) :
    Placed c₀ packets pre
      (places ++ if x.slot < c₀.dataShard then [x.group * c₀.dataShard + x.slot] else []) x
      ((r.1.retain x.group).setShare x.group x.slot (c₀.shareOf packets x.group x.slot))
      (r.2 ++ if decide (x.slot < c₀.dataShard) then
        [packetOf (c₀.shareOf packets x.group x.slot)] else []) := by
  have hpacket : x.slot < c₀.dataShard → packets[x.group * c₀.dataShard + x.slot]? =
      some (packetOf (c₀.shareOf packets x.group x.slot)) := by
    intro hdata
    have hlt := hx.data hdata
    have hget : packets.getD (x.group * c₀.dataShard + x.slot) [] =
      packets[x.group * c₀.dataShard + x.slot] := by
      rw [getD_eq_getElem?_getD, getElem?_eq_getElem hlt]
      rfl
    unfold KcptunPacketCodec.shareOf
    rw [if_pos hdata, hget, (packetOf_fecShare (hshort _ (getElem_mem hlt))).2]
    exact getElem?_eq_getElem hlt
  refine ⟨⟨h.code.cipher, h.code.fec, h.code.dataShard, h.code.parityShard⟩, fun s hs => ?_, h.retain_newest x,
    fun group slot share hs => ?_, fun group hlate hfew slot harrived => ?_, fun s hs hdata =>
    ?_, ⟨?_, fun group henough index hindex => ?_⟩⟩
  · rcases mem_append.1 hs with hs | hs
    · exact h.spec s hs
    · rw [mem_singleton.1 hs]
      exact hx
  · unfold KcptunPacketCodec.setShare at hs
    dsimp only at hs
    split at hs
    · rename_i hplace
      obtain ⟨rfl, rfl⟩ := hplace
      cases hs
      exact ⟨arrived_append.2 (.inr ⟨rfl, rfl⟩), rfl⟩
    · exact h.stored.append x group slot share (retain_stored hs)
  · unfold KcptunPacketCodec.setShare
    dsimp only
    split
    · rfl
    · rename_i hother
      rw [h.retain_kept hlate]
      refine h.kept group (fun s hs => hlate s (mem_append_left _ hs)) hfew slot ?_
      rcases arrived_append.1 harrived with hin | ⟨rfl, rfl⟩
      · exact hin
      · exact absurd ⟨rfl, rfl⟩ hother
  · rcases mem_append.1 hs with hs | hs
    · exact mem_append_left _ (h.data s hs hdata)
    · rw [mem_singleton.1 hs] at hdata ⊢
      rw [if_pos hdata]
      exact mem_append_right _ (mem_singleton.2 rfl)
  · rw [map_append, map_append, h.recovered.told]
    by_cases hdata : x.slot < c₀.dataShard
    · rw [if_pos (decide_eq_true hdata), if_pos hdata, map_singleton, map_singleton, hpacket hdata]
    · rw [if_neg (by simpa using hdata), if_neg hdata]
      rfl
  · exact mem_append_left _ (h.recovered.whole group henough index hindex)

namespace Placed

variable {outputs : List Bytes}

theorem arrived_le (h : Placed c₀ packets pre places x c outputs)
    (htimely : ∀ s ∈ pre, s.group ≤ x.group + kMaximumRetainedFecGroups)
    (hfew : arrived c₀ pre x.group < c₀.dataShard) : arrived c₀ (pre ++ [x]) x.group ≤ c.groupSize x.group := by
  have hlate : ∀ s ∈ pre ++ [x], s.group ≤ x.group + kMaximumRetainedFecGroups := by
    intro s hs
    rcases mem_append.1 hs with hs | hs
    · exact htimely s hs
    · rw [mem_singleton.1 hs]
      exact Nat.le_add_right ..
  unfold KcptunPacketCodec.groupSize arrived
  rw [h.code.shardSize]
  exact countP_mono_left fun slot _ hslot => h.kept x.group hlate hfew slot (of_decide_eq_true hslot)

theorem waits (h : Placed c₀ packets pre places x c outputs)
    (htimely : ∀ s ∈ pre, s.group ≤ x.group + kMaximumRetainedFecGroups)
    (hfew : c.groupSize x.group < c.dataShard) :
    Receives c₀ packets (pre ++ [x]) places (c, outputs) := by
  rw [h.code.dataShard] at hfew
  refine ⟨h.code, h.spec, fun _ => h.newest, h.stored, fun group hlate harrived slot hslot => ?_, h.data,
    ⟨h.recovered.told, fun group henough => ?_⟩⟩
  · exact h.kept group hlate (Nat.lt_of_le_of_lt (arrived_mono ..) harrived) slot hslot
  · refine h.recovered.whole group ?_
    by_contra hnot
    by_cases hgroup : x.group = group
    · subst hgroup
      exact absurd (h.arrived_le htimely (Nat.not_le.1 hnot)) (by omega)
    · rw [arrived_same fun he => absurd he hgroup] at henough
      exact hnot henough

theorem completes (h : Placed c₀ packets pre places x c outputs) (hfec : c₀.fec.Mds c₀.dataShard c₀.parityShard)
    (hshort : ∀ packet ∈ packets, packet.length ≤ 0xffff - 2) (henough : c.dataShard ≤ c.groupSize x.group) :
    ∃ more, Receives c₀ packets (pre ++ [x]) (places ++ more) (c.eraseGroup x.group,
      outputs ++ c.recover x.group) := by
  have hmds : c.fec.Mds c.dataShard c.parityShard := by
    rw [h.code.fec, h.code.dataShard, h.code.parityShard]
    exact hfec
  obtain ⟨hrecover, hmissing⟩ := recover_spec hmds hshort (h.stored.holds h.code h.spec x.group) henough
  rw [h.code.dataShard] at henough hmissing hrecover
  refine ⟨((List.range c₀.dataShard).filter fun index => (c.receiveGroups x.group index).isNone).map
    (x.group * c₀.dataShard + ·),
    ⟨h.code.cipher, h.code.fec, h.code.dataShard, h.code.parityShard⟩, h.spec, fun _ => h.newest,
    fun group slot share hs => ?_, fun group hlate harrived slot hslot => ?_, fun s hs hdata => ?_,
    ⟨?_, fun group hgroup index hindex => ?_⟩⟩
  · unfold KcptunPacketCodec.eraseGroup at hs
    dsimp only at hs
    split at hs
    · cases hs
    · exact h.stored group slot share hs
  · unfold KcptunPacketCodec.eraseGroup
    dsimp only
    split
    · rename_i hgroup
      have hle := h.stored.groupSize_le h.code x.group
      rw [← hgroup] at hle henough
      omega
    · exact h.kept group hlate (Nat.lt_of_le_of_lt (arrived_mono ..) harrived) slot hslot
  · exact mem_append_left _ (h.data s hs hdata)
  · rw [map_append, map_append, h.recovered.told, hrecover, map_map, map_map]
    refine congrArg (_ ++ ·) (map_congr_left fun index hindex => ?_)
    obtain ⟨hlt, hnone⟩ := mem_filter.1 hindex
    have hget := getElem?_eq_getElem (hmissing index (mem_range.1 hlt) (Option.isNone_iff_eq_none.1 hnone))
    show some (packets.getD _ []) = packets[_]?
    rw [getD_eq_getElem?_getD, hget]
    rfl
  · by_cases hsame : group = x.group
    · subst hsame
      cases hstored : c.receiveGroups x.group index with
      | none =>
        exact mem_append_right _ (mem_map.2 ⟨index,
          mem_filter.2 ⟨mem_range.2 hindex, by rw [hstored]; rfl⟩, rfl⟩)
      | some share =>
        obtain ⟨s, hs, hplace, hslot⟩ := (h.stored _ _ _ hstored).1
        subst hslot
        have hmem := h.data s hs hindex
        rw [hplace] at hmem
        exact mem_append_left _ hmem
    · rw [arrived_same fun he => absurd he.symm hsame] at hgroup
      exact mem_append_left _ (h.recovered.whole group hgroup index hindex)

end Placed

theorem step (h : Receives c₀ packets pre places r) (hx : x.Spec c₀ packets) (hpos : 0 < c₀.dataShard)
    (hsound : c₀.cipher.Sound)
    (hfec : c₀.fec.Mds c₀.dataShard c₀.parityShard) (hshort : ∀ packet ∈ packets, packet.length ≤ 0xffff - 2)
    (htimely : ∀ s ∈ pre, s.group ≤ x.group + kMaximumRetainedFecGroups)
    (hwrap : (x.group + 1) * c₀.shardSize ≤ kFecPaws) :
    ∃ places', Receives c₀ packets (pre ++ [x]) places' (receive r x) := by
  have hplaced := h.place hx hshort
  have hgood : ¬ (decide (x.slot < c₀.dataShard) = true ∧ ((c₀.shareOf packets x.group x.slot).length < 2 ∨
      getU16 (c₀.shareOf packets x.group x.slot) > (c₀.shareOf packets x.group x.slot).length ∨
      getU16 (c₀.shareOf packets x.group x.slot) < 2)) := by
    rintro ⟨hdata, hbad⟩
    have hdata := of_decide_eq_true hdata
    have hlt := hx.data hdata
    have hmem : packets.getD (x.group * c₀.dataShard + x.slot) [] ∈ packets := by
      rw [getD_eq_getElem?_getD, getElem?_eq_getElem hlt]
      exact getElem_mem hlt
    have hsize := (packetOf_fecShare (hshort _ hmem)).1
    have hlength : (fecShare (packets.getD (x.group * c₀.dataShard + x.slot) [])).length =
        (packets.getD (x.group * c₀.dataShard + x.slot) []).length + 2 := by
      unfold fecShare
      rw [length_append, putU16_length, Nat.add_comm]
    unfold KcptunPacketCodec.shareOf at hbad
    rw [if_pos hdata, hsize, hlength] at hbad
    omega
  unfold receive
  rw [hx.decode_eq h.code.cipher h.code.dataShard h.code.parityShard hpos hsound hfec hwrap]
  unfold KcptunPacketCodec.receiveShare
  by_cases hseen : ((r.1.retain x.group).receiveGroups x.group x.slot).isSome = true
  · rw [if_pos hseen]
    exact ⟨places, h.seen hx hseen⟩
  · rw [if_neg hseen]
    dsimp only
    rw [if_neg hgood]
    split
    · rename_i hfew
      exact ⟨_, hplaced.waits htimely hfew⟩
    · rename_i henough
      obtain ⟨more, hdone⟩ := hplaced.completes hfec hshort (Nat.not_lt.1 henough)
      rw [append_assoc r.2] at hdone
      exact ⟨_, hdone⟩

end Receives

/-! ## Every delivery -/

theorem takenAll_short (c : KcptunPacketCodec) (calls : List Call) :
    ∀ packet ∈ c.takenAll calls, packet.length ≤ 0xffff - 2 := by
  intro packet hmem
  obtain ⟨e, -, he⟩ := mem_flatMap.1 hmem
  unfold KcptunPacketCodec.taken at he
  split at he
  · rename_i htakes
    rw [mem_singleton.1 he]
    unfold KcptunPacketCodec.takes at htakes
    rw [Bool.and_eq_true] at htakes
    exact of_decide_eq_true htakes.2
  · cases he

theorem receives_run {c₀ : KcptunPacketCodec} {packets : List Bytes} (hpos : 0 < c₀.dataShard)
    (hsound : c₀.cipher.Sound)
    (hfec : c₀.fec.Mds c₀.dataShard c₀.parityShard) (hshort : ∀ packet ∈ packets, packet.length ≤ 0xffff - 2) :
    ∀ (rest pre : List Sent) (places : List Nat) (r : KcptunPacketCodec × List Bytes),
    Receives c₀ packets pre places r →
      (∀ s ∈ rest, s.Spec c₀ packets) → (∀ s ∈ rest, (s.group + 1) * c₀.shardSize ≤ kFecPaws) →
      Timely (pre ++ rest) →
        ∃ places', Receives c₀ packets (pre ++ rest) places' (run receive r rest)
  | [], pre, places, r, h, _, _, _ => ⟨places, by rwa [append_nil]⟩
  | x :: rest, pre, _, r, h, hspec, hwrap, htimely => by
    have hnow : ∀ s ∈ pre, s.group ≤ x.group + kMaximumRetainedFecGroups := fun s hs =>
      (pairwise_append.1 htimely).2.2 s hs x mem_cons_self
    obtain ⟨places, hstep⟩ := h.step (hspec x mem_cons_self) hpos hsound hfec hshort hnow (hwrap x mem_cons_self)
    rw [append_cons] at htimely ⊢
    exact receives_run hpos hsound hfec hshort rest (pre ++ [x]) places (receive r x) hstep
      (fun s hs => hspec s (mem_cons_of_mem _ hs)) (fun s hs => hwrap s (mem_cons_of_mem _ hs)) htimely

/-- **In every delivery of packets of groups that were numbered before the wrap**, groups of which enough
has arrived are delivered whole, after each packet, and nothing else is. -/
theorem fec_recovers {cipher : Cipher} {fec : ZFec} {dataShard parityShard : Int} {c : KcptunPacketCodec}
    (h : KcptunPacketCodec.create cipher fec dataShard parityShard = .ok c) (hsound : cipher.Sound)
    (hfec : fec.Mds dataShard.toNat parityShard.toNat) (calls : List Call) (delivery : List Sent)
    (hsent : ∀ s ∈ delivery, s ∈ c.emitted [] calls) (htimely : Timely delivery)
    (hwrap : ∀ s ∈ delivery, (s.group + 1) * c.shardSize ≤ kFecPaws) :
    ∀ pre, pre <+: delivery → ∃ places, Recovered c (c.takenAll calls) pre
    (run receive (c, []) pre).2 places := by
  rintro pre ⟨rest, rfl⟩
  cases create_ok h
  rcases Nat.eq_zero_or_pos dataShard.toNat with hzero | hpos
  · have hnone : pre = [] := eq_nil_iff_forall_not_mem.2 fun s hs => by
      have hs := hsent s (mem_append_left _ hs)
      rw [emitted_nil_of_no_fec calls [] hzero] at hs
      cases hs
    subst hnone
    exact ⟨[], rfl, fun group _ index hindex => absurd (hzero ▸ hindex) (Nat.not_lt_zero index)⟩
  · have hspec := Encodes.emitted_spec calls (Encodes.init cipher fec parityShard.toNat hpos)
    obtain ⟨places, hreceives⟩ := receives_run hpos hsound hfec (takenAll_short _ calls) pre [] [] _
      (Receives.init _ rfl (fun _ _ => rfl) _ hpos)
      (fun s hs => hspec s (hsent s (mem_append_left _ hs))) (fun s hs => hwrap s (mem_append_left _ hs))
      (pairwise_append.1 htimely).1
    exact ⟨places, hreceives.recovered⟩

/-! ## Codes -/

def twice (x : UInt8) : UInt8 := if x < 128 then x <<< 1 else (x <<< 1) ^^^ 0x1d

def half (x : UInt8) : UInt8 := if x &&& 1 = 0 then x >>> 1 else ((x ^^^ 0x1d) >>> 1) ||| 128

def thrice (x : UInt8) : UInt8 := twice x ^^^ x

def third (x : UInt8) : UInt8 := thrice^[50] x

theorem half_twice (x : UInt8) : half (twice x) = x := by
  have hall : ∀ n < 256, half (twice (UInt8.ofNat n)) = UInt8.ofNat n := by decide +kernel
  have hx := hall x.toNat x.toNat_lt
  rwa [UInt8.ofNat_toNat] at hx

theorem third_thrice (x : UInt8) : third (thrice x) = x := by
  have hall : ∀ n < 256, third (thrice (UInt8.ofNat n)) = UInt8.ofNat n := by decide +kernel
  have hx := hall x.toNat x.toNat_lt
  rwa [UInt8.ofNat_toNat] at hx

def twoOne : ZFec where
  encodeShare shares size slot :=
    if slot < 2 then (shares.getD slot []).take size
    else ((shares.getD 0 []).zipWith (fun x y => thrice x ^^^ twice y) (shares.getD 1 [])).take size
  decodeShare present _ index :=
    (present index).getD
      (((present 2).getD []).zipWith (fun z x => if index = 0 then third (z ^^^ twice x)
        else half (z ^^^ thrice x))
        ((present (1 - index)).getD []))

variable {f g : UInt8 → UInt8 → UInt8}

theorem zipWith_zipWith_left (hfg : ∀ x y, f (g x y) y = x) : ∀ xs ys : Bytes, xs.length = ys.length →
    (xs.zipWith g ys).zipWith f ys = xs
  | [], _, _ => rfl
  | x :: xs, y :: ys, h => by
    rw [zipWith_cons_cons, zipWith_cons_cons, hfg, zipWith_zipWith_left hfg xs ys (Nat.succ.inj h)]

theorem zipWith_zipWith_right (hfg : ∀ x y, f (g x y) x = y) : ∀ xs ys : Bytes, xs.length = ys.length →
    (xs.zipWith g ys).zipWith f xs = ys
  | [], [], _ => rfl
  | x :: xs, y :: ys, h => by
    rw [zipWith_cons_cons, zipWith_cons_cons, hfg, zipWith_zipWith_right hfg xs ys (Nat.succ.inj h)]

theorem twoOne_mds : twoOne.Mds 2 1 := by
  have hpair : ∀ {shares : List Bytes} {size : Nat}, shares.length = 2 →
    (∀ share ∈ shares, share.length = size) →
      ∃ x y, shares = [x, y] ∧ x.length = size ∧ y.length = size := by
    intro shares size hlength hall
    obtain ⟨x, y, rfl⟩ := length_eq_two.1 hlength
    exact ⟨x, y, rfl, hall x mem_cons_self, hall y (mem_cons_of_mem _ (mem_singleton.2 rfl))⟩
  refine ⟨fun shares size slot hlength hall hslot => ?_,
    fun shares size present hlength hall hright henough index hindex => ?_⟩
  · obtain ⟨x, y, rfl, hx, hy⟩ := hpair hlength hall
    change (if slot < 2 then ([x, y].getD slot []).take size
      else (x.zipWith (fun x y => thrice x ^^^ twice y) y).take size).length = size
    split
    · rename_i hdata
      obtain rfl | rfl : slot = 0 ∨ slot = 1 := by omega
      · change (x.take size).length = size
        rw [length_take, hx, Nat.min_self]
      · change (y.take size).length = size
        rw [length_take, hy, Nat.min_self]
    · rw [length_take, length_zipWith, hx, hy, Nat.min_self, Nat.min_self]
  · obtain ⟨x, y, rfl, hx, hy⟩ := hpair hlength hall
    have hparity : ∀ {z : Bytes}, present 2 = some z → z = x.zipWith (fun x y => thrice x ^^^ twice y) y := by
      intro z hz
      refine ((hright 2 z hz).2.trans (if_neg (by decide))).trans ?_
      change (x.zipWith (fun x y => thrice x ^^^ twice y) y).take size = _
      exact take_of_length_le (Nat.le_of_eq (by rw [length_zipWith, hx, hy, Nat.min_self]))
    have hcount : 2 ≤ [present 0, present 1, present 2].countP Option.isSome := henough
    obtain rfl | rfl : index = 0 ∨ index = 1 := by omega
    · cases h0 : present 0 with
      | some share =>
        change (present 0).getD _ = _
        rw [h0]
        exact (hright 0 share h0).2.trans (if_pos (by decide))
      | none =>
        cases h1 : present 1 with
        | none => cases h2 : present 2 <;> simp [h0, h1, h2] at hcount
        | some share =>
          cases h2 : present 2 with
          | none => simp [h0, h1, h2] at hcount
          | some z =>
            have hshare : share = y := (hright 1 share h1).2.trans (if_pos (by decide))
            change (present 0).getD (((present 2).getD []).zipWith (fun z x => third (z ^^^ twice x))
              ((present 1).getD [])) = x
            rw [h0, h1, h2]
            rw [hparity h2, hshare]
            refine zipWith_zipWith_left (fun a b => ?_) x y (hx.trans hy.symm)
            rw [UInt8.xor_assoc, UInt8.xor_self, UInt8.xor_zero]
            exact third_thrice a
    · cases h1 : present 1 with
      | some share =>
        change (present 1).getD _ = _
        rw [h1]
        exact (hright 1 share h1).2.trans (if_pos (by decide))
      | none =>
        cases h0 : present 0 with
        | none => cases h2 : present 2 <;> simp [h0, h1, h2] at hcount
        | some share =>
          cases h2 : present 2 with
          | none => simp [h0, h1, h2] at hcount
          | some z =>
            have hshare : share = x := (hright 0 share h0).2.trans (if_pos (by decide))
            change (present 1).getD (((present 2).getD []).zipWith (fun z x => half (z ^^^ thrice x))
              ((present 0).getD [])) = y
            rw [h0, h1, h2]
            rw [hparity h2, hshare]
            refine zipWith_zipWith_right (fun a b => ?_) x y (hx.trans hy.symm)
            rw [UInt8.xor_comm (thrice a), UInt8.xor_assoc, UInt8.xor_self, UInt8.xor_zero]
            exact half_twice b

theorem plain_sound : ({ kind := .nullCipher } : Cipher).Sound :=
  ⟨by decide, nofun, nofun⟩

def twoOneCodec : KcptunPacketCodec where
  cipher := { kind := .nullCipher }
  fec := twoOne
  dataShard := 2
  parityShard := 1

/-- Two packets of different lengths, of which the second does not arrive, and the first after the parity
packet. -/
theorem fec_recovers_two_one :
    let calls : List Call := [{ packet := [1, 2, 3] }, { packet := [4] }]
    let delivery := (twoOneCodec.emitted [] calls).reverse.filter fun s => s.slot ≠ 1
    ∀ pre, pre <+: delivery → ∃ places,
      Recovered twoOneCodec (twoOneCodec.takenAll calls) pre (run receive (twoOneCodec, []) pre).2 places :=
  fec_recovers (show KcptunPacketCodec.create _ _ 2 1 = .ok twoOneCodec from rfl) plain_sound twoOne_mds _ _
    (fun s hs => mem_reverse.1 (mem_filter.1 hs).1) (by decide +kernel) (by decide +kernel)

/-- One and one: behind the wrap a data packet has the number of a parity packet, and what arrives is
dropped. -/
theorem wrapped_packet_dropped :
    ¬ ∀ delivery, (∀ s ∈ delivery, s ∈ shortRun 1 1 2147483649) → Timely delivery →
      ∃ places, Recovered (KcptunPacketCodec.plain 1 1)
      ((KcptunPacketCodec.plain 1 1).takenAll (List.replicate 2147483649 shortest)) delivery
        (run receive (KcptunPacketCodec.plain 1 1, []) delivery).2 places := by
  intro h
  obtain ⟨packets, hspec⟩ := shortRun_spec (d := 1) (p := 1) (n := 2147483649) (by decide)
  obtain ⟨s, hs, hgroup, hslot⟩ := shortRun_data (d := 1) (p := 1) (n := 2147483649) (k := 2147483648)
    (by decide) (by decide)
  have hspec := hspec s hs
  have hpacket : decryptPacket (KcptunPacketCodec.plain 1 1).cipher s.wire = s.packet := by
    obtain ⟨random, hwire, -⟩ := hspec.wire
    exact hwire
  have hsequence : getU32 s.packet = 1 := by
    have heq := hspec.sequence_eq
    rw [hgroup, hslot] at heq
    exact heq
  have htype : getU16 (s.packet.drop 4) = kFecData := hspec.type_data.2 (by rw [hslot]; decide)
  have hdropped : ((KcptunPacketCodec.plain 1 1).decode s.wire).2 = [] := by
    unfold KcptunPacketCodec.decode
    dsimp only
    rw [hpacket]
    split
    · rfl
    · rw [if_neg (by decide)]
      split
      · rfl
      · unfold KcptunPacketCodec.receivePacket
        rw [hsequence, htype]
        rfl
  have hone : (KcptunPacketCodec.plain 1 1).dataShard ≤ arrived
    (KcptunPacketCodec.plain 1 1) [s] 2147483648 := by
    refine countP_pos_iff.2 ⟨0, by decide, decide_eq_true ⟨s, mem_singleton.2 rfl, hgroup, hslot⟩⟩
  obtain ⟨places, hrecovered⟩ := h [s] (fun t ht => by rw [mem_singleton.1 ht]; exact hs) (pairwise_singleton ..)
  have hmem := hrecovered.whole 2147483648 hone 0 (by decide)
  have htold := hrecovered.told
  change ([] ++ ((KcptunPacketCodec.plain 1 1).decode s.wire).2).map some = _ at htold
  rw [hdropped] at htold
  rw [map_eq_nil_iff.1 htold.symm] at hmem
  cases hmem

end ClashNative.Kcptun
