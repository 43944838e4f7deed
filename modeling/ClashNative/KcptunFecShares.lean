import ClashNative.KcptunFecRuns
/-!
# KcptunFecShares — a group from enough of its shares

Shares of one group have different lengths until they are padded to the longest.  With as many shares as
there are data shards, one that is missing leaves a parity share among them, and that one has the padded
length: so the missing packets come out as they were, if the code is MDS (`ZFec.Mds`).
-/
namespace ClashNative.Kcptun

open List

structure ZFec.Mds (fec : ZFec) (dataShard parityShard : Nat) : Prop where
  length : ∀ shares size slot, shares.length = dataShard → (∀ share ∈ shares, share.length = size) →
    slot < dataShard + parityShard → (fec.encodeShare shares size slot).length = size
  decode : ∀ shares size present, shares.length = dataShard → (∀ share ∈ shares, share.length = size) →
    (∀ slot share, present slot = some share → slot < dataShard + parityShard ∧
      share = if slot < dataShard then shares.getD slot [] else fec.encodeShare shares size slot) →
    dataShard ≤ (List.range (dataShard + parityShard)).countP (fun slot => (present slot).isSome) →
    ∀ index < dataShard, fec.decodeShare present size index = shares.getD index []

/-! ## Sizes -/

variable {size : Nat} {share : Bytes}

theorem resize_length (h : share.length ≤ size) : (resize share size).length = size := by
  unfold resize
  rw [length_append, length_replicate]
  omega

theorem foldl_max_ge : ∀ (shares : List Bytes) (size : Nat),
    size ≤ shares.foldl (fun size share => max size share.length) size ∧
    ∀ share ∈ shares, share.length ≤ shares.foldl (fun size share => max size share.length) size
  | [], size => ⟨Nat.le_refl _, fun share h => nomatch h⟩
  | x :: shares, size => by
    obtain ⟨hsize, hall⟩ := foldl_max_ge shares (max size x.length)
    refine ⟨Nat.le_trans (Nat.le_max_left ..) hsize, fun share h => ?_⟩
    rcases mem_cons.1 h with rfl | h
    · exact Nat.le_trans (Nat.le_max_right ..) hsize
    · exact hall share h

theorem le_longest {shares : List Bytes} (h : share ∈ shares) : share.length ≤ longest shares :=
  (foldl_max_ge shares 0).2 share h

variable {packet : Bytes}

theorem packetOf_resize (h : packet.length ≤ 0xffff - 2) (size : Nat) :
    getU16 (resize (fecShare packet) size) = packet.length + 2 ∧
    packetOf (resize (fecShare packet) size) = packet := by
  have hsize : getU16 (resize (fecShare packet) size) = packet.length + 2 := by
    exact getU16_putU16 (by omega) _
  refine ⟨hsize, ?_⟩
  unfold packetOf
  rw [hsize]
  unfold resize
  rw [take_left' (by unfold fecShare; rw [length_append, putU16_length, Nat.add_comm])]
  rfl

theorem packetOf_fecShare (h : packet.length ≤ 0xffff - 2) :
    getU16 (fecShare packet) = packet.length + 2 ∧ packetOf (fecShare packet) = packet := by
  have hresize : resize (fecShare packet) 0 = fecShare packet := by
    unfold resize
    rw [Nat.zero_sub]
    exact append_nil _
  have h' := packetOf_resize h 0
  rwa [hresize] at h'

variable {f : Nat → Nat}

theorem foldr_max_le : ∀ l : List Nat, (∀ slot ∈ l, f slot ≤ size) →
    l.foldr (fun slot size => max (f slot) size) 0 ≤ size
  | [], _ => Nat.zero_le _
  | slot :: l, h => Nat.max_le.2 ⟨h slot mem_cons_self, foldr_max_le l fun s hs => h s (mem_cons_of_mem _ hs)⟩

theorem le_foldr_max : ∀ {l : List Nat} {slot : Nat}, slot ∈ l →
    f slot ≤ l.foldr (fun slot size => max (f slot) size) 0
  | x :: l, slot, h => by
    rcases mem_cons.1 h with rfl | h
    · exact Nat.le_max_left ..
    · exact Nat.le_trans (le_foldr_max h) (Nat.le_max_right ..)

/-! ## Groups -/

/-- **The shares of a group that there are stand in their places.** -/
structure Holds (c : KcptunPacketCodec) (packets : List Bytes) (group : Nat) (slots : Nat →
    Option Bytes) : Prop where
  slot : ∀ slot share, slots slot = some share → slot < c.shardSize
  data : ∀ slot share, slots slot = some share → slot < c.dataShard → group * c.dataShard + slot < packets.length
  parity : ∀ slot share, slots slot = some share → c.dataShard ≤ slot →
    (group + 1) * c.dataShard ≤ packets.length
  share : ∀ slot share, slots slot = some share → share = c.shareOf packets group slot

variable {group : Nat} {packets : List Bytes} {c : KcptunPacketCodec}

theorem groupShares_length
    (h : (group + 1) * c.dataShard ≤ packets.length) : (c.groupShares packets group).length = c.dataShard := by
  unfold KcptunPacketCodec.groupShares
  rw [Nat.succ_mul] at h
  rw [length_map, length_take, length_drop]
  omega

variable {i : Nat}

theorem groupShares_get
    (h : (group + 1) * c.dataShard ≤ packets.length) (hi : i < c.dataShard) :
    (c.groupShares packets group)[i]? = some (fecShare (packets.getD (group * c.dataShard + i) [])) := by
  have hlt : group * c.dataShard + i < packets.length := by
    rw [Nat.succ_mul] at h
    omega
  unfold KcptunPacketCodec.groupShares
  rw [getElem?_map, getElem?_take, if_pos hi, getElem?_drop, getD_eq_getElem?_getD,
    getElem?_eq_getElem hlt]
  rfl

theorem exists_parity {d p : Nat} {f : Nat → Bool} (h : d ≤ (List.range (d + p)).countP f) (hi : i < d)
    (hf : f i = false) :
    ∃ slot, d ≤ slot ∧ slot < d + p ∧ f slot = true := by
  by_contra hnone
  rw [range_add, countP_append] at h
  have hzero : ((List.range p).map (d + ·)).countP f = 0 := by
    rw [countP_eq_zero]
    intro slot hslot hf
    obtain ⟨k, hk, rfl⟩ := mem_map.1 hslot
    exact hnone ⟨d + k, Nat.le_add_right .., Nat.add_lt_add_left (mem_range.1 hk) d, hf⟩
  have hall : (List.range d).countP f = (List.range d).length :=
    Nat.le_antisymm countP_le_length (by rw [length_range]; omega)
  exact absurd (countP_eq_length.1 hall i (mem_range.2 hi)) (by simp [hf])

namespace Holds

variable {c : KcptunPacketCodec} {packets : List Bytes} {group : Nat} {slots : Nat → Option Bytes}

theorem length_le (h : Holds c packets group slots) (hfec : c.fec.Mds c.dataShard c.parityShard)
    (hwhole : (group + 1) * c.dataShard ≤ packets.length) {slot : Nat} {share : Bytes}
    (hslot : slots slot = some share) :
    share.length ≤ longest (c.groupShares packets group) ∧
    (c.dataShard ≤ slot → share.length = longest (c.groupShares packets group)) := by
  have hshare := h.share slot share hslot
  unfold KcptunPacketCodec.shareOf at hshare
  by_cases hdata : slot < c.dataShard
  · rw [if_pos hdata] at hshare
    refine ⟨?_, fun hp => absurd hdata (Nat.not_lt.2 hp)⟩
    rw [hshare]
    exact le_longest (mem_iff_getElem?.2 ⟨slot, groupShares_get hwhole hdata⟩)
  · rw [if_neg hdata] at hshare
    have hlength := hfec.length ((c.groupShares packets group).map
      (resize · (longest (c.groupShares packets group))))
      (longest (c.groupShares packets group)) slot (by rw [length_map, groupShares_length hwhole])
      (fun x hx => by
        obtain ⟨y, hy, rfl⟩ := mem_map.1 hx
        exact resize_length (le_longest hy))
      (h.slot slot share hslot)
    rw [hshare]
    exact ⟨Nat.le_of_eq hlength, fun _ => hlength⟩

theorem decodeShare_eq (h : Holds c packets group slots) (hfec : c.fec.Mds c.dataShard c.parityShard)
    (hwhole : (group + 1) * c.dataShard ≤ packets.length) {size : Nat}
    (hsize : size = longest (c.groupShares packets group))
    (henough : c.dataShard ≤ (List.range (c.dataShard + c.parityShard)).countP fun slot =>
      (slots slot).isSome) {index : Nat}
    (hindex : index < c.dataShard) :
    c.fec.decodeShare (fun slot => (slots slot).map (resize · size)) size index =
      resize (fecShare (packets.getD (group * c.dataShard + index) [])) size := by
  subst hsize
  have hdecode := hfec.decode ((c.groupShares packets group).map
    (resize · (longest (c.groupShares packets group))))
    (longest (c.groupShares packets group))
    (fun slot => (slots slot).map (resize · (longest (c.groupShares packets group))))
    (by rw [length_map, groupShares_length hwhole])
    (fun x hx => by
      obtain ⟨y, hy, rfl⟩ := mem_map.1 hx
      exact resize_length (le_longest hy))
    (fun slot x hx => by
      obtain ⟨share, hshare, rfl⟩ := Option.map_eq_some_iff.1 hx
      refine ⟨h.slot slot share hshare, ?_⟩
      have hlength := h.length_le hfec hwhole hshare
      have heq := h.share slot share hshare
      unfold KcptunPacketCodec.shareOf at heq
      by_cases hdata : slot < c.dataShard
      · rw [if_pos hdata] at heq ⊢
        rw [getD_eq_getElem?_getD, getElem?_map, groupShares_get hwhole hdata, heq]
        rfl
      · rw [if_neg hdata] at heq ⊢
        have hfull := hlength.2 (Nat.not_lt.1 hdata)
        unfold resize
        rw [hfull, Nat.sub_self]
        exact (append_nil _).trans heq)
    (by simpa using henough) index hindex
  rw [hdecode, getD_eq_getElem?_getD, getElem?_map, groupShares_get hwhole hindex]
  rfl

end Holds

/-! ## Recovery -/

/-- **What is missing of a group** of which there is enough **is recovered**. -/
theorem recover_spec
    (hfec : c.fec.Mds c.dataShard c.parityShard) (hshort : ∀ packet ∈ packets, packet.length ≤ 0xffff - 2)
    (h : Holds c packets group (c.receiveGroups group)) (henough : c.dataShard ≤ c.groupSize group) :
    c.recover group = ((List.range c.dataShard).filter fun index => (c.receiveGroups group index).isNone).map
      (fun index => packets.getD (group * c.dataShard + index) []) ∧
    ∀ index < c.dataShard, c.receiveGroups group index = none →
    group * c.dataShard + index < packets.length := by
  have hcount : c.dataShard ≤ (List.range (c.dataShard + c.parityShard)).countP fun slot =>
    (c.receiveGroups group slot).isSome :=
    henough
  have hone : ∀ index < c.dataShard, c.receiveGroups group index = none →
      group * c.dataShard + index < packets.length ∧ 2 ≤ c.shareSize group ∧
      c.fec.decodeShare (fun slot => (c.receiveGroups group slot).map (resize · (c.shareSize group)))
      (c.shareSize group) index =
        resize (fecShare (packets.getD (group * c.dataShard + index) [])) (c.shareSize group) ∧
      (packets.getD (group * c.dataShard + index) []).length + 2 ≤ c.shareSize group := by
    intro index hindex hmissing
    obtain ⟨slot, hparity, -, hsome⟩ := exists_parity hcount hindex (by rw [hmissing]; rfl)
    obtain ⟨share, hshare⟩ := Option.isSome_iff_exists.1 hsome
    have hwhole := h.parity slot share hshare hparity
    have hlt : group * c.dataShard + index < packets.length := by
      rw [Nat.succ_mul] at hwhole
      omega
    have hsize : c.shareSize group = longest (c.groupShares packets group) := by
      refine Nat.le_antisymm (foldr_max_le _ fun s _ => ?_) ?_
      · cases hs : c.receiveGroups group s with
        | none => exact Nat.zero_le _
        | some x => exact (h.length_le hfec hwhole hs).1
      · rw [← (h.length_le hfec hwhole hshare).2 hparity]
        have hmem : slot ∈ List.range c.shardSize := mem_range.2 (h.slot slot share hshare)
        have hle := le_foldr_max (f := fun s => ((c.receiveGroups group s).map List.length).getD 0) hmem
        rw [hshare] at hle
        exact hle
    have hlong : (packets.getD (group * c.dataShard + index) []).length + 2 ≤ c.shareSize group := by
      have hle := le_longest (mem_iff_getElem?.2 ⟨index, groupShares_get hwhole hindex⟩)
      unfold fecShare at hle
      rw [length_append, putU16_length] at hle
      omega
    exact ⟨hlt, by omega, h.decodeShare_eq hfec hwhole hsize hcount hindex, hlong⟩
  have hpacket : ∀ index, group * c.dataShard + index < packets.length →
      packets.getD (group * c.dataShard + index) [] ∈ packets := by
    intro index hlt
    rw [getD_eq_getElem?_getD, getElem?_eq_getElem hlt]
    exact getElem_mem hlt
  refine ⟨?_, fun index hindex hmissing => (hone index hindex hmissing).1⟩
  unfold KcptunPacketCodec.recover
  rw [← filterMap_eq_map, filterMap_filter]
  refine filterMap_congr fun index hindex => ?_
  by_cases hmissing : c.receiveGroups group index = none
  · obtain ⟨hlt, htwo, heq, hlong⟩ := hone index (mem_range.1 hindex) hmissing
    obtain ⟨hget, hpacketOf⟩ := packetOf_resize (hshort _ (hpacket index hlt)) (c.shareSize group)
    dsimp only
    rw [heq, hget, hpacketOf, hmissing, if_neg (by simp; omega), if_pos ⟨by omega, hlong⟩]
    rfl
  · dsimp only
    rw [if_pos (.inl (Option.isSome_iff_ne_none.2 hmissing)), if_neg (by simpa using hmissing)]

end ClashNative.Kcptun
