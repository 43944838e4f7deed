import ClashNative.KcptunFec
/-!
# KcptunFecRuns — what an encoder sends

A run of the encoder takes packets into groups of `dataShard`.  `Sent.Spec` says of everything that was
sent which number and which share its place in its group gave it; what was never sent has its number all
the same.
-/
namespace ClashNative.Kcptun

open List

structure Call where
  packet : Bytes
  now : Int := 1
  random : Nat → Option (Nat → UInt8) := fun _ => none

/-- A packet that was sent: its group and its place there, and what it is before and after it is
encrypted. -/
structure Sent where
  group : Nat
  slot : Nat
  packet : Bytes
  wire : Bytes
  deriving DecidableEq, Repr

def Sent.sequence (s : Sent) : Nat := getU32 s.packet
def Sent.type (s : Sent) : Nat := getU16 (s.packet.drop 4)

def longest (shares : List Bytes) : Nat := shares.foldl (fun size share => max size share.length) 0

namespace KcptunPacketCodec

/-- What a call sends, after `n` packets were taken. -/
def sends (c : KcptunPacketCodec) (n : Nat) (e : Call) : List Sent :=
  let wires := (c.encode e.packet e.now e.random).2
  if c.takes e.packet = false ∨ wires = [] then []
  else ((c.encodePackets e.packet e.now).2.zip wires).mapIdx fun i x =>
    ⟨n / c.dataShard, if i = 0 then n % c.dataShard else c.dataShard + (i - 1), x.1, x.2⟩

def taken (c : KcptunPacketCodec) (e : Call) : List Bytes := if c.takes e.packet then [e.packet] else []

def emitted : KcptunPacketCodec → List Bytes → List Call → List Sent
  | _, _, [] => []
  | c, packets, e :: es => c.sends packets.length e ++
    emitted (c.encode e.packet e.now e.random).1 (packets ++ c.taken e) es

def takenAll (c : KcptunPacketCodec) (calls : List Call) : List Bytes := calls.flatMap c.taken

/-! ## Groups -/

def sequenceOf (c : KcptunPacketCodec) (group slot : Nat) : Nat := (group * c.shardSize + slot) % kFecPaws

def groupShares (c : KcptunPacketCodec) (packets : List Bytes) (group : Nat) : List Bytes :=
  ((packets.drop (group * c.dataShard)).take c.dataShard).map fecShare

def shareOf (c : KcptunPacketCodec) (packets : List Bytes) (group slot : Nat) : Bytes :=
  if slot < c.dataShard then fecShare (packets.getD (group * c.dataShard + slot) [])
  else
    let shares := c.groupShares packets group
    c.fec.encodeShare (shares.map (resize · (longest shares))) (longest shares) slot

end KcptunPacketCodec

structure Sent.Spec (c : KcptunPacketCodec) (packets : List Bytes) (s : Sent) : Prop where
  slot : s.slot < c.shardSize
  data : s.slot < c.dataShard → s.group * c.dataShard + s.slot < packets.length
  parity : c.dataShard ≤ s.slot → (s.group + 1) * c.dataShard ≤ packets.length
  packet : s.packet = makeFecPacket (c.sequenceOf s.group s.slot)
    (if s.slot < c.dataShard then kFecData else kFecParity)
    (c.shareOf packets s.group s.slot)
  wire : ∃ random, s.wire = cryptPacket c.cipher random s.packet ∧ s.wire ≠ []

/-! ## The encoder's state -/

theorem advance_iterate (k : Nat) : ∀ i : Nat, advanceFecSequence^[i] (k % kFecPaws) = (k + i) % kFecPaws
  | 0 => rfl
  | i + 1 => by
    rw [Function.iterate_succ_apply', advance_iterate k i, advanceFecSequence, kFecPaws]
    split <;> omega

theorem longest_append (shares : List Bytes) (share : Bytes) :
    longest (shares ++ [share]) = max (longest shares) share.length :=
  foldl_append

/-- **The encoder after the given packets**: `group` whole groups and `j` packets more. -/
structure Encodes (c₀ : KcptunPacketCodec) (packets : List Bytes) (group j : Nat)
    (c : KcptunPacketCodec) : Prop where
  cipher : c.cipher = c₀.cipher
  fec : c.fec = c₀.fec
  dataShard : c.dataShard = c₀.dataShard
  parityShard : c.parityShard = c₀.parityShard
  length : packets.length = group * c₀.dataShard + j
  partly : j < c₀.dataShard
  sequence : c.nextFecSequence = c₀.sequenceOf group j
  shares : c.fecGroup.shares = (packets.drop (group * c₀.dataShard)).map fecShare
  maxSize : c.fecGroup.maxSize = longest c.fecGroup.shares

namespace Encodes

variable {c₀ c : KcptunPacketCodec} {packets : List Bytes} {group j : Nat}

theorem init (cipher : Cipher) (fec : ZFec) {d : Nat} (p : Nat) (h : 0 < d) :
    Encodes { cipher, fec, dataShard := d, parityShard := p } []
    0 0 { cipher, fec, dataShard := d, parityShard := p } := by
  refine ⟨rfl, rfl, rfl, rfl, ?_, h, ?_, ?_, rfl⟩
  · simp
  · simp [KcptunPacketCodec.sequenceOf]
  · simp

theorem takes_eq (h : Encodes c₀ packets group j c) (packet : Bytes) : c.takes packet = c₀.takes packet := by
  unfold KcptunPacketCodec.takes
  rw [h.dataShard]

variable {packet : Bytes}

theorem refused (h : Encodes c₀ packets group j c) (hnot : c.takes packet = false) (now : Int) :
    (c.encodePackets packet now).1 = c := by
  have hdata : c.dataShard ≠ 0 := by
    have := h.partly
    have := h.dataShard
    omega
  unfold KcptunPacketCodec.takes at hnot
  have hlong : ¬ packet.length ≤ 0xffff - 2 := by simpa [hdata] using hnot
  unfold KcptunPacketCodec.encodePackets
  rw [if_neg hdata, if_pos (Nat.not_le.1 hlong)]

theorem push_length (h : Encodes c₀ packets group j c) (packet : Bytes) (now : Int) :
    (c.fecGroup.push packet now).shares.length = j + 1 := by
  have hl := h.length
  unfold FecGroup.push
  rw [length_append, h.shares, length_map, length_drop]
  change packets.length - group * c₀.dataShard + 1 = j + 1
  omega

theorem push_shares (h : Encodes c₀ packets group j c) (packet : Bytes) (now : Int) :
    (c.fecGroup.push packet now).shares = ((packets ++ [packet]).drop (group * c₀.dataShard)).map fecShare := by
  have hl := h.length
  unfold FecGroup.push
  rw [drop_append_of_le_length (by omega), map_append, h.shares]
  rfl

theorem push_maxSize (h : Encodes c₀ packets group j c) (packet : Bytes) (now : Int) :
    (c.fecGroup.push packet now).maxSize = longest (c.fecGroup.push packet now).shares := by
  unfold FecGroup.push
  rw [longest_append, h.maxSize]

theorem sequenceOf_succ (c₀ : KcptunPacketCodec) (group j i : Nat) :
    advanceFecSequence^[i] (c₀.sequenceOf group j) = c₀.sequenceOf group (j + i) := by
  unfold KcptunPacketCodec.sequenceOf
  rw [advance_iterate, Nat.add_assoc]

theorem encodePackets_eq (h : Encodes c₀ packets group j c) (htakes : c.takes packet = true) (now : Int) :
    c.encodePackets packet now =
      if j + 1 = c₀.dataShard then
        ({ c.push packet now with
            nextFecSequence := advanceFecSequence^[c.parityShard] (c.push packet now).nextFecSequence,
            fecGroup := {} },
          makeFecPacket c.nextFecSequence kFecData (fecShare packet) ::
            if c.fecGroup.continuous now then (c.push packet now).parityPackets else [])
      else (c.push packet now, [makeFecPacket c.nextFecSequence kFecData (fecShare packet)]) := by
  unfold KcptunPacketCodec.takes at htakes
  have hboth : c.dataShard ≠ 0 ∧ packet.length ≤ 0xffff - 2 := by simpa using htakes
  have hlength : (c.push packet now).fecGroup.shares.length = j + 1 := h.push_length packet now
  unfold KcptunPacketCodec.encodePackets
  rw [if_neg hboth.1, if_neg (Nat.not_lt.2 hboth.2)]
  by_cases hend : j + 1 = c₀.dataShard
  · rw [if_pos hend, if_pos (hlength.trans (hend.trans h.dataShard.symm))]
  · rw [if_neg hend, if_neg (fun he => hend (hlength.symm.trans (he.trans h.dataShard)))]

theorem step (h : Encodes c₀ packets group j c) (htakes : c.takes packet = true) (now : Int) :
    ∃ group' j', Encodes c₀ (packets ++ [packet]) group' j' (c.encodePackets packet now).1 := by
  have hl := h.length
  rw [h.encodePackets_eq htakes now]
  have hnext : advanceFecSequence c.nextFecSequence = c₀.sequenceOf group (j + 1) := by
    rw [h.sequence]
    exact sequenceOf_succ c₀ group j 1
  split
  · rename_i hend
    refine ⟨group + 1, 0, h.cipher, h.fec, h.dataShard, h.parityShard, ?_,
      Nat.lt_of_le_of_lt (Nat.zero_le j) h.partly, ?_, ?_, rfl⟩
    · rw [length_append, hl, Nat.succ_mul]
      exact congrArg (group * c₀.dataShard + ·) hend
    · change advanceFecSequence^[c.parityShard] (advanceFecSequence c.nextFecSequence) = _
      rw [hnext, sequenceOf_succ, hend, h.parityShard]
      unfold KcptunPacketCodec.sequenceOf
      rw [Nat.succ_mul]
      rfl
    · rw [drop_of_length_le (by rw [length_append, hl, Nat.succ_mul]; exact Nat.le_of_eq (by rw [← hend]; rfl))]
      rfl
  · rename_i hmore
    refine ⟨group, j + 1, h.cipher, h.fec, h.dataShard, h.parityShard, ?_, ?_, hnext, h.push_shares packet now,
      h.push_maxSize packet now⟩
    · rw [length_append, hl]
      rfl
    · have := h.partly
      omega

theorem div_mod (h : Encodes c₀ packets group j c) :
    packets.length / c.dataShard = group ∧ packets.length % c.dataShard = j := by
  have hj := h.partly
  rw [h.dataShard, h.length]
  have hpos : 0 < c₀.dataShard := by omega
  exact ⟨by rw [Nat.mul_comm, Nat.mul_add_div hpos, Nat.div_eq_of_lt hj, Nat.add_zero],
    by rw [Nat.mul_comm, Nat.mul_add_mod, Nat.mod_eq_of_lt hj]⟩

end Encodes

/-! ## What is sent -/

namespace KcptunPacketCodec

variable {c : KcptunPacketCodec}

theorem parityPackets_get {i : Nat} {packet : Bytes} (h : c.parityPackets[i]? = some packet) :
    i < c.parityShard ∧ packet = makeFecPacket (advanceFecSequence^[i] c.nextFecSequence) kFecParity
      (c.fec.encodeShare (c.fecGroup.shares.map (resize · c.fecGroup.maxSize)) c.fecGroup.maxSize
        (c.dataShard + i)) := by
  obtain ⟨k, hk, heq⟩ := Option.map_eq_some_iff.1 (getElem?_map ▸ h)
  obtain ⟨hlt, hk⟩ := List.getElem?_eq_some_iff.1 hk
  rw [getElem_range] at hk
  subst hk
  rw [length_range] at hlt
  exact ⟨hlt, heq.symm⟩

theorem cryptAll_eq {random : Nat → Option (Nat → UInt8)} {packets : List Bytes}
    (h : c.cryptAll random packets ≠ []) :
    c.cryptAll random packets = packets.mapIdx (fun i packet => cryptPacket c.cipher (random i) packet) ∧
    ∀ (i : Nat) (hi : i < packets.length), cryptPacket c.cipher (random i) packets[i] ≠ [] := by
  unfold cryptAll at h ⊢
  dsimp only at h ⊢
  split at h
  · exact absurd rfl h
  · rename_i hall
    refine ⟨if_neg hall, fun i hi hempty => hall (any_eq_true.2 ⟨_, getElem_mem (n := i) ?_, ?_⟩)⟩
    · rw [length_mapIdx]
      exact hi
    · rw [getElem_mapIdx, hempty]
      rfl

theorem mem_sends {n : Nat} {e : Call} {s : Sent} (h : s ∈ c.sends n e) :
    c.takes e.packet = true ∧ s.group = n / c.dataShard ∧
    (∃ i, (c.encodePackets e.packet e.now).2[i]? = some s.packet ∧
      s.slot = if i = 0 then n % c.dataShard else c.dataShard + (i - 1)) ∧
    ∃ random, s.wire = cryptPacket c.cipher random s.packet ∧ s.wire ≠ [] := by
  unfold sends at h
  by_cases hskip : c.takes e.packet = false ∨ (c.encode e.packet e.now e.random).2 = []
  · rw [if_pos hskip] at h
    cases h
  rw [if_neg hskip] at h
  rw [not_or] at hskip
  have htakes : c.takes e.packet = true := by simpa using hskip.1
  obtain ⟨hwires, hall⟩ := cryptAll_eq hskip.2
  rw [show (c.encode e.packet e.now e.random).2 = _ from hwires] at h
  obtain ⟨i, hi, heq⟩ := mem_mapIdx.1 h
  rw [length_zip, length_mapIdx, Nat.min_self] at hi
  rw [getElem_zip, getElem_mapIdx] at heq
  subst heq
  exact ⟨htakes, rfl, ⟨i, getElem?_eq_getElem hi, rfl⟩, e.random i, rfl, hall i hi⟩

end KcptunPacketCodec

variable {packets : List Bytes}

theorem getElem?_fecShares {k : Nat} {packet : Bytes} (h : packets[k]? = some packet) :
    packets.getD k [] = packet := by
  rw [getD_eq_getElem?_getD, h]
  rfl

namespace Encodes

variable {c₀ c : KcptunPacketCodec} {packets : List Bytes} {group j : Nat}

theorem sends_spec (h : Encodes c₀ packets group j c) {e : Call} {s : Sent} (hs : s ∈ c.sends packets.length e) :
    s.Spec c₀ (packets ++ [e.packet]) := by
  obtain ⟨htakes, hgroup, ⟨i, hi, hslot⟩, random, hwire⟩ := KcptunPacketCodec.mem_sends hs
  rw [h.encodePackets_eq htakes] at hi
  rw [h.div_mod.1] at hgroup
  rw [h.div_mod.2] at hslot
  have hl := h.length
  have hpartly := h.partly
  have hlen : (packets ++ [e.packet]).length = group * c₀.dataShard + (j + 1) := by
    rw [length_append, hl]
    rfl
  have hwired : ∃ random, s.wire = cryptPacket c₀.cipher random s.packet ∧ s.wire ≠ [] :=
    ⟨random, h.cipher ▸ hwire⟩
  have hfirst : ∀ rest, (makeFecPacket c.nextFecSequence kFecData (fecShare e.packet) :: rest)[i]? =
    some s.packet →
      i = 0 → s.Spec c₀ (packets ++ [e.packet]) := by
    rintro rest hget rfl
    have hpacket : makeFecPacket c.nextFecSequence kFecData (fecShare e.packet) = s.packet :=
      Option.some.inj hget
    have hslot : s.slot = j := hslot
    refine ⟨?_, fun _ => ?_, fun hp => ?_, ?_, hwired⟩
    · rw [hslot]
      exact Nat.lt_of_lt_of_le hpartly (Nat.le_add_right ..)
    · rw [hslot, hgroup, hlen]
      omega
    · rw [hslot] at hp
      omega
    · rw [← hpacket, hslot, hgroup, h.sequence, if_pos hpartly, KcptunPacketCodec.shareOf, if_pos hpartly]
      congr 2
      refine (getElem?_fecShares ?_).symm
      rw [← hl, getElem?_append_right (Nat.le_refl _), Nat.sub_self]
      rfl
  split at hi
  · rename_i hend
    cases i with
    | zero => exact hfirst _ hi rfl
    | succ i =>
      have hget : (if c.fecGroup.continuous e.now then (c.push e.packet e.now).parityPackets else [])[i]? =
        some s.packet := hi
      split at hget
      · obtain ⟨hip, heq⟩ := KcptunPacketCodec.parityPackets_get hget
        have hip : i < c₀.parityShard := h.parityShard ▸ hip
        have hslot : s.slot = c₀.dataShard + i := by
          rw [hslot, if_neg (Nat.succ_ne_zero i), h.dataShard]
          rfl
        have hnot : ¬ s.slot < c₀.dataShard := by omega
        have hshares := h.push_shares e.packet e.now
        have hgroupShares : c₀.groupShares (packets ++ [e.packet]) group =
          (c.fecGroup.push e.packet e.now).shares := by
          rw [hshares, KcptunPacketCodec.groupShares, take_of_length_le]
          rw [length_drop, hlen]
          omega
        refine ⟨?_, fun hd => absurd hd hnot, fun _ => ?_, ?_, hwired⟩
        · rw [hslot, KcptunPacketCodec.shardSize]
          omega
        · exact Nat.le_of_eq (by rw [hgroup, hlen, Nat.succ_mul, hend])
        · rw [heq, if_neg hnot, KcptunPacketCodec.shareOf, if_neg hnot, hgroup, hgroupShares, hslot]
          change makeFecPacket (advanceFecSequence^[i] (advanceFecSequence c.nextFecSequence)) kFecParity
            (c.fec.encodeShare ((c.fecGroup.push e.packet e.now).shares.map
              (resize · (c.fecGroup.push e.packet e.now).maxSize))
              (c.fecGroup.push e.packet e.now).maxSize (c.dataShard + i)) = _
          have hnumber : advanceFecSequence^[i] (advanceFecSequence c.nextFecSequence) = c₀.sequenceOf group
            (c₀.dataShard + i) := by
            rw [h.sequence, ← hend]
            exact (congrArg _ (sequenceOf_succ c₀ group j 1)).trans (sequenceOf_succ c₀ group (j + 1) i)
          rw [hnumber, h.fec, h.push_maxSize, h.dataShard]
      · cases hget
  · cases i with
    | zero => exact hfirst _ hi rfl
    | succ i => cases hi

end Encodes

theorem Sent.Spec.append {c : KcptunPacketCodec} {s : Sent} (h : s.Spec c packets)
    (more : List Bytes) : s.Spec c (packets ++ more) := by
  refine ⟨h.slot, fun hd => ?_, fun hp => ?_, ?_, h.wire⟩
  · rw [length_append]
    exact Nat.lt_of_lt_of_le (h.data hd) (Nat.le_add_right ..)
  · rw [length_append]
    exact Nat.le_trans (h.parity hp) (Nat.le_add_right ..)
  · rw [h.packet]
    congr 1
    unfold KcptunPacketCodec.shareOf
    split
    · rename_i hd
      rw [getD_eq_getElem?_getD, getD_eq_getElem?_getD, getElem?_append_left (h.data hd)]
    · rename_i hp
      have hwhole := h.parity (Nat.not_lt.1 hp)
      have hshares : c.groupShares (packets ++ more) s.group = c.groupShares packets s.group := by
        unfold KcptunPacketCodec.groupShares
        rw [Nat.succ_mul] at hwhole
        rw [drop_append_of_le_length (by omega), take_append_of_le_length (by rw [length_drop]; omega)]
      rw [hshares]

theorem Encodes.emitted_spec {c₀ : KcptunPacketCodec} :
    ∀ (calls : List Call) {c : KcptunPacketCodec} {packets : List Bytes}
    {group j : Nat}, Encodes c₀ packets group j c →
    ∀ s ∈ c.emitted packets calls, s.Spec c₀ (packets ++ c₀.takenAll calls)
  | [], _, _, _, _, _, _, hs => nomatch hs
  | e :: es, c, packets, group, j, h, s, hs => by
    have htaken : c.taken e = c₀.taken e := by
      unfold KcptunPacketCodec.taken
      rw [h.takes_eq]
    have hall : packets ++ c₀.takenAll (e :: es) = packets ++ c.taken e ++ c₀.takenAll es := by
      rw [htaken, append_assoc]
      rfl
    rw [hall]
    rcases mem_append.1 hs with hs | hs
    · have htakes := (KcptunPacketCodec.mem_sends hs).1
      have hone : c.taken e = [e.packet] := if_pos htakes
      rw [hone]
      exact (h.sends_spec hs).append _
    · cases htakes : c.takes e.packet with
      | true =>
        have hone : c.taken e = [e.packet] := if_pos htakes
        obtain ⟨group', j', h'⟩ := h.step htakes e.now
        rw [hone] at hs ⊢
        exact emitted_spec es h' s hs
      | false =>
        have hnone : c.taken e = [] := if_neg (by simp [htakes])
        have hsame : (c.encode e.packet e.now e.random).1 = c := h.refused htakes e.now
        rw [hsame] at hs
        rw [hnone, append_nil] at hs ⊢
        exact emitted_spec es h s hs

end ClashNative.Kcptun
