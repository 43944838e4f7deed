import ClashNative.KcptunFecRuns
/-!
# KcptunFecAlignment — sequence numbers and the places in a group

The receiver tells the place of a packet from its number modulo the shard count.  The numbers wrap at
`kFecPaws`, which is not rounded down to whole groups: places and numbers agree for ever exactly when the
shard count divides it.
-/
namespace ClashNative.Kcptun

open List

/-- **What the numbers promise** of all that was sent. -/
structure FecAligned (dataShard parityShard : Nat) (sent : List Sent) : Prop where
  data : ∀ s ∈ sent, s.type = kFecData → s.sequence % (dataShard + parityShard) < dataShard
  parity : ∀ s ∈ sent, s.type = kFecParity → dataShard ≤ s.sequence % (dataShard + parityShard)
  consecutive : ∀ s ∈ sent, ∀ t ∈ sent, s.group = t.group → s.sequence + t.slot = t.sequence + s.slot

def KcptunPacketCodec.numbers (c : KcptunPacketCodec) (n : Nat) : Nat :=
  n / c.dataShard * c.shardSize + n % c.dataShard

/-! ## What a place says -/

theorem sequenceOf_lt (c : KcptunPacketCodec) (group slot : Nat) : c.sequenceOf group slot < 2 ^ 32 :=
  Nat.lt_trans (Nat.mod_lt _ (by decide)) (by decide)

theorem drop_makeFecPacket (sequence type : Nat) (payload : Bytes) :
    (makeFecPacket sequence type payload).drop 4 = putU16 type ++ payload := rfl

namespace Sent.Spec

variable {c : KcptunPacketCodec} {packets : List Bytes} {s : Sent}

theorem sequence_eq (h : s.Spec c packets) : s.sequence = c.sequenceOf s.group s.slot := by
  unfold Sent.sequence
  rw [h.packet]
  exact getU32_putU32 (sequenceOf_lt ..) _

theorem type_eq (h : s.Spec c packets) : s.type = if s.slot < c.dataShard then kFecData else kFecParity := by
  unfold Sent.type
  rw [h.packet, drop_makeFecPacket]
  exact getU16_putU16 (by split <;> decide) _

theorem type_data (h : s.Spec c packets) : s.type = kFecData ↔ s.slot < c.dataShard := by
  rw [h.type_eq]
  split
  · simp [*]
  · simp [*, kFecData, kFecParity]

theorem type_parity (h : s.Spec c packets) : s.type = kFecParity ↔ c.dataShard ≤ s.slot := by
  rw [h.type_eq]
  split
  · rename_i hlt
    simp [Nat.not_le.2 hlt, kFecData, kFecParity]
  · rename_i hge
    simp [Nat.not_lt.1 hge]

theorem lt_numbers (h : s.Spec c packets) (hpos : 0 < c.dataShard) :
    s.group * c.shardSize + s.slot < c.numbers packets.length := by
  have hslot := h.slot
  unfold KcptunPacketCodec.numbers
  by_cases hdata : s.slot < c.dataShard
  · have hlt := h.data hdata
    have hgroup : s.group ≤ packets.length / c.dataShard := (Nat.le_div_iff_mul_le hpos).2 (by omega)
    rcases Nat.lt_or_eq_of_le hgroup with hless | heq
    · have hmul := Nat.mul_le_mul_right c.shardSize hless
      rw [Nat.succ_mul] at hmul
      omega
    · have hsplit := Nat.div_add_mod packets.length c.dataShard
      rw [Nat.mul_comm, ← heq] at hsplit
      rw [← heq]
      omega
  · have hwhole := h.parity (Nat.not_lt.1 hdata)
    have hgroup : s.group + 1 ≤ packets.length / c.dataShard := (Nat.le_div_iff_mul_le hpos).2 hwhole
    have hmul := Nat.mul_le_mul_right c.shardSize hgroup
    rw [Nat.succ_mul] at hmul
    omega

end Sent.Spec

variable {sent : List Sent} {packets : List Bytes} {c : KcptunPacketCodec}

theorem aligned_of_base (hspec : ∀ s ∈ sent, s.Spec c packets)
    (base : Nat → Nat) (hbase : ∀ group, c.shardSize ∣ base group)
    (hnumber : ∀ s ∈ sent, c.sequenceOf s.group s.slot = base s.group + s.slot) :
    FecAligned c.dataShard c.parityShard sent := by
  have hplace : ∀ s ∈ sent, s.sequence % c.shardSize = s.slot := by
    intro s hs
    obtain ⟨k, hk⟩ := hbase s.group
    rw [(hspec s hs).sequence_eq, hnumber s hs, hk, Nat.mul_add_mod]
    exact Nat.mod_eq_of_lt (hspec s hs).slot
  refine ⟨fun s hs htype => ?_, fun s hs htype => ?_, fun s hs t ht hgroup => ?_⟩
  · change s.sequence % c.shardSize < c.dataShard
    rw [hplace s hs]
    exact (hspec s hs).type_data.1 htype
  · change c.dataShard ≤ s.sequence % c.shardSize
    rw [hplace s hs]
    exact (hspec s hs).type_parity.1 htype
  · rw [(hspec s hs).sequence_eq, (hspec t ht).sequence_eq, hnumber s hs, hnumber t ht, hgroup]
    omega

theorem aligned_of_unwrapped (hpos : 0 < c.dataShard)
    (hspec : ∀ s ∈ sent, s.Spec c packets) (hnumbers : c.numbers packets.length ≤ kFecPaws) :
    FecAligned c.dataShard c.parityShard sent := by
  refine aligned_of_base hspec (fun group => group * c.shardSize)
    (fun group => Nat.dvd_mul_left ..) fun s hs => ?_
  exact Nat.mod_eq_of_lt (Nat.lt_of_lt_of_le ((hspec s hs).lt_numbers hpos) hnumbers)

theorem aligned_of_dvd
    (hspec : ∀ s ∈ sent, s.Spec c packets) (hdvd : c.shardSize ∣ kFecPaws) :
    FecAligned c.dataShard c.parityShard sent := by
  refine aligned_of_base hspec (fun group => group * c.shardSize % kFecPaws) (fun group => ?_) fun s hs => ?_
  · exact (Nat.dvd_mod_iff hdvd).2 (Nat.dvd_mul_left ..)
  · obtain ⟨k, hk⟩ := hdvd
    have hslot := (hspec s hs).slot
    have hk0 : 0 < k := Nat.pos_of_ne_zero fun h0 => by rw [h0] at hk; cases hk
    have hmod : s.group * c.shardSize % kFecPaws = c.shardSize * (s.group % k) := by
      rw [hk, Nat.mul_comm, Nat.mul_mod_mul_left]
    have hfits : c.shardSize * (s.group % k) + s.slot < kFecPaws := by
      have hle := Nat.mul_le_mul_left c.shardSize (Nat.mod_lt s.group hk0)
      rw [Nat.mul_succ] at hle
      omega
    unfold KcptunPacketCodec.sequenceOf
    rw [← Nat.mod_add_mod, hmod]
    exact Nat.mod_eq_of_lt hfits

/-! ## Long runs -/

namespace KcptunPacketCodec

def copies : ZFec := ⟨fun shares size _ => (shares.headD []).take size,
    fun present _ _ => (present 0).getD ((present 1).getD [])⟩

def plain (dataShard parityShard : Nat) : KcptunPacketCodec where
  cipher := { kind := .nullCipher }
  fec := copies
  dataShard
  parityShard

theorem cryptAll_plain (hkind : c.cipher.kind = .nullCipher) (random : Nat → Option (Nat → UInt8))
    (h : ∀ packet ∈ packets, packet ≠ [] ∧ packet.length ≤ kMaximumDatagramSize) :
    c.cryptAll random packets = packets := by
  have hsame : packets.mapIdx (fun i packet => cryptPacket c.cipher (random i) packet) = packets := by
    apply ext_getElem
    · exact length_mapIdx
    · intro i _ _
      rw [getElem_mapIdx, cryptPacket, hkind]
  unfold cryptAll
  rw [hsame, if_neg]
  rw [any_eq_true]
  rintro ⟨packet, hmem, hbad⟩
  obtain ⟨hne, hle⟩ := h packet hmem
  simp only [Bool.or_eq_true, List.isEmpty_iff, decide_eq_true_eq] at hbad
  rcases hbad with hempty | hlong
  · exact hne hempty
  · omega

theorem sends_of_plain (hkind : c.cipher.kind = .nullCipher) {e : Call} (htakes : c.takes e.packet = true)
    (h : ∀ packet ∈ (c.encodePackets e.packet e.now).2, packet ≠ [] ∧
      packet.length ≤ kMaximumDatagramSize) (n i : Nat)
    (hi : i < (c.encodePackets e.packet e.now).2.length) :
    ∃ s ∈ c.sends n e, s.group = n / c.dataShard ∧
      s.slot = if i = 0 then n % c.dataShard else c.dataShard + (i - 1) := by
  have hwires : (c.encode e.packet e.now e.random).2 = (c.encodePackets e.packet e.now).2 :=
    cryptAll_plain hkind e.random h
  have hne : ¬ (c.takes e.packet = false ∨ (c.encode e.packet e.now e.random).2 = []) := by
    rw [hwires, htakes]
    rintro (hf | hnil)
    · cases hf
    · rw [hnil] at hi
      exact Nat.not_lt_zero i hi
  unfold sends
  rw [if_neg hne, hwires]
  exact ⟨_, mem_mapIdx.2 ⟨i, by rw [length_zip, Nat.min_self]; exact hi, rfl⟩, rfl, rfl⟩

end KcptunPacketCodec

open KcptunPacketCodec (plain)

def shortest : Call := { packet := [] }

structure Steady (c : KcptunPacketCodec) : Prop where
  latest : c.fecGroup.latest = if c.fecGroup.shares = [] then 0 else 1
  maxSize : c.fecGroup.maxSize ≤ 2

namespace Encodes

variable {d p : Nat} {c : KcptunPacketCodec} {packets : List Bytes} {group j : Nat}

theorem takes_shortest (h : Encodes (plain d p) packets group j c) : c.takes shortest.packet = true := by
  have hpartly := h.partly
  have hdata : c.dataShard ≠ 0 := by
    have := h.dataShard
    omega
  simp [KcptunPacketCodec.takes, shortest, hdata]

theorem push_maxSize_le (hsteady : Steady c) : (c.push shortest.packet shortest.now).fecGroup.maxSize ≤ 2 :=
  Nat.max_le.2 ⟨hsteady.maxSize, Nat.le_refl 2⟩

theorem steady_step (h : Encodes (plain d p) packets group j c) (hsteady : Steady c) :
    Steady (c.encodePackets shortest.packet shortest.now).1 := by
  rw [h.encodePackets_eq h.takes_shortest]
  split
  · exact ⟨rfl, Nat.zero_le 2⟩
  · refine ⟨?_, push_maxSize_le hsteady⟩
    rw [if_neg]
    · rfl
    · exact fun hnil => append_ne_nil_of_right_ne_nil _ (cons_ne_nil _ _) hnil

theorem short (h : Encodes (plain d p) packets group j c) (hsteady : Steady c) :
    ∀ packet ∈ (c.encodePackets shortest.packet shortest.now).2, packet ≠ [] ∧
    packet.length ≤ kMaximumDatagramSize := by
  have hdata : ∀ sequence : Nat, makeFecPacket sequence kFecData (fecShare shortest.packet) ≠ [] ∧
      (makeFecPacket sequence kFecData (fecShare shortest.packet)).length ≤ kMaximumDatagramSize :=
    fun sequence => ⟨cons_ne_nil _ _, (by decide : 8 ≤ 1500)⟩
  rw [h.encodePackets_eq h.takes_shortest]
  intro packet hmem
  split at hmem
  · rcases mem_cons.1 hmem with rfl | hmem
    · exact hdata _
    · split at hmem
      · obtain ⟨i, hi⟩ := mem_iff_getElem?.1 hmem
        obtain ⟨-, rfl⟩ := KcptunPacketCodec.parityPackets_get hi
        have hfec : (c.push shortest.packet shortest.now).fec = KcptunPacketCodec.copies := h.fec
        refine ⟨cons_ne_nil _ _, ?_⟩
        have hsize := push_maxSize_le hsteady
        rw [hfec, makeFecPacket, length_append, length_append, putU32_length, putU16_length,
          KcptunPacketCodec.copies, length_take, kMaximumDatagramSize]
        omega
      · cases hmem
  · rw [mem_singleton] at hmem
    rw [hmem]
    exact hdata _

theorem sends_data (h : Encodes (plain d p) packets group j c) (hsteady : Steady c) :
    ∃ s ∈ c.sends packets.length shortest, s.group = packets.length / d ∧ s.slot = packets.length % d := by
  have hkind : c.cipher.kind = .nullCipher := by rw [h.cipher]; rfl
  have hd : c.dataShard = d := h.dataShard
  have hpos : 0 < (c.encodePackets shortest.packet shortest.now).2.length := by
    rw [h.encodePackets_eq h.takes_shortest]
    split <;> exact Nat.succ_pos _
  obtain ⟨s, hs, hgroup, hslot⟩ := KcptunPacketCodec.sends_of_plain hkind h.takes_shortest
    (h.short hsteady) packets.length 0 hpos
  rw [hd] at hgroup hslot
  exact ⟨s, hs, hgroup, hslot⟩

theorem sends_parity (h : Encodes (plain d p) packets group j c) (hsteady : Steady c) (htwo : 2 ≤ d)
    (hend : (packets.length + 1) % d = 0) {i : Nat} (hi : i < p) :
    ∃ s ∈ c.sends packets.length shortest, s.group = packets.length / d ∧ s.slot = d + i := by
  have hkind : c.cipher.kind = .nullCipher := by rw [h.cipher]; rfl
  have hd : c.dataShard = d := h.dataShard
  have hj : j + 1 = (plain d p).dataShard := by
    have hlength : packets.length = group * d + j := h.length
    have hpartly : j < d := h.partly
    rw [hlength, Nat.add_assoc, Nat.mul_comm, Nat.mul_add_mod] at hend
    rcases Nat.lt_or_eq_of_le (Nat.succ_le_of_lt hpartly) with hless | heq
    · rw [Nat.mod_eq_of_lt hless] at hend
      cases hend
    · exact heq
  have hnonempty : c.fecGroup.shares ≠ [] := by
    have hlength := h.push_length shortest.packet shortest.now
    unfold FecGroup.push at hlength
    intro hnil
    rw [hnil] at hlength
    have : 1 = j + 1 := hlength
    have : j + 1 = d := hj
    omega
  have hcontinuous : c.fecGroup.continuous shortest.now = true := by
    have hlatest := hsteady.latest
    rw [if_neg hnonempty] at hlatest
    unfold FecGroup.continuous
    rw [hlatest]
    decide
  have hlength : i + 1 < (c.encodePackets shortest.packet shortest.now).2.length := by
    rw [h.encodePackets_eq h.takes_shortest, if_pos hj]
    rw [if_pos hcontinuous, length_cons, KcptunPacketCodec.parityPackets, length_map, length_range]
    have hp : (c.push shortest.packet shortest.now).parityShard = p := h.parityShard
    omega
  obtain ⟨s, hs, hgroup, hslot⟩ := KcptunPacketCodec.sends_of_plain hkind h.takes_shortest
    (h.short hsteady) packets.length (i + 1) hlength
  rw [hd] at hgroup hslot
  exact ⟨s, hs, hgroup, hslot⟩

theorem fills : ∀ (m : Nat) {c : KcptunPacketCodec} {packets : List Bytes} {group j : Nat},
    Encodes (plain d p) packets group j c → Steady c → ∀ k : Nat, packets.length ≤ k → k < packets.length + m →
    (∃ s ∈ c.emitted packets (List.replicate m shortest), s.group = k / d ∧ s.slot = k % d) ∧
    (2 ≤ d → (k + 1) % d = 0 → ∀ i : Nat, i < p →
      ∃ s ∈ c.emitted packets (List.replicate m shortest), s.group = k / d ∧ s.slot = d + i)
  | 0, _, _, _, _, _, _, k, hle, hlt => absurd hlt (Nat.not_lt.2 hle)
  | m + 1, c, packets, group, j, h, hsteady, k, hle, hlt => by
    have htaken : c.taken shortest = [shortest.packet] := if_pos h.takes_shortest
    rw [replicate_succ, KcptunPacketCodec.emitted, htaken]
    rcases Nat.lt_or_eq_of_le hle with hless | rfl
    · obtain ⟨group', j', h'⟩ := h.step h.takes_shortest shortest.now
      have hlength : (packets ++ [shortest.packet]).length = packets.length + 1 := length_append
      obtain ⟨hdata, hparity⟩ := fills m h' (h.steady_step hsteady) k (by omega) (by omega)
      refine ⟨?_, fun htwo hend i hi => ?_⟩
      · obtain ⟨s, hs, hplace⟩ := hdata
        exact ⟨s, mem_append_right _ hs, hplace⟩
      · obtain ⟨s, hs, hplace⟩ := hparity htwo hend i hi
        exact ⟨s, mem_append_right _ hs, hplace⟩
    · refine ⟨?_, fun htwo hend i hi => ?_⟩
      · obtain ⟨s, hs, hplace⟩ := h.sends_data hsteady
        exact ⟨s, mem_append_left _ hs, hplace⟩
      · obtain ⟨s, hs, hplace⟩ := h.sends_parity hsteady htwo hend hi
        exact ⟨s, mem_append_left _ hs, hplace⟩

end Encodes

def shortRun (d p n : Nat) : List Sent := (plain d p).emitted [] (List.replicate n shortest)

variable {d p n : Nat}

theorem shortRun_spec (hd : 0 < d) :
    ∃ packets : List Bytes, ∀ s ∈ shortRun d p n, s.Spec (plain d p) packets :=
  ⟨_, Encodes.emitted_spec _ (Encodes.init _ _ _ hd)⟩

theorem shortRun_data {k : Nat} (hd : 0 < d) (hk : k < n) :
    ∃ s ∈ shortRun d p n, s.group = k / d ∧ s.slot = k % d :=
  (Encodes.fills (d := d) (p := p) n (Encodes.init _ _ _ hd) ⟨rfl, Nat.zero_le 2⟩ k (Nat.zero_le k)
    (by simpa using hk)).1

theorem shortRun_parity {g i : Nat} (htwo : 2 ≤ d) (hn : (g + 1) * d ≤ n) (hi : i < p) :
    ∃ s ∈ shortRun d p n, s.group = g ∧ s.slot = d + i := by
  have hd : 0 < d := by omega
  have hmul : (g + 1) * d = g * d + d := Nat.succ_mul g d
  have hlast : g * d + (d - 1) < n := by omega
  have hdiv : (g * d + (d - 1)) / d = g := by
    rw [Nat.mul_comm, Nat.mul_add_div hd, Nat.div_eq_of_lt (by omega)]
    rfl
  have hmod : (g * d + (d - 1) + 1) % d = 0 := by
    have heq : g * d + (d - 1) + 1 = d * (g + 1) := by
      rw [Nat.mul_comm d]
      omega
    rw [heq]
    exact Nat.mul_mod_right ..
  obtain ⟨s, hs, hgroup, hslot⟩ := (Encodes.fills (d := d) (p := p) n (Encodes.init _ _ _ hd) ⟨rfl,
    Nat.zero_le 2⟩ (g * d + (d - 1)) (Nat.zero_le _)
    (by simpa using hlast)).2 htwo hmod i hi
  exact ⟨s, hs, hgroup.trans hdiv, hslot⟩

theorem shortRun_not_aligned (hd : 0 < d) (hsize : d + p ≤ 256) (hdvd : ¬ (d + p) ∣ kFecPaws)
    (hn : (kFecPaws / (d + p) + 2) * d ≤ n) : ¬ FecAligned d p (shortRun d p n) := by
  intro h
  obtain ⟨packets, hspec⟩ := shortRun_spec (p := p) (n := n) hd
  have hnumber : ∀ s ∈ shortRun d p n, s.sequence = (s.group * (d + p) + s.slot) % kFecPaws := fun s hs =>
    (hspec s hs).sequence_eq
  have hsplit : (d + p) * (kFecPaws / (d + p)) + kFecPaws % (d + p) = kFecPaws := Nat.div_add_mod ..
  have hr : 0 < kFecPaws % (d + p) := Nat.pos_of_ne_zero fun h0 => hdvd (Nat.dvd_of_mod_eq_zero h0)
  have hrlt : kFecPaws % (d + p) < d + p := Nat.mod_lt _ (by omega)
  generalize kFecPaws / (d + p) = g at hn hsplit
  generalize hrest : kFecPaws % (d + p) = r at hsplit hr hrlt
  rw [Nat.mul_comm] at hsplit
  have hmul : (g + 2) * d = g * d + d + d := by rw [Nat.succ_mul, Nat.succ_mul]
  by_cases hinside : r < d
  · -- The wrap falls between two data packets of one group.
    have hplace : ∀ j : Nat, j < d → ∃ s ∈ shortRun d p n, s.group = g ∧ s.slot = j := by
      intro j hj
      obtain ⟨s, hs, hgroup, hslot⟩ := shortRun_data (p := p) hd (show g * d + j < n by omega)
      rw [Nat.mul_comm, Nat.mul_add_div hd, Nat.div_eq_of_lt hj] at hgroup
      rw [Nat.mul_comm, Nat.mul_add_mod, Nat.mod_eq_of_lt hj] at hslot
      exact ⟨s, hs, hgroup, hslot⟩
    obtain ⟨s, hs, hsg, hss⟩ := hplace (r - 1) (by omega)
    obtain ⟨t, ht, htg, hts⟩ := hplace r hinside
    have hconsecutive := h.consecutive s hs t ht (hsg.trans htg.symm)
    have hlow : (g * (d + p) + r) % kFecPaws = 0 := by rw [hsplit, Nat.mod_self]
    rw [hnumber s hs, hnumber t ht, hsg, hss, htg, hts, hlow] at hconsecutive
    omega
  · by_cases htwo : 2 ≤ d
    · -- A parity packet gets the first number.
      obtain ⟨s, hs, hsg, hss⟩ := shortRun_parity (p := p) (n := n) (g := g) (i := r - d) htwo
        (by rw [Nat.succ_mul]; omega) (by omega)
      have hslot : s.slot = r := by omega
      have hparity := h.parity s hs ((hspec s hs).type_parity.2 (by rw [hslot]; exact Nat.not_lt.1 hinside))
      rw [hnumber s hs, hsg, hslot, hsplit, Nat.mod_self, Nat.zero_mod] at hparity
      omega
    · -- The next data packet gets one that is not of a data packet.
      obtain ⟨s, hs, hsg, hss⟩ := shortRun_data (p := p) hd (show (g + 1) * d < n by rw [Nat.succ_mul]; omega)
      rw [Nat.mul_div_cancel _ hd] at hsg
      rw [Nat.mul_mod_left] at hss
      have hdata := h.data s hs ((hspec s hs).type_data.2 (by rw [hss]; exact hd))
      have hnext : (g + 1) * (d + p) = kFecPaws + (d + p - r) := by
        rw [Nat.succ_mul]
        omega
      have hbig : (256 : Nat) < kFecPaws := by decide
      rw [hnumber s hs, hsg, hss, Nat.add_zero, hnext, Nat.add_mod_left,
        Nat.mod_eq_of_lt (show d + p - r < kFecPaws by omega),
        Nat.mod_eq_of_lt (show d + p - r < d + p by omega)] at hdata
      omega

/-! ## Every run -/

theorem emitted_nil_of_no_fec : ∀ (calls : List Call) {c : KcptunPacketCodec} (packets : List Bytes),
    c.dataShard = 0 →
    c.emitted packets calls = []
  | [], _, _, _ => rfl
  | e :: es, c, packets, h => by
    have hnot : c.takes e.packet = false := by
      unfold KcptunPacketCodec.takes
      simp [h]
    have hsends : c.sends packets.length e = [] := if_pos (.inl hnot)
    have hsame : (c.encode e.packet e.now e.random).1 = c := by
      unfold KcptunPacketCodec.encode KcptunPacketCodec.encodePackets
      rw [if_pos h]
    rw [KcptunPacketCodec.emitted, hsends, hsame, nil_append]
    exact emitted_nil_of_no_fec es _ h

variable {dataShard parityShard : Int} {fec : ZFec} {cipher : Cipher}

theorem create_ok
    (h : KcptunPacketCodec.create cipher fec dataShard parityShard = .ok c) :
    c = { cipher, fec, dataShard := dataShard.toNat, parityShard := parityShard.toNat } := by
  unfold KcptunPacketCodec.create at h
  split at h
  · cases h
    rfl
  · cases h

theorem aligned_of_create
    (h : KcptunPacketCodec.create cipher fec dataShard parityShard = .ok c) (calls : List Call)
    (hok : 0 < c.dataShard → c.shardSize ∣ kFecPaws ∨ c.numbers (c.takenAll calls).length ≤ kFecPaws) :
    FecAligned dataShard.toNat parityShard.toNat (c.emitted [] calls) := by
  cases create_ok h
  rcases Nat.eq_zero_or_pos dataShard.toNat with hzero | hpos
  · rw [emitted_nil_of_no_fec calls [] hzero]
    exact ⟨fun s hs => (nomatch hs), fun s hs => (nomatch hs), fun s hs => (nomatch hs)⟩
  · have hspec := Encodes.emitted_spec calls (Encodes.init cipher fec parityShard.toNat hpos)
    rcases hok hpos with hdvd | hnumbers
    · exact aligned_of_dvd hspec hdvd
    · exact aligned_of_unwrapped hpos hspec hnumbers

/-- **The numbers of every run are aligned exactly when the shard count divides the numbers there are**;
those of a run that does not wrap always are. -/
theorem fec_aligned_iff {dataShard parityShard : Int} (h : ShardCounts dataShard parityShard) :
    ((∀ cipher fec c calls, KcptunPacketCodec.create cipher fec dataShard parityShard = .ok c →
        FecAligned dataShard.toNat parityShard.toNat (c.emitted [] calls)) ↔
      dataShard = 0 ∨ dataShard + parityShard ∣ 0xffffffff) ∧
    ∀ cipher fec c calls, KcptunPacketCodec.create cipher fec dataShard parityShard = .ok c →
      c.numbers (c.takenAll calls).length ≤ kFecPaws →
        FecAligned dataShard.toNat parityShard.toNat (c.emitted [] calls) := by
  have hcounts := h
  unfold ShardCounts at hcounts
  have hsum : dataShard + parityShard = ((dataShard.toNat + parityShard.toNat : Nat) : Int) := by omega
  have hdvd_iff : dataShard + parityShard ∣ 0xffffffff ↔ dataShard.toNat + parityShard.toNat ∣ kFecPaws := by
    rw [hsum]
    exact Int.natCast_dvd_natCast
  refine ⟨⟨fun hall => ?_, fun hok cipher fec c calls hc => ?_⟩, fun cipher fec c calls hc hnumbers => ?_⟩
  · by_contra hnot
    rw [not_or, hdvd_iff] at hnot
    have hpos : 0 < dataShard.toNat := by omega
    refine shortRun_not_aligned hpos (by omega) hnot.2 (Nat.le_refl _) ?_
    exact hall _ _ (plain dataShard.toNat parityShard.toNat) _ (if_pos h)
  · refine aligned_of_create hc calls fun hpos => .inl ?_
    cases create_ok hc
    refine hdvd_iff.1 (hok.resolve_left fun hzero => ?_)
    rw [hzero] at hpos
    exact Nat.lt_irrefl 0 hpos
  · exact aligned_of_create hc calls fun _ => .inr hnumbers

/-- Two and one, where five packets make two groups of numbers and a part of one. -/
theorem fec_aligned_two_one : FecAligned 2 1 ((plain 2 1).emitted [] (List.replicate 5 shortest)) :=
  (fec_aligned_iff (by decide : ShardCounts 2 1)).2 _ _ (plain 2 1) _ rfl (by decide)

/-- The shard counts that are the default: the numbers wrap between two data packets of a group. -/
theorem default_shards_not_aligned : ¬ FecAligned 10 3 (shortRun 10 3 3303821010) :=
  shortRun_not_aligned (by decide) (by decide) (by decide) (by decide)

end ClashNative.Kcptun
