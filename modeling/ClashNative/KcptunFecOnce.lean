import ClashNative.KcptunFecRecovery
import Mathlib.Data.List.Nodup
/-!
# KcptunFecOnce — data packets that are delivered twice

`decode` knows a share again as long as it holds the group that the share is of, and forgets the group
once the group is whole, or long past.  `Heard` is the receiver with the places of the data packets that
it has delivered, and what came for them.
-/
namespace ClashNative.Kcptun

open Runs List

/-! ## What a packet is read as -/

structure Share where
  group : Nat
  slot : Nat
  data : Bool
  share : Bytes
  deriving DecidableEq, Repr

def Share.Malformed (x : Share) : Prop := x.data = true ∧
    (x.share.length < 2 ∨ getU16 x.share > x.share.length ∨ getU16 x.share < 2)

instance (x : Share) : Decidable x.Malformed := inferInstanceAs (Decidable (_ ∧ _))

abbrev Place := Nat × Nat

namespace KcptunPacketCodec

/-- The checks of `decode` before it looks at its groups. -/
def incoming (c : KcptunPacketCodec) (wirePacket : Bytes) : Option Share :=
  let plaintext := decryptPacket c.cipher wirePacket
  let sequence := getU32 plaintext
  let type := getU16 (plaintext.drop 4)
  if plaintext = [] ∨ plaintext.length < kFecHeaderSizePlusTwo then none
  else if type ≠ kFecData ∧ type ≠ kFecParity ∨ sequence ≥ kFecPaws then none
  else if decide (sequence % c.shardSize < c.dataShard) ≠ decide (type = kFecData) then none
  else some ⟨sequence / c.shardSize, sequence % c.shardSize, decide (type = kFecData),
    plaintext.drop kFecHeaderSize⟩

variable {c : KcptunPacketCodec}

theorem decode_eq (hfec : 0 < c.dataShard) (wirePacket : Bytes) : c.decode wirePacket =
    match c.incoming wirePacket with
    | none => (c, [])
    | some x => (c.retain x.group).receiveShare x.group x.slot x.data x.share := by
  unfold decode incoming
  by_cases hnil : decryptPacket c.cipher wirePacket = []
  · rw [if_pos hnil, if_pos (.inl hnil)]
  · rw [if_neg hnil, if_neg (Nat.ne_of_gt hfec)]
    by_cases hshort : (decryptPacket c.cipher wirePacket).length < kFecHeaderSizePlusTwo
    · rw [if_pos hshort, if_pos (.inr hshort)]
    · rw [if_neg hshort, if_neg (not_or.2 ⟨hnil, hshort⟩)]
      unfold receivePacket
      dsimp only
      split
      · rfl
      · split
        · rfl
        · rfl

/-! ## Places of what is delivered -/

def recovered (c : KcptunPacketCodec) (groupId index : Nat) : Option Bytes :=
  let size := c.shareSize groupId
  let share := c.fec.decodeShare (fun slot => (c.receiveGroups groupId slot).map (resize · size)) size index
  if (c.receiveGroups groupId index).isSome ∨ size < 2 then none
  else if 2 ≤ getU16 share ∧ getU16 share ≤ size then some (packetOf share) else none

theorem recover_eq (c : KcptunPacketCodec) (groupId : Nat) :
    c.recover groupId = (List.range c.dataShard).filterMap (c.recovered groupId) := rfl

def recoverPlaces (c : KcptunPacketCodec) (groupId : Nat) : List (Place × Bytes) :=
  (List.range c.dataShard).filterMap fun index => (c.recovered groupId index).map ((groupId, index), ·)

def Completes (c : KcptunPacketCodec) (x : Share) : Prop :=
  ¬ x.Malformed ∧ c.dataShard ≤ (c.setShare x.group x.slot x.share).groupSize x.group

instance (c : KcptunPacketCodec) (x : Share) : Decidable (c.Completes x) := inferInstanceAs (Decidable (_ ∧ _))

def deliveries (c : KcptunPacketCodec) (x : Share) : List (Place × Bytes) :=
  if (c.receiveGroups x.group x.slot).isSome ∨ x.Malformed then []
  else
    (if x.data then [((x.group, x.slot), packetOf x.share)] else []) ++
      if c.Completes x then (c.setShare x.group x.slot x.share).recoverPlaces x.group else []

theorem recoverPlaces_snd (c : KcptunPacketCodec) (groupId : Nat) :
    (c.recoverPlaces groupId).map Prod.snd = c.recover groupId := by
  unfold recoverPlaces
  rw [recover_eq, map_filterMap]
  congr 1
  funext index
  cases c.recovered groupId index with
  | none => rfl
  | some packet => rfl

theorem deliveries_snd (c : KcptunPacketCodec) (x : Share) :
    (c.receiveShare x.group x.slot x.data x.share).2 = (c.deliveries x).map Prod.snd := by
  unfold receiveShare deliveries
  by_cases hheld : (c.receiveGroups x.group x.slot).isSome = true
  · rw [if_pos hheld, if_pos (.inl hheld)]
    rfl
  · rw [if_neg hheld]
    by_cases hmalformed : x.Malformed
    · rw [if_pos (Or.inr hmalformed)]
      exact congrArg Prod.snd (if_pos hmalformed)
    · rw [if_neg (not_or.2 ⟨hheld, hmalformed⟩)]
      refine (congrArg Prod.snd (if_neg hmalformed)).trans ?_
      have hdata : (if x.data = true then [packetOf x.share] else []) =
          (if x.data = true then [((x.group, x.slot), packetOf x.share)] else []).map Prod.snd := by
        split
        · rfl
        · rfl
      rw [map_append, ← hdata]
      by_cases hwhole : c.Completes x
      · rw [if_pos hwhole, recoverPlaces_snd]
        exact congrArg Prod.snd (if_neg (Nat.not_lt.2 hwhole.2))
      · have hwaits : (c.setShare x.group x.slot x.share).groupSize x.group < c.dataShard :=
          Nat.not_le.1 fun hle => hwhole ⟨hmalformed, hle⟩
        rw [if_neg hwhole, map_nil, append_nil]
        exact congrArg Prod.snd (if_pos hwaits)

theorem decode_dataShard (hfec : 0 < c.dataShard) (wirePacket : Bytes) :
    (c.decode wirePacket).1.dataShard = c.dataShard := by
  rw [decode_eq hfec]
  split
  · rfl
  · unfold receiveShare
    dsimp only
    split
    · rfl
    · split
      · rfl
      · split
        · rfl
        · rfl

theorem mem_recoverPlaces {groupId : Nat} {d : Place × Bytes} (h : d ∈ c.recoverPlaces groupId) :
    d.1.1 = groupId ∧ d.1.2 < c.dataShard ∧ (c.receiveGroups groupId d.1.2).isSome = false := by
  obtain ⟨index, hindex, hd⟩ := mem_filterMap.1 h
  obtain ⟨packet, hpacket, rfl⟩ := Option.map_eq_some_iff.1 hd
  refine ⟨rfl, mem_range.1 hindex, ?_⟩
  by_contra hheld
  unfold recovered at hpacket
  rw [if_pos (.inl (Bool.not_eq_false _ ▸ hheld))] at hpacket
  cases hpacket

theorem recoverPlaces_nodup (c : KcptunPacketCodec) (groupId : Nat) :
    ((c.recoverPlaces groupId).map Prod.fst).Nodup := by
  unfold recoverPlaces
  rw [map_filterMap]
  refine List.Nodup.filterMap (fun i j place hi hj => ?_) nodup_range
  rw [Option.mem_def, Option.map_map] at hi hj
  obtain ⟨_, _, rfl⟩ := Option.map_eq_some_iff.1 hi
  obtain ⟨_, _, hplace⟩ := Option.map_eq_some_iff.1 hj
  exact (Prod.mk.inj hplace).2.symm

end KcptunPacketCodec

/-! ## The receiver and what came -/

/-- **The receiver, what it has delivered and what came**: `came` are the places of the data packets that
were taken into their groups, `whole` the groups that had enough shares. -/
structure Heard where
  codec : KcptunPacketCodec
  outputs : List Bytes := []
  delivered : List (Place × Bytes) := []
  came : List Place := []
  whole : List Nat := []

namespace Heard

def step (h : Heard) (wirePacket : Bytes) : Heard :=
  let next : Heard :=
    { h with
      codec := (h.codec.decode wirePacket).1
      outputs := h.outputs ++ (h.codec.decode wirePacket).2 }
  match h.codec.incoming wirePacket with
  | none => next
  | some x =>
    let c := h.codec.retain x.group
    if (c.receiveGroups x.group x.slot).isSome then next
    else
      { next with
        delivered := h.delivered ++ c.deliveries x
        came := if x.data ∧ ¬ x.Malformed then (x.group, x.slot) :: h.came else h.came
        whole := if c.Completes x then x.group :: h.whole else h.whole }

end Heard

/-- **Each data packet is delivered at most once.** -/
structure AtMostOnce (h : Heard) : Prop where
  outputs : h.outputs = h.delivered.map Prod.snd
  once : (h.delivered.map Prod.fst).Nodup

def Heard.Unheard (h : Heard) (place : Place) : Prop := place ∉ h.came ∧ place.1 ∉ h.whole

instance (h : Heard) (place : Place) : Decidable (h.Unheard place) := inferInstanceAs (Decidable (_ ∧ _))

/-- **The condition on a share** that is taken into its group: it is not a data packet that was heard
before; and where it makes its group whole, none of the missing data packets was. -/
def FreshShare (h : Heard) (x : Share) : Prop :=
  (x.data = true → ¬ x.Malformed → h.Unheard (x.group, x.slot)) ∧
  ((h.codec.retain x.group).Completes x → ∀ index < h.codec.dataShard,
    (((h.codec.retain x.group).setShare x.group x.slot x.share).receiveGroups x.group index).isSome =
    false → h.Unheard (x.group, index))

instance (h : Heard) (x : Share) : Decidable (FreshShare h x) :=
  inferInstanceAs (Decidable ((_ → _ → _) ∧ (_ → _)))

def Fresh (h : Heard) (wirePacket : Bytes) : Prop :=
  ∀ x ∈ h.codec.incoming wirePacket, ((h.codec.retain x.group).receiveGroups x.group x.slot).isSome =
  false → FreshShare h x

instance (h : Heard) (wirePacket : Bytes) : Decidable (Fresh h wirePacket) := by
  unfold Fresh
  infer_instance

/-! ## Every packet -/

structure Accounted (h : Heard) : Prop where
  fec : 0 < h.codec.dataShard
  outputs : h.outputs = h.delivered.map Prod.snd
  once : (h.delivered.map Prod.fst).Nodup
  heard : ∀ place ∈ h.delivered.map Prod.fst, place ∈ h.came ∨ place.1 ∈ h.whole

theorem KcptunPacketCodec.mem_deliveries {c : KcptunPacketCodec} {x : Share} {place : Place}
    (h : place ∈ (c.deliveries x).map Prod.fst) :
    x.data = true ∧ ¬ x.Malformed ∧ place = (x.group, x.slot) ∨
    c.Completes x ∧ place.1 = x.group ∧ place.2 < c.dataShard ∧
      ((c.setShare x.group x.slot x.share).receiveGroups x.group place.2).isSome = false := by
  unfold deliveries at h
  split at h
  · cases h
  · rename_i htaken
    rw [map_append, mem_append] at h
    rcases h with hdirect | hrecovered
    · split at hdirect
      · rename_i hdata
        exact .inl ⟨hdata, (not_or.1 htaken).2, mem_singleton.1 hdirect⟩
      · cases hdirect
    · split at hrecovered
      · rename_i hwhole
        obtain ⟨d, hd, rfl⟩ := mem_map.1 hrecovered
        exact .inr ⟨hwhole, mem_recoverPlaces hd⟩
      · cases hrecovered

theorem KcptunPacketCodec.deliveries_nodup (c : KcptunPacketCodec) (x : Share) :
    ((c.deliveries x).map Prod.fst).Nodup := by
  unfold deliveries
  split
  · exact nodup_nil
  · rw [map_append, nodup_append']
    refine ⟨?_, ?_, fun place hdirect hrecovered => ?_⟩
    · split
      · exact nodup_singleton _
      · exact nodup_nil
    · split
      · exact recoverPlaces_nodup _ _
      · exact nodup_nil
    · split at hdirect
      · split at hrecovered
        · obtain ⟨d, hd, hplace⟩ := mem_map.1 hrecovered
          have hmissing := (mem_recoverPlaces hd).2.2
          rw [hplace, mem_singleton.1 hdirect] at hmissing
          have hheld : (c.setShare x.group x.slot x.share).receiveGroups x.group x.slot = some x.share :=
            if_pos ⟨rfl, rfl⟩
          rw [hheld] at hmissing
          cases hmissing
        · cases hrecovered
      · cases hdirect

theorem Accounted.step {h : Heard} (ha : Accounted h) {wirePacket : Bytes}
    (hfresh : Fresh h wirePacket) : Accounted (h.step wirePacket) := by
  have hdecode := KcptunPacketCodec.decode_eq ha.fec wirePacket
  have hfec : 0 < (h.codec.decode wirePacket).1.dataShard := by
    rw [KcptunPacketCodec.decode_dataShard ha.fec]
    exact ha.fec
  unfold Heard.step
  cases hincoming : h.codec.incoming wirePacket with
  | none =>
    rw [hincoming] at hdecode
    refine ⟨hfec, ?_, ha.once, ha.heard⟩
    rw [hdecode, append_nil]
    exact ha.outputs
  | some x =>
    rw [hincoming] at hdecode
    have houtputs : (h.codec.decode wirePacket).2 = ((h.codec.retain x.group).deliveries x).map Prod.snd := by
      rw [hdecode]
      exact (h.codec.retain x.group).deliveries_snd x
    dsimp only
    by_cases hheld : ((h.codec.retain x.group).receiveGroups x.group x.slot).isSome = true
    · rw [if_pos hheld]
      refine ⟨hfec, ?_, ha.once, ha.heard⟩
      have hnothing : (h.codec.retain x.group).deliveries x = [] := if_pos (.inl hheld)
      rw [houtputs, hnothing, map_nil, append_nil]
      exact ha.outputs
    · rw [if_neg hheld]
      have hshare := hfresh x hincoming (by simpa using hheld)
      have hunheard : ∀ place ∈ ((h.codec.retain x.group).deliveries x).map Prod.fst, h.Unheard place := by
        intro place hplace
        rcases KcptunPacketCodec.mem_deliveries hplace with ⟨hdata, hwell, rfl⟩ | ⟨hwhole, hgroup,
          hindex, hmissing⟩
        · exact hshare.1 hdata hwell
        · obtain ⟨group, index⟩ := place
          subst hgroup
          exact hshare.2 hwhole index hindex hmissing
      refine ⟨hfec, ?_, ?_, ?_⟩
      · rw [houtputs, ha.outputs, map_append]
      · rw [map_append, nodup_append']
        refine ⟨ha.once, KcptunPacketCodec.deliveries_nodup _ x, fun place hold hnew => ?_⟩
        rcases ha.heard place hold with hcame | hwhole
        · exact (hunheard place hnew).1 hcame
        · exact (hunheard place hnew).2 hwhole
      · dsimp only
        intro place hplace
        rw [map_append, mem_append] at hplace
        rcases hplace with hold | hnew
        · refine (ha.heard place hold).imp (fun hcame => ?_) fun hwhole => ?_
          · split
            · exact mem_cons_of_mem _ hcame
            · exact hcame
          · split
            · exact mem_cons_of_mem _ hwhole
            · exact hwhole
        · rcases KcptunPacketCodec.mem_deliveries hnew with ⟨hdata, hwell, rfl⟩ | ⟨hwhole, hgroup, -, -⟩
          · rw [if_pos ⟨hdata, hwell⟩]
            exact .inl mem_cons_self
          · rw [if_pos hwhole, hgroup]
            exact .inr mem_cons_self

def heardNothing (c : KcptunPacketCodec) : Heard := { codec := c }

/-- **Each data packet is delivered at most once** in the runs that meet the condition: whatever packets
arrive, in whatever order. -/
theorem fec_delivers_once (c : KcptunPacketCodec) (hfec : 0 < c.dataShard) (wirePackets : List Bytes)
    (hfresh : Along Heard.step Fresh (heardNothing c) wirePackets) {pre : List Bytes}
    (hpre : pre <+: wirePackets) :
    AtMostOnce (run Heard.step (heardNothing c) pre) := by
  obtain ⟨rest, rfl⟩ := hpre
  have hstart : Accounted (heardNothing c) := ⟨hfec, rfl, nodup_nil, fun _ hplace => absurd hplace not_mem_nil⟩
  have hrun : Accounted (run Heard.step (heardNothing c) pre) :=
    along_induction (P := Accounted) (fun h wirePacket ha hf => ha.step hf) pre _ hstart
      ((along_append pre rest _).1 hfresh).1
  exact ⟨hrun.outputs, hrun.once⟩

/-- What the sender of two packets sends: the packets, and their parity packet. -/
def twoOneWires : List Bytes :=
  let first := twoOneCodec.encode [7] 1 fun _ => none
  first.2 ++ (first.1.encode [8] 2 fun _ => none).2

def arriving (order : List Nat) : List Bytes := order.filterMap fun i => twoOneWires[i]?

/-- The second packet seems lost, and is recovered with the parity packet, which ends its group.  Then it
comes late. -/
theorem late_packet_delivered_twice :
    (run Heard.step (heardNothing twoOneCodec) (arriving [0, 2, 1])).outputs = [[7], [8], [8]] ∧
    ¬ AtMostOnce (run Heard.step (heardNothing twoOneCodec) (arriving [0, 2, 1])) := by
  refine ⟨by decide +kernel, fun h => ?_⟩
  exact absurd h.once (by decide +kernel)

/-- The first packet comes twice before the parity packet. -/
theorem fec_delivers_once_two_one : AtMostOnce
    (run Heard.step (heardNothing twoOneCodec) (arriving [0, 0, 2])) :=
  fec_delivers_once twoOneCodec (by decide) (arriving [0, 0, 2]) (by decide +kernel) (prefix_refl _)

end ClashNative.Kcptun
