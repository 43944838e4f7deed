import ClashNative.KcptunPacket
import Mathlib.Logic.Function.Iterate
/-!
# KcptunFec — forward error correction of kcptun

`KcptunPacketCodec::create`, `encode` and `decode`.  Botan's Reed-Solomon code is an argument (`ZFec`);
instants are nanoseconds since the clock's epoch, and the maps of the receiver are functions.
-/
namespace ClashNative.Kcptun

def kFecHeaderSize : Nat := 6
def kFecHeaderSizePlusTwo : Nat := 8
def kFecData : Nat := 0xf1
def kFecParity : Nat := 0xf2
def kFecPaws : Nat := 0xffffffff
def kMaximumRetainedFecGroups : Nat := 3
def kFecEncodeLatencyMs : Int := 500

/-- `Botan::ZFEC`: the share of an index from the data shares, and the data share of an index from the
shares that are there, all of one size. -/
structure ZFec where
  encodeShare : List Bytes → Nat → Nat → Bytes
  decodeShare : (Nat → Option Bytes) → Nat → Nat → Bytes

structure FecGroup where
  shares : List Bytes := []
  maxSize : Nat := 0
  latest : Int := 0

/-- `KcptunPacketCodec::Impl`; there is FEC where there are data shards. -/
structure KcptunPacketCodec where
  cipher : Cipher
  fec : ZFec
  dataShard : Nat
  parityShard : Nat
  nextFecSequence : Nat := 0
  fecGroup : FecGroup := {}
  receiveGroups : Nat → Nat → Option Bytes := fun _ _ => none
  newestReceiveGroup : Nat := 0
  haveNewestReceiveGroup : Bool := false

def invalidShardCounts : Error := ⟨.configuration, "invalid kcptun FEC shard counts"⟩

/-- What `create` and the options ask of the shard counts. -/
def ShardCounts (dataShard parityShard : Int) : Prop :=
  ¬ (dataShard < 0 ∨ parityShard < 0 ∨ dataShard > 0xff ∨ parityShard > 0xff ∨
    ¬ (dataShard = 0 ↔ parityShard = 0) ∨
    dataShard > 0 ∧ dataShard + parityShard > 256)

instance (dataShard parityShard : Int) : Decidable (ShardCounts dataShard parityShard) := by
  unfold ShardCounts
  infer_instance

def resize (share : Bytes) (size : Nat) : Bytes := share ++ List.replicate (size - share.length) 0

def fecShare (packet : Bytes) : Bytes := putU16 (packet.length + 2) ++ packet

def packetOf (share : Bytes) : Bytes := (share.take (getU16 share)).drop 2

def makeFecPacket (sequence type : Nat) (payload : Bytes) : Bytes := putU32 sequence ++ (putU16 type ++ payload)

def advanceFecSequence (sequence : Nat) : Nat := if sequence = kFecPaws - 1 then 0 else sequence + 1

namespace FecGroup

def push (g : FecGroup) (packet : Bytes) (now : Int) : FecGroup :=
  { shares := g.shares ++ [fecShare packet], maxSize := max g.maxSize (fecShare packet).length, latest := now }

def continuous (g : FecGroup) (now : Int) : Bool :=
  decide (g.latest ≠ 0) && decide ((now - g.latest).tdiv 1000000 < kFecEncodeLatencyMs)

end FecGroup

namespace KcptunPacketCodec

def create (cipher : Cipher) (fec : ZFec) (dataShard parityShard : Int) : Except Error KcptunPacketCodec :=
  if ShardCounts dataShard parityShard then
    .ok { cipher, fec, dataShard := dataShard.toNat, parityShard := parityShard.toNat }
  else .error invalidShardCounts

def shardSize (c : KcptunPacketCodec) : Nat := c.dataShard + c.parityShard

/-! ## Encoding -/

def parityPackets (c : KcptunPacketCodec) : List Bytes :=
  (List.range c.parityShard).map fun i =>
    makeFecPacket (advanceFecSequence^[i] c.nextFecSequence) kFecParity
      (c.fec.encodeShare (c.fecGroup.shares.map (resize · c.fecGroup.maxSize)) c.fecGroup.maxSize
        (c.dataShard + i))

def takes (c : KcptunPacketCodec) (packet : Bytes) : Bool :=
  decide (c.dataShard ≠ 0) && decide (packet.length ≤ 0xffff - 2)

def push (c : KcptunPacketCodec) (packet : Bytes) (now : Int) : KcptunPacketCodec :=
  { c with nextFecSequence := advanceFecSequence c.nextFecSequence, fecGroup := c.fecGroup.push packet now }

def encodePackets (c : KcptunPacketCodec) (packet : Bytes) (now : Int) : KcptunPacketCodec × List Bytes :=
  if c.dataShard = 0 then (c, [packet])
  else if packet.length > 0xffff - 2 then (c, [])
  else
    let data := makeFecPacket c.nextFecSequence kFecData (fecShare packet)
    if (c.push packet now).fecGroup.shares.length = c.dataShard then
      -- Parity that is not sent keeps its numbers.
      ({ c.push packet now with
          nextFecSequence := advanceFecSequence^[c.parityShard] (c.push packet now).nextFecSequence,
            fecGroup := {} },
        data :: if c.fecGroup.continuous now then (c.push packet now).parityPackets else [])
    else (c.push packet now, [data])

/-- The end of `encode`: all are encrypted, or nothing is sent. -/
def cryptAll (c : KcptunPacketCodec) (random : Nat → Option (Nat → UInt8)) (packets : List Bytes) : List Bytes :=
  let output := packets.mapIdx fun i packet => cryptPacket c.cipher (random i) packet
  if output.any fun encrypted => encrypted.isEmpty || decide (encrypted.length > kMaximumDatagramSize)
  then [] else output

def encode (c : KcptunPacketCodec) (packet : Bytes) (now : Int) (random : Nat → Option (Nat → UInt8)) :
    KcptunPacketCodec × List Bytes :=
  ((c.encodePackets packet now).1, c.cryptAll random (c.encodePackets packet now).2)

/-! ## Decoding -/

def retain (c : KcptunPacketCodec) (groupId : Nat) : KcptunPacketCodec :=
  let newest := if c.haveNewestReceiveGroup = false ∨ groupId > c.newestReceiveGroup then groupId
    else c.newestReceiveGroup
  { c with
    newestReceiveGroup := newest,
    haveNewestReceiveGroup := true,
    receiveGroups := fun g =>
      if newest > g ∧ newest - g > kMaximumRetainedFecGroups then fun _ => none else c.receiveGroups g }

def setShare (c : KcptunPacketCodec) (groupId slot : Nat) (share : Bytes) : KcptunPacketCodec :=
  { c with receiveGroups := fun g s => if g = groupId ∧ s = slot then some share else c.receiveGroups g s }

def eraseGroup (c : KcptunPacketCodec) (groupId : Nat) : KcptunPacketCodec :=
  { c with receiveGroups := fun g => if g = groupId then fun _ => none else c.receiveGroups g }

def groupSize (c : KcptunPacketCodec) (groupId : Nat) : Nat :=
  (List.range c.shardSize).countP fun slot => (c.receiveGroups groupId slot).isSome

def shareSize (c : KcptunPacketCodec) (groupId : Nat) : Nat :=
  (List.range c.shardSize).foldr (fun slot size => max
    (((c.receiveGroups groupId slot).map List.length).getD 0) size) 0

/-- What `decode_shares` gives of the packets that did not arrive. -/
def recover (c : KcptunPacketCodec) (groupId : Nat) : List Bytes :=
  let size := c.shareSize groupId
  (List.range c.dataShard).filterMap fun index =>
    let share := c.fec.decodeShare (fun slot => (c.receiveGroups groupId slot).map (resize · size)) size index
    if (c.receiveGroups groupId index).isSome ∨ size < 2 then none
    else if 2 ≤ getU16 share ∧ getU16 share ≤ size then some (packetOf share) else none

def receiveShare (c : KcptunPacketCodec) (groupId slot : Nat) (data : Bool)
    (share : Bytes) : KcptunPacketCodec × List Bytes :=
  if (c.receiveGroups groupId slot).isSome then (c, [])
  else
    let c := c.setShare groupId slot share
    if data = true ∧ (share.length < 2 ∨ getU16 share > share.length ∨ getU16 share < 2) then (c, [])
    else
      let output := if data then [packetOf share] else []
      if c.groupSize groupId < c.dataShard then (c, output) else
        (c.eraseGroup groupId, output ++ c.recover groupId)

def receivePacket (c : KcptunPacketCodec) (plaintext : Bytes) : KcptunPacketCodec × List Bytes :=
  let sequence := getU32 plaintext
  let type := getU16 (plaintext.drop 4)
  let slot := sequence % c.shardSize
  if type ≠ kFecData ∧ type ≠ kFecParity ∨ sequence ≥ kFecPaws then (c, [])
  else if decide (slot < c.dataShard) ≠ decide (type = kFecData) then (c, [])
  else
    (c.retain (sequence / c.shardSize)).receiveShare (sequence / c.shardSize) slot (decide (type = kFecData))
      (plaintext.drop kFecHeaderSize)

def decode (c : KcptunPacketCodec) (wirePacket : Bytes) : KcptunPacketCodec × List Bytes :=
  let plaintext := decryptPacket c.cipher wirePacket
  if plaintext = [] then (c, [])
  else if c.dataShard = 0 then (c, [plaintext])
  else if plaintext.length < kFecHeaderSizePlusTwo then (c, [])
  else c.receivePacket plaintext

end KcptunPacketCodec

end ClashNative.Kcptun
