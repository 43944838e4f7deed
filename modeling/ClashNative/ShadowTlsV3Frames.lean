import ClashNative.AeadRecords
import Mathlib.Data.List.Induction
/-!
# ShadowTlsV3Frames — frames under a chain of digests

`verify_chain`, the loop of `ShadowTlsV3Stream::write` and `handle_frame` of `shadow_tls_v3.cpp`.  A frame
carries four bytes of the HMAC of all that went before it.  The reader starts on the chain of the
handshake, to which only payloads are added, and goes over to the chain of the data, to which payloads and
digests are.
-/
namespace ClashNative.ShadowTlsV3

open List

open Wire (putU16 getU16)

abbrev Bytes := List UInt8

structure HmacSha1 where
  digest : Bytes → Bytes
  length_digest : ∀ input, (digest input).length = 20

def kTlsHeaderSize : Nat := 5
def kTlsHmacSize : Nat := 4
def kMaxTlsPlaintext : Nat := 16384
def kApplicationRecord : UInt8 := 23

def digestOf (frame : Bytes) : Bytes := (frame.drop kTlsHeaderSize).take kTlsHmacSize

def payloadOf (frame : Bytes) : Bytes := frame.drop (kTlsHeaderSize + kTlsHmacSize)

/-- `verify_chain`: the chain that the frame goes on with, if it is in order. -/
def verifyChain (mac : HmacSha1) (chain frame : Bytes) (appendDigest : Bool) : Option Bytes :=
  if frame.length < kTlsHeaderSize + kTlsHmacSize ∨ frame.getD 0 0 ≠ kApplicationRecord ∨
    frame.getD 1 0 ≠ 3 ∨ frame.getD 2 0 ≠ 3 then none
  else
    let input := chain ++ payloadOf frame
    let digest := mac.digest input
    if digest.length < kTlsHmacSize ∨ digest.take kTlsHmacSize ≠ digestOf frame then none
    else some (if appendDigest then input ++ digestOf frame else input)

/-! ### The writer -/

/-- The loop of `write`: the chain, and the frames that `write_wire_` is made of; `none` when a digest is
too short. -/
def writeLoop (mac : HmacSha1) : Nat → Bytes → List Bytes → Bytes → Option (Bytes × List Bytes)
  | 0, chain, wire, _ => some (chain, wire)
  | fuel + 1, chain, wire, rest =>
    if rest = [] then some (chain, wire)
    else
      let payload := rest.take kMaxTlsPlaintext
      let input := chain ++ payload
      let digest := mac.digest input
      if digest.length < kTlsHmacSize then none
      else
        writeLoop mac fuel (input ++ digest.take kTlsHmacSize)
          (wire ++ [[kApplicationRecord, 3, 3] ++ putU16 (payload.length + kTlsHmacSize) ++
            digest.take kTlsHmacSize ++ payload])
          (rest.drop kMaxTlsPlaintext)

def write (mac : HmacSha1) (chain buffer : Bytes) : Option (Bytes × List Bytes) :=
  writeLoop mac buffer.length chain [] buffer

def writeAll (mac : HmacSha1) : Bytes → List Bytes → Option (Bytes × List Bytes)
  | chain, [] => some (chain, [])
  | chain, buffer :: buffers => do
    let (chain, frames) ← write mac chain buffer
    let (chain, more) ← writeAll mac chain buffers
    return (chain, frames ++ more)

/-- A peer that applies `verify_chain` to the frames in order: its chain and the bytes it has got. -/
def receiveAll (mac : HmacSha1) : Bytes → List Bytes → Option (Bytes × Bytes)
  | chain, [] => some (chain, [])
  | chain, frame :: frames => do
    let next ← verifyChain mac chain frame true
    let (chain, data) ← receiveAll mac next frames
    return (chain, payloadOf frame ++ data)

/-! ### The reader -/

/-- The chains of the reader: `bridge_chain_` and `read_chain_`. -/
structure Chains where
  bridge : Bytes
  read : Bytes
  deriving DecidableEq, Repr

/-- What becomes of a frame: it is skipped, its payload is delivered, or the read fails. -/
inductive Verdict
  | bridge | data (payload : Bytes) | fault
  deriving DecidableEq, Repr

def handleData (mac : HmacSha1) (c : Chains) (frame : Bytes) : Verdict × Chains :=
  if frame.getD 0 0 ≠ kApplicationRecord then (.fault, c)
  else
    match verifyChain mac c.read frame true with
    | none => (.fault, c)
    | some next => (.data (payloadOf frame), { c with read := next })

def handleFrame (mac : HmacSha1) (c : Chains) (frame : Bytes) : Verdict × Chains :=
  if frame.getD 0 0 = kApplicationRecord ∧ c.bridge ≠ [] then
    match verifyChain mac c.bridge frame false with
    | some next => (.bridge, { c with bridge := next })
    | none => handleData mac { c with bridge := [] } frame
  else handleData mac c frame

def handleAll (mac : HmacSha1) : Chains → List Bytes → List Verdict × Chains
  | c, [] => ([], c)
  | c, frame :: frames =>
    let handled := handleFrame mac c frame
    let rest := handleAll mac handled.2 frames
    (handled.1 :: rest.1, rest.2)

/-! ### Frames under a chain -/

section Chain

variable (mac : HmacSha1)

def HmacSha1.tag (input : Bytes) : Bytes := (mac.digest input).take kTlsHmacSize

def frameOf (chain payload : Bytes) : Bytes :=
  [kApplicationRecord, 3, 3] ++ putU16 (payload.length + kTlsHmacSize) ++ mac.tag (chain ++ payload) ++ payload

def nextChain (appendDigest : Bool) (chain payload : Bytes) : Bytes :=
  chain ++ payload ++ if appendDigest then mac.tag (chain ++ payload) else []

def chainAfter (appendDigest : Bool) (chain : Bytes) (payloads : List Bytes) : Bytes :=
  payloads.foldl (nextChain mac appendDigest) chain

def framesOf (appendDigest : Bool) : Bytes → List Bytes → List Bytes
  | _, [] => []
  | chain, payload :: payloads => frameOf mac chain payload :: framesOf appendDigest
      (nextChain mac appendDigest chain payload) payloads

def inputsOf (appendDigest : Bool) : Bytes → List Bytes → List Bytes
  | _, [] => []
  | chain, payload :: payloads => (chain ++ payload) :: inputsOf appendDigest
      (nextChain mac appendDigest chain payload) payloads

variable {mac}

theorem length_tag (input : Bytes) : (mac.tag input).length = kTlsHmacSize := by
  unfold HmacSha1.tag
  rw [length_take, mac.length_digest]
  rfl

theorem putU16_eq (n : Nat) : putU16 n = [UInt8.ofNat (n / 256), UInt8.ofNat n] := rfl

theorem drop_frameOf (chain payload : Bytes) :
    (frameOf mac chain payload).drop kTlsHeaderSize = mac.tag (chain ++ payload) ++ payload := rfl

theorem digestOf_frameOf (chain payload : Bytes) :
    digestOf (frameOf mac chain payload) = mac.tag (chain ++ payload) := by
  unfold digestOf
  rw [drop_frameOf, take_left' (length_tag _)]

theorem payloadOf_frameOf (chain payload : Bytes) : payloadOf (frameOf mac chain payload) = payload := by
  unfold payloadOf
  rw [← drop_drop, drop_frameOf, drop_left' (length_tag _)]

theorem length_frameOf (chain payload : Bytes) :
    (frameOf mac chain payload).length = kTlsHeaderSize + kTlsHmacSize + payload.length := by
  unfold frameOf
  rw [length_append, length_append, length_tag, putU16_eq]
  rfl

theorem chainAfter_append (appendDigest : Bool) (chain : Bytes) (payloads more : List Bytes) :
    chainAfter mac appendDigest chain (payloads ++ more) = chainAfter mac appendDigest
    (chainAfter mac appendDigest chain payloads) more :=
  foldl_append

theorem framesOf_append (appendDigest : Bool) : ∀ (chain : Bytes) (payloads more : List Bytes),
    framesOf mac appendDigest chain (payloads ++ more) =
      framesOf mac appendDigest chain payloads ++ framesOf mac appendDigest
      (chainAfter mac appendDigest chain payloads) more
  | _, [], _ => rfl
  | chain, payload :: payloads, more => by
    rw [cons_append, framesOf, framesOf, framesOf_append appendDigest _ payloads more]
    rfl

/-- The frame is well formed: an application record of TLS 1.2 with a digest. -/
def WellFormed (frame : Bytes) : Prop :=
  kTlsHeaderSize + kTlsHmacSize ≤ frame.length ∧ frame.getD 0 0 = kApplicationRecord ∧ frame.getD 1 0 = 3 ∧
  frame.getD 2 0 = 3

theorem wellFormed_frameOf (chain payload : Bytes) : WellFormed (frameOf mac chain payload) := by
  refine ⟨?_, rfl, rfl, rfl⟩
  rw [length_frameOf]
  exact Nat.le_add_right _ _

variable {appendDigest : Bool} {chain frame : Bytes}

/-- **A frame is accepted under a chain** exactly when it is well formed and has the digest of the chain
with its payload. -/
theorem verifyChain_eq_some_iff {next : Bytes} : verifyChain mac chain frame appendDigest = some next ↔
    WellFormed frame ∧ digestOf frame = mac.tag (chain ++ payloadOf frame) ∧
    next = nextChain mac appendDigest chain (payloadOf frame) := by
  unfold verifyChain
  by_cases hform : WellFormed frame
  · obtain ⟨hlong, htype, hmajor, hminor⟩ := hform
    rw [if_neg (by simp only [not_or, not_not]; exact ⟨Nat.not_lt.2 hlong, htype, hmajor, hminor⟩)]
    by_cases hdigest : mac.tag (chain ++ payloadOf frame) = digestOf frame
    · rw [if_neg (by
        rw [not_or, not_not, mac.length_digest]
        exact ⟨by decide, hdigest⟩), Option.some.injEq]
      have hnext : nextChain mac appendDigest chain (payloadOf frame) =
          if appendDigest then chain ++ payloadOf frame ++ digestOf frame else chain ++ payloadOf frame := by
        unfold nextChain
        rw [hdigest]
        cases appendDigest
        · exact append_nil _
        · rfl
      rw [hnext]
      exact ⟨fun h => ⟨⟨hlong, htype, hmajor, hminor⟩, hdigest.symm, h.symm⟩, fun h => h.2.2.symm⟩
    · have hother : (mac.digest (chain ++ payloadOf frame)).take kTlsHmacSize ≠ digestOf frame := hdigest
      rw [if_pos (.inr hother)]
      exact ⟨nofun, fun h => absurd h.2.1.symm hdigest⟩
  · have hnot : frame.length < kTlsHeaderSize + kTlsHmacSize ∨ frame.getD 0 0 ≠ kApplicationRecord ∨
      frame.getD 1 0 ≠ 3 ∨ frame.getD 2 0 ≠ 3 := by
      by_contra hall
      simp only [not_or, not_not] at hall
      exact hform ⟨Nat.not_lt.1 hall.1, hall.2⟩
    rw [if_pos hnot]
    exact ⟨nofun, fun h => absurd h.1 hform⟩

theorem verifyChain_frameOf (chain payload : Bytes) (appendDigest : Bool) :
    verifyChain mac chain (frameOf mac chain payload) appendDigest =
    some (nextChain mac appendDigest chain payload) :=
  verifyChain_eq_some_iff.2 ⟨wellFormed_frameOf chain payload,
    by rw [digestOf_frameOf, payloadOf_frameOf], by rw [payloadOf_frameOf]⟩

theorem verifyChain_eq_none_iff : verifyChain mac chain frame appendDigest = none ↔
    ¬ (WellFormed frame ∧ digestOf frame = mac.tag (chain ++ payloadOf frame)) := by
  constructor
  · rintro hnone ⟨hform, hdigest⟩
    rw [verifyChain_eq_some_iff.2 ⟨hform, hdigest, rfl⟩] at hnone
    cases hnone
  · intro h
    cases hnext : verifyChain mac chain frame appendDigest with
    | none => rfl
    | some next => exact absurd ⟨(verifyChain_eq_some_iff.1 hnext).1, (verifyChain_eq_some_iff.1 hnext).2.1⟩ h

/-! ### The writer's frames -/

def pieces : Nat → Bytes → List Bytes
  | 0, _ => []
  | fuel + 1, rest => if rest = [] then [] else rest.take kMaxTlsPlaintext :: pieces fuel
      (rest.drop kMaxTlsPlaintext)

theorem flatten_pieces : ∀ (fuel : Nat) (rest : Bytes), rest.length ≤ fuel → (pieces fuel rest).flatten = rest
  | 0, rest, h => (length_eq_zero_iff.1 (Nat.le_zero.1 h)).symm
  | fuel + 1, rest, h => by
    rw [pieces]
    by_cases hrest : rest = []
    · rw [if_pos hrest, hrest]
      rfl
    · have hpos := length_pos_iff.2 hrest
      have hless : (rest.drop kMaxTlsPlaintext).length ≤ fuel := by
        rw [length_drop, kMaxTlsPlaintext]
        omega
      rw [if_neg hrest, flatten_cons, flatten_pieces fuel _ hless, take_append_drop]

theorem pieces_fit : ∀ (fuel : Nat) (rest : Bytes), ∀ piece ∈ pieces fuel rest, piece ≠ [] ∧
    piece.length ≤ kMaxTlsPlaintext
  | 0, _, _, h => nomatch h
  | fuel + 1, rest, piece, h => by
    rw [pieces] at h
    by_cases hrest : rest = []
    · rw [if_pos hrest] at h
      cases h
    · rw [if_neg hrest] at h
      rcases mem_cons.1 h with rfl | h
      · refine ⟨fun hnil => ?_, length_take_le _ _⟩
        rcases take_eq_nil_iff.1 hnil with hzero | hnone
        · exact absurd hzero (by decide)
        · exact hrest hnone
      · exact pieces_fit fuel _ piece h

theorem writeLoop_eq : ∀ (fuel : Nat) (chain : Bytes) (wire : List Bytes) (rest : Bytes),
    writeLoop mac fuel chain wire rest =
    some (chainAfter mac true chain (pieces fuel rest), wire ++ framesOf mac true chain (pieces fuel rest))
  | 0, _, wire, _ => by rw [writeLoop, pieces, framesOf, append_nil]; rfl
  | fuel + 1, chain, wire, rest => by
    rw [writeLoop, pieces]
    by_cases hrest : rest = []
    · rw [if_pos hrest, if_pos hrest, framesOf, append_nil]
      rfl
    · rw [if_neg hrest, if_neg hrest]
      rw [if_neg (by rw [mac.length_digest]; decide), writeLoop_eq fuel, framesOf]
      refine congrArg some (Prod.ext rfl ?_)
      exact append_assoc wire [frameOf mac chain (rest.take kMaxTlsPlaintext)] _

theorem write_eq (chain buffer : Bytes) : write mac chain buffer =
    some (chainAfter mac true chain (pieces buffer.length buffer),
      framesOf mac true chain (pieces buffer.length buffer)) := by
  rw [write, writeLoop_eq, nil_append]

theorem writeAll_eq : ∀ (buffers : List Bytes) (chain : Bytes), writeAll mac chain buffers =
    some (chainAfter mac true chain (buffers.flatMap fun buffer => pieces buffer.length buffer),
      framesOf mac true chain (buffers.flatMap fun buffer => pieces buffer.length buffer))
  | [], _ => rfl
  | buffer :: buffers, chain => by
    rw [writeAll, write_eq, flatMap_cons, chainAfter_append, framesOf_append]
    change (do
      let (last, more) ← writeAll mac (chainAfter mac true chain (pieces buffer.length buffer)) buffers
      return (last, framesOf mac true chain (pieces buffer.length buffer) ++ more)) = _
    rw [writeAll_eq buffers]
    rfl

theorem receiveAll_framesOf : ∀ (payloads : List Bytes) (chain : Bytes),
    receiveAll mac chain (framesOf mac true chain payloads) = some (chainAfter mac true chain payloads,
      payloads.flatten)
  | [], _ => rfl
  | payload :: payloads, chain => by
    rw [framesOf, receiveAll, verifyChain_frameOf]
    change (do
      let (last, data) ← receiveAll mac (nextChain mac true chain payload) (framesOf mac true
        (nextChain mac true chain payload) payloads)
      return (last, payloadOf (frameOf mac chain payload) ++ data)) = _
    rw [receiveAll_framesOf payloads, payloadOf_frameOf]
    rfl

theorem flatten_writes : ∀ buffers : List Bytes,
    (buffers.flatMap fun buffer => pieces buffer.length buffer).flatten = buffers.flatten
  | [] => rfl
  | buffer :: buffers => by
    rw [flatMap_cons, flatten_append, flatten_pieces _ _ (Nat.le_refl _), flatten_writes buffers, flatten_cons]

def Framed (frame : Bytes) : Prop := getU16 (frame.drop 3) + kTlsHeaderSize = frame.length

theorem framed_frameOf {payload : Bytes} (h : payload.length + kTlsHmacSize < 65536) (chain : Bytes) :
    Framed (frameOf mac chain payload) := by
  unfold Framed
  have hdrop : (frameOf mac chain payload).drop 3 = putU16 (payload.length + kTlsHmacSize) ++
    (mac.tag (chain ++ payload) ++ payload) := rfl
  rw [hdrop, Wire.getU16_putU16_append h, length_frameOf]
  omega

theorem framed_framesOf : ∀ {payloads : List Bytes} (chain : Bytes),
    (∀ payload ∈ payloads, payload.length + kTlsHmacSize < 65536) →
    ∀ frame ∈ framesOf mac appendDigest chain payloads, Framed frame
  | [], _, _, _, h => nomatch h
  | payload :: payloads, chain, hfit, frame, h => by
    rcases mem_cons.1 h with rfl | h
    · exact framed_frameOf (hfit payload mem_cons_self) chain
    · exact framed_framesOf _ (fun other hother => hfit other (mem_cons_of_mem _ hother)) frame h

end Chain

end ClashNative.ShadowTlsV3
