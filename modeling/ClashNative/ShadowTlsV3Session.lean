import ClashNative.ShadowTlsV3Frames
/-!
# ShadowTlsV3Session — what a frame in another's place comes to

A server sends frames that are left of the handshake, and then application frames.  The reader skips the
ones and delivers the others; of a frame that comes in place of the next one, it only accepts what the
server has digested behind what came before.
-/
namespace ClashNative.ShadowTlsV3

open List

open Wire (putU16 getU16)

/-- What the server sends once the handshake is done: the payloads of the frames that are left of it, and
the application payloads.  `handed` are the payloads of the handshake that were digested before. -/
structure Session where
  mac : HmacSha1
  serverRandom : Bytes
  handed : Bytes
  bridges : List Bytes
  applications : List Bytes

namespace Session

variable (S : Session)

/-- `read_chain_` and `write_chain_` of the constructor. -/
def readStart : Bytes := S.serverRandom ++ [0x53]
def writeStart : Bytes := S.serverRandom ++ [0x43]
def bridgeStart : Bytes := S.serverRandom ++ S.handed

def initial : Chains := ⟨S.bridgeStart, S.readStart⟩

def frames : List Bytes := framesOf S.mac false S.bridgeStart S.bridges ++
    framesOf S.mac true S.readStart S.applications

def inputs : List Bytes :=
  S.bridgeStart :: (inputsOf S.mac false S.bridgeStart S.bridges ++
    inputsOf S.mac true S.readStart S.applications)

def firstTry : List Bytes := S.applications.head?.toList.map fun payload =>
    chainAfter S.mac false S.bridgeStart S.bridges ++ payload

/-- **The digests of distinct inputs are distinct.** -/
def Distinct : Prop :=
  ∀ x ∈ S.inputs ++ S.firstTry, ∀ y ∈ S.inputs ++ S.firstTry, S.mac.tag x = S.mac.tag y → x = y

/-- **Frames as a server sends them**: each has a payload that fits, and the handshake has handed over
more than a byte. -/
structure Sent : Prop where
  handed : 1 < S.handed.length
  bridges : ∀ payload ∈ S.bridges, payload ≠ [] ∧ payload.length + kTlsHmacSize < 65536
  applications : ∀ payload ∈ S.applications, payload ≠ [] ∧ payload.length + kTlsHmacSize < 65536

/-- The handshake's bytes do not begin with the mark of the server's data. -/
def Unmarked : Prop := S.handed.head? ≠ some 0x53

def reader (k : Nat) : Chains := (handleAll S.mac S.initial (S.frames.take k)).2

def tried (k : Nat) (frame : Bytes) : List Bytes :=
  (if (S.reader k).bridge = [] then [] else [(S.reader k).bridge ++ payloadOf frame]) ++
  [(S.reader k).read ++ payloadOf frame]

/-- **The frame is not forged**: its digest is not that of an input which the server has not digested. -/
def Unforged (k : Nat) (frame : Bytes) : Prop :=
  ∀ input ∈ S.tried k frame, S.mac.tag input = digestOf frame → input ∈ S.inputs

def Fails (k : Nat) (frame : Bytes) : Prop :=
  (handleFrame S.mac (S.reader k) frame).1 = .fault ∧
  (handleFrame S.mac (S.reader k) frame).2.read = (S.reader k).read

end Session

def digested (mac : HmacSha1) : Bytes → List Bytes → Bytes
  | _, [] => []
  | chain, payload :: payloads => payload ++ mac.tag (chain ++ payload) ++ digested mac
      (nextChain mac true chain payload) payloads

namespace Session

/-- **The frames are authenticated**: what is written is received, and what is sent is read, the frames of
the handshake skipped.
- In place of the next frame, one that is not forged is accepted only where it joins frames of the server:
  frames of the handshake (`skipped`), or application frames with the digests between them (`joined`);
  else the read fails.
- Another of the server's frames fails, but for the first application frame in place of what is left of
  the handshake; and so does the next frame with another payload, or with another digest. -/
structure Authenticated (S : Session) : Prop where
  written : ∀ buffers, ∃ chain frames, writeAll S.mac S.writeStart buffers = some (chain, frames) ∧
    receiveAll S.mac S.writeStart frames = some (chain, buffers.flatten) ∧ ∀ frame ∈ frames, Framed frame
  read : (handleAll S.mac S.initial S.frames).1 = S.bridges.map (fun _ => .bridge) ++ S.applications.map .data
  accepted : S.Unmarked → ∀ k ≤ S.frames.length, ∀ frame, S.Unforged k frame →
    (∃ skipped, skipped <+: S.bridges.drop k ∧ k ≤ S.bridges.length ∧ payloadOf frame = skipped.flatten ∧
      (handleFrame S.mac (S.reader k) frame).1 = .bridge) ∨
    (∃ joined last, joined ++ [last] <+: S.applications.drop (k - S.bridges.length) ∧
      (handleFrame S.mac (S.reader k) frame).1 = .data (digested S.mac (S.reader k).read joined ++ last)) ∨
    S.Fails k frame
  replayed : S.Unmarked → ∀ k ≤ S.frames.length, ∀ j frame, S.Unforged k frame →
    S.frames[j]? = some frame → j ≠ k →
    ¬ (k ≤ S.bridges.length ∧ j = S.bridges.length) →
    S.Fails k frame
  altered : S.Unmarked → ∀ k sent frame, S.Unforged k frame → S.frames[k]? = some sent →
    Framed frame → frame ≠ sent →
    digestOf frame = digestOf sent ∨ S.bridges.length ≤ k ∧ payloadOf frame = payloadOf sent → S.Fails k frame

end Session

/-! ### Chains -/

section Chain

variable {mac : HmacSha1}

theorem chainAfter_false : ∀ (payloads : List Bytes) (chain : Bytes), chainAfter mac false chain payloads =
    chain ++ payloads.flatten
  | [], chain => (append_nil chain).symm
  | payload :: payloads, chain => by
    have hnext : nextChain mac false chain payload = chain ++ payload := append_nil _
    unfold chainAfter
    rw [foldl_cons, hnext]
    exact (chainAfter_false payloads _).trans (by rw [append_assoc, flatten_cons])

theorem chainAfter_true : ∀ (payloads : List Bytes) (chain : Bytes), chainAfter mac true chain payloads =
    chain ++ digested mac chain payloads
  | [], chain => (append_nil chain).symm
  | payload :: payloads, chain => by
    refine (chainAfter_true payloads _).trans ?_
    have hnext : nextChain mac true chain payload = chain ++ payload ++ mac.tag (chain ++ payload) := rfl
    rw [digested, hnext]
    simp only [append_assoc]

variable {appendDigest : Bool}

theorem mem_inputsOf : ∀ {payloads : List Bytes} {chain input : Bytes},
    input ∈ inputsOf mac appendDigest chain payloads ↔
    ∃ front payload back, payloads = front ++ payload :: back ∧
    input = chainAfter mac appendDigest chain front ++ payload
  | [], _, _ => by simp [inputsOf]
  | payload :: payloads, chain, input => by
    rw [inputsOf, mem_cons, mem_inputsOf]
    constructor
    · rintro (rfl | ⟨front, other, back, rfl, rfl⟩)
      · exact ⟨[], payload, payloads, rfl, rfl⟩
      · exact ⟨payload :: front, other, back, rfl, rfl⟩
    · rintro ⟨front, other, back, heq, rfl⟩
      cases front with
      | nil =>
        cases heq
        exact .inl rfl
      | cons first front =>
        cases heq
        exact .inr ⟨front, other, back, rfl, rfl⟩

theorem getElem?_framesOf : ∀ {payloads : List Bytes} {chain frame : Bytes} {j : Nat},
    (framesOf mac appendDigest chain payloads)[j]? = some frame → ∃ payload, payloads[j]? = some payload ∧
      frame = frameOf mac (chainAfter mac appendDigest chain (payloads.take j)) payload
  | [], _, _, _, h => by simp [framesOf] at h
  | payload :: payloads, chain, frame, 0, h => ⟨payload, rfl, (Option.some.inj h).symm⟩
  | payload :: payloads, chain, frame, j + 1, h => by
    rw [framesOf, getElem?_cons_succ] at h
    obtain ⟨other, hother, rfl⟩ := getElem?_framesOf h
    exact ⟨other, hother, rfl⟩

theorem length_framesOf (appendDigest : Bool) : ∀ (payloads : List Bytes) (chain : Bytes),
    (framesOf mac appendDigest chain payloads).length = payloads.length
  | [], _ => rfl
  | _ :: payloads, _ => congrArg (· + 1) (length_framesOf appendDigest payloads _)

theorem framesOf_take (appendDigest : Bool) : ∀ (payloads : List Bytes) (chain : Bytes) (k : Nat),
    (framesOf mac appendDigest chain payloads).take k = framesOf mac appendDigest chain (payloads.take k)
  | [], _, k => by rw [take_nil, framesOf, take_nil]
  | _ :: _, _, 0 => rfl
  | _ :: payloads, _, k + 1 => congrArg (List.cons _) (framesOf_take appendDigest payloads _ k)

theorem digested_append : ∀ (front more : List Bytes) (chain : Bytes),
    digested mac chain (front ++ more) = digested mac chain front ++ digested mac
    (chainAfter mac true chain front) more
  | [], _, _ => rfl
  | payload :: front, more, chain => by
    rw [cons_append, digested, digested, digested_append front more, ← append_assoc]
    rfl

theorem length_digested_lt (mac : HmacSha1) (chain : Bytes) (front back : List Bytes) (payload : Bytes) :
    (digested mac chain front ++ payload).length < (digested mac chain (front ++ payload :: back)).length := by
  rw [digested_append, digested, length_append, length_append, length_append, length_append,
    length_tag, kTlsHmacSize]
  omega

/-! ### The reader on the server's frames -/

theorem handleAll_append : ∀ (frames more : List Bytes) (c : Chains), handleAll mac c (frames ++ more) =
    ((handleAll mac c frames).1 ++ (handleAll mac (handleAll mac c frames).2 more).1,
      (handleAll mac (handleAll mac c frames).2 more).2)
  | [], _, _ => rfl
  | frame :: frames, more, c => by
    rw [cons_append, handleAll, handleAll]
    rw [handleAll_append frames more]
    rfl

theorem handleAll_bridges (read : Bytes) : ∀ (payloads : List Bytes) (chain : Bytes), chain ≠ [] →
    handleAll mac ⟨chain, read⟩ (framesOf mac false chain payloads) =
      (payloads.map fun _ => .bridge, ⟨chainAfter mac false chain payloads, read⟩)
  | [], _, _ => rfl
  | payload :: payloads, chain, hchain => by
    have hframe : handleFrame mac ⟨chain, read⟩ (frameOf mac chain payload) =
    (.bridge, ⟨nextChain mac false chain payload, read⟩) := by
      unfold handleFrame
      rw [if_pos ⟨(wellFormed_frameOf chain payload).2.1, hchain⟩, verifyChain_frameOf]
    have hnext : nextChain mac false chain payload ≠ [] := by
      exact append_ne_nil_of_left_ne_nil (append_ne_nil_of_left_ne_nil hchain _) _
    rw [framesOf, handleAll, hframe]
    rw [handleAll_bridges read payloads _ hnext]
    rfl

theorem handleData_frameOf (bridge read payload : Bytes) :
    handleData mac ⟨bridge, read⟩ (frameOf mac read payload) =
    (.data payload, ⟨bridge, nextChain mac true read payload⟩) := by
  unfold handleData
  rw [if_neg (not_not.2 (wellFormed_frameOf read payload).2.1), verifyChain_frameOf, payloadOf_frameOf]

theorem handleAll_applications : ∀ (payloads : List Bytes) (read : Bytes), handleAll mac ⟨[], read⟩
    (framesOf mac true read payloads) =
    (payloads.map .data, ⟨[], chainAfter mac true read payloads⟩)
  | [], _ => rfl
  | payload :: payloads, read => by
    have hframe : handleFrame mac ⟨[], read⟩ (frameOf mac read payload) =
    (.data payload, ⟨[], nextChain mac true read payload⟩) := by
      unfold handleFrame
      rw [if_neg (fun h => h.2 rfl), handleData_frameOf]
    rw [framesOf, handleAll, hframe]
    rw [handleAll_applications payloads]
    rfl

theorem handleFrame_first {bridge read payload : Bytes}
    (h : mac.tag (bridge ++ payload) ≠ mac.tag (read ++ payload)) :
    handleFrame mac ⟨bridge, read⟩ (frameOf mac read payload) =
    (.data payload, ⟨[], nextChain mac true read payload⟩) := by
  unfold handleFrame
  by_cases hbridge : bridge = []
  · rw [if_neg (fun hboth => hboth.2 hbridge), handleData_frameOf, hbridge]
  · have hnone : verifyChain mac bridge (frameOf mac read payload) false = none := by
      rw [verifyChain_eq_none_iff, digestOf_frameOf, payloadOf_frameOf]
      exact fun hboth => h hboth.2.symm
    rw [if_pos ⟨(wellFormed_frameOf read payload).2.1, hbridge⟩, hnone]
    exact handleData_frameOf [] read payload

/-- **What becomes of a frame**: it is in order under the chain of the handshake, or under that of the
data, or the read fails. -/
theorem handleFrame_cases (mac : HmacSha1) (c : Chains) (frame : Bytes) :
    (c.bridge ≠ [] ∧ WellFormed frame ∧ digestOf frame = mac.tag (c.bridge ++ payloadOf frame) ∧
      (handleFrame mac c frame).1 = .bridge) ∨
    (WellFormed frame ∧ digestOf frame = mac.tag (c.read ++ payloadOf frame) ∧
      (handleFrame mac c frame).1 = .data (payloadOf frame)) ∨
    ((handleFrame mac c frame).1 = .fault ∧ (handleFrame mac c frame).2.read = c.read) := by
  have hdata (d : Chains) : (WellFormed frame ∧ digestOf frame = mac.tag (d.read ++ payloadOf frame) ∧
      (handleData mac d frame).1 = .data (payloadOf frame)) ∨
      ((handleData mac d frame).1 = .fault ∧ (handleData mac d frame).2.read = d.read) := by
    unfold handleData
    split
    · exact .inr ⟨rfl, rfl⟩
    · cases hnext : verifyChain mac d.read frame true with
      | none => exact .inr ⟨rfl, rfl⟩
      | some next =>
        obtain ⟨hform, hdigest, -⟩ := verifyChain_eq_some_iff.1 hnext
        exact .inl ⟨hform, hdigest, rfl⟩
  unfold handleFrame
  split
  · rename_i hboth
    cases hnext : verifyChain mac c.bridge frame false with
    | none => exact .inr (hdata { c with bridge := [] })
    | some next =>
      obtain ⟨hform, hdigest, -⟩ := verifyChain_eq_some_iff.1 hnext
      exact .inl ⟨hboth.2, hform, hdigest, rfl⟩
  · exact .inr (hdata c)

end Chain

namespace Session

variable {S : Session}

/-! ### Inputs of the handshake, and inputs of the data -/

def bridgeChain (S : Session) (k : Nat) : Bytes := S.bridgeStart ++ (S.bridges.take k).flatten

def readChain (S : Session) (n : Nat) : Bytes :=
  S.readStart ++ digested S.mac S.readStart (S.applications.take n)

theorem Sent.apart (h : S.Sent) (hmark : S.Unmarked) (x y : Bytes) : S.bridgeStart ++ x ≠ S.readStart ++ y := by
  obtain ⟨first, more, hhanded⟩ := exists_cons_of_length_pos (Nat.zero_lt_of_lt h.handed)
  intro heq
  unfold bridgeStart readStart at heq
  rw [hhanded, append_assoc, append_assoc, append_cancel_left_eq] at heq
  exact hmark (by rw [hhanded, ← (List.cons.inj heq).1]; rfl)

theorem bridgeChain_ne_nil (h : S.Sent) (k : Nat) : S.bridgeChain k ≠ [] := by
  obtain ⟨first, more, hhanded⟩ := exists_cons_of_length_pos (Nat.zero_lt_of_lt h.handed)
  unfold bridgeChain bridgeStart
  rw [hhanded]
  simp

variable {payload : Bytes} {j : Nat}

theorem mem_inputs_bridge (hpayload : S.bridges[j]? = some payload) : S.bridgeChain j ++ payload ∈ S.inputs := by
  refine mem_cons_of_mem _ (mem_append_left _
    (mem_inputsOf.2 ⟨S.bridges.take j, payload, S.bridges.drop (j + 1), ?_, ?_⟩))
  · obtain ⟨hlt, rfl⟩ := List.getElem?_eq_some_iff.1 hpayload
    rw [← drop_eq_getElem_cons hlt, take_append_drop]
  · rw [chainAfter_false]
    rfl

variable {n : Nat}

theorem mem_inputs_data (hpayload : S.applications[n]? = some payload) :
    S.readChain n ++ payload ∈ S.inputs := by
  refine mem_cons_of_mem _ (mem_append_right _
    (mem_inputsOf.2 ⟨S.applications.take n, payload, S.applications.drop (n + 1), ?_, ?_⟩))
  · obtain ⟨hlt, rfl⟩ := List.getElem?_eq_some_iff.1 hpayload
    rw [← drop_eq_getElem_cons hlt, take_append_drop]
  · rw [chainAfter_true]
    rfl

/-- **What the server has digested**: the chain of the handshake behind some of its frames, or the chain
of the data with a payload. -/
theorem mem_inputs {input : Bytes} (h : input ∈ S.inputs) : (∃ j ≤ S.bridges.length, input = S.bridgeChain j) ∨
    ∃ n payload, S.applications[n]? = some payload ∧ input = S.readChain n ++ payload := by
  rcases mem_cons.1 h with rfl | h
  · exact .inl ⟨0, Nat.zero_le _, (append_nil _).symm⟩
  rcases mem_append.1 h with h | h
  · obtain ⟨front, payload, back, hbridges, rfl⟩ := mem_inputsOf.1 h
    refine .inl ⟨front.length + 1, ?_, ?_⟩
    · rw [hbridges, length_append, length_cons]
      omega
    · have htake : S.bridges.take (front.length + 1) = front ++ [payload] := by
        rw [hbridges, append_cons, take_left' (by rw [length_append, length_singleton])]
      unfold bridgeChain
      rw [chainAfter_false, htake, flatten_append, flatten_singleton, append_assoc]
  · obtain ⟨front, payload, back, happlications, rfl⟩ := mem_inputsOf.1 h
    refine .inr ⟨front.length, payload, ?_, ?_⟩
    · rw [happlications, getElem?_append_right (Nat.le_refl _), Nat.sub_self, getElem?_cons_zero]
    · unfold readChain
      rw [chainAfter_true, happlications, take_left]

variable {k : Nat}

theorem length_bridgeChain_lt (h : S.Sent) (hlt : j < k) (hj : j < S.bridges.length) :
    (S.bridgeChain j).length < (S.bridgeChain k).length := by
  have hsplit : S.bridges.take k = S.bridges.take j ++ (S.bridges.drop j).take (k - j) := by
    rw [← take_add, Nat.add_sub_cancel' (Nat.le_of_lt hlt)]
  have hcons : (S.bridges.drop j).take (k - j) =
    S.bridges[j] :: ((S.bridges.drop (j + 1)).take (k - j - 1)) := by
    obtain ⟨d, hd⟩ : ∃ d, k - j = d + 1 := ⟨k - j - 1, by omega⟩
    rw [hd, drop_eq_getElem_cons hj, take_succ_cons, Nat.add_sub_cancel]
  have hpos := length_pos_iff.2 (h.bridges _ (getElem_mem hj)).1
  unfold bridgeChain
  rw [hsplit, hcons, flatten_append, flatten_cons]
  simp only [length_append]
  omega

theorem bridgeChain_inj (h : S.Sent) (hj : j ≤ S.bridges.length) (hk : k ≤ S.bridges.length)
    (heq : S.bridgeChain j = S.bridgeChain k) : j = k := by
  rcases Nat.lt_trichotomy j k with hlt | rfl | hlt
  · exact absurd (congrArg List.length heq) (Nat.ne_of_lt (length_bridgeChain_lt h hlt (by omega)))
  · rfl
  · exact absurd (congrArg List.length heq) (Nat.ne_of_gt (length_bridgeChain_lt h hlt (by omega)))

variable {i : Nat}

theorem length_input_lt (hlt : i < n) (hpayload : S.applications[i]? = some payload) :
    (S.readChain i ++ payload).length < (S.readChain n).length := by
  obtain ⟨hi, rfl⟩ := List.getElem?_eq_some_iff.1 hpayload
  have hsplit : S.applications.take n = S.applications.take i ++ S.applications[i] ::
    ((S.applications.drop (i + 1)).take (n - i - 1)) := by
    obtain ⟨d, hd⟩ : ∃ d, n = i + (d + 1) := ⟨n - i - 1, by omega⟩
    rw [hd, take_add, drop_eq_getElem_cons hi, take_succ_cons]
    congr 3
    omega
  have hless := length_digested_lt S.mac S.readStart (S.applications.take i)
    ((S.applications.drop (i + 1)).take (n - i - 1)) S.applications[i]
  rw [← hsplit] at hless
  unfold readChain
  simp only [length_append] at hless ⊢
  omega

theorem readChain_inj (hpayload : S.applications[i]? = some payload) (heq : S.readChain i = S.readChain n) :
    i = n := by
  rcases Nat.lt_trichotomy i n with hlt | rfl | hlt
  · have hless := length_input_lt hlt hpayload
    rw [heq, length_append] at hless
    omega
  · rfl
  · have hless := length_input_lt hlt (getElem?_eq_getElem
      (Nat.lt_trans hlt (List.getElem?_eq_some_iff.1 hpayload).1))
    rw [heq, length_append] at hless
    omega

variable {more : Bytes}

theorem bridge_suffix (h : S.Sent) (hmark : S.Unmarked) (hk : k ≤ S.bridges.length)
    (hmem : S.bridgeChain k ++ more ∈ S.inputs) :
    ∃ j, k ≤ j ∧ j ≤ S.bridges.length ∧ S.bridgeChain k ++ more = S.bridgeChain j ∧
    more = ((S.bridges.drop k).take (j - k)).flatten := by
  rcases mem_inputs hmem with ⟨j, hj, heq⟩ | ⟨n, payload, -, heq⟩
  · have hkj : k ≤ j := by
      by_contra hlt
      have hless := length_bridgeChain_lt h (Nat.not_le.1 hlt) (Nat.lt_of_lt_of_le (Nat.not_le.1 hlt) hk)
      rw [← heq, length_append] at hless
      omega
    refine ⟨j, hkj, hj, heq, ?_⟩
    have hsplit : S.bridges.take j = S.bridges.take k ++ (S.bridges.drop k).take (j - k) := by
      rw [← take_add, Nat.add_sub_cancel' hkj]
    unfold bridgeChain at heq
    rw [hsplit, flatten_append, ← append_assoc, append_cancel_left_eq] at heq
    exact heq
  · unfold bridgeChain readChain at heq
    rw [append_assoc, append_assoc] at heq
    exact absurd heq (h.apart hmark _ _)

theorem data_suffix (h : S.Sent) (hmark : S.Unmarked) (hmem : S.readChain n ++ more ∈ S.inputs) :
    ∃ i payload, n ≤ i ∧ S.applications[i]? = some payload ∧ S.readChain n ++ more = S.readChain i ++ payload ∧
      more = digested S.mac (S.readChain n) ((S.applications.drop n).take (i - n)) ++ payload := by
  rcases mem_inputs hmem with ⟨j, -, heq⟩ | ⟨i, payload, hpayload, heq⟩
  · unfold bridgeChain readChain at heq
    rw [append_assoc] at heq
    exact absurd heq.symm (h.apart hmark _ _)
  · have hni : n ≤ i := by
      by_contra hlt
      have hless := length_input_lt (Nat.not_le.1 hlt) hpayload
      rw [← heq, length_append] at hless
      omega
    refine ⟨i, payload, hni, hpayload, heq, ?_⟩
    have hsplit : S.applications.take i = S.applications.take n ++ (S.applications.drop n).take (i - n) := by
      rw [← take_add, Nat.add_sub_cancel' hni]
    have hchain : S.readChain i = S.readChain n ++ digested S.mac (S.readChain n)
      ((S.applications.drop n).take (i - n)) := by
      conv_lhs => unfold readChain
      rw [hsplit, digested_append, ← append_assoc, chainAfter_true]
      rfl
    rw [hchain, append_assoc, append_cancel_left_eq] at heq
    exact heq

/-! ### Where the reader is -/

theorem length_frames (S : Session) : S.frames.length = S.bridges.length + S.applications.length := by
  unfold frames
  rw [length_append, length_framesOf, length_framesOf]

theorem first_apart (h : S.Sent) (hdistinct : S.Distinct) (payload : Bytes)
    (hfirst : S.applications.head? = some payload) :
    S.mac.tag (S.bridgeChain S.bridges.length ++ payload) ≠ S.mac.tag (S.readStart ++ payload) := by
  intro htag
  have htried : S.bridgeChain S.bridges.length ++ payload ∈ S.firstTry := by
    unfold firstTry bridgeChain
    rw [hfirst, take_length, chainAfter_false]
    exact mem_singleton.2 rfl
  have hsent : S.readStart ++ payload ∈ S.inputs := by
    have hzero : S.applications[0]? = some payload := by rw [← hfirst, head?_eq_getElem?]
    have hinput := mem_inputs_data hzero
    unfold readChain at hinput
    rwa [take_zero, digested, append_nil] at hinput
  have heq := hdistinct _ (mem_append_right _ htried) _ (mem_append_left _ hsent) htag
  have hlength := congrArg List.length heq
  have hhanded := h.handed
  simp only [bridgeChain, bridgeStart, readStart, length_append, length_singleton] at hlength
  omega

theorem handleAll_bridge_frames (h : S.Sent) (k : Nat) :
    handleAll S.mac S.initial (framesOf S.mac false S.bridgeStart (S.bridges.take k)) =
    ((S.bridges.take k).map fun _ => .bridge, ⟨S.bridgeChain k, S.readStart⟩) := by
  have hne : S.bridgeStart ≠ [] := by
    have hchain := bridgeChain_ne_nil h 0
    unfold bridgeChain at hchain
    rwa [take_zero, flatten_nil, append_nil] at hchain
  unfold initial
  rw [handleAll_bridges S.readStart (S.bridges.take k) S.bridgeStart hne, chainAfter_false]
  rfl

theorem handleAll_data_frames (h : S.Sent) (hdistinct : S.Distinct) (hn : 0 < n) (hne : S.applications ≠ []) :
    handleAll S.mac ⟨S.bridgeChain S.bridges.length, S.readStart⟩
    (framesOf S.mac true S.readStart (S.applications.take n)) =
      ((S.applications.take n).map .data, ⟨[], S.readChain n⟩) := by
  obtain ⟨payload, payloads, happlications⟩ := exists_cons_of_ne_nil hne
  obtain ⟨m, rfl⟩ : ∃ m, n = m + 1 := ⟨n - 1, by omega⟩
  have hapart := first_apart h hdistinct payload (by rw [happlications]; rfl)
  unfold readChain
  rw [happlications, take_succ_cons, framesOf, handleAll, handleFrame_first hapart]
  rw [handleAll_applications, ← chainAfter_true]
  rfl

theorem reader_bridge (h : S.Sent) (hk : k ≤ S.bridges.length) :
    S.reader k = ⟨S.bridgeChain k, S.readStart⟩ := by
  unfold reader frames
  rw [take_append_of_le_length (by rwa [length_framesOf]), framesOf_take, handleAll_bridge_frames h]

theorem reader_data (h : S.Sent) (hdistinct : S.Distinct) (hk : S.bridges.length < k)
    (hlength : k ≤ S.frames.length) :
    S.reader k = ⟨[], S.readChain (k - S.bridges.length)⟩ := by
  have hne : S.applications ≠ [] := by
    intro hnone
    rw [length_frames, hnone, length_nil] at hlength
    omega
  have hall := handleAll_bridge_frames h S.bridges.length
  rw [take_length] at hall
  unfold reader frames
  rw [take_append, take_of_length_le (by rw [length_framesOf]; omega), length_framesOf, framesOf_take,
    handleAll_append, hall,
    handleAll_data_frames h hdistinct (by omega) hne]

theorem reader_read (h : S.Sent) (hdistinct : S.Distinct) (hlength : k ≤ S.frames.length) :
    (S.reader k).read = S.readChain (k - S.bridges.length) := by
  by_cases hk : k ≤ S.bridges.length
  · rw [reader_bridge h hk, Nat.sub_eq_zero_of_le hk]
    exact (append_nil _).symm
  · rw [reader_data h hdistinct (Nat.not_le.1 hk) hlength]

theorem reader_bridge_of_ne (h : S.Sent) (hdistinct : S.Distinct) (hlength : k ≤ S.frames.length)
    (hne : (S.reader k).bridge ≠ []) :
    k ≤ S.bridges.length ∧ (S.reader k).bridge = S.bridgeChain k := by
  by_cases hk : k ≤ S.bridges.length
  · exact ⟨hk, by rw [reader_bridge h hk]⟩
  · exact absurd (by rw [reader_data h hdistinct (Nat.not_le.1 hk) hlength]) hne

variable {frame : Bytes}

/-- **A frame that is not forged is accepted** only under what the server has digested: on the chain of
the handshake, or on that of the data. -/
theorem accepted_cases (h : S.Sent) (hdistinct : S.Distinct) (hlength : k ≤ S.frames.length)
    (hunforged : S.Unforged k frame) :
    (k ≤ S.bridges.length ∧ WellFormed frame ∧ digestOf frame = S.mac.tag (S.bridgeChain k ++ payloadOf frame) ∧
      S.bridgeChain k ++ payloadOf frame ∈ S.inputs ∧ (handleFrame S.mac (S.reader k) frame).1 = .bridge) ∨
    (WellFormed frame ∧ digestOf frame = S.mac.tag (S.readChain (k - S.bridges.length) ++ payloadOf frame) ∧
      S.readChain (k - S.bridges.length) ++ payloadOf frame ∈ S.inputs ∧
      (handleFrame S.mac (S.reader k) frame).1 = .data (payloadOf frame)) ∨
    S.Fails k frame := by
  rcases handleFrame_cases S.mac (S.reader k) frame with ⟨hne, hform, hdigest, hverdict⟩ | ⟨hform,
    hdigest, hverdict⟩ | hfails
  · obtain ⟨hk, hbridge⟩ := reader_bridge_of_ne h hdistinct hlength hne
    have htried : (S.reader k).bridge ++ payloadOf frame ∈ S.tried k frame := by
      unfold tried
      rw [if_neg hne]
      exact mem_append_left _ mem_cons_self
    have hinput := hunforged _ htried hdigest.symm
    rw [hbridge] at hdigest hinput
    exact .inl ⟨hk, hform, hdigest, hinput, hverdict⟩
  · have htried : (S.reader k).read ++ payloadOf frame ∈ S.tried k frame := mem_append_right _ mem_cons_self
    have hinput := hunforged _ htried hdigest.symm
    rw [reader_read h hdistinct hlength] at hdigest hinput
    exact .inr (.inl ⟨hform, hdigest, hinput, hverdict⟩)
  · exact .inr (.inr hfails)

theorem frames_cases (h : S.frames[j]? = some frame) :
    (∃ payload, S.bridges[j]? = some payload ∧ frame = frameOf S.mac (S.bridgeChain j) payload) ∨
    (∃ payload, S.bridges.length ≤ j ∧ S.applications[j - S.bridges.length]? = some payload ∧
      frame = frameOf S.mac (S.readChain (j - S.bridges.length)) payload) := by
  unfold frames at h
  by_cases hj : j < S.bridges.length
  · rw [getElem?_append_left (by rwa [length_framesOf])] at h
    obtain ⟨payload, hpayload, rfl⟩ := getElem?_framesOf h
    rw [chainAfter_false]
    exact .inl ⟨payload, hpayload, rfl⟩
  · rw [getElem?_append_right (by rw [length_framesOf]; omega), length_framesOf] at h
    obtain ⟨payload, hpayload, rfl⟩ := getElem?_framesOf h
    rw [chainAfter_true]
    exact .inr ⟨payload, Nat.not_lt.1 hj, hpayload, rfl⟩

theorem Distinct.input_eq (h : S.Distinct) {x y : Bytes} (hx : x ∈ S.inputs) (hy : y ∈ S.inputs)
    (htag : S.mac.tag x = S.mac.tag y) : x = y :=
  h x (mem_append_left _ hx) y (mem_append_left _ hy) htag

theorem replayed (h : S.Sent) (hmark : S.Unmarked) (hdistinct : S.Distinct) (hlength : k ≤ S.frames.length)
    (hunforged : S.Unforged k frame) (hframe : S.frames[j]? = some frame) (hne : j ≠ k)
    (hfirst : ¬ (k ≤ S.bridges.length ∧ j = S.bridges.length)) : S.Fails k frame := by
  rcases accepted_cases h hdistinct hlength hunforged with ⟨hk, -, hdigest, hinput, -⟩ | ⟨-, hdigest,
    hinput, -⟩ | hfails
  · exfalso
    rcases frames_cases hframe with ⟨payload, hpayload, rfl⟩ | ⟨payload, hj, hpayload, rfl⟩
    · rw [digestOf_frameOf, payloadOf_frameOf] at hdigest
      rw [payloadOf_frameOf] at hinput
      have heq := hdistinct.input_eq (mem_inputs_bridge hpayload) hinput hdigest
      rw [append_cancel_right_eq] at heq
      exact hne (bridgeChain_inj h (Nat.le_of_lt (List.getElem?_eq_some_iff.1 hpayload).1) hk heq)
    · rw [digestOf_frameOf, payloadOf_frameOf] at hdigest
      rw [payloadOf_frameOf] at hinput
      have heq := hdistinct.input_eq (mem_inputs_data hpayload) hinput hdigest
      unfold bridgeChain readChain at heq
      rw [append_assoc, append_assoc] at heq
      exact h.apart hmark _ _ heq.symm
  · exfalso
    rcases frames_cases hframe with ⟨payload, hpayload, rfl⟩ | ⟨payload, hj, hpayload, rfl⟩
    · rw [digestOf_frameOf, payloadOf_frameOf] at hdigest
      rw [payloadOf_frameOf] at hinput
      have heq := hdistinct.input_eq (mem_inputs_bridge hpayload) hinput hdigest
      unfold bridgeChain readChain at heq
      rw [append_assoc, append_assoc] at heq
      exact h.apart hmark _ _ heq
    · rw [digestOf_frameOf, payloadOf_frameOf] at hdigest
      rw [payloadOf_frameOf] at hinput
      have heq := hdistinct.input_eq (mem_inputs_data hpayload) hinput hdigest
      rw [append_cancel_right_eq] at heq
      have hplace := readChain_inj hpayload heq
      by_cases hk : k ≤ S.bridges.length
      · exact hfirst ⟨hk, by omega⟩
      · omega
  · exact hfails

theorem framed_frames (h : S.Sent) (hframe : S.frames[k]? = some frame) : Framed frame := by
  rcases mem_append.1 (mem_of_getElem? hframe) with hmem | hmem
  · exact framed_framesOf _ (fun payload hpayload => (h.bridges payload hpayload).2) frame hmem
  · exact framed_framesOf _ (fun payload hpayload => (h.applications payload hpayload).2) frame hmem

theorem header_of_long (h : kTlsHeaderSize + kTlsHmacSize ≤ frame.length) :
    ∃ a0 a1 a2 a3 a4 rest, frame = a0 :: a1 :: a2 :: a3 :: a4 :: rest := by
  rcases frame with _ | ⟨a0, _ | ⟨a1, _ | ⟨a2, _ | ⟨a3, _ | ⟨a4, rest⟩⟩⟩⟩⟩
  case cons.cons.cons.cons.cons => exact ⟨a0, a1, a2, a3, a4, rest, rfl⟩
  all_goals simp [kTlsHeaderSize, kTlsHmacSize] at h

theorem frame_ext {other : Bytes} (hform : WellFormed frame) (hother : WellFormed other) (hframed : Framed frame)
    (hframed' : Framed other) (hdigest : digestOf frame = digestOf other)
    (hpayload : payloadOf frame = payloadOf other) : frame = other := by
  have hparts (f : Bytes) : f.drop kTlsHeaderSize = digestOf f ++ payloadOf f := by
    unfold digestOf payloadOf
    rw [← drop_drop, take_append_drop]
  obtain ⟨hlong, htype, hmajor, hminor⟩ := hform
  obtain ⟨hlong', htype', hmajor', hminor'⟩ := hother
  have hdrop : frame.drop kTlsHeaderSize = other.drop kTlsHeaderSize := by rw [hparts, hparts, hdigest, hpayload]
  obtain ⟨a0, a1, a2, a3, a4, rest, rfl⟩ := header_of_long hlong
  obtain ⟨b0, b1, b2, b3, b4, rest', rfl⟩ := header_of_long hlong'
  have hrest : rest = rest' := hdrop
  have hsizes : a3.toNat * 256 + a4.toNat = b3.toNat * 256 + b4.toNat := by
    have hfirst : getU16 (a3 :: a4 :: rest) = rest.length := Nat.add_right_cancel hframed
    have hsecond : getU16 (b3 :: b4 :: rest') = rest'.length := Nat.add_right_cancel hframed'
    rw [hrest, ← hsecond] at hfirst
    exact hfirst
  have ha := a4.toNat_lt
  have hb := b4.toNat_lt
  have h3 : a3 = b3 := UInt8.toNat_inj.1 (by omega)
  have h4 : a4 = b4 := UInt8.toNat_inj.1 (by omega)
  have h0 : a0 = b0 := htype.trans htype'.symm
  have h1 : a1 = b1 := hmajor.trans hmajor'.symm
  have h2 : a2 = b2 := hminor.trans hminor'.symm
  rw [h0, h1, h2, h3, h4, hrest]

theorem altered (h : S.Sent) (hmark : S.Unmarked) (hdistinct : S.Distinct) {sent : Bytes}
    (hunforged : S.Unforged k frame)
    (hsent : S.frames[k]? = some sent) (hframed : Framed frame) (hne : frame ≠ sent)
    (hsame : digestOf frame = digestOf sent ∨ S.bridges.length ≤ k ∧ payloadOf frame = payloadOf sent) :
    S.Fails k frame := by
  have hlength : k ≤ S.frames.length := Nat.le_of_lt (List.getElem?_eq_some_iff.1 hsent).1
  have hwhole : WellFormed frame → digestOf frame = digestOf sent → payloadOf frame = payloadOf sent →
    False := fun hform hdigest hpayload =>
    hne (frame_ext hform (by
      rcases frames_cases hsent with ⟨payload, -, rfl⟩ | ⟨payload, -, -, rfl⟩ <;> exact wellFormed_frameOf _ _)
      hframed (framed_frames h hsent) hdigest hpayload)
  rcases accepted_cases h hdistinct hlength hunforged with ⟨hk, hform, hdigest, hinput, -⟩ | ⟨hform,
    hdigest, hinput, -⟩ | hfails
  · exfalso
    rcases frames_cases hsent with ⟨payload, hpayload, rfl⟩ | ⟨payload, hj, hpayload, rfl⟩
    · rw [digestOf_frameOf, payloadOf_frameOf] at hwhole hsame
      have hlt := (List.getElem?_eq_some_iff.1 hpayload).1
      have hdigest' := hsame.resolve_right fun hboth => absurd hboth.1 (Nat.not_le.2 hlt)
      have heq := hdistinct.input_eq (mem_inputs_bridge hpayload) hinput (hdigest'.symm.trans hdigest)
      rw [append_cancel_left_eq] at heq
      exact hwhole hform hdigest' heq.symm
    · have hplace : k = S.bridges.length := Nat.le_antisymm hk hj
      rw [digestOf_frameOf, payloadOf_frameOf] at hsame
      rcases hsame with hdigest' | ⟨-, hpayload'⟩
      · have heq := hdistinct.input_eq (mem_inputs_data hpayload) hinput (hdigest'.symm.trans hdigest)
        unfold bridgeChain readChain at heq
        rw [append_assoc, append_assoc] at heq
        exact h.apart hmark _ _ heq.symm
      · obtain ⟨j, hkj, hjm, -, hmore⟩ := bridge_suffix h hmark hk hinput
        have hnil : payload = [] := by
          rw [← hpayload', hmore, hplace, drop_length, take_nil]
          rfl
        exact (h.applications payload (mem_of_getElem? hpayload)).1 hnil
  · exfalso
    rcases frames_cases hsent with ⟨payload, hpayload, rfl⟩ | ⟨payload, hj, hpayload, rfl⟩
    · rw [digestOf_frameOf, payloadOf_frameOf] at hsame
      have hlt := (List.getElem?_eq_some_iff.1 hpayload).1
      have hdigest' := hsame.resolve_right fun hboth => absurd hboth.1 (Nat.not_le.2 hlt)
      have heq := hdistinct.input_eq (mem_inputs_bridge hpayload) hinput (hdigest'.symm.trans hdigest)
      unfold bridgeChain readChain at heq
      rw [append_assoc, append_assoc] at heq
      exact h.apart hmark _ _ heq
    · rw [digestOf_frameOf, payloadOf_frameOf] at hwhole hsame
      rcases hsame with hdigest' | ⟨-, hpayload'⟩
      · have heq := hdistinct.input_eq (mem_inputs_data hpayload) hinput (hdigest'.symm.trans hdigest)
        rw [append_cancel_left_eq] at heq
        exact hwhole hform hdigest' heq.symm
      · rw [hpayload'] at hdigest
        exact hwhole hform hdigest hpayload'
  · exact hfails

/-- **The frames of every session are authenticated**, where the digests of what is digested are distinct.
-/
theorem frames_authenticated (S : Session) (h : S.Sent) (hdistinct : S.Distinct) : S.Authenticated where
  written := fun buffers => by
    refine ⟨_, _, writeAll_eq buffers S.writeStart, ?_, framed_framesOf _ fun piece hpiece => ?_⟩
    · rw [receiveAll_framesOf, flatten_writes]
    · obtain ⟨buffer, -, hpiece⟩ := mem_flatMap.1 hpiece
      have hfit := (pieces_fit _ _ piece hpiece).2
      rw [kMaxTlsPlaintext] at hfit
      rw [kTlsHmacSize]
      omega
  read := by
    have hbridges := handleAll_bridge_frames h S.bridges.length
    rw [take_length] at hbridges
    unfold frames
    rw [handleAll_append, hbridges]
    by_cases hnone : S.applications = []
    · rw [hnone]
      rfl
    · have hdata := handleAll_data_frames h hdistinct (length_pos_iff.2 hnone) hnone
      rw [take_length] at hdata
      rw [hdata]
  accepted := fun hmark k hlength frame hunforged => by
    rcases accepted_cases h hdistinct hlength hunforged with ⟨hk, -, -, hinput, hverdict⟩ | ⟨-, -,
      hinput, hverdict⟩ | hfails
    · obtain ⟨j, -, -, -, hmore⟩ := bridge_suffix h hmark hk hinput
      exact .inl ⟨(S.bridges.drop k).take (j - k), take_prefix _ _, hk, hmore, hverdict⟩
    · obtain ⟨i, payload, hni, hpayload, -, hmore⟩ := data_suffix h hmark hinput
      refine .inr (.inl ⟨(S.applications.drop (k - S.bridges.length)).take (i - (k - S.bridges.length)),
        payload, ?_, ?_⟩)
      · have hget : (S.applications.drop (k - S.bridges.length))[i - (k - S.bridges.length)]? =
          some payload := by
          rw [getElem?_drop, Nat.add_sub_cancel' hni, hpayload]
        have htake := take_prefix (i - (k - S.bridges.length) + 1) (S.applications.drop (k - S.bridges.length))
        rwa [take_add_one, hget, Option.toList_some] at htake
      · rw [reader_read h hdistinct hlength, hverdict, ← hmore]
    · exact .inr (.inr hfails)
  replayed := fun hmark _ hlength _ _ hunforged hframe hne hfirst =>
    replayed h hmark hdistinct hlength hunforged hframe hne hfirst
  altered := fun hmark _ _ _ hunforged hsent hframed hne hsame =>
    altered h hmark hdistinct hunforged hsent hframed hne hsame

instance (S : Session) : Decidable S.Distinct :=
  inferInstanceAs (Decidable (∀ x ∈ S.inputs ++ S.firstTry, ∀ y ∈ S.inputs ++ S.firstTry, S.mac.tag x =
    S.mac.tag y → x = y))

end Session

def exampleMac : HmacSha1 where
  digest input := UInt8.ofNat input.length :: input.foldl (· + ·) 0 :: List.replicate 18 0
  length_digest _ := rfl

def exampleSession : Session where
  mac := exampleMac
  serverRandom := List.replicate 32 7
  handed := [1, 1]
  bridges := [[2]]
  applications := [[3], [4, 5]]

theorem exampleSession_sent : exampleSession.Sent := ⟨by decide, by decide, by decide⟩

theorem frames_authenticated_once : exampleSession.Authenticated :=
  Session.frames_authenticated exampleSession exampleSession_sent (by decide +kernel)

/-- Two application frames joined are taken for one, with a digest in the midst of the data; the frame
that is left of the handshake is not missed; and a frame that fails in its place ends the chain of the
handshake. -/
theorem joined_frames_are_taken :
    let S := exampleSession
    let joined := frameOf S.mac S.readStart ([3] ++ S.mac.tag (S.readStart ++ [3]) ++ [4, 5])
    let broken := frameOf S.mac S.bridgeStart [2, 2]
    S.Sent ∧ S.Distinct ∧ joined ∉ S.frames ∧
      (handleAll S.mac S.initial [frameOf S.mac S.bridgeStart [2], joined]).1 =
        [.bridge, .data ([3] ++ S.mac.tag (S.readStart ++ [3]) ++ [4, 5])] ∧
      (handleAll S.mac S.initial (S.frames.drop 1)).1 = [.data [3], .data [4, 5]] ∧
      handleFrame S.mac S.initial (broken.set 5 0) = (.fault, ⟨[], S.readStart⟩) ∧ S.initial.bridge ≠ [] :=
  ⟨exampleSession_sent, by decide +kernel, by decide +kernel, by decide +kernel, by decide +kernel,
    by decide +kernel, by decide +kernel⟩

end ClashNative.ShadowTlsV3
