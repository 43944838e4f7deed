import ClashNative.PacketReads
import ClashNative.UdpOverTcpSends
/-!
# UdpOverTcpFrames — what UDP-over-TCP sends, and what is received of it

Datagrams that one handle sends, one behind the other, and another one receives, in chunks of any sizes.
Each receive has a buffer for any datagram and comes when the one before it was answered.  They come back
as they were (`Delivered`) exactly when none of them is empty: the exact read of an empty payload reads
nothing, and that is taken for the end of the stream.
-/
namespace ClashNative.PacketStream

open List hiding Vector

/-! ## From sends to receives -/

def sendAll (packets : List Packet) : List SendEvent := packets.flatMap fun p =>
    [.send p.payload p.address, .writeDone 0 true, .pumped]

def sentStream (o : Options) (packets : List Packet) : Bytes :=
  (Runs.run (UdpOverTcpState.step o) {} (sendAll packets)).written.flatMap PendingWrite.packet

def behindRequest (o : Options) (bytes : Bytes) : Bytes :=
  if o.version = .version2 then bytes.drop (o.request.getD []).length else bytes

/-- A receive has room for any datagram, and comes when the one before it was answered; nothing fails and
nothing is cancelled. -/
def Orderly (s : Receiver) : ReadEvent → Prop
  | .receive room => s.room = none ∧ 65535 ≤ room
  | .readFamily | .arrive _ _ => True
  | .lowerFails _ | .refused _ | .carrierEnds | .cancelReceive => False

instance (s : Receiver) (event : ReadEvent) : Decidable (Orderly s event) :=
  match event with
  | .receive _ => inferInstanceAs (Decidable (_ ∧ _))
  | .readFamily | .arrive _ _ => inferInstanceAs (Decidable True)
  | .lowerFails _ | .refused _ | .carrierEnds | .cancelReceive => inferInstanceAs (Decidable False)

/-- **The datagrams come back**: in order, and behind them the end of the stream; nothing is left when all
were returned; and whatever a lower read brings takes the parked receive forward. -/
structure Delivered (packets : List Packet) (s : Receiver) : Prop where
  in_order : s.results <+: packets.map (fun p => .packet p.address p.payload) ++
    List.replicate s.results.length (.error .eof)
  nothing_left : packets.length ≤ s.results.length → s.incoming = []
  moving : s.room ≠ none → 0 < s.posted ∨ s.chains ≠ [] ∧ ∀ n, (s.step udpOverTcp (.arrive 0 n)).room = none ∨
    (s.step udpOverTcp (.arrive 0 n)).incoming.length < s.incoming.length

/-- **The round trip** of these datagrams, over every run of the receiving side. -/
def RoundTrip (o : Options) (packets : List Packet) : Prop :=
  ∀ events, Runs.Along (Receiver.step udpOverTcp) Orderly
  { incoming := behindRequest o (sentStream o packets) } events →
    Delivered packets (Runs.run (Receiver.step udpOverTcp)
      { incoming := behindRequest o (sentStream o packets) } events)

/-! ## The sending side -/

variable {o : Options}

theorem sendAll_oneByOne (hrequest : o.version = .version2 → o.request.isSome) :
    ∀ (packets : List Packet) (s : UdpOverTcpState)
    (frames : List Bytes), UdpOverTcpState.OneByOne o s frames → s.handlers.parked = none →
    UdpOverTcpState.OneByOne o (Runs.run (UdpOverTcpState.step o) s (sendAll packets))
    (frames ++ packets.map (Packet.wire udpOverTcp)) ∧
      (Runs.run (UdpOverTcpState.step o) s (sendAll packets)).inFlight = []
  | [], s, frames, h, hparked => ⟨by rw [map_nil, append_nil]; exact h, h.idle hparked⟩
  | p :: packets, s, frames, h, hparked => by
    obtain ⟨address, hencode, hframe⟩ := frame_eq udpOverTcp "UDP-over-TCP domain length is invalid" p
    have hsend := h.send hrequest hparked p.payload_le hencode
    obtain ⟨w, -, -, -, -, hflight, -⟩ := h.send_free hrequest hparked p.payload_le hencode
    have hdone := (hsend.writeDone 0).pumped
    have hidle : ((s.send o p.payload p.address).step o (.writeDone 0 true)).handlers.parked = none := by
      unfold UdpOverTcpState.step
      rw [hflight]
      exact Handlers.finish_parked _ _
    have hidle' : (((s.send o p.payload p.address).step o (.writeDone 0 true)).step
      o .pumped).handlers.parked = none := by
      rw [(hsend.writeDone 0).pumped_handlers]
      exact hidle
    rw [hframe] at hdone
    have hrest := sendAll_oneByOne hrequest packets _ _ hdone hidle'
    rw [append_assoc] at hrest
    exact hrest

theorem behindRequest_sentStream (hrequest : o.version = .version2 → o.request.isSome) (packets : List Packet) :
    behindRequest o (sentStream o packets) = wires udpOverTcp packets := by
  obtain ⟨hsent, hidle⟩ := sendAll_oneByOne hrequest packets {} [] (UdpOverTcpState.OneByOne.start o) rfl
  have hstream := hsent.stream
  rw [hidle, append_nil, nil_append] at hstream
  unfold behindRequest sentStream
  rw [hstream]
  unfold UdpOverTcpState.stream wires
  by_cases hversion : o.version = .version2
  · rw [if_pos hversion]
    by_cases hnil : packets.map (Packet.wire udpOverTcp) = []
    · rw [hnil, if_neg (fun h => h.2 rfl)]
      exact drop_nil
    · rw [if_pos ⟨hversion, hnil⟩]
      exact drop_left
  · rw [if_neg hversion, if_neg (fun h => hversion h.1)]
    rfl

/-! ## The receiving side -/

/-- What a receive of a packet is answered with: reading an empty payload reads nothing. -/
def returned (p : Packet) : Received := if p.payload = [] then .error .eof else .packet p.address p.payload

/-- **Where an orderly receive is**, with what is left of the packets. -/
inductive Reading (s : Receiver) : List Packet → Prop
  | idle (left : List Packet) (hroom : s.room = none) (hposted : s.posted = 0) (hchains : s.chains = [])
    (hincoming : s.incoming = wires udpOverTcp left) : Reading s left
  | posted (left : List Packet) (room : Nat) (hroom : s.room = some room) (hlarge : 65535 ≤ room)
    (hposted : s.posted = 1) (hchains : s.chains = [])
    (hincoming : s.incoming = wires udpOverTcp left) : Reading s left
  | atEnd (room : Nat) (hroom : s.room = some room) (hlarge : 65535 ≤ room) (hposted : s.posted = 0)
    (hchains : s.chains = [{}])
    (hincoming : s.incoming = []) : Reading s []
  | inside (c : Chain) (p : Packet) (left : List Packet) (field tail : Bytes) (room : Nat)
    (hroom : s.room = some room) (hlarge : 65535 ≤ room)
    (hposted : s.posted = 0) (hchains : s.chains = [c])
    (hinside : Inside udpOverTcp c [] p left s field tail) : Reading s (p :: left)

/-- **The invariant**: the first `k` packets were answered, and after the last one the end of the stream.
-/
structure Ordered (packets : List Packet) (s : Receiver) : Prop where
  reading : ∃ k ends, s.results = (packets.take k).map returned ++ List.replicate ends (.error .eof) ∧
    k ≤ packets.length ∧
    (0 < ends → k = packets.length) ∧ Reading s (packets.drop k)

theorem takes_udpOverTcp (room : Nat) (stage : Stage) (bytes : Bytes) : udpOverTcp.Takes room stage bytes := by
  cases stage with
  | payloadLength source => exact ⟨rfl, nofun⟩
  | payload source size => exact nofun
  | _ => trivial

variable {room : Nat} {c : Chain} {s : Receiver}

theorem arrive_inside {p : Packet} {left : List Packet} {field tail : Bytes} (hroom : s.room = some room)
    (hlarge : 65535 ≤ room) (hposted : s.posted = 0) (hchains : s.chains = [c])
    (h : Inside udpOverTcp c [] p left s field tail) (n : Nat) :
    ((s.arrive udpOverTcp 0 n c).results = s.results ∧ (s.arrive udpOverTcp 0 n c).room = s.room ∧
      (s.arrive udpOverTcp 0 n c).posted = 0 ∧
      Reading (s.arrive udpOverTcp 0 n c) (p :: left) ∧
      (s.arrive udpOverTcp 0 n c).incoming.length < s.incoming.length) ∨
    ((s.arrive udpOverTcp 0 n c).results = s.results ++ [returned p] ∧ (s.arrive udpOverTcp 0 n c).room = none ∧
      (s.arrive udpOverTcp 0 n c).posted = 0 ∧ (s.arrive udpOverTcp 0 n c).chains = [] ∧
      (s.arrive udpOverTcp 0 n c).incoming = wires udpOverTcp left) := by
  obtain ⟨missing, hfield, hrest⟩ := h.split n
  have hchunk := h.chunk_eq n
  have hlength := congrArg List.length hfield
  rw [length_append, length_append, h.at_field.length_eq] at hlength
  unfold Receiver.arrive
  dsimp only
  generalize (if c.stage = Stage.family ∧ s.room.isSome ∧
    s.chunk udpOverTcp c n ≠ [] then s.incoming :: s.begun else s.begun) = begun'
  by_cases hnothing : s.chunk udpOverTcp c n = []
  · -- the buffer of the field is empty: so is the payload
    have hempty : field = [] := by
      by_contra hne
      have hlt := h.held_lt hne
      rw [hnothing] at hchunk
      rcases take_eq_nil_iff.1 hchunk.symm with hzero | hnil
      · rw [length_drop] at hzero
        omega
      · have := drop_eq_nil_iff.1 hnil
        omega
    have hmissing : missing = [] := by
      rw [hempty, hnothing, append_nil] at hfield
      exact (append_eq_nil_iff.1 hfield.symm).2
    refine .inr ?_
    rw [hrest, hmissing, h.at_field.tail_nil hempty, hnothing]
    unfold Receiver.pull returned
    rw [hroom, if_pos (h.at_field.payload_nil hempty)]
    refine ⟨rfl, rfl, hposted, ?_, rfl⟩
    rw [hchains]
    rfl
  · have hshorter : (missing ++ tail ++ wires udpOverTcp left).length < s.incoming.length := by
      rw [← hrest, length_drop]
      have hpos := length_pos_iff.2 hnothing
      have hle : (s.chunk udpOverTcp c n).length ≤ s.incoming.length := length_take_le' _ _
      omega
    rw [hrest, pull_bytes udpOverTcp (s := { s with
      incoming := missing ++ tail ++ wires udpOverTcp left
      begun := begun' }) 0 c hroom hnothing]
    by_cases hfull : (c.held ++ s.chunk udpOverTcp c n).length = c.stage.size udpOverTcp
    · rw [if_pos hfull]
      rw [length_append] at hfull
      have hmissing : missing = [] := length_eq_zero_iff.1 (by omega)
      rw [hmissing, append_nil] at hfield
      rw [hmissing, nil_append] at hshorter ⊢
      rw [← hfield]
      rcases h.at_field.next (takes_udpOverTcp room _ _) with ⟨stage', field', tail', hnext,
        hat, htail⟩ | ⟨htail, hpayload, hnext⟩
      · rw [hnext]
        refine .inl ⟨rfl, rfl, hposted, ?_, hshorter⟩
        refine .inside ⟨stage', []⟩ p left field' tail' room hroom hlarge hposted
          (by dsimp only; rw [hchains]; rfl) ?_
        refine ⟨by dsimp only; rw [hchains]; exact List.Perm.refl _, fun c' hc' => absurd hc' not_mem_nil,
          hat, nil_prefix,
          fun hne => length_pos_iff.2 hne, ?_⟩
        rw [htail]
        rfl
      · rw [hnext]
        have hanswer : p.answer room = returned p := by
          have hpayload : field = p.payload := hpayload.resolve_left nofun
          unfold Packet.answer returned
          rw [if_neg (Nat.not_lt.2 (Nat.le_trans p.payload_le hlarge)), if_neg]
          rw [← hpayload, hfield]
          exact append_ne_nil_of_right_ne_nil _ hnothing
        refine .inr ⟨by rw [← hanswer]; rfl, rfl, hposted, ?_, by rw [htail]; rfl⟩
        rw [hchains]
        rfl
    · rw [if_neg hfull]
      rw [length_append] at hfull
      refine .inl ⟨rfl, rfl, hposted, ?_, hshorter⟩
      refine .inside ⟨c.stage, c.held ++ s.chunk udpOverTcp c n⟩ p left field tail room hroom hlarge hposted
        (by dsimp only; rw [hchains]; rfl) ?_
      refine ⟨by dsimp only; rw [hchains]; exact List.Perm.refl _, fun c' hc' => absurd hc' not_mem_nil,
        h.at_field, ⟨missing, hfield.symm⟩,
        fun _ => ?_, ?_⟩
      · rw [h.at_field.length_eq, length_append]
        omega
      · have hdrop : field.drop (c.held ++ s.chunk udpOverTcp c n).length = missing := by
          rw [hfield]
          exact drop_left
        rw [hdrop]

theorem at_singleton {c' : Chain} {i : Nat} (h : [c][i]? = some c') : i = 0 ∧ c' = c := by
  cases i with
  | zero => exact ⟨rfl, (Option.some.inj h).symm⟩
  | succ i => cases h

theorem arrive_atEnd (hroom : s.room = some room) (hposted : s.posted = 0) (hchains : s.chains = [{}])
    (hincoming : s.incoming = []) (n : Nat) :
    (s.arrive udpOverTcp 0 n {}).results = s.results ++ [.error .eof] ∧ Reading (s.arrive udpOverTcp 0 n {}) [] ∧
      (s.arrive udpOverTcp 0 n {}).room = none := by
  have hnothing : s.chunk udpOverTcp {} n = [] := by
    unfold Receiver.chunk
    rw [hincoming, take_nil]
  unfold Receiver.arrive Receiver.pull
  rw [hroom, hnothing]
  refine ⟨rfl, .idle [] rfl hposted ?_ ?_, rfl⟩
  · rw [hchains]
    rfl
  · rw [hincoming]
    rfl

namespace Ordered

variable {packets : List Packet} {s : Receiver}

theorem receive_eq (hnone : s.room = none) {room : Nat} (hpos : 0 < room) :
    s.step udpOverTcp (.receive room) = { s with
    room := some room
    posted := s.posted + 1 } := by
  unfold Receiver.step Receiver.receive
  dsimp only
  rw [hnone, if_neg (by exact Bool.noConfusion), if_neg (by omega)]

theorem step (h : Ordered packets s) (event : ReadEvent) (horderly : Orderly s event) :
    Ordered packets (s.step udpOverTcp event) := by
  obtain ⟨k, ends, hresults, hk, hends, hreading⟩ := h.reading
  generalize hleft : packets.drop k = left at hreading
  cases event with
  | receive room =>
    obtain ⟨hroom, hlarge⟩ := horderly
    rw [receive_eq hroom (by omega)]
    refine ⟨k, ends, hresults, hk, hends, ?_⟩
    rw [hleft]
    cases hreading with
    | idle _ _ hposted hchains hincoming =>
      exact .posted _ room rfl hlarge (by dsimp only; rw [hposted]) hchains hincoming
    | posted _ _ hroom' => exact absurd (hroom.symm.trans hroom') (Option.some_ne_none _).symm
    | atEnd _ hroom' => exact absurd (hroom.symm.trans hroom') (Option.some_ne_none _).symm
    | inside _ _ _ _ _ _ hroom' => exact absurd (hroom.symm.trans hroom') (Option.some_ne_none _).symm
  | readFamily =>
    unfold Receiver.step Receiver.readFamily
    cases hreading with
    | posted _ room hroom hlarge hposted hchains hincoming =>
      rw [if_neg (by omega)]
      refine ⟨k, ends, hresults, hk, hends, ?_⟩
      rw [hleft]
      have hposted' : s.posted - 1 = 0 := by omega
      cases left with
      | nil => exact .atEnd room hroom hlarge hposted' (by dsimp only; rw [hchains]; rfl) hincoming
      | cons p left =>
        refine .inside {} p left [p.family udpOverTcp] _ room hroom hlarge hposted'
          (by dsimp only; rw [hchains]; rfl)
          ⟨?_, fun c' hc' => absurd hc' not_mem_nil, .family, nil_prefix, fun _ => Nat.one_pos, hincoming⟩
        rw [hchains]
        exact List.Perm.refl _
    | idle _ _ hposted =>
      rw [if_pos hposted]
      exact h
    | atEnd _ _ _ hposted =>
      rw [if_pos hposted]
      exact h
    | inside _ _ _ _ _ _ _ _ hposted =>
      rw [if_pos hposted]
      exact h
  | arrive i n =>
    unfold Receiver.step
    dsimp only
    cases hc : s.chains[i]? with
    | none => exact h
    | some c =>
      cases hreading with
      | idle _ _ _ hchains =>
        rw [hchains] at hc
        cases hc
      | posted _ _ _ _ _ hchains =>
        rw [hchains] at hc
        cases hc
      | atEnd room hroom hlarge hposted hchains hincoming =>
        rw [hchains] at hc
        obtain ⟨rfl, rfl⟩ := at_singleton hc
        obtain ⟨hresults', hreading', -⟩ := arrive_atEnd hroom hposted hchains hincoming n
        have hall : k = packets.length := Nat.le_antisymm hk (drop_eq_nil_iff.1 hleft)
        refine ⟨k, ends + 1, ?_, hk, fun _ => hall, by rw [hleft]; exact hreading'⟩
        rw [hresults', hresults, append_assoc, replicate_succ']
      | inside c' p left field tail room hroom hlarge hposted hchains hinside =>
        rw [hchains] at hc
        obtain ⟨rfl, rfl⟩ := at_singleton hc
        rcases arrive_inside hroom hlarge hposted hchains hinside n with ⟨hresults', -, -, hreading', -⟩ |
          ⟨hresults', hroom', hposted', hchains', hincoming'⟩
        · exact ⟨k, ends, by rw [hresults', hresults], hk, hends, by rw [hleft]; exact hreading'⟩
        · obtain ⟨hdrop, htake⟩ := drop_succ_of_cons hleft
          have hlt : k < packets.length := by
            by_contra hle
            rw [drop_of_length_le (Nat.not_lt.1 hle)] at hleft
            cases hleft
          have hends : ends = 0 := by
            by_contra hne
            exact absurd (hends (Nat.pos_of_ne_zero hne)) (Nat.ne_of_lt hlt)
          refine ⟨k + 1, 0, ?_, hlt, fun hpos => absurd hpos (Nat.lt_irrefl 0), ?_⟩
          · rw [hresults', hresults, hends, htake, map_append]
            simp
          · rw [hdrop]
            exact .idle _ hroom' hposted' hchains' hincoming'
  | lowerFails | refused | carrierEnds | cancelReceive => exact horderly.elim

theorem start (packets : List Packet) : Ordered packets { incoming := wires udpOverTcp packets } :=
  ⟨0, 0, rfl, Nat.zero_le _, fun h => absurd h (Nat.lt_irrefl 0), .idle _ rfl rfl rfl rfl⟩

theorem arrive_eq {c : Chain} (hchains : s.chains = [c]) (n : Nat) :
    s.step udpOverTcp (.arrive 0 n) = s.arrive udpOverTcp 0 n c := by
  unfold Receiver.step
  rw [hchains]
  rfl

theorem moving (h : Ordered packets s) (hroom : s.room ≠ none) : 0 < s.posted ∨ s.chains ≠ [] ∧ ∀ n,
    (s.step udpOverTcp (.arrive 0 n)).room = none ∨
    (s.step udpOverTcp (.arrive 0 n)).incoming.length < s.incoming.length := by
  obtain ⟨k, ends, -, -, -, hreading⟩ := h.reading
  generalize packets.drop k = left at hreading
  cases hreading with
  | idle _ hnone => exact absurd hnone hroom
  | posted _ _ _ _ hposted => exact .inl (by omega)
  | atEnd _ hroom _ hposted hchains hincoming =>
    refine .inr ⟨by rw [hchains]; exact cons_ne_nil _ _, fun n => .inl ?_⟩
    rw [arrive_eq hchains]
    exact (arrive_atEnd hroom hposted hchains hincoming n).2.2
  | inside _ _ _ _ _ _ hroom hlarge hposted hchains hinside =>
    refine .inr ⟨by rw [hchains]; exact cons_ne_nil _ _, fun n => ?_⟩
    rw [arrive_eq hchains]
    rcases arrive_inside hroom hlarge hposted hchains hinside n with ⟨-, -, -, -, hshorter⟩ | ⟨-, hroom', -⟩
    · exact .inr hshorter
    · exact .inl hroom'

theorem delivered (h : Ordered packets s) (hall : ∀ p ∈ packets, p.payload ≠ []) : Delivered packets s := by
  obtain ⟨k, ends, hresults, hk, hends, hreading⟩ := h.reading
  have hreturned : (packets.take k).map returned =
    (packets.map fun p => Received.packet p.address p.payload).take k := by
    rw [← map_take]
    refine map_congr_left fun p hp => ?_
    exact if_neg (hall p (mem_of_mem_take hp))
  have hlength : s.results.length = k + ends := by
    rw [hresults, length_append, length_map, length_take, length_replicate, Nat.min_eq_left hk]
  refine ⟨?_, fun hle => ?_, h.moving⟩
  · rw [hlength, hresults, hreturned]
    cases ends with
    | zero =>
      rw [replicate_zero, append_nil]
      exact (List.take_prefix k _).trans (prefix_append _ _)
    | succ ends =>
      have hk := hends (Nat.succ_pos ends)
      have hmore : List.replicate (k + (ends + 1)) (Received.error .eof) =
          List.replicate (ends + 1) (.error .eof) ++ List.replicate k (.error .eof) := by
        rw [replicate_append_replicate, Nat.add_comm k]
      rw [take_of_length_le (by rw [length_map, hk]), hmore, ← append_assoc]
      exact prefix_append _ _
  · have hk : k = packets.length := by
      by_contra hne
      omega
    rw [hk, drop_length] at hreading
    cases hreading with
    | idle _ _ _ _ hincoming => exact hincoming
    | posted _ _ _ _ _ _ hincoming => exact hincoming
    | atEnd _ _ _ _ _ hincoming => exact hincoming

theorem answered : ∀ (bound : Nat) (s : Receiver), Ordered packets s → s.incoming.length < bound →
    s.room ≠ none → s.posted = 0 →
    ∃ events, Runs.Along (Receiver.step udpOverTcp) Orderly s events ∧
    (Runs.run (Receiver.step udpOverTcp) s events).room = none ∧
      (Runs.run (Receiver.step udpOverTcp) s events).results.length = s.results.length + 1
  | 0, _, _, hbound, _, _ => absurd hbound (Nat.not_lt_zero _)
  | bound + 1, s, h, hbound, hroom, hposted => by
    obtain ⟨k, ends, -, -, -, hreading⟩ := h.reading
    generalize packets.drop k = left at hreading
    cases hreading with
    | idle _ hnone => exact absurd hnone hroom
    | posted _ _ _ _ hposted' => omega
    | atEnd _ hroom _ hposted hchains hincoming =>
      obtain ⟨hresults, -, hnone⟩ := arrive_atEnd hroom hposted hchains hincoming 0
      refine ⟨[.arrive 0 0], ⟨trivial, trivial⟩, ?_, ?_⟩
      · rw [Runs.run_cons, Runs.run_nil, arrive_eq hchains]
        exact hnone
      · rw [Runs.run_cons, Runs.run_nil, arrive_eq hchains, hresults, length_append]
        rfl
    | inside _ _ _ _ _ _ hroom' hlarge hposted hchains hinside =>
      have hstep := h.step (.arrive 0 0) trivial
      rw [arrive_eq hchains] at hstep
      rcases arrive_inside hroom' hlarge hposted hchains hinside 0 with ⟨hresults, hsame, hposted',
        -, hshorter⟩ | ⟨hresults, hnone, -⟩
      · obtain ⟨events, horderly, hnone, hlength⟩ :=
          answered bound _ hstep (by omega) (by rw [hsame]; exact hroom) hposted'
        refine ⟨.arrive 0 0 :: events, ⟨trivial, ?_⟩, ?_, ?_⟩
        · rw [arrive_eq hchains]
          exact horderly
        · rw [Runs.run_cons, arrive_eq hchains]
          exact hnone
        · rw [Runs.run_cons, arrive_eq hchains, hlength, hresults]
      · refine ⟨[.arrive 0 0], ⟨trivial, trivial⟩, ?_, ?_⟩
        · rw [Runs.run_cons, Runs.run_nil, arrive_eq hchains]
          exact hnone
        · rw [Runs.run_cons, Runs.run_nil, arrive_eq hchains, hresults, length_append]
          rfl

theorem answers (packets : List Packet) : ∀ n : Nat, ∃ events,
    Runs.Along (Receiver.step udpOverTcp) Orderly { incoming := wires udpOverTcp packets } events ∧
    (Runs.run (Receiver.step udpOverTcp) { incoming := wires udpOverTcp packets } events).room = none ∧
    (Runs.run (Receiver.step udpOverTcp) { incoming := wires udpOverTcp packets } events).results.length = n
  | 0 => ⟨[], trivial, rfl, rfl⟩
  | n + 1 => by
    obtain ⟨events, horderly, hnone, hlength⟩ := answers packets n
    have hordered := Runs.along_induction (P := Ordered packets)
      (fun s event h ho => h.step event ho) events _ (start packets) horderly
    generalize hs : Runs.run (Receiver.step udpOverTcp) { incoming := wires udpOverTcp packets } events =
      s at hordered hnone hlength
    have hreceive : Orderly s (.receive 65535) := ⟨hnone, Nat.le_refl _⟩
    have hparked := (hordered.step (.receive 65535) hreceive).step .readFamily trivial
    have heq : (s.step udpOverTcp (.receive 65535)).step udpOverTcp .readFamily = { s with
        room := some 65535
        chains := s.chains ++ [{}] } := by
      rw [receive_eq hnone (by decide)]
      unfold Receiver.step Receiver.readFamily
      rw [if_neg (Nat.succ_ne_zero _), Nat.add_sub_cancel]
    have hposted : s.posted = 0 := by
      obtain ⟨k, ends, -, -, -, hreading⟩ := hordered.reading
      generalize packets.drop k = left at hreading
      cases hreading with
      | idle _ _ hposted => exact hposted
      | posted _ _ hroom => exact absurd (hnone.symm.trans hroom) (Option.some_ne_none _).symm
      | atEnd _ hroom => exact absurd (hnone.symm.trans hroom) (Option.some_ne_none _).symm
      | inside _ _ _ _ _ _ hroom => exact absurd (hnone.symm.trans hroom) (Option.some_ne_none _).symm
    rw [heq] at hparked
    obtain ⟨more, hmore, hnone', hlength'⟩ :=
      answered _ _ hparked (Nat.lt_succ_self _) (Option.some_ne_none _) hposted
    refine ⟨events ++ .receive 65535 :: .readFamily :: more, ?_, ?_, ?_⟩
    · rw [Runs.along_append, hs]
      refine ⟨horderly, hreceive, trivial, ?_⟩
      rw [heq]
      exact hmore
    · rw [Runs.run_append, hs, Runs.run_cons, Runs.run_cons, heq]
      exact hnone'
    · rw [Runs.run_append, hs, Runs.run_cons, Runs.run_cons, heq, hlength', hlength]

end Ordered

theorem comes_back_iff (packets : List Packet) :
    (∀ events, Runs.Along (Receiver.step udpOverTcp) Orderly { incoming := wires udpOverTcp packets } events →
      Delivered packets (Runs.run (Receiver.step udpOverTcp)
        { incoming := wires udpOverTcp packets } events)) ↔ ∀ p ∈ packets, p.payload ≠ [] := by
  constructor
  · intro h p hp hempty
    obtain ⟨events, horderly, -, hlength⟩ := Ordered.answers packets packets.length
    have hdelivered := h events horderly
    have hordered := Runs.along_induction (P := Ordered packets)
      (fun s event h ho => h.step event ho) events _ (Ordered.start packets) horderly
    obtain ⟨k, ends, hresults, hk, hends, -⟩ := hordered.reading
    have hall : k = packets.length := by
      by_contra hne
      have hends : ends = 0 := by
        by_contra hpos
        exact hne (hends (Nat.pos_of_ne_zero hpos))
      rw [hresults, hends, length_append, length_map, length_take, length_replicate] at hlength
      omega
    rw [hresults, length_append, length_map, length_take, length_replicate] at hlength
    have hnone : ends = 0 := by omega
    rw [hnone, replicate_zero, append_nil, hall, take_length] at hresults
    have hsame := hdelivered.in_order
    rw [hresults] at hsame
    have heq := List.IsPrefix.eq_of_length
      (prefix_of_prefix_length_le hsame (prefix_append _ _) (by simp)) (by simp)
    have hreturned := map_inj_left.1 heq p hp
    unfold returned at hreturned
    rw [if_pos hempty] at hreturned
    cases hreturned
  · intro hall events horderly
    exact (Runs.along_induction (P := Ordered packets) (fun s event h ho => h.step event ho) events _
      (Ordered.start packets) horderly).delivered hall

/-! ## The round trip -/

/-- The reading of an empty datagram is reported as the end of the stream. -/
theorem empty_datagram_ends : ¬ RoundTrip (⟨.legacy, none⟩ : Options) [examplePacket 53 [] (by decide)] := by
  intro h
  have hdelivered := h [.receive 65535, .readFamily, .arrive 0 0, .arrive 0 3, .arrive 0 1, .arrive 0 1,
    .arrive 0 0] (by decide +kernel)
  exact absurd hdelivered.in_order (by decide +kernel)

/-- **Datagrams come back** from what either version sends of them, for every chunking, exactly when none
of them is empty. -/
theorem round_trip_iff (o : Options) (hrequest : o.version = .version2 → o.request.isSome)
    (packets : List Packet) :
    RoundTrip o packets ↔ ∀ p ∈ packets, p.payload ≠ [] := by
  unfold RoundTrip
  rw [behindRequest_sentStream hrequest packets]
  exact comes_back_iff packets

/-- Two datagrams behind a request. -/
theorem round_trip_iff_twice : RoundTrip ⟨.version2, some ⟨.v4 (Vector.replicate 4 9), 53⟩⟩
    [examplePacket 53 [1, 2] (by decide), examplePacket 53 [3] (by decide)] := by
  refine (round_trip_iff _ (fun _ => rfl) _).2 fun p hp => ?_
  rcases mem_cons.1 hp with rfl | hp
  · exact cons_ne_nil _ _
  · rw [mem_singleton.1 hp]
    exact cons_ne_nil _ _

end ClashNative.PacketStream
