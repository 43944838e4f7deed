import ClashNative.TrojanPacketSends
/-!
# UdpBursts — a burst of datagrams on a stream-carried path

One path of `proxy_session_socks.cpp` from the first datagram on: `process_socks_udp_packet`,
`run_udp_route` and `run_udp_send`, over a packet handle.  The relay starts a send for each datagram; the
handle takes one at a time.  Lower writes succeed here, and a path that was retired is not followed
further.
-/
namespace ClashNative.PacketStream

open List

/-! ## A path over a handle -/

structure Target where
  address : DatagramAddress
  numeric : ∀ name, address.host ≠ .domain name

structure BurstPayload where
  bytes : Bytes
  bytes_le : bytes.length ≤ 65535

/-- A packet handle with its target, as a path uses it: the send half, what of the stream is written and
what is still to be, whether a lower write is outstanding, and the stream that payloads make. -/
structure PacketPath (σ : Type) where
  target : Target
  start : σ
  step : σ → SendEvent → σ
  handlers : σ → Handlers
  written : σ → Bytes
  unwritten : σ → Bytes
  outstanding : σ → Bool
  stream : List BurstPayload → Bytes

/-- A path.  `waiting` is its entry of `pending_udp_packets_`, `starting` what the loop of `run_udp_route`
has still to start, `returned` the number of `run_udp_send` that have resumed; `arrived` are the datagrams
that came, `started` those whose send was started. -/
structure Burst (σ : Type) where
  handle : σ
  waiting : List BurstPayload := []
  routed : Bool := false
  starting : List BurstPayload := []
  returned : Nat := 0
  retired : Bool := false
  arrived : List BurstPayload := []
  started : List BurstPayload := []

inductive BurstEvent
  | datagram (payload : BurstPayload)
  /-- `open_datagram` has ended: the path is made. -/
  | routed
  /-- The loop of `run_udp_route` starts its next send; nothing but completions comes between. -/
  | startSend
  /-- A lower write succeeds. -/
  | writeDone (i : Nat)
  | pumped
  /-- A `run_udp_send` resumes with the result of its send. -/
  | sendReturned

namespace Burst

variable {σ : Type}

def start (path : PacketPath σ) : Burst σ := { handle := path.start }

def runUdpSend (path : PacketPath σ) (s : Burst σ) (payload : BurstPayload) : Burst σ :=
  { s with
    handle := path.step s.handle (.send payload.bytes path.target.address)
    started := s.started ++ [payload] }

def step (path : PacketPath σ) (s : Burst σ) (event : BurstEvent) : Burst σ :=
  if s.retired then s
  else
    match event with
    | .datagram payload =>
      if s.starting ≠ [] then s
      else if s.routed then { s with arrived := s.arrived ++ [payload] }.runUdpSend path payload
      else
        { s with
          arrived := s.arrived ++ [payload]
          waiting := s.waiting ++ [payload] }
    | .routed =>
      if s.routed then s
      else
        { s with
          routed := true
          waiting := []
          starting := s.waiting }
    | .startSend =>
      match s.starting with
      | [] => s
      | payload :: rest => { s with starting := rest }.runUdpSend path payload
    | .writeDone i => { s with handle := path.step s.handle (.writeDone i true) }
    | .pumped => { s with handle := path.step s.handle .pumped }
    | .sendReturned =>
      match (path.handlers s.handle).called[s.returned]? with
      | none => s
      | some (_, .ok _) => { s with returned := s.returned + 1 }
      | some (_, .error _) =>
        -- the path is erased and its handle closed
        { s with
          returned := s.returned + 1
          retired := true }

/-- **The burst goes through**: what was written, and what a lower write that is outstanding leads to, is
each datagram once, in the order of arrival, and the path is not retired. -/
structure Intact (path : PacketPath σ) (s : Burst σ) : Prop where
  kept : s.retired = false
  arrived : s.arrived = s.started ++ s.starting ++ s.waiting
  stream : path.written s.handle ++ path.unwritten s.handle = path.stream s.started
  moving : path.outstanding s.handle = false → path.unwritten s.handle = []

/-- **The condition on a step**: a send starts only while none is in progress. -/
def Free (path : PacketPath σ) (s : Burst σ) : BurstEvent → Prop
  | .datagram _ => s.routed = true → s.starting = [] → (path.handlers s.handle).parked = none
  | .startSend => s.starting ≠ [] → (path.handlers s.handle).parked = none
  | .routed | .writeDone _ | .pumped | .sendReturned => True

end Burst

/-! ## What a path needs of its handle -/

/-- **One send at a time**: a handle that is free takes a datagram behind what it has, and a handle that
is not refuses it. -/
structure PacketPath.OneAtATime {σ : Type} (path : PacketPath σ)
    (Inv : σ → List BurstPayload → Prop) : Prop where
  start : Inv path.start []
  free : ∀ s sent (payload : BurstPayload), Inv s sent → (path.handlers s).parked = none →
    Inv (path.step s (.send payload.bytes path.target.address)) (sent ++ [payload])
  busy : ∀ s (payload : BurstPayload), (path.handlers s).parked ≠ none →
    path.written (path.step s (.send payload.bytes path.target.address)) = path.written s ∧
    path.unwritten (path.step s (.send payload.bytes path.target.address)) = path.unwritten s
  writeDone : ∀ s sent i, Inv s sent → Inv (path.step s (.writeDone i true)) sent
  pumped : ∀ s sent, Inv s sent → Inv (path.step s .pumped) sent
  stream : ∀ s sent, Inv s sent → path.written s ++ path.unwritten s = path.stream sent
  moving : ∀ s sent, Inv s sent → path.outstanding s = false → path.unwritten s = []
  succeeds : ∀ s sent, Inv s sent → ∀ call ∈ (path.handlers s).called, ∃ n, call.2 = .ok n
  longer : ∀ sent payload, (path.stream sent).length < (path.stream (sent ++ [payload])).length

namespace Burst

variable {σ : Type} {path : PacketPath σ} {Inv : σ → List BurstPayload → Prop} {s : Burst σ}

structure Through (Inv : σ → List BurstPayload → Prop) (s : Burst σ) : Prop where
  handle : Inv s.handle s.started
  kept : s.retired = false
  arrived : s.arrived = s.started ++ s.starting ++ s.waiting
  routed : s.routed = true → s.waiting = []
  unrouted : s.routed = false → s.starting = []

theorem Through.intact (h : Through Inv s) (hpath : path.OneAtATime Inv) : Intact path s :=
  ⟨h.kept, h.arrived, hpath.stream _ _ h.handle, hpath.moving _ _ h.handle⟩

theorem Through.step (h : Through Inv s) (hpath : path.OneAtATime Inv) (event : BurstEvent)
    (hfree : Free path s event) :
    Through Inv (s.step path event) := by
  unfold Burst.step
  rw [if_neg (by simp [h.kept])]
  cases event with
  | datagram payload =>
    dsimp only
    by_cases hstarting : s.starting = []
    · rw [if_neg (not_not.2 hstarting)]
      have harrived := h.arrived
      by_cases hrouted : s.routed = true
      · rw [if_pos hrouted]
        rw [hstarting, h.routed hrouted, append_nil, append_nil] at harrived
        refine ⟨hpath.free _ _ _ h.handle (hfree hrouted hstarting), h.kept, ?_, fun _ => h.routed hrouted,
          fun _ => hstarting⟩
        show s.arrived ++ [payload] = s.started ++ [payload] ++ s.starting ++ s.waiting
        rw [hstarting, h.routed hrouted, append_nil, append_nil, harrived]
      · rw [if_neg hrouted]
        refine ⟨h.handle, h.kept, ?_, fun hrouted' => absurd hrouted' hrouted, fun _ => hstarting⟩
        rw [harrived, append_assoc]
    · rw [if_pos hstarting]
      exact h
  | routed =>
    by_cases hrouted : s.routed = true
    · rw [if_pos hrouted]
      exact h
    · rw [if_neg hrouted]
      refine ⟨h.handle, h.kept, ?_, fun _ => rfl, nofun⟩
      rw [h.arrived, h.unrouted (by simpa using hrouted), append_nil, append_nil]
  | startSend =>
    cases hstarting : s.starting with
    | nil => exact h
    | cons payload rest =>
      refine ⟨hpath.free _ _ _ h.handle (hfree (by rw [hstarting]; exact cons_ne_nil _ _)), h.kept, ?_,
        h.routed, fun hrouted => ?_⟩
      · show s.arrived = s.started ++ [payload] ++ rest ++ s.waiting
        rw [h.arrived, hstarting]
        simp
      · have := h.unrouted hrouted
        rw [hstarting] at this
        cases this
  | writeDone i => exact { h with handle := hpath.writeDone _ _ i h.handle }
  | pumped => exact { h with handle := hpath.pumped _ _ h.handle }
  | sendReturned =>
    cases hcall : (path.handlers s.handle).called[s.returned]? with
    | none => exact h
    | some call =>
      obtain ⟨id, result⟩ := call
      obtain ⟨n, hok⟩ := hpath.succeeds _ _ h.handle _ (mem_of_getElem? hcall)
      subst hok
      exact { h with }

theorem Through.lost (h : Through Inv s) (hpath : path.OneAtATime Inv) {payload : BurstPayload} {s' : Burst σ}
    (hbusy : (path.handlers s.handle).parked ≠ none)
    (hhandle : s'.handle = path.step s.handle (.send payload.bytes path.target.address))
    (hstarted : s'.started = s.started ++ [payload]) : ¬ Intact path s' := by
  intro hintact
  obtain ⟨hwritten, hunwritten⟩ := hpath.busy s.handle payload hbusy
  have hstream := hintact.stream
  rw [hhandle, hwritten, hunwritten, hstarted, hpath.stream _ _ h.handle] at hstream
  exact absurd (congrArg List.length hstream) (Nat.ne_of_lt (hpath.longer _ _))

theorem Through.lost_step (h : Through Inv s) (hpath : path.OneAtATime Inv) (event : BurstEvent)
    (hfree : ¬ Free path s event) :
    ¬ Intact path (s.step path event) := by
  unfold Burst.step
  rw [if_neg (by simp [h.kept])]
  cases event with
  | datagram payload =>
    unfold Free at hfree
    push Not at hfree
    obtain ⟨hrouted, hstarting, hbusy⟩ := hfree
    dsimp only
    rw [if_neg (not_not.2 hstarting), if_pos hrouted]
    exact h.lost hpath hbusy rfl rfl
  | startSend =>
    unfold Free at hfree
    push Not at hfree
    obtain ⟨hstarting, hbusy⟩ := hfree
    cases hqueue : s.starting with
    | nil => exact absurd hqueue hstarting
    | cons payload rest => exact h.lost hpath hbusy rfl rfl
  | routed | writeDone _ | pumped | sendReturned => exact absurd trivial hfree

theorem intact_iff (hpath : path.OneAtATime Inv) (events : List BurstEvent) :
    (∀ pre, pre <+: events → Intact path (Runs.run (step path) (start path) pre)) ↔
    Runs.Along (step path) (Free path) (start path) events := by
  have hstart : Through Inv (start path) := ⟨hpath.start, rfl, rfl, fun _ => rfl, fun _ => rfl⟩
  exact Runs.forall_prefix_iff_along (P := Through Inv) (fun s h => h.intact hpath)
    (fun s event h hfree => h.step hpath event hfree)
    (fun s event h hfree => h.lost_step hpath event hfree) hstart events

end Burst

/-! ## The two handles -/

def encoded : Except Error Bytes → Bytes
  | .ok bytes => bytes
  | .error _ => []

theorem Target.encode (target : Target) (families : Families) (context : String) :
    encodeHostPort families context target.address =
    .ok (encoded (encodeHostPort families context target.address)) := by
  unfold encodeHostPort
  cases hhost : target.address.host with
  | v4 bytes => rfl
  | v6 bytes => rfl
  | domain name => exact absurd hhost (target.numeric name)

theorem frame_length (d : Dialect) (address payload : Bytes) : 2 ≤ (d.frame address payload).length := by
  unfold Dialect.frame putBe16
  simp only [length_append, length_cons, length_nil]
  omega

/-- The options that a path's handle is opened with: the request destination is the target. -/
def pathOptions (version : Version) (target : Target) : Options :=
  ⟨version, if version = .version2 then some target.address else none⟩

def uotStream (version : Version) (target : Target) (payloads : List BurstPayload) : Bytes :=
  (if version = .version2 ∧ payloads ≠ [] then 0 :: encoded (encodeRequestDestination target.address) else []) ++
    payloads.flatMap fun p => udpOverTcp.frame (encoded (encodeDestination target.address)) p.bytes

def udpOverTcpPath (version : Version) (target : Target) : PacketPath UdpOverTcpState where
  target := target
  start := {}
  step := UdpOverTcpState.step (pathOptions version target)
  handlers := UdpOverTcpState.handlers
  written s := s.written.flatMap PendingWrite.packet
  unwritten s := s.inFlight.flatMap PendingWrite.packet ++ s.writes.flatMap PendingWrite.packet
  outstanding s := !s.inFlight.isEmpty
  stream := uotStream version target

def trojanPath (target : Target) : PacketPath TrojanPacketState where
  target := target
  start := {}
  step := TrojanPacketState.step
  handlers := TrojanPacketState.handlers
  written s := (s.completed.filter Prod.snd).flatMap fun c => c.1.packet
  unwritten s := s.inFlight.flatMap FrameWrite.packet ++ s.writes.flatMap FrameWrite.packet
  outstanding s := !s.inFlight.isEmpty
  stream payloads := payloads.flatMap fun p =>
    ((chunks p.bytes).map (trojan.frame (encoded (encodeAddress target.address)))).flatten

/-! ### UDP-over-TCP -/

def uotFrame (target : Target) (payload : BurstPayload) : Bytes :=
  udpOverTcp.frame (encoded (encodeDestination target.address)) payload.bytes

theorem request_eq {version : Version} (target : Target) (hversion : version = .version2) :
    (pathOptions version target).request = some (0 :: encoded (encodeRequestDestination target.address)) := by
  have hencode : encodeRequestDestination target.address =
    .ok (encoded (encodeRequestDestination target.address)) := target.encode _ _
  unfold Options.request pathOptions
  rw [if_pos hversion, Option.bind_some, hencode]
  rfl

theorem uotStream_eq (version : Version) (target : Target) (sent : List BurstPayload) :
    uotStream version target sent = UdpOverTcpState.stream (pathOptions version target)
    (sent.map (uotFrame target)) := by
  unfold uotStream UdpOverTcpState.stream
  by_cases hversion : version = .version2
  · rw [request_eq target hversion, Option.getD_some]
    by_cases hfirst : sent = []
    · subst hfirst
      rw [if_neg (fun h => h.2 rfl), if_neg (fun h => h.2 rfl)]
      rfl
    · rw [if_pos ⟨hversion, hfirst⟩, if_pos ⟨hversion, fun hnil => hfirst (map_eq_nil_iff.1 hnil)⟩]
      rfl
  · rw [if_neg (fun h => hversion h.1), if_neg (fun h => hversion h.1)]
    rfl

theorem udpOverTcp_oneAtATime (version : Version) (target : Target) : (udpOverTcpPath version target).OneAtATime
    (fun s sent => UdpOverTcpState.OneByOne (pathOptions version target) s (sent.map (uotFrame target))) where
  start := UdpOverTcpState.OneByOne.start _
  free s sent payload h hparked := by
    rw [map_append]
    have hrequest : version = .version2 → (pathOptions version target).request.isSome = true :=
      fun hversion => by
      rw [request_eq target hversion]
      rfl
    exact h.send hrequest hparked payload.bytes_le (target.encode _ _)
  busy s payload hbusy := by
    have hbusy : s.handlers.parked ≠ none := hbusy
    have hrefused : (udpOverTcpPath version target).step s
      (.send payload.bytes (udpOverTcpPath version target).target.address) =
        s.refuse .alreadyStarted := by
      show s.send (pathOptions version target) payload.bytes target.address = _
      unfold UdpOverTcpState.send
      rw [if_pos (Option.isSome_iff_ne_none.2 hbusy)]
    rw [hrefused]
    exact ⟨rfl, rfl⟩
  writeDone s sent i h := h.writeDone i
  pumped s sent h := h.pumped
  stream s sent h := by
    show s.written.flatMap PendingWrite.packet ++
      (s.inFlight.flatMap PendingWrite.packet ++ s.writes.flatMap PendingWrite.packet) =
      uotStream version target sent
    rw [h.queue, flatMap_nil, append_nil, ← flatMap_append, uotStream_eq]
    exact h.stream
  moving s sent h houtstanding := by
    have hidle : s.inFlight = [] := by
      have houtstanding : (!s.inFlight.isEmpty) = false := houtstanding
      simpa using houtstanding
    show s.inFlight.flatMap PendingWrite.packet ++ s.writes.flatMap PendingWrite.packet = []
    rw [hidle, h.queue]
    rfl
  succeeds s sent h := h.succeeds
  longer sent payload := by
    show (uotStream version target sent).length < (uotStream version target (sent ++ [payload])).length
    have hframe := frame_length udpOverTcp (encoded (encodeDestination target.address)) payload.bytes
    rw [uotStream_eq, uotStream_eq, map_append, map_singleton, UdpOverTcpState.stream_append,
      length_append, length_append]
    unfold uotFrame
    omega

/-! ### Trojan -/

/-- The handle of a burst: every lower write that completed succeeded, and one is outstanding only for the
parked send. -/
structure TrojanThrough (target : Target) (s : TrojanPacketState) (sent : List BurstPayload) : Prop where
  inv : s.Inv
  idle : s.handlers.parked = none → s.inFlight = []
  completed : ∀ c ∈ s.completed, c.2 = true
  succeeds : ∀ call ∈ s.handlers.called, ∃ n, call.2 = .ok n
  stream : s.inOrder.flatMap FrameWrite.packet = (trojanPath target).stream sent

theorem pumpWrite_keeps (s : TrojanPacketState) :
    s.pumpWrite.handlers = s.handlers ∧ s.pumpWrite.completed = s.completed := by
  unfold TrojanPacketState.pumpWrite
  split
  · exact ⟨rfl, rfl⟩
  · cases s.writes with
    | nil => exact ⟨rfl, rfl⟩
    | cons pending rest => exact ⟨rfl, rfl⟩

namespace TrojanThrough

variable {target : Target} {s : TrojanPacketState} {sent : List BurstPayload}

theorem start : TrojanThrough target {} [] where
  inv := TrojanPacketState.start_inv
  idle _ := rfl
  completed _ hc := absurd hc not_mem_nil
  succeeds _ hcall := absurd hcall not_mem_nil
  stream := rfl

theorem send (h : TrojanThrough target s sent) (hparked : s.handlers.parked = none) (payload : BurstPayload) :
    TrojanThrough target (s.send payload.bytes target.address) (sent ++ [payload]) := by
  have hinv := TrojanPacketState.send_inv h.inv payload.bytes target.address
  have hencode : encodeAddress target.address = .ok (encoded (encodeAddress target.address)) := target.encode _ _
  generalize haddress : encoded (encodeAddress target.address) = address at hencode
  have hsend : s.send payload.bytes target.address = TrojanPacketState.pumpWrite
      { s with
        writes := s.writes ++ ((chunks payload.bytes).map (trojan.frame address)).map (⟨·, s.handlers.issued⟩)
        handlers := s.handlers.park
        sendSize := payload.bytes.length
        accepted := s.accepted ++ [(s.handlers.issued,
          (chunks payload.bytes).map (trojan.frame address))] } := by
    unfold TrojanPacketState.send
    rw [if_neg (by simp [hparked]), if_neg (Nat.not_lt.2 payload.bytes_le), hencode]
  rw [hsend] at hinv ⊢
  obtain ⟨hhandlers, hcompleted⟩ := pumpWrite_keeps
    { s with
      writes := s.writes ++ ((chunks payload.bytes).map (trojan.frame address)).map (⟨·, s.handlers.issued⟩)
      handlers := s.handlers.park
      sendSize := payload.bytes.length
      accepted := s.accepted ++ [(s.handlers.issued, (chunks payload.bytes).map (trojan.frame address))] }
  refine ⟨hinv, ?_, ?_, ?_, ?_⟩
  · rw [hhandlers]
    exact nofun
  · rw [hcompleted]
    exact h.completed
  · rw [hhandlers]
    exact h.succeeds
  · rw [TrojanPacketState.pumpWrite_inOrder]
    have hframes : (((chunks payload.bytes).map (trojan.frame address)).map
      (⟨·, s.handlers.issued⟩) : List FrameWrite).flatMap FrameWrite.packet =
        ((chunks payload.bytes).map (trojan.frame address)).flatten := by
      rw [flatMap_map]
      exact flatMap_id
    have hstream := h.stream
    unfold TrojanPacketState.inOrder at hstream ⊢
    unfold trojanPath at hstream ⊢
    dsimp only at hstream ⊢
    rw [← append_assoc, flatMap_append, hframes, hstream, flatMap_append, flatMap_singleton, haddress]

theorem writeDone (h : TrojanThrough target s sent) (i : Nat) :
    TrojanThrough target (s.step (.writeDone i true)) sent := by
  have hinv := TrojanPacketState.step_inv h.inv (.writeDone i true) fun _ _ _ _ _ c hc _ => h.completed c hc
  unfold TrojanPacketState.step at hinv ⊢
  dsimp only at hinv ⊢
  cases hw : s.inFlight[i]? with
  | none => exact h
  | some w =>
    rw [hw] at hinv
    have hpos := length_pos_of_mem (mem_of_getElem? hw)
    obtain ⟨w', hw'⟩ := length_eq_one_iff.1 (Nat.le_antisymm h.inv.1.one_write hpos)
    have hparked : s.handlers.parked ≠ none := fun hnone => by
      rw [h.idle hnone] at hpos
      exact absurd hpos (Nat.lt_irrefl 0)
    rw [hw'] at hw
    cases i with
    | succ i => cases hw
    | zero =>
      cases hw
      have hcompleted : ∀ c ∈ s.completed ++ [(w, true)], c.2 = true := fun c hc => by
        rcases mem_append.1 hc with hc | hc
        · exact h.completed c hc
        · rw [mem_singleton.1 hc]
      have horder : (s.completed ++ [(w, true)]).map Prod.fst ++ [] ++ s.writes = s.inOrder := by
        unfold TrojanPacketState.inOrder
        rw [hw', map_append, append_nil]
        rfl
      have hempty : s.inFlight.eraseIdx 0 = [] := by
        rw [hw']
        rfl
      unfold TrojanPacketState.writeDone at hinv ⊢
      dsimp only at hinv ⊢
      rw [hempty] at hinv ⊢
      by_cases hwrites : s.writes ≠ []
      · rw [if_pos hwrites] at hinv ⊢
        obtain ⟨hhandlers, hkept⟩ := pumpWrite_keeps
          { s with
            writeInProgress := false
            inFlight := []
            completed := s.completed ++ [(w, true)] }
        refine ⟨hinv, ?_, ?_, ?_, ?_⟩
        · rw [hhandlers]
          exact fun hnone => absurd hnone hparked
        · rw [hkept]
          exact hcompleted
        · rw [hhandlers]
          exact h.succeeds
        · rw [TrojanPacketState.pumpWrite_inOrder]
          exact (congrArg _ horder).trans h.stream
      · rw [if_neg hwrites] at hinv ⊢
        refine ⟨hinv, fun _ => rfl, hcompleted, fun call hcall => ?_, (congrArg _ horder).trans h.stream⟩
        rcases Handlers.mem_finish hcall with hcall | ⟨-, hresult⟩
        · exact h.succeeds call hcall
        · exact ⟨s.sendSize, hresult⟩

theorem oneAtATime (target : Target) : (trojanPath target).OneAtATime (TrojanThrough target) where
  start := TrojanThrough.start
  free s sent payload h hparked := h.send hparked payload
  busy s payload hbusy := by
    have hbusy : s.handlers.parked ≠ none := hbusy
    have hrefused : (trojanPath target).step s (.send payload.bytes (trojanPath target).target.address) =
      s.refuse .alreadyStarted := by
      show s.send payload.bytes target.address = _
      unfold TrojanPacketState.send
      rw [if_pos (Option.isSome_iff_ne_none.2 hbusy)]
    rw [hrefused]
    exact ⟨rfl, rfl⟩
  writeDone s sent i h := h.writeDone i
  pumped s sent h := h
  stream s sent h := by
    show (s.completed.filter Prod.snd).flatMap (fun c => c.1.packet) ++
      (s.inFlight.flatMap FrameWrite.packet ++ s.writes.flatMap FrameWrite.packet) = _
    rw [filter_eq_self.2 h.completed, ← h.stream]
    unfold TrojanPacketState.inOrder
    rw [flatMap_append, flatMap_append, flatMap_map, append_assoc]
  moving s sent h houtstanding := by
    have hidle : s.inFlight = [] := by
      have houtstanding : (!s.inFlight.isEmpty) = false := houtstanding
      simpa using houtstanding
    show s.inFlight.flatMap FrameWrite.packet ++ s.writes.flatMap FrameWrite.packet = []
    rw [hidle, h.inv.2.1 hidle]
    rfl
  succeeds s sent h := h.succeeds
  longer sent payload := by
    show (sent.flatMap _).length < ((sent ++ [payload]).flatMap _).length
    rw [flatMap_append, length_append, flatMap_singleton]
    obtain ⟨chunk, rest, hchunks⟩ := exists_cons_of_ne_nil (TrojanPacketState.chunks_ne_nil payload.bytes)
    rw [hchunks, map_cons, flatten_cons, length_append]
    have hframe := frame_length trojan (encoded (encodeAddress target.address)) chunk
    omega

end TrojanThrough

/-! ## Bursts -/

def exampleTarget : Target := ⟨exampleDestination, fun _ h => nomatch h⟩

def examplePayload : BurstPayload := ⟨[1], by decide⟩

/-- A second datagram comes while the first is being written: the handle refuses it, and the path is
retired when its send returns. -/
theorem burst_retires_path :
    ¬ Burst.Intact (udpOverTcpPath .version2 exampleTarget)
    (Runs.run (Burst.step (udpOverTcpPath .version2 exampleTarget))
      (Burst.start (udpOverTcpPath .version2 exampleTarget))
      [.datagram examplePayload, .routed, .startSend, .datagram examplePayload, .sendReturned]) ∧
    ¬ Burst.Intact (trojanPath exampleTarget)
    (Runs.run (Burst.step (trojanPath exampleTarget)) (Burst.start (trojanPath exampleTarget))
      [.datagram examplePayload, .routed, .startSend, .datagram examplePayload, .sendReturned]) := by
  constructor
  · intro h
    exact absurd h.kept (by decide +kernel)
  · intro h
    exact absurd h.kept (by decide +kernel)

/-- **A burst goes through** a path over either handle, in every state of a run, exactly when no send
starts while another is in progress. -/
theorem bursts_intact_iff (version : Version) (target : Target) (events trojanEvents : List BurstEvent) :
    ((∀ pre, pre <+: events → Burst.Intact (udpOverTcpPath version target)
        (Runs.run (Burst.step (udpOverTcpPath version target))
          (Burst.start (udpOverTcpPath version target)) pre)) ↔
      Runs.Along (Burst.step (udpOverTcpPath version target)) (Burst.Free (udpOverTcpPath version target))
        (Burst.start (udpOverTcpPath version target)) events) ∧
    ((∀ pre, pre <+: trojanEvents → Burst.Intact (trojanPath target)
        (Runs.run (Burst.step (trojanPath target)) (Burst.start (trojanPath target)) pre)) ↔
      Runs.Along (Burst.step (trojanPath target)) (Burst.Free (trojanPath target))
      (Burst.start (trojanPath target)) trojanEvents) :=
  ⟨Burst.intact_iff (udpOverTcp_oneAtATime version target) events,
    Burst.intact_iff (TrojanThrough.oneAtATime target) trojanEvents⟩

end ClashNative.PacketStream
