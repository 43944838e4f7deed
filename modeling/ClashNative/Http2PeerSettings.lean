import ClashNative.Http2Once
/-!
# Http2PeerSettings — what the peer said of extended CONNECT

`on_frame_received` hands the entries of a SETTINGS frame to `handle_peer_settings`, which looks for
`ENABLE_CONNECT_PROTOCOL` in this frame only.  `Heard` is the session with the last value that its peer
sent.
-/
namespace ClashNative.Http2

open Runs List

def Event.isBytes : Event → Bool
  | .read (.bytes ..) => true
  | _ => false

/-! ## What does not touch the setting -/

namespace State

/-- **The setting, the tunnels that wait for it**, the streams that exchanges have and the exchanges that
have left stay. -/
structure Keeps (s t : State) : Prop where
  enabled : t.peerConnectProtocolEnabled = s.peerConnectProtocolEnabled
  waiting : t.waitingForConnectProtocol = s.waitingForConnectProtocol
  streamId : ∀ id, (s.pendings id).streamId.isSome = true → (t.pendings id).streamId.isSome = true
  pending : ∀ id, (s.pendings id).pending = false → (t.pendings id).pending = false

namespace Keeps

theorem refl (s : State) : s.Keeps s := ⟨rfl, rfl, fun _ h => h, fun _ h => h⟩

theorem trans {s t u : State} (h : s.Keeps t) (h' : t.Keeps u) : s.Keeps u where
  enabled := h'.enabled.trans h.enabled
  waiting := h'.waiting.trans h.waiting
  streamId id hid := h'.streamId id (h.streamId id hid)
  pending id hid := h'.pending id (h.pending id hid)

theorem foldl {α : Type} (f : State → α → State) (hf : ∀ (t : State) a, t.Keeps (f t a)) (l : List α)
    (s : State) :
    s.Keeps (l.foldl f s) := by
  induction l generalizing s with
  | nil => exact refl s
  | cons a l ih => exact (hf s a).trans (ih (f s a))

end Keeps

variable (s : State)

theorem keeps_modify (id : ExchangeId) {f : Pending → Pending}
    (hstream : (s.pendings id).streamId.isSome = true → (f (s.pendings id)).streamId.isSome = true)
    (hpending : (s.pendings id).pending = false → (f (s.pendings id)).pending = false) : s.Keeps
    (s.modify id f) := by
  refine ⟨rfl, rfl, fun i hi => ?_, fun i hi => ?_⟩
  · unfold modify
    dsimp only
    split
    · rename_i heq
      rw [heq] at hi ⊢
      exact hstream hi
    · exact hi
  · unfold modify
    dsimp only
    split
    · rename_i heq
      rw [heq] at hi ⊢
      exact hpending hi
    · exact hi

theorem keeps_failAll (code : ErrorCode) : s.Keeps (s.failAll code) := by
  refine ⟨rfl, rfl, fun i hi => ?_, fun i hi => ?_⟩
  · change ((s.pendings i).failAll code).streamId.isSome = true
    have hedits : Pending.Edits true (s.pendings i) ((s.pendings i).failAll code) :=
      ((s.pendings i).edits_failAll code).1
    rw [hedits.streamId]
    exact hi
  · change ((s.pendings i).failAll code).pending = false
    unfold Pending.failAll
    rw [if_pos hi]
    exact hi

theorem keeps_connectionFailed (code : ErrorCode) : s.Keeps (s.connectionFailed code) := by
  unfold connectionFailed
  split
  · exact .refl s
  · refine Keeps.trans ?_ (keeps_failAll _ code)
    exact ⟨rfl, rfl, fun _ h => h, fun _ h => h⟩

theorem keeps_stop : s.Keeps s.stop := by
  unfold stop
  split
  · exact .refl s
  · refine Keeps.trans ?_ (keeps_failAll _ .cancelled)
    exact ⟨rfl, rfl, fun _ h => h, fun _ h => h⟩

theorem keeps_closeIfDrained : s.Keeps s.closeIfDrained := by
  unfold closeIfDrained
  split
  · exact ⟨rfl, rfl, fun _ h => h, fun _ h => h⟩
  · exact .refl s

theorem keeps_fail (id : ExchangeId) (code : ErrorCode) : s.Keeps (s.modify id (·.fail code)) :=
  s.keeps_modify id (fun h => h) fun _ => rfl

theorem keeps_failClosedPending (id : ExchangeId) (code : ErrorCode) :
    s.Keeps (s.failClosedPending id code) := by
  unfold failClosedPending
  split
  · exact .refl s
  · exact s.keeps_fail id code

theorem keeps_onStreamClosed (stream : StreamId) (error : Bool) : s.Keeps (s.onStreamClosed stream error) := by
  have hopened : s.Keeps { s with opened := fun i => if i = stream then none else s.opened i } := ⟨rfl, rfl,
    fun _ h => h, fun _ h => h⟩
  unfold onStreamClosed
  dsimp only
  split
  · exact hopened
  · rename_i id _
    have hfailed := hopened.trans (keeps_failClosedPending _ id .protocolFraming)
    refine Keeps.trans ?_ (keeps_closeIfDrained _)
    split
    · exact { hfailed with }
    · split
      · exact { hfailed with }
      · exact ⟨rfl, rfl, fun _ h => h, fun _ h => h⟩

theorem keeps_sendPending : s.Keeps s.sendPending := by
  unfold sendPending
  split
  · exact .refl s
  · dsimp only
    have hclosed := Keeps.foldl (fun (s : State) c => s.onStreamClosed c.1 c.2)
      (fun t c => t.keeps_onStreamClosed c.1 c.2)
      (s.calls.sends.headD {}).closes { s with calls := { s.calls with sends := s.calls.sends.tail } }
    have hsame : s.Keeps { s with calls := { s.calls with sends := s.calls.sends.tail } } := ⟨rfl, rfl,
      fun _ h => h, fun _ h => h⟩
    split
    · exact (hsame.trans hclosed).trans (keeps_connectionFailed _ _)
    · exact hsame.trans hclosed
    · exact (hsame.trans hclosed).trans ⟨rfl, rfl, fun _ h => h, fun _ h => h⟩

theorem keeps_failPending (id : ExchangeId) (code : ErrorCode) : s.Keeps (s.failPending id code) := by
  unfold failPending
  split
  · exact .refl s
  · refine Keeps.trans ?_ (keeps_closeIfDrained _)
    refine Keeps.trans ?_ (keeps_sendPending _)
    refine Keeps.trans ?_ (keeps_fail _ id code)
    split
    · exact .refl s
    · cases (s.pendings id).streamId with
      | none => exact .refl s
      | some stream => exact ⟨rfl, rfl, fun _ h => h, fun _ h => h⟩

theorem keeps_finishPending (id : ExchangeId) : s.Keeps (s.finishPending id) := by
  unfold finishPending
  split
  · exact .refl s
  · exact (s.keeps_modify id (f := Pending.finish) (fun h => h) fun _ => rfl).trans (keeps_closeIfDrained _)

theorem keeps_submitRequest (id : ExchangeId) : s.Keeps (s.submitRequest id) := by
  have hcalls : s.Keeps { s with calls := { s.calls with submits := s.calls.submits.tail } } := ⟨rfl, rfl,
    fun _ h => h, fun _ h => h⟩
  unfold submitRequest
  dsimp only
  split
  · have hstream := hcalls.trans (keeps_modify _ id (f := ({ · with streamId := some s.nextStream }))
      (fun _ => rfl) fun h => h)
    exact { hstream with }
  · exact hcalls.trans (keeps_failPending _ id _)

theorem keeps_submitTunnel (id : ExchangeId) : s.Keeps (s.submitTunnel id) := by
  unfold submitTunnel
  split
  · exact .refl s
  · exact s.keeps_submitRequest id

theorem keeps_finishStreamingResponse (id record : ExchangeId) :
    s.Keeps (s.finishStreamingResponse id record) := by
  unfold finishStreamingResponse
  split
  · exact .refl s
  · split
    · exact s.keeps_failPending id _
    · refine Keeps.trans ?_ (keeps_closeIfDrained _)
      exact (s.keeps_modify record (fun h => h) fun h => h).trans (keeps_modify _ id (fun h => h) fun _ => rfl)

theorem keeps_handleResponseHeaders (id : ExchangeId) : s.Keeps (s.handleResponseHeaders id) := by
  unfold handleResponseHeaders
  dsimp only
  split
  · exact .refl s
  · split
    · split
      · exact .refl s
      · split
        · exact s.keeps_modify id (f := Pending.acceptTunnel) (fun h => h) fun _ => rfl
        · exact .refl s
    · split
      · exact .refl s
      · split
        · exact s.keeps_modify id (fun h => h) fun h => h
        · split
          · exact s.keeps_failPending id _
          · exact s.keeps_modify id (f := Pending.deliver) (fun h => h) fun h => h

theorem keeps_onHeader (stream : StreamId) (status : Nat) : s.Keeps (s.onHeader stream status) := by
  unfold onHeader
  split
  · exact .refl s
  · split
    · exact .refl s
    · exact s.keeps_modify _ (fun h => h) fun h => h

theorem keeps_onDataChunk (stream : StreamId) (length : Nat) (received : Bool) :
    s.Keeps (s.onDataChunk stream length received) := by
  unfold onDataChunk
  dsimp only
  split
  · exact ⟨rfl, rfl, fun _ h => h, fun _ h => h⟩
  · split
    · exact ⟨rfl, rfl, fun _ h => h, fun _ h => h⟩
    · split
      · split
        · exact ⟨rfl, rfl, fun _ h => h, fun _ h => h⟩
        · refine Keeps.trans ?_ (keeps_modify _ _ (fun h => h) fun h => h)
          exact ⟨rfl, rfl, fun _ h => h, fun _ h => h⟩
      · split
        · refine Keeps.trans ?_ (keeps_modify _ _ (fun h => h) fun h => h)
          exact ⟨rfl, rfl, fun _ h => h, fun _ h => h⟩
        · refine Keeps.trans ?_ (keeps_modify _ _ (fun h => h) fun h => h)
          exact ⟨rfl, rfl, fun _ h => h, fun _ h => h⟩

theorem keeps_onEndStream (stream : StreamId) (found : Option ExchangeId) :
    s.Keeps (s.onEndStream stream found) := by
  unfold onEndStream
  split
  · exact .refl s
  · exact s.keeps_finishPending _
  · split
    · exact s.keeps_modify _ (fun h => h) fun h => h
    · split
      · exact s.keeps_finishStreamingResponse _ _
      · exact s.keeps_finishPending _

theorem keeps_onFrameReceived (stream : StreamId) (endHeaders endStream : Bool) :
    s.Keeps (s.onFrameReceived stream endHeaders endStream) := by
  have hheaders : s.Keeps (if endHeaders = true then
    (s.streamIds stream).elim s s.handleResponseHeaders else s) := by
    split
    · cases s.streamIds stream with
      | none => exact .refl s
      | some id => exact s.keeps_handleResponseHeaders id
    · exact .refl s
  unfold onFrameReceived
  dsimp only
  split
  · exact hheaders.trans (keeps_onEndStream _ stream _)
  · exact hheaders

theorem keeps_handleGoaway (lastStream : StreamId) : s.Keeps (s.handleGoaway lastStream) := by
  unfold handleGoaway
  split
  · exact .refl s
  · refine Keeps.trans ?_ (keeps_closeIfDrained _)
    refine Keeps.trans (t := { s with retired := true }) ?_ ?_
    · exact ⟨rfl, rfl, fun _ h => h, fun _ h => h⟩
    · exact Keeps.foldl (fun t (e : StreamId × ExchangeId) => t.failPending e.2 .protocolFraming)
        (fun t e => t.keeps_failPending e.2 _) _ _

def Callback.isSettings : Callback → Bool
  | .settings _ => true
  | _ => false

theorem keeps_callback (c : Callback) (hc : c.isSettings = false) : s.Keeps (s.callback c) := by
  unfold callback
  split
  · exact .refl s
  · cases c with
    | header stream status => exact s.keeps_onHeader stream status
    | dataChunk stream length received => exact s.keeps_onDataChunk stream length received
    | headers stream endHeaders endStream => exact s.keeps_onFrameReceived stream endHeaders endStream
    | data stream endStream => exact s.keeps_onFrameReceived stream false endStream
    | streamClosed stream error => exact s.keeps_onStreamClosed stream error
    | settings enabled => cases hc
    | goaway lastStream => exact s.keeps_handleGoaway lastStream
    | pingAck => exact ⟨rfl, rfl, fun _ h => h, fun _ h => h⟩

theorem keeps_failStreamingBodyOverflows : s.Keeps s.failStreamingBodyOverflows := by
  refine Keeps.trans ?_ (Keeps.foldl (fun t id => t.failPending id .protocolFraming)
    (fun t id => t.keeps_failPending id _) _ _)
  exact Keeps.foldl (fun t id => t.modify id ({ · with streamingBodyOverflow := false }))
    (fun t id => t.keeps_modify id (fun h => h) fun h => h) _ _

theorem keeps_consumeStreams (consumed : StreamId → Nat) (l : List StreamId) :
    s.Keeps (consumeStreams consumed l s) := by
  induction l generalizing s with
  | nil => exact .refl s
  | cons stream rest ih =>
    have hconsume : s.Keeps s.consume.1 := ⟨rfl, rfl, fun _ h => h, fun _ h => h⟩
    unfold consumeStreams
    split
    · exact ih s
    · split
      · exact ih s
      · split
        · exact hconsume.trans (keeps_connectionFailed _ _)
        · exact hconsume.trans (ih _)

theorem keeps_updateReceiveCredit : s.Keeps s.updateReceiveCredit := by
  have hconsume : s.Keeps s.consume.1 := ⟨rfl, rfl, fun _ h => h, fun _ h => h⟩
  unfold updateReceiveCredit
  split
  · exact .refl s
  · split
    · exact hconsume.trans (keeps_connectionFailed _ _)
    · refine Keeps.trans ?_ (keeps_consumeStreams _ _ _)
      split
      · exact ⟨rfl, rfl, fun _ h => h, fun _ h => h⟩
      · exact ⟨rfl, rfl, fun _ h => h, fun _ h => h⟩

theorem keeps_readResponse : s.Keeps s.readResponse := by
  unfold readResponse
  split
  · exact .refl s
  · exact ⟨rfl, rfl, fun _ h => h, fun _ h => h⟩

/-! ### The events -/

theorem enabled_submit (x : Pending) (invalid : Option ErrorCode) :
    (s.submit x invalid).peerConnectProtocolEnabled = s.peerConnectProtocolEnabled := by
  unfold submit
  dsimp only
  split
  · rfl
  · rw [(keeps_sendPending _).enabled]
    split
    · rw [(keeps_submitRequest _ _).enabled]
      rfl
    · split
      · rfl
      · rw [(keeps_submitTunnel _ _).enabled]
        rfl

def afterRead (valid : Bool) : State :=
  if valid = false then s.connectionFailed .protocolFraming
  else if s.failStreamingBodyOverflows.stopped ∨ s.failStreamingBodyOverflows.streamClosed ∨
    s.failStreamingBodyOverflows.http2 = false then
    s.failStreamingBodyOverflows
  else s.failStreamingBodyOverflows.updateReceiveCredit.sendPending.readResponse

theorem keeps_afterRead (valid : Bool) : s.Keeps (s.afterRead valid) := by
  unfold afterRead
  split
  · exact s.keeps_connectionFailed _
  · split
    · exact s.keeps_failStreamingBodyOverflows
    · have hcredit := s.keeps_failStreamingBodyOverflows.trans (keeps_updateReceiveCredit _)
      exact (hcredit.trans (keeps_sendPending _)).trans (keeps_readResponse _)

theorem enabled_handle (e : Event) (he : e.isBytes = false) :
    (s.handle e).peerConnectProtocolEnabled = s.peerConnectProtocolEnabled := by
  cases e with
  | submitBuffered bodyLimit invalid => exact s.enabled_submit _ _
  | submitStreaming headDeadlineOnly invalid => exact s.enabled_submit _ _
  | submitTunnel upgrade bodyLimit invalid => exact s.enabled_submit _ _
  | read r =>
    cases r with
    | bytes callbacks valid => cases he
    | error =>
      unfold handle onRead
      dsimp only
      split
      · rfl
      · split
        · rfl
        · exact (keeps_connectionFailed _ _).enabled
  | written error =>
    unfold handle onWritten
    dsimp only
    split
    · rfl
    · split
      · rfl
      · split
        · exact (keeps_connectionFailed _ _).enabled
        · exact ((keeps_sendPending _).trans (keeps_closeIfDrained _)).enabled
  | requestBodyRead id failed =>
    unfold handle onRequestBodyRead
    dsimp only
    split
    · rfl
    · split
      · rfl
      · split
        · rfl
        · cases failed with
          | none => exact s.keeps_sendPending.enabled
          | some code => exact (s.keeps_failPending _ code).enabled
  | consumeStreamData stream tunnel =>
    unfold handle consumeStreamData
    dsimp only
    split
    · rfl
    · split
      · exact (keeps_connectionFailed s.consume.1 _).enabled
      · exact (keeps_sendPending s.consume.1).enabled
  | tunnelSends => exact s.keeps_sendPending.enabled
  | deadline id =>
    unfold handle deadline
    dsimp only
    split
    · rfl
    · exact (s.keeps_failPending id _).enabled
  | cancel id => exact (s.keeps_failPending id _).enabled
  | pingTick submitted =>
    unfold handle pingTick
    dsimp only
    generalize (if s.pingPending = true then s.pingMisses + 1 else 0) = misses
    split
    · rfl
    · split
      · exact (keeps_connectionFailed _ _).enabled
      · exact (keeps_sendPending _).enabled
  | stop => exact s.keeps_stop.enabled

end State

/-! ## SETTINGS frames -/

structure SettingsEntry where
  settingsId : Nat
  value : Nat
  deriving DecidableEq, Repr

def kEnableConnectProtocol : Nat := 8

def enabledIn : List SettingsEntry → Bool
  | [] => false
  | entry :: rest => if entry.settingsId = kEnableConnectProtocol then entry.value == 1 else enabledIn rest

def valuesIn : List SettingsEntry → List Nat
  | [] => []
  | entry :: rest =>
    if entry.settingsId = kEnableConnectProtocol then entry.value :: valuesIn rest else valuesIn rest

/-- What nghttp2 calls back for: a SETTINGS frame with its entries, or anything else. -/
inductive Frame
  | settings (entries : List SettingsEntry)
  | other (c : State.Callback) (h : c.isSettings = false)

def Frame.callback : Frame → State.Callback
  | .settings entries => .settings (enabledIn entries)
  | .other c _ => c

/-- What the session was given with `nghttp2_session_mem_recv2`, or another event. -/
inductive Input
  | read (frames : List Frame) (valid : Bool)
  | other (e : Event) (h : e.isBytes = false)

def Input.event : Input → Event
  | .read frames valid => .read (.bytes (frames.map Frame.callback) valid)
  | .other e _ => e

/-- A SETTINGS frame that the session has handled: the last value that the peer has sent then, and the
session on both sides. -/
structure Handled where
  before : State
  value : Nat
  after : State

/-- **The session, and what its peer said**: the last value of the setting in all frames so far, which
starts as 0. -/
structure Heard where
  session : State
  value : Nat := 0
  handled : List Handled := []

namespace Heard

def frame (h : Heard) (f : Frame) : Heard :=
  let after := h.session.callback f.callback
  match f with
  | .settings entries =>
    if h.session.http2 = false then { h with session := after }
    else
      let value := (valuesIn entries).getLastD h.value
      { session := after, value, handled := h.handled ++ [⟨h.session, value, after⟩] }
  | .other .. => { h with session := after }

def reading (h : Heard) (calls : Calls) : Option Heard :=
  if h.session.readInProgress = false ∨ h.session.stopped ∨ h.session.streamClosed then none
  else some { h with session := { h.session with calls, readInProgress := false } }

/-- **One step of the session**, and the frames in it. -/
def step (h : Heard) (i : Input × Calls) : Heard :=
  let heard : Heard :=
    match i.1 with
    | .read frames _ => ((h.reading i.2).map (frames.foldl frame)).getD h
    | .other .. => h
  { heard with session := Http2.step h.session (i.1.event, i.2) }

end Heard

/-- **A SETTINGS frame is handled by the last value**: the setting is known, and the tunnels that waited
have got a stream where it is 1 (or have left), and have left where it is not. -/
structure Handled.Right (r : Handled) : Prop where
  told : r.after = r.before.handlePeerSettings (decide (r.value = 1))
  enabled : r.after.peerConnectProtocolEnabled = decide (r.value = 1)
  waiting : r.after.waitingForConnectProtocol = []
  started : r.value = 1 → ∀ id ∈ r.before.waitingForConnectProtocol,
    (r.after.pendings id).streamId.isSome = true ∨ (r.after.pendings id).pending = false
  rejected : r.value ≠ 1 → ∀ id ∈ r.before.waitingForConnectProtocol, (r.after.pendings id).pending = false

structure Follows (h : Heard) : Prop where
  enabled : h.session.peerConnectProtocolEnabled = decide (h.value = 1)
  handled : ∀ r ∈ h.handled, r.Right

/-- **The condition on a SETTINGS frame**: it has the setting, and its first value is 1 exactly if its
last one is; or it omits it, and the last value that was sent is not 1. -/
def Plain (h : Heard) : Frame → Prop
  | .settings entries =>
    h.session.http2 = true →
      match valuesIn entries with
      | [] => h.value ≠ 1
      | v :: vs => v = 1 ↔ vs.getLastD v = 1
  | .other .. => True

def PlainInput (h : Heard) (i : Input × Calls) : Prop :=
  match i.1 with
  | .read frames _ => ∀ start, h.reading i.2 = some start → Along Heard.frame Plain start frames
  | .other .. => True

/-! ## What a SETTINGS frame does -/

namespace State

def submitWaiting (s : State) (id : ExchangeId) : State :=
  if (s.pendings id).pending then s.submitTunnel id else s

theorem keeps_submitWaiting (s : State) (id : ExchangeId) : s.Keeps (s.submitWaiting id) := by
  unfold submitWaiting
  split
  · exact s.keeps_submitTunnel id
  · exact .refl s

def know (s : State) (enabled : Bool) : State :=
  { s with
    peerConnectProtocolReceived := true
    peerConnectProtocolEnabled := enabled
    waitingForConnectProtocol := [] }

theorem handlePeerSettings_true (s : State) :
    s.handlePeerSettings true = (s.waitingForConnectProtocol.foldl submitWaiting
      (s.know true)).sendPending := rfl

theorem handlePeerSettings_false (s : State) :
    s.handlePeerSettings false = s.waitingForConnectProtocol.foldl
    (fun s id => s.failPending id .protocolFraming) (s.know false) := rfl

theorem keeps_handlePeerSettings (s : State) (enabled : Bool) :
    (s.know enabled).Keeps (s.handlePeerSettings enabled) := by
  cases enabled with
  | true =>
    exact (Keeps.foldl submitWaiting keeps_submitWaiting _ _).trans (keeps_sendPending _)
  | false => exact Keeps.foldl _ (fun t id => t.keeps_failPending id .protocolFraming) _ _

end State

namespace Inv

variable {k : Known} {s : State}

theorem started_submitTunnel (h : Inv k s) (id : ExchangeId) :
    ((s.submitTunnel id).pendings id).streamId.isSome = true ∨
    ((s.submitTunnel id).pendings id).pending = false := by
  by_cases hp : (s.pendings id).pending = true
  · unfold State.submitTunnel
    split
    · rename_i hrefused
      rcases hrefused with hstream | hcompleted | hhttp2
      · exact .inl hstream
      · exact absurd (((h.each id).going hp).symm.trans hcompleted) Bool.false_ne_true
      · exact .inr (h.gone (.inl hhttp2) id)
    · unfold State.submitRequest
      dsimp only
      split
      · refine .inl ?_
        change Option.isSome (if id = id then _ else _ : Pending).streamId = true
        rw [if_pos rfl]
        rfl
      · have hcalls := h.answering { s.calls with submits := s.calls.submits.tail }
        have hfailed := hcalls.failed hp .protocolFraming
        exact .inr (hfailed.left id rfl)
  · exact .inr ((s.keeps_submitTunnel id).pending id (by simpa using hp))

theorem submitWaiting (l : List ExchangeId) (h : Inv k s) : ∀ id ∈ l,
    ((l.foldl State.submitWaiting s).pendings id).streamId.isSome = true ∨
    ((l.foldl State.submitWaiting s).pendings id).pending = false := by
  induction l generalizing s with
  | nil => exact fun id hid => absurd hid not_mem_nil
  | cons first rest ih =>
    intro id hid
    rcases mem_cons.1 hid with rfl | hrest
    · have hrest := State.Keeps.foldl State.submitWaiting State.keeps_submitWaiting rest (s.submitWaiting id)
      refine Or.imp (hrest.streamId id) (hrest.pending id) ?_
      unfold State.submitWaiting
      split
      · exact h.started_submitTunnel id
      · rename_i hp
        exact .inr (by simpa using hp)
    · refine ih ?_ id hrest
      unfold State.submitWaiting
      split
      · rename_i hp
        exact h.submitTunnel (of_decide_eq_true ((h.each first).known hp))
      · exact h

theorem failWaiting (l : List ExchangeId) (h : Inv k s) (code : ErrorCode) : ∀ id ∈ l,
    ((l.foldl (fun s id => s.failPending id code) s).pendings id).pending = false := by
  induction l generalizing s with
  | nil => exact fun id hid => absurd hid not_mem_nil
  | cons first rest ih =>
    intro id hid
    rcases mem_cons.1 hid with rfl | hrest
    · have hrest := State.Keeps.foldl _ (fun t id => t.keeps_failPending id code) rest (s.failPending id code)
      refine hrest.pending id ?_
      by_cases hp : (s.pendings id).pending = true
      · exact (h.failed hp code).left id rfl
      · exact (s.keeps_failPending id code).pending id (by simpa using hp)
    · exact ih (h.failPending first code) id hrest

theorem handlePeerSettings_right (h : Inv k s) (value : Nat) :
    Handled.Right ⟨s, value, s.handlePeerSettings (decide (value = 1))⟩ := by
  have hknow (enabled : Bool) : Inv k (s.know enabled) := { h with }
  have hkeeps := s.keeps_handlePeerSettings (decide (value = 1))
  refine ⟨rfl, hkeeps.enabled, hkeeps.waiting, fun hvalue id hid => ?_, fun hvalue id hid => ?_⟩
  · change ((s.handlePeerSettings (decide (value = 1))).pendings id).streamId.isSome = true ∨
      ((s.handlePeerSettings (decide (value = 1))).pendings id).pending = false
    rw [decide_eq_true hvalue, State.handlePeerSettings_true]
    have hsent := State.keeps_sendPending (s.waitingForConnectProtocol.foldl State.submitWaiting (s.know true))
    exact ((hknow true).submitWaiting _ id hid).imp (hsent.streamId id) (hsent.pending id)
  · rw [decide_eq_false hvalue, State.handlePeerSettings_false]
    exact (hknow false).failWaiting _ _ id hid

end Inv

/-! ## The entries of a frame -/

theorem enabledIn_eq : ∀ entries, enabledIn entries = decide ((valuesIn entries).headD 0 = 1)
  | [] => rfl
  | entry :: rest => by
    unfold enabledIn valuesIn
    split
    · rfl
    · exact enabledIn_eq rest

theorem plain_settings_iff (h : Heard) (entries : List SettingsEntry) : Plain h (.settings entries) ↔
    (h.session.http2 = true → enabledIn entries = decide ((valuesIn entries).getLastD h.value = 1)) := by
  unfold Plain
  rw [enabledIn_eq]
  dsimp only
  generalize valuesIn entries = values
  cases values with
  | nil =>
    refine forall_congr' fun _ => ?_
    simp
  | cons v vs =>
    refine forall_congr' fun _ => ?_
    change (v = 1 ↔ vs.getLastD v = 1) ↔ decide (v = 1) = decide ((v :: vs).getLastD h.value = 1)
    rw [getLastD_cons, decide_eq_decide]

/-! ## Frames and inputs -/

namespace Heard

theorem foldl_frame_session (frames : List Frame) : ∀ h : Heard,
    (frames.foldl frame h).session = (frames.map Frame.callback).foldl State.callback h.session := by
  induction frames with
  | nil => exact fun _ => rfl
  | cons f frames ih =>
    intro h
    rw [foldl_cons, ih, map_cons, foldl_cons]
    congr 1
    cases f with
    | settings entries =>
      unfold frame
      dsimp only
      split
      · rfl
      · rfl
    | other c hc => rfl

end Heard

theorem Heard.handled_foldl (frames : List Frame) :
    ∀ h : Heard, h.handled <+: (frames.foldl Heard.frame h).handled := by
  induction frames with
  | nil => exact fun h => prefix_refl _
  | cons f frames ih =>
    intro h
    refine List.IsPrefix.trans ?_ (ih (h.frame f))
    cases f with
    | settings entries =>
      unfold Heard.frame
      dsimp only
      split
      · exact prefix_refl _
      · exact prefix_append _ _
    | other c hc => exact prefix_refl _

variable {h : Heard} {f : Frame}

theorem Follows.frame {k : Known} (hf : Follows h) (hinv : Inv k h.session) (hplain : Plain h f) :
    Follows (h.frame f) := by
  cases f with
  | settings entries =>
    rw [plain_settings_iff] at hplain
    unfold Heard.frame State.callback
    dsimp only [Frame.callback]
    by_cases hhttp2 : h.session.http2 = false
    · rw [if_pos hhttp2, if_pos hhttp2]
      exact ⟨hf.enabled, hf.handled⟩
    · rw [if_neg hhttp2, if_neg hhttp2, hplain (by simpa using hhttp2)]
      have hright := hinv.handlePeerSettings_right ((valuesIn entries).getLastD h.value)
      refine ⟨hright.enabled, fun r hr => ?_⟩
      rcases mem_append.1 hr with hold | hnew
      · exact hf.handled r hold
      · rw [mem_singleton.1 hnew]
        exact hright
  | other c hc =>
    have hkeeps := h.session.keeps_callback c hc
    exact ⟨hkeeps.enabled.trans hf.enabled, hf.handled⟩

theorem plain_of_right (hright : ∀ r ∈ (h.frame f).handled, r.Right) : Plain h f := by
  cases f with
  | settings entries =>
    rw [plain_settings_iff]
    intro hhttp2
    have hopen : ¬ h.session.http2 = false := by
      rw [hhttp2]
      exact Bool.noConfusion
    unfold Heard.frame State.callback at hright
    dsimp only [Frame.callback] at hright
    rw [if_neg hopen, if_neg hopen] at hright
    have hlast := (hright _ (mem_append_right _ (mem_singleton_self _))).enabled
    exact ((h.session.keeps_handlePeerSettings (enabledIn entries)).enabled).symm.trans hlast
  | other c hc => trivial

theorem follows_foldl_iff : ∀ (frames : List Frame) {k : Known} {h : Heard}, Follows h → Inv k h.session →
    (Follows (frames.foldl Heard.frame h) ↔ Along Heard.frame Plain h frames)
  | [], _, _, hf, _ => ⟨fun _ => trivial, fun _ => hf⟩
  | f :: frames, k, h, hf, hinv => by
    obtain ⟨n, hnext⟩ : ∃ n, Inv { k with unreturned := n } (h.frame f).session := by
      have hsession : (h.frame f).session = h.session.callback f.callback := Heard.foldl_frame_session [f] h
      rw [hsession]
      exact hinv.callback f.callback
    constructor
    · intro hall
      have hplain : Plain h f := plain_of_right fun r hr =>
        hall.handled r ((Heard.handled_foldl frames _).subset hr)
      exact ⟨hplain, (follows_foldl_iff frames (hf.frame hinv hplain) hnext).1 hall⟩
    · rintro ⟨hplain, hrest⟩
      exact (follows_foldl_iff frames (hf.frame hinv hplain) hnext).2 hrest

/-! ## Runs -/

theorem Heard.step_read (h : Heard) (frames : List Frame) (valid : Bool) (calls : Calls) :
    (h.reading calls = none ∧ (h.step (.read frames valid, calls)).session.peerConnectProtocolEnabled =
      h.session.peerConnectProtocolEnabled ∧
      (h.step (.read frames valid, calls)).value = h.value ∧
      (h.step (.read frames valid, calls)).handled = h.handled) ∨
    ∃ start, h.reading calls = some start ∧
    start = { h with session := { h.session with calls, readInProgress := false } } ∧
      h.step (.read frames valid, calls) =
        { frames.foldl Heard.frame start with session :=
          (frames.foldl Heard.frame start).session.afterRead valid } := by
  by_cases hreading : h.session.readInProgress = false ∨ h.session.stopped ∨ h.session.streamClosed
  · have hnone : h.reading calls = none := if_pos hreading
    refine .inl ⟨hnone, ?_, ?_, ?_⟩
    · change (({ h.session with calls } : State).onRead
        (.bytes (frames.map Frame.callback) valid)).peerConnectProtocolEnabled = _
      unfold State.onRead
      by_cases hidle : h.session.readInProgress = false
      · rw [if_pos hidle]
      · rw [if_neg hidle, if_pos (hreading.resolve_left hidle)]
    · unfold Heard.step
      rw [hnone]
      rfl
    · unfold Heard.step
      rw [hnone]
      rfl
  · have hsome : h.reading calls = some {
      h with session := { h.session with calls, readInProgress := false } } := if_neg hreading
    refine .inr ⟨_, hsome, rfl, ?_⟩
    rw [not_or] at hreading
    unfold Heard.step
    rw [hsome]
    change ({ frames.foldl Heard.frame _ with
      session := ({ h.session with calls } : State).onRead
        (.bytes (frames.map Frame.callback) valid) } : Heard) = _
    rw [Heard.foldl_frame_session]
    unfold State.onRead
    rw [if_neg hreading.1, if_neg hreading.2]
    rfl

theorem follows_step_iff (hf : Follows h) (hinv : Inv { next := h.session.nextExchangeId } h.session)
    (i : Input × Calls) :
    Follows (h.step i) ↔ PlainInput h i := by
  obtain ⟨input, calls⟩ := i
  cases input with
  | read frames valid =>
    rcases h.step_read frames valid calls with
      ⟨hnone, henabled, hvalue, hhandled⟩ | ⟨start, hsome, hstart, hstep⟩
    · refine ⟨fun _ start hsome => ?_, fun _ => ⟨?_, ?_⟩⟩
      · rw [hnone] at hsome
        cases hsome
      · rw [henabled, hvalue]
        exact hf.enabled
      · rw [hhandled]
        exact hf.handled
    · have hfstart : Follows start := by
        rw [hstart]
        exact ⟨hf.enabled, hf.handled⟩
      have hinvstart : Inv { next := h.session.nextExchangeId } start.session := by
        rw [hstart]
        exact { hinv with }
      have hafter : Follows (h.step (.read frames valid, calls)) ↔ Follows (frames.foldl Heard.frame start) := by
        have henabled := ((frames.foldl Heard.frame start).session.keeps_afterRead valid).enabled
        rw [hstep]
        exact ⟨fun hall => ⟨henabled.symm.trans hall.enabled, hall.handled⟩,
          fun hall => ⟨henabled.trans hall.enabled, hall.handled⟩⟩
      rw [hafter, follows_foldl_iff frames hfstart hinvstart]
      constructor
      · intro halong start' hsome'
        rw [Option.some.inj (hsome.symm.trans hsome')] at halong
        exact halong
      · exact fun hplain => hplain start hsome
  | other e he =>
    refine ⟨fun _ => trivial, fun _ => ⟨?_, hf.handled⟩⟩
    exact (State.enabled_handle { h.session with calls } e he).trans hf.enabled

def heard (sent : Sent) : Heard := { session := started sent }

theorem enabled_started (sent : Sent) : (started sent).peerConnectProtocolEnabled = false :=
  ((State.keeps_sendPending _).trans (State.keeps_readResponse _)).enabled

/-- **The session follows its peer's setting** exactly in the runs whose SETTINGS frames meet the
condition. -/
theorem peer_settings_followed_iff (sent : Sent) (l : List (Input × Calls)) :
    (∀ pre, pre <+: l → Follows (run Heard.step (heard sent) pre)) ↔
    Along Heard.step PlainInput (heard sent) l := by
  refine forall_prefix_iff_along (P := fun h => Follows h ∧
    Inv { next := h.session.nextExchangeId } h.session) (fun h hP => hP.1)
    (fun h i hP hplain => ⟨(follows_step_iff hP.1 hP.2 i).2 hplain, ?_⟩)
    (fun h i hP hnot hf => hnot ((follows_step_iff hP.1 hP.2 i).1 hf))
    ⟨⟨enabled_started sent, fun r hr => absurd hr not_mem_nil⟩, started_inv sent⟩ l
  exact hP.2.step (i.1.event, i.2)

/-- The peer enables extended CONNECT, and then sends a SETTINGS frame without the setting: the session
takes it for disabled, and a tunnel that is opened then is refused. -/
theorem omitted_setting_forgotten :
    ¬ Follows (run Heard.step (heard { result := .bytes }) [(.other (.written false) rfl, {}),
      (.read [.settings [⟨kEnableConnectProtocol, 1⟩], .settings [⟨3, 100⟩]] true, {})]) ∧
    ((run Heard.step (heard { result := .bytes }) [(.other (.written false) rfl, {}),
      (.read [.settings [⟨kEnableConnectProtocol, 1⟩], .settings [⟨3, 100⟩]] true, {}),
      (.other (.submitTunnel true 0 none) rfl, {})]).session.pendings 1).answers =
      [.failed .protocolFraming] := by
  refine ⟨fun hf => ?_, by decide +kernel⟩
  exact absurd hf.enabled (by decide +kernel)

end ClashNative.Http2
