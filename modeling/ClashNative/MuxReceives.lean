import ClashNative.V2rayMux
import Mathlib.Algebra.GroupWithZero.Nat
/-!
# MuxReceives — the receiving half of a multiplexed stream

`KcptunMuxStreamState` (`kcptun_session.cpp`) and `WebSocketMuxStreamState` (`websocket_mux.cpp`) read
alike: what frames bring waits in `incoming_`, and a terminal is recorded beside it.  Of the session there
is what it does with a frame of the stream and with its own failure.
-/
namespace ClashNative.MuxReceives

open Wire List
open V2rayMux (kV2rayKeep kV2rayEnd kV2rayData kV2rayError)

abbrev Bytes := List UInt8

/-- The sessions: that of `kcptun_session.cpp`, and that of `websocket_mux.cpp` by its protocol. -/
inductive Protocol
  | kcptun | smux | v2ray
  deriving DecidableEq, Repr

structure Options where
  protocol : Protocol
  smuxVersion : Nat
  streamBuffer : Nat

def Options.smuxV2 (o : Options) : Bool := o.protocol != .v2ray && o.smuxVersion == 2

def kSmuxSyn : UInt8 := 0
def kSmuxFin : UInt8 := 1
def kSmuxPush : UInt8 := 2
def kSmuxNop : UInt8 := 3
def kSmuxUpdate : UInt8 := 4

inductive StreamError
  | operationAborted | alreadyStarted | eof | protocolError | messageSize | carrier
  deriving DecidableEq, Repr

/-- What a read handler was called with.  `ended`: the stream reports its end or its failure; `refused`:
the read was a second one, was cancelled, or found the stream closed by its own side. -/
inductive ReadResult
  | bytes (data : Bytes)
  | ended (error : StreamError)
  | refused (error : StreamError)
  deriving DecidableEq, Repr

def ReadResult.data : ReadResult → Bytes
  | .bytes data => data
  | _ => []

/-- `reader`: the size of the buffer of the read that waits; `incoming`: `incoming_` from
`incoming_offset_` on; `updates`: the UPD frames that were queued; `returning`: the reads whose handler
has not returned, the last one first, and whether each was the first read; `reads`: the reads that are
done; `arrived`: the bytes that came before the terminal; `abandoned`: the stream was closed by its own
side. -/
structure StreamState where
  incoming : Segments UInt8 := ⟨[], fun _ hp => absurd hp List.not_mem_nil⟩
  reader : Option Nat := none
  remoteClosed : Bool := false
  closed : Bool := false
  bytesConsumed : UInt32 := 0
  consumedSinceUpdate : UInt32 := 0
  sessionClosed : Bool := false
  registered : Bool := true
  updates : List (UInt32 × UInt32) := []
  returning : List Bool := []
  reads : List ReadResult := []
  arrived : Bytes := []
  abandoned : Bool := false

namespace StreamState

def returned (s : StreamState) : Bytes := s.reads.flatMap ReadResult.data

def unread (s : StreamState) : Bytes := s.incoming.bytes

def report (s : StreamState) (result : ReadResult) : StreamState := { s with reads := s.reads ++ [result] }

def finishRead (s : StreamState) (result : ReadResult) : StreamState :=
  match s.reader with
  | none => s
  | some _ => ({ s with reader := none }).report result

/-- `deliver_read`, up to the handler that it calls. -/
def deliverRead (o : Options) (s : StreamState) : StreamState :=
  if s.closed then s
  else
    match s.reader with
    | none => s
    | some size =>
      if s.incoming.pieces = [] then
        if s.remoteClosed then s.finishRead (.ended .eof) else s
      else
        let copied := s.incoming.readUpTo size
        let count := if o.smuxV2 then UInt32.ofNat copied.1.length else 0
        ({ s with
          incoming := copied.2
          bytesConsumed := s.bytesConsumed + count
          consumedSinceUpdate := s.consumedSinceUpdate + count
          returning := (s.bytesConsumed == 0) :: s.returning }).finishRead (.bytes copied.1)

/-- The end of `deliver_read`: what was consumed is announced. -/
def handlerReturned (o : Options) (s : StreamState) : StreamState :=
  match s.returning with
  | [] => s
  | firstRead :: others =>
    let s := { s with returning := others }
    if s.closed = false ∧ o.smuxV2 ∧ (firstRead ∨ UInt32.ofNat (o.streamBuffer / 2) ≤ s.consumedSinceUpdate) then
      { s with
        consumedSinceUpdate := 0
        updates := if s.sessionClosed then s.updates else
          s.updates ++ [(s.bytesConsumed, UInt32.ofNat o.streamBuffer)] }
    else s

def readSome (o : Options) (s : StreamState) (size : Nat) : StreamState :=
  if s.closed then s.report (if s.abandoned then .refused .operationAborted else .ended .operationAborted)
  else if s.reader.isSome then s.report (.refused .alreadyStarted)
  else if size = 0 then s.report (.bytes [])
  else ({ s with reader := some size }).deliverRead o

def cancelRead (s : StreamState) : StreamState := s.finishRead (.refused .operationAborted)

def close (s : StreamState) : StreamState :=
  if s.closed then s
  else { ({ s with closed := true, abandoned := true }).finishRead
    (.refused .operationAborted) with registered := false }

def onData (o : Options) (s : StreamState) (payload : Bytes) : StreamState :=
  if s.closed ∨ s.remoteClosed then s
  else ({ s with incoming := s.incoming.snoc payload, arrived := s.arrived ++ payload }).deliverRead o

def onRemoteEnd (o : Options) (s : StreamState) : StreamState :=
  if s.closed then s else ({ s with remoteClosed := true }).deliverRead o

def onSessionError (s : StreamState) (error : StreamError) : StreamState :=
  if s.closed then s else ({ s with closed := true }).finishRead (.ended error)

/-- `fail` of the session, its `close` and its `stop`. -/
def failSession (s : StreamState) (error : StreamError) : StreamState :=
  if s.sessionClosed then s
  else
    let s := { s with sessionClosed := true }
    if s.registered then ({ s with registered := false }).onSessionError error else s

end StreamState

inductive Action
  | data | finish | update | streamError | sessionError | nothing
  deriving DecidableEq, Repr

/-- `handle_frame`, `parse_smux_frame` and `parse_v2ray_frame`, with the command of the frame, or its
status and option. -/
def dispatch (protocol : Protocol) (command option : UInt8) : Action :=
  match protocol with
  | .kcptun =>
    if command = kSmuxNop then .nothing
    else if command = kSmuxPush then .data
    else if command = kSmuxFin then .finish
    else if command = kSmuxUpdate then .update
    else if command ≠ kSmuxSyn then .sessionError
    else .nothing
  | .smux =>
    if command = kSmuxPush then .data
    else if command = kSmuxFin then .finish
    else if command = kSmuxUpdate then .update
    else if command = kSmuxSyn then .sessionError
    else if command ≠ kSmuxNop then .sessionError
    else .nothing
  | .v2ray =>
    if command = kV2rayEnd then .finish
    else if command = kV2rayKeep ∧ option = kV2rayData then .data
    else if command = kV2rayError then .streamError
    else .nothing

namespace StreamState

/-- `on_update`; what it lets the stream send is not here. -/
def onUpdate (o : Options) (s : StreamState) (payload : Bytes) : StreamState :=
  if o.smuxV2 = false ∨ payload.length ≠ 8 ∨ s.closed then s.failSession .protocolError else s

def onFrame (o : Options) (s : StreamState) (command option : UInt8) (payload : Bytes) : StreamState :=
  if s.sessionClosed ∨ s.registered = false then s
  else
    match dispatch o.protocol command option with
    | .data => s.onData o payload
    | .finish => s.onRemoteEnd o
    | .update => s.onUpdate o payload
    | .streamError => s.onSessionError .protocolError
    | .sessionError => s.failSession .protocolError
    | .nothing => s

end StreamState

inductive Event
  | read (size : Nat)
  | cancel
  | close
  | frame (command option : UInt8) (payload : Bytes)
  | sessionFailed (error : StreamError)
  | handlerReturned
  deriving DecidableEq, Repr

def StreamState.step (o : Options) (s : StreamState) : Event → StreamState
  | .read size => s.readSome o size
  | .cancel => s.cancelRead
  | .close => s.close
  | .frame command option payload => s.onFrame o command option payload
  | .sessionFailed error => s.failSession error
  | .handlerReturned => s.handlerReturned o

/-- A stream that is handed out: what came before, and whether the remote side has ended it already. -/
def handedOut (early : Segments UInt8) (ended : Bool) : StreamState :=
  { incoming := early, remoteClosed := ended, arrived := early.bytes }

def run (o : Options) (early : Segments UInt8) (ended : Bool) (events : List Event) : StreamState :=
  Runs.run (StreamState.step o) (handedOut early ended) events

namespace StreamState

/-! ## What is promised -/

def readAll (o : Options) (s : StreamState) (sizes : List Nat) : StreamState := sizes.foldl (readSome o) s

/-- **Nothing that arrived is lost**: it was returned, or is there; a terminal was reported after all of
it; and the reads to come return what is there, in order. -/
structure Drains (o : Options) (s : StreamState) : Prop where
  order : s.returned ++ s.unread = s.arrived
  last : ∀ before error after, s.reads = before ++ .ended error :: after →
    before.flatMap ReadResult.data = s.arrived
  later : s.abandoned = false → ∀ sizes, (s.readAll o sizes).returned = s.returned ++ s.unread.take sizes.sum

def Fatal (o : Options) (command option : UInt8) (payload : Bytes) : Prop :=
  dispatch o.protocol command option = .streamError ∨ dispatch o.protocol command option = .sessionError ∨
    dispatch o.protocol command option = .update ∧ (o.smuxV2 = false ∨ payload.length ≠ 8)

def Takes (o : Options) (s : StreamState) : Event → Prop
  | .sessionFailed _ => s.sessionClosed = false ∧ s.registered = true ∧ s.closed = false
  | .frame command option payload =>
    Fatal o command option payload ∧ s.sessionClosed = false ∧ s.registered = true ∧ s.closed = false
  | _ => False

/-- **The condition of a step**: no failure takes the stream down while it has unread bytes. -/
def Meets (o : Options) (s : StreamState) (e : Event) : Prop := s.Takes o e → s.unread = []

/-! ## What reads leave -/

structure Inv (s : StreamState) : Prop where
  order : s.returned ++ s.unread = s.arrived
  parked : s.reader ≠ none → s.closed = false ∧ s.remoteClosed = false ∧ s.unread = []
  last : ∀ before error after, s.reads = before ++ .ended error :: after →
    before.flatMap ReadResult.data = s.arrived
  finished : ∀ error, .ended error ∈ s.reads → s.closed = true ∨ s.remoteClosed = true
  failed : s.closed = true → s.abandoned = false → s.unread = []
  abandoned : s.abandoned = true → s.closed = true

variable {o : Options} {s : StreamState}

theorem returned_report (s : StreamState) (result : ReadResult) :
    (s.report result).returned = s.returned ++ result.data := by
  simp [returned, report]

theorem last_snoc {reads : List ReadResult} {arrived : Bytes} {result : ReadResult}
    (h : ∀ before error after, reads = before ++ .ended error :: after →
      before.flatMap ReadResult.data = arrived)
    (hresult : ∀ error, result = .ended error → reads.flatMap ReadResult.data = arrived) :
    ∀ before error after, reads ++ [result] = before ++ .ended error :: after →
    before.flatMap ReadResult.data = arrived := by
  intro before error after heq
  rcases eq_nil_or_concat after with rfl | ⟨after, x, rfl⟩
  · obtain ⟨rfl, hlast⟩ := append_inj' heq rfl
    exact hresult error (singleton_inj.1 hlast)
  · rw [concat_eq_append, ← cons_append, ← append_assoc] at heq
    exact h before error after (append_inj_left' heq rfl)

theorem report_inv (h : s.Inv) (result : ReadResult) (hdata : result.data = [])
    (hended : ∀ error, result = .ended error → s.unread = [] ∧ (s.closed = true ∨ s.remoteClosed = true)) :
    (s.report result).Inv := by
  refine ⟨?_, h.parked, last_snoc h.last fun error he => ?_, fun error hmem => ?_, h.failed, h.abandoned⟩
  · rw [returned_report, hdata, append_nil]
    exact h.order
  · have horder := h.order
    rw [(hended error he).1, append_nil] at horder
    exact horder
  · rcases mem_append.1 hmem with hmem | hmem
    · exact h.finished error hmem
    · exact (hended error (mem_singleton.1 hmem).symm).2

theorem deliverRead_of_unread {size : Nat} (hopen : s.closed = false) (hreader : s.reader = some size)
    (hunread : s.unread ≠ []) :
    (s.deliverRead o).reads = s.reads ++ [.bytes (s.unread.take size)] ∧
    (s.deliverRead o).unread = s.unread.drop size ∧
      (s.deliverRead o).reader = none ∧ (s.deliverRead o).closed = s.closed ∧
      (s.deliverRead o).remoteClosed = s.remoteClosed ∧ (s.deliverRead o).arrived = s.arrived ∧
      (s.deliverRead o).abandoned = s.abandoned := by
  have hpieces : s.incoming.pieces ≠ [] := fun hnil => hunread ((Segments.pieces_eq_nil _).1 hnil)
  obtain ⟨hfirst, hsecond⟩ := Segments.readUpTo_bytes size s.incoming
  unfold deliverRead
  rw [if_neg (by simp [hopen]), hreader]
  dsimp only
  rw [if_neg hpieces]
  exact ⟨by rw [hfirst]; rfl, hsecond, rfl, rfl, rfl, rfl, rfl⟩

theorem deliverRead_none (hreader : s.reader = none) : s.deliverRead o = s := by
  unfold deliverRead
  rw [hreader]
  exact ite_self s

theorem deliverRead_inv (order : s.returned ++ s.unread = s.arrived)
    (last : ∀ before error after, s.reads = before ++ .ended error :: after →
      before.flatMap ReadResult.data = s.arrived)
    (finished : ∀ error, .ended error ∈ s.reads → s.closed = true ∨ s.remoteClosed = true)
    (failed : s.closed = true → s.abandoned = false → s.unread = []) (abandoned : s.abandoned = true →
      s.closed = true)
    (parked : s.reader ≠ none → s.closed = false) : (s.deliverRead o).Inv := by
  cases hreader : s.reader with
  | none =>
    rw [deliverRead_none hreader]
    exact ⟨order, fun hsome => absurd hreader hsome, last, finished, failed, abandoned⟩
  | some size =>
    have hopen : s.closed = false := parked (by rw [hreader]; exact Option.some_ne_none size)
    by_cases hunread : s.unread = []
    · have hpieces : s.incoming.pieces = [] := (Segments.pieces_eq_nil _).2 hunread
      unfold deliverRead
      rw [if_neg (by simp [hopen]), hreader]
      dsimp only
      rw [if_pos hpieces]
      split
      · rename_i hremote
        unfold finishRead
        rw [hreader]
        have hanswered : ({ s with reader := none } : StreamState).Inv :=
          ⟨order, fun hsome => absurd rfl hsome, last, finished, failed, abandoned⟩
        exact report_inv hanswered (.ended .eof) rfl fun _ _ => ⟨hunread, .inr hremote⟩
      · rename_i hremote
        exact ⟨order, fun _ => ⟨hopen, by simpa using hremote, hunread⟩, last, finished, failed, abandoned⟩
    · obtain ⟨hreads, hleft, hnone, hclosed, hremote, harrived, habandoned⟩ :=
        deliverRead_of_unread (o := o) hopen hreader hunread
      refine ⟨?_, fun hsome => absurd hnone hsome, ?_, fun error hmem => ?_, fun hclosing => ?_, ?_⟩
      · rw [returned, hreads, flatMap_append, hleft, harrived, ← order, append_assoc]
        show s.returned ++ ((s.unread.take size ++ []) ++ s.unread.drop size) = _
        rw [append_nil, take_append_drop]
      · rw [hreads, harrived]
        exact last_snoc last nofun
      · rw [hreads] at hmem
        rw [hclosed, hremote]
        rcases mem_append.1 hmem with hmem | hmem
        · exact finished error hmem
        · exact nomatch mem_singleton.1 hmem
      · rw [hclosed, hopen] at hclosing
        cases hclosing
      · rw [habandoned, hclosed]
        exact abandoned

/-! ## A step -/

theorem readSome_inv (h : s.Inv) (size : Nat) : (s.readSome o size).Inv := by
  unfold readSome
  split
  · rename_i hclosed
    split
    · exact report_inv h _ rfl nofun
    · rename_i hours
      exact report_inv h _ rfl fun _ _ => ⟨h.failed hclosed (by simpa using hours), .inl hclosed⟩
  · rename_i hopen
    split
    · exact report_inv h _ rfl nofun
    · split
      · exact report_inv h _ rfl nofun
      · exact deliverRead_inv h.order h.last h.finished h.failed h.abandoned fun _ => by simpa using hopen

theorem finishRead_inv (h : s.Inv) (result : ReadResult) (hdata : result.data = [])
    (hended : ∀ error, result = .ended error → s.unread = [] ∧ (s.closed = true ∨ s.remoteClosed = true)) :
    (s.finishRead result).Inv := by
  have hanswered : ({ s with reader := none } : StreamState).Inv :=
    { h with parked := fun hsome => absurd rfl hsome }
  unfold finishRead
  split
  · exact h
  · exact report_inv hanswered result hdata hended

theorem cancelRead_inv (h : s.Inv) : s.cancelRead.Inv := finishRead_inv h _ rfl fun _ he => nomatch he

theorem handlerReturned_inv (h : s.Inv) : (s.handlerReturned o).Inv := by
  unfold handlerReturned
  split
  · exact h
  · dsimp only
    split <;> exact { h with }

theorem shut_inv (h : s.Inv) (ours : Bool) (result : ReadResult) (hdata : result.data = [])
    (hours : ours = false → s.abandoned = false → s.unread = []) (hended : ∀ error, result = .ended error →
      s.unread = []) :
    (({ s with closed := true, abandoned := ours || s.abandoned } : StreamState).finishRead result).Inv := by
  have hfailed : (ours || s.abandoned) = false → s.unread = [] := fun hnot =>
    hours (Bool.or_eq_false_iff.1 hnot).1 (Bool.or_eq_false_iff.1 hnot).2
  have hanswered : ({ s with closed := true, abandoned := ours || s.abandoned, reader := none } :
    StreamState).Inv :=
    ⟨h.order, fun hsome => absurd rfl hsome, h.last, fun _ _ => .inl rfl, fun _ => hfailed, fun _ => rfl⟩
  unfold finishRead
  split
  · rename_i hreader
    exact ⟨h.order, fun hsome => absurd hreader hsome, h.last, fun _ _ => .inl rfl, fun _ => hfailed,
      fun _ => rfl⟩
  · exact report_inv hanswered result hdata fun error he => ⟨hended error he, .inl rfl⟩

theorem close_inv (h : s.Inv) : s.close.Inv := by
  unfold close
  split
  · exact h
  · have hshut := shut_inv h true (.refused .operationAborted) rfl (nofun) nofun
    exact { hshut with }

theorem onSessionError_inv (h : s.Inv) (error : StreamError) (hmeets : s.closed = false → s.unread = []) :
    (s.onSessionError error).Inv := by
  unfold onSessionError
  split
  · exact h
  · rename_i hopen
    have hunread : s.unread = [] := hmeets (by simpa using hopen)
    exact shut_inv h false (.ended error) rfl (fun _ _ => hunread) fun _ _ => hunread

theorem failSession_inv (h : s.Inv) (error : StreamError)
    (hmeets : s.sessionClosed = false ∧ s.registered = true ∧ s.closed = false → s.unread = []) :
    (s.failSession error).Inv := by
  have hsame : ∀ sessionClosed registered,
    ({ s with sessionClosed := sessionClosed, registered := registered } : StreamState).Inv :=
    fun _ _ => { h with }
  unfold failSession
  split
  · exact h
  · rename_i hlive
    dsimp only
    split
    · rename_i hregistered
      exact onSessionError_inv (hsame true false) error fun hopen =>
        hmeets ⟨by simpa using hlive, hregistered, hopen⟩
    · exact hsame true s.registered

theorem onData_inv (h : s.Inv) (payload : Bytes) : (s.onData o payload).Inv := by
  unfold onData
  split
  · exact h
  · rename_i hopen
    rw [not_or] at hopen
    have hnever : ∀ error, ReadResult.ended error ∉ s.reads := fun error hmem =>
      (h.finished error hmem).elim hopen.1 hopen.2
    refine deliverRead_inv ?_ (fun before error after heq => absurd ?_ (hnever error)) h.finished
      (fun hclosed => absurd hclosed hopen.1)
      h.abandoned fun hsome => (h.parked hsome).1
    · show s.returned ++ (s.incoming.snoc payload).bytes = s.arrived ++ payload
      rw [Segments.snoc_bytes, ← append_assoc]
      exact congrArg (· ++ payload) h.order
    · rw [show s.reads = before ++ .ended error :: after from heq]
      exact mem_append_right before mem_cons_self

theorem onRemoteEnd_inv (h : s.Inv) : (s.onRemoteEnd o).Inv := by
  unfold onRemoteEnd
  split
  · exact h
  · exact deliverRead_inv h.order h.last (fun error hmem => .inr rfl) h.failed h.abandoned fun hsome =>
      (h.parked hsome).1

theorem onFrame_inv (h : s.Inv) {command option : UInt8} {payload : Bytes}
    (hmeets : s.Meets o (.frame command option payload)) :
    (s.onFrame o command option payload).Inv := by
  unfold onFrame
  split
  · exact h
  · rename_i hlive
    have hlive : s.sessionClosed = false ∧ s.registered = true := by simpa using hlive
    cases haction : dispatch o.protocol command option with
    | data => exact onData_inv h payload
    | finish => exact onRemoteEnd_inv h
    | update =>
      dsimp only
      unfold onUpdate
      split
      · rename_i hbad
        refine failSession_inv h _ fun hopen => hmeets ⟨.inr (.inr ⟨haction, ?_⟩), hopen⟩
        rcases hbad with hold | hlength | hclosed
        · exact .inl hold
        · exact .inr hlength
        · rw [hopen.2.2] at hclosed
          cases hclosed
      · exact h
    | streamError => exact onSessionError_inv h _ fun hopen => hmeets ⟨.inl haction, hlive.1, hlive.2, hopen⟩
    | sessionError => exact failSession_inv h _ fun hopen => hmeets ⟨.inr (.inl haction), hopen⟩
    | nothing => exact h

theorem step_inv (h : s.Inv) (e : Event) (hmeets : s.Meets o e) : (s.step o e).Inv := by
  cases e with
  | read size => exact readSome_inv h size
  | cancel => exact cancelRead_inv h
  | close => exact close_inv h
  | frame command option payload => exact onFrame_inv h hmeets
  | sessionFailed error => exact failSession_inv h error hmeets
  | handlerReturned => exact handlerReturned_inv h

theorem inv_handedOut (early : Segments UInt8) (ended : Bool) : (handedOut early ended).Inv where
  order := rfl
  parked hsome := absurd rfl hsome
  last before error after heq := by
    have hnil : ([] : List ReadResult) = before ++ .ended error :: after := heq
    simp at hnil
  finished error hmem := nomatch hmem
  failed hclosed := nomatch hclosed
  abandoned hours := nomatch hours

/-! ## The reads to come -/

theorem readSome_takes (h : s.Inv) (hours : s.abandoned = false) (size : Nat) :
    (s.readSome o size).returned = s.returned ++ s.unread.take size ∧
    (s.readSome o size).unread = s.unread.drop size ∧
      (s.readSome o size).abandoned = false := by
  have hidle : ∀ result : ReadResult, result.data = [] → (s.unread = [] ∨ size = 0) →
      (s.report result).returned = s.returned ++ s.unread.take size ∧
      (s.report result).unread = s.unread.drop size ∧
        (s.report result).abandoned = false := by
    intro result hdata hnone
    have hsplit : s.unread.take size = [] ∧ s.unread.drop size = s.unread := by
      rcases hnone with hunread | rfl
      · rw [hunread]
        exact ⟨take_nil, drop_nil⟩
      · exact ⟨take_zero, drop_zero⟩
    rw [returned_report, hdata, hsplit.1, hsplit.2]
    exact ⟨rfl, rfl, hours⟩
  by_cases hclosed : s.closed = true
  · unfold readSome
    rw [if_pos hclosed, hours]
    exact hidle _ rfl (.inl (h.failed hclosed hours))
  · by_cases hparked : s.reader.isSome = true
    · unfold readSome
      rw [if_neg hclosed, if_pos hparked]
      exact hidle _ rfl (.inl (h.parked (Option.isSome_iff_ne_none.1 hparked)).2.2)
    · by_cases hzero : size = 0
      · unfold readSome
        rw [if_neg hclosed, if_neg hparked, if_pos hzero]
        exact hidle _ rfl (.inr hzero)
      · have hopen : s.closed = false := by simpa using hclosed
        have hread : s.readSome o size = ({ s with reader := some size } : StreamState).deliverRead o := by
          unfold readSome
          rw [if_neg hclosed, if_neg hparked, if_neg hzero]
        rw [hread]
        by_cases hunread : s.unread = []
        · have hpieces : s.incoming.pieces = [] := (Segments.pieces_eq_nil _).2 hunread
          unfold deliverRead
          rw [if_neg hclosed]
          dsimp only
          rw [if_pos hpieces]
          split
          · exact hidle (.ended .eof) rfl (.inl hunread)
          · rw [hunread, take_nil, drop_nil, append_nil]
            exact ⟨rfl, hunread, hours⟩
        · obtain ⟨hreads, hleft, -, -, -, -, habandoned⟩ := deliverRead_of_unread (o := o)
            (s := ({ s with reader := some size } : StreamState)) hopen rfl hunread
          refine ⟨?_, hleft, habandoned.trans hours⟩
          rw [returned, hreads]
          exact returned_report s (.bytes (s.unread.take size))

theorem readAll_takes : ∀ (sizes : List Nat) (s : StreamState), s.Inv → s.abandoned = false →
    (s.readAll o sizes).returned = s.returned ++ s.unread.take sizes.sum
  | [], s, _, _ => by
    rw [sum_nil, take_zero, append_nil]
    rfl
  | size :: sizes, s, h, hours => by
    obtain ⟨hreturned, hleft, hstill⟩ := readSome_takes (o := o) h hours size
    have hrest := readAll_takes sizes (s.readSome o size) (readSome_inv h size) hstill
    rw [hreturned, hleft, append_assoc, ← take_add] at hrest
    exact hrest

theorem Inv.drains (h : s.Inv) : s.Drains o := { h with
  later := fun hours sizes => readAll_takes sizes s h hours }

/-! ## A failure with unread bytes -/

theorem not_drains_of_failed (hclosed : s.closed = true) (hours : s.abandoned = false)
    (hunread : s.unread ≠ []) :
    ¬ s.Drains o := by
  intro h
  have hread : s.readAll o [s.unread.length] = s.report (.ended .operationAborted) := by
    show s.readSome o s.unread.length = _
    unfold readSome
    rw [if_pos hclosed, hours]
    rfl
  have hlater := h.later hours [s.unread.length]
  rw [hread, returned_report, sum_singleton, take_length] at hlater
  exact hunread (append_cancel_left hlater).symm

theorem onSessionError_closed (hopen : s.closed = false) (error : StreamError) :
    (s.onSessionError error).closed = true ∧ (s.onSessionError error).abandoned = s.abandoned ∧
      (s.onSessionError error).unread = s.unread := by
  unfold onSessionError
  rw [if_neg (by simp [hopen])]
  unfold finishRead
  split <;> exact ⟨rfl, rfl, rfl⟩

theorem failSession_closed (hlive : s.sessionClosed = false) (hregistered : s.registered = true)
    (hopen : s.closed = false)
    (error : StreamError) :
    (s.failSession error).closed = true ∧ (s.failSession error).abandoned = s.abandoned ∧
      (s.failSession error).unread = s.unread := by
  unfold failSession
  rw [if_neg (by simp [hlive])]
  rw [if_pos hregistered]
  exact onSessionError_closed (s := ({ s with sessionClosed := true, registered := false } :
    StreamState)) hopen error

variable {e : Event}

theorem step_takes (h : s.Takes o e) :
    (s.step o e).closed = true ∧ (s.step o e).abandoned = s.abandoned ∧ (s.step o e).unread = s.unread := by
  cases e with
  | sessionFailed error => exact failSession_closed h.1 h.2.1 h.2.2 error
  | frame command option payload =>
    obtain ⟨hfatal, hlive, hregistered, hopen⟩ := h
    show (s.onFrame o command option payload).closed = true ∧
      (s.onFrame o command option payload).abandoned = s.abandoned ∧
      (s.onFrame o command option payload).unread = s.unread
    unfold onFrame
    rw [if_neg (by rw [hlive, hregistered]; exact fun hnot => hnot.elim Bool.noConfusion Bool.noConfusion)]
    rcases hfatal with hfatal | hfatal | ⟨hfatal, hbad⟩ <;> rw [hfatal] <;> dsimp only
    · exact onSessionError_closed hopen .protocolError
    · exact failSession_closed hlive hregistered hopen .protocolError
    · unfold onUpdate
      rw [if_pos (hbad.imp id .inl)]
      exact failSession_closed hlive hregistered hopen .protocolError
  | read size => exact h.elim
  | cancel => exact h.elim
  | close => exact h.elim
  | handlerReturned => exact h.elim

theorem takes_open (h : s.Takes o e) : s.closed = false := by
  cases e with
  | sessionFailed error => exact h.2.2
  | frame command option payload => exact h.2.2.2
  | read size => exact h.elim
  | cancel => exact h.elim
  | close => exact h.elim
  | handlerReturned => exact h.elim

theorem not_drains_step (h : s.Inv) (e : Event) (hmeets : ¬ s.Meets o e) : ¬ (s.step o e).Drains o := by
  obtain ⟨htakes, hunread⟩ := Classical.not_imp.1 hmeets
  obtain ⟨hclosed, habandoned, hkept⟩ := step_takes htakes
  have hours : s.abandoned = false := by
    cases hours : s.abandoned with
    | false => rfl
    | true => exact absurd ((h.abandoned hours).symm.trans (takes_open htakes)) Bool.noConfusion
  exact not_drains_of_failed hclosed (habandoned.trans hours) (by rw [hkept]; exact hunread)

end StreamState

/-- The carrier ends while three bytes wait: the read that comes then is told of the failure, and the
bytes are not returned. -/
theorem carrier_end_loses_bytes :
    let o : Options := ⟨.kcptun, 1, 4194304⟩
    let s := run o ⟨[], fun _ hp => absurd hp not_mem_nil⟩ false
      [.frame kSmuxPush 0 [1, 2, 3], .sessionFailed .eof, .read 16]
    s.reads = [.ended .operationAborted] ∧ s.arrived = [1, 2, 3] ∧ ¬ s.Drains o := by
  refine ⟨rfl, rfl, fun h => ?_⟩
  exact absurd (h.last [] .operationAborted [] rfl) (by decide)

/-- **In every state of a run all that arrived before the terminal is returned before it, if and only if**
no failure of the run takes the stream down while it has unread bytes. -/
theorem drains_iff_meets (o : Options) (early : Segments UInt8) (ended : Bool) (events : List Event) :
    (∀ before, before <+: events → (run o early ended before).Drains o) ↔
      Runs.Along (StreamState.step o) (StreamState.Meets o) (handedOut early ended) events :=
  Runs.forall_prefix_iff_along (P := StreamState.Inv) (fun _ h => h.drains)
    (fun _ e h hmeets => StreamState.step_inv h e hmeets)
    (fun _ e h hmeets => StreamState.not_drains_step h e hmeets) (StreamState.inv_handedOut early ended) events

end ClashNative.MuxReceives
