import ClashNative.KcptunMuxStream
import ClashNative.MuxReceives
/-!
# SmuxFlow — the two ends of a SMUX v2 stream

`deliver_read` of the streams in `kcptun_session.cpp`, `kcptun.cpp` and `websocket_mux.cpp`: how much a
read takes and when it sends an UPD frame, with the window of the sender at the other end.  Every frame
arrives, in order.  A handler may read again before it returns.  The steps are those of the streams
(`between`).
-/
namespace ClashNative.SmuxFlow

open List

open SendWindow (Counters)
open Kcptun.Mux (initialPeerWindow)

/-- `pushed`: how many bytes are under way; `reading`: the `first_read` of each read whose handler has not
returned. -/
structure Flow where
  sender : Counters := ⟨0, 0, initialPeerWindow⟩
  pushed : Nat := 0
  incoming : Nat := 0
  bytesConsumed : UInt32 := 0
  consumedSinceUpdate : UInt32 := 0
  reading : List Bool := []
  updates : List (UInt32 × UInt32) := []

inductive Event
  | push (count : Nat)
  | arrive (count : Nat)
  | read (size : Nat)
  | returned
  | update
  deriving DecidableEq, Repr

def step (streamBuffer : Nat) (s : Flow) : Event → Flow
  | .push count =>
    if s.sender.Shut then s
    else
      { s with sender := s.sender.send (min count s.sender.room), pushed := s.pushed + min count s.sender.room }
  | .arrive count =>
    { s with pushed := s.pushed - min count s.pushed, incoming := s.incoming + min count s.pushed }
  | .read size =>
    if s.incoming = 0 then s
    else
      let copied := min size s.incoming
      { s with
        incoming := s.incoming - copied
        bytesConsumed := s.bytesConsumed + UInt32.ofNat copied
        consumedSinceUpdate := s.consumedSinceUpdate + UInt32.ofNat copied
        reading := (s.bytesConsumed == 0) :: s.reading }
  | .returned =>
    match s.reading with
    | [] => s
    | firstRead :: reading =>
      if firstRead = true ∨ UInt32.ofNat (streamBuffer / 2) ≤ s.consumedSinceUpdate then
        { s with
          reading, consumedSinceUpdate := 0
          updates := s.updates ++ [(s.bytesConsumed, UInt32.ofNat streamBuffer)] }
      else { s with reading }
  | .update =>
    match s.updates with
    | [] => s
    | (consumed, window) :: updates => { s with sender := s.sender.update consumed window, updates }

def run (streamBuffer : Nat) (events : List Event) : Flow := Runs.run (step streamBuffer) {} events

/-- Something is still to come: bytes, the end of a read or an UPD frame. -/
def Flow.Moves (s : Flow) : Prop := 0 < s.pushed ∨ 0 < s.incoming ∨ s.reading ≠ [] ∨ s.updates ≠ []

/-- **What the ends owe each other**: a sender whose window is shut waits for something that comes, and
the reader never has to keep more than the larger of its window and the one the sender starts with. -/
structure Flow.Sound (streamBuffer : Nat) (s : Flow) : Prop where
  moves : s.sender.Shut → s.Moves
  bounded : s.pushed + s.incoming ≤ max streamBuffer initialPeerWindow.toNat

/-- The counters without their wrapping: what the sender has `heard` was consumed, if anything, what the
UPD frames under way say, what was `consumed` and what was `sent`. -/
structure Books (buffer : Nat) (s : Flow) (heard : Option Nat) (reports : List Nat)
    (consumed sent : Nat) : Prop where
  total : consumed + s.incoming + s.pushed = sent
  counted : s.sender.sent = UInt32.ofNat sent
  peer : s.sender.consumed = UInt32.ofNat (heard.getD 0)
  window : s.sender.window = if heard.isSome then UInt32.ofNat buffer else initialPeerWindow
  ahead : sent ≤ heard.getD 0 + max buffer initialPeerWindow.toNat
  bytes : s.bytesConsumed = UInt32.ofNat consumed
  updates : s.updates = reports.map fun r => (UInt32.ofNat r, UInt32.ofNat buffer)
  sorted : (heard.getD 0 :: reports).Pairwise (· ≤ ·)
  behind : ∀ r ∈ heard.getD 0 :: reports, r ≤ consumed
  since : s.consumedSinceUpdate = UInt32.ofNat (consumed - reports.getLastD (heard.getD 0))
  told : s.reading = [] → consumed - reports.getLastD (heard.getD 0) ≤ buffer / 2
  first : heard = none → reports = [] → consumed = 0 ∨ true ∈ s.reading

namespace Books

variable {buffer : Nat} {s : Flow} {heard : Option Nat} {reports : List Nat} {consumed sent : Nat}
    (h : Books buffer s heard reports consumed sent)

include h

theorem heard_le : heard.getD 0 ≤ reports.getLastD (heard.getD 0) := by
  rcases mem_cons.1 (getLastD_mem_cons : reports.getLastD (heard.getD 0) ∈ heard.getD 0 :: reports)
    with heq | hmem
  · exact Nat.le_of_eq heq.symm
  · exact rel_of_pairwise_cons h.sorted hmem

theorem inFlight (hfits : buffer < 2 ^ 32) :
    s.sender.inFlight.toNat = sent - heard.getD 0 := by
  have hle := h.behind _ mem_cons_self
  have htotal := h.total
  have hahead := h.ahead
  rw [show initialPeerWindow.toNat = 262144 from rfl] at hahead
  unfold Counters.inFlight
  rw [h.counted, h.peer, UInt32.toNat_sub, UInt32.toNat_ofNat', UInt32.toNat_ofNat']
  omega

theorem window_le (hfits : buffer < 2 ^ 32) :
    s.sender.window.toNat ≤ max buffer initialPeerWindow.toNat := by
  rw [h.window]
  split
  · rw [UInt32.toNat_ofNat_of_lt' hfits]
    exact Nat.le_max_left _ _
  · exact Nat.le_max_right _ _

theorem sound (hpos : 0 < buffer) (hfits : buffer < 2 ^ 32) :
    s.Sound buffer := by
  have hle := h.behind _ mem_cons_self
  have htotal := h.total
  have hahead := h.ahead
  refine ⟨fun hshut => ?_, by omega⟩
  by_contra hstill
  obtain ⟨hpushed, hincoming, hreading, hupdates⟩ : s.pushed = 0 ∧ s.incoming = 0 ∧ s.reading = [] ∧
    s.updates = [] := by
    simpa [Flow.Moves] using hstill
  obtain rfl := map_eq_nil_iff.1 (h.updates.symm.trans hupdates)
  have htold := h.told hreading
  unfold Counters.Shut at hshut
  rw [UInt32.le_iff_toNat_le, h.inFlight hfits, h.window] at hshut
  cases heard with
  | none =>
    have hzero := (h.first rfl rfl).resolve_right (by rw [hreading]; nofun)
    have hinitial : (if (none : Option Nat).isSome then UInt32.ofNat buffer else initialPeerWindow).toNat =
      262144 := rfl
    omega
  | some r =>
    rw [if_pos Option.isSome_some, UInt32.toNat_ofNat_of_lt' hfits] at hshut
    simp only [getLastD_nil, Option.getD_some] at htold hle hshut
    omega

theorem push (hfits : buffer < 2 ^ 32) (hopen : ¬ s.sender.Shut) {count : Nat}
    (hcount : count ≤ s.sender.room) : Books buffer {
      s with sender := s.sender.send count, pushed := s.pushed + count }
      heard reports consumed (sent + count) := by
  have hle := h.behind _ mem_cons_self
  have htotal := h.total
  refine ⟨by rw [← htotal]; exact Nat.add_assoc _ s.pushed count |>.symm, ?_, h.peer, h.window, ?_, h.bytes,
    h.updates, h.sorted, h.behind, h.since,
    h.told, h.first⟩
  · dsimp only [Counters.send]
    rw [h.counted, UInt32.ofNat_add]
  · have hwindow := h.window_le hfits
    have hflight := h.inFlight hfits
    unfold Counters.Shut at hopen
    rw [UInt32.not_le, UInt32.lt_iff_toNat_lt] at hopen
    unfold Counters.room at hcount
    rw [UInt32.toNat_sub_of_le _ _ (UInt32.le_iff_toNat_le.2 (Nat.le_of_lt hopen))] at hcount
    omega

theorem read {copied : Nat} (hcopied : copied ≤ s.incoming) :
    Books buffer
      { s with
        incoming := s.incoming - copied
        bytesConsumed := s.bytesConsumed + UInt32.ofNat copied
        consumedSinceUpdate := s.consumedSinceUpdate + UInt32.ofNat copied
        reading := (s.bytesConsumed == 0) :: s.reading } heard reports (consumed + copied) sent where
  total := by
    have htotal := h.total
    dsimp only
    omega
  counted := h.counted
  peer := h.peer
  window := h.window
  ahead := h.ahead
  bytes := by rw [h.bytes, UInt32.ofNat_add]
  updates := h.updates
  sorted := h.sorted
  behind r hr := Nat.le_add_right_of_le (h.behind r hr)
  since := by
    have hlast := h.behind _ (getLastD_mem_cons : reports.getLastD (heard.getD 0) ∈ heard.getD 0 :: reports)
    rw [h.since, ← UInt32.ofNat_add, Nat.sub_add_comm hlast]
  told := nofun
  first hnone hempty := by
    obtain hzero | hfirst := h.first hnone hempty
    · refine .inr ?_
      rw [h.bytes, hzero]
      exact mem_cons_self
    · exact .inr (mem_cons_of_mem _ hfirst)

theorem returned (reading : List Bool) :
    Books buffer
      { s with
        reading, consumedSinceUpdate := 0
        updates := s.updates ++ [(s.bytesConsumed, UInt32.ofNat buffer)] } heard (reports ++
          [consumed]) consumed sent where
  total := h.total
  counted := h.counted
  peer := h.peer
  window := h.window
  ahead := h.ahead
  bytes := h.bytes
  updates := by rw [h.updates, h.bytes, map_append]; rfl
  sorted := pairwise_append.2 ⟨h.sorted, pairwise_singleton _ _,
    fun r hr c hc => mem_singleton.1 hc ▸ h.behind r hr⟩
  behind r hr := by
    rcases mem_append.1 (show r ∈ (heard.getD 0 :: reports) ++ [consumed] from hr) with hr | hr
    · exact h.behind r hr
    · exact Nat.le_of_eq (mem_singleton.1 hr)
  since := by rw [getLastD_concat, Nat.sub_self]; rfl
  told _ := by
    rw [getLastD_concat, Nat.sub_self]
    exact Nat.zero_le _
  first _ hempty := absurd hempty (by simp)

theorem step (hfits : buffer < 2 ^ 32) (e : Event) :
    ∃ heard' reports' consumed' sent', Books buffer (step buffer s e) heard' reports' consumed' sent' := by
  cases e with
  | push count =>
    rw [SmuxFlow.step]
    split
    · exact ⟨_, _, _, _, h⟩
    · exact ⟨_, _, _, _, h.push hfits ‹_› (Nat.min_le_right _ _)⟩
  | arrive count =>
    have htotal := h.total
    exact ⟨heard, reports, consumed, sent,
      by dsimp only [SmuxFlow.step]; omega, h.counted, h.peer, h.window, h.ahead, h.bytes, h.updates, h.sorted,
      h.behind, h.since, h.told, h.first⟩
  | read size =>
    rw [SmuxFlow.step]
    split
    · exact ⟨_, _, _, _, h⟩
    · exact ⟨_, _, _, _, h.read (Nat.min_le_right _ _)⟩
  | returned =>
    rw [SmuxFlow.step]
    split
    · exact ⟨_, _, _, _, h⟩
    · rename_i firstRead reading hreading
      split
      · exact ⟨_, _, _, _, h.returned reading⟩
      · rename_i hkept
        obtain ⟨hfirst, hfew⟩ := not_or.1 hkept
        refine ⟨heard, reports, consumed, sent, h.total, h.counted, h.peer, h.window, h.ahead, h.bytes,
          h.updates, h.sorted, h.behind, h.since,
          fun _ => ?_, fun hnone hempty => (h.first hnone hempty).imp_right fun hmem => ?_⟩
        · rw [UInt32.not_le, UInt32.lt_iff_toNat_lt, h.since, UInt32.toNat_ofNat', UInt32.toNat_ofNat'] at hfew
          have hle := h.heard_le
          have htotal := h.total
          have hahead := h.ahead
          rw [show initialPeerWindow.toNat = 262144 from rfl] at hahead
          omega
        · rw [hreading] at hmem
          exact (mem_cons.1 hmem).resolve_left fun heq => hfirst heq.symm
  | update =>
    rw [SmuxFlow.step]
    split
    · exact ⟨_, _, _, _, h⟩
    · rename_i c w updates hupdates
      cases reports with
      | nil => cases hupdates.symm.trans h.updates
      | cons r rs =>
        obtain ⟨hhead, hrest⟩ := List.cons.inj (hupdates.symm.trans h.updates)
        obtain ⟨rfl, rfl⟩ := Prod.mk.inj hhead
        have hsince := h.since
        have htold := h.told
        have hheard : heard.getD 0 ≤ r := rel_of_pairwise_cons h.sorted mem_cons_self
        rw [getLastD_cons] at hsince htold
        exact ⟨some r, rs, consumed, sent, h.total, h.counted, rfl, rfl,
          Nat.le_trans h.ahead (Nat.add_le_add_right hheard _), h.bytes, hrest,
          h.sorted.of_cons, fun q hq => h.behind q (mem_cons_of_mem _ hq), hsince, htold, nofun⟩

end Books

/-! ## The streams -/

section Streams

open MuxReceives (Options StreamState)

variable {o : Kcptun.Mux.Options} {w : Kcptun.Mux.StreamState} {a : Options} {r : StreamState}
  {pushed heard size : Nat}

/-- The flow from a stream that writes to one that reads: so many bytes are under way, and so many UPD
frames have come. -/
def between (w : Kcptun.Mux.StreamState) (r : StreamState) (pushed heard : Nat) : Flow where
  sender := w.window
  pushed := pushed
  incoming := r.unread.length
  bytesConsumed := r.bytesConsumed
  consumedSinceUpdate := r.consumedSinceUpdate
  reading := r.returning
  updates := r.updates.drop heard

/-- `pump_write` leaves the window as it is, or pushes. -/
theorem pumpWrite_between (ho : o.smuxVersion = 2) : (w.pumpWrite o).window = w.window ∨ ∃ count,
    between (w.pumpWrite o) r (pushed + count) heard = step a.streamBuffer (between w r pushed heard)
    (.push count) := by
  have hrequest : w.requestFin.window = w.window := by
    unfold Kcptun.Mux.StreamState.requestFin Kcptun.Mux.StreamState.enqueueFin
      Kcptun.Mux.StreamState.onSessionError Kcptun.Mux.StreamState.finishWrite Kcptun.Mux.StreamState.report
    grind
  have hfinish : (w.finishWrite none).window = w.window := by
    unfold Kcptun.Mux.StreamState.finishWrite
    split <;> rfl
  unfold Kcptun.Mux.StreamState.pumpWrite
  split
  · exact .inl rfl
  · split
    · exact .inl hrequest
    · rename_i p hp
      split
      · exact .inl hfinish
      · split
        · exact .inl rfl
        · rename_i hopen
          split
          · exact .inl rfl
          · have hroom : min o.frameSize (w.available o p) ≤ w.window.room := by
              unfold Kcptun.Mux.StreamState.available
              rw [if_pos ho]
              omega
            refine .inr ⟨min o.frameSize (w.available o p), ?_⟩
            simp only [step, between, Kcptun.Mux.StreamState.push, if_pos ho, if_neg fun h => hopen ⟨ho, h⟩,
              Nat.min_eq_left hroom]

theorem update_between {consumed window : UInt32} (hnext : r.updates[heard]? = some (consumed, window)) :
    between { w with window := w.window.update consumed window } r pushed (heard + 1) =
      step a.streamBuffer (between w r pushed heard) .update := by
  obtain ⟨hlt, hget⟩ := List.getElem?_eq_some_iff.1 hnext
  simp only [step, between, drop_eq_getElem_cons hlt, hget]

theorem deliverRead_between (ha : a.smuxV2 = true) (hopen : r.closed = false)
    (hreader : r.reader = some size) (hunread : r.unread ≠ []) :
    between w (r.deliverRead a) pushed heard = step a.streamBuffer (between w r pushed heard) (.read size) := by
  have hpieces : r.incoming.pieces ≠ [] := fun hnil => hunread ((Wire.Segments.pieces_eq_nil _).1 hnil)
  obtain ⟨hfirst, hsecond⟩ := Wire.Segments.readUpTo_bytes size r.incoming
  have hlength : r.unread.length ≠ 0 := fun h => hunread (length_eq_zero_iff.1 h)
  unfold StreamState.deliverRead
  rw [if_neg (by simp [hopen]), hreader]
  dsimp only
  rw [if_neg hpieces]
  simp only [StreamState.finishRead, StreamState.report, ha, if_true, between, StreamState.unread, hfirst,
    hsecond]
  show _ = if r.unread.length = 0 then _ else _
  rw [if_neg hlength, length_drop, length_take]
  simp only [Flow.mk.injEq, and_true, true_and]
  omega

/-- A read that finds bytes takes them at once. -/
theorem readSome_between (ha : a.smuxV2 = true) (hopen : r.closed = false) (hfree : r.reader = none)
    (hsize : size ≠ 0)
    (hunread : r.unread ≠ []) :
    between w (r.readSome a size) pushed heard =
    step a.streamBuffer (between w r pushed heard) (.read size) := by
  unfold StreamState.readSome
  rw [if_neg (by simp [hopen]), hfree, if_neg (by simp), if_neg hsize]
  exact deliverRead_between (r := { r with reader := some size }) ha hopen rfl hunread

/-- What a PUSH frame brings waits, or goes to the read that waits. -/
theorem onData_between (ha : a.smuxV2 = true) (hopen : r.closed = false)
    (hgoing : r.remoteClosed = false) {payload : MuxReceives.Bytes}
    (hpayload : payload ≠ []) :
    between w (r.onData a payload) pushed heard = Runs.run
    (step a.streamBuffer) (between w r (pushed + payload.length) heard)
      (.arrive payload.length :: r.reader.toList.map .read) := by
  have harrive :
      between w { r with incoming := r.incoming.snoc payload, arrived := r.arrived ++ payload } pushed heard =
      step a.streamBuffer (between w r (pushed + payload.length) heard) (.arrive payload.length) := by
    simp only [step, between, StreamState.unread, Wire.Segments.snoc_bytes, length_append, Flow.mk.injEq,
      and_true, true_and]
    omega
  unfold StreamState.onData
  rw [if_neg (by simp [hopen, hgoing])]
  have hbytes : StreamState.unread { r with
      incoming := r.incoming.snoc payload, arrived := r.arrived ++ payload } ≠ [] := by
    simp [StreamState.unread, Wire.Segments.snoc_bytes, hpayload]
  have hopen' : StreamState.closed { r with
      incoming := r.incoming.snoc payload, arrived := r.arrived ++ payload } = false := hopen
  have hsame : StreamState.reader { r with
      incoming := r.incoming.snoc payload, arrived := r.arrived ++ payload } = r.reader := rfl
  generalize ({ r with
      incoming := r.incoming.snoc payload, arrived := r.arrived ++ payload } : StreamState) = r' at *
  rw [← hsame]
  cases hreader : r'.reader with
  | none =>
    rw [StreamState.deliverRead_none hreader]
    exact harrive
  | some size =>
    rw [deliverRead_between ha hopen' hreader hbytes, harrive]
    rfl

theorem handlerReturned_between (ha : a.smuxV2 = true) (hopen : r.closed = false)
    (hsession : r.sessionClosed = false) (hheard : heard ≤ r.updates.length) :
    between w (r.handlerReturned a) pushed heard = step a.streamBuffer (between w r pushed heard) .returned := by
  unfold StreamState.handlerReturned
  cases hreturning : r.returning with
  | nil => simp only [step, between, hreturning]
  | cons firstRead others =>
    simp only [step, between, hreturning, hopen, ha, hsession, true_and, Bool.false_eq_true, if_false,
      StreamState.unread]
    split
    · simp only [drop_append_of_le_length hheard]
    · rfl

end Streams
/-- **Flow control never wedges a stream.** -/
theorem flow_goes_on {streamBuffer : Nat} (hpos : 0 < streamBuffer) (hfits : streamBuffer < 2 ^ 32)
    (events : List Event) :
    (run streamBuffer events).Sound streamBuffer := by
  obtain ⟨_, _, _, _, h⟩ := Runs.run_induction
    (P := fun s => ∃ heard reports consumed sent, Books streamBuffer s heard reports consumed sent)
    (fun s e ⟨_, _, _, _, h⟩ => h.step hfits e) events {}
    ⟨none, [], 0, 0, rfl, rfl, rfl, rfl, Nat.zero_le _, rfl, rfl, pairwise_singleton _ _,
      fun _ hr => Nat.le_of_eq (mem_singleton.1 hr),
      rfl, fun _ => Nat.zero_le _, fun _ _ => .inl rfl⟩
  exact h.sound hpos hfits

theorem flow_goes_on_default : (run 2097152 [.push 300000, .arrive 1000, .read 100, .returned]).Sound 2097152 :=
  flow_goes_on (by decide) (by decide) _

end ClashNative.SmuxFlow
