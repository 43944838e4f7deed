import ClashNative.Http2Session
import ClashNative.Runs
/-!
# Http2Once — every exchange answered once, every stream in its maps, every byte given back

What the session promises of an exchange it keeps in the exchange's own fields (`Pending.Ok`), and of its
maps and its credit in `Inv`, whatever nghttp2 answers.  `Known` is what a step has not changed, or has
only begun to.
-/
namespace ClashNative.Http2

open Runs List

/-! ## Exchanges -/

/-- **What the session keeps of an exchange**: it is answered as its sender goes, and has it until then.
-/
structure Pending.Ok (submitted : Bool) (x : Pending) : Prop where
  known : x.pending = true → submitted = true
  answered : x.answers.length + (if x.handler then 1 else 0) = if submitted then 1 else 0
  sender : x.handler = true → x.pending = true
  timer : x.handler = true → x.timerDone = false
  head : x.streamingResponseDelivered = true → x.handler = false
  going : x.pending = true → x.completed = false

namespace Pending

structure Edits (submitted : Bool) (x y : Pending) : Prop where
  ok : x.Ok submitted → y.Ok submitted
  streamId : y.streamId = x.streamId
  pending : y.pending = true → x.pending = true

variable {submitted : Bool} (x : Pending)

theorem post_length (t : Terminal) :
    (x.post t).answers.length = x.answers.length + if x.handler then 1 else 0 := by
  unfold post
  split
  · exact length_append
  · rfl

theorem edits_leave (t : Terminal) : Edits submitted x (x.leave.post t) := by
  refine ⟨fun h => ⟨?_, (post_length ..).trans h.answered, ?_, ?_, fun _ => rfl, ?_⟩, rfl, ?_⟩
  all_goals exact fun hp => absurd hp Bool.false_ne_true

theorem edits_acceptTunnel : Edits submitted x x.acceptTunnel := by
  refine ⟨fun h => ⟨?_, (post_length ..).trans h.answered, ?_, ?_, fun _ => rfl, ?_⟩, rfl, ?_⟩
  all_goals exact fun hp => absurd hp Bool.false_ne_true

theorem edits_deliver : Edits submitted x x.deliver := by
  refine ⟨fun h => ⟨h.known, (post_length ..).trans h.answered, ?_, ?_, fun _ => rfl, h.going⟩, rfl, id⟩
  · exact fun hp => absurd hp Bool.false_ne_true
  · exact fun hp => absurd hp Bool.false_ne_true

theorem edits_failAll (code : ErrorCode) :
    Edits submitted x (x.failAll code) ∧ (x.Ok submitted → (x.failAll code).pending = false) := by
  unfold failAll
  by_cases hp : x.pending = false
  · rw [if_pos hp]
    exact ⟨⟨id, rfl, id⟩, fun _ => hp⟩
  · rw [if_neg hp]
    have hp : x.pending = true := by simpa using hp
    have hpost : Edits submitted x (x.fail code) := edits_leave x (.failed code)
    split
    · rename_i hcompleted
      have hnot : ¬ x.Ok submitted := fun h => absurd ((h.going hp).symm.trans hcompleted) Bool.false_ne_true
      exact ⟨⟨fun h => absurd h hnot, rfl, fun _ => hp⟩, fun _ => rfl⟩
    · exact ⟨hpost, fun _ => rfl⟩

theorem edits_finishStreaming (h : x.streamingResponseDelivered = true) :
    Edits submitted x
      { x with streamingResponseComplete := true, completed := true, timerDone := true, pending := false } := by
  refine ⟨fun hok => ⟨?_, hok.answered, ?_, ?_, hok.head, ?_⟩, rfl, ?_⟩
  · exact fun hp => absurd hp Bool.false_ne_true
  · exact fun hs => absurd ((hok.head h).symm.trans hs) Bool.false_ne_true
  · exact fun hs => absurd ((hok.head h).symm.trans hs) Bool.false_ne_true
  · exact fun hp => absurd hp Bool.false_ne_true
  · exact fun hp => absurd hp Bool.false_ne_true

end Pending

/-! ## The session -/

/-- What is known of the session in the middle of a step: how many exchanges there were, the DATA bytes
that are not given back yet, and an exchange that has `left`. -/
structure Known where
  next : ExchangeId
  unreturned : Nat := 0
  left : Option ExchangeId := none

structure Inv (k : Known) (s : State) : Prop where
  next : s.nextExchangeId = k.next
  numbered : 1 ≤ k.next
  each : ∀ id, (s.pendings id).Ok (decide (1 ≤ id ∧ id < k.next))
  left : ∀ id ∈ k.left, (s.pendings id).pending = false
  keys : s.streamPending = s.streamIds
  opened : s.opened = s.streamIds
  own : ∀ stream id, s.streamIds stream = some id →
    (1 ≤ id ∧ id < k.next) ∧ (s.pendings id).streamId = some stream
  held : ∀ id stream, (s.pendings id).pending = true → (s.pendings id).streamId = some stream →
    s.streamIds stream = some id
  fresh : ∀ stream, s.nextStream ≤ stream → s.streamIds stream = none
  erased : s.http2 = false → ∀ stream, s.streamIds stream = none
  gone : s.http2 = false ∨ s.streamClosed = true → ∀ id, (s.pendings id).pending = false
  retired : s.http2 = false ∨ s.streamClosed = true → s.retired = true
  stopped : s.stopped = true → s.http2 = false
  credit : s.http2 = true → s.streamClosed = false →
    s.connectionBytesPending = k.unreturned ∧ s.creditReturned + k.unreturned = s.dataReceived

namespace Inv

variable {k : Known} {s : State} {id : ExchangeId} {f : Pending → Pending}

theorem modify (h : Inv k s)
    (hf : (s.pendings id).Edits (decide (1 ≤ id ∧ id < k.next)) (f (s.pendings id))) : Inv k
    (s.modify id f) := by
  have hpendings : ∀ i, (s.pendings i).Edits (decide (1 ≤ i ∧ i < k.next)) ((s.modify id f).pendings i) := by
    intro i
    change (s.pendings i).Edits _ (if i = id then f (s.pendings i) else s.pendings i)
    split
    · rename_i hi
      subst hi
      exact hf
    · exact ⟨fun hok => hok, rfl, fun hp => hp⟩
  have hleft : ∀ i, (s.pendings i).pending = false → ((s.modify id f).pendings i).pending = false := by
    intro i hi
    by_contra hp
    exact Bool.false_ne_true (hi.symm.trans ((hpendings i).pending (by simpa using hp)))
  exact { h with
    each := fun i => (hpendings i).ok (h.each i)
    left := fun i hi => hleft i (h.left i hi)
    own := fun stream i hi => ⟨(h.own stream i hi).1, (hpendings i).streamId.trans (h.own stream i hi).2⟩
    held := fun i stream hp hs => h.held i stream ((hpendings i).pending hp)
      ((hpendings i).streamId.symm.trans hs)
    gone := fun hg i => hleft i (h.gone hg i) }

theorem modify_modify (s : State) (id : ExchangeId) (f g : Pending → Pending) :
    (s.modify id f).modify id g = s.modify id fun x => g (f x) := by
  unfold State.modify
  simp only [State.mk.injEq, and_true]
  funext i
  by_cases hi : i = id
  · rw [if_pos hi, if_pos hi, if_pos hi]
  · rw [if_neg hi, if_neg hi, if_neg hi]

theorem modify_same (h : Inv k s)
    (hf : ∀ x : Pending, f x = { x with
      status := (f x).status, bodySize := (f x).bodySize, responseTooLarge := (f x).responseTooLarge,
      streamingBodyOverflow := (f x).streamingBodyOverflow, remoteEndStream := (f x).remoteEndStream }) :
    Inv k (s.modify id f) := by
  apply h.modify
  rw [hf]
  exact ⟨fun hok => { hok with }, rfl, fun hp => hp⟩

theorem of_left (h : Inv k s) (hleft : (s.pendings id).pending = false) : Inv { k with left := some id } s :=
  { h with left := by rintro _ ⟨⟩; exact hleft }

theorem idle (h : Inv k s) (hidle : s.http2 = false ∨ s.streamClosed = true) (n : Nat) :
    Inv { k with unreturned := n } s :=
  { h with credit := fun hhttp2 hclosed => by simp [hhttp2, hclosed] at hidle }

/-! ### Closing -/

theorem fall (h : Inv k s) (stopped : Bool) (code : ErrorCode) :
    Inv k ((State.closeHttp2 { s with stopped, retired := true }.closeStream).failAll code) := by
  have hgone : ∀ i, ((s.pendings i).failAll code).pending = false := fun i =>
    (Pending.edits_failAll _ code).2 (h.each i)
  exact { h with
    each := fun i => (Pending.edits_failAll _ code).1.ok (h.each i)
    left := fun i _ => hgone i
    keys := rfl
    opened := rfl
    own := nofun
    held := fun i _ hp => absurd ((hgone i).symm.trans hp) Bool.false_ne_true
    fresh := fun _ _ => rfl
    erased := fun _ _ => rfl
    gone := fun _ => hgone
    retired := fun _ => rfl
    stopped := fun _ => rfl
    credit := nofun }

theorem connectionFailed (h : Inv k s) (code : ErrorCode) : Inv k (s.connectionFailed code) := by
  unfold State.connectionFailed
  split
  · exact h
  · exact h.fall s.stopped code

theorem connectionFailed_idle (h : Inv k s) (code : ErrorCode) (n : Nat) :
    Inv { k with unreturned := n } (s.connectionFailed code) := by
  apply (h.connectionFailed code).idle
  unfold State.connectionFailed
  split
  · rename_i hdone
    exact hdone.imp h.stopped (fun hclosed => hclosed)
  · exact .inl rfl

theorem stop (h : Inv k s) : Inv k s.stop := by
  unfold State.stop
  split
  · exact h
  · exact h.fall true .cancelled

theorem not_pending_of_empty (h : Inv k s) (hempty : s.pendingEmpty = true) (id : ExchangeId) :
    (s.pendings id).pending = false := by
  by_contra hp
  have hp : (s.pendings id).pending = true := by simpa using hp
  have hknown := of_decide_eq_true ((h.each id).known hp)
  have hmem : id ∈ List.range s.nextExchangeId := mem_range.2 (h.next ▸ hknown.2)
  have := all_eq_true.1 hempty id hmem
  simp [hp] at this

theorem closeIfDrained (h : Inv k s) : Inv k s.closeIfDrained := by
  unfold State.closeIfDrained
  split
  · rename_i hdrained
    exact { h with
      gone := fun _ => h.not_pending_of_empty hdrained.2.1
      retired := fun _ => hdrained.1
      credit := fun _ hclosed => absurd hclosed.symm Bool.false_ne_true }
  · exact h

/-! ### Streams that close -/

theorem closed (h : Inv k s) {stream : StreamId} (hstream : s.streamIds stream = some id)
    (hleft : (s.pendings id).pending = false) :
    Inv k { s.eraseStream stream with opened := fun i => if i = stream then none else s.opened i } := by
  refine { h with keys := ?_, opened := ?_, own := ?_, held := ?_, fresh := ?_, erased := ?_ }
  · unfold State.eraseStream
    rw [h.keys]
  · unfold State.eraseStream
    rw [h.opened]
  · intro i j hj
    refine h.own i j ?_
    change (if i = stream then none else s.streamIds i) = some j at hj
    split at hj
    · cases hj
    · exact hj
  · intro i other hp hother
    have hheld := h.held i other hp hother
    refine (if_neg ?_).trans hheld
    rintro rfl
    have hid : id = i := Option.some.inj (hstream.symm.trans hheld)
    subst hid
    exact Bool.false_ne_true (hleft.symm.trans hp)
  · intro i hi
    change (if i = stream then none else s.streamIds i) = none
    rw [h.fresh i hi, ite_self]
  · intro hhttp2 i
    change (if i = stream then none else s.streamIds i) = none
    rw [h.erased hhttp2 i, ite_self]

theorem fail_pending (s : State) (id : ExchangeId) (code : ErrorCode) :
    ((s.modify id (·.fail code)).pendings id).pending = false := by
  unfold State.modify
  dsimp only
  rw [if_pos rfl]
  rfl

theorem onStreamClosed (h : Inv k s) (stream : StreamId) (error : Bool) :
    Inv k (s.onStreamClosed stream error) := by
  unfold State.onStreamClosed State.failClosedPending
  dsimp only
  split
  · rename_i hnone
    have hsame : (fun i => if i = stream then none else s.opened i) = s.opened := by
      funext i
      split
      · rename_i hi
        rw [hi, h.opened, hnone]
      · rfl
    rw [hsame]
    exact h
  · rename_i id hstream
    apply closeIfDrained
    by_cases hp : (s.pendings id).pending = true
    · have hgoing := (h.each id).going hp
      have hfailed : Inv k (s.modify id (·.fail .protocolFraming)) := h.modify (Pending.edits_leave ..)
      have hclosed := hfailed.closed hstream (fail_pending s id .protocolFraming)
      simp only [hp, hgoing, Bool.true_eq_false, Bool.false_eq_true, false_or, true_and, if_true,
        if_false, ite_self]
      exact hclosed
    · have hnot (b : Prop) : ¬ ((s.pendings id).pending = true ∧ b) := fun hboth => hp hboth.1
      rw [if_neg (hnot _), if_neg (hnot _)]
      exact h.closed hstream (by simpa using hp)

/-! ### Sending -/

theorem answering (h : Inv k s) (calls : Calls) : Inv k { s with calls } := { h with }

theorem sendPending (h : Inv k s) : Inv k s.sendPending := by
  unfold State.sendPending
  split
  · exact h
  · dsimp only
    have hclosed := List.foldlRecOn (s.calls.sends.headD {}).closes
      (fun (s : State) c => s.onStreamClosed c.1 c.2)
      (h.answering { s.calls with sends := s.calls.sends.tail })
      (fun t (ht : Inv k t) c _ => ht.onStreamClosed c.1 c.2)
    split
    · exact hclosed.connectionFailed .protocolFraming
    · exact hclosed
    · exact { hclosed with }

/-! ### Failing and finishing -/

theorem failed (h : Inv k s) (hp : (s.pendings id).pending = true) (code : ErrorCode) :
    Inv { k with left := some id } (s.failPending id code) := by
  have hhttp2 : s.http2 = true := by
    by_contra hnot
    exact Bool.false_ne_true ((h.gone (.inl (by simpa using hnot)) id).symm.trans hp)
  have hfailed : Inv { k with left := some id } (s.modify id (·.fail code)) :=
    (h.modify (Pending.edits_leave ..)).of_left (fail_pending s id code)
  unfold State.failPending
  rw [if_neg (by simp [hp, (h.each id).going hp]), if_pos hhttp2]
  exact hfailed.sendPending.closeIfDrained

theorem failPending (h : Inv k s) (id : ExchangeId) (code : ErrorCode) : Inv k (s.failPending id code) := by
  unfold State.failPending
  split
  · exact h
  · rename_i hgo
    have hhttp2 : s.http2 = true := by
      by_contra hnot
      exact hgo (.inl (h.gone (.inl (by simpa using hnot)) id))
    rw [if_pos hhttp2]
    exact (h.modify (Pending.edits_leave ..)).sendPending.closeIfDrained

theorem failEach (h : Inv k s) {α : Type} (l : List α) (f : α → ExchangeId) (code : ErrorCode) :
    Inv k (l.foldl (fun s a => s.failPending (f a) code) s) :=
  List.foldlRecOn l _ h fun _ ht a _ => ht.failPending (f a) code

theorem finishPending (h : Inv k s) (id : ExchangeId) : Inv k (s.finishPending id) := by
  unfold State.finishPending
  split
  · exact h
  · exact (h.modify (Pending.edits_leave ..)).closeIfDrained

theorem finishStreamingResponse (h : Inv k s) (id : ExchangeId) : Inv k (s.finishStreamingResponse id id) := by
  unfold State.finishStreamingResponse
  split
  · exact h
  · split
    · exact h.failPending id .protocolFraming
    · rename_i hdelivered
      apply closeIfDrained
      rw [modify_modify]
      exact h.modify (Pending.edits_finishStreaming _ (by simpa using hdelivered))

theorem handleResponseHeaders (h : Inv k s) (id : ExchangeId) : Inv k (s.handleResponseHeaders id) := by
  unfold State.handleResponseHeaders
  dsimp only
  split
  · exact h
  · split
    · split
      · exact h
      · split
        · exact h.modify (Pending.edits_acceptTunnel _)
        · exact h
    · split
      · exact h
      · split
        · exact h.modify_same fun _ => rfl
        · split
          · exact h.failPending id .protocolFraming
          · exact h.modify (Pending.edits_deliver _)

/-! ### Submissions -/

theorem emplaceStream (h : Inv k s) (hid : 1 ≤ id ∧ id < k.next) (hnone : (s.pendings id).streamId = none)
    (hhttp2 : s.http2 = true) :
    Inv k ((s.modify id ({ · with streamId := some s.nextStream })).emplaceStream id) := by
  have hother : ∀ i, (if i = id then ({ s.pendings i with streamId := some s.nextStream } : Pending) else
    s.pendings i).pending =
      (s.pendings i).pending := by
    intro i
    split <;> rfl
  have hnew : s.streamIds s.nextStream = none := h.fresh _ (Nat.le_refl _)
  refine { h with
    each := ?_, left := ?_, keys := ?_, opened := ?_, own := ?_, held := ?_, fresh := ?_, erased := ?_,
      gone := ?_ }
  · intro i
    change (if i = id then ({ s.pendings i with streamId := some s.nextStream } : Pending) else
      s.pendings i).Ok _
    have hi := h.each i
    split
    · exact { hi with }
    · exact hi
  · exact fun i hi => (hother i).trans (h.left i hi)
  · unfold State.emplaceStream State.modify
    rw [h.keys]
  · unfold State.emplaceStream State.modify
    rw [h.opened]
  · intro stream i hi
    change (if stream = s.nextStream then some id else s.streamIds stream) = some i at hi
    change (1 ≤ i ∧ i < k.next) ∧ (if i = id then ({ s.pendings i with streamId := some s.nextStream } : Pending)
      else s.pendings i).streamId = some stream
    split at hi
    · rename_i hstream
      cases hi
      rw [if_pos rfl, hstream]
      exact ⟨hid, rfl⟩
    · have hown := h.own stream i hi
      have hne : i ≠ id := by
        rintro rfl
        exact Option.some_ne_none _ (hown.2.symm.trans hnone)
      rw [if_neg hne]
      exact hown
  · intro i stream hp hstream
    change (if i = id then ({ s.pendings i with streamId := some s.nextStream } : Pending) else
      s.pendings i).pending = true at hp
    change (if i = id then ({ s.pendings i with streamId := some s.nextStream } : Pending)
      else s.pendings i).streamId = some stream at hstream
    change (if stream = s.nextStream then some id else s.streamIds stream) = some i
    rw [hother] at hp
    by_cases hi : i = id
    · rw [if_pos hi] at hstream
      rw [if_pos (Option.some.inj hstream).symm, hi]
    · rw [if_neg hi] at hstream
      have hheld := h.held i stream hp hstream
      refine (if_neg ?_).trans hheld
      rintro rfl
      exact Option.some_ne_none _ (hheld.symm.trans hnew)
  · intro stream hstream
    change (if stream = s.nextStream then some id else s.streamIds stream) = none
    have hlt : s.nextStream + 2 ≤ stream := hstream
    rw [if_neg (Nat.ne_of_gt (Nat.lt_of_lt_of_le (Nat.lt_add_of_pos_right Nat.two_pos) hlt))]
    exact h.fresh stream (Nat.le_trans (Nat.le_add_right _ 2) hlt)
  · exact fun hgone => absurd (hhttp2.symm.trans hgone) Bool.noConfusion
  · exact fun hgone i => (hother i).trans (h.gone hgone i)

theorem submitRequest (h : Inv k s) (hid : 1 ≤ id ∧ id < k.next) (hnone : (s.pendings id).streamId = none)
    (hhttp2 : s.http2 = true) : Inv k (s.submitRequest id) := by
  unfold State.submitRequest
  dsimp only
  split
  · exact (h.answering _).emplaceStream hid hnone hhttp2
  · exact (h.answering _).failPending id .protocolFraming

theorem submitTunnel (h : Inv k s) (hid : 1 ≤ id ∧ id < k.next) : Inv k (s.submitTunnel id) := by
  unfold State.submitTunnel
  split
  · exact h
  · rename_i hgo
    rw [not_or, not_or] at hgo
    exact h.submitRequest hid (by simpa using hgo.1) (by simpa using hgo.2.2)

variable {n : Nat}

theorem enter (h : Inv { next := s.nextExchangeId, unreturned := n } s) {y : Pending} (hok : y.Ok true)
    (hstream : y.streamId = none) (hopen : y.pending = true → s.retired = false) :
    Inv { next := s.nextExchangeId + 1, unreturned := n }
      (State.modify { s with nextExchangeId := s.nextExchangeId + 1 } s.nextExchangeId fun _ => y) := by
  have hold : ∀ i stream, s.streamIds stream = some i → i ≠ s.nextExchangeId := fun i stream hi =>
    Nat.ne_of_lt (h.own stream i hi).1.2
  refine { h with next := rfl, numbered := ?_, each := ?_, left := nofun, own := ?_, held := ?_, gone := ?_ }
  · exact Nat.le_add_left 1 _
  · intro i
    change (if i = s.nextExchangeId then y else s.pendings i).Ok (decide (1 ≤ i ∧ i < s.nextExchangeId + 1))
    split
    · rename_i hi
      rw [decide_eq_true ⟨hi ▸ h.numbered, Nat.lt_succ_of_le (Nat.le_of_eq hi)⟩]
      exact hok
    · rename_i hne
      have hsame : 1 ≤ i ∧ i < s.nextExchangeId ↔ 1 ≤ i ∧ i < s.nextExchangeId + 1 :=
        and_congr_right fun _ => ⟨Nat.lt_succ_of_lt, fun hlt => Nat.lt_of_le_of_ne (Nat.le_of_lt_succ hlt) hne⟩
      rw [← decide_eq_decide.2 hsame]
      exact h.each i
  · intro stream i hi
    change (1 ≤ i ∧ i < s.nextExchangeId + 1) ∧
      (if i = s.nextExchangeId then y else s.pendings i).streamId = some stream
    have hown := h.own stream i hi
    rw [if_neg (hold i stream hi)]
    exact ⟨⟨hown.1.1, Nat.lt_succ_of_lt hown.1.2⟩, hown.2⟩
  · intro i stream hp hs
    change (if i = s.nextExchangeId then y else s.pendings i).pending = true at hp
    change (if i = s.nextExchangeId then y else s.pendings i).streamId = some stream at hs
    split at hs
    · rw [hstream] at hs
      cases hs
    · rename_i hi
      rw [if_neg hi] at hp
      exact h.held i stream hp hs
  · intro hgone i
    change (if i = s.nextExchangeId then y else s.pendings i).pending = false
    split
    · by_contra hp
      exact Bool.false_ne_true ((hopen (by simpa using hp)).symm.trans (h.retired hgone))
    · exact h.gone hgone i

theorem submit (h : Inv { next := s.nextExchangeId, unreturned := n } s) {x : Pending} (hx : x.answers = [])
    (hdelivered : x.streamingResponseDelivered = false) (hcompleted : x.completed = false)
    (htimer : x.timerDone = false)
    (hstream : x.streamId = none) (hpending : x.pending = false) (invalid : Option ErrorCode) :
    Inv { next := s.nextExchangeId + 1, unreturned := n } (s.submit x invalid) := by
  unfold State.submit
  dsimp only
  split
  · rename_i code _
    have hok : (Pending.post { x with handler := true } (.failed code)).Ok true := by
      constructor <;> simp [Pending.post, hx, hpending]
    exact h.enter hok hstream fun hp => absurd (hpending.symm.trans hp) Bool.false_ne_true
  · rename_i hrefusal
    have hretired : s.stopped = false ∧ s.retired = false := by
      unfold State.refusal at hrefusal
      split at hrefusal
      · cases hrefusal
      · rename_i hgo
        simpa using hgo
    have hhttp2 : s.http2 = true := by
      by_contra hnot
      exact Bool.false_ne_true (hretired.2.symm.trans (h.retired (.inl (by simpa using hnot))))
    have hok : Pending.Ok true { x with handler := true, pending := true } := by
      constructor <;> simp [hx, hdelivered, hcompleted, htimer]
    have hentered := h.enter hok hstream fun _ => hretired.2
    have hid : 1 ≤ s.nextExchangeId ∧ s.nextExchangeId < s.nextExchangeId + 1 := ⟨h.numbered, Nat.lt_succ_self _⟩
    apply sendPending
    split
    · refine hentered.submitRequest hid ?_ hhttp2
      unfold State.modify
      dsimp only
      rw [if_pos rfl]
      exact hstream
    · split
      · exact { hentered with }
      · exact hentered.submitTunnel hid

/-! ### Callbacks -/

theorem onHeader (h : Inv k s) (stream : StreamId) (status : Nat) : Inv k (s.onHeader stream status) := by
  unfold State.onHeader
  split
  · exact h
  · split
    · exact h
    · exact h.modify_same fun _ => rfl

theorem onDataChunk (h : Inv k s) (stream : StreamId) (length : Nat) (received : Bool) :
    Inv { k with unreturned := k.unreturned + length } (s.onDataChunk stream length received) := by
  have hcounted : Inv { k with unreturned := k.unreturned + length } { s with
      connectionBytesPending := s.connectionBytesPending + length,
        dataReceived := s.dataReceived + length } := by
    refine { h with credit := fun hhttp2 hclosed => ?_ }
    have hcredit := h.credit hhttp2 hclosed
    dsimp only
    omega
  have hbytes (f : StreamId → Nat) : Inv { k with unreturned := k.unreturned + length } { s with
      connectionBytesPending := s.connectionBytesPending + length, dataReceived := s.dataReceived + length,
      streamBytesPending := f } := { hcounted with }
  unfold State.onDataChunk
  dsimp only
  split
  · exact hcounted
  · split
    · exact hcounted
    · split
      · split
        · exact hcounted
        · exact hcounted.modify_same fun _ => rfl
      · split
        · exact (hbytes _).modify_same fun _ => rfl
        · apply (hbytes _).modify
          refine ⟨fun hok => ?_, rfl, fun hp => hp⟩
          exact { hok with }

theorem onEndStream (h : Inv k s) (stream : StreamId) (found : Option ExchangeId)
    (hfound : s.streamPending stream = found) : Inv k (s.onEndStream stream found) := by
  unfold State.onEndStream
  split
  · exact h
  · exact h.finishPending _
  · rename_i id record hrecord
    have hsame : record = id := Option.some.inj (hrecord.symm.trans hfound)
    subst hsame
    split
    · exact h.modify_same fun _ => rfl
    · split
      · exact h.finishStreamingResponse record
      · exact h.finishPending record

theorem handleResponseHeaders_streamPending (s : State) (id : ExchangeId) :
    (s.handleResponseHeaders id).streamPending = s.streamPending := by
  unfold State.handleResponseHeaders
  dsimp only
  split
  · rfl
  · split
    · split
      · rfl
      · split <;> rfl
    · split
      · rfl
      · split
        · rfl
        · split
          · omega
          · rfl

theorem onFrameReceived (h : Inv k s) (stream : StreamId) (endHeaders endStream : Bool) :
    Inv k (s.onFrameReceived stream endHeaders endStream) := by
  have hhead : Inv k (if endHeaders then (s.streamIds stream).elim s s.handleResponseHeaders else s) ∧
      (if endHeaders then (s.streamIds stream).elim s s.handleResponseHeaders else s).streamPending =
      s.streamPending := by
    split
    · cases s.streamIds stream with
      | none => exact ⟨h, rfl⟩
      | some id => exact ⟨h.handleResponseHeaders id, handleResponseHeaders_streamPending s id⟩
    · exact ⟨h, rfl⟩
  unfold State.onFrameReceived
  dsimp only
  split
  · apply hhead.1.onEndStream
    rw [hhead.2, h.keys]
  · exact hhead.1

theorem handlePeerSettings (h : Inv k s) (enabled : Bool) : Inv k (s.handlePeerSettings enabled) := by
  have hreceived : Inv k { s with
      peerConnectProtocolReceived := true, peerConnectProtocolEnabled := enabled,
        waitingForConnectProtocol := [] } :=
    { h with }
  unfold State.handlePeerSettings
  split
  · apply sendPending
    refine List.foldlRecOn _ _ hreceived fun t ht id _ => ?_
    split
    · rename_i hp
      exact ht.submitTunnel (of_decide_eq_true ((ht.each id).known hp))
    · exact ht
  · exact hreceived.failEach _ id .protocolFraming

theorem handleGoaway (h : Inv k s) (lastStream : StreamId) : Inv k (s.handleGoaway lastStream) := by
  unfold State.handleGoaway
  split
  · exact h
  · have hretired : Inv k { s with retired := true } := { h with retired := fun _ => rfl }
    exact (hretired.failEach _ Prod.snd .protocolFraming).closeIfDrained

theorem callback (h : Inv k s) (c : State.Callback) : ∃ n, Inv { k with unreturned := n } (s.callback c) := by
  unfold State.callback
  split
  · exact ⟨k.unreturned, h⟩
  · cases c with
    | header stream status => exact ⟨k.unreturned, h.onHeader stream status⟩
    | dataChunk stream length received => exact ⟨_, h.onDataChunk stream length received⟩
    | headers stream endHeaders endStream => exact ⟨k.unreturned, h.onFrameReceived stream endHeaders endStream⟩
    | data stream endStream => exact ⟨k.unreturned, h.onFrameReceived stream false endStream⟩
    | streamClosed stream error => exact ⟨k.unreturned, h.onStreamClosed stream error⟩
    | settings enabled => exact ⟨k.unreturned, h.handlePeerSettings enabled⟩
    | goaway lastStream => exact ⟨k.unreturned, h.handleGoaway lastStream⟩
    | pingAck => exact ⟨k.unreturned, { h with }⟩

theorem callbacks (h : Inv { k with unreturned := n } s) (l : List State.Callback) :
    ∃ m, Inv { k with unreturned := m } (l.foldl State.callback s) := by
  induction l generalizing n s with
  | nil => exact ⟨n, h⟩
  | cons c rest ih =>
    obtain ⟨m, hm⟩ := h.callback c
    exact ih hm

/-! ### Reading and writing -/

theorem failStreamingBodyOverflows (h : Inv k s) : Inv k s.failStreamingBodyOverflows := by
  apply failEach (f := id)
  exact List.foldlRecOn _ _ h fun _ ht _ _ => ht.modify_same fun _ => rfl

theorem consume (h : Inv k s) : Inv k s.consume.1 := h.answering _

theorem consumeStreams (consumed : StreamId → Nat) (l : List StreamId) (h : Inv k s) :
    Inv k (State.consumeStreams consumed l s) := by
  induction l generalizing s with
  | nil => exact h
  | cons stream rest ih =>
    unfold State.consumeStreams
    split
    · exact ih h
    · split
      · exact ih h
      · split
        · exact h.consume.connectionFailed .protocolFraming
        · exact ih h.consume

theorem updateReceiveCredit (h : Inv k s) : Inv { k with unreturned := 0 } s.updateReceiveCredit := by
  unfold State.updateReceiveCredit
  split
  · rename_i hhttp2
    exact h.idle (.inl hhttp2) 0
  · split
    · exact h.consume.connectionFailed_idle .protocolFraming 0
    · apply consumeStreams
      split
      · refine { h.consume with credit := fun hhttp2 hclosed => ⟨rfl, ?_⟩ }
        have hcredit := h.credit hhttp2 hclosed
        change s.creditReturned + s.connectionBytesPending + 0 = s.dataReceived
        omega
      · refine { h with credit := fun hhttp2 hclosed => ⟨rfl, ?_⟩ }
        have hcredit := h.credit hhttp2 hclosed
        change s.creditReturned + s.connectionBytesPending + 0 = s.dataReceived
        omega

theorem readResponse (h : Inv k s) : Inv k s.readResponse := by
  unfold State.readResponse
  split
  · exact h
  · exact { h with }

theorem onRead (h : Inv { k with unreturned := 0 } s) (r : State.Read) : Inv { k with unreturned := 0 }
    (s.onRead r) := by
  have hread : Inv { k with unreturned := 0 } { s with readInProgress := false } := { h with }
  unfold State.onRead
  dsimp only
  split
  · exact h
  · split
    · exact hread
    · cases r with
      | error => exact hread.connectionFailed .transportIo
      | bytes callbacks valid =>
        obtain ⟨n, hcalled⟩ := hread.callbacks callbacks
        dsimp only
        split
        · exact hcalled.connectionFailed_idle .protocolFraming 0
        · have hfailed := hcalled.failStreamingBodyOverflows
          split
          · rename_i hdone
            refine hfailed.idle ?_ 0
            exact hdone.elim (fun hstopped => .inl (hfailed.stopped hstopped)) Or.symm
          · exact hfailed.updateReceiveCredit.sendPending.readResponse

theorem onWritten (h : Inv k s) (error : Bool) : Inv k (s.onWritten error) := by
  have hwritten : Inv k { s with writeInProgress := false } := { h with }
  unfold State.onWritten
  dsimp only
  split
  · exact h
  · split
    · exact hwritten
    · split
      · exact hwritten.connectionFailed .transportIo
      · exact hwritten.sendPending.closeIfDrained

/-! ### The rest -/

theorem onRequestBodyRead (h : Inv k s) (id : ExchangeId) (failed : Option ErrorCode) :
    Inv k (s.onRequestBodyRead id failed) := by
  unfold State.onRequestBodyRead
  dsimp only
  split
  · exact h
  · split
    · exact h
    · split
      · exact h
      · cases failed with
        | none => exact h.sendPending
        | some code => exact h.failPending _ code

theorem consumeStreamData (h : Inv k s) (stream : StreamId) (tunnel : Bool) :
    Inv k (s.consumeStreamData stream tunnel) := by
  unfold State.consumeStreamData
  split
  · exact h
  · split
    · exact h.consume.connectionFailed .protocolFraming
    · exact h.consume.sendPending

theorem deadline (h : Inv k s) (id : ExchangeId) : Inv k (s.deadline id) := by
  unfold State.deadline
  split
  · exact h
  · exact h.failPending id .timeout

theorem pingTick (h : Inv k s) (submitted : Bool) : Inv k (s.pingTick submitted) := by
  unfold State.pingTick
  dsimp only
  generalize (if s.pingPending then s.pingMisses + 1 else 0) = misses
  split
  · exact h
  · have hticked : Inv k { s with pingMisses := misses } := { h with }
    split
    · exact hticked.connectionFailed .protocolFraming
    · have hpinged : Inv k { s with pingMisses := misses, pingPending := true } := { h with }
      exact hpinged.sendPending

end Inv

/-! ## What is promised -/

def State.Submitted (s : State) (id : ExchangeId) : Prop := 1 ≤ id ∧ id < s.nextExchangeId

/-- **What the session promises.**  An exchange that has no answer gets it at its deadline, whatever
nghttp2 answers then; `opened` is nghttp2's own table. -/
structure Sound (s : State) : Prop where
  once : ∀ id, (s.pendings id).answers.length ≤ 1
  unsubmitted : ∀ id, ¬ s.Submitted id → (s.pendings id).answers = []
  answered : ∀ id, s.Submitted id → (s.pendings id).answers.length = 1 ∨
    (s.pendings id).pending = true ∧ ∀ calls, ((step s (.deadline id, calls)).pendings id).answers.length = 1
  closed : s.http2 = false ∨ s.streamClosed = true → ∀ id, s.Submitted id → (s.pendings id).answers.length = 1
  keys : s.streamPending = s.streamIds
  opened : ∀ stream id, s.streamIds stream = some id ↔ s.opened stream = some id
  own : ∀ stream id, s.streamIds stream = some id → s.Submitted id ∧ (s.pendings id).streamId = some stream
  pending : ∀ id stream, (s.pendings id).pending = true → (s.pendings id).streamId = some stream →
    s.streamIds stream = some id
  credit : s.http2 = true → s.streamClosed = false → s.creditReturned = s.dataReceived

namespace Inv

variable {s : State} {id : ExchangeId}

theorem renumber {n : ExchangeId} (h : Inv { next := n } s) : Inv { next := s.nextExchangeId } s := by
  rw [h.next]
  exact h

theorem handle (h : Inv { next := s.nextExchangeId } s) (e : Event) :
    Inv { next := (s.handle e).nextExchangeId } (s.handle e) := by
  cases e with
  | submitBuffered bodyLimit invalid =>
    have hsubmitted := h.submit (x := { bodyLimit }) rfl rfl rfl rfl rfl rfl invalid
    exact hsubmitted.renumber
  | submitStreaming headDeadlineOnly invalid =>
    have hsubmitted := h.submit (x := { kind := .streaming, headDeadlineOnly }) rfl rfl rfl rfl rfl rfl invalid
    exact hsubmitted.renumber
  | submitTunnel upgrade bodyLimit invalid =>
    have hsubmitted := h.submit (x := { kind := .tunnel, upgrade, bodyLimit }) rfl rfl rfl rfl rfl rfl invalid
    exact hsubmitted.renumber
  | read r => exact (onRead (k := { next := s.nextExchangeId }) h r).renumber
  | written error => exact (h.onWritten error).renumber
  | requestBodyRead id failed => exact (h.onRequestBodyRead id failed).renumber
  | consumeStreamData stream tunnel => exact (h.consumeStreamData stream tunnel).renumber
  | tunnelSends => exact h.sendPending.renumber
  | deadline id => exact (h.deadline id).renumber
  | cancel id => exact (h.failPending id .cancelled).renumber
  | pingTick submitted => exact (h.pingTick submitted).renumber
  | stop => exact h.stop.renumber

theorem step (h : Inv { next := s.nextExchangeId } s) (e : Event × Calls) :
    Inv { next := (Http2.step s e).nextExchangeId } (Http2.step s e) :=
  handle (s := { s with calls := e.2 }) (h.answering e.2) e.1

theorem answers_of_left {k : Known} (h : Inv k s) (hsubmitted : 1 ≤ id ∧ id < k.next)
    (hleft : (s.pendings id).pending = false) : (s.pendings id).answers.length = 1 := by
  have hanswered := (h.each id).answered
  have hhandler : (s.pendings id).handler = false := by
    by_contra hhandler
    exact Bool.false_ne_true (hleft.symm.trans ((h.each id).sender (by simpa using hhandler)))
  rw [hhandler, decide_eq_true hsubmitted] at hanswered
  exact hanswered

theorem answered_at_deadline (h : Inv { next := s.nextExchangeId } s) (hsubmitted : s.Submitted id)
    (hhandler : (s.pendings id).handler = true) (calls : Calls) :
    ((Http2.step s (.deadline id, calls)).pendings id).answers.length = 1 := by
  have hpending := (h.each id).sender hhandler
  have htimer : ¬ (s.pendings id).timerDone = true := by simp [(h.each id).timer hhandler]
  have hstep : Http2.step s (.deadline id, calls) = State.failPending { s with calls } id .timeout :=
    if_neg htimer
  have hfailed := (h.answering calls).failed hpending .timeout
  rw [hstep]
  exact hfailed.answers_of_left hsubmitted (hfailed.left id rfl)

theorem sound (h : Inv { next := s.nextExchangeId } s) : Sound s := by
  have hanswered : ∀ id, 1 ≤ id ∧ id < s.nextExchangeId → (s.pendings id).handler = false →
      (s.pendings id).answers.length = 1 := by
    intro id hsubmitted hhandler
    have hanswered := (h.each id).answered
    rw [hhandler, decide_eq_true hsubmitted] at hanswered
    exact hanswered
  refine ⟨fun id => ?_, fun id hnot => ?_, fun id hsubmitted => ?_, fun hgone id hsubmitted => ?_, h.keys,
    fun stream id => ?_, h.own, h.held, fun hhttp2 hclosed => ?_⟩
  · have hle : (if decide (1 ≤ id ∧ id < s.nextExchangeId) = true then 1 else 0) ≤ 1 := by split <;> omega
    have hanswered := (h.each id).answered
    dsimp only at hanswered
    omega
  · have hanswered := (h.each id).answered
    rw [decide_eq_false (show ¬ (1 ≤ id ∧ id < s.nextExchangeId) from hnot)] at hanswered
    exact length_eq_zero_iff.1 (Nat.eq_zero_of_add_eq_zero_right hanswered)
  · cases hhandler : (s.pendings id).handler with
    | false => exact .inl (hanswered id hsubmitted hhandler)
    | true => exact .inr ⟨(h.each id).sender hhandler, h.answered_at_deadline hsubmitted hhandler⟩
  · exact h.answers_of_left hsubmitted (h.gone hgone id)
  · rw [h.opened]
  · exact (h.credit hhttp2 hclosed).2

end Inv

/-! ## Runs -/

theorem started_inv (sent : Sent) : Inv { next := (started sent).nextExchangeId } (started sent) := by
  have hinit : Inv { next := 1 } { calls := { sends := [sent] } } := by
    refine ⟨rfl, Nat.le_refl 1, fun id => ?_, nofun, rfl, rfl, nofun, nofun, fun _ _ => rfl, nofun, ?_,
      ?_, nofun, fun _ _ => ⟨rfl, rfl⟩⟩
    · rw [decide_eq_false fun hid : 1 ≤ id ∧ id < 1 => Nat.not_lt.2 hid.1 hid.2]
      constructor <;> simp
    · exact fun _ _ => rfl
    · exact fun hgone => hgone.elim nofun nofun
  have hstarted := hinit.sendPending.readResponse
  have hnext := hstarted.next
  unfold started
  rw [hnext]
  exact hstarted

/-- **Whatever happens, in whatever order, and whatever nghttp2 answers**, the session keeps its promises
after each step. -/
theorem session_sound (sent : Sent) (l : List (Event × Calls)) : Sound (run step (started sent) l) := by
  have hrun : Inv { next := (run step (started sent) l).nextExchangeId } (run step (started sent) l) :=
    run_induction (P := fun s => Inv { next := s.nextExchangeId } s) (fun s e hs => hs.step e) l (started sent)
      (started_inv sent)
  exact hrun.sound

/-- An accepted tunnel is not pending, and its open stream has its entries.  And a peer that retires the
connection: with the last response it is closed, and what that read has brought is not given back. -/
theorem tunnel_keeps_entry_and_last_read_not_returned :
    (let s := run step (started { result := .bytes }) [(.written false, {}), (.submitTunnel false 0 none, {}),
        (.read (.bytes [.settings false, .header 1 200, .headers 1 true false] true), {})]
     ¬ ∀ stream id, s.streamIds stream = some id ↔ s.opened stream = some id ∧ (s.pendings id).pending = true) ∧
    (let s := run step (started { result := .bytes }) [(.written false, {}), (.submitBuffered 100 none, {}),
        (.read (.bytes [.goaway 1, .header 1 200, .headers 1 true false, .dataChunk 1 5 true,
          .data 1 true] true), {})]
     (s.pendings 1).answers = [.response] ∧ s.dataReceived = 5 ∧ s.creditReturned = 0) := by
  refine ⟨fun hiff => ?_, by decide +kernel⟩
  have hpending := ((hiff 1 1).1 (by decide +kernel)).2
  exact absurd hpending (by decide +kernel)

end ClashNative.Http2
