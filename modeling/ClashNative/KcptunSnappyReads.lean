import ClashNative.KcptunSnappyWrites
/-!
# KcptunSnappyReads — what is decoded is delivered before the end

Decoded bytes reach the reader in order.  The end of the stream closes it at once: decoded bytes that
nobody has read by then are lost, and a chunk that the end of file cuts off ends like a stream that is
complete.
-/
namespace ClashNative.Kcptun.Snappy

open List

def dataOf : Except StreamError Bytes → Bytes
  | .ok data => data
  | .error _ => []

def Stage.Malformed (codec : Codec) : Stage → Bytes → Prop
  | .identifier, bytes => bytes ≠ kStreamIdentifier
  | .header, bytes => ¬ (0x80 ≤ bytes.getD 0 0 ∧ bytes.getD 0 0 ≤ 0xfe) ∧
    ((bytes.getD 0 0 ≠ 0x00 ∧ bytes.getD 0 0 ≠ 0x01) ∨ getU24 (bytes.drop 1) < kChunkChecksumSize)
  | .payload type _, bytes => ∃ e, decodeChunk codec type bytes = .error e
  | .skip _, _ => False

namespace StreamState

def delivered (s : StreamState) : Bytes := s.reads.flatMap dataOf

def AtBoundary (s : StreamState) : Prop := s.got = [] ∧ (s.stage = .identifier ∨ s.stage = .header)

/-- **What is promised of the reads**: decoded bytes are delivered in order, and none waits beside a
reader; the end is told when all of them have been delivered, as the end of file only where no chunk is
cut off. -/
structure Delivered (s : StreamState) : Prop where
  order : s.delivered ++ s.incoming = s.decoded
  prompt : s.readHandler.isSome = true → s.incoming = []
  ends : ∀ e, .error e ∈ s.reads → e = .operationAborted ∨ e = .alreadyStarted ∨ s.told = true
  told : s.told = true → s.delivered = s.decoded
  whole : .error .eof ∈ s.reads → s.AtBoundary

def Live (s : StreamState) : Prop := s.reading = true ∧ s.stack = [] ∧ s.closed = false

/-- **The condition**: whatever ends the stream meets it without decoded bytes that were not read, and the
end of file cuts no chunk off while a read is parked. -/
def EndsDrained (codec : Codec) (s : StreamState) : Event → Prop
  | .arrive bytes => s.Live →
    if bytes = [] then s.incoming = [] ∧ (s.readHandler.isSome = true → s.AtBoundary)
    else s.got.length + bytes.length = s.stage.size → s.stage.Malformed codec (s.got ++ bytes) → s.incoming = []
  | .eof => s.Live → s.incoming = [] ∧ (s.readHandler.isSome = true → s.AtBoundary)
  | .readError => s.Live → s.incoming = []
  | .writeDone true => s.closed = false → ∀ id, s.inFlight = some id →
      (s.pending id).cancelled = false → s.incoming = []
  | _ => True

structure Kept (s : StreamState) : Prop where
  order : s.delivered ++ s.incoming = s.decoded
  prompt : s.readHandler.isSome = true → s.incoming = []
  ends : ∀ e, .error e ∈ s.reads → e = .operationAborted ∨ e = .alreadyStarted ∨ s.told = true
  told : s.told = true → s.failed = true
  drained : s.failed = true → s.incoming = []
  whole : .error .eof ∈ s.reads → s.AtBoundary ∧ s.reading = false
  halted : s.failed = true → s.closed = true ∨ .close ∈ s.stack
  open_ : s.remoteClosed = false

variable {s s' : StreamState}

theorem Kept.delivered (h : Kept s) : Delivered s where
  order := h.order
  prompt := h.prompt
  ends := h.ends
  told htold := by
    have horder := h.order
    rw [h.drained (h.told htold), append_nil] at horder
    exact horder
  whole heof := (h.whole heof).1

theorem Kept.not_failed (h : Kept s) (hlive : s.Live) : s.failed = false := by
  cases hfailed : s.failed with
  | false => rfl
  | true =>
    rcases h.halted hfailed with hclosed | hclose
    · exact absurd (hlive.2.2.symm.trans hclosed) Bool.noConfusion
    · rw [hlive.2.1] at hclose
      cases hclose

/-! ## What writes leave alone -/

structure SameReads (s s' : StreamState) : Prop where
  stage : s'.stage = s.stage
  got : s'.got = s.got
  reading : s'.reading = s.reading
  incoming : s'.incoming = s.incoming
  remoteClosed : s'.remoteClosed = s.remoteClosed
  readHandler : s'.readHandler = s.readHandler
  reads : s'.reads = s.reads
  decoded : s'.decoded = s.decoded
  failed : s'.failed = s.failed
  told : s'.told = s.told
  halted : s.closed = true ∨ .close ∈ s.stack → s'.closed = true ∨ .close ∈ s'.stack

theorem SameReads.refl (s : StreamState) : SameReads s s :=
  ⟨rfl, rfl, rfl, rfl, rfl, rfl, rfl, rfl, rfl, rfl, fun h => h⟩

theorem SameReads.kept (hsame : SameReads s s') (h : Kept s) : Kept s' := by
  refine ⟨?_, fun hsome => ?_, fun e he => ?_, fun htold => ?_, fun hfailed => ?_, fun heof => ?_,
    fun hfailed => ?_, ?_⟩
  · unfold StreamState.delivered
    rw [hsame.reads, hsame.incoming, hsame.decoded]
    exact h.order
  · rw [hsame.readHandler] at hsome
    rw [hsame.incoming]
    exact h.prompt hsome
  · rw [hsame.reads] at he
    rw [hsame.told]
    exact h.ends e he
  · rw [hsame.told] at htold
    rw [hsame.failed]
    exact h.told htold
  · rw [hsame.failed] at hfailed
    rw [hsame.incoming]
    exact h.drained hfailed
  · rw [hsame.reads] at heof
    unfold AtBoundary
    rw [hsame.got, hsame.stage, hsame.reading]
    exact h.whole heof
  · rw [hsame.failed] at hfailed
    exact hsame.halted (h.halted hfailed)
  · rw [hsame.remoteClosed]
    exact h.open_

theorem sameReads_pumpWrite (s : StreamState) : SameReads s s.pumpWrite := by
  unfold pumpWrite
  split
  · exact SameReads.refl s
  · split
    · exact SameReads.refl s
    · exact ⟨rfl, rfl, rfl, rfl, rfl, rfl, rfl, rfl, rfl, rfl, fun h => h⟩

theorem sameReads_failQueued (error : StreamError) :
    ∀ (ids : List Nat) (s : StreamState), SameReads s (s.failQueued error ids)
  | [], s => SameReads.refl s
  | id :: rest, s => by
    unfold failQueued
    split
    · have h := sameReads_failQueued error rest (s.call id (.error error))
      exact { h with }
    · exact sameReads_failQueued error rest s

theorem sameReads_finishWrite (s : StreamState) (error : StreamError) : SameReads s (s.finishWrite error) := by
  have h := sameReads_failQueued error s.writes { s with writeHandler := none }
  unfold finishWrite
  dsimp only
  split
  · exact { h with }
  · split <;> exact { h with }

theorem sameReads_asyncWrite (s : StreamState) (codec : Codec) (data : Bytes) :
    SameReads s (s.asyncWrite codec data) := by
  unfold asyncWrite
  dsimp only
  split
  · exact ⟨rfl, rfl, rfl, rfl, rfl, rfl, rfl, rfl, rfl, rfl, fun h => h⟩
  · split
    · exact ⟨rfl, rfl, rfl, rfl, rfl, rfl, rfl, rfl, rfl, rfl, fun h => h⟩
    · split
      · exact ⟨rfl, rfl, rfl, rfl, rfl, rfl, rfl, rfl, rfl, rfl, fun h => h⟩
      · have h := sameReads_pumpWrite (({ s with
          next := s.next + 1
          writeIdentifierSent := true
          writeHandler := some s.next
          writes := s.writes ++ [s.next] }).modify s.next fun _ =>
            { packet := (if s.writeIdentifierSent then [] else kStreamIdentifier) ++
              appendChunks codec data.length data, size := data.length })
        exact { h with }

theorem sameReads_cancelWrite (s : StreamState) : SameReads s s.cancelWrite := by
  unfold cancelWrite
  split
  · exact SameReads.refl s
  · split <;> exact ⟨rfl, rfl, rfl, rfl, rfl, rfl, rfl, rfl, rfl, rfl, fun h => h⟩

theorem sameReads_landed (s : StreamState) (id : Nat) (failed : Bool) : SameReads s (s.landed id failed) :=
  ⟨rfl, rfl, rfl, rfl, rfl, rfl, rfl, rfl, rfl, rfl, fun h => h⟩

/-! ## The moves of the reading half -/

theorem delivered_readDone (s : StreamState) (result : Except StreamError Bytes) :
    (s.readDone result).delivered = s.delivered ++ dataOf result := by
  unfold StreamState.delivered readDone
  rw [flatMap_append, flatMap_singleton]

theorem readDone_kept (h : Kept s) {e : StreamError} (he : e = .operationAborted ∨
    e = .alreadyStarted) : Kept (s.readDone (.error e)) := by
  refine { h with order := ?_, ends := fun e' he' => ?_, whole := fun heof => ?_ }
  · rw [delivered_readDone]
    show s.delivered ++ [] ++ s.incoming = s.decoded
    rw [append_nil]
    exact h.order
  · rcases mem_append.1 he' with hold | hnew
    · exact h.ends e' hold
    · cases mem_singleton.1 hnew
      exact he.imp_right .inl
  · rcases mem_append.1 heof with hold | hnew
    · exact h.whole hold
    · cases mem_singleton.1 hnew
      exact absurd he (by decide)

theorem deliverRead_kept (horder : s.delivered ++ s.incoming = s.decoded)
    (hends : ∀ e, .error e ∈ s.reads → e = .operationAborted ∨ e = .alreadyStarted ∨ s.told = true)
    (htold : s.told = true → s.failed = true)
    (hdrained : s.failed = true → s.incoming = []) (hwhole : .error .eof ∈ s.reads → s.AtBoundary ∧
      s.reading = false)
    (hhalted : s.failed = true → s.closed = true ∨ .close ∈ s.stack)
    (hopen : s.remoteClosed = false) : Kept s.deliverRead := by
  unfold deliverRead
  split
  · rename_i hnone
    exact ⟨horder, fun hsome => (by rw [hnone] at hsome; cases hsome), hends, htold, hdrained, hwhole,
      hhalted, hopen⟩
  · rename_i size hsize
    split
    · rename_i hempty
      rw [if_neg (by simp [hopen])]
      exact ⟨horder, fun _ => hempty, hends, htold, hdrained, hwhole, hhalted, hopen⟩
    · refine ⟨?_, nofun, fun e he => ?_, htold, fun hfailed => ?_, fun heof => ?_, hhalted, hopen⟩
      · rw [delivered_readDone]
        show s.delivered ++ s.incoming.take size ++ s.incoming.drop size = s.decoded
        rw [append_assoc, take_append_drop]
        exact horder
      · rcases mem_append.1 he with hold | hnew
        · exact hends e hold
        · exact nomatch mem_singleton.1 hnew
      · rw [hdrained hfailed]
        exact drop_nil
      · rcases mem_append.1 heof with hold | hnew
        · exact hwhole hold
        · exact nomatch mem_singleton.1 hnew

theorem asyncReadSome_kept (h : Kept s) (size : Nat) : Kept (s.asyncReadSome size) := by
  unfold asyncReadSome
  split
  · have htold : Kept { s with told := s.told || s.failed } := by
      refine { h with ends := fun e he => ?_, told := fun ht => ?_ }
      · exact (h.ends e he).imp_right fun he => he.imp_right fun ht => by
          rw [ht]
          rfl
      · rcases Bool.or_eq_true _ _ ▸ (show (s.told || s.failed) = true from ht) with ht | hf
        · exact h.told ht
        · exact hf
    exact readDone_kept htold (.inl rfl)
  · split
    · exact readDone_kept h (.inr rfl)
    · split
      · refine { h with order := ?_, ends := fun e he => ?_, whole := fun heof => ?_ }
        · rw [delivered_readDone]
          show s.delivered ++ [] ++ s.incoming = s.decoded
          rw [append_nil]
          exact h.order
        · rcases mem_append.1 he with hold | hnew
          · exact h.ends e hold
          · exact nomatch mem_singleton.1 hnew
        · rcases mem_append.1 heof with hold | hnew
          · exact h.whole hold
          · exact nomatch mem_singleton.1 hnew
      · exact deliverRead_kept (s := { s with readHandler := some size })
          h.order h.ends h.told h.drained h.whole h.halted h.open_

theorem cancelRead_kept (h : Kept s) : Kept s.cancelRead := by
  unfold cancelRead
  split
  · exact h
  · have hgone : Kept { s with readHandler := none } :=
      { h with prompt := nofun }
    exact readDone_kept hgone (.inl rfl)

theorem closeWithError_kept (h : Kept s) (hempty : s.closed = false → s.incoming = []) (error : StreamError)
    (hwhole : s.closed = false → error = .eof → s.readHandler.isSome = true → s.AtBoundary ∧ s.reading = false) :
    Kept (s.closeWithError error) := by
  unfold closeWithError
  split
  · exact h
  · rename_i hclosed
    have hclosed : s.closed = false := by simpa using hclosed
    unfold finishRead
    split
    · exact ⟨h.order, h.prompt, h.ends, fun _ => rfl, fun _ => hempty hclosed, h.whole,
        fun _ => .inr (mem_cons_of_mem _ mem_cons_self), h.open_⟩
    · rename_i size hsize
      have htold : (s.told || true) = true := Bool.or_true _
      refine ⟨?_, nofun, fun _ _ => .inr (.inr htold), fun _ => rfl, fun _ => hempty hclosed, fun heof => ?_,
        fun _ => .inr (mem_cons_of_mem _ mem_cons_self), h.open_⟩
      · show (s.reads ++ [Except.error error]).flatMap dataOf ++ s.incoming = s.decoded
        rw [flatMap_append, flatMap_singleton]
        show s.delivered ++ [] ++ s.incoming = s.decoded
        rw [append_nil]
        exact h.order
      · rcases mem_append.1 heof with hold | hnew
        · exact h.whole hold
        · have heq : error = .eof := (Except.error.inj (mem_singleton.1 hnew)).symm
          exact hwhole hclosed heq (by rw [hsize]; rfl)

theorem stopReading_kept (h : Kept s) (hempty : s.incoming = []) (error : StreamError)
    (hwhole : error = .eof → s.readHandler.isSome = true → s.AtBoundary) : Kept (s.stopReading error) := by
  have hstopped : Kept { s with reading := false } :=
    { h with whole := fun heof => ⟨(h.whole heof).1, rfl⟩ }
  exact closeWithError_kept hstopped (fun _ => hempty) error fun _ heq hsome => ⟨hwhole heq hsome, rfl⟩

theorem next_kept (h : Kept s) (hlive : s.Live) (stage : Stage)
    (got : Bytes) : Kept { s with stage := stage, got := got } :=
  { h with whole := fun heof => absurd ((h.whole heof).2.symm.trans hlive.1) Bool.noConfusion }

theorem receive_kept (h : Kept s) (hlive : s.Live) (decoded : Bytes) : Kept (s.receive decoded) := by
  have hfailed := h.not_failed hlive
  have hdelivered : Kept ({ s with
      incoming := s.incoming ++ decoded, decoded := s.decoded ++ decoded }).deliverRead := by
    refine deliverRead_kept ?_ h.ends h.told (fun hf => absurd (hfailed.symm.trans hf) Bool.noConfusion)
      h.whole h.halted h.open_
    show s.delivered ++ (s.incoming ++ decoded) = s.decoded ++ decoded
    rw [← append_assoc, h.order]
  have hsame : ({ s with incoming := s.incoming ++ decoded, decoded := s.decoded ++
    decoded }).deliverRead.reading = s.reading := by
    unfold deliverRead finishRead
    split
    · rfl
    · split
      · split
        · split <;> rfl
        · rfl
      · rfl
  exact { hdelivered with
    whole := fun heof => absurd ((hdelivered.whole heof).2.symm.trans (hsame.trans hlive.1)) Bool.noConfusion }

theorem stageRead_kept (h : Kept s) (hlive : s.Live) (codec : Codec) {bytes : Bytes}
    (hdrained : s.stage.Malformed codec bytes → s.incoming = []) :
    Kept (s.stageRead codec bytes) := by
  have hstop : s.stage.Malformed codec bytes → ∀ error, error ≠ .eof → Kept (s.stopReading error) :=
    fun hbad error hne =>
    stopReading_kept h (hdrained hbad) error fun heq => absurd heq hne
  unfold stageRead
  cases hstage : s.stage with
  | identifier =>
    rw [hstage] at hstop
    dsimp only
    split
    · exact hstop ‹_› _ (by decide)
    · exact next_kept h hlive _ _
  | header =>
    rw [hstage] at hstop
    dsimp only
    split
    · split
      · exact next_kept h hlive .header []
      · exact next_kept h hlive _ _
    · rename_i hreserved
      split
      · exact hstop ⟨hreserved, ‹_›⟩ _ (by decide)
      · exact next_kept h hlive _ _
  | payload type length =>
    rw [hstage] at hstop
    dsimp only
    split
    · rename_i e hdecode
      have hne : e ≠ .eof := by
        unfold decodeChunk at hdecode
        dsimp only at hdecode
        split at hdecode
        · cases hdecode
          exact nofun
        · split at hdecode
          · cases hdecode
            exact nofun
          · cases hdecode
      exact hstop ⟨e, hdecode⟩ e hne
    · exact receive_kept h hlive _
  | skip length => exact next_kept h hlive _ _

theorem arrive_kept (h : Kept s) (codec : Codec) (bytes : Bytes)
    (hends : s.EndsDrained codec (.arrive bytes)) : Kept (s.arrive codec bytes) := by
  unfold arrive
  split
  · exact h
  · rename_i hwaiting
    split
    · exact { h with whole := fun heof => ⟨(h.whole heof).1, rfl⟩ }
    · rename_i hopen
      have hlive : s.Live := by
        rw [not_or] at hwaiting
        exact ⟨by simpa using hwaiting.1, not_not.1 hwaiting.2, by simpa using hopen⟩
      have hends := hends hlive
      split
      · rename_i hnil
        rw [if_pos hnil] at hends
        exact stopReading_kept h hends.1 _ fun _ => hends.2
      · rename_i hsome
        rw [if_neg hsome] at hends
        split
        · exact h
        · rename_i hfits
          split
          · exact next_kept h hlive s.stage _
          · rename_i hfull
            exact stageRead_kept h hlive codec (hends (by omega))

theorem arriveError_kept (h : Kept s) (error : StreamError)
    (hends : s.Live → s.incoming = [] ∧ (error = .eof → s.readHandler.isSome = true → s.AtBoundary)) : Kept
    (s.arriveError error) := by
  unfold arriveError
  split
  · exact h
  · rename_i hwaiting
    rw [not_or] at hwaiting
    have hreading : s.reading = true := by simpa using hwaiting.1
    by_cases hopen : s.closed = false
    · have hlive : s.Live := ⟨hreading, not_not.1 hwaiting.2, hopen⟩
      exact stopReading_kept h (hends hlive).1 error (hends hlive).2
    · have hclosed : s.closed = true := by simpa using hopen
      have hsame : s.stopReading error = { s with reading := false } := if_pos hclosed
      rw [hsame]
      exact { h with whole := fun heof => ⟨(h.whole heof).1, rfl⟩ }

theorem close_kept (h : Kept { s with closed := true }) (hopen : s.closed = true → Kept s) : Kept s.close := by
  unfold close
  split
  · exact hopen ‹_›
  · refine (sameReads_finishWrite _ _).kept ?_
    unfold finishRead
    split
    · exact h
    · have htold : Kept { s with closed := true, readHandler := none, told := s.told || s.failed } := by
        refine ⟨h.order, nofun, fun e he => ?_, fun ht => ?_, h.drained, h.whole, fun _ => .inl rfl, h.open_⟩
        · exact (h.ends e he).imp_right fun he => he.imp_right fun ht => by
            rw [show s.told = true from ht]
            rfl
        · rcases Bool.or_eq_true _ _ ▸ (show (s.told || s.failed) = true from ht) with ht | hf
          · exact h.told ht
          · exact hf
      exact readDone_kept htold (.inl rfl)

theorem kept_of_halted (h : Kept s) (stack : List Resume) (closed : Bool)
    (hhalted : s.failed = true → closed = true ∨
      .close ∈ stack) : Kept { s with stack := stack, closed := closed } :=
  { h with halted := hhalted }

theorem handlerReturned_kept (h : Kept s) : Kept s.handlerReturned := by
  have hrest : ∀ r stack, s.stack = r :: stack → r ≠ .close → s.failed = true → s.closed = true ∨
      .close ∈ stack := by
    intro r stack hstack hne hfailed
    refine (h.halted hfailed).imp_right fun hmem => ?_
    rw [hstack] at hmem
    exact (mem_cons.1 hmem).resolve_left fun heq => hne heq.symm
  unfold handlerReturned
  cases hstack : s.stack with
  | nil => exact h
  | cons r stack =>
    cases r with
    | pumpWrite =>
      have hpopped : Kept { s with stack := stack } := kept_of_halted h stack s.closed (hrest _ _ hstack nofun)
      exact (sameReads_pumpWrite _).kept hpopped
    | finishWrite error =>
      have hpopped : Kept { s with stack := stack } := kept_of_halted h stack s.closed (hrest _ _ hstack nofun)
      exact (sameReads_finishWrite _ _).kept hpopped
    | close =>
      refine close_kept (s := { s with stack := stack }) (kept_of_halted h stack true fun _ => .inl rfl)
        fun hclosed => ?_
      exact kept_of_halted h stack s.closed fun _ => .inl hclosed

theorem writeDone_kept (h : Kept s) (codec : Codec) (failed : Bool)
    (hends : s.EndsDrained codec (.writeDone failed)) :
    Kept (s.writeDone failed) := by
  unfold writeDone
  split
  · exact h
  · rename_i id hflight
    have hlanded : ∀ b, Kept (s.landed id b) := fun b => (sameReads_landed s id b).kept h
    cases failed with
    | true =>
      rw [if_pos rfl]
      split
      · exact (sameReads_pumpWrite _).kept (hlanded true)
      · rename_i hcancelled
        exact closeWithError_kept (hlanded true)
          (fun hopen => hends hopen id hflight (by simpa using hcancelled)) _
          nofun
    | false =>
      rw [if_neg Bool.false_ne_true]
      split
      · have hsame : SameReads (s.landed id false) ((s.landed id false).succeed id) :=
          ⟨rfl, rfl, rfl, rfl, rfl, rfl, rfl, rfl, rfl, rfl, fun hs => hs.imp_right (mem_cons_of_mem _)⟩
        exact hsame.kept (hlanded false)
      · exact (sameReads_pumpWrite _).kept (hlanded false)

theorem step_kept (h : Kept s) (codec : Codec) (e : Event)
    (hends : s.EndsDrained codec e) : Kept (s.step codec e) := by
  cases e with
  | read size => exact asyncReadSome_kept h size
  | cancelRead => exact cancelRead_kept h
  | arrive bytes => exact arrive_kept h codec bytes hends
  | eof => exact arriveError_kept h .eof fun hlive => ⟨(hends hlive).1, fun _ => (hends hlive).2⟩
  | readError => exact arriveError_kept h .transport fun hlive => ⟨hends hlive, nofun⟩
  | write data => exact (sameReads_asyncWrite s codec data).kept h
  | cancelWrite => exact (sameReads_cancelWrite s).kept h
  | shutdownSend => exact h
  | close => exact close_kept (kept_of_halted h s.stack true fun _ => .inl rfl) fun _ => h
  | writeDone failed => exact writeDone_kept h codec failed hends
  | handlerReturned => exact handlerReturned_kept h

theorem kept_start : Kept {} :=
  ⟨rfl, nofun, nofun, nofun, nofun, nofun,
    nofun, rfl⟩

end StreamState

def sevenHeader : Bytes := [0x01, 5, 0, 0]

def sevenPayload : Bytes := putU32 (maskedCrc32c [7]) ++ [7]

/-- A byte that was decoded before the end of file is not delivered, and a header that is cut off is
reported as the end of file. -/
theorem decoded_byte_lost :
    ¬ (run stored [.arrive kStreamIdentifier, .arrive sevenHeader, .arrive sevenPayload, .eof,
      .handlerReturned, .handlerReturned,
      .read 1]).Delivered ∧
    ¬ (run stored [.arrive kStreamIdentifier, .read 1, .arrive [0x01], .eof]).Delivered := by
  constructor
  · intro h
    exact absurd (h.told (by decide +kernel)) (by decide +kernel)
  · intro h
    exact absurd (h.whole (by decide +kernel)).1 (by decide +kernel)

/-- **In a run that meets the condition** every state has delivered what was decoded. -/
theorem delivered_of_drained (codec : Codec) (before after : List Event)
    (h : Runs.Along (StreamState.step codec) (StreamState.EndsDrained codec) ({} : StreamState)
      (before ++ after)) :
    (run codec before).Delivered := by
  have hbefore := ((Runs.along_append before after ({} : StreamState)).1 h).1
  have hkept : (run codec before).Kept :=
    Runs.along_induction (P := StreamState.Kept)
      (fun _ e hs hends => StreamState.step_kept hs codec e hends) before {} StreamState.kept_start
      hbefore
  exact hkept.delivered

/-- The byte 7 is read before the end of file. -/
theorem delivered_of_drained_seven :
    (run stored [.arrive kStreamIdentifier, .read 1, .arrive sevenHeader,
      .arrive sevenPayload, .eof]).Delivered :=
  delivered_of_drained stored [.arrive kStreamIdentifier, .read 1, .arrive sevenHeader,
    .arrive sevenPayload, .eof] []
    ⟨fun _ _ _ => rfl, trivial, fun _ _ _ => rfl, fun _ _ _ => rfl,
      fun _ => ⟨by decide +kernel, fun hparked => absurd hparked (by decide +kernel)⟩,
      trivial⟩

end ClashNative.Kcptun.Snappy
