import ClashNative.RestlsStream
/-!
# RestlsPump — what the pumps of a ResTLS stream do

Every way in which `pump_write` can leave the stream, and what the functions of the writes leave alone:
the whole side of the reads.
-/
namespace ClashNative.Restls

open List

theorem encode_fits (hash : KeyedHash) (c : RestlsApplicationCodec) (data : Bytes)
    (dataLength paddingLength : Nat) (command : RestlsCommand)
    (hdata : dataLength ≤ data.length) (hfits :
      c.gcmLength + kRestlsAuthHeaderLength + dataLength + paddingLength ≤ 65535) :
    ∃ record encoder, c.encode hash data dataLength paddingLength command = (.ok record, encoder) ∧
    encoder.tls12Gcm = c.tls12Gcm := by
  unfold RestlsApplicationCodec.encode
  rw [if_neg (by omega), if_neg (by omega)]
  exact ⟨_, _, rfl, rfl⟩

theorem gcmLength_le (c : RestlsApplicationCodec) : c.gcmLength ≤ 8 := by
  unfold RestlsApplicationCodec.gcmLength
  split <;> decide

theorem gcmLength_eq {c d : RestlsApplicationCodec} (h : d.tls12Gcm = c.tls12Gcm) : d.gcmLength =
    c.gcmLength := by
  unfold RestlsApplicationCodec.gcmLength
  rw [h]

namespace RestlsStream

variable (env : Env) {s t : RestlsStream}

/-! ## The script -/

theorem nextLine_cases (s : RestlsStream) (otherwise : Nat) :
    (s.script.length ≤ s.scriptIndex ∧ s.nextLine env otherwise = (otherwise, {}, s)) ∨
    ∃ target command drawn, s.scriptIndex < s.script.length ∧ s.nextLine env otherwise =
    (target, command, { s with drawn }) ∧ target ≤ 32768 := by
  unfold nextLine
  cases hline : s.script[s.scriptIndex]? with
  | none => exact .inl ⟨List.getElem?_eq_none_iff.1 hline, rfl⟩
  | some line =>
    refine .inr ?_
    have hlt := (List.getElem?_eq_some_iff.1 hline).1
    have hfits := line.fits
    dsimp only
    unfold scriptTarget
    by_cases hrange : line.randomRange = 0
    · rw [if_pos hrange]
      exact ⟨line.targetLength, line.command, s.drawn, hlt, rfl, by omega⟩
    · rw [if_neg hrange]
      refine ⟨_, line.command, s.drawn + 4, hlt, rfl, ?_⟩
      have hmod := Nat.mod_lt ((List.range 4).foldl
        (fun value i => value * 256 + (env.rng (s.drawn + i)).toNat) 0) (Nat.pos_of_ne_zero hrange)
      dsimp only
      omega

/-! ## The pumps -/

section Pump

variable (finish : RestlsStream → Except StreamError Nat → RestlsStream)

theorem pumpControlWrite_cases (s : RestlsStream) :
    (s.pendingControlResponses = 0 ∨ s.inFlight.isSome = true) ∧ s.pumpControlWrite env finish = s ∨
      s.pendingControlResponses ≠ 0 ∧ s.inFlight = none ∧ ∃ drawn encoder wire,
        s.pumpControlWrite env finish = { s with drawn, encoder, inFlight := some (.control wire) } ∧
        encoder.tls12Gcm = s.encoder.tls12Gcm := by
  unfold pumpControlWrite
  by_cases hnone : s.pendingControlResponses = 0 ∨ s.inFlight.isSome = true
  · rw [if_pos hnone]
    exact .inl ⟨hnone, rfl⟩
  · rw [if_neg hnone]
    rw [not_or, Option.not_isSome_iff_eq_none] at hnone
    refine .inr ⟨hnone.1, hnone.2, ?_⟩
    have hgcm := gcmLength_le s.encoder
    have hauth : kRestlsAuthHeaderLength = 12 := rfl
    obtain ⟨target, command, drawn, hline, htarget⟩ : ∃ target command drawn,
        s.nextLine env 32 = (target, command, { s with drawn }) ∧ target ≤ 32768 := by
      rcases nextLine_cases env s 32 with ⟨-, hline⟩ | ⟨target, command, drawn, -, hline, htarget⟩
      · exact ⟨32, {}, s.drawn, hline, by decide⟩
      · exact ⟨target, command, drawn, hline, htarget⟩
    rw [hline]
    dsimp only
    obtain ⟨wire, encoder, hencode, hsuite⟩ :=
      encode_fits env.hash s.encoder [] 0 (min target 65535) command (Nat.le_refl 0) (by omega)
    rw [hencode]
    exact ⟨drawn, encoder, wire, rfl, hsuite⟩

inductive Pumped (env : Env) (finish : RestlsStream → Except StreamError Nat → RestlsStream)
    (s : RestlsStream) : RestlsStream → Prop
  | busy : s.inFlight.isSome = true → Pumped env finish s s
  | control {drawn : Nat} {encoder : RestlsApplicationCodec} {wire : Bytes} :
    s.inFlight = none → s.pendingControlResponses ≠ 0 →
      encoder.tls12Gcm = s.encoder.tls12Gcm →
      Pumped env finish s { s with drawn, encoder, inFlight := some (.control wire) }
  | gated : s.inFlight = none → s.writeWaitingResponse = true → Pumped env finish s s.ensureControlRead
  | idle : s.inFlight = none → s.writeHandler = none → Pumped env finish s s
  | done {owner : Nat} : s.inFlight = none → s.pendingControlResponses = 0 →
    s.writeWaitingResponse = false → s.writeHandler = some owner →
      s.pendingWriteOffset = s.pendingWrite.length → Pumped env finish s (finish s (.ok s.pendingWriteSize))
  | overrun {owner : Nat} : s.inFlight = none → s.writeHandler = some owner →
    s.pendingWrite.length < s.pendingWriteOffset →
      Pumped env finish s { s with overrun := true }
  | large {owner : Nat} : s.inFlight = none → s.writeHandler = some owner → s.script.length ≤ s.scriptIndex →
      65535 < s.encoder.gcmLength + kRestlsAuthHeaderLength + (s.pendingWrite.length - s.pendingWriteOffset) →
      Pumped env finish s (finish s (.error .fault))
  | data {owner chunk drawn : Nat} {needsResponse : Bool} {encoder : RestlsApplicationCodec}
    {wire : Bytes} : s.inFlight = none →
      s.writeWaitingResponse = false → s.writeHandler = some owner → 0 < chunk →
      s.pendingWriteOffset + chunk ≤ s.pendingWrite.length →
      encoder.tls12Gcm = s.encoder.tls12Gcm →
      Pumped env finish s { s with
        drawn, encoder, inFlight := some (.data owner chunk needsResponse wire)
        sent := s.sent ++ [(owner, (s.pendingWrite.drop s.pendingWriteOffset).take chunk)] }

theorem pumpWrite_pumped (s : RestlsStream) : Pumped env finish s (s.pumpWrite env finish) := by
  unfold pumpWrite
  by_cases hbusy : s.inFlight.isSome = true
  · rw [if_pos hbusy]
    exact .busy hbusy
  · rw [if_neg hbusy]
    rw [Option.not_isSome_iff_eq_none] at hbusy
    by_cases hcontrol : s.pendingControlResponses ≠ 0
    · rw [if_pos hcontrol]
      rcases pumpControlWrite_cases env finish s with ⟨hnot, -⟩ | ⟨-, -, drawn, encoder, wire, heq, hsuite⟩
      · rcases hnot with hzero | hsome
        · exact absurd hzero hcontrol
        · rw [hbusy] at hsome
          cases hsome
      · rw [heq]
        exact .control hbusy hcontrol hsuite
    · rw [if_neg hcontrol]
      rw [not_not] at hcontrol
      by_cases hwaiting : s.writeWaitingResponse = true
      · rw [if_pos hwaiting]
        exact .gated hbusy hwaiting
      · rw [if_neg hwaiting]
        rw [Bool.not_eq_true] at hwaiting
        split
        · rename_i hnone
          exact .idle hbusy hnone
        · rename_i owner howner
          by_cases hdone : s.pendingWriteOffset = s.pendingWrite.length
          · rw [if_pos hdone]
            exact .done hbusy hcontrol hwaiting howner hdone
          · rw [if_neg hdone]
            by_cases hover : s.pendingWrite.length < s.pendingWriteOffset
            · rw [if_pos hover]
              exact .overrun hbusy howner hover
            · rw [if_neg hover]
              dsimp only
              have hgcm := gcmLength_le s.encoder
              have hauth : kRestlsAuthHeaderLength = 12 := rfl
              rcases nextLine_cases env s (s.pendingWrite.length - s.pendingWriteOffset) with
                ⟨hused, hline⟩ | ⟨target, command, drawn, -, hline, htarget⟩
              · rw [hline]
                dsimp only
                rw [if_neg (by omega)]
                -- the script is used up: all that is left goes into one record, where it fits
                by_cases hlarge : 65535 < s.encoder.gcmLength + kRestlsAuthHeaderLength +
                  (s.pendingWrite.length - s.pendingWriteOffset)
                · split
                  · rename_i e encoder hencode
                    rw [encode_error hencode]
                    exact .large hbusy howner hused hlarge
                  · rename_i wire encoder hencode
                    unfold RestlsApplicationCodec.encode at hencode
                    rw [if_neg (by rw [length_drop]; omega), if_pos (by omega)] at hencode
                    cases hencode
                · obtain ⟨wire, encoder, hencode, hsuite⟩ :=
                    encode_fits env.hash s.encoder (s.pendingWrite.drop s.pendingWriteOffset)
                    (min (s.pendingWrite.length - s.pendingWriteOffset)
                      (min (s.pendingWrite.length - s.pendingWriteOffset) 65535))
                    (min (s.pendingWrite.length - s.pendingWriteOffset) 65535 -
                      min (s.pendingWrite.length - s.pendingWriteOffset)
                      (min (s.pendingWrite.length - s.pendingWriteOffset) 65535))
                    {} (by rw [length_drop]; omega) (by omega)
                  rw [hencode]
                  exact .data hbusy hwaiting howner (by omega) (by omega) hsuite
              · rw [hline]
                generalize hsize : min (if target = 0 then
                  min 16384 (s.pendingWrite.length - s.pendingWriteOffset) else target) 65535 = size
                have hpos : 0 < size := by
                  rw [← hsize]
                  split <;> omega
                have hle : size ≤ 32768 := by
                  rw [← hsize]
                  split <;> omega
                obtain ⟨wire, encoder, hencode, hsuite⟩ :=
                  encode_fits env.hash s.encoder (s.pendingWrite.drop s.pendingWriteOffset)
                  (min (s.pendingWrite.length - s.pendingWriteOffset) size)
                  (size - min (s.pendingWrite.length - s.pendingWriteOffset) size) command
                  (by rw [length_drop]; omega) (by omega)
                rw [hencode]
                exact .data hbusy hwaiting howner (by omega) (by omega) hsuite

end Pump

/-! ## The side of the reads -/

/-- **The side of the reads is left alone**, but for a read of the lower stream that a write waits for. -/
structure Unread (s t : RestlsStream) : Prop where
  decoder : t.decoder = s.decoder
  readWire : t.readWire = s.readWire
  pendingPlain : t.pendingPlain = s.pendingPlain
  readHandler : t.readHandler = s.readHandler
  readResults : t.readResults = s.readResults
  wire : t.wire = s.wire
  ended : t.ended = s.ended
  writeWaitingResponse : t.writeWaitingResponse = s.writeWaitingResponse
  lowerRead : t.lowerRead = s.lowerRead ∨ s.writeWaitingResponse = true ∧ s.lowerRead = none ∧
    t.lowerRead = some .control

theorem Unread.refl (s : RestlsStream) : Unread s s := ⟨rfl, rfl, rfl, rfl, rfl, rfl, rfl, rfl, Or.inl rfl⟩

theorem Unread.trans {u : RestlsStream} (h : Unread s t) (h' : Unread t u) : Unread s u := by
  refine ⟨h'.decoder.trans h.decoder, h'.readWire.trans h.readWire, h'.pendingPlain.trans h.pendingPlain,
    h'.readHandler.trans h.readHandler,
    h'.readResults.trans h.readResults, h'.wire.trans h.wire, h'.ended.trans h.ended,
    h'.writeWaitingResponse.trans h.writeWaitingResponse, ?_⟩
  rcases h.lowerRead with hsame | ⟨hwaiting, hnone, hcontrol⟩
  · rw [← hsame, ← h.writeWaitingResponse]
    exact h'.lowerRead
  · rcases h'.lowerRead with hsame | ⟨-, hnone', -⟩
    · exact .inr ⟨hwaiting, hnone, hsame.trans hcontrol⟩
    · rw [hcontrol] at hnone'
      cases hnone'

theorem Unread.lowerRead_of_open (h : Unread s t) (hopen : s.writeWaitingResponse = false) : t.lowerRead =
    s.lowerRead := by
  refine h.lowerRead.resolve_right fun hcontrol => ?_
  rw [hopen] at hcontrol
  exact Bool.false_ne_true hcontrol.1

theorem ensureControlRead_unread (h : s.writeWaitingResponse = true) : Unread s s.ensureControlRead := by
  unfold ensureControlRead
  by_cases hlower : s.lowerRead.isSome = true
  · rw [if_pos hlower]
    exact .refl s
  · rw [if_neg hlower]
    exact ⟨rfl, rfl, rfl, rfl, rfl, rfl, rfl, rfl, .inr ⟨h, Option.not_isSome_iff_eq_none.1 hlower, rfl⟩⟩

section Finish

theorem pumpControlWrite_unread (finish : RestlsStream → Except StreamError Nat → RestlsStream)
    (s : RestlsStream) :
    Unread s (s.pumpControlWrite env finish) := by
  rcases pumpControlWrite_cases env finish s with ⟨-, heq⟩ | ⟨-, -, _, _, _, heq, -⟩
  · rw [heq]
    exact .refl s
  · rw [heq]
    exact ⟨rfl, rfl, rfl, rfl, rfl, rfl, rfl, rfl, .inl rfl⟩

variable {finish : RestlsStream → Except StreamError Nat → RestlsStream}
    (hfinish : ∀ s result, Unread s (finish s result))

include hfinish

theorem Pumped.unread {env : Env} (h : Pumped env finish s t) : Unread s t := by
  cases h with
  | busy _ => exact .refl s
  | control _ _ _ => exact ⟨rfl, rfl, rfl, rfl, rfl, rfl, rfl, rfl, .inl rfl⟩
  | gated _ hwaiting => exact ensureControlRead_unread hwaiting
  | idle _ _ => exact .refl s
  | done _ _ _ _ _ => exact hfinish s _
  | overrun _ _ _ => exact ⟨rfl, rfl, rfl, rfl, rfl, rfl, rfl, rfl, .inl rfl⟩
  | large _ _ _ _ => exact hfinish s _
  | data _ _ _ _ _ _ => exact ⟨rfl, rfl, rfl, rfl, rfl, rfl, rfl, rfl, .inl rfl⟩

theorem pumpWrite_unread (s : RestlsStream) : Unread s (s.pumpWrite env finish) :=
  (pumpWrite_pumped env finish s).unread hfinish

theorem writeImpl_unread (s : RestlsStream) (buffer : Bytes) : Unread s (s.writeImpl env finish buffer) := by
  unfold writeImpl
  split
  · exact ⟨rfl, rfl, rfl, rfl, rfl, rfl, rfl, rfl, .inl rfl⟩
  · split
    · exact ⟨rfl, rfl, rfl, rfl, rfl, rfl, rfl, rfl, .inl rfl⟩
    · have hpumped := pumpWrite_unread env hfinish { s with
        pendingWrite := buffer, pendingWriteOffset := 0, pendingWriteSize := buffer.length,
          writeHandler := some s.writes.length
        writes := s.writes ++ [buffer] }
      exact { hpumped with }

end Finish

theorem callWriter_unread (s : RestlsStream) (result : Except StreamError Nat) : Unread s
    (s.callWriter result) :=
  ⟨rfl, rfl, rfl, rfl, rfl, rfl, rfl, rfl, .inl rfl⟩

theorem clearWrite_unread (s : RestlsStream) : Unread s s.clearWrite :=
  ⟨rfl, rfl, rfl, rfl, rfl, rfl, rfl, rfl, Or.inl rfl⟩

theorem replies_unread (s : RestlsStream) (replies : List (Option Bytes)) : Unread s { s with replies } :=
  ⟨rfl, rfl, rfl, rfl, rfl, rfl, rfl, rfl, .inl rfl⟩

theorem finishWriteWith_unread (n : Nat) :
    ∀ (s : RestlsStream) (result : Except StreamError Nat), Unread s (s.finishWriteWith env n result) := by
  induction n with
  | zero => exact fun s result => (callWriter_unread s result).trans (clearWrite_unread _)
  | succ n ih =>
    intro s result
    unfold finishWriteWith
    have hcalled := callWriter_unread s result
    split
    · exact (hcalled.trans ((replies_unread _ _).trans (writeImpl_unread env ih _ _))).trans
        (clearWrite_unread _)
    · exact (hcalled.trans (replies_unread _ _)).trans (clearWrite_unread _)
    · exact hcalled.trans (clearWrite_unread _)

theorem finishWrite_unread (s : RestlsStream) (result : Except StreamError Nat) :
    Unread s (s.finishWrite env result) :=
  finishWriteWith_unread env _ s result

theorem handleRecord_unread (s : RestlsStream) (decoded : RestlsDecodedRecord) :
    Unread { s with pendingPlain := s.pendingPlain ++ decoded.data, writeWaitingResponse := false }
    (s.handleRecord env decoded) := by
  unfold handleRecord
  split
  · have hcontrol := pumpControlWrite_unread env (finishWrite env) { s with
      pendingPlain := s.pendingPlain ++ decoded.data, writeWaitingResponse := false
      pendingControlResponses := s.pendingControlResponses + decoded.command.response.toNat }
    have hfirst :
        Unread { s with pendingPlain := s.pendingPlain ++ decoded.data, writeWaitingResponse := false } _ :=
      { hcontrol with }
    exact hfirst.trans (pumpWrite_unread env (finishWrite_unread env) _)
  · exact pumpWrite_unread env (finishWrite_unread env) _
/-! ## The peer's records -/

theorem ended_of_brings {n : Nat} (h : s.brings n ≠ []) : s.ended = none := by
  unfold brings at h
  by_cases hended : s.ended.isSome = true
  · rw [if_pos hended] at h
    exact absurd rfl h
  · exact Option.not_isSome_iff_eq_none.1 hended

/-- **The records that are there bring nothing**: they are in order, and none of them has data. -/
def quiet (hash : KeyedHash) : Nat → RestlsApplicationCodec → Bytes → Bool
  | 0, _, _ => true
  | n + 1, decoder, wire =>
    match nextRecord wire with
    | none => true
    | some (record, wire) =>
      match decoder.decode hash record with
      | (.error _, _) => false
      | (.ok decoded, decoder) => decoded.data = [] && quiet hash n decoder wire

theorem fail_ended (s : RestlsStream) : s.fail.ended.isSome = true := by
  unfold fail
  cases h : s.ended with
  | none => rfl
  | some e => rfl

structure Apart (s t : RestlsStream) : Prop where
  wire : t.wire = s.wire
  ended : t.ended = s.ended
  lowerRead : t.lowerRead = s.lowerRead

theorem handleRecord_apart (s : RestlsStream) (decoded : RestlsDecodedRecord) :
    Apart s (s.handleRecord env decoded) := by
  have hrecord := handleRecord_unread env s decoded
  exact ⟨hrecord.wire, hrecord.ended, hrecord.lowerRead_of_open rfl⟩

theorem processWire_apart (n : Nat) : ∀ s : RestlsStream, Apart s (processWire env n s).2 := by
  induction n with
  | zero => exact fun s => ⟨rfl, rfl, rfl⟩
  | succ n ih =>
    intro s
    unfold processWire
    split
    · exact ⟨rfl, rfl, rfl⟩
    · rename_i record readWire _
      split
      · exact ⟨rfl, rfl, rfl⟩
      · rename_i decoded decoder _
        have hrecord := handleRecord_apart env { s with readWire, decoder } decoded
        dsimp only
        split
        · exact { hrecord with }
        · have hrest := ih ({ s with readWire, decoder }.handleRecord env decoded)
          exact ⟨hrest.wire.trans hrecord.wire, hrest.ended.trans hrecord.ended,
            hrest.lowerRead.trans hrecord.lowerRead⟩

theorem processWire_idle (n : Nat) : ∀ {s : RestlsStream}, s.readHandler = none →
    (processWire env n s).2.readHandler = none ∧ (processWire env n s).2.readResults = s.readResults := by
  induction n with
  | zero => exact fun hnone => ⟨hnone, rfl⟩
  | succ n ih =>
    intro s hnone
    unfold processWire
    split
    · exact ⟨hnone, rfl⟩
    · rename_i record readWire _
      split
      · refine ⟨rfl, ?_⟩
        unfold finishRead
        rw [hnone]
      · rename_i decoded decoder _
        have hrecord := handleRecord_unread env { s with readWire, decoder } decoded
        have hidle : ({ s with readWire, decoder }.handleRecord env decoded).readHandler = none :=
          hrecord.readHandler.trans hnone
        rw [if_neg (by rw [hidle]; exact fun h => absurd h.1 (by decide))]
        exact ⟨(ih hidle).1, (ih hidle).2.trans hrecord.readResults⟩

theorem processWire_quiet (n : Nat) : ∀ {s : RestlsStream}, s.pendingPlain = [] →
    quiet env.hash n s.decoder s.readWire = true →
    (processWire env n s).1 = false ∧ (processWire env n s).2.readHandler = s.readHandler ∧
      (processWire env n s).2.readResults = s.readResults ∧ (processWire env n s).2.pendingPlain = [] ∧
      (nextRecord s.readWire = none → (processWire env n s).2.writeWaitingResponse = s.writeWaitingResponse) ∧
      (n ≠ 0 → nextRecord s.readWire ≠ none → (processWire env n s).2.writeWaitingResponse = false) := by
  induction n with
  | zero => exact fun hplain _ => ⟨rfl, rfl, rfl, hplain, fun _ => rfl, fun h => absurd rfl h⟩
  | succ n ih =>
    intro s hplain hquiet
    unfold quiet at hquiet
    unfold processWire
    cases hrecord : nextRecord s.readWire with
    | none => exact ⟨rfl, rfl, rfl, hplain, fun _ => rfl, fun _ h => absurd rfl h⟩
    | some found =>
      obtain ⟨record, readWire⟩ := found
      rw [hrecord] at hquiet
      dsimp only at hquiet ⊢
      cases hdecode : s.decoder.decode env.hash record with
      | mk result decoder =>
      rw [hdecode] at hquiet
      cases result with
      | error e => cases hquiet
      | ok decoded =>
        dsimp only at hquiet ⊢
        rw [Bool.and_eq_true, decide_eq_true_eq] at hquiet
        have hunread := handleRecord_unread env { s with readWire, decoder } decoded
        generalize RestlsStream.handleRecord env { s with readWire, decoder } decoded = t at hunread ⊢
        have hnothing : t.pendingPlain = [] := by
          rw [hunread.pendingPlain]
          rw [hplain, hquiet.1, append_nil]
        rw [if_neg fun h => h.2 hnothing]
        have hrest := hquiet.2
        rw [show decoder = t.decoder from hunread.decoder.symm,
          show readWire = t.readWire from hunread.readWire.symm] at hrest
        obtain ⟨hfalse, hhandler, hresults, hleft, hstays, hreleased⟩ := ih hnothing hrest
        have hopen : t.writeWaitingResponse = false := hunread.writeWaitingResponse
        refine ⟨hfalse, hhandler.trans hunread.readHandler, hresults.trans hunread.readResults, hleft,
          nofun, fun _ _ => ?_⟩
        by_cases hn : n = 0
        · rw [hn]
          exact hopen
        · by_cases hmore : nextRecord t.readWire = none
          · exact (hstays hmore).trans hopen
          · exact hreleased hn hmore

theorem processWire_loud (n : Nat) : ∀ {s : RestlsStream} {id : Nat}, s.readHandler = some id →
    s.pendingPlain = [] →
    quiet env.hash n s.decoder s.readWire = false →
      (processWire env n s).1 = true ∧ (processWire env n s).2.readHandler = none ∧
        ∃ result, result ≠ .error .eof ∧
        (processWire env n s).2.readResults = s.readResults ++ [(id, result)] := by
  induction n with
  | zero => exact nofun
  | succ n ih =>
    intro s id hid hplain hquiet
    unfold quiet at hquiet
    unfold processWire
    cases hrecord : nextRecord s.readWire with
    | none =>
      rw [hrecord] at hquiet
      cases hquiet
    | some found =>
      obtain ⟨record, readWire⟩ := found
      rw [hrecord] at hquiet
      dsimp only at hquiet ⊢
      cases hdecode : s.decoder.decode env.hash record with
      | mk result decoder =>
      rw [hdecode] at hquiet
      cases result with
      | error e =>
        refine ⟨rfl, rfl, .error .fault, nofun, ?_⟩
        unfold finishRead
        rw [hid]
      | ok decoded =>
        dsimp only at hquiet ⊢
        have hunread := handleRecord_unread env { s with readWire, decoder } decoded
        generalize RestlsStream.handleRecord env { s with readWire, decoder } decoded = t at hunread ⊢
        have hparked : t.readHandler = some id := hunread.readHandler.trans hid
        have hresults : t.readResults = s.readResults := hunread.readResults
        by_cases hdata : decoded.data = []
        · have hnothing : t.pendingPlain = [] := by
            rw [hunread.pendingPlain]
            rw [hplain, hdata, append_nil]
          rw [if_neg fun h => h.2 hnothing]
          have hrest : quiet env.hash n t.decoder t.readWire = false := by
            rw [hunread.decoder, hunread.readWire]
            rw [hdata, decide_eq_true rfl, Bool.true_and] at hquiet
            exact hquiet
          rw [← hresults]
          exact ih hparked hnothing hrest
        · have hsome : t.pendingPlain ≠ [] := by
            rw [hunread.pendingPlain]
            exact fun h => hdata (append_eq_nil_iff.1 h).2
          rw [if_pos ⟨by rw [hparked]; rfl, hsome⟩]
          refine ⟨rfl, rfl, .ok (t.pendingPlain.take t.readBuffer), nofun, ?_⟩
          unfold deliverPending finishRead
          rw [hparked, hresults]

end RestlsStream

end ClashNative.Restls
