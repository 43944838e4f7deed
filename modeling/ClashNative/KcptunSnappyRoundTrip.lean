import ClashNative.KcptunSnappySent
/-!
# KcptunSnappyRoundTrip — what is written on one stream is read on the other

The other stream takes the bytes in pieces of any size.  It decodes the data of the writes, and no more,
and it never fails.
-/
namespace ClashNative.Kcptun.Snappy

open List

/-! ## The bytes of a stream -/

namespace StreamState

def sentData (s : StreamState) (datas : List Bytes) : Bytes := s.handed.flatMap fun id => datas.getD id []

end StreamState

def Framed (codec : Codec) (bytes text : Bytes) : Prop :=
  bytes = [] ∧ text = [] ∨
    ∃ pieces, bytes = kStreamIdentifier ++ chunks codec pieces ∧ text = pieces.flatten ∧
    ∀ piece ∈ pieces, Fits piece

variable {codec : Codec}

theorem framed_produced {datas : List Bytes} {s : StreamState} (h : s.Sent codec datas) :
    Framed codec s.produced (s.sentData datas) := by
  have hpacked := h.packed.prefix
  unfold StreamState.produced StreamState.sentData
  cases hhanded : s.handed with
  | nil => exact .inl ⟨rfl, rfl⟩
  | cons id rest =>
    rw [hhanded] at hpacked
    obtain ⟨hfirst, hrest⟩ := hpacked
    obtain ⟨pieces, hpieces, hflat, hfits⟩ :=
      chunksOf_flatMap codec ((id :: rest).map fun id => datas.getD id [])
    have hbytes : (id :: rest).flatMap (fun id => (s.pending id).packet) =
        kStreamIdentifier ++ ((id :: rest).map fun id => datas.getD id []).flatMap (chunksOf codec) := by
      rw [flatMap_cons, hfirst, map_cons, flatMap_cons, append_assoc, flatMap_map]
      exact congrArg (fun more => kStreamIdentifier ++ (chunksOf codec (datas.getD id []) ++ more))
        (flatMap_congr hrest)
    refine .inr ⟨pieces, ?_, ?_, hfits⟩
    · rw [hbytes, hpieces]
    · rw [hflat, ← flatMap_def]

/-! ## The stream that reads them -/

def Event.peaceful : Event → Bool
  | .arrive _ | .eof | .readError | .close | .writeDone true => false
  | _ => true

/-- A read of the transport completes, with `most + 1` bytes at the most; or something else happens to the
stream. -/
inductive Feed
  | pull (most : Nat)
  | own (e : Event) (h : e.peaceful = true)

structure Link where
  stream : StreamState := {}
  wire : Bytes

namespace Link

def step (codec : Codec) (l : Link) : Feed → Link
  | .pull most =>
    if l.stream.stack ≠ [] ∨ l.wire = [] then l
    else
      let bytes := l.wire.take (min (most + 1) (l.stream.stage.size - l.stream.got.length))
      ⟨l.stream.arrive codec bytes, l.wire.drop bytes.length⟩
  | .own e _ => ⟨l.stream.step codec e, l.wire⟩

end Link

def Rest (codec : Codec) : Stage → Bytes → Bytes → Prop
  | .identifier, bytes, text => Framed codec bytes text
  | .header, bytes, text => ∃ pieces, bytes = chunks codec pieces ∧ text = pieces.flatten ∧
      ∀ piece ∈ pieces, Fits piece
  | .payload type length, bytes, text => ∃ payload piece pieces, bytes = payload ++ chunks codec pieces ∧
      payload.length = length ∧
    decodeChunk codec type payload = .ok piece ∧ text = piece ++ pieces.flatten ∧ ∀ piece ∈ pieces, Fits piece
  | .skip _, _, _ => False

/-- **What every state satisfies**: the bytes to come and those of the stage make up the rest of the text.
-/
structure Fed (codec : Codec) (text : Bytes) (l : Link) : Prop where
  kept : l.stream.Kept
  reading : l.stream.reading = true
  up : l.stream.closed = false ∧ l.stream.failed = false
  calm : ∀ r, r ∈ l.stream.stack → r = .pumpWrite
  rest : ∃ more, Rest codec l.stream.stage (l.stream.got ++ l.wire) more ∧ l.stream.decoded ++ more = text
  room : l.stream.got.length < l.stream.stage.size

/-- **What is promised of the reads**: no error but that of a call that is refused or cancelled, the text
in its order, a read that waits finds nothing, and the end of the bytes is the end of the text, between
two chunks. -/
structure Reads (codec : Codec) (text : Bytes) (l : Link) : Prop where
  up : l.stream.failed = false ∧ l.stream.closed = false ∧ l.stream.reading = true
  errors : ∀ e, .error e ∈ l.stream.reads → e = .operationAborted ∨ e = .alreadyStarted
  order : l.stream.delivered ++ l.stream.incoming <+: text
  prompt : l.stream.readHandler.isSome = true → l.stream.incoming = []
  all : l.wire = [] → l.stream.delivered ++ l.stream.incoming = text ∧ l.stream.AtBoundary
  onward : l.wire ≠ [] → l.stream.stack = [] → ∀ most, (l.step codec (.pull most)).wire.length < l.wire.length

/-! ## What brings no bytes -/

namespace StreamState

variable {s s' s'' : StreamState}

structure Aside (s s' : StreamState) : Prop where
  stage : s'.stage = s.stage
  got : s'.got = s.got
  reading : s'.reading = s.reading
  decoded : s'.decoded = s.decoded
  failed : s'.failed = s.failed
  closed : s'.closed = s.closed
  stack : ∀ r, r ∈ s'.stack → r ∈ s.stack ∨ r = .pumpWrite

theorem Aside.refl (s : StreamState) : Aside s s := ⟨rfl, rfl, rfl, rfl, rfl, rfl, fun _ => Or.inl⟩

theorem Aside.trans (h : Aside s s') (h' : Aside s' s'') : Aside s s'' :=
  ⟨h'.stage.trans h.stage, h'.got.trans h.got, h'.reading.trans h.reading, h'.decoded.trans h.decoded,
    h'.failed.trans h.failed,
    h'.closed.trans h.closed, fun r hr => (h'.stack r hr).elim (h.stack r) .inr⟩

theorem aside_finishRead (s : StreamState) (error : StreamError) : Aside s (s.finishRead error) := by
  unfold finishRead
  split
  · exact Aside.refl s
  · exact ⟨rfl, rfl, rfl, rfl, rfl, rfl, fun _ => .inl⟩

theorem aside_deliverRead (s : StreamState) : Aside s s.deliverRead := by
  unfold deliverRead
  split
  · exact Aside.refl s
  · split
    · split
      · exact aside_finishRead s _
      · exact Aside.refl s
    · exact ⟨rfl, rfl, rfl, rfl, rfl, rfl, fun _ => .inl⟩

theorem aside_asyncReadSome (s : StreamState) (size : Nat) : Aside s (s.asyncReadSome size) := by
  unfold asyncReadSome
  split
  · exact ⟨rfl, rfl, rfl, rfl, rfl, rfl, fun _ => .inl⟩
  · split
    · exact ⟨rfl, rfl, rfl, rfl, rfl, rfl, fun _ => .inl⟩
    · split
      · exact ⟨rfl, rfl, rfl, rfl, rfl, rfl, fun _ => .inl⟩
      · refine Aside.trans ?_ (aside_deliverRead _)
        exact ⟨rfl, rfl, rfl, rfl, rfl, rfl, fun _ => .inl⟩

theorem aside_cancelRead (s : StreamState) : Aside s s.cancelRead := by
  unfold cancelRead
  split
  · exact Aside.refl s
  · exact ⟨rfl, rfl, rfl, rfl, rfl, rfl, fun _ => .inl⟩

theorem aside_pumpWrite (s : StreamState) : Aside s s.pumpWrite := by
  rcases pumpWrite_cases s with ⟨heq, _⟩ | ⟨_, _, _, _, heq⟩
  · rw [heq]
    exact Aside.refl s
  · rw [heq]
    exact ⟨rfl, rfl, rfl, rfl, rfl, rfl, fun _ => .inl⟩

theorem aside_asyncWrite (s : StreamState) (codec : Codec) (data : Bytes) : Aside s
    (s.asyncWrite codec data) := by
  unfold asyncWrite
  dsimp only
  split
  · exact ⟨rfl, rfl, rfl, rfl, rfl, rfl, fun _ => .inl⟩
  · split
    · exact ⟨rfl, rfl, rfl, rfl, rfl, rfl, fun _ => .inl⟩
    · split
      · exact ⟨rfl, rfl, rfl, rfl, rfl, rfl, fun _ => .inl⟩
      · refine Aside.trans ?_ (aside_pumpWrite _)
        exact ⟨rfl, rfl, rfl, rfl, rfl, rfl, fun _ => .inl⟩

theorem aside_cancelWrite (s : StreamState) : Aside s s.cancelWrite := by
  unfold cancelWrite
  split
  · exact Aside.refl s
  · split <;> exact ⟨rfl, rfl, rfl, rfl, rfl, rfl, fun _ => .inl⟩

theorem aside_writeDone (s : StreamState) : Aside s (s.writeDone false) := by
  unfold writeDone
  split
  · exact Aside.refl s
  · rename_i id _
    have hlanded : Aside s (s.landed id false) := ⟨rfl, rfl, rfl, rfl, rfl, rfl, fun _ => .inl⟩
    rw [if_neg Bool.false_ne_true]
    split
    · refine hlanded.trans ⟨rfl, rfl, rfl, rfl, rfl, rfl, fun r hr => ?_⟩
      exact (mem_cons.1 hr).elim .inr .inl
    · exact hlanded.trans (aside_pumpWrite _)

theorem aside_handlerReturned (hcalm : ∀ r, r ∈ s.stack → r = .pumpWrite) : Aside s s.handlerReturned := by
  unfold handlerReturned
  cases hstack : s.stack with
  | nil => exact Aside.refl s
  | cons r stack =>
    obtain rfl := hcalm r (hstack ▸ mem_cons_self)
    refine Aside.trans ?_ (aside_pumpWrite _)
    exact ⟨rfl, rfl, rfl, rfl, rfl, rfl, fun r' hr => .inl (hstack ▸ mem_cons_of_mem _ hr)⟩

theorem aside_step (codec : Codec) (hcalm : ∀ r, r ∈ s.stack → r = .pumpWrite) (e : Event)
    (he : e.peaceful = true) :
    Aside s (s.step codec e) := by
  cases e with
  | read size => exact aside_asyncReadSome s size
  | cancelRead => exact aside_cancelRead s
  | write data => exact aside_asyncWrite s codec data
  | cancelWrite => exact aside_cancelWrite s
  | shutdownSend => exact Aside.refl s
  | handlerReturned => exact aside_handlerReturned hcalm
  | writeDone failed =>
    cases failed with
    | true => exact Bool.noConfusion he
    | false => exact aside_writeDone s
  | arrive bytes => exact Bool.noConfusion he
  | eof => exact Bool.noConfusion he
  | readError => exact Bool.noConfusion he
  | close => exact Bool.noConfusion he

theorem endsDrained_of_peaceful (codec : Codec) (s : StreamState) (e : Event)
    (he : e.peaceful = true) : s.EndsDrained codec e := by
  cases e with
  | writeDone failed =>
    cases failed with
    | true => exact Bool.noConfusion he
    | false => trivial
  | arrive bytes => exact Bool.noConfusion he
  | eof => exact Bool.noConfusion he
  | readError => exact Bool.noConfusion he
  | _ => trivial

end StreamState

theorem Fed.own {text : Bytes} {l : Link} (h : Fed codec text l) (e : Event) (he : e.peaceful = true) :
    Fed codec text (l.step codec (.own e he)) := by
  have haside := StreamState.aside_step codec h.calm e he
  refine ⟨StreamState.step_kept h.kept codec e (StreamState.endsDrained_of_peaceful codec _ e he),
    haside.reading.trans h.reading,
    ⟨haside.closed.trans h.up.1, haside.failed.trans h.up.2⟩, fun r hr =>
    (haside.stack r hr).elim (h.calm r) id, ?_, ?_⟩
  · show ∃ more, Rest codec (l.stream.step codec e).stage ((l.stream.step codec e).got ++ l.wire) more ∧
      (l.stream.step codec e).decoded ++ more = text
    rw [haside.stage, haside.got, haside.decoded]
    exact h.rest
  · show (l.stream.step codec e).got.length < (l.stream.step codec e).stage.size
    rw [haside.stage, haside.got]
    exact h.room

/-! ## A stage is read -/

section Stages

variable {codec : Codec} {full wire more : Bytes}

theorem rest_identifier (h : Rest codec .identifier (full ++ wire) more)
    (hfull : full.length = kStreamIdentifier.length) :
    full = kStreamIdentifier ∧ Rest codec .header wire more := by
  rcases h with ⟨hnil, _⟩ | ⟨pieces, hbytes, hmore, hfits⟩
  · rw [(append_eq_nil_iff.1 hnil).1] at hfull
    cases hfull
  · obtain ⟨rfl, rfl⟩ := append_inj hbytes hfull
    exact ⟨rfl, pieces, rfl, hmore, hfits⟩

theorem rest_header (hcodec : ∀ data, codec.uncompress (codec.compress data) = some data)
    (h : Rest codec .header (full ++ wire) more)
    (hfull : full.length = kChunkHeaderSize) :
    ∃ type length, full = type :: putU24 length ∧
    (type = 0x00 ∨ type = 0x01) ∧ kChunkChecksumSize ≤ length ∧ length < 2 ^ 24 ∧
      Rest codec (.payload type length) wire more := by
  obtain ⟨pieces, hbytes, hmore, hfits⟩ := h
  cases pieces with
  | nil =>
    rw [(append_eq_nil_iff.1 hbytes).1] at hfull
    cases hfull
  | cons piece pieces =>
    obtain ⟨type, payload, hchunk, htype, hleast, hmost, hdecode⟩ :=
      appendChunk_decodes hcodec (hfits piece mem_cons_self)
    have hsplit : chunks codec (piece :: pieces) = (type :: putU24 payload.length) ++
      (payload ++ chunks codec pieces) := by
      show appendChunk codec piece ++ chunks codec pieces = _
      rw [hchunk, cons_append, append_assoc]
      rfl
    rw [hsplit] at hbytes
    obtain ⟨rfl, rfl⟩ := append_inj hbytes hfull
    exact ⟨type, payload.length, rfl, htype, hleast, hmost, payload, piece, pieces, rfl, rfl, hdecode, hmore,
      fun p hp => hfits p (mem_cons_of_mem piece hp)⟩

theorem rest_payload {type : UInt8} {length : Nat}
    (h : Rest codec (.payload type length) (full ++ wire) more) (hfull : full.length = length) :
    ∃ piece more', decodeChunk codec type full = .ok piece ∧ more = piece ++ more' ∧
    Rest codec .header wire more' := by
  obtain ⟨payload, piece, pieces, hbytes, hlength, hdecode, hmore, hfits⟩ := h
  obtain ⟨rfl, rfl⟩ := append_inj hbytes (hfull.trans hlength.symm)
  exact ⟨piece, pieces.flatten, hdecode, hmore, pieces, rfl, rfl, hfits⟩

theorem rest_end (hcodec : ∀ data, codec.uncompress (codec.compress data) = some data) {stage : Stage}
    {got : Bytes}
    (h : Rest codec stage got more) (hroom : got.length < stage.size) :
    more = [] ∧ got = [] ∧ (stage = .identifier ∨ stage = .header) := by
  cases stage with
  | identifier =>
    rcases h with ⟨hgot, hmore⟩ | ⟨pieces, rfl, _, _⟩
    · exact ⟨hmore, hgot, .inl rfl⟩
    · rw [length_append] at hroom
      exact absurd hroom (Nat.not_lt.2 (Nat.le_add_right _ _))
  | header =>
    obtain ⟨pieces, rfl, rfl, hfits⟩ := h
    cases pieces with
    | nil => exact ⟨rfl, rfl, .inr rfl⟩
    | cons piece pieces =>
      obtain ⟨type, payload, hchunk, _⟩ := appendChunk_decodes hcodec (hfits piece mem_cons_self)
      have hlong : kChunkHeaderSize ≤ (chunks codec (piece :: pieces)).length := by
        show kChunkHeaderSize ≤ (appendChunk codec piece ++ chunks codec pieces).length
        rw [hchunk, length_append, length_cons, length_append]
        have hsize : (putU24 payload.length).length = 3 := rfl
        unfold kChunkHeaderSize
        omega
      exact absurd hroom (Nat.not_lt.2 hlong)
  | payload type length =>
    obtain ⟨payload, piece, pieces, rfl, rfl, _⟩ := h
    rw [length_append] at hroom
    exact absurd hroom (Nat.not_lt.2 (Nat.le_add_right _ _))
  | skip length => exact h.elim

end Stages

section Link

variable {codec : Codec} {text : Bytes} {l : Link}

theorem stageRead_fed (hcodec : ∀ data, codec.uncompress (codec.compress data) = some data)
    (h : Fed codec text l)
    (hidle : l.stream.stack = []) {full wire more : Bytes}
    (hrest : Rest codec l.stream.stage (full ++ wire) more)
    (htext : l.stream.decoded ++ more = text) (hfull : full.length = l.stream.stage.size) :
    Fed codec text ⟨l.stream.stageRead codec full, wire⟩ := by
  have hlive : l.stream.Live := ⟨h.reading, hidle, h.up.1⟩
  unfold StreamState.stageRead
  cases hstage : l.stream.stage with
  | identifier =>
    rw [hstage] at hrest hfull
    obtain ⟨rfl, hnext⟩ := rest_identifier hrest hfull
    exact ⟨StreamState.next_kept h.kept hlive .header [], h.reading, h.up, h.calm, ⟨more, hnext, htext⟩,
      (by decide : 0 < kChunkHeaderSize)⟩
  | header =>
    rw [hstage] at hrest hfull
    obtain ⟨type, length, rfl, htype, hleast, hmost, hnext⟩ := rest_header hcodec hrest hfull
    have hlength : getU24 ((type :: putU24 length).drop 1) = length := by
      have hput := getU24_putU24 hmost []
      rwa [append_nil] at hput
    have hlow : ¬ (0x80 ≤ type ∧ type ≤ 0xfe) := by rcases htype with rfl | rfl <;> decide
    have hknown : ¬ (type ≠ 0x00 ∧ type ≠ 0x01) := fun hne => htype.elim hne.1 hne.2
    rw [hlength, getD_cons_zero, if_neg hlow, if_neg (not_or.2 ⟨hknown, Nat.not_lt.2 hleast⟩)]
    refine ⟨StreamState.next_kept h.kept hlive (.payload type length) [], h.reading, h.up, h.calm,
      ⟨more, hnext, htext⟩, ?_⟩
    exact Nat.lt_of_lt_of_le (by decide : 0 < kChunkChecksumSize) hleast
  | payload type length =>
    rw [hstage] at hrest hfull
    obtain ⟨piece, more', hdecode, rfl, hnext⟩ := rest_payload hrest hfull
    dsimp only
    rw [hdecode]
    have haside := StreamState.aside_deliverRead
      { l.stream with incoming := l.stream.incoming ++ piece, decoded := l.stream.decoded ++ piece }
    refine ⟨StreamState.receive_kept h.kept hlive piece, haside.reading.trans h.reading,
      ⟨haside.closed.trans h.up.1, haside.failed.trans h.up.2⟩, fun r hr =>
      (haside.stack r hr).elim (h.calm r) id, ⟨more', hnext, ?_⟩,
      (by decide : 0 < kChunkHeaderSize)⟩
    refine (congrArg (· ++ more') haside.decoded).trans ?_
    rw [append_assoc]
    exact htext
  | skip length =>
    rw [hstage] at hrest
    exact hrest.elim

theorem Fed.pull (hcodec : ∀ data, codec.uncompress (codec.compress data) = some data)
    (h : Fed codec text l) (most : Nat) :
    Fed codec text (l.step codec (.pull most)) := by
  unfold Link.step
  dsimp only
  split
  · exact h
  · rename_i hready
    obtain ⟨hidle, hwire⟩ := not_or.1 hready
    have hidle := not_not.1 hidle
    have hroom := h.room
    obtain ⟨more, hrest, htext⟩ := h.rest
    generalize hbytes : l.wire.take (min (most + 1) (l.stream.stage.size - l.stream.got.length)) = bytes
    have hpart : bytes <+: l.wire := hbytes ▸ take_prefix _ _
    have hsplit : bytes ++ l.wire.drop bytes.length = l.wire := prefix_iff_eq_append.1 hpart
    have hpos : 0 < l.wire.length := length_pos_iff.2 hwire
    have hlength : bytes.length = min (min (most + 1) (l.stream.stage.size - l.stream.got.length))
      l.wire.length := by
      rw [← hbytes, length_take]
    have hsome : bytes ≠ [] := fun hnil => by
      rw [hnil, length_nil] at hlength
      omega
    rw [← hsplit, ← append_assoc] at hrest
    unfold StreamState.arrive
    rw [if_neg (not_or.2 ⟨fun hdone => Bool.noConfusion (hdone.symm.trans h.reading), fun hne => hne hidle⟩),
      if_neg (by simp [h.up.1]), if_neg hsome, if_neg (by omega)]
    split
    · rename_i hshort
      refine ⟨StreamState.next_kept h.kept ⟨h.reading, hidle, h.up.1⟩ l.stream.stage _, h.reading, h.up,
        h.calm, ⟨more, hrest, htext⟩, ?_⟩
      rw [length_append]
      exact hshort
    · rename_i hfull
      refine stageRead_fed hcodec h hidle hrest htext ?_
      rw [length_append]
      omega

theorem Fed.step (hcodec : ∀ data, codec.uncompress (codec.compress data) = some data)
    (h : Fed codec text l) (f : Feed) :
    Fed codec text (l.step codec f) := by
  cases f with
  | pull most => exact h.pull hcodec most
  | own e he => exact h.own e he

theorem Fed.reads (hcodec : ∀ data, codec.uncompress (codec.compress data) = some data) (h : Fed codec text l) :
    Reads codec text l := by
  obtain ⟨more, hrest, htext⟩ := h.rest
  have horder := h.kept.order
  refine ⟨⟨h.up.2, h.up.1, h.reading⟩, fun e he => ?_, ?_, h.kept.prompt, fun hwire => ?_,
    fun hwire hidle most => ?_⟩
  · refine (h.kept.ends e he).imp_right fun he => he.resolve_right fun htold => ?_
    exact Bool.noConfusion (h.up.2.symm.trans (h.kept.told htold))
  · rw [horder, ← htext]
    exact prefix_append _ _
  · rw [hwire, append_nil] at hrest
    obtain ⟨rfl, hgot, hstage⟩ := rest_end hcodec hrest h.room
    rw [append_nil] at htext
    exact ⟨horder.trans htext, hgot, hstage⟩
  · have hroom := h.room
    have hpos : 0 < l.wire.length := length_pos_iff.2 hwire
    unfold Link.step
    dsimp only
    rw [if_neg (not_or.2 ⟨fun hne => hne hidle, hwire⟩), length_drop, length_take]
    omega

theorem fed_start {bytes : Bytes} (h : Framed codec bytes text) : Fed codec text { wire := bytes } :=
  ⟨StreamState.kept_start, rfl, ⟨rfl, rfl⟩, fun _ hr => absurd hr not_mem_nil, ⟨text, h, rfl⟩,
    (by decide : 0 < kStreamIdentifier.length)⟩

end Link

/-! ## The round trip -/

/-- **What is promised of the writes**: they are handed over and queued in the order of their calls, and
as long as the stream is up none of them is left out that had data and was not refused. -/
structure Writes (datas : List Bytes) (s : StreamState) : Prop where
  order : (s.handed ++ s.writes).Pairwise (· < ·)
  whole : s.failed = false → s.closed = false → ∀ id, id < datas.length → datas.getD id [] ≠ [] →
    id ∈ s.handed ++ s.writes ∨ (id, .error .alreadyStarted) ∈ s.calls

/-- **The bytes of a stream are read as the data of its writes**: whatever happens to the writer whose
transport fails no write, and in whatever pieces the reader takes its bytes. -/
theorem written_data_read (codec : Codec)
    (hcodec : ∀ data, codec.uncompress (codec.compress data) = some data) (events : List Event)
    (hok : .writeDone true ∉ events) (feeds : List Feed) :
    Writes (writesOf events) (run codec events) ∧
      Reads codec ((run codec events).sentData (writesOf events))
      (Runs.run (Link.step codec) { wire := (run codec events).produced } feeds) := by
  have hsent : (run codec events).Sent codec (writesOf events) :=
    run_sent codec events [] {} (StreamState.sent_start codec) hok
  refine ⟨⟨hsent.order, fun hfailed hclosed id hid => hsent.whole hfailed hclosed id (hsent.count ▸ hid)⟩, ?_⟩
  have hfed := Runs.run_induction (P := Fed codec ((run codec events).sentData (writesOf events)))
    (fun _ f h => h.step hcodec f) feeds _
    (fed_start (framed_produced hsent))
  exact hfed.reads hcodec

/-- A codec that makes three bytes of a run of one byte. -/
def runs : Codec where
  compress data :=
    if data.length < 256 ∧ data = List.replicate data.length (data.headD 0) then
      [1, data.headD 0, UInt8.ofNat data.length]
    else 0 :: data
  uncompress
    | [1, x, n] => some (List.replicate n.toNat x)
    | 0 :: data => some data
    | _ => none

theorem runs_lawful (data : Bytes) : runs.uncompress (runs.compress data) = some data := by
  by_cases hrun : data.length < 256 ∧ data = List.replicate data.length (data.headD 0)
  · have hcompress : runs.compress data = [1, data.headD 0, UInt8.ofNat data.length] := if_pos hrun
    rw [hcompress]
    show some (List.replicate (UInt8.ofNat data.length).toNat (data.headD 0)) = some data
    rw [UInt8.toNat_ofNat_of_lt' hrun.1, ← hrun.2]
  · have hcompress : runs.compress data = 0 :: data := if_neg hrun
    rw [hcompress]
    rfl

/-- Two writes, the first of which is compressed and the second behind a refused one; the reader takes six
bytes at a time. -/
theorem written_data_read_twice :
    let run10 := List.replicate 10 7
    let written := run runs [.write run10, .write [5], .writeDone false, .handlerReturned, .write [8, 9],
      .writeDone false]
    Writes [run10, [5], [8, 9]] written ∧
      Reads runs (written.sentData [run10, [5], [8, 9]]) (Runs.run (Link.step runs) { wire := written.produced }
        [.pull 6, .own (.read 4) rfl, .pull 6, .pull 6, .pull 6, .pull 6, .pull 6, .own (.read 9) rfl]) :=
  written_data_read runs runs_lawful
    [.write (List.replicate 10 7), .write [5], .writeDone false, .handlerReturned, .write [8, 9],
      .writeDone false] (by decide)
    [.pull 6, .own (.read 4) rfl, .pull 6, .pull 6, .pull 6, .pull 6, .pull 6, .own (.read 9) rfl]

end ClashNative.Kcptun.Snappy
