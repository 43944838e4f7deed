import ClashNative.KcptunSnappyReads
import Mathlib.Data.Nat.Bitwise
/-!
# KcptunSnappySent — what a stream puts on its transport

A chunk decodes to its plaintext.  The bytes of a stream are the identifier and the chunks of its writes,
in the order of the calls.
-/
namespace ClashNative.Kcptun.Snappy

open List

/-! ## Numbers in octets -/

theorem getU24_putU24 {value : Nat} (h : value < 2 ^ 24) (rest : Bytes) :
    getU24 (putU24 value ++ rest) = value := by
  unfold getU24 putU24
  simp only [cons_append, getD_cons_zero, getD_cons_succ, UInt8.toNat_ofNat']
  omega

theorem getU32_putU32 (value : UInt32) (rest : Bytes) : getU32 (putU32 value ++ rest) = value := by
  unfold getU32 putU32
  apply UInt32.toNat_inj.1
  apply Nat.eq_of_testBit_eq
  intro i
  have hbyte : ∀ n j : Nat, (n % 256).testBit j = (decide (j < 8) && n.testBit j) :=
    fun n j => Nat.testBit_mod_two_pow n 8 j
  have hword : ∀ n : Nat, (n % 4294967296).testBit i = (decide (i < 32) && n.testBit i) :=
    fun n => Nat.testBit_mod_two_pow n 32 i
  have hshift : ∀ k : Nat, (decide (k ≤ i) && (decide (i - k < 8) && (value.toNat >>> k).testBit (i - k))) =
      (decide (k ≤ i ∧ i < k + 8) && value.toNat.testBit i) := fun k => by
    by_cases hk : k ≤ i
    · rw [Nat.testBit_shiftRight, Nat.add_sub_of_le hk]
      simp [hk, Nat.sub_lt_iff_lt_add hk, Nat.add_comm]
    · simp [hk]
  -- Bit `i` comes from the one octet that it lies in.
  simp [hbyte, hword, hshift, -Nat.testBit_shiftRight]
  cases hbit : value.toNat.testBit i with
  | false => simp
  | true =>
    have hi : i < 32 := by
      by_contra hhigh
      have hlt := Nat.lt_of_lt_of_le value.toNat_lt
        (Nat.pow_le_pow_right (by decide : 2 > 0) (Nat.not_lt.1 hhigh))
      rw [Nat.testBit_lt_two_pow hlt] at hbit
      cases hbit
    simp [hi]
    omega

/-! ## Chunks -/

def Fits (plaintext : Bytes) : Prop := plaintext ≠ [] ∧ plaintext.length ≤ kCompressionChunkSize

def chunks (codec : Codec) (pieces : List Bytes) : Bytes := pieces.flatMap (appendChunk codec)

theorem appendChunks_eq (codec : Codec) : ∀ (n : Nat) (data : Bytes), data.length ≤ n →
    ∃ pieces, appendChunks codec n data = chunks codec pieces ∧ pieces.flatten = data ∧
    ∀ piece ∈ pieces, Fits piece
  | 0, data, h => ⟨[], rfl, (eq_nil_of_length_eq_zero (Nat.le_zero.1 h)).symm, fun _ hp => absurd hp not_mem_nil⟩
  | n + 1, data, h => by
    unfold appendChunks
    by_cases hnil : data = []
    · rw [if_pos hnil]
      exact ⟨[], rfl, hnil.symm, fun _ hp => absurd hp not_mem_nil⟩
    · rw [if_neg hnil]
      have hshort : (data.drop kCompressionChunkSize).length ≤ n := by
        rw [length_drop]
        unfold kCompressionChunkSize
        omega
      obtain ⟨pieces, heq, hflat, hfits⟩ := appendChunks_eq codec n (data.drop kCompressionChunkSize) hshort
      refine ⟨data.take kCompressionChunkSize :: pieces, ?_, ?_, fun piece hp => ?_⟩
      · rw [heq]
        rfl
      · rw [flatten_cons, hflat, take_append_drop]
      · rcases mem_cons.1 hp with rfl | hp
        · refine ⟨fun htake => ?_, length_take_le _ _⟩
          rcases take_eq_nil_iff.1 htake with hzero | hdata
          · exact absurd hzero (by decide)
          · exact hnil hdata
        · exact hfits piece hp

variable {plaintext : Bytes} {codec : Codec}

theorem decodeChunk_checked {type : UInt8} {body : Bytes}
    (h : (if type = 0x00 then codec.uncompress body else some body) = some plaintext) :
    decodeChunk codec type (putU32 (maskedCrc32c plaintext) ++ body) = .ok plaintext := by
  have hbody : (putU32 (maskedCrc32c plaintext) ++ body).drop kChunkChecksumSize = body := rfl
  unfold decodeChunk
  rw [hbody]
  dsimp only
  rw [h, getU32_putU32]
  exact if_neg fun hne => hne rfl

theorem appendChunk_decodes (hcodec : ∀ data, codec.uncompress (codec.compress data) = some data)
    (hfits : Fits plaintext) :
    ∃ type payload, appendChunk codec plaintext = type :: (putU24 payload.length ++ payload) ∧
    (type = 0x00 ∨ type = 0x01) ∧
      kChunkChecksumSize ≤ payload.length ∧ payload.length < 2 ^ 24 ∧
      decodeChunk codec type payload = .ok plaintext := by
  have hsmall : plaintext.length + kChunkChecksumSize ≤ kMaximumChunkPayload := by
    have hbound := hfits.2
    unfold kCompressionChunkSize at hbound
    unfold kChunkChecksumSize kMaximumChunkPayload
    omega
  have hlength : ∀ body : Bytes, body.length + kChunkChecksumSize =
    (putU32 (maskedCrc32c plaintext) ++ body).length := fun body => by
    rfl
  -- Whatever the chunk holds, it is no longer than the plaintext.
  have hchunk : ∀ (type : UInt8) (body : Bytes), body.length ≤ plaintext.length →
      (if type = 0x00 then codec.uncompress body else some body) = some plaintext →
      (putU32 (maskedCrc32c plaintext) ++ body).length ≤ kMaximumChunkPayload ∧
        kChunkChecksumSize ≤ (putU32 (maskedCrc32c plaintext) ++ body).length ∧
        decodeChunk codec type (putU32 (maskedCrc32c plaintext) ++ body) = .ok plaintext :=
        fun type body hshort hbody => by
    rw [← hlength]
    exact ⟨by omega, Nat.le_add_left _ _, decodeChunk_checked hbody⟩
  have h24 : kMaximumChunkPayload < 2 ^ 24 := by decide
  unfold appendChunk
  dsimp only
  by_cases hsmaller : (codec.compress plaintext).length + kChunkChecksumSize <
    plaintext.length + kChunkChecksumSize
  · obtain ⟨hmost, hleast, hdecode⟩ := hchunk 0x00 (codec.compress plaintext) (by omega)
      ((if_pos rfl).trans (hcodec plaintext))
    rw [decide_eq_true hsmaller, if_pos rfl, if_pos rfl, hlength, if_neg (Nat.not_lt.2 hmost)]
    exact ⟨0x00, _, rfl, .inl rfl, hleast, Nat.lt_of_le_of_lt hmost h24, hdecode⟩
  · obtain ⟨hmost, hleast, hdecode⟩ := hchunk 0x01 plaintext (Nat.le_refl _) (if_neg (by decide))
    rw [decide_eq_false hsmaller, if_neg Bool.false_ne_true, if_neg Bool.false_ne_true, hlength,
      if_neg (Nat.not_lt.2 hmost)]
    exact ⟨0x01, _, rfl, .inr rfl, hleast, Nat.lt_of_le_of_lt hmost h24, hdecode⟩

def chunksOf (codec : Codec) (data : Bytes) : Bytes := appendChunks codec data.length data

theorem chunksOf_flatMap (codec : Codec) : ∀ datas : List Bytes,
    ∃ pieces, datas.flatMap (chunksOf codec) = chunks codec pieces ∧ pieces.flatten = datas.flatten ∧
    ∀ piece ∈ pieces, Fits piece
  | [] => ⟨[], rfl, rfl, fun _ hp => absurd hp not_mem_nil⟩
  | data :: datas => by
    obtain ⟨first, hfirst, hflat, hfits⟩ := appendChunks_eq codec data.length data (Nat.le_refl _)
    obtain ⟨pieces, hpieces, hflat', hfits'⟩ := chunksOf_flatMap codec datas
    refine ⟨first ++ pieces, ?_, ?_, fun piece hp => ?_⟩
    · rw [flatMap_cons, hpieces]
      unfold chunksOf
      rw [hfirst]
      exact flatMap_append.symm
    · rw [flatten_append, hflat, hflat', flatten_cons]
    · exact (mem_append.1 hp).elim (hfits piece) (hfits' piece)

/-! ## The writes of a run -/

/-- The data of the calls of `async_write`; a write has the number of its call. -/
def writesOf (events : List Event) : List Bytes :=
  events.flatMap fun
    | .write data => [data]
    | _ => []

namespace StreamState

def handed (s : StreamState) : List Nat := s.written ++ s.inFlight.toList

def produced (s : StreamState) : Bytes := s.handed.flatMap fun id => (s.pending id).packet

def Packed (codec : Codec) (datas : List Bytes) (s : StreamState) : List Nat → Prop
  | [] => True
  | id :: rest => (s.pending id).packet = kStreamIdentifier ++ chunksOf codec (datas.getD id []) ∧
    ∀ id', id' ∈ rest → (s.pending id').packet = chunksOf codec (datas.getD id' [])

/-- **The writing half**, behind calls with these data: the writes are in the order of their calls; as
long as the stream is up none is lost that was not refused. -/
structure Queued (codec : Codec) (datas : List Bytes) (s : StreamState) : Prop where
  count : s.next = datas.length
  packed : s.Packed codec datas (s.handed ++ s.writes)
  order : (s.handed ++ s.writes).Pairwise (· < ·)
  bound : ∀ id, id ∈ s.handed ++ s.writes → id < s.next
  whole : s.failed = false → s.closed = false → ∀ id, id < s.next → datas.getD id [] ≠ [] →
    id ∈ s.handed ++ s.writes ∨ (id, .error .alreadyStarted) ∈ s.calls
  calm : s.failed = false → ∀ r, r ∈ s.stack → r = .pumpWrite

/-- **Between two events** the write with the identifier is on the transport. -/
structure Sent (codec : Codec) (datas : List Bytes) (s : StreamState) : Prop extends Queued codec datas s where
  fresh : s.writeIdentifierSent = false → s.handed = [] ∧ s.writes = []
  started : s.writeIdentifierSent = true → s.handed ≠ []

variable {codec : Codec} {datas : List Bytes} {s s' s'' : StreamState} {ids : List Nat}

theorem Packed.prefix {more : List Nat} (h : s.Packed codec datas (ids ++ more)) : s.Packed codec datas ids := by
  cases ids with
  | nil => trivial
  | cons id rest => exact ⟨h.1, fun id' hid => h.2 id' (mem_append_left _ hid)⟩

theorem Packed.mono (hbound : ∀ id, id ∈ ids → (s'.pending id).packet = (s.pending id).packet ∧
    id < datas.length)
    (more : List Bytes) (h : s.Packed codec datas ids) : s'.Packed codec (datas ++ more) ids := by
  have hdata : ∀ id, id ∈ ids → (datas ++ more).getD id [] = datas.getD id [] :=
    fun id hid => getD_append _ _ _ _ (hbound id hid).2
  cases ids with
  | nil => trivial
  | cons id rest =>
    refine ⟨?_, fun id' hid => ?_⟩
    · rw [(hbound id mem_cons_self).1, hdata id mem_cons_self]
      exact h.1
    · rw [(hbound id' (mem_cons_of_mem id hid)).1, hdata id' (mem_cons_of_mem id hid)]
      exact h.2 id' hid

structure Idles (s s' : StreamState) : Prop where
  identifier : s'.writeIdentifierSent = s.writeIdentifierSent
  handed : s'.handed = s.handed
  packet : ∀ id, (s'.pending id).packet = (s.pending id).packet
  next : s'.next = s.next
  calls : s.calls ⊆ s'.calls
  failed : s'.failed = false → s.failed = false
  closed : s'.closed = false → s.closed = false
  writes : s'.writes = s.writes ∨ s'.writes = [] ∧ (s'.failed = false → s'.closed = true)
  stack : s'.failed = false → ∀ r, r ∈ s'.stack → r ∈ s.stack ∨ r = .pumpWrite

theorem Idles.refl (s : StreamState) : Idles s s :=
  ⟨rfl, rfl, fun _ => rfl, rfl, fun _ h => h, fun h => h, fun h => h, .inl rfl, fun _ _ hr => .inl hr⟩

theorem Idles.trans (h : Idles s s') (h' : Idles s' s'') : Idles s s'' where
  identifier := h'.identifier.trans h.identifier
  handed := h'.handed.trans h.handed
  packet id := (h'.packet id).trans (h.packet id)
  next := h'.next.trans h.next
  calls := fun _ hc => h'.calls (h.calls hc)
  failed := fun hf => h.failed (h'.failed hf)
  closed := fun hc => h.closed (h'.closed hc)
  writes := by
    rcases h'.writes with heq | hnil
    · rcases h.writes with heq' | hnil'
      · exact .inl (heq.trans heq')
      · refine .inr ⟨heq.trans hnil'.1, fun hf => ?_⟩
        have hclosed := hnil'.2 (h'.failed hf)
        by_contra hopen
        exact Bool.noConfusion (hclosed.symm.trans (h'.closed (by simpa using hopen)))
    · exact .inr hnil
  stack := fun hf r hr => (h'.stack hf r hr).elim (h.stack (h'.failed hf) r) .inr

theorem Idles.sent (hidles : Idles s s') (h : Sent codec datas s) : Sent codec datas s' := by
  have hkept : ∀ id, id ∈ s'.handed ++ s'.writes → id ∈ s.handed ++ s.writes := fun id hid => by
    rw [hidles.handed] at hid
    rcases hidles.writes with heq | hnil
    · rw [heq] at hid
      exact hid
    · rw [hnil.1, append_nil] at hid
      exact mem_append_left _ hid
  have hpart : s'.handed ++ s'.writes <+: s.handed ++ s.writes := by
    rw [hidles.handed]
    rcases hidles.writes with heq | hnil
    · rw [heq]
    · rw [hnil.1, append_nil]
      exact prefix_append _ _
  refine ⟨⟨hidles.next.trans h.count, ?_, h.order.sublist hpart.sublist, fun id hid => ?_,
    fun hfailed hclosed id hid hdata => ?_,
    fun hfailed r hr => ?_⟩, fun hfresh => ?_, fun hstarted => ?_⟩
  · obtain ⟨more, hmore⟩ := hpart
    have hpacked : s.Packed codec datas (s'.handed ++ s'.writes) := Packed.prefix (hmore ▸ h.packed)
    have hsame : s'.Packed codec (datas ++ []) _ :=
      hpacked.mono (fun id hid => ⟨hidles.packet id, h.count ▸ h.bound id (hkept id hid)⟩) []
    rwa [append_nil] at hsame
  · rw [hidles.next]
    exact h.bound id (hkept id hid)
  · rw [hidles.next] at hid
    have hwrites : s'.writes = s.writes := hidles.writes.resolve_right fun hnil =>
      Bool.noConfusion (hclosed.symm.trans (hnil.2 hfailed))
    rw [hidles.handed, hwrites]
    exact (h.whole (hidles.failed hfailed) (hidles.closed hclosed) id hid hdata).imp_right fun hc =>
      hidles.calls hc
  · exact (hidles.stack hfailed r hr).elim (h.calm (hidles.failed hfailed) r) id
  · rw [hidles.identifier] at hfresh
    rw [hidles.handed]
    obtain ⟨hhanded, hwrites⟩ := h.fresh hfresh
    exact ⟨hhanded, hidles.writes.elim (fun heq => heq.trans hwrites) And.left⟩
  · rw [hidles.identifier] at hstarted
    rw [hidles.handed]
    exact h.started hstarted

/-! ### The reading half and the end -/

theorem idles_finishRead (s : StreamState) (error : StreamError) : Idles s (s.finishRead error) := by
  unfold finishRead
  split
  · exact Idles.refl s
  · exact ⟨rfl, rfl, fun _ => rfl, rfl, fun _ h => h, fun h => h, fun h => h, .inl rfl, fun _ _ hr => .inl hr⟩

theorem idles_deliverRead (s : StreamState) : Idles s s.deliverRead := by
  unfold deliverRead
  split
  · exact Idles.refl s
  · split
    · split
      · exact idles_finishRead s _
      · exact Idles.refl s
    · exact ⟨rfl, rfl, fun _ => rfl, rfl, fun _ h => h, fun h => h, fun h => h, .inl rfl, fun _ _ hr => .inl hr⟩

theorem idles_asyncReadSome (s : StreamState) (size : Nat) : Idles s (s.asyncReadSome size) := by
  unfold asyncReadSome
  split
  · exact ⟨rfl, rfl, fun _ => rfl, rfl, fun _ h => h, fun h => h, fun h => h, .inl rfl, fun _ _ hr => .inl hr⟩
  · split
    · exact ⟨rfl, rfl, fun _ => rfl, rfl, fun _ h => h, fun h => h, fun h => h, .inl rfl, fun _ _ hr => .inl hr⟩
    · split
      · exact ⟨rfl, rfl, fun _ => rfl, rfl, fun _ h => h, fun h => h, fun h => h, .inl rfl,
          fun _ _ hr => .inl hr⟩
      · refine Idles.trans ?_ (idles_deliverRead _)
        exact ⟨rfl, rfl, fun _ => rfl, rfl, fun _ h => h, fun h => h, fun h => h, .inl rfl,
          fun _ _ hr => .inl hr⟩

theorem idles_cancelRead (s : StreamState) : Idles s s.cancelRead := by
  unfold cancelRead
  split
  · exact Idles.refl s
  · exact ⟨rfl, rfl, fun _ => rfl, rfl, fun _ h => h, fun h => h, fun h => h, .inl rfl, fun _ _ hr => .inl hr⟩

theorem idles_closeWithError (s : StreamState) (error : StreamError) : Idles s (s.closeWithError error) := by
  unfold closeWithError
  split
  · exact Idles.refl s
  · have h := idles_finishRead { s with failed := true } error
    have hfailed : ∀ {P : Prop}, (({ s with failed := true }).finishRead error).failed = false → P := fun hf =>
      Bool.noConfusion (h.failed hf)
    exact ⟨h.identifier, h.handed, h.packet, h.next, h.calls, hfailed, h.closed,
      h.writes.imp id fun hnil => ⟨hnil.1, hfailed⟩, hfailed⟩

theorem idles_stopReading (s : StreamState) (error : StreamError) : Idles s (s.stopReading error) := by
  refine Idles.trans ?_ (idles_closeWithError _ error)
  exact ⟨rfl, rfl, fun _ => rfl, rfl, fun _ h => h, fun h => h, fun h => h, .inl rfl, fun _ _ hr => .inl hr⟩

theorem idles_stageRead (s : StreamState) (codec : Codec) (bytes : Bytes) : Idles s
    (s.stageRead codec bytes) := by
  have hstage : ∀ stage got, Idles s { s with stage := stage, got := got } := fun _ _ =>
    ⟨rfl, rfl, fun _ => rfl, rfl, fun _ h => h, fun h => h, fun h => h, .inl rfl, fun _ _ hr => .inl hr⟩
  unfold stageRead
  cases hcase : s.stage with
  | identifier =>
    dsimp only
    split
    · exact idles_stopReading s _
    · exact hstage _ _
  | header =>
    dsimp only
    split
    · split
      · exact hcase ▸ hstage s.stage []
      · exact hstage _ _
    · split
      · exact idles_stopReading s _
      · exact hstage _ _
  | payload type length =>
    dsimp only
    split
    · exact idles_stopReading s _
    · rename_i decoded _
      have h := idles_deliverRead { s with incoming := s.incoming ++ decoded, decoded := s.decoded ++ decoded }
      exact { h with }
  | skip length => exact hstage _ _

theorem idles_arrive (s : StreamState) (codec : Codec) (bytes : Bytes) : Idles s (s.arrive codec bytes) := by
  unfold arrive
  split
  · exact Idles.refl s
  · split
    · exact ⟨rfl, rfl, fun _ => rfl, rfl, fun _ h => h, fun h => h, fun h => h, .inl rfl, fun _ _ hr => .inl hr⟩
    · split
      · exact idles_stopReading s _
      · split
        · exact Idles.refl s
        · split
          · exact ⟨rfl, rfl, fun _ => rfl, rfl, fun _ h => h, fun h => h, fun h => h, .inl rfl,
              fun _ _ hr => .inl hr⟩
          · exact idles_stageRead s codec _

theorem idles_arriveError (s : StreamState) (error : StreamError) : Idles s (s.arriveError error) := by
  unfold arriveError
  split
  · exact Idles.refl s
  · exact idles_stopReading s error

theorem idles_call (s : StreamState) (id : Nat) (result : Except StreamError Nat) : Idles s (s.call id result) :=
  ⟨rfl, rfl, fun _ => rfl, rfl, subset_append_left _ _, fun h => h, fun h => h, .inl rfl, fun _ _ hr => .inl hr⟩

theorem idles_modify (s : StreamState) (id : Nat) {f : PendingWrite → PendingWrite}
    (hf : ∀ p, (f p).packet = p.packet) :
    Idles s (s.modify id f) := by
  refine ⟨rfl, rfl, fun i => ?_, rfl, fun _ h => h, fun h => h, fun h => h, .inl rfl, fun _ _ hr => .inl hr⟩
  unfold modify
  dsimp only
  split
  · exact hf _
  · rfl

theorem idles_failQueued (error : StreamError) :
    ∀ (ids : List Nat) (s : StreamState), Idles s (s.failQueued error ids)
  | [], s => Idles.refl s
  | id :: rest, s => by
    unfold failQueued
    split
    · exact (idles_call s id _).trans (idles_failQueued error rest _)
    · exact idles_failQueued error rest s

theorem idles_finishWrite (s : StreamState) (error : StreamError) (hdown : s.failed = false → s.closed = true) :
    Idles s (s.finishWrite error) := by
  have h := idles_failQueued error s.writes { s with writeHandler := none }
  have hreads := sameReads_failQueued error s.writes { s with writeHandler := none }
  have hclosed : s.closed = true → (({ s with writeHandler := none }).failQueued error s.writes).closed =
    true := fun hc => by
    by_contra hopen
    exact Bool.noConfusion (hc.symm.trans (h.closed (by simpa using hopen)))
  have hdropped : Idles s { ({ s with writeHandler := none }).failQueued error s.writes with writes := [] } :=
    { h with writes := .inr ⟨rfl, fun hf => hclosed (hdown (hreads.failed.symm.trans hf))⟩ }
  unfold finishWrite
  dsimp only
  split
  · exact hdropped
  · split
    · exact hdropped.trans (idles_call _ _ _)
    · exact hdropped

theorem idles_close (s : StreamState) : Idles s s.close := by
  unfold close
  split
  · exact Idles.refl s
  · have hclosed : Idles s { s with closed := true } :=
      ⟨rfl, rfl, fun _ => rfl, rfl, fun _ h => h, fun h => h, fun h => Bool.noConfusion h, .inl rfl,
        fun _ _ hr => .inl hr⟩
    exact (hclosed.trans (idles_finishRead _ _)).trans
      (idles_finishWrite _ _ fun _ => (sameWrites_finishRead _ _).closed)

theorem idles_cancelWrite (s : StreamState) : Idles s s.cancelWrite := by
  have hleft : Idles s { s with writeHandler := none } :=
    ⟨rfl, rfl, fun _ => rfl, rfl, fun _ h => h, fun h => h, fun h => h, .inl rfl, fun _ _ hr => .inl hr⟩
  unfold cancelWrite
  split
  · exact Idles.refl s
  · split
    · exact hleft
    · exact (hleft.trans (idles_modify _ _ (f := fun p => { p with cancelled := true, handler := false })
        fun _ => rfl)).trans
        (idles_call _ _ _)

variable {id : Nat}

theorem idles_landed (hflight : s.inFlight = some id) : Idles s (s.landed id false) := by
  refine ⟨rfl, ?_, fun _ => rfl, rfl, fun _ h => h, fun h => h, fun h => h, .inl rfl, fun _ _ hr => .inl hr⟩
  unfold handed landed
  rw [hflight]
  exact append_nil _

theorem idles_succeed (s : StreamState) (id : Nat) : Idles s (s.succeed id) := by
  have hleft : Idles s { s with writeHandler := if s.writeHandler = some id then none else s.writeHandler } :=
    ⟨rfl, rfl, fun _ => rfl, rfl, fun _ h => h, fun h => h, fun h => h, .inl rfl, fun _ _ hr => .inl hr⟩
  have hmodified := hleft.trans (idles_modify _ id (f := fun p => { p with handler := false }) fun _ => rfl)
  have h := hmodified.trans (idles_call _ id (.ok (s.pending id).size))
  exact { h with stack := fun _ r hr => (mem_cons.1 hr).elim .inr .inl }

theorem idles_pop {r : Resume} {stack : List Resume} (hstack : s.stack = r :: stack) : Idles s
    { s with stack := stack } :=
  ⟨rfl, rfl, fun _ => rfl, rfl, fun _ h => h, fun h => h, fun h => h, .inl rfl,
    fun _ _ hr => .inl (hstack ▸ mem_cons_of_mem r hr)⟩

/-! ### The writing half -/

theorem pumpWrite_cases (s : StreamState) :
    s.pumpWrite = s ∧ (s.closed = true ∨ s.inFlight.isSome = true ∨ s.writes = []) ∨
    ∃ id rest, s.inFlight = none ∧ s.writes = id :: rest ∧
    s.pumpWrite = { s with writes := rest, inFlight := some id } := by
  unfold pumpWrite
  by_cases hbusy : s.closed = true ∨ s.inFlight.isSome = true
  · rw [if_pos hbusy]
    exact .inl ⟨rfl, hbusy.imp id .inl⟩
  · rw [if_neg hbusy]
    have hidle : s.inFlight = none := by simpa using (not_or.1 hbusy).2
    cases hwrites : s.writes with
    | nil => exact .inl ⟨rfl, .inr (.inr rfl)⟩
    | cons id rest => exact .inr ⟨id, rest, hidle, rfl, rfl⟩

theorem pumpWrite_all (s : StreamState) : s.pumpWrite.handed ++ s.pumpWrite.writes = s.handed ++ s.writes := by
  rcases pumpWrite_cases s with ⟨heq, _⟩ | ⟨id, rest, hidle, hwrites, heq⟩
  · rw [heq]
  · rw [heq, hwrites]
    unfold handed
    rw [hidle]
    show s.written ++ [id] ++ rest = s.written ++ [] ++ id :: rest
    rw [append_nil, append_assoc]
    rfl

theorem pumpWrite_handed (s : StreamState) : s.handed <+: s.pumpWrite.handed := by
  rcases pumpWrite_cases s with ⟨heq, _⟩ | ⟨id, rest, hidle, _, heq⟩
  · rw [heq]
  · rw [heq]
    unfold handed
    rw [hidle]
    exact (prefix_append_right_inj _).2 (List.nil_prefix)

theorem pumpWrite_queued (h : Queued codec datas s) : Queued codec datas s.pumpWrite := by
  have hall := pumpWrite_all s
  rcases pumpWrite_cases s with ⟨heq, _⟩ | ⟨id, rest, _, _, heq⟩
  · rw [heq]
    exact h
  · refine ⟨?_, ?_, ?_, ?_, ?_, ?_⟩
    · rw [heq]
      exact h.count
    · rw [hall, heq]
      exact h.packed
    · rw [hall]
      exact h.order
    · rw [hall, heq]
      exact h.bound
    · rw [hall, heq]
      exact h.whole
    · rw [heq]
      exact h.calm

theorem pumpWrite_identifier (s : StreamState) : s.pumpWrite.writeIdentifierSent = s.writeIdentifierSent := by
  rcases pumpWrite_cases s with ⟨heq, _⟩ | ⟨_, _, _, _, heq⟩ <;> rw [heq]

theorem pumpWrite_sent (h : Sent codec datas s) : Sent codec datas s.pumpWrite := by
  refine ⟨pumpWrite_queued h.toQueued, fun hfresh => ?_, fun hstarted hnil => ?_⟩
  · rw [pumpWrite_identifier] at hfresh
    obtain ⟨hhanded, hwrites⟩ := h.fresh hfresh
    have hall := pumpWrite_all s
    rw [hhanded, hwrites] at hall
    exact append_eq_nil_iff.1 hall
  · rw [pumpWrite_identifier] at hstarted
    exact h.started hstarted (prefix_nil.1 (hnil ▸ pumpWrite_handed s))

theorem Packed.snoc (h : s.Packed codec datas ids) (hne : ids ≠ [])
    (hid : (s.pending id).packet = chunksOf codec (datas.getD id [])) : s.Packed codec datas (ids ++ [id]) := by
  cases ids with
  | nil => exact absurd rfl hne
  | cons first rest =>
    refine ⟨h.1, fun id' hmem => ?_⟩
    rcases mem_append.1 hmem with hold | hnew
    · exact h.2 id' hold
    · rw [mem_singleton.1 hnew]
      exact hid

theorem counted_sent (h : Sent codec datas s) (data : Bytes) (result : Except StreamError Nat)
    (hdone : s.closed = true ∨ data = [] ∨ result = .error .alreadyStarted) :
    Sent codec (datas ++ [data]) (({ s with next := s.next + 1 }).call s.next result) := by
  refine ⟨⟨?_, ?_, h.order, fun id hid => Nat.lt_succ_of_lt (h.bound id hid),
    fun hfailed hclosed id hid hdata => ?_, h.calm⟩, h.fresh, h.started⟩
  · rw [length_append, h.count]
    rfl
  · exact h.packed.mono (fun id hid => ⟨rfl, h.count ▸ h.bound id hid⟩) [data]
  · rcases Nat.lt_succ_iff_lt_or_eq.1 (show id < s.next + 1 from hid) with hlt | rfl
    · rw [getD_append _ _ _ _ (h.count ▸ hlt)] at hdata
      exact (h.whole hfailed hclosed id hlt hdata).imp_right (mem_append_left _)
    · rcases hdone with hdown | rfl | rfl
      · exact Bool.noConfusion (hdown.symm.trans hclosed)
      · rw [h.count, getD_append_right _ _ _ _ (Nat.le_refl _), Nat.sub_self] at hdata
        exact absurd rfl hdata
      · exact .inr (mem_append_right _ (mem_singleton.2 rfl))

theorem asyncWrite_sent (h : Sent codec datas s) (data : Bytes) :
    Sent codec (datas ++ [data]) (s.asyncWrite codec data) := by
  unfold asyncWrite
  dsimp only
  split
  · exact counted_sent h data _ (.inl ‹_›)
  · rename_i hopen
    split
    · exact counted_sent h data _ (.inr (.inr rfl))
    · split
      · exact counted_sent h data _ (.inr (.inl ‹_›))
      · generalize hnext : (({ s with
          next := s.next + 1
          writeIdentifierSent := true
          writeHandler := some s.next
          writes := s.writes ++ [s.next] }).modify s.next fun _ =>
            { packet := (if s.writeIdentifierSent then [] else kStreamIdentifier) ++
              appendChunks codec data.length data, size := data.length }) = s'
        have hhanded : s'.handed = s.handed := hnext ▸ rfl
        have hwrites : s'.writes = s.writes ++ [s.next] := hnext ▸ rfl
        have hnew : (s'.pending s.next).packet =
          (if s.writeIdentifierSent then [] else kStreamIdentifier) ++ chunksOf codec data := by
          rw [← hnext]
          exact congrArg PendingWrite.packet (if_pos rfl)
        have hold : ∀ id, id < s.next → (s'.pending id).packet = (s.pending id).packet := fun id hid => by
          rw [← hnext]
          exact congrArg PendingWrite.packet (if_neg (Nat.ne_of_lt hid))
        have hdata : (datas ++ [data]).getD s.next [] = data := by
          rw [h.count, getD_append_right _ _ _ _ (Nat.le_refl _), Nat.sub_self]
          rfl
        have hlist : s'.handed ++ s'.writes = (s.handed ++ s.writes) ++ [s.next] := by
          rw [hhanded, hwrites, append_assoc]
        have hfailed : s'.failed = s.failed := hnext ▸ rfl
        have hclosed : s'.closed = s.closed := hnext ▸ rfl
        have hpast : s'.next = s.next + 1 := hnext ▸ rfl
        have hcalls : s'.calls = s.calls := hnext ▸ rfl
        have hstack : s'.stack = s.stack := hnext ▸ rfl
        have hqueued : Queued codec (datas ++ [data]) s' := by
          refine ⟨?_, ?_, ?_, fun id hid => ?_, fun hf hc id hid hne => ?_, fun hf r hr => ?_⟩
          · rw [hpast, length_append, h.count]
            rfl
          · rw [hlist]
            have hpacked : s'.Packed codec (datas ++ [data]) (s.handed ++ s.writes) :=
              h.packed.mono (fun id hid => ⟨hold id (h.bound id hid), h.count ▸ h.bound id hid⟩) [data]
            cases hsent : s.writeIdentifierSent with
            | false =>
              obtain ⟨hnone, hidle⟩ := h.fresh hsent
              rw [hsent, if_neg Bool.false_ne_true] at hnew
              rw [hnone, hidle]
              exact ⟨hnew.trans (congrArg _ (congrArg _ hdata.symm)), fun _ hid => absurd hid not_mem_nil⟩
            | true =>
              rw [hsent, if_pos rfl, nil_append] at hnew
              exact hpacked.snoc (fun hnil => h.started hsent (append_eq_nil_iff.1 hnil).1)
                (hnew.trans (congrArg _ hdata.symm))
          · rw [hlist]
            refine pairwise_append.2 ⟨h.order, pairwise_singleton _ _, fun id hid id' hid' => ?_⟩
            rw [mem_singleton.1 hid']
            exact h.bound id hid
          · rw [hlist] at hid
            rw [hpast]
            rcases mem_append.1 hid with hid | hid
            · exact Nat.lt_succ_of_lt (h.bound id hid)
            · rw [mem_singleton.1 hid]
              exact Nat.lt_succ_self _
          · rw [hpast] at hid
            rw [hlist, hcalls]
            rcases Nat.lt_succ_iff_lt_or_eq.1 hid with hlt | rfl
            · rw [getD_append _ _ _ _ (h.count ▸ hlt)] at hne
              exact (h.whole (hfailed ▸ hf) (hclosed ▸ hc) id hlt hne).imp_left (mem_append_left _)
            · exact .inl (mem_append_right _ (mem_singleton.2 rfl))
          · exact h.calm (hfailed ▸ hf) r (hstack ▸ hr)
        have hidentifier : s'.pumpWrite.writeIdentifierSent = true := by
          rw [pumpWrite_identifier, ← hnext]
          rfl
        refine ⟨pumpWrite_queued hqueued, fun hfresh => Bool.noConfusion (hfresh.symm.trans hidentifier),
          fun _ hnil => ?_⟩
        have hnone : s'.handed = [] := prefix_nil.1 (hnil ▸ pumpWrite_handed s')
        have hidle : s'.inFlight = none := by
          have hflight := (append_eq_nil_iff.1 hnone).2
          simpa using hflight
        -- Nothing is handed over, so the pump has started the write.
        rcases pumpWrite_cases s' with ⟨_, hclosed' | hbusy | hempty⟩ | ⟨id, rest, _, _, heq⟩
        · exact hopen (hclosed ▸ hclosed')
        · rw [hidle] at hbusy
          cases hbusy
        · rw [hwrites] at hempty
          exact absurd hempty (append_ne_nil_of_right_ne_nil _ (cons_ne_nil _ _))
        · rw [heq] at hnil
          exact absurd hnil (append_ne_nil_of_right_ne_nil _ (cons_ne_nil _ _))

theorem writeDone_sent (h : Sent codec datas s) : Sent codec datas (s.writeDone false) := by
  unfold writeDone
  split
  · exact h
  · rename_i id hflight
    have hlanded := (idles_landed hflight).sent h
    rw [if_neg Bool.false_ne_true]
    split
    · exact (idles_succeed _ id).sent hlanded
    · exact pumpWrite_sent hlanded

theorem handlerReturned_sent (h : Sent codec datas s) : Sent codec datas s.handlerReturned := by
  unfold handlerReturned
  cases hstack : s.stack with
  | nil => exact h
  | cons r stack =>
    have hpopped := (idles_pop hstack).sent h
    cases r with
    | pumpWrite => exact pumpWrite_sent hpopped
    | finishWrite error =>
      refine (idles_finishWrite _ error fun hfailed => ?_).sent hpopped
      have hcalm := h.calm hfailed (.finishWrite error) (hstack ▸ mem_cons_self)
      cases hcalm
    | close => exact (idles_close _).sent hpopped

theorem step_sent (h : Sent codec datas s) (e : Event) (he : e ≠ .writeDone true) :
    Sent codec (datas ++ writesOf [e]) (s.step codec e) := by
  have hsame : ∀ {s'}, Sent codec datas s' → Sent codec (datas ++ []) s' := fun h => by rwa [append_nil]
  cases e with
  | read size => exact hsame ((idles_asyncReadSome s size).sent h)
  | cancelRead => exact hsame ((idles_cancelRead s).sent h)
  | arrive bytes => exact hsame ((idles_arrive s codec bytes).sent h)
  | eof => exact hsame ((idles_arriveError s .eof).sent h)
  | readError => exact hsame ((idles_arriveError s .transport).sent h)
  | write data => exact asyncWrite_sent h data
  | cancelWrite => exact hsame ((idles_cancelWrite s).sent h)
  | shutdownSend => exact hsame h
  | close => exact hsame ((idles_close s).sent h)
  | writeDone failed =>
    cases failed with
    | true => exact absurd rfl he
    | false => exact hsame (writeDone_sent h)
  | handlerReturned => exact hsame (handlerReturned_sent h)

theorem sent_start (codec : Codec) : Sent codec [] {} :=
  ⟨⟨rfl, trivial, List.Pairwise.nil, fun _ hid => absurd hid not_mem_nil,
    fun _ _ id hid => absurd hid (Nat.not_lt_zero id),
    fun _ _ hr => absurd hr not_mem_nil⟩, fun _ => ⟨rfl, rfl⟩, fun hstarted => Bool.noConfusion hstarted⟩

end StreamState

theorem run_sent (codec : Codec) : ∀ (events : List Event) (datas : List Bytes) (s : StreamState),
    s.Sent codec datas →
    .writeDone true ∉ events → (Runs.run (StreamState.step codec) s events).Sent codec (datas ++ writesOf events)
  | [], datas, s, h, _ => by
    show s.Sent codec (datas ++ [])
    rwa [append_nil]
  | e :: events, datas, s, h, hok => by
    have hstep := StreamState.step_sent h e fun heq => hok (heq ▸ mem_cons_self)
    have hrest := run_sent codec events _ _ hstep fun hmem => hok (mem_cons_of_mem e hmem)
    have hwrites : writesOf (e :: events) = writesOf [e] ++ writesOf events := @flatMap_append _ _ [e] _ _
    rw [Runs.run_cons, hwrites, ← append_assoc]
    exact hrest

end ClashNative.Kcptun.Snappy
