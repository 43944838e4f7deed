import ClashNative.Calls
import ClashNative.RestlsPump
/-!
# RestlsWrites — the writes of a ResTLS stream

One staged buffer, one offset and one record on its way are shared by the write that is parked, a
cancelled one before it and the records that answer the peer.
-/
namespace ClashNative.Restls.RestlsStream

open List

/-! ## What is owed -/

/-- **The writes are sound**: the records carry a front of each buffer, in the order of the calls, and the
whole of a buffer that was written; nothing is read behind what is staged; and each handler is called
once, or waits for a record that is on its way, or for a read that will let it go on. -/
structure Sound (s : RestlsStream) : Prop where
  staged : s.pendingWriteOffset ≤ s.pendingWrite.length ∧ s.overrun = false
  order : s.sent.flatMap Prod.snd = (List.range s.writes.length).flatMap (Calls.part s.sent)
  parts : ∀ id buffer, s.writes[id]? = some buffer → Calls.part s.sent id <+: buffer
  whole : ∀ id n, (id, .ok n) ∈ s.writeResults → s.writes[id]? = some (Calls.part s.sent id) ∧
    n = (Calls.part s.sent id).length
  once : Calls.Once (s.writeResults.map Prod.fst) s.writeHandler s.writes.length
  faultless : ∀ id, (id, .error .fault) ∉ s.writeResults
  alive : s.writeHandler.isSome = true → s.inFlight.isSome = true ∨ s.writeWaitingResponse = true ∧
    s.lowerRead.isSome = true

def Fits (s : RestlsStream) (scriptIndex left : Nat) : Prop :=
  s.script.length ≤ scriptIndex → s.encoder.gcmLength + kRestlsAuthHeaderLength + left ≤ 65535

/-- **The condition.**  No handler writes in its turn; a record of data is written for the write that is
parked; what is left of a write when the script is used up fits into one record; and a read of the
application that completes while a write waits for the peer serves a parked read, and brings bytes with no
record at fault in front. -/
def Orderly (hash : KeyedHash) (s : RestlsStream) (event : Event) : Prop :=
  (∀ buffer, some buffer ∈ event.replies → buffer = []) ∧
    match event.act with
    | .write buffer => s.writeHandler = none → s.Fits s.scriptIndex buffer.length
    | .lowerRead n => s.lowerRead = some .pump → s.writeHandler.isSome = true → s.inFlight = none →
        s.readHandler.isSome = true ∧ s.brings n ≠ [] ∧
        ∀ record rest, nextRecord (s.readWire ++ s.brings n) = some (record, rest) →
          (s.decoder.decode hash record).1.isOk = true
    | .lowerWritten false => match s.inFlight with
      | some (.data owner chunk _ _) => s.writeHandler = some owner ∧
          s.Fits (s.scriptIndex + 1) (s.pendingWrite.length - (s.pendingWriteOffset + chunk))
      | some (.control _) => s.writeHandler.isSome = true →
        s.Fits (s.scriptIndex + 1) (s.pendingWrite.length - s.pendingWriteOffset)
      | none => True
    | _ => True

instance Orderly.decidableReplies (replies : List (Option Bytes)) :
    Decidable (∀ buffer, some buffer ∈ replies → buffer = []) :=
  decidable_of_iff (∀ reply ∈ replies, reply.getD [] = []) ⟨fun h _ hmem => h _ hmem,
    fun h reply hmem => match reply, hmem with
    | none, _ => rfl
    | some buffer, hmem => h buffer hmem⟩

instance Orderly.decidableRecord (found : Option (Bytes × Bytes)) (good : Bytes → Bool) :
    Decidable (∀ record rest, found = some (record, rest) → good record = true) :=
  match found with
  | none => isTrue nofun
  | some (record, rest) => decidable_of_iff (good record = true)
      ⟨fun h _ _ heq => (congrArg good (Prod.ext_iff.1 (Option.some.inj heq)).1).symm.trans h,
        fun h => h record rest rfl⟩

instance (s : RestlsStream) (scriptIndex left : Nat) : Decidable (s.Fits scriptIndex left) :=
  inferInstanceAs (Decidable (_ → _))

instance Orderly.decidable (hash : KeyedHash) (s : RestlsStream) (event : Event) : Decidable
    (Orderly hash s event) :=
  @instDecidableAnd _ _ (Orderly.decidableReplies event.replies) (match event.act with
    | .write buffer => inferInstanceAs (Decidable (s.writeHandler = none → s.Fits s.scriptIndex buffer.length))
    | .lowerRead n =>
      have := Orderly.decidableRecord (nextRecord (s.readWire ++ s.brings n)) fun record =>
        (s.decoder.decode hash record).1.isOk
      inferInstanceAs (Decidable (s.lowerRead = some .pump → s.writeHandler.isSome = true → s.inFlight = none →
        s.readHandler.isSome = true ∧ s.brings n ≠ [] ∧
        ∀ record rest, nextRecord (s.readWire ++ s.brings n) = some (record, rest) →
          (s.decoder.decode hash record).1.isOk = true))
    | .lowerWritten false => match s.inFlight with
      | some (.data owner chunk _ _) => inferInstanceAs (Decidable (s.writeHandler = some owner ∧
          s.Fits (s.scriptIndex + 1) (s.pendingWrite.length - (s.pendingWriteOffset + chunk))))
      | some (.control _) => inferInstanceAs (Decidable (s.writeHandler.isSome = true →
          s.Fits (s.scriptIndex + 1) (s.pendingWrite.length - s.pendingWriteOffset)))
      | none => inferInstanceAs (Decidable True)
    | .lowerWritten true => inferInstanceAs (Decidable True)
    | .read _ => inferInstanceAs (Decidable True)
    | .cancelRead => inferInstanceAs (Decidable True)
    | .cancelWrite => inferInstanceAs (Decidable True)
    | .fail => inferInstanceAs (Decidable True)
    | .close => inferInstanceAs (Decidable True))

/-! ## What a run keeps -/

def flying (s : RestlsStream) (id : Nat) : Nat :=
  match s.inFlight with
  | some (.data owner chunk _ _) => if owner = id then chunk else 0
  | _ => 0

structure Book (s : RestlsStream) : Prop where
  plain : ∀ buffer, some buffer ∈ s.replies → buffer = []
  ended : s.ended ≠ some .fault
  overrun : s.overrun = false
  once : Calls.Once (s.writeResults.map Prod.fst) s.writeHandler s.writes.length
  faultless : ∀ id, (id, .error .fault) ∉ s.writeResults
  callers : ∀ entry ∈ s.sent, entry.1 < s.writes.length
  order : s.sent.Pairwise fun a b => a.1 ≤ b.1
  parts : ∀ id buffer, s.writes[id]? = some buffer → Calls.part s.sent id <+: buffer
  whole : ∀ id n, (id, .ok n) ∈ s.writeResults → s.writes[id]? = some (Calls.part s.sent id) ∧
    n = (Calls.part s.sent id).length
  flight : ∀ owner chunk needsResponse wire, s.inFlight = some (.data owner chunk needsResponse wire) →
    owner < s.writes.length

/-- **The parked write**: it is the last one that was sent of, and its part is what the offset and the
record on its way tell. -/
structure Staged (s : RestlsStream) (id : Nat) : Prop where
  buffer : s.writes[id]? = some s.pendingWrite
  last : ∀ entry ∈ s.sent, entry.1 ≤ id
  part : Calls.part s.sent id = s.pendingWrite.take (s.pendingWriteOffset + s.flying id)
  offset : s.pendingWriteOffset + s.flying id ≤ s.pendingWrite.length

structure Ledger (s : RestlsStream) : Prop extends Book s where
  size : s.pendingWriteSize = s.pendingWrite.length
  offset : s.pendingWriteOffset ≤ s.pendingWrite.length
  parked : ∀ id, s.writeHandler = some id → s.Staged id
  fits : s.writeHandler.isSome = true → s.Fits s.scriptIndex (s.pendingWrite.length - s.pendingWriteOffset)

def Alive (s : RestlsStream) : Prop :=
  s.writeHandler.isSome = true → s.inFlight.isSome = true ∨ s.writeWaitingResponse = true ∧
  s.lowerRead.isSome = true

theorem Ledger.sound {s : RestlsStream} (h : Ledger s) (halive : Alive s) : Sound s :=
  ⟨⟨h.offset, h.overrun⟩, (Calls.flatMap_part h.order h.callers).symm, h.parts, h.whole, h.once,
    h.faultless, halive⟩

variable (env : Env) {s : RestlsStream}

theorem alive_of_none (h : s.writeHandler = none) : Alive s := by
  unfold Alive
  rw [h]
  exact nofun

theorem flying_of_none (h : s.inFlight = none) (id : Nat) : s.flying id = 0 := by
  unfold flying
  rw [h]

/-! ## The handler of a write -/

theorem Book.replies (h : Book s) {replies : List (Option Bytes)}
    (hplain : ∀ buffer, some buffer ∈ replies → buffer = []) :
    Book { s with replies } :=
  { h with plain := hplain }

theorem Book.call (h : Book s) (result : Except StreamError Nat) (hfault : result ≠ .error .fault)
    (hwhole : ∀ id n, s.writeHandler = some id → result = .ok n →
      s.writes[id]? = some (Calls.part s.sent id) ∧ n = (Calls.part s.sent id).length) :
    Book (s.callWriter result) := by
  unfold callWriter
  cases hid : s.writeHandler with
  | none =>
    have honce := h.once
    rw [hid] at honce
    exact { h with once := honce }
  | some id =>
    have honce := h.once
    rw [hid] at honce
    refine { h with once := ?_, faultless := fun other hmem => ?_, whole := fun other n hmem => ?_ }
    · rw [map_append]
      exact honce.finish
    · rcases mem_append.1 hmem with hold | hnew
      · exact h.faultless other hold
      · exact hfault (Prod.ext_iff.1 (mem_singleton.1 hnew)).2.symm
    · rcases mem_append.1 hmem with hold | hnew
      · exact h.whole other n hold
      · obtain ⟨rfl, hresult⟩ := Prod.ext_iff.1 (mem_singleton.1 hnew)
        exact hwhole _ n hid hresult.symm

theorem Book.cleared (h : Book s) (hnone : s.writeHandler = none) : Ledger s.clearWrite :=
  ⟨{ h with }, rfl, Nat.le_refl 0,
    fun id hid => absurd (hnone.symm.trans hid) nofun, fun hsome => by
      rw [show s.clearWrite.writeHandler = none from hnone] at hsome
      cases hsome⟩

theorem Book.part_fresh (h : Book s) : Calls.part s.sent s.writes.length = [] :=
  Calls.part_of_not_mem fun entry hentry => Nat.ne_of_lt (h.callers entry hentry)

structure Called (s : RestlsStream) (writes : List Bytes) : Prop where
  callers : ∀ entry ∈ s.sent, entry.1 < writes.length
  parts : ∀ id buffer, writes[id]? = some buffer → Calls.part s.sent id <+: buffer
  whole : ∀ id n, (id, .ok n) ∈ s.writeResults → writes[id]? = some (Calls.part s.sent id) ∧
    n = (Calls.part s.sent id).length
  flight : ∀ owner chunk needsResponse wire, s.inFlight = some (.data owner chunk needsResponse wire) →
    owner < writes.length

theorem Book.called (h : Book s) (buffer : Bytes) : Called s (s.writes ++ [buffer]) := by
  have hlonger : (s.writes ++ [buffer]).length = s.writes.length + 1 := by rw [length_append, length_singleton]
  refine ⟨fun entry hentry => ?_, fun id other hid => ?_, fun id n hmem => ?_,
    fun owner chunk needsResponse wire hflight => ?_⟩
  · have hlt := h.callers entry hentry
    omega
  · by_cases hlt : id < s.writes.length
    · rw [getElem?_append_left hlt] at hid
      exact h.parts id other hid
    · have hid' : id = s.writes.length := by
        have hle := (List.getElem?_eq_some_iff.1 hid).1
        omega
      rw [hid', h.part_fresh]
      exact nil_prefix
  · obtain ⟨hbuffer, hn⟩ := h.whole id n hmem
    exact ⟨(getElem?_append_left (List.getElem?_eq_some_iff.1 hbuffer).1).trans hbuffer, hn⟩
  · have hlt := h.flight owner chunk needsResponse wire hflight
    omega

theorem Book.post (h : Book s) (buffer : Bytes) (result : Except StreamError Nat)
    (hfault : result ≠ .error .fault)
    (hempty : ∀ n, result = .ok n → n = 0 ∧ buffer = []) : Book (s.postWrite buffer result) := by
  have hcalled := h.called buffer
  refine ⟨h.plain, h.ended, h.overrun, ?_, fun id hmem => ?_, hcalled.callers, h.order, hcalled.parts,
    fun id n hmem => ?_, hcalled.flight⟩
  · unfold postWrite
    rw [map_append, length_append]
    exact h.once.answer
  · rcases mem_append.1 hmem with hold | hnew
    · exact h.faultless id hold
    · exact hfault (Prod.ext_iff.1 (mem_singleton.1 hnew)).2.symm
  · rcases mem_append.1 hmem with hold | hnew
    · exact hcalled.whole id n hold
    · obtain ⟨rfl, hresult⟩ := Prod.ext_iff.1 (mem_singleton.1 hnew)
      obtain ⟨rfl, rfl⟩ := hempty n hresult.symm
      change (s.writes ++ [[]])[s.writes.length]? = some (Calls.part s.sent s.writes.length) ∧
        0 = (Calls.part s.sent s.writes.length).length
      rw [h.part_fresh]
      exact ⟨getElem?_concat_length, rfl⟩

variable {buffer : Bytes}

theorem Book.park (h : Book s) (hnone : s.writeHandler = none) (hfits : s.Fits s.scriptIndex buffer.length) :
    Ledger { s with
      pendingWrite := buffer, pendingWriteOffset := 0, pendingWriteSize := buffer.length, writeHandler :=
      some s.writes.length
      writes := s.writes ++ [buffer] } := by
  have hcalled := h.called buffer
  have honce := h.once
  rw [hnone] at honce
  refine ⟨⟨h.plain, h.ended, h.overrun, ?_, h.faultless, hcalled.callers, h.order, hcalled.parts,
    hcalled.whole, hcalled.flight⟩, rfl,
    Nat.zero_le _, fun id hid => ?_, fun _ => hfits⟩
  · rw [length_append]
    exact honce.park
  · obtain rfl : s.writes.length = id := Option.some.inj hid
    -- the record on its way is of an older write
    have hflying : s.flying s.writes.length = 0 := by
      unfold flying
      split
      · rename_i owner chunk needsResponse wire hflight
        exact if_neg (Nat.ne_of_lt (h.flight owner chunk needsResponse wire hflight))
      · rfl
    refine ⟨getElem?_concat_length, fun entry hentry => Nat.le_of_lt (h.callers entry hentry), ?_, ?_⟩
    · change Calls.part s.sent s.writes.length = buffer.take (0 + s.flying s.writes.length)
      rw [hflying, h.part_fresh]
      rfl
    · change 0 + s.flying s.writes.length ≤ buffer.length
      rw [hflying]
      exact Nat.zero_le _

theorem Ledger.post (h : Ledger s) (buffer : Bytes) (result : Except StreamError Nat)
    (hfault : result ≠ .error .fault)
    (hempty : ∀ n, result = .ok n → n = 0 ∧ buffer = []) : Ledger (s.postWrite buffer result) := by
  refine { h with toBook := h.toBook.post buffer result hfault hempty, parked := fun id hid => ?_ }
  obtain ⟨hbuffer, hlast, hpart, hoffset⟩ := h.parked id hid
  exact ⟨(getElem?_append_left (List.getElem?_eq_some_iff.1 hbuffer).1).trans hbuffer, hlast, hpart, hoffset⟩

theorem writeImpl_nil (finish : RestlsStream → Except StreamError Nat → RestlsStream)
    (h : s.writeHandler = none) :
    s.writeImpl env finish [] = s.postWrite [] (.ok 0) := by
  unfold writeImpl
  rw [h]
  rfl

theorem finishWriteWith_ledger (n : Nat) (h : Book s) (result : Except StreamError Nat)
    (hfault : result ≠ .error .fault)
    (hwhole : ∀ id n, s.writeHandler = some id → result = .ok n →
      s.writes[id]? = some (Calls.part s.sent id) ∧ n = (Calls.part s.sent id).length) :
    Ledger (s.finishWriteWith env n result) ∧ (s.finishWriteWith env n result).writeHandler = none := by
  have hcalled := h.call result hfault hwhole
  cases n with
  | zero => exact ⟨hcalled.cleared rfl, rfl⟩
  | succ n =>
    unfold finishWriteWith
    split
    · rename_i buffer replies hhandler hreplies
      have hmore : ∀ other, some other ∈ replies → other = [] := fun other hmem =>
        h.plain other (by rw [hreplies]; exact mem_cons_of_mem _ hmem)
      have hbuffer : buffer = [] := h.plain buffer (by rw [hreplies]; exact mem_cons_self)
      rw [hbuffer, writeImpl_nil env _ rfl]
      exact ⟨((hcalled.replies hmore).post [] (.ok 0) nofun fun n hn =>
        ⟨(Except.ok.inj hn).symm, rfl⟩).cleared rfl, rfl⟩
    · rename_i replies hhandler hreplies
      have hmore : ∀ other, some other ∈ replies → other = [] := fun other hmem =>
        h.plain other (by rw [hreplies]; exact mem_cons_of_mem _ hmem)
      exact ⟨(hcalled.replies hmore).cleared rfl, rfl⟩
    · exact ⟨hcalled.cleared rfl, rfl⟩

theorem finishWrite_ledger (h : Book s) (result : Except StreamError Nat) (hfault : result ≠ .error .fault)
    (hwhole : ∀ id n, s.writeHandler = some id → result = .ok n →
      s.writes[id]? = some (Calls.part s.sent id) ∧ n = (Calls.part s.sent id).length) :
    Ledger (s.finishWrite env result) ∧ (s.finishWrite env result).writeHandler = none :=
  finishWriteWith_ledger env _ h result hfault hwhole

/-! ## The pumps -/

theorem Ledger.reading (h : Ledger s) (decoder : RestlsApplicationCodec) (readWire pendingPlain : Bytes)
    (readBuffer : Nat)
    (readHandler : Option Nat) (lowerRead : Option LowerRead) (writeWaitingResponse : Bool)
    (pendingControlResponses : Nat) (wire : Bytes)
    {ended : Option StreamError} (hended : ended ≠ some .fault)
    (readResults : List (Nat × Except StreamError Bytes)) (reads : Nat) :
    Ledger { s with
      decoder, readWire, pendingPlain, readBuffer, readHandler, lowerRead, writeWaitingResponse,
      pendingControlResponses, wire, ended
      readResults, reads } :=
  ⟨{ h with ended := hended }, h.size, h.offset,
    fun id hid => ⟨(h.parked id hid).buffer, (h.parked id hid).last, (h.parked id hid).part,
      (h.parked id hid).offset⟩, h.fits⟩

theorem Ledger.finishRead (h : Ledger s) (result : Except StreamError Bytes) : Ledger (s.finishRead result) :=
  h.reading s.decoder s.readWire s.pendingPlain s.readBuffer none s.lowerRead s.writeWaitingResponse
  s.pendingControlResponses s.wire h.ended _
    s.reads

theorem Ledger.ensureControlRead (h : Ledger s) : Ledger s.ensureControlRead := by
  unfold RestlsStream.ensureControlRead
  split
  · exact h
  · exact h.reading s.decoder s.readWire s.pendingPlain s.readBuffer s.readHandler
      (some .control) s.writeWaitingResponse s.pendingControlResponses
      s.wire h.ended s.readResults s.reads

variable {encoder : RestlsApplicationCodec}

theorem Ledger.control (h : Ledger s) (hflight : s.inFlight = none) (drawn : Nat) (wire : Bytes)
    (hsuite : encoder.tls12Gcm = s.encoder.tls12Gcm) :
    Ledger { s with drawn, encoder, inFlight := some (.control wire) } := by
  refine ⟨{ h with flight := nofun }, h.size, h.offset, fun id hid => ?_,
    fun hsome hused => ?_⟩
  · obtain ⟨hbuffer, hlast, hpart, hoffset⟩ := h.parked id hid
    rw [flying_of_none hflight] at hpart hoffset
    exact ⟨hbuffer, hlast, hpart, hoffset⟩
  · rw [gcmLength_eq hsuite]
    exact h.fits hsome hused

theorem Ledger.data (h : Ledger s) (hflight : s.inFlight = none) {owner chunk : Nat}
    (howner : s.writeHandler = some owner)
    (hle : s.pendingWriteOffset + chunk ≤ s.pendingWrite.length) (drawn : Nat) (needsResponse : Bool)
    (wire : Bytes)
    (hsuite : encoder.tls12Gcm = s.encoder.tls12Gcm) : Ledger { s with
      drawn, encoder, inFlight := some (.data owner chunk needsResponse wire)
      sent := s.sent ++ [(owner, (s.pendingWrite.drop s.pendingWriteOffset).take chunk)] } := by
  obtain ⟨hbuffer, hlast, hpart, -⟩ := h.parked owner howner
  rw [flying_of_none hflight, Nat.add_zero] at hpart
  have hcaller : owner < s.writes.length := (List.getElem?_eq_some_iff.1 hbuffer).1
  have hgrown : Calls.part (s.sent ++ [(owner, (s.pendingWrite.drop s.pendingWriteOffset).take chunk)]) owner =
      s.pendingWrite.take (s.pendingWriteOffset + chunk) := by
    rw [Calls.part_concat, if_pos rfl, hpart, take_add]
  have hother {id : Nat} (hne : owner ≠ id) : Calls.part
    (s.sent ++ [(owner, (s.pendingWrite.drop s.pendingWriteOffset).take chunk)]) id =
      Calls.part s.sent id := by rw [Calls.part_concat, if_neg hne]
  have hwaits : ∀ n, (owner, .ok n) ∉ s.writeResults := fun n hmem => by
    have hcount := h.once owner
    have hpos : 0 < (s.writeResults.map Prod.fst).count owner :=
      count_pos_iff.2 (mem_map_of_mem (f := Prod.fst) hmem)
    rw [if_pos howner, if_pos hcaller] at hcount
    omega
  refine ⟨⟨h.plain, h.ended, h.overrun, h.once, h.faultless, fun entry hentry => ?_, ?_,
    fun id buffer hid => ?_, fun id n hmem => ?_, ?_⟩,
    h.size, h.offset, fun id hid => ?_, fun hsome hused => ?_⟩
  · rcases mem_append.1 hentry with hold | hnew
    · exact h.callers entry hold
    · rw [mem_singleton.1 hnew]
      exact hcaller
  · refine pairwise_append.2 ⟨h.order, pairwise_singleton _ _, fun entry hentry new hnew => ?_⟩
    rw [mem_singleton.1 hnew]
    exact hlast entry hentry
  · by_cases hid' : owner = id
    · subst hid'
      rw [hbuffer] at hid
      cases hid
      exact hgrown ▸ take_prefix _ _
    · exact (hother hid').symm ▸ h.parts id buffer hid
  · have hne : owner ≠ id := fun heq => hwaits n (heq ▸ hmem)
    rw [hother hne]
    exact h.whole id n hmem
  · intro owner' chunk' needsResponse' wire' heq
    cases heq
    exact hcaller
  · obtain rfl : owner = id := Option.some.inj (howner.symm.trans hid)
    have hflying : flying { s with
        drawn, encoder, inFlight := some (.data owner chunk needsResponse wire)
        sent := s.sent ++ [(owner, (s.pendingWrite.drop s.pendingWriteOffset).take chunk)] } owner =
          chunk := if_pos rfl
    refine ⟨hbuffer, fun entry hentry => ?_, ?_, ?_⟩
    · rcases mem_append.1 hentry with hold | hnew
      · exact hlast entry hold
      · obtain rfl := mem_singleton.1 hnew
        exact Nat.le_refl owner
    · rw [hflying]
      exact hgrown
    · rw [hflying]
      exact hle
  · rw [gcmLength_eq hsuite]
    exact h.fits hsome hused

theorem pumpWrite_ledger (h : Ledger s) :
    Ledger (s.pumpWrite env (finishWrite env)) ∧ Alive (s.pumpWrite env (finishWrite env)) := by
  have hpumped := pumpWrite_pumped env (finishWrite env) s
  generalize s.pumpWrite env (finishWrite env) = t at hpumped ⊢
  cases hpumped with
  | busy hbusy => exact ⟨h, fun _ => .inl hbusy⟩
  | control hflight _ hsuite => exact ⟨h.control hflight _ _ hsuite, fun _ => .inl rfl⟩
  | gated _ hwaiting =>
    refine ⟨h.ensureControlRead, fun _ => .inr ?_⟩
    unfold ensureControlRead
    split
    · exact ⟨hwaiting, ‹_›⟩
    · exact ⟨hwaiting, rfl⟩
  | idle _ hnone => exact ⟨h, alive_of_none hnone⟩
  | done hflight _ _ howner hdone =>
    obtain ⟨hbuffer, -, hpart, -⟩ := h.parked _ howner
    rw [flying_of_none hflight, Nat.add_zero, hdone, take_length] at hpart
    obtain ⟨hledger, hnone⟩ := finishWrite_ledger env h.toBook
      (.ok s.pendingWriteSize) nofun fun id n hid hn => by
      obtain rfl := Option.some.inj (howner.symm.trans hid)
      rw [hpart]
      exact ⟨hbuffer, (Except.ok.inj hn).symm.trans h.size⟩
    exact ⟨hledger, alive_of_none hnone⟩
  | overrun _ _ hover => exact absurd h.offset (Nat.not_le.2 hover)
  | large _ howner hused hlarge =>
    have hfits := h.fits (by rw [howner]; rfl) hused
    omega
  | data hflight _ howner _ hle hsuite => exact ⟨h.data hflight howner hle _ _ _ hsuite, fun _ => .inl rfl⟩

theorem pumpControlWrite_ledger (finish : RestlsStream → Except StreamError Nat → RestlsStream) (h : Ledger s) :
    Ledger (s.pumpControlWrite env finish) := by
  rcases pumpControlWrite_cases env finish s with ⟨-, heq⟩ | ⟨-, hflight, drawn, encoder, wire, heq, hsuite⟩
  · rw [heq]
    exact h
  · rw [heq]
    exact h.control hflight drawn wire hsuite

/-! ## The peer's records -/

theorem handleRecord_ledger (h : Ledger s) (decoded : RestlsDecodedRecord) :
    Ledger (s.handleRecord env decoded) ∧
      ((s.handleRecord env decoded).writeHandler.isSome = true →
        (s.handleRecord env decoded).inFlight.isSome = true) := by
  have hopen := (handleRecord_unread env s decoded).writeWaitingResponse
  have hledger : Ledger (s.handleRecord env decoded) ∧ Alive (s.handleRecord env decoded) := by
    have hread (pendingControlResponses : Nat) : Ledger { s with
        pendingPlain := s.pendingPlain ++ decoded.data, writeWaitingResponse := false,
          pendingControlResponses } :=
      h.reading s.decoder s.readWire _ s.readBuffer s.readHandler s.lowerRead false pendingControlResponses
      s.wire h.ended s.readResults s.reads
    unfold handleRecord
    split
    · exact pumpWrite_ledger env (pumpControlWrite_ledger env _ (hread _))
    · exact pumpWrite_ledger env (hread _)
  refine ⟨hledger.1, fun hsome => (hledger.2 hsome).resolve_right fun hwaits => ?_⟩
  rw [hopen] at hwaits
  exact Bool.false_ne_true hwaits.1

/-- **What `process_wire` leaves of the writes**: the parked one goes on, or nothing was decoded; the read
is called then for a record at fault in front alone. -/
structure Processed (env : Env) (s : RestlsStream) (p : Bool × RestlsStream) : Prop where
  ledger : Ledger p.2
  goes : (p.2.writeHandler.isSome = true → p.2.inFlight.isSome = true) ∨
    p.2.writeHandler = s.writeHandler ∧ p.2.inFlight = s.inFlight ∧
    p.2.writeWaitingResponse = s.writeWaitingResponse ∧
      (p.1 = true → ∃ record rest, nextRecord s.readWire = some (record, rest) ∧
      (s.decoder.decode env.hash record).1.isOk = false)

theorem processWire_processed (n : Nat) :
    ∀ {s : RestlsStream}, Ledger s → Processed env s (processWire env n s) := by
  induction n with
  | zero => exact fun h => ⟨h, .inr ⟨rfl, rfl, rfl, nofun⟩⟩
  | succ n ih =>
    intro s h
    unfold processWire
    split
    · exact ⟨h, .inr ⟨rfl, rfl, rfl, nofun⟩⟩
    · rename_i record readWire hrecord
      have hread (decoder : RestlsApplicationCodec) : Ledger { s with readWire, decoder } :=
        h.reading decoder readWire s.pendingPlain s.readBuffer s.readHandler s.lowerRead
        s.writeWaitingResponse s.pendingControlResponses s.wire
          h.ended s.readResults s.reads
      split
      · rename_i e decoder hdecode
        exact ⟨(hread decoder).finishRead _,
          .inr ⟨rfl, rfl, rfl, fun _ => ⟨record, readWire, hrecord, by rw [hdecode]; rfl⟩⟩⟩
      · rename_i decoded decoder hdecode
        obtain ⟨hledger, hgoes⟩ := handleRecord_ledger env (hread decoder) decoded
        dsimp only
        split
        · exact ⟨hledger.reading _ _ _ _ none _ _ _ _ hledger.ended _ _, .inl hgoes⟩
        · obtain ⟨hrest, hmore⟩ := ih hledger
          refine ⟨hrest, .inl ?_⟩
          rcases hmore with hgoes' | ⟨hhandler, hflight, -, -⟩
          · exact hgoes'
          · rw [hhandler, hflight]
            exact hgoes

/-! ## Runs -/

structure Inv (s : RestlsStream) : Prop extends Ledger s where
  alive : Alive s

theorem pumpRead_inv (h : Ledger s) (hstays : s.readHandler = none ∨ s.lowerRead.isSome = true → Alive s)
    (hgoes : s.lowerRead = none → s.writeHandler.isSome = true → s.inFlight = none →
      s.writeWaitingResponse = true ∧
      ∀ record rest, nextRecord s.readWire = some (record, rest) →
      (s.decoder.decode env.hash record).1.isOk = true) : Inv (s.pumpRead env) := by
  unfold pumpRead
  by_cases hstops : s.readHandler = none ∨ s.lowerRead.isSome = true
  · rw [if_pos hstops]
    exact ⟨h, hstays hstops⟩
  · rw [if_neg hstops]
    rw [not_or, Option.not_isSome_iff_eq_none] at hstops
    have hgoes := hgoes hstops.2
    obtain ⟨hledger, hmore⟩ := processWire_processed env s.readWire.length h
    generalize processWire env s.readWire.length s = processed at hledger hmore ⊢
    dsimp only
    cases hcalled : processed.1 with
    | true =>
      rw [if_pos rfl]
      refine ⟨hledger, fun hsome => ?_⟩
      rcases hmore with hflies | ⟨hhandler, hflight, -, hfault⟩
      · exact .inl (hflies hsome)
      · by_cases hnone : s.inFlight = none
        · obtain ⟨record, rest, hrecord, hbad⟩ := hfault hcalled
          have hgood := (hgoes (hhandler ▸ hsome) hnone).2 record rest hrecord
          rw [hgood] at hbad
          cases hbad
        · rw [hflight]
          exact .inl (Option.isSome_iff_ne_none.2 hnone)
    | false =>
      refine ⟨hledger.reading _ _ _ _ _ (some .pump) _ _ _ hledger.ended _ _, fun hsome => ?_⟩
      rcases hmore with hflies | ⟨hhandler, hflight, hwaiting, -⟩
      · exact .inl (hflies hsome)
      · by_cases hnone : s.inFlight = none
        · exact .inr ⟨hwaiting.trans (hgoes (hhandler ▸ hsome) hnone).1, rfl⟩
        · refine .inl ?_
          rw [hflight]
          exact Option.isSome_iff_ne_none.2 hnone

theorem readImpl_inv (h : Inv s) (size : Nat) : Inv (s.readImpl env size) := by
  have hread (readHandler : Option Nat) (readBuffer : Nat) (pendingPlain : Bytes)
    (readResults : List (Nat × Except StreamError Bytes))
    (reads : Nat) :
      Ledger { s with readHandler, readBuffer, pendingPlain, readResults, reads } :=
    h.reading s.decoder s.readWire pendingPlain readBuffer readHandler s.lowerRead s.writeWaitingResponse
    s.pendingControlResponses s.wire h.ended
      readResults reads
  unfold readImpl
  split
  · exact ⟨hread s.readHandler s.readBuffer s.pendingPlain _ _, h.alive⟩
  · split
    · exact ⟨hread s.readHandler s.readBuffer s.pendingPlain _ _, h.alive⟩
    · dsimp only
      split
      · exact ⟨hread none size _ _ _, h.alive⟩
      · refine pumpRead_inv env (hread _ _ _ _ _) (fun _ => h.alive) fun hlower hsome hnone => ?_
        -- a write that waits has a read of the lower stream
        rcases h.alive hsome with hflies | ⟨-, hreads⟩
        · rw [show s.inFlight = none from hnone] at hflies
          cases hflies
        · rw [show s.lowerRead = none from hlower] at hreads
          cases hreads

theorem lowerReadDone_inv (h : Inv s) {n : Nat} (hgoes : s.lowerRead = some .pump →
    s.writeHandler.isSome = true → s.inFlight = none →
    s.readHandler.isSome = true ∧ s.brings n ≠ [] ∧ ∀ record rest, nextRecord (s.readWire ++ s.brings n) =
    some (record, rest) →
      (s.decoder.decode env.hash record).1.isOk = true) : Inv (s.lowerReadDone env n) := by
  have hread (lowerRead : Option LowerRead) (readWire wire : Bytes) (ended : Option StreamError)
    (hended : ended ≠ some .fault) :
      Ledger { s with lowerRead, readWire, wire, ended } :=
    h.reading s.decoder readWire s.pendingPlain s.readBuffer s.readHandler lowerRead s.writeWaitingResponse
    s.pendingControlResponses wire hended
      s.readResults s.reads
  have hend : s.lowerEnd ≠ .fault := by
    unfold lowerEnd
    cases hended : s.ended with
    | none => exact nofun
    | some e => exact fun heq => h.ended (hended.trans (congrArg some heq))
  unfold lowerReadDone
  cases hlower : s.lowerRead with
  | none => exact h
  | some reader =>
    dsimp only
    by_cases hbrings : s.brings n = []
    · rw [if_pos hbrings]
      have hended := hread none s.readWire s.wire (some s.lowerEnd) fun heq => hend (Option.some.inj heq)
      cases reader with
      | pump =>
        refine ⟨hended.finishRead _, fun hsome => .inl ?_⟩
        by_contra hnot
        exact (hgoes hlower hsome (Option.not_isSome_iff_eq_none.1 hnot)).2.1 hbrings
      | control =>
        obtain ⟨hledger, hnone⟩ := finishWrite_ledger env hended.toBook
          (.error s.lowerEnd) (fun heq => hend (Except.error.inj heq)) nofun
        exact ⟨hledger.finishRead _, alive_of_none hnone⟩
    · rw [if_neg hbrings]
      have hbrought := hread none (s.readWire ++ s.brings n) (s.wire.drop (s.brings n).length) s.ended h.ended
      cases reader with
      | pump =>
        refine pumpRead_inv env hbrought (fun hstays hsome => ?_) fun _ hsome hnone => ?_
        · refine .inl ?_
          by_contra hnot
          have hparked := (hgoes hlower hsome (Option.not_isSome_iff_eq_none.1 hnot)).1
          rcases hstays with hidle | hreads
          · rw [show s.readHandler = none from hidle] at hparked
            cases hparked
          · cases hreads
        · rcases h.alive hsome with hflies | ⟨hwaiting, -⟩
          · rw [show s.inFlight = none from hnone] at hflies
            cases hflies
          · exact ⟨hwaiting, (hgoes hlower hsome hnone).2.2⟩
      | control =>
        obtain ⟨hledger, hmore⟩ := processWire_processed env (s.readWire ++ s.brings n).length hbrought
        dsimp only
        by_cases hwaiting : (processWire env (s.readWire ++ s.brings n).length
            { s with lowerRead := none, readWire := s.readWire ++
              s.brings n, wire := s.wire.drop (s.brings n).length }).2.writeWaitingResponse = true
        · rw [if_pos hwaiting]
          refine ⟨hledger.ensureControlRead, fun _ => .inr ?_⟩
          unfold ensureControlRead
          split
          · exact ⟨hwaiting, ‹_›⟩
          · exact ⟨hwaiting, rfl⟩
        · rw [if_neg hwaiting]
          refine ⟨hledger, fun hsome => .inl ?_⟩
          rcases hmore with hflies | ⟨hhandler, hflight, hsame, -⟩
          · exact hflies hsome
          · rw [hflight]
            refine (h.alive (hhandler ▸ hsome)).resolve_right fun hwaits => hwaiting (hsame.trans hwaits.1)

theorem Book.landed (h : Book s) (pendingWriteOffset scriptIndex pendingControlResponses : Nat)
    (writeWaitingResponse : Bool) : Book { s with
    inFlight := none, pendingWriteOffset, scriptIndex, pendingControlResponses, writeWaitingResponse } :=
  { h with flight := nofun }

theorem lowerWritten_inv (h : Inv s) {fails : Bool} (hfits : fails = false → match s.inFlight with
      | some (.data owner chunk _ _) => s.writeHandler = some owner ∧
          s.Fits (s.scriptIndex + 1) (s.pendingWrite.length - (s.pendingWriteOffset + chunk))
      | some (.control _) => s.writeHandler.isSome = true →
          s.Fits (s.scriptIndex + 1) (s.pendingWrite.length - s.pendingWriteOffset)
      | none => True) : Inv (s.lowerWritten env fails) := by
  have hlanded : Book { s with inFlight := none } :=
    h.landed s.pendingWriteOffset s.scriptIndex s.pendingControlResponses s.writeWaitingResponse
  unfold lowerWritten
  cases hflight : s.inFlight with
  | none => exact h
  | some lower =>
    cases lower with
    | data owner chunk needsResponse wire =>
      cases fails with
      | true =>
        obtain ⟨hledger, hnone⟩ := finishWrite_ledger env hlanded (.error .transport) nofun nofun
        exact ⟨hledger, alive_of_none hnone⟩
      | false =>
        have hown := hfits rfl
        rw [hflight] at hown
        obtain ⟨howner, hleft⟩ := hown
        obtain ⟨hbuffer, hlast, hpart, hoffset⟩ := h.parked owner howner
        have hflying : s.flying owner = chunk := by
          unfold flying
          rw [hflight]
          exact if_pos rfl
        rw [hflying] at hpart hoffset
        have hledger : Ledger { s with
            inFlight := none, pendingWriteOffset := s.pendingWriteOffset + chunk,
              scriptIndex := s.scriptIndex + 1
            writeWaitingResponse := s.writeWaitingResponse || needsResponse && s.pendingWriteOffset +
              chunk < s.pendingWrite.length } := by
          refine ⟨h.landed _ _ _ _, h.size, hoffset, fun id hid => ?_, fun _ => hleft⟩
          obtain rfl : owner = id := Option.some.inj (howner.symm.trans hid)
          exact ⟨hbuffer, hlast, hpart, hoffset⟩
        obtain ⟨hpumped, halive⟩ := pumpWrite_ledger env hledger
        exact ⟨hpumped, halive⟩
    | control wire =>
      cases fails with
      | true =>
        have hread : Book (({ s with inFlight := none } : RestlsStream).finishRead (.error .transport)) :=
          { hlanded with }
        obtain ⟨hledger, hnone⟩ := finishWrite_ledger env hread (.error .transport) nofun nofun
        exact ⟨hledger, alive_of_none hnone⟩
      | false =>
        have hleft := hfits rfl
        rw [hflight] at hleft
        have hledger : Ledger { s with
            inFlight := none, pendingControlResponses := s.pendingControlResponses - 1,
              scriptIndex := s.scriptIndex + 1 } := by
          refine ⟨h.landed _ _ _ _, h.size, h.offset, fun id hid => ?_, hleft⟩
          obtain ⟨hbuffer, hlast, hpart, hoffset⟩ := h.parked id hid
          have hflying : s.flying id = 0 := by
            unfold flying
            rw [hflight]
          rw [hflying] at hpart hoffset
          exact ⟨hbuffer, hlast, hpart, hoffset⟩
        obtain ⟨hpumped, halive⟩ := pumpWrite_ledger env (pumpControlWrite_ledger env (finishWrite env) hledger)
        exact ⟨hpumped, halive⟩

theorem writeImpl_inv (h : Inv s) (hfits : s.writeHandler = none → s.Fits s.scriptIndex buffer.length) :
    Inv (s.writeImpl env (finishWrite env) buffer) := by
  unfold writeImpl
  cases hhandler : s.writeHandler with
  | some id => exact ⟨h.post buffer (.error .alreadyStarted) nofun nofun, h.alive⟩
  | none =>
    by_cases hbuffer : buffer = []
    · rw [if_pos hbuffer]
      have hposted := h.post buffer (.ok 0) nofun fun n hn => ⟨(Except.ok.inj hn).symm, hbuffer⟩
      exact ⟨hposted, alive_of_none hhandler⟩
    · rw [if_neg hbuffer]
      obtain ⟨hledger, halive⟩ := pumpWrite_ledger env (h.toBook.park hhandler (hfits hhandler))
      exact ⟨hledger, halive⟩

theorem cancelWrite_inv (h : Inv s) : Inv s.cancelWrite := by
  unfold cancelWrite
  split
  · exact h
  · rename_i id hid
    have hcalled := (h.toBook.call (.error .operationAborted) nofun nofun).cleared rfl
    unfold callWriter at hcalled
    rw [hid] at hcalled
    exact ⟨hcalled.reading s.decoder s.readWire s.pendingPlain s.readBuffer s.readHandler s.lowerRead false
      s.pendingControlResponses s.wire h.ended
      s.readResults s.reads, alive_of_none rfl⟩

theorem fail_inv (h : Inv s) : Inv s.fail := by
  have hended : s.fail.ended ≠ some .fault := by
    unfold fail
    cases hs : s.ended with
    | none => exact nofun
    | some e => exact fun heq => h.ended (hs.trans heq)
  exact ⟨h.reading s.decoder s.readWire s.pendingPlain s.readBuffer s.readHandler s.lowerRead
    s.writeWaitingResponse s.pendingControlResponses s.wire
    hended s.readResults s.reads, h.alive⟩

theorem step_inv (s : RestlsStream) (event : Event) (h : Inv s) (horderly : Orderly env.hash s event) : Inv
    (step env s event) := by
  obtain ⟨act, replies⟩ := event
  obtain ⟨hplain, hact⟩ := horderly
  have hs : Inv { s with replies } :=
    ⟨⟨h.toBook.replies hplain, h.size, h.offset,
      fun id hid => ⟨(h.parked id hid).buffer, (h.parked id hid).last, (h.parked id hid).part,
      (h.parked id hid).offset⟩, h.fits⟩, h.alive⟩
  cases act with
  | read size => exact readImpl_inv env hs size
  | cancelRead =>
    change Inv (cancelRead { s with replies })
    unfold cancelRead
    split
    · exact hs
    · exact ⟨hs.reading s.decoder s.readWire s.pendingPlain 0 none s.lowerRead s.writeWaitingResponse
        s.pendingControlResponses s.wire h.ended _
        s.reads, h.alive⟩
  | write buffer => exact writeImpl_inv env hs hact
  | cancelWrite => exact cancelWrite_inv hs
  | lowerRead n => exact lowerReadDone_inv env hs hact
  | lowerWritten fails =>
    cases fails with
    | true => exact lowerWritten_inv env hs nofun
    | false => exact lowerWritten_inv env hs fun _ => hact
  | fail => exact fail_inv hs
  | close =>
    obtain ⟨hledger, hnone⟩ := finishWrite_ledger env
      ((fail_inv hs).toLedger.finishRead (.error .operationAborted)).toBook (.error .operationAborted)
      nofun nofun
    exact ⟨hledger, alive_of_none hnone⟩

theorem opened_inv (secret serverRandom : Bytes) (tls12Gcm : Bool) (initialAuthExtra : Bytes)
    (script : List RestlsScriptLine)
    (initialWire wire : Bytes) : Inv (opened secret serverRandom tls12Gcm initialAuthExtra script
      initialWire wire) :=
  ⟨⟨⟨fun _ hmem => absurd hmem not_mem_nil, nofun, rfl, fun _ => rfl, fun _ hmem => absurd hmem not_mem_nil,
    fun _ hmem => absurd hmem not_mem_nil, List.Pairwise.nil, nofun, fun _ _ hmem =>
    absurd hmem not_mem_nil, nofun⟩, rfl,
    Nat.le_refl 0, nofun, nofun⟩, alive_of_none rfl⟩

/-- **What is written is sent**, in every state of a run that meets the condition, whatever the script,
the generator and the peer. -/
theorem writes_sound (secret serverRandom : Bytes) (tls12Gcm : Bool) (initialAuthExtra : Bytes)
    (script : List RestlsScriptLine)
    (initialWire wire : Bytes) (events : List Event)
    (horderly : Runs.Along (step env) (Orderly env.hash)
      (opened secret serverRandom tls12Gcm initialAuthExtra script initialWire wire) events) :
    (Runs.run (step env) (opened secret serverRandom tls12Gcm initialAuthExtra script initialWire wire)
      events).Sound := by
  have hrun := Runs.along_induction (step_inv env) events _
    (opened_inv secret serverRandom tls12Gcm initialAuthExtra script initialWire wire)
    horderly
  exact hrun.toLedger.sound hrun.alive

/-- A write in two records, of which the second waits for the peer, and one that is cancelled before it
goes on. -/
theorem writes_sound_waiting :
    let env : Env := ⟨exampleHash, fun _ => 0⟩
    let server : RestlsApplicationCodec :=
      { secret := [9], serverRandom := [5], toClient := true, tls12Gcm := false }
    let padding := match (server.encode env.hash [] 0 4 {}).1 with
      | .ok record => record
      | .error _ => []
    (Runs.run (step env) (opened [9] [5] false [] [{ targetLength := 1, command := ⟨.response, 1⟩ }] [] padding)
      [⟨.write [5, 6, 7], []⟩, ⟨.lowerWritten false, []⟩, ⟨.lowerRead 100, [none]⟩,
        ⟨.lowerWritten false, []⟩, ⟨.write [8], []⟩,
        ⟨.cancelWrite, []⟩]).Sound :=
  writes_sound _ _ _ _ _ _ _ _ _ (by decide +kernel)

/-- A write behind a cancelled one whose record is on its way loses its first bytes, or reads behind its
end; and one from inside of the handler of another is forgotten. -/
theorem late_records_shift_writes :
    let env : Env := ⟨exampleHash, fun _ => 0⟩
    let s := opened [9] [5] false [] [{ targetLength := 2 }, { targetLength := 2 }] [] []
    let behind := Runs.run (step env) s [⟨.write [1, 2, 3], []⟩, ⟨.cancelWrite, []⟩, ⟨.write [5, 6, 7], []⟩,
      ⟨.lowerWritten false, []⟩]
    let short := Runs.run (step env) s [⟨.write [1, 2, 3], []⟩, ⟨.cancelWrite, []⟩, ⟨.write [5], []⟩,
      ⟨.lowerWritten false, []⟩]
    let inside := Runs.run (step env) s [⟨.write [1], []⟩, ⟨.lowerWritten false, [some [5, 6, 7]]⟩,
      ⟨.lowerWritten false, []⟩]
    behind.sent = [(0, [1, 2]), (1, [7])] ∧
    (short.pendingWriteOffset = 2 ∧ short.pendingWrite = [5] ∧ short.overrun = true) ∧
      inside.sent = [(0, [1]), (1, [5, 6])] ∧ inside.pendingWrite = [] ∧ inside.pendingWriteOffset = 2 ∧
      inside.overrun = true := by
  decide +kernel

end ClashNative.Restls.RestlsStream
