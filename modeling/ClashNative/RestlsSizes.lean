import ClashNative.RestlsPump
/-!
# RestlsSizes — how large the records of a ResTLS stream are

A write against a lower stream that takes every record and a peer that may send any: each record is padded
up to what the script tells for it, but the reader of such a stream takes 16384 bytes at most, what is
around the data among them.
-/
namespace ClashNative.Restls

open List

open Wire (putU16 getU16)

theorem encode_size {hash : KeyedHash} {c c' : RestlsApplicationCodec} {data record : Bytes}
    {dataLength paddingLength : Nat}
    {command : RestlsCommand} (h : c.encode hash data dataLength paddingLength command = (.ok record, c')) :
    getU16 (record.drop 3) = c.gcmLength + kRestlsAuthHeaderLength + dataLength + paddingLength ∧
      record.length = kTlsRecordHeaderLength + getU16 (record.drop 3) ∧ c'.tls12Gcm = c.tls12Gcm := by
  unfold RestlsApplicationCodec.encode at h
  split at h
  · cases h
  rename_i hlengths
  split at h
  · cases h
  rename_i hsize
  cases h
  obtain ⟨hdata, -⟩ := not_or.1 hlengths
  have htake (extra : Bytes) : ((c.authHash hash extra).take kRestlsApplicationMacLength).length =
    kRestlsApplicationMacLength :=
    length_take_authHash hash c (by decide) extra
  have hmasked (body : Bytes) : (c.masked hash body (putU16 dataLength ++ command.wire)).length = 4 := by
    refine length_masked body ?_
    rw [length_append, length_wire]
    rfl
  have hfield (n : Nat) (hn : n < 65536) (rest : Bytes) : getU16 ((c.header n ++ rest).drop 3) = n := by
    simp only [RestlsApplicationCodec.header, cons_append, nil_append, append_assoc, drop_succ_cons, drop_zero]
    exact Wire.getU16_putU16_append hn _
  refine ⟨hfield _ (by omega) _, ?_, rfl⟩
  rw [hfield _ (by omega)]
  simp only [length_append, length_header, htake, hmasked, length_take, length_replicate]
  rw [RestlsApplicationCodec.payloadOffset, kRestlsAuthHeaderLength, kRestlsMaskLength]
  omega

namespace RestlsStream

variable (env : Env) (s : RestlsStream)

/-! ### What is written next -/

/-- What is around the data and the padding of a record. -/
def overhead : Nat := s.encoder.gcmLength + kRestlsAuthHeaderLength

/-- What the script tells for its line `scriptIndex`, and `otherwise` where it is used up. -/
def targetAt (script : List RestlsScriptLine) (scriptIndex drawn otherwise : Nat) : Nat :=
  match script[scriptIndex]? with
  | none => otherwise
  | some line => line.targetLength + if line.randomRange = 0 then 0 else
      (List.range 4).foldl (fun value i => value * 256 + (env.rng (drawn + i)).toNat) 0 % line.randomRange

def dataTarget : Nat :=
  let remaining := s.pendingWrite.length - s.pendingWriteOffset
  let target := targetAt env s.script s.scriptIndex s.drawn remaining
  min (if target = 0 then min 16384 remaining else target) 65535

def controlTarget : Nat := min (targetAt env s.script s.scriptIndex s.drawn 32) 65535

/-- The target of the record that the pumps write next, where they write one. -/
def due : Option Nat :=
  if s.inFlight.isSome then none
  else if s.pendingControlResponses ≠ 0 then some (s.controlTarget env)
  else if s.writeWaitingResponse = true ∨ s.writeHandler = none ∨
    s.pendingWriteOffset = s.pendingWrite.length then none
  else some (s.dataTarget env)

/-- **The condition**, for the record that is written next. -/
def Room : Prop := ∀ target ∈ s.due env, s.overhead + target ≤ kMaxTlsRecordPayload

instance : Decidable (s.Room env) := inferInstanceAs (Decidable (∀ target ∈ s.due env, _))

/-! ### Moves -/

/-- A caller writes, the lower stream has taken the record that is on its way, or a record of the peer is
decoded. -/
inductive Move
  | write (buffer : Bytes)
  | written
  | record (decoded : RestlsDecodedRecord)
  deriving DecidableEq

def move (s : RestlsStream) : Move → RestlsStream
  | .write buffer => if s.writeHandler.isSome then s else s.writeImpl env (finishWrite env) buffer
  | .written => s.lowerWritten env false
  | .record decoded => s.handleRecord env decoded

/-- The state that the pumps find, where a move comes to them. -/
def landed (s : RestlsStream) : Move → Option RestlsStream
  | .write buffer =>
    if s.writeHandler.isSome ∨ buffer = [] then none
    else some { s with
      pendingWrite := buffer, pendingWriteOffset := 0, pendingWriteSize := buffer.length, writeHandler :=
      some s.writes.length
      writes := s.writes ++ [buffer] }
  | .written => match s.inFlight with
    | none => none
    | some (.data _ chunk needsResponse _) => some { s with
        inFlight := none, pendingWriteOffset := s.pendingWriteOffset + chunk, scriptIndex := s.scriptIndex + 1
        writeWaitingResponse := s.writeWaitingResponse || needsResponse && s.pendingWriteOffset + chunk <
          s.pendingWrite.length }
    | some (.control _) => some { s with
        inFlight := none, pendingControlResponses := s.pendingControlResponses - 1,
          scriptIndex := s.scriptIndex + 1 }
  | .record decoded => some { s with
      pendingPlain := s.pendingPlain ++ decoded.data, writeWaitingResponse := false
      pendingControlResponses := s.pendingControlResponses + if decoded.command.kind = .response then
        decoded.command.response.toNat else 0 }

def Sized (s : RestlsStream) (m : Move) : Prop := ∀ t ∈ s.landed m, t.Room env

instance (m : Move) : Decidable (s.Sized env m) :=
  match h : s.landed m with
  | none => isTrue (by rw [Sized, h]; exact fun _ ht => nomatch ht)
  | some t => decidable_of_iff (t.Room env) (by simp [Sized, h])

/-! ### The property -/

/-- **A record as it should be**: its target is what the script tells, or what is left where it tells
nothing, and it is as large as that with what is around it; a record of data brings the write on. -/
def Complete (s : RestlsStream) (lower : LowerWrite) : Prop :=
  ∃ drawn ≤ s.drawn, match lower with
    | .data _ chunk _ wire =>
      chunk = min (s.pendingWrite.length - s.pendingWriteOffset) ({ s with drawn }.dataTarget env) ∧ 0 < chunk ∧
        wire.length = kTlsRecordHeaderLength + getU16 (wire.drop 3) ∧
        getU16 (wire.drop 3) ≤ kMaxTlsRecordPayload ∧
        getU16 (wire.drop 3) = s.overhead + (chunk + ({ s with drawn }.dataTarget env - chunk))
    | .control wire =>
      wire.length = kTlsRecordHeaderLength + getU16 (wire.drop 3) ∧ getU16 (wire.drop 3) ≤ kMaxTlsRecordPayload ∧
        getU16 (wire.drop 3) = s.overhead + { s with drawn }.controlTarget env

/-- **What the claim of a record's size amounts to** in a state: the record on its way is complete; the
writes that were answered have succeeded, one after the other, and one that is not waits for a record of
its own to be written or for the peer. -/
structure Succeeding (s : RestlsStream) : Prop where
  flight : ∀ lower ∈ s.inFlight, s.Complete env lower
  answered : ∀ entry ∈ s.writeResults, ∃ buffer, s.writes[entry.1]? = some buffer ∧ entry.2 = .ok buffer.length
  once : s.writeResults.map Prod.fst ++ s.writeHandler.toList = List.range s.writes.length
  alive : s.writeHandler.isSome = true → s.inFlight.isSome = true ∨ s.writeWaitingResponse = true

/-! ### What the pumps do -/

variable (env : Env) {s t : RestlsStream}

theorem nextLine_eq (s : RestlsStream) (otherwise : Nat) : ∃ command drawn, s.drawn ≤ drawn ∧
    s.nextLine env otherwise = (targetAt env s.script s.scriptIndex s.drawn otherwise, command,
      { s with drawn }) := by
  unfold nextLine targetAt
  cases s.script[s.scriptIndex]? with
  | none => exact ⟨{}, s.drawn, Nat.le_refl _, rfl⟩
  | some line =>
    dsimp only
    unfold scriptTarget
    split
    · exact ⟨line.command, s.drawn, Nat.le_refl _, rfl⟩
    · exact ⟨line.command, s.drawn + 4, Nat.le_add_right _ _, rfl⟩

theorem controlTarget_le (s : RestlsStream) : s.controlTarget env ≤ 32768 := by
  unfold controlTarget targetAt
  split
  · decide
  · rename_i line _
    have hfits := line.fits
    split
    · omega
    · rename_i hrange
      have hmod := Nat.mod_lt ((List.range 4).foldl
        (fun value i => value * 256 + (env.rng (s.drawn + i)).toNat) 0) (Nat.pos_of_ne_zero hrange)
      omega

theorem dataTarget_le (s : RestlsStream) : s.dataTarget env ≤ 65535 := Nat.min_le_right _ _

theorem dataTarget_pos (hlt : s.pendingWriteOffset < s.pendingWrite.length) : 0 < s.dataTarget env := by
  unfold dataTarget
  dsimp only
  split <;> omega

theorem pumpWrite_control (hflight : t.inFlight = none) (hcontrol : t.pendingControlResponses ≠ 0) :
    ∃ drawn encoder wire, t.drawn ≤ drawn ∧
    t.pumpWrite env (finishWrite env) = { t with drawn, encoder, inFlight := some (.control wire) } ∧
    encoder.tls12Gcm = t.encoder.tls12Gcm ∧
    wire.length = kTlsRecordHeaderLength + getU16 (wire.drop 3) ∧
    getU16 (wire.drop 3) = t.overhead + t.controlTarget env := by
  have hgcm := gcmLength_le t.encoder
  have hauth : kRestlsAuthHeaderLength = 12 := rfl
  have htarget := controlTarget_le env t
  obtain ⟨command, drawn, hdrawn, hline⟩ := nextLine_eq env t 32
  unfold pumpWrite
  rw [if_neg (by rw [hflight]; decide), if_pos hcontrol, pumpControlWrite,
    if_neg (not_or.2 ⟨hcontrol, by rw [hflight]; decide⟩), hline]
  dsimp only
  rw [← controlTarget]
  obtain ⟨wire, encoder, hencode, -⟩ := encode_fits env.hash t.encoder [] 0 (t.controlTarget env) command
    (Nat.le_refl 0) (by omega)
  obtain ⟨hfield, hlength, hsuite⟩ := encode_size hencode
  rw [hencode]
  exact ⟨drawn, encoder, wire, hdrawn, rfl, hsuite, hlength, hfield⟩

variable {owner : Nat}

theorem pumpWrite_open {drawn : Nat} {command : RestlsCommand} (hflight : t.inFlight = none)
    (hcontrol : t.pendingControlResponses = 0)
    (hwaiting : t.writeWaitingResponse = false) (howner : t.writeHandler = some owner)
    (hlt : t.pendingWriteOffset < t.pendingWrite.length)
    (hline : t.nextLine env (t.pendingWrite.length - t.pendingWriteOffset) =
      (targetAt env t.script t.scriptIndex t.drawn (t.pendingWrite.length - t.pendingWriteOffset), command,
        { t with drawn })) :
    t.pumpWrite env (finishWrite env) =
      let chunk := min (t.pendingWrite.length - t.pendingWriteOffset) (t.dataTarget env)
      let data := t.pendingWrite.drop t.pendingWriteOffset
      match t.encoder.encode env.hash data chunk (t.dataTarget env - chunk) command with
      | (.error _, encoder) => finishWrite env { t with drawn, encoder } (.error .fault)
      | (.ok wire, encoder) => { t with
          drawn, encoder, inFlight := some (.data owner chunk command.needsPeerResponse wire),
          sent := t.sent ++ [(owner, data.take chunk)] } := by
  rw [pumpWrite, if_neg (by rw [hflight]; decide), if_neg (not_not.2 hcontrol),
    if_neg (by rw [hwaiting]; decide)]
  split
  · rename_i hnone
    rw [howner] at hnone
    cases hnone
  · rename_i id hid
    obtain rfl := Option.some.inj (hid.symm.trans howner)
    rw [if_neg (Nat.ne_of_lt hlt), if_neg (Nat.not_lt.2 (Nat.le_of_lt hlt))]
    dsimp only
    rw [hline]
    rfl

theorem pumpWrite_data (hflight : t.inFlight = none) (hcontrol : t.pendingControlResponses = 0)
    (hwaiting : t.writeWaitingResponse = false) (howner : t.writeHandler = some owner)
    (hlt : t.pendingWriteOffset < t.pendingWrite.length) :
    ∃ drawn encoder, t.drawn ≤ drawn ∧
      (65535 < t.overhead + t.dataTarget env ∧
        t.pumpWrite env (finishWrite env) = finishWrite env { t with drawn, encoder } (.error .fault) ∨
        ∃ needsResponse wire sent, t.pumpWrite env (finishWrite env) = { t with
          drawn, encoder, sent
          inFlight := some (.data owner (min (t.pendingWrite.length - t.pendingWriteOffset)
            (t.dataTarget env)) needsResponse wire) } ∧
        encoder.tls12Gcm = t.encoder.tls12Gcm ∧ wire.length = kTlsRecordHeaderLength + getU16 (wire.drop 3) ∧
        getU16 (wire.drop 3) = t.overhead + t.dataTarget env ∧ t.overhead + t.dataTarget env ≤ 65535) := by
  have htarget := dataTarget_le env t
  have hover : t.overhead = t.encoder.gcmLength + kRestlsAuthHeaderLength := rfl
  obtain ⟨command, drawn, hdrawn, hline⟩ := nextLine_eq env t (t.pendingWrite.length - t.pendingWriteOffset)
  rw [pumpWrite_open env hflight hcontrol hwaiting howner hlt hline]
  dsimp only
  generalize hchunk : min (t.pendingWrite.length - t.pendingWriteOffset) (t.dataTarget env) = chunk
  have hdata : chunk ≤ (t.pendingWrite.drop t.pendingWriteOffset).length := by
    rw [length_drop]
    omega
  by_cases hlarge : 65535 < t.overhead + t.dataTarget env
  · refine ⟨drawn, t.encoder, hdrawn, .inl ⟨hlarge, ?_⟩⟩
    unfold RestlsApplicationCodec.encode
    rw [if_neg (by omega), if_pos (by omega)]
  · obtain ⟨wire, encoder, hencode, -⟩ :=
      encode_fits env.hash t.encoder (t.pendingWrite.drop t.pendingWriteOffset) chunk (t.dataTarget env - chunk)
      command hdata (by omega)
    obtain ⟨hfield, hlength, hsuite⟩ := encode_size hencode
    rw [hencode]
    exact ⟨drawn, encoder, hdrawn, .inr ⟨_, wire, _, rfl, hsuite, hlength, by omega, by omega⟩⟩

/-! ### What a run keeps -/

variable {env}

structure Accounts (env : Env) (s : RestlsStream) : Prop where
  replies : s.replies = []
  size : s.pendingWriteSize = s.pendingWrite.length
  offset : s.pendingWriteOffset ≤ s.pendingWrite.length
  parked : ∀ id, s.writeHandler = some id → s.writes[id]? = some s.pendingWrite
  owned : ∀ owner chunk needsResponse wire, s.inFlight = some (.data owner chunk needsResponse wire) →
    s.writeHandler.isSome = true
  flight : ∀ lower ∈ s.inFlight, s.Complete env lower
  answered : ∀ entry ∈ s.writeResults, ∃ buffer, s.writes[entry.1]? = some buffer ∧ entry.2 = .ok buffer.length
  once : s.writeResults.map Prod.fst ++ s.writeHandler.toList = List.range s.writes.length

def Moving (s : RestlsStream) : Prop := s.writeHandler.isSome = true → s.inFlight.isSome = true ∨
    s.writeWaitingResponse = true

theorem overhead_eq {encoder : RestlsApplicationCodec} (h : encoder.tls12Gcm = s.encoder.tls12Gcm) :
    encoder.gcmLength + kRestlsAuthHeaderLength = s.overhead :=
    congrArg (· + kRestlsAuthHeaderLength) (gcmLength_eq h)

theorem finishWrite_plain (env : Env) (h : s.replies = []) (result : Except StreamError Nat) :
    s.finishWrite env result = (s.callWriter result).clearWrite := by
  unfold finishWrite
  rw [h]
  rfl

theorem answeredWrite (howner : t.writeHandler = some owner) (result : Except StreamError Nat) :
    (t.callWriter result).clearWrite.writeResults = t.writeResults ++ [(owner, result)] := by
  unfold clearWrite callWriter
  rw [howner]

theorem Accounts.finish (h : Accounts env t) (howner : t.writeHandler = some owner)
    (hflight : t.inFlight = none) :
    Accounts env (t.callWriter (.ok t.pendingWriteSize)).clearWrite where
  replies := h.replies
  size := rfl
  offset := Nat.le_refl 0
  parked _ hid := nomatch hid
  owned _ _ _ _ hdata := nomatch hflight.symm.trans hdata
  flight lower hlower := nomatch hflight.symm.trans hlower
  answered entry hentry := by
    rw [answeredWrite howner] at hentry
    rcases mem_append.1 hentry with hold | hnew
    · exact h.answered entry hold
    · obtain rfl := mem_singleton.1 hnew
      exact ⟨t.pendingWrite, h.parked owner howner, by rw [h.size]⟩
  once := by
    have honce := h.once
    rw [howner] at honce
    rw [answeredWrite howner, map_append]
    exact (append_nil _).trans honce

theorem pumpWrite_accounts (h : Accounts env t) (hroom : t.Room env) :
    Accounts env (t.pumpWrite env (finishWrite env)) ∧ Moving (t.pumpWrite env (finishWrite env)) := by
  unfold Room due at hroom
  cases hflight : t.inFlight with
  | some lower =>
    have hsome : t.inFlight.isSome = true := by
      rw [hflight]
      rfl
    have hbusy : t.pumpWrite env (finishWrite env) = t := by
      rw [pumpWrite, if_pos hsome]
    rw [hbusy]
    exact ⟨h, fun _ => .inl hsome⟩
  | none =>
    rw [if_neg (by rw [hflight]; decide)] at hroom
    by_cases hcontrol : t.pendingControlResponses = 0
    · rw [if_neg (not_not.2 hcontrol)] at hroom
      cases hwaiting : t.writeWaitingResponse with
      | true =>
        have hgated : t.pumpWrite env (finishWrite env) = t.ensureControlRead := by
          rw [pumpWrite, if_neg (by rw [hflight]; decide), if_neg (not_not.2 hcontrol), if_pos hwaiting]
        rw [hgated, ensureControlRead]
        split
        · exact ⟨h, fun _ => .inr hwaiting⟩
        · exact ⟨{ h with }, fun _ => .inr hwaiting⟩
      | false =>
        cases howner : t.writeHandler with
        | none =>
          have hidle : t.pumpWrite env (finishWrite env) = t := by
            rw [pumpWrite, if_neg (by rw [hflight]; decide), if_neg (not_not.2 hcontrol),
              if_neg (by rw [hwaiting]; decide), howner]
          rw [hidle]
          refine ⟨h, fun hsome => ?_⟩
          rw [howner] at hsome
          cases hsome
        | some owner =>
          rcases Nat.eq_or_lt_of_le h.offset with hdone | hlt
          · have hfinish : t.pumpWrite env (finishWrite env) =
              (t.callWriter (.ok t.pendingWriteSize)).clearWrite := by
              rw [pumpWrite, if_neg (by rw [hflight]; decide), if_neg (not_not.2 hcontrol),
                if_neg (by rw [hwaiting]; decide), howner]
              dsimp only
              rw [if_pos hdone, finishWrite_plain env h.replies]
            rw [hfinish]
            exact ⟨h.finish howner hflight, nofun⟩
          · rw [if_neg (not_or.2 ⟨by rw [hwaiting]; decide,
              not_or.2 ⟨by rw [howner]; exact nofun, Nat.ne_of_lt hlt⟩⟩)] at hroom
            have hfits := hroom _ rfl
            obtain ⟨drawn, encoder, hdrawn,
              ⟨hlarge, -⟩ | ⟨needsResponse, wire, sent, heq, hsuite, hlength, hfield, -⟩⟩ :=
              pumpWrite_data env hflight hcontrol hwaiting howner hlt
            · exact absurd hfits (by rw [kMaxTlsRecordPayload]; omega)
            · rw [heq]
              have hpositive := dataTarget_pos env hlt
              refine ⟨⟨h.replies, h.size, h.offset, h.parked, (fun _ _ _ _ _ => by rw [howner]; rfl),
                fun lower hlower => ?_, h.answered, h.once⟩,
                fun _ => .inl rfl⟩
              obtain rfl := Option.some.inj hlower
              refine ⟨t.drawn, hdrawn, rfl, by omega, hlength, by omega, ?_⟩
              change getU16 _ = encoder.gcmLength + kRestlsAuthHeaderLength +
                (min (t.pendingWrite.length - t.pendingWriteOffset)
                (t.dataTarget env) + (t.dataTarget env - min (t.pendingWrite.length - t.pendingWriteOffset)
                  (t.dataTarget env)))
              rw [overhead_eq hsuite, hfield]
              omega
    · rw [if_pos hcontrol] at hroom
      have hfits := hroom _ rfl
      obtain ⟨drawn, encoder, wire, hdrawn, heq, hsuite, hlength, hfield⟩ :=
        pumpWrite_control env hflight hcontrol
      rw [heq]
      refine ⟨{ h with owned := (nofun), flight := fun lower hlower => ?_ },
        fun _ => .inl rfl⟩
      obtain rfl := Option.some.inj hlower
      exact ⟨t.drawn, hdrawn, hlength, by omega,
        by rw [hfield]; exact congrArg (· + _) (overhead_eq hsuite).symm⟩

theorem pumpWrite_roomless (h : Accounts env t) (hroom : ¬ t.Room env) :
    ¬ Succeeding env (t.pumpWrite env (finishWrite env)) := by
  intro hsucceeding
  unfold Room due at hroom
  split at hroom
  · exact hroom nofun
  rename_i hflight
  rw [Option.not_isSome_iff_eq_none] at hflight
  split at hroom
  · rename_i hcontrol
    obtain ⟨drawn, encoder, wire, -, heq, -, -, hfield⟩ := pumpWrite_control env hflight hcontrol
    obtain ⟨-, -, -, hlimit, -⟩ := hsucceeding.flight (.control wire) (by rw [heq]; rfl)
    rw [hfield] at hlimit
    exact hroom fun target htarget => Option.some.inj htarget ▸ hlimit
  · rename_i hcontrol
    split at hroom
    · exact hroom nofun
    · rename_i hopen
      obtain ⟨hwaiting, hopen⟩ := not_or.1 hopen
      obtain ⟨hnone, hdone⟩ := not_or.1 hopen
      obtain ⟨owner, howner⟩ := Option.ne_none_iff_exists'.1 hnone
      obtain ⟨drawn, encoder, -, ⟨-, heq⟩ | ⟨needsResponse, wire, sent, heq, -, -, hfield, -⟩⟩ :=
        pumpWrite_data env hflight (not_not.1 hcontrol) ((Bool.not_eq_true _).mp hwaiting) howner
        (Nat.lt_of_le_of_ne h.offset hdone)
      · have hplain := finishWrite_plain (s := { t with drawn, encoder }) env h.replies (.error .fault)
        have hfault : (owner, Except.error StreamError.fault) ∈
          (t.pumpWrite env (finishWrite env)).writeResults := by
          rw [heq, hplain, answeredWrite (t := { t with drawn, encoder }) howner]
          exact mem_append_right _ mem_cons_self
        obtain ⟨buffer, -, hok⟩ := hsucceeding.answered _ hfault
        cases hok
      · obtain ⟨-, -, -, -, -, hlimit, -⟩ :=
          hsucceeding.flight (.data owner _ needsResponse wire) (by rw [heq]; rfl)
        rw [hfield] at hlimit
        exact hroom fun target htarget => Option.some.inj htarget ▸ hlimit

/-! ### The moves -/

theorem pumpControlWrite_pumpWrite (t : RestlsStream) :
    (t.pumpControlWrite env (finishWrite env)).pumpWrite env (finishWrite env) =
    t.pumpWrite env (finishWrite env) := by
  rcases pumpControlWrite_cases env (finishWrite env) t with
    ⟨-, heq⟩ | ⟨hcontrol, hflight, drawn, encoder, wire, heq, -⟩
  · rw [heq]
  · have hpump : t.pumpWrite env (finishWrite env) = t.pumpControlWrite env (finishWrite env) := by
      rw [pumpWrite, if_neg (by rw [hflight]; decide), if_pos hcontrol]
    rw [hpump, heq]
    exact if_pos rfl

variable {m : Move}

theorem move_landed (ht : s.landed m = some t) : s.move env m = t.pumpWrite env (finishWrite env) := by
  cases m with
  | write buffer =>
    rw [landed] at ht
    split at ht
    · cases ht
    · rename_i hfree
      obtain ⟨hparked, hbuffer⟩ := not_or.1 hfree
      cases ht
      rw [move, if_neg hparked, writeImpl, if_neg hparked, if_neg hbuffer]
  | written =>
    rw [landed] at ht
    rw [move, lowerWritten]
    split at ht
    · cases ht
    · rename_i hflight
      cases ht
      rw [hflight]
      rfl
    · rename_i hflight
      cases ht
      rw [hflight]
      exact pumpControlWrite_pumpWrite _
  | record decoded =>
    cases ht
    rw [move, handleRecord]
    split
    · exact pumpControlWrite_pumpWrite _
    · rfl

theorem landed_accounts (h : Accounts env s) (ht : s.landed m = some t) : Accounts env t := by
  cases m with
  | write buffer =>
    rw [landed] at ht
    split at ht
    · cases ht
    · rename_i hfree
      obtain ⟨hparked, hbuffer⟩ := not_or.1 hfree
      rw [Option.not_isSome_iff_eq_none] at hparked
      have hcontrol {lower : LowerWrite} (hlower : s.inFlight = some lower) : ∃ wire, lower = .control wire := by
        cases lower with
        | control wire => exact ⟨wire, rfl⟩
        | data owner chunk needsResponse wire =>
          have howned := h.owned owner chunk needsResponse wire hlower
          rw [hparked] at howned
          cases howned
      cases ht
      refine ⟨h.replies, rfl, Nat.zero_le _, fun id hid => ?_, fun _ _ _ _ _ => rfl, fun lower hlower => ?_,
        fun entry hentry => ?_, ?_⟩
      · cases hid
        exact getElem?_concat_length
      · obtain ⟨wire, rfl⟩ := hcontrol hlower
        exact h.flight (.control wire) hlower
      · obtain ⟨buffer', hbuffer', hok⟩ := h.answered entry hentry
        exact ⟨buffer', (getElem?_append_left (List.getElem?_eq_some_iff.1 hbuffer').1).trans hbuffer', hok⟩
      · have honce := h.once
        rw [hparked, Option.toList_none, append_nil] at honce
        rw [honce, length_append]
        exact range_succ.symm
  | written =>
    rw [landed] at ht
    split at ht
    · cases ht
    · rename_i owner chunk needsResponse wire hflight
      obtain ⟨drawn, -, hchunk, -⟩ := h.flight _ hflight
      have hoffset := h.offset
      cases ht
      exact { h with offset := by dsimp only; omega, owned := (nofun), flight := (nofun) }
    · cases ht
      exact { h with owned := (nofun), flight := (nofun) }
  | record decoded =>
    cases ht
    exact { h with }

theorem move_idle (h : Accounts env s) (hmoving : Moving s) (hnone : s.landed m = none) :
    Accounts env (s.move env m) ∧ Moving (s.move env m) := by
  cases m with
  | write buffer =>
    rw [landed] at hnone
    rw [move]
    split
    · exact ⟨h, hmoving⟩
    · rename_i hfree
      split at hnone
      · rename_i hempty
        have hbuffer := hempty.resolve_left hfree
        rw [writeImpl, if_neg hfree, if_pos hbuffer]
        rw [Option.not_isSome_iff_eq_none] at hfree
        have honce := h.once
        rw [hfree, Option.toList_none, append_nil] at honce
        refine ⟨{ h with parked := fun id hid => ?_, answered := fun entry hentry => ?_, once := ?_ }, hmoving⟩
        · exact nomatch hfree.symm.trans hid
        · rcases mem_append.1 hentry with hold | hnew
          · obtain ⟨buffer', hbuffer', hok⟩ := h.answered entry hold
            exact ⟨buffer', (getElem?_append_left (List.getElem?_eq_some_iff.1 hbuffer').1).trans hbuffer', hok⟩
          · obtain rfl := mem_singleton.1 hnew
            exact ⟨buffer, getElem?_concat_length, by rw [hbuffer]; rfl⟩
        · change (s.writeResults ++ [(s.writes.length, _)]).map Prod.fst ++ s.writeHandler.toList =
            List.range (s.writes ++ [buffer]).length
          rw [hfree, map_append, honce, length_append]
          exact (append_nil _).trans range_succ.symm
      · cases hnone
  | written =>
    rw [landed] at hnone
    rw [move, lowerWritten]
    split at hnone
    · rename_i hflight
      rw [hflight]
      exact ⟨h, hmoving⟩
    · cases hnone
    · cases hnone
  | record decoded => cases hnone

theorem move_accounts (m : Move) (h : Accounts env s ∧ Moving s) (hsized : s.Sized env m) :
    Accounts env (s.move env m) ∧ Moving (s.move env m) := by
  cases ht : s.landed m with
  | none => exact move_idle h.1 h.2 ht
  | some t =>
    rw [move_landed ht]
    exact pumpWrite_accounts (landed_accounts h.1 ht) (hsized t ht)

theorem move_fails (m : Move) (h : Accounts env s ∧ Moving s) (hsized : ¬ s.Sized env m) : ¬ Succeeding env
    (s.move env m) := by
  cases ht : s.landed m with
  | none => exact absurd (fun t hsome => nomatch ht.symm.trans hsome) hsized
  | some t =>
    rw [move_landed ht]
    refine pumpWrite_roomless (landed_accounts h.1 ht) fun hroom => hsized fun t' hsome => ?_
    obtain rfl := Option.some.inj (ht.symm.trans hsome)
    exact hroom

theorem opened_accounts (secret serverRandom : Bytes) (tls12Gcm : Bool) (initialAuthExtra : Bytes)
    (script : List RestlsScriptLine)
    (initialWire wire : Bytes) : Accounts env
    (opened secret serverRandom tls12Gcm initialAuthExtra script initialWire wire) :=
  ⟨rfl, rfl, Nat.le_refl 0, (nofun), (nofun), (nofun),
    (fun _ hentry => absurd hentry not_mem_nil), rfl⟩

/-- **Writes succeed in records that the reader takes**, in every state of a run, exactly where the target
of every record leaves room for what is around it. -/
theorem writes_succeed_iff (env : Env) (secret serverRandom : Bytes) (tls12Gcm : Bool)
    (initialAuthExtra : Bytes) (script : List RestlsScriptLine)
    (initialWire wire : Bytes) (moves : List Move) :
    let s := opened secret serverRandom tls12Gcm initialAuthExtra script initialWire wire
    (∀ pre, pre <+: moves → Succeeding env (Runs.run (move env) s pre)) ↔
    Runs.Along (move env) (Sized env) s moves :=
  Runs.forall_prefix_iff_along (P := fun s => Accounts env s ∧ Moving s)
    (fun _ h => ⟨h.1.flight, h.1.answered, h.1.once, h.2⟩)
    (fun _ m h => move_accounts m h) (fun _ m h => move_fails m h)
    ⟨opened_accounts secret serverRandom tls12Gcm initialAuthExtra script initialWire wire, (nofun)⟩ moves

section Behind

/-- The script is used up, and nothing is on its way. -/
structure Behind (s : RestlsStream) : Prop where
  script : s.script[s.scriptIndex]? = none
  flight : s.inFlight = none
  control : s.pendingControlResponses = 0
  waiting : s.writeWaitingResponse = false
  free : s.writeHandler = none
  replies : s.replies = []

variable {s : RestlsStream} {buffer : Bytes}

theorem Behind.target (h : Behind s) (env : Env) (hbuffer : buffer ≠ []) :
    ∃ t, s.landed (.write buffer) = some t ∧ t.inFlight = none ∧ t.pendingControlResponses = 0 ∧
    t.writeWaitingResponse = false ∧
      t.writeHandler = some s.writes.length ∧ t.pendingWriteOffset < t.pendingWrite.length ∧ 12 ≤ t.overhead ∧
      t.dataTarget env = min buffer.length 65535 ∧ t.writeResults = s.writeResults ∧ t.replies = [] := by
  have hpositive := length_pos_of_ne_nil hbuffer
  refine ⟨_, if_neg (not_or.2 ⟨by rw [h.free]; decide, hbuffer⟩), h.flight, h.control, h.waiting, rfl,
    hpositive, Nat.le_add_left _ _, ?_,
    rfl, h.replies⟩
  unfold dataTarget targetAt
  dsimp only
  rw [h.script]
  exact congrArg (min · 65535) (if_neg (Nat.pos_iff_ne_zero.1 hpositive))

theorem Behind.large (h : Behind s) (haccounts : Accounts env s ∧ Moving s) (hbuffer : 16372 < buffer.length) :
    ¬ Succeeding env (s.move env (.write buffer)) := by
  obtain ⟨t, hlanded, hflight, hcontrol, hwaiting, howner, hlt, hover, htarget, -⟩ :=
    h.target env (ne_nil_of_length_pos (by omega : 0 < buffer.length))
  have hdue : t.due env = some (min buffer.length 65535) := by
    rw [due, if_neg (by rw [hflight]; decide), if_neg (not_not.2 hcontrol),
      if_neg (by rw [hwaiting, howner]; simp; omega), htarget]
  have hmax : kMaxTlsRecordPayload = 16384 := rfl
  refine move_fails _ haccounts fun hsized => ?_
  have hroom := hsized t hlanded _ hdue
  omega

theorem Behind.faults (h : Behind s) (hbuffer : 65535 ≤ buffer.length) :
    (s.move env (.write buffer)).writeResults = s.writeResults ++ [(s.writes.length, .error .fault)] := by
  obtain ⟨t, hlanded, hflight, hcontrol, hwaiting, howner, hlt, hover, htarget, hresults, hreplies⟩ :=
    h.target env (ne_nil_of_length_pos (by omega : 0 < buffer.length))
  obtain ⟨drawn, encoder, -, ⟨-, heq⟩ | ⟨-, -, -, -, -, -, -, hsmall⟩⟩ :=
    pumpWrite_data env hflight hcontrol hwaiting howner hlt
  · rw [move_landed hlanded, heq, finishWrite_plain (s := { t with drawn, encoder }) env hreplies,
      answeredWrite (t := { t with drawn, encoder }) howner]
    exact congrArg (· ++ _) hresults
  · omega

end Behind

/-- A byte in a line of 16384 bytes is sent in a record that the reader does not take, and so are 16384
bytes behind a script of one line; of 65535 bytes there nothing is sent. -/
theorem full_targets_too_large :
    let env : Env := ⟨exampleHash, fun _ => 0⟩
    let scripted := opened [9] [5] false [] [{ targetLength := 16384 }] [] []
    let behind := Runs.run (move env) (opened [9] [5] false [] [{ targetLength := 1 }] [] [])
      [.write [1], .written]
    ¬ Succeeding env (scripted.move env (.write [1])) ∧
    ¬ Succeeding env (behind.move env (.write (List.replicate 16384 0))) ∧
      (behind.move env (.write (List.replicate 65535 0))).writeResults =
      behind.writeResults ++ [(1, .error .fault)] := by
  intro env scripted behind
  have hbehind : Behind behind :=
    ⟨by decide +kernel, by decide +kernel, by decide +kernel, by decide +kernel, by decide +kernel,
      by decide +kernel⟩
  have hopened : Accounts env (opened [9] [5] false [] [{ targetLength := 1 }] [] []) :=
    opened_accounts _ _ _ _ _ _ _
  refine ⟨move_fails _ ⟨opened_accounts [9] [5] false [] [{ targetLength := 16384 }] [] [], nofun⟩
    (by decide), hbehind.large ?_ ?_,
    hbehind.faults (Nat.le_of_eq length_replicate.symm)⟩
  · exact move_accounts .written (move_accounts (.write [1]) ⟨hopened, nofun⟩ (by decide +kernel))
      (by decide +kernel)
  · rw [length_replicate]
    decide

end RestlsStream
end ClashNative.Restls
