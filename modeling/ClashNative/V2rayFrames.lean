import ClashNative.V2rayMux
/-!
# V2rayFrames — the server's frames and what the carrier parser makes of them

A server frame has a status and two option bits, and carries a payload exactly when its Data bit is set.
`Served` is what the parser owes a sequence of frames: every parse erases one whole frame, gives its
payload to the stream it names and puts no stream into the error state without the Error bit, whatever the
cut of the bytes.
-/
namespace ClashNative.V2rayMux

open Wire List

/-! ### Frames -/

inductive Status
  | new
  | keep
  | end_
  | keepAlive
  deriving DecidableEq, Repr

def Status.byte : Status → UInt8
  | .new => kV2rayNew
  | .keep => kV2rayKeep
  | .end_ => kV2rayEnd
  | .keepAlive => kV2rayKeepAlive

/-- **A well-formed server frame**, both sizes of which are written in two bytes.  `extra` is the metadata
behind the option byte; the payload is there exactly when the Data bit is. -/
structure Frame where
  id : UInt16
  status : Status
  errorBit : Bool
  extra : List UInt8
  payload : Option (List UInt8)
  extra_lt : 4 + extra.length < 65536
  payload_lt : ∀ p ∈ payload, p.length < 65536

namespace Frame

def dataBit (f : Frame) : Bool := f.payload.isSome

def optionByte (f : Frame) : UInt8 :=
  (if f.dataBit then kV2rayData else kV2rayNone) ||| (if f.errorBit then kV2rayError else kV2rayNone)

def putBe16 (n : Nat) : List UInt8 := [UInt8.ofNat (n / 256), UInt8.ofNat n]

def head (f : Frame) : List UInt8 :=
  putBe16 (4 + f.extra.length) ++ putBe16 f.id.toNat ++ [f.status.byte, f.optionByte] ++ f.extra

def body (f : Frame) : List UInt8 :=
  match f.payload with
  | none => []
  | some p => putBe16 p.length ++ p

def encode (f : Frame) : List UInt8 := f.head ++ f.body

/-- The frames that the parser reads a payload from: `Keep` with the Data bit and no other. -/
def plainData (f : Frame) : Bool := f.status == .keep && f.dataBit && !f.errorBit

/-- The frames that the parser takes for errors: `Keep`, whose status is the number of the Error bit, with
any other option. -/
def takenForError (f : Frame) : Bool := f.status == .keep && (!f.dataBit || f.errorBit)

/-- The session takes the frame: its metadata is below the maximum and its payload within the `limit` of a
frame. -/
def Sized (limit : Nat) (f : Frame) : Prop :=
  4 + f.extra.length ≤ kV2rayMaximumMetadataSize ∧ (f.payload.getD []).length ≤ limit

instance (limit : Nat) (f : Frame) : Decidable (f.Sized limit) :=
  inferInstanceAs (Decidable (4 + f.extra.length ≤ kV2rayMaximumMetadataSize ∧
    (f.payload.getD []).length ≤ limit))

end Frame

def encodeAll (fs : List Frame) : List UInt8 := fs.flatMap Frame.encode

/-! ### What is owed -/

/-- **One parse does what its frame says**: it erases the frame's bytes, the payload reaches the stream
that the frame names (while that takes data), and a stream is in the error state after it only if it was
before, or the frame names it and has the Error bit. -/
def Obeys (f : Frame) (p : Parse) : Prop :=
  p.bytes = f.encode ∧
  ∀ id, match p.before id, p.after id with
    | none, none => True
    | some st, some st' =>
      st'.received = st.received ++ (if id = f.id.toNat ∧ st.accepts then f.payload.getD [] else []) ∧
      (st'.closed → st.closed ∨ id = f.id.toNat ∧ f.errorBit)
    | _, _ => False

/-- The parses follow one another, from the streams `a` to the streams `b`. -/
def Linked : Streams → List Parse → Streams → Prop
  | a, [], b => a = b
  | a, p :: ps, b => p.before = a ∧ Linked p.after ps b

def Session.outcome (s : Session) : List Parse × Streams × Streams × Bool × Option MuxError :=
  (s.trace, s.streams, s.orphans, s.closed, s.failure)

/-- **What the parser owes the frames `fs`** that arrive over `carrier` at a session with the streams
`streams`. -/
structure Served (size : Nat) (streams : Streams) (fs : List Frame) (carrier : Segments UInt8) :
    Prop where
  obeys : List.Forall₂ Obeys fs ((Session.start size streams).readAll carrier).trace
  linked : Linked streams ((Session.start size streams).readAll carrier).trace
    ((Session.start size streams).readAll carrier).streams
  consumed : ((Session.start size streams).readAll carrier).input = []
  stays_open : ((Session.start size streams).readAll carrier).closed = false
  any_cut : ∀ carrier' : Segments UInt8, carrier'.bytes = carrier.bytes →
    ((Session.start size streams).readAll carrier').outcome =
    ((Session.start size streams).readAll carrier).outcome

/-- **The frames that the parser reads right**, `live` telling which ids name an open stream: each is
`Sized`, a Data bit comes with `Keep` and without the Error bit, and `Keep` without either bit names no
open stream. -/
def Fits (limit : Nat) : (Nat → Bool) → List Frame → Prop
  | _, [] => True
  | live, f :: fs =>
    f.Sized limit ∧ (f.dataBit → f.plainData) ∧
    (f.takenForError → f.errorBit = false → live f.id.toNat = false) ∧
      Fits limit (fun id => live id && !(f.takenForError && id == f.id.toNat)) fs

instance Fits.decidable (limit : Nat) : ∀ (live : Nat → Bool) (fs : List Frame), Decidable (Fits limit live fs)
  | _, [] => inferInstanceAs (Decidable True)
  | live, f :: fs =>
    @instDecidableAnd _ _ _ (@instDecidableAnd _ _ _ (@instDecidableAnd _ _ _
      (Fits.decidable limit (fun id => live id && !(f.takenForError && id == f.id.toNat)) fs)))

def liveIds (streams : Streams) (id : Nat) : Bool := (streams id).any (fun st => !st.closed)

/-! ## The parse as a verdict on the buffer -/

namespace Session

inductive Verdict
  | more
  | bad (e : MuxError)
  | frame (wireId : Nat) (status option : UInt8) (start payloadSize : Nat)

def verdict (limit : Nat) (input : List UInt8) : Verdict :=
  if input.length < 2 then .more
  else
    let metadataSize := getBe16 input 0
    if metadataSize < 4 ∨ kV2rayMaximumMetadataSize < metadataSize then .bad .protocolError
    else if input.length < 2 + metadataSize then .more
    else
      let total := 2 + metadataSize
      if input.getD 4 0 = kV2rayKeep ∧ input.getD 5 0 = kV2rayData then
        if input.length < total + 2 then .more
        else
          let payloadSize := getBe16 input total
          if limit < payloadSize then .bad .messageSize
          else if input.length < total + 2 + payloadSize then .more
          else .frame (getBe16 input 2) (input.getD 4 0) (input.getD 5 0) (total + 2) payloadSize
      else .frame (getBe16 input 2) (input.getD 4 0) (input.getD 5 0) total 0

/-- What a verdict makes of the session: `none` when more is needed. -/
def obey (s : Session) : Verdict → Option Session
  | .more => none
  | .bad e => some (s.fail e)
  | .frame wireId status option start payloadSize => some (s.takeFrame wireId status option start payloadSize)

variable {i : Nat}

theorem getD_append (input c : List UInt8) (h : i < input.length) :
    (input ++ c).getD i 0 = input.getD i 0 := by
  rw [getD_eq_getElem?_getD, getD_eq_getElem?_getD, getElem?_append_left h]

theorem getBe16_append (input c : List UInt8) (h : i + 1 < input.length) :
    getBe16 (input ++ c) i = getBe16 input i := by
  rw [getBe16, getBe16, getD_append input c (by omega), getD_append input c h]

theorem verdict_append (limit : Nat) (input c : List UInt8) :
    verdict limit input = .more ∨ verdict limit (input ++ c) = verdict limit input := by
  have hlen : ∀ n, ¬ input.length < n → ¬ (input ++ c).length < n := by
    intro n hn
    rw [length_append]
    omega
  unfold verdict
  dsimp only
  split
  · exact .inl rfl
  · rename_i h2
    rw [if_neg (hlen _ h2), getBe16_append input c (i := 0) (by omega)]
    split
    · exact .inr rfl
    · split
      · exact .inl rfl
      · rename_i hsize hmeta
        rw [if_neg (hlen _ hmeta), getD_append input c (i := 4) (by omega),
          getD_append input c (i := 5) (by omega),
          getBe16_append input c (i := 2) (by omega)]
        split
        · split
          · exact .inl rfl
          · rename_i hpay
            rw [if_neg (hlen _ hpay), getBe16_append input c (by omega)]
            split
            · exact .inr rfl
            · split
              · exact .inl rfl
              · rename_i hall
                rw [if_neg (hlen _ hall)]
                exact .inr rfl
        · exact .inr rfl

theorem verdict_frame {limit : Nat} {input : List UInt8} {wireId start payloadSize : Nat} {status option : UInt8}
    (h : verdict limit input = .frame wireId status option start payloadSize) :
    0 < start ∧ start + payloadSize ≤ input.length := by
  unfold verdict at h
  dsimp only at h
  repeat' split at h
  all_goals cases h
  all_goals omega

theorem parseV2rayFrame_eq (s : Session) :
    parseV2rayFrame s = ((s.obey (verdict s.frameSize s.input)).getD s,
      match verdict s.frameSize s.input with
      | .frame .. => true
      | _ => false) := by
  unfold parseV2rayFrame verdict
  dsimp only
  repeat' split
  all_goals first
    | rfl
    | simp_all

/-! ## The session as a feed -/

def append (s : Session) (c : List UInt8) : Session := { s with input := s.input ++ c }

/-- One round of `parse_frames`, when it does something. -/
def parseStep (s : Session) : Option Session :=
  if s.closed then none else s.obey (verdict s.frameSize s.input)

theorem fail_append (s : Session) (e : MuxError) (c : List UInt8) :
    (s.append c).fail e = (s.fail e).append c := by
  unfold fail append
  split <;> rfl

theorem takeFrame_append (s : Session) (c : List UInt8) (wireId : Nat) (status option : UInt8) {start size : Nat}
    (h : start + size ≤ s.input.length) :
    (s.append c).takeFrame wireId status option start size =
    (s.takeFrame wireId status option start size).append c := by
  unfold takeFrame append
  dsimp only
  rw [drop_append_of_le_length h, take_append_of_le_length h,
    drop_append_of_le_length (by omega : start ≤ s.input.length),
    take_append_of_le_length (by rw [length_drop]; omega)]

theorem closed_fail (s : Session) (e : MuxError) : (s.fail e).closed = true := by
  unfold fail
  split
  · assumption
  · rfl

def parser : Feed UInt8 Session where
  step := parseStep
  append := append
  size s := if s.closed then 0 else s.input.length + 1
  size_step {s s'} h := by
    unfold parseStep at h
    split at h
    · cases h
    · rename_i hclosed
      rw [if_neg hclosed]
      cases hv : verdict s.frameSize s.input with
      | more => rw [hv] at h; cases h
      | bad e =>
        rw [hv] at h
        cases h
        rw [if_pos (closed_fail s e)]
        omega
      | frame wireId status option start size =>
        rw [hv] at h
        cases h
        have hf := verdict_frame hv
        simp only [takeFrame, List.length_drop]
        split <;> omega
  step_append {s s'} c h := by
    unfold parseStep at h ⊢
    split at h
    · cases h
    · rename_i hclosed
      rw [if_neg (show ¬ (s.append c).closed from hclosed)]
      have hv : verdict (s.append c).frameSize (s.append c).input = verdict s.frameSize s.input := by
        rcases verdict_append s.frameSize s.input c with hmore | hv
        · rw [hmore] at h
          cases h
        · exact hv
      rw [hv]
      cases hv' : verdict s.frameSize s.input with
      | more => rw [hv'] at h; cases h
      | bad e =>
        rw [hv'] at h
        cases h
        exact congrArg some (fail_append s e c)
      | frame wireId status option start size =>
        rw [hv'] at h
        cases h
        exact congrArg some (takeFrame_append s c wireId status option (verdict_frame hv').2)
  append_nil s := by rw [append, List.append_nil]
  append_append s c d := by rw [append, append, append, List.append_assoc]

theorem parseFrames_eq : ∀ (n : Nat) (s : Session), parseFrames n s = parser.drainN n s
  | 0, _ => rfl
  | n + 1, s => by
    rw [parseFrames, Feed.drainN, show parser.step s = parseStep s from rfl]
    unfold parseStep
    split
    · rfl
    · rw [parseV2rayFrame_eq]
      cases verdict s.frameSize s.input with
      | more => rfl
      | bad e =>
        -- a failed session is closed, so no round of the feed follows
        have hstuck : parser.step (s.fail e) = none := if_pos (closed_fail s e)
        exact (Feed.drainN_stuck hstuck n).symm
      | frame wireId status option start size => exact parseFrames_eq n _

theorem readDone_eq (s : Session) {c : List UInt8} (hc : c ≠ []) (h : s.closed = false) :
    s.readDone none c = parser.drain (s.append c) := by
  rw [readDone, if_neg (by rw [h]; decide)]
  rw [if_neg hc, parseFrames_eq]
  exact Feed.drainN_of_le _ _ (by simp only [parser]; split <;> omega)

theorem parser_stuck_of_closed {s : Session} (h : s.closed = true) : parser.step s = none := if_pos h

theorem outcome_feed_closed : ∀ (l : List (List UInt8)) (s : Session), s.closed = true →
    (parser.feed s l).outcome = s.outcome
  | [], _, _ => rfl
  | c :: l, s, h => by
    change (parser.feed (parser.drain (s.append c)) l).outcome = s.outcome
    rw [Feed.drain_stuck (parser_stuck_of_closed (s := s.append c) h)]
    exact outcome_feed_closed l (s.append c) h

/-- **The carrier's reads are the feed**: to the byte while the session is open, and in all that can be
seen of it after that. -/
theorem readDone_feed : ∀ (l : List (List UInt8)) (s : Session), (∀ c ∈ l, c ≠ []) →
    (Runs.run (fun s c => s.readDone none c) s l).outcome = (parser.feed s l).outcome ∧
      ((parser.feed s l).closed = false → Runs.run (fun s c => s.readDone none c) s l = parser.feed s l)
  | [], s, _ => ⟨rfl, fun _ => rfl⟩
  | c :: l, s, hl => by
    have hc := hl c mem_cons_self
    have ih := fun s' => readDone_feed l s' (fun p hp => hl p (mem_cons_of_mem c hp))
    change (Runs.run _ (s.readDone none c) l).outcome = (parser.feed (parser.drain (s.append c)) l).outcome ∧
      ((parser.feed (parser.drain (s.append c)) l).closed = false →
        Runs.run _ (s.readDone none c) l = parser.feed (parser.drain (s.append c)) l)
    cases hclosed : s.closed with
    | false =>
      rw [readDone_eq s hc hclosed]
      exact ih _
    | true =>
      have hfeed : (parser.feed (parser.drain (s.append c)) l).outcome = s.outcome := by
        rw [Feed.drain_stuck (parser_stuck_of_closed (s := s.append c) hclosed)]
        exact outcome_feed_closed l (s.append c) hclosed
      have hstay : s.readDone none c = s := if_pos hclosed
      rw [hstay, (ih s).1, hfeed, outcome_feed_closed l s hclosed]
      refine ⟨rfl, fun hopen => ?_⟩
      have : (parser.feed (parser.drain (s.append c)) l).closed = s.closed := congrArg (·.2.2.2.1) hfeed
      rw [hopen, hclosed] at this
      cases this

theorem readAll_eq (size : Nat) (streams : Streams) (carrier : Segments UInt8) :
    ((start size streams).readAll carrier).outcome =
        (parser.drain ((start size streams).append carrier.bytes)).outcome ∧
      ((parser.drain ((start size streams).append carrier.bytes)).closed = false →
        (start size streams).readAll carrier = parser.drain ((start size streams).append carrier.bytes)) := by
  have hstart : parser.drain (start size streams) = start size streams := Feed.drain_stuck rfl
  have hfeed := Feed.feed_eq (F := parser) carrier.pieces (start size streams)
  rw [hstart] at hfeed
  have h := readDone_feed carrier.pieces (start size streams) carrier.nonempty
  rw [hfeed] at h
  exact h

end Session

/-! ## A frame at the front of the buffer -/

namespace Frame

theorem putBe16_get {n : Nat} (hn : n < 65536) :
    (UInt8.ofNat (n / 256)).toNat * 256 + (UInt8.ofNat n).toNat = n := by
  simp only [UInt8.toNat_ofNat']
  omega

theorem length_head (f : Frame) : f.head.length = 6 + f.extra.length := by
  simp [head, putBe16]
  omega

theorem optionByte_eq_data (f : Frame) : f.optionByte = kV2rayData ↔ f.dataBit = true ∧ f.errorBit = false := by
  unfold optionByte
  cases f.dataBit <;> cases f.errorBit <;> decide

theorem plainData_iff (f : Frame) :
    f.plainData = true ↔ f.status.byte = kV2rayKeep ∧ f.optionByte = kV2rayData := by
  rw [optionByte_eq_data, plainData]
  cases f.status <;> cases f.dataBit <;> cases f.errorBit <;> decide

variable {f : Frame}

theorem body_of_plainData (h : f.plainData = true) :
    ∃ p, f.payload = some p ∧ f.body = putBe16 p.length ++ p := by
  unfold body
  cases hp : f.payload with
  | none => simp [plainData, dataBit, hp] at h
  | some p => exact ⟨p, rfl, rfl⟩

theorem verdict_encode (limit : Nat) (f : Frame) (rest : List UInt8) :
    Session.verdict limit (f.encode ++ rest) =
      if kV2rayMaximumMetadataSize < 4 + f.extra.length then .bad .protocolError
      else if f.plainData ∧ limit < (f.payload.getD []).length then .bad .messageSize
      else .frame f.id.toNat f.status.byte f.optionByte
        (if f.plainData then f.head.length + 2 else f.head.length)
        (if f.plainData then (f.payload.getD []).length else 0) := by
  have hextra := f.extra_lt
  have hid := f.id.toNat_lt
  have hhead : ∃ tail, f.encode ++ rest = UInt8.ofNat ((4 + f.extra.length) / 256) :: UInt8.ofNat
    (4 + f.extra.length) ::
      UInt8.ofNat (f.id.toNat / 256) :: UInt8.ofNat f.id.toNat :: f.status.byte :: f.optionByte :: tail :=
    ⟨f.extra ++ f.body ++ rest, by simp [encode, head, putBe16]⟩
  obtain ⟨tail, htail⟩ := hhead
  have hmeta : Session.getBe16 (f.encode ++ rest) 0 = 4 + f.extra.length := putBe16_get hextra
  have hwire : Session.getBe16 (f.encode ++ rest) 2 = f.id.toNat := putBe16_get hid
  have hstatus : (f.encode ++ rest).getD 4 0 = f.status.byte := by rw [htail]; rfl
  have hoption : (f.encode ++ rest).getD 5 0 = f.optionByte := by rw [htail]; rfl
  have hlen : (f.encode ++ rest).length = 6 + f.extra.length + f.body.length + rest.length := by
    rw [length_append, encode, length_append, length_head]
  unfold Session.verdict
  rw [hmeta, hwire, hstatus, hoption, hlen, if_neg (by omega)]
  by_cases hbig : kV2rayMaximumMetadataSize < 4 + f.extra.length
  · rw [if_pos (.inr hbig), if_pos hbig]
  rw [if_neg (by omega), if_neg (by omega), if_neg hbig, length_head]
  cases hplain : f.plainData with
  | false =>
    rw [if_neg (fun hc => by rw [(plainData_iff f).2 hc] at hplain; cases hplain), if_neg nofun, if_neg nofun,
      if_neg nofun]
    congr 1
    omega
  | true =>
    obtain ⟨p, hp, hbody⟩ := body_of_plainData hplain
    have hmax : p.length < 65536 := f.payload_lt p hp
    have hsize : Session.getBe16 (f.encode ++ rest) (2 + (4 + f.extra.length)) = p.length := by
      have h6 : f.head.length = 2 + (4 + f.extra.length) := by rw [length_head]; omega
      rw [encode, hbody, ← h6]
      simp only [Session.getBe16, putBe16, getD_eq_getElem?_getD, append_assoc, cons_append,
        nil_append]
      rw [getElem?_append_right (Nat.le_refl _), getElem?_append_right (by omega), Nat.sub_self,
        Nat.add_sub_cancel_left]
      exact putBe16_get hmax
    have hbodylen : f.body.length = 2 + p.length := by
      rw [hbody]
      simp [putBe16]
      omega
    rw [if_pos ((plainData_iff f).1 hplain), hbodylen, if_neg (by omega), hsize, hp, Option.getD_some]
    by_cases hlong : limit < p.length
    · rw [if_pos hlong, if_pos ⟨rfl, hlong⟩]
    · rw [if_neg hlong, if_neg (by omega), if_neg (fun h => hlong h.2), if_pos rfl, if_pos rfl]
      congr 1
      omega

def taken (f : Frame) : List UInt8 := if f.plainData || !f.dataBit then f.encode else f.head

def left (f : Frame) : List UInt8 := if f.plainData || !f.dataBit then [] else f.body

theorem taken_append_left (f : Frame) : f.taken ++ f.left = f.encode := by
  unfold taken left
  split
  · exact append_nil _
  · rfl

theorem length_putBe16 (n : Nat) : (putBe16 n).length = 2 := rfl

theorem body_eq_nil_iff (f : Frame) : f.body = [] ↔ f.dataBit = false := by
  unfold body dataBit
  cases f.payload <;> simp [putBe16]

theorem taken_eq_encode_iff (f : Frame) : f.taken = f.encode ↔ (f.dataBit = true → f.plainData = true) := by
  unfold taken
  cases hd : f.dataBit with
  | false => simp
  | true =>
    cases hp : f.plainData with
    | true => simp
    | false =>
      have hbody : f.body ≠ [] := fun h => by rw [(body_eq_nil_iff f).1 h] at hd; cases hd
      simp [encode, hbody]

def handed (f : Frame) : List UInt8 := if f.plainData then f.payload.getD [] else []

def afterFrame (f : Frame) (streams : Streams) : Streams :=
  Session.modifyStream streams f.id.toNat (Session.handleFrame f.status.byte f.optionByte f.handed)

theorem parse_encode (f : Frame) {s : Session} (hclosed : s.closed = false)
    (hmeta : 4 + f.extra.length ≤ kV2rayMaximumMetadataSize)
    (hsize : f.plainData = true → (f.payload.getD []).length ≤ s.frameSize) {rest : List UInt8}
    (hinput : s.input = f.encode ++ rest) :
    Session.parser.step s = some { s with
      input := f.left ++ rest, streams := f.afterFrame s.streams,
      trace := s.trace ++ [⟨f.taken, s.streams, f.afterFrame s.streams⟩] } := by
  change Session.parseStep s = _
  rw [Session.parseStep, if_neg (by rw [hclosed]; decide), hinput, verdict_encode, if_neg (Nat.not_lt.2 hmeta),
    if_neg fun h => Nat.not_lt.2 (hsize h.1) h.2]
  simp only [Session.obey, Session.takeFrame, hinput]
  have hbytes : f.encode ++ rest = f.taken ++ (f.left ++ rest) := by rw [← append_assoc, taken_append_left]
  have htotal : (if f.plainData then f.head.length + 2 else f.head.length) +
      (if f.plainData then (f.payload.getD []).length else 0) = f.taken.length := by
    unfold taken
    cases hplain : f.plainData with
    | true =>
      obtain ⟨p, hp, hbody⟩ := body_of_plainData hplain
      simp [encode, hbody, hp, length_putBe16]
      omega
    | false =>
      cases hd : f.dataBit with
      | true => simp
      | false => simp [encode, (body_eq_nil_iff f).2 hd]
  have hpayload : ((f.encode ++ rest).drop (if f.plainData then f.head.length + 2 else f.head.length)).take
      (if f.plainData then (f.payload.getD []).length else 0) = f.handed := by
    unfold handed
    cases hplain : f.plainData with
    | true =>
      obtain ⟨p, hp, hbody⟩ := body_of_plainData hplain
      have h2 : (f.head ++ putBe16 p.length).length = f.head.length + 2 := by rw [length_append, length_putBe16]
      rw [if_pos rfl, if_pos rfl, if_pos rfl, hp, encode, hbody, ← h2]
      simp only [← append_assoc, Option.getD_some]
      rw [append_assoc _ p rest, drop_left, take_left]
    | false => simp
  rw [htotal, hpayload, hbytes, drop_left, take_left]
  rfl

theorem handleFrame_eq (f : Frame) (data : List UInt8) (st : StreamState) :
    Session.handleFrame f.status.byte f.optionByte data st =
      if f.status = .end_ then st.onRemoteEnd
      else if f.plainData then st.onData data
      else if f.takenForError then st.onSessionError .protocolError
      else st := by
  unfold Session.handleFrame
  have hend : f.status.byte = kV2rayEnd ↔ f.status = .end_ := by cases f.status <;> decide
  have herror : f.status.byte = kV2rayError ↔ f.status = .keep := by cases f.status <;> decide
  simp only [hend, ← plainData_iff, herror]
  have htaken : f.plainData = false → (f.status = .keep ↔ f.takenForError = true) := by
    unfold plainData takenForError
    cases f.status <;> cases f.dataBit <;> cases f.errorBit <;> decide
  cases hplain : f.plainData with
  | true => rfl
  | false => simp only [htaken hplain]

theorem plainData_status (h : f.plainData = true) : f.status = .keep ∧ f.takenForError = false := by
  unfold plainData at h
  unfold takenForError
  cases hs : f.status <;> cases hd : f.dataBit <;> cases he : f.errorBit <;> simp_all

theorem received_handleFrame (f : Frame) (st : StreamState) :
    (Session.handleFrame f.status.byte f.optionByte f.handed st).received =
      st.received ++ if st.accepts then f.handed else [] := by
  rw [handleFrame_eq]
  have hnot : f.plainData = false → f.handed = [] := fun h => by rw [handed, h]; rfl
  split
  · rename_i hend
    have hplain : f.plainData = false := by
      cases hp : f.plainData with
      | false => rfl
      | true => rw [(plainData_status hp).1] at hend; cases hend
    simp [hnot hplain, StreamState.received_onRemoteEnd]
  · split
    · exact StreamState.received_onData _ st
    · rename_i hplain
      rw [hnot (by simpa using hplain)]
      split <;> simp [StreamState.received_onSessionError]

theorem closed_handleFrame (f : Frame) (data : List UInt8) (st : StreamState) :
    (Session.handleFrame f.status.byte f.optionByte data st).closed = (st.closed || f.takenForError) := by
  rw [handleFrame_eq]
  split
  · rename_i hend
    have : f.takenForError = false := by rw [takenForError, hend]; rfl
    rw [StreamState.closed_onRemoteEnd, this, Bool.or_false]
  · split
    · rename_i hplain
      rw [StreamState.closed_onData, (plainData_status hplain).2, Bool.or_false]
    · split
      · rename_i htaken
        rw [StreamState.closed_onSessionError, htaken, Bool.or_true]
      · rename_i htaken
        rw [(by simpa using htaken : f.takenForError = false), Bool.or_false]

theorem afterFrame_apply (f : Frame) (streams : Streams) (id : Nat) :
    f.afterFrame streams id =
      if id = f.id.toNat then (streams id).map (Session.handleFrame f.status.byte f.optionByte f.handed)
      else streams id := rfl

/-- **When the parse of a frame obeys it**: what it left would belong to the frame, and a stream it put
into the error state without the Error bit would have to be closed already. -/
theorem obeys_iff (f : Frame) (streams : Streams) :
    Obeys f ⟨f.taken, streams, f.afterFrame streams⟩ ↔
      (f.dataBit = true → f.plainData = true) ∧
        (f.takenForError = true → f.errorBit = false → liveIds streams f.id.toNat = false) := by
  unfold Obeys
  dsimp only
  rw [taken_eq_encode_iff]
  refine and_congr_right fun hdata => ⟨fun h htaken herr => ?_, fun h id => ?_⟩
  · have hid := h f.id.toNat
    rw [afterFrame_apply, if_pos rfl] at hid
    unfold liveIds
    cases hst : streams f.id.toNat with
    | none => rfl
    | some st =>
      rw [hst] at hid
      have hclosed := hid.2 (by rw [closed_handleFrame, htaken, Bool.or_true])
      simpa [herr] using hclosed
  · rw [afterFrame_apply]
    have hpayload : f.payload.getD [] = f.handed := by
      unfold handed
      split
      · rfl
      · rename_i hplain
        cases hp : f.payload with
        | none => rfl
        | some p => exact absurd (hdata (by rw [dataBit, hp]; rfl)) hplain
    by_cases hid : id = f.id.toNat
    · rw [if_pos hid]
      cases hst : streams id with
      | none => trivial
      | some st =>
        refine ⟨by rw [received_handleFrame, hpayload]; simp [hid], fun hclosed => ?_⟩
        rw [closed_handleFrame, Bool.or_eq_true] at hclosed
        rcases hclosed with hclosed | htaken
        · exact .inl hclosed
        · cases herr : f.errorBit with
          | true => exact .inr ⟨hid, rfl⟩
          | false =>
            have hlive := h htaken herr
            rw [← hid, liveIds, hst] at hlive
            exact .inl (by simpa using hlive)
    · rw [if_neg hid]
      cases streams id with
      | none => trivial
      | some st => exact ⟨by simp [hid], .inl⟩

theorem liveIds_afterFrame (f : Frame) (streams : Streams) :
    liveIds (f.afterFrame streams) = fun id => liveIds streams id && !(f.takenForError && id == f.id.toNat) := by
  funext id
  unfold liveIds
  rw [afterFrame_apply]
  by_cases hid : id = f.id.toNat
  · rw [if_pos hid]
    cases hst : streams id with
    | none => rfl
    | some st =>
      simp only [Option.map_some, Option.any_some, closed_handleFrame, hid, beq_self_eq_true, Bool.and_true]
      cases st.closed <;> cases f.takenForError <;> rfl
  · rw [if_neg hid]
    simp [hid]

end Frame

/-! ## All frames -/

section AllFrames

theorem trace_grows (s : Session) : s.trace <+: (Session.parser.drain s).trace := by
  refine Feed.drain_induction (P := fun t => s.trace <+: t.trace) (fun t t' hstep ht => ?_) s (prefix_refl _)
  refine ht.trans ?_
  change Session.parseStep t = some t' at hstep
  unfold Session.parseStep at hstep
  split at hstep
  · cases hstep
  · cases hv : Session.verdict t.frameSize t.input with
    | more => rw [hv] at hstep; cases hstep
    | bad e =>
      rw [hv] at hstep
      cases hstep
      unfold Session.fail
      split <;> exact prefix_refl _
    | frame wireId status option start size =>
      rw [hv] at hstep
      cases hstep
      exact prefix_append _ _

theorem drain_refused {f : Frame} {s : Session} (hclosed : s.closed = false)
    (hbad : ¬ (4 + f.extra.length ≤ kV2rayMaximumMetadataSize ∧
      (f.plainData = true → (f.payload.getD []).length ≤ s.frameSize)))
    {rest : List UInt8} (hinput : s.input = f.encode ++ rest) : (Session.parser.drain s).trace = s.trace := by
  have hfail : ∃ e, Session.parser.step s = some (s.fail e) := by
    change ∃ e, Session.parseStep s = _
    rw [Session.parseStep, if_neg (by rw [hclosed]; decide), hinput, Frame.verdict_encode]
    by_cases hbig : kV2rayMaximumMetadataSize < 4 + f.extra.length
    · exact ⟨_, by rw [if_pos hbig]; rfl⟩
    · have hlong : f.plainData ∧ s.frameSize < (f.payload.getD []).length := by
        by_contra hnot
        exact hbad ⟨Nat.le_of_not_lt hbig, fun hp => Nat.le_of_not_lt fun hlt => hnot ⟨hp, hlt⟩⟩
      exact ⟨_, by rw [if_neg hbig, if_pos hlong]; rfl⟩
  obtain ⟨e, he⟩ := hfail
  rw [Feed.drain_step he, Feed.drain_stuck (Session.parser_stuck_of_closed (Session.closed_fail s e)),
    Session.fail, if_neg (by rw [hclosed]; decide)]

theorem drain_frames {limit : Nat} : ∀ (fs : List Frame) (s : Session), s.closed = false → s.frameSize = limit →
    s.input = encodeAll fs →
    (Fits limit (liveIds s.streams) fs → ∃ ps, (Session.parser.drain s).trace = s.trace ++ ps ∧
      List.Forall₂ Obeys fs ps ∧
      Linked s.streams ps (Session.parser.drain s).streams ∧ (Session.parser.drain s).input = [] ∧
      (Session.parser.drain s).closed = false) ∧
    (∀ ps, (Session.parser.drain s).trace = s.trace ++ ps → List.Forall₂ Obeys fs ps →
      Fits limit (liveIds s.streams) fs)
  | [], s, hclosed, _, hinput => by
    have hstuck : Session.parser.step s = none := by
      change Session.parseStep s = none
      rw [Session.parseStep, if_neg (by rw [hclosed]; decide), hinput]
      rfl
    rw [Feed.drain_stuck hstuck]
    exact ⟨fun _ => ⟨[], (append_nil _).symm, .nil, rfl, hinput, hclosed⟩, fun _ _ _ => trivial⟩
  | f :: fs, s, hclosed, hlimit, hinput => by
    have hfront : s.input = f.encode ++ encodeAll fs := hinput
    by_cases hsized : 4 + f.extra.length ≤ kV2rayMaximumMetadataSize ∧
        (f.plainData = true → (f.payload.getD []).length ≤ s.frameSize)
    on_goal 2 =>
      refine ⟨fun h => absurd ⟨h.1.1, fun _ => hlimit ▸ h.1.2⟩ hsized, fun ps htrace hall => ?_⟩
      rw [drain_refused hclosed hsized hfront, self_eq_append_right] at htrace
      rw [htrace] at hall
      cases hall
    have hstep := f.parse_encode hclosed hsized.1 hsized.2 hfront
    have hobeys := f.obeys_iff s.streams
    rw [Feed.drain_step hstep]
    -- the first parse is the first entry of the trace, whatever follows
    have hfirst : ∀ {t : Session} {ps : List Parse}, t.trace =
      s.trace ++ [⟨f.taken, s.streams, f.afterFrame s.streams⟩] →
        (Session.parser.drain t).trace = s.trace ++ ps → List.Forall₂ Obeys (f :: fs) ps →
        ∃ ps', (Session.parser.drain t).trace = t.trace ++ ps' ∧ List.Forall₂ Obeys fs ps' ∧
          Obeys f ⟨f.taken, s.streams, f.afterFrame s.streams⟩ := by
      intro t ps ht htrace hall
      obtain ⟨ps', hps'⟩ := trace_grows t
      rw [htrace, ht, append_assoc, append_cancel_left_eq, singleton_append] at hps'
      subst hps'
      cases hall with
      | cons hp hall => exact ⟨ps', by rw [htrace, ht, append_assoc]; rfl, hall, hp⟩
    by_cases hdata : f.dataBit = true → f.plainData = true
    · -- the frame is taken whole, so the next one is at the front
      have hleft : f.left ++ encodeAll fs = encodeAll fs := by
        have := f.taken_append_left
        rw [(Frame.taken_eq_encode_iff f).2 hdata] at this
        rw [append_right_eq_self.1 this, nil_append]
      rw [hleft]
      obtain ⟨hfits, hback⟩ := drain_frames fs
        { s with
          input := encodeAll fs, streams := f.afterFrame s.streams,
          trace := s.trace ++ [⟨f.taken, s.streams, f.afterFrame s.streams⟩] } hclosed hlimit rfl
      rw [f.liveIds_afterFrame] at hfits hback
      constructor
      · rintro ⟨_, _, hlive, hrest⟩
        obtain ⟨ps, htrace, hall, hlinked, hend⟩ := hfits hrest
        refine ⟨_ :: ps, ?_, .cons (hobeys.2 ⟨hdata, hlive⟩) hall, ⟨rfl, hlinked⟩, hend⟩
        rw [htrace, append_assoc]
        rfl
      · intro ps htrace hall
        obtain ⟨ps', htrace', hall', hp⟩ := hfirst rfl htrace hall
        refine ⟨⟨hsized.1, ?_⟩, hdata, (hobeys.1 hp).2, hback ps' htrace' hall'⟩
        cases hd : f.dataBit with
        | true => exact hlimit ▸ hsized.2 (hdata hd)
        | false => simp_all [Frame.dataBit]
    · refine ⟨fun h => absurd h.2.1 hdata, fun ps htrace hall => ?_⟩
      obtain ⟨_, _, _, hp⟩ := hfirst rfl htrace hall
      exact absurd (hobeys.1 hp).1 hdata

/-- **The carrier parser serves the frames, cut in any way, exactly when they fit the streams.** -/
theorem readAll_serves_iff (size : Nat) (streams : Streams) (fs : List Frame) (carrier : Segments UInt8)
    (h : carrier.bytes = encodeAll fs) :
    Served size streams fs carrier ↔ Fits (min size kMaximumMuxFrameSize) (liveIds streams) fs := by
  obtain ⟨houtcome, hsame⟩ := Session.readAll_eq size streams carrier
  have hdrain := drain_frames fs ((Session.start size streams).append carrier.bytes) rfl rfl h
  have htrace := congrArg (·.1) houtcome
  dsimp only [Session.outcome] at htrace
  constructor
  · intro hserved
    refine hdrain.2 _ ?_ hserved.obeys
    rw [← htrace]
    rfl
  · intro hfits
    obtain ⟨ps, hps, hall, hlinked, hinput, hopen⟩ := hdrain.1 hfits
    have heq := hsame hopen
    have hps' : (Session.parser.drain ((Session.start size streams).append carrier.bytes)).trace = ps := hps
    refine ⟨?_, ?_, ?_, ?_, fun carrier' hbytes => ?_⟩
    · rw [heq, hps']
      exact hall
    · rw [heq, hps']
      exact hlinked
    · rw [heq]
      exact hinput
    · rw [heq]
      exact hopen
    · rw [houtcome, (Session.readAll_eq size streams carrier').1, hbytes]

/-- A stream that reads two data frames, an end and a frame for nobody, cut inside the frames. -/
theorem readAll_serves_fitting :
    let fs : List Frame :=
      [⟨1, .keep, false, [], some [7, 8], by decide, by decide⟩,
        ⟨0, .keepAlive, false, [], none, by decide, by decide⟩,
       ⟨1, .end_, false, [], none, by decide, by decide⟩]
    Served 1000 (fun id => if id = 1 then some { reader := some 9 } else none) fs
      ⟨[[0, 4, 0, 1, 2], [1, 0, 2, 7], [8, 0, 4, 0, 0, 4, 0, 0], [4, 0, 1, 3, 0]], by decide⟩ :=
  (readAll_serves_iff 1000 _ _ _ (by decide)).2 (by decide)

/-- **A keep-alive of an open stream closes it**: `Keep` with neither bit is a well-formed frame of six
bytes, and the parser takes its status for the Error bit. -/
theorem readAll_closes_kept :
    ¬ Served 1000 (fun id => if id = 1 then some {} else none)
      [⟨1, .keep, false, [], none, by decide, by decide⟩]
      ⟨[[0, 4, 0, 1, 2, 0]], by decide⟩ := by
  intro h
  have hobeys := h.obeys
  cases hobeys with
  | cons hp _ =>
    have hclosed := (hp.2 1).2 rfl
    simp at hclosed

end AllFrames

end ClashNative.V2rayMux
