import ClashNative.GunFrames
/-!
# GunReads — what the reads of a Tun stream owe to its frames

A byte string is some whole frames and a tail that no frame starts.  The reads owe the payloads of the
frames, no read without a byte, and then the end of the stream where there is no tail, an error where
there is one.  They pay exactly where no payload is empty and the tail is one that the reader can tell
(`Readable`).
-/
namespace ClashNative.Gun

open Wire List

/-- **The bytes of a body**: whole frames, and what no frame starts. -/
structure Stream where
  payloads : List Bytes
  tail : Bytes
  fits : ∀ p ∈ payloads, p.length ≤ kMaxFramePayload
  noFrame : ∀ p : Bytes, p.length ≤ kMaxFramePayload → ¬ encodeFrame p <+: tail

namespace Stream

def bytes (t : Stream) : Bytes := t.payloads.flatMap encodeFrame ++ t.tail

def data (t : Stream) : Bytes := t.payloads.flatten

/-- Every byte string is one. -/
theorem exists_bytes (bytes : Bytes) : ∃ t : Stream, t.bytes = bytes := by
  induction hlength : bytes.length using Nat.strongRecOn generalizing bytes with
  | ind n ih =>
    by_cases hframe : ∃ p : Bytes, p.length ≤ kMaxFramePayload ∧ encodeFrame p <+: bytes
    · obtain ⟨p, hp, rest, rfl⟩ := hframe
      have hpos : 0 < (encodeFrame p).length := by simp [encodeFrame]
      obtain ⟨t, rfl⟩ := ih rest.length (by rw [← hlength, length_append]; omega) rest rfl
      refine ⟨⟨p :: t.payloads, t.tail, forall_mem_cons.2 ⟨hp, t.fits⟩, t.noFrame⟩, ?_⟩
      simp [Stream.bytes]
    · exact ⟨⟨[], bytes, nofun, fun p hp hfirst => hframe ⟨p, hp, hfirst⟩⟩, rfl⟩

end Stream

def delivered (results : List ReadResult) : Bytes := results.flatMap ReadResult.data

/-- **What is owed.**  Where the tail is a frame that was cut, some of its payload may be read. -/
structure Conforms (t : Stream) (rooms : List Nat) (results : List ReadResult) : Prop where
  nonempty : ∀ data, .bytes data ∈ results → data ≠ []
  inOrder : delivered results <+: t.data ∨
    ∃ p : Bytes, p.length ≤ kMaxFramePayload ∧ t.tail <+: encodeFrame p ∧ delivered results <+: t.data ++ p
  clean : .eof ∈ results → t.tail = [] ∧ delivered results = t.data
  broken : .error ∈ results → t.tail ≠ [] ∧ t.data <+: delivered results
  ends : t.bytes.length < rooms.length → .eof ∈ results ∨ .error ∈ results

/-- The reads of a stream conform, however its bytes arrive and whatever room they are given. -/
def Stream.Conforms (t : Stream) : Prop :=
  ∀ body : Segments UInt8, body.bytes = t.bytes → ∀ rooms : List Nat, (∀ room ∈ rooms, 0 < room) →
    Gun.Conforms t rooms (GunStreamState.reads { body := body } rooms)

def readLength (l : Bytes) : Nat := Leb128.value (l.take ((Leb128.groups l).length + 1)) % 2 ^ 64

/-- The reader tells that a length is none: it is cut off, it goes on for ten bytes, or it is more than is
admitted. -/
def LengthRejected (l : Bytes) : Prop :=
  Leb128.groups l = l ∨ 10 ≤ (Leb128.groups l).length ∨ kMaxFramePayload < readLength l

def Rejected (tail : Bytes) : Prop :=
  kFramePrefixSize ≤ tail.length ∧ (tail.getD 0 0 ≠ 0x00 ∨ tail.getD 5 0 ≠ 0x0a ∨
    LengthRejected (tail.drop kFramePrefixSize))

def Stream.Readable (t : Stream) : Prop := (∀ p ∈ t.payloads, p ≠ []) ∧ (t.tail = [] ∨ Rejected t.tail)

variable {rest : Bytes} {last : UInt8} {init : Bytes}

theorem readLength_of_split (hinit : ∀ b ∈ init, Leb128.continues b = true)
    (hlast : Leb128.continues last = false) :
    readLength (init ++ last :: rest) = Leb128.value (init ++ [last]) % 2 ^ 64 := by
  unfold readLength
  rw [Leb128.take_of_split hinit hlast]

/-! ## A receive at the start of a frame -/

section Prefix

variable {s : GunStreamState} (room : Nat)

theorem readFramePrefix_short (h : s.body.bytes.length < kFramePrefixSize) :
    (s.readFramePrefix room).1 = .eof := by
  unfold GunStreamState.readFramePrefix
  rw [readExact_short h]

def Follows (s : GunStreamState) (room size : Nat) (rest : Bytes) : Prop :=
  ∃ body, body.bytes = rest ∧ s.readFramePrefix room = ({ s with body := body }).readFramePayload size room

theorem readFramePrefix_cases (h : kFramePrefixSize ≤ s.body.bytes.length) :
    (s.body.bytes.getD 0 0 ≠ 0x00 ∨ s.body.bytes.getD 5 0 ≠ 0x0a → (s.readFramePrefix room).1 = .error) ∧
    (¬ (s.body.bytes.getD 0 0 ≠ 0x00 ∨ s.body.bytes.getD 5 0 ≠ 0x0a) →
      let l := s.body.bytes.drop kFramePrefixSize
      (Leb128.groups l = l ∨ 10 ≤ (Leb128.groups l).length → (s.readFramePrefix room).1 = .error) ∧
      ∀ init last rest, l = init ++ last :: rest → (∀ b ∈ init, Leb128.continues b = true) →
      Leb128.continues last = false →
        init.length ≤ 9 → Follows s room (readLength l) rest) := by
  obtain ⟨body, hread, hbody⟩ := Segments.readExact_bytes kFramePrefixSize s.body h
  have hget : ∀ i, i < kFramePrefixSize →
    (s.body.bytes.take kFramePrefixSize).getD i 0 = s.body.bytes.getD i 0 := fun i hi => by
    rw [getD_eq_getElem?_getD, getD_eq_getElem?_getD, getElem?_take_of_lt hi]
  unfold Follows GunStreamState.readFramePrefix
  rw [hread]
  dsimp only
  rw [hget 0 (by decide), hget 5 (by decide), ← hbody]
  refine ⟨fun hflags => by rw [if_pos hflags], fun hflags => ?_⟩
  rw [if_neg hflags]
  obtain ⟨hnone, hsome⟩ := readFrameLength_eq 10 0 0 body rfl (by decide)
  constructor
  · intro hcut
    have hsize := hnone hcut
    generalize readFrameLength 10 0 0 body = r at hsize
    obtain ⟨size, body'⟩ := r
    cases hsize
    rfl
  · intro init last rest hsplit hinit hlast hlength
    obtain ⟨body', hrest, hlen⟩ := hsome init last rest hsplit hinit hlast (by omega)
    refine ⟨body', hrest, ?_⟩
    rw [hlen, hsplit, readLength_of_split hinit hlast, Nat.pow_zero, Nat.one_mul, Nat.zero_add]

theorem readFramePrefix_rejected (h : Rejected s.body.bytes) : (s.readFramePrefix room).1 = .error := by
  obtain ⟨hlength, hcause⟩ := h
  obtain ⟨hflagged, hopen⟩ := readFramePrefix_cases room hlength
  by_cases hflags : s.body.bytes.getD 0 0 ≠ 0x00 ∨ s.body.bytes.getD 5 0 ≠ 0x0a
  · exact hflagged hflags
  · obtain ⟨hcut, hfollows⟩ := hopen hflags
    by_cases hends : Leb128.groups (s.body.bytes.drop kFramePrefixSize) = s.body.bytes.drop kFramePrefixSize ∨
        10 ≤ (Leb128.groups (s.body.bytes.drop kFramePrefixSize)).length
    · exact hcut hends
    · have hlarge : kMaxFramePayload < readLength (s.body.bytes.drop kFramePrefixSize) := by
        rcases hcause with h | h | h | h | h
        · exact absurd (.inl h) hflags
        · exact absurd (.inr h) hflags
        · exact absurd (.inl h) hends
        · exact absurd (.inr h) hends
        · exact h
      rcases Leb128.groups_cases (s.body.bytes.drop kFramePrefixSize) with hall | ⟨last, rest, hsplit, hlast⟩
      · exact absurd (.inl hall) hends
      · obtain ⟨body, -, hread⟩ := hfollows _ last rest hsplit
          (fun _ => Leb128.continues_of_mem_groups) hlast (by omega)
        rw [hread]
        unfold GunStreamState.readFramePayload
        rw [if_pos hlarge]

theorem readFramePrefix_frame {p : Bytes} (hp : p.length ≤ kMaxFramePayload)
    (h : s.body.bytes = encodeFrame p ++ rest) :
    ∃ body, body.bytes = p ++ rest ∧ s.readFramePrefix room =
    (GunStreamState.mk body p.length).readRemainder room := by
  obtain ⟨init, last, heq, hinit, hlast, hlength, hvalue⟩ := encodeFrame_eq hp
  have hbytes : s.body.bytes = (0x00 :: putBe32 (1 + (init.length + 1) + p.length) ++ [0x0a]) ++
    (init ++ last :: (p ++ rest)) := by
    rw [h, heq]
    simp
  have hlong : kFramePrefixSize ≤ s.body.bytes.length := by
    rw [hbytes, length_append]
    exact Nat.le_add_right 6 _
  have hdrop : s.body.bytes.drop kFramePrefixSize = init ++ last :: (p ++ rest) := by
    rw [hbytes]
    rfl
  have hflags : ¬ (s.body.bytes.getD 0 0 ≠ 0x00 ∨ s.body.bytes.getD 5 0 ≠ 0x0a) := by
    rw [hbytes]
    exact fun hflags => hflags.elim (fun h => h rfl) (fun h => h rfl)
  obtain ⟨body, hrest, hread⟩ := ((readFramePrefix_cases room hlong).2 hflags).2 init last
    (p ++ rest) hdrop hinit hlast hlength
  refine ⟨body, hrest, ?_⟩
  have hmax := kMaxFramePayload_lt
  rw [hread, hdrop, readLength_of_split hinit hlast, hvalue, Nat.mod_eq_of_lt (by omega)]
  unfold GunStreamState.readFramePayload
  rw [if_neg (Nat.not_lt.2 hp)]

end Prefix

/-! ## One read -/

variable {more : Bytes} {s : GunStreamState}

theorem readRemainder_eq (room : Nat) (hremain : s.remain = rest.length)
    (hbody : s.body.bytes = rest ++ more) : ∃ s', s.readRemainder room = (.bytes (rest.take room), s') ∧
      s'.remain = (rest.drop room).length ∧ s'.body.bytes = rest.drop room ++ more := by
  obtain ⟨body, hread, hleft⟩ := Segments.readExact_bytes (min room s.remain) s.body (by
    rw [hbody, length_append]
    omega)
  have htake : s.body.bytes.take (min room s.remain) = rest.take room := by
    rw [hbody, hremain, take_append_of_le_length (Nat.min_le_right _ _), ← take_take,
      take_of_length_le (Nat.le_refl _)]
  have hdrop : s.body.bytes.drop (min room s.remain) = rest.drop room ++ more := by
    rw [hbody, hremain, drop_append_of_le_length (Nat.min_le_right _ _)]
    rcases Nat.le_total room rest.length with hle | hle
    · rw [Nat.min_eq_left hle]
    · rw [Nat.min_eq_right hle, drop_length, drop_of_length_le hle]
  unfold GunStreamState.readRemainder
  rw [hread, htake]
  refine ⟨_, rfl, ?_, ?_⟩
  · show s.remain - (rest.take room).length = (rest.drop room).length
    rw [hremain, length_take, length_drop]
    omega
  · rw [hleft, hdrop]

/-- The state of a reader between two reads: `rest` of a payload is left, and then whole frames. -/
structure At (t : Stream) (s : GunStreamState) (rest : Bytes) (payloads : List Bytes) : Prop where
  remain : s.remain = rest.length
  body : s.body.bytes = rest ++ (payloads.flatMap encodeFrame ++ t.tail)
  fits : ∀ p ∈ payloads, p.length ≤ kMaxFramePayload
  nonempty : ∀ p ∈ payloads, p ≠ []

variable {t : Stream}

theorem receive_bytes {payloads : List Bytes} (h : At t s rest payloads) {room : Nat}
    (hroom : 0 < room) (hleft : rest ++ payloads.flatten ≠ []) :
    ∃ data s' rest' payloads', s.receive room = (.bytes data, s') ∧
      At t s' rest' payloads' ∧ data ≠ [] ∧ data ++ (rest' ++ payloads'.flatten) = rest ++ payloads.flatten ∧
      (rest' ++ payloads'.flatMap encodeFrame).length < (rest ++ payloads.flatMap encodeFrame).length := by
  have hpart : ∀ p : Bytes, p ≠ [] → p.take room ≠ [] := fun p hp hnil => by
    rcases take_eq_nil_iff.1 hnil with h0 | h0
    · omega
    · exact hp h0
  unfold GunStreamState.receive
  rw [if_neg (by omega)]
  by_cases hrest : rest = []
  · cases payloads with
    | nil =>
      rw [hrest] at hleft
      exact absurd rfl hleft
    | cons p payloads =>
      have hp := h.fits p mem_cons_self
      have hbody := h.body
      rw [hrest, nil_append, flatMap_cons, append_assoc] at hbody
      obtain ⟨body, hopened, hread⟩ := readFramePrefix_frame room hp hbody
      obtain ⟨s', hresult, hremain', hbody'⟩ := readRemainder_eq (s := ⟨body, p.length⟩) room rfl hopened
      rw [if_neg (by rw [h.remain, hrest]; exact Nat.lt_irrefl 0), hread, hresult]
      refine ⟨_, s', p.drop room, payloads, rfl, ⟨hremain', hbody', fun q hq => h.fits q (mem_cons_of_mem p hq),
        fun q hq => h.nonempty q (mem_cons_of_mem p hq)⟩, hpart p (h.nonempty p mem_cons_self), ?_, ?_⟩
      · rw [hrest, flatten_cons, ← append_assoc, take_append_drop]
        rfl
      · have := length_lt_encodeFrame p
        rw [hrest, flatMap_cons, nil_append, length_append, length_append, length_drop]
        omega
  · have hpos := length_pos_iff.2 hrest
    obtain ⟨s', hresult, hremain', hbody'⟩ := readRemainder_eq room h.remain h.body
    rw [if_pos (by rw [h.remain]; exact hpos), hresult]
    refine ⟨_, s', rest.drop room, payloads, rfl, ⟨hremain', hbody', h.fits, h.nonempty⟩,
      hpart rest hrest, ?_, ?_⟩
    · rw [← append_assoc, take_append_drop]
    · rw [length_append, length_append, length_drop]
      omega

theorem delivered_cons (r : ReadResult) (results : List ReadResult) :
    delivered (r :: results) = r.data ++ delivered results := rfl

theorem reads_conform (htail : t.tail = [] ∨ Rejected t.tail) :
    ∀ (rooms : List Nat) (s : GunStreamState) (rest : Bytes)
    (payloads : List Bytes), At t s rest payloads → (∀ room ∈ rooms, 0 < room) →
    (∀ data, .bytes data ∈ s.reads rooms → data ≠ []) ∧ delivered (s.reads rooms) <+: rest ++ payloads.flatten ∧
    (.eof ∈ s.reads rooms → t.tail = [] ∧ delivered (s.reads rooms) = rest ++ payloads.flatten) ∧
    (.error ∈ s.reads rooms → t.tail ≠ [] ∧ delivered (s.reads rooms) = rest ++ payloads.flatten) ∧
    ((rest ++ payloads.flatMap encodeFrame).length < rooms.length → .eof ∈
      s.reads rooms ∨ .error ∈ s.reads rooms)
  | [], s, rest, payloads, _, _ => by
    exact ⟨fun _ h => absurd h not_mem_nil, nil_prefix, fun h => absurd h not_mem_nil,
      fun h => absurd h not_mem_nil, fun h => absurd h (Nat.not_lt_zero _)⟩
  | room :: rooms, s, rest, payloads, h, hrooms => by
    have hroom := hrooms room mem_cons_self
    unfold GunStreamState.reads
    by_cases hleft : rest ++ payloads.flatten = []
    · -- nothing is left but the tail
      obtain ⟨hrest, hflat⟩ := append_eq_nil_iff.1 hleft
      have hpayloads : payloads = [] := by
        cases payloads with
        | nil => rfl
        | cons p payloads => exact absurd (flatten_eq_nil_iff.1 hflat p mem_cons_self) (h.nonempty
          p mem_cons_self)
      have hbody : s.body.bytes = t.tail := by
        rw [h.body, hrest, hpayloads]
        rfl
      have hreceive : s.receive room = s.readFramePrefix room := by
        unfold GunStreamState.receive
        rw [if_neg (by omega), if_neg (by rw [h.remain, hrest]; exact Nat.lt_irrefl 0)]
      rw [hreceive, hleft]
      generalize hresult : s.readFramePrefix room = r
      rcases htail with htail | htail
      · have heof : r.1 = .eof := by
          rw [← hresult]
          exact readFramePrefix_short room (by rw [hbody, htail]; decide)
        obtain ⟨result, s'⟩ := r
        cases heof
        exact ⟨fun data hdata => (by simp at hdata), nil_prefix, fun _ => ⟨htail, rfl⟩,
          fun herror => (by simp at herror),
          fun _ => .inl mem_cons_self⟩
      · have herror : r.1 = .error := by
          rw [← hresult]
          exact readFramePrefix_rejected room (hbody ▸ htail)
        have hne : t.tail ≠ [] := fun hnil => by
          rw [hnil] at htail
          exact absurd htail.1 (by decide)
        obtain ⟨result, s'⟩ := r
        cases herror
        exact ⟨fun data hdata => (by simp at hdata), nil_prefix, fun heof => (by simp at heof),
          fun _ => ⟨hne, rfl⟩,
          fun _ => .inr mem_cons_self⟩
    · obtain ⟨data, s', rest', payloads', hread, hat, hdata, hjoin, hshorter⟩ := receive_bytes h hroom hleft
      obtain ⟨hnonempty, horder, hclean, hbroken, hends⟩ := reads_conform htail rooms s' rest' payloads' hat
        fun r hr => hrooms r (mem_cons_of_mem room hr)
      rw [hread]
      rw [delivered_cons, ← hjoin]
      refine ⟨fun d hd => ?_, (prefix_append_right_inj data).2 horder, fun heof => ?_, fun herror => ?_,
        fun hlong => ?_⟩
      · rcases mem_cons.1 hd with hd | hd
        · cases hd
          exact hdata
        · exact hnonempty d hd
      · obtain ⟨htail, hall⟩ := hclean ((mem_cons.1 heof).resolve_left nofun)
        exact ⟨htail, by rw [hall]; rfl⟩
      · obtain ⟨htail, hall⟩ := hbroken ((mem_cons.1 herror).resolve_left nofun)
        exact ⟨htail, by rw [hall]; rfl⟩
      · rw [length_cons] at hlong
        exact (hends (by omega)).imp (mem_cons_of_mem _) (mem_cons_of_mem _)

/-! ## Whole frames -/

variable {p : Bytes}

theorem receive_frame (hp : p.length ≤ kMaxFramePayload) (hremain : s.remain = 0)
    (hbody : s.body.bytes = encodeFrame p ++ more) :
    ∃ s' : GunStreamState, s.receive kMaxFramePayload = (.bytes p, s') ∧ s'.remain = 0 ∧
    s'.body.bytes = more := by
  obtain ⟨body, hopened, hread⟩ := readFramePrefix_frame kMaxFramePayload hp hbody
  obtain ⟨s', hresult, hremain', hbody'⟩ := readRemainder_eq (s := ⟨body, p.length⟩) kMaxFramePayload rfl hopened
  rw [take_of_length_le hp] at hresult
  rw [drop_of_length_le hp] at hremain' hbody'
  refine ⟨s', ?_, hremain', hbody'⟩
  unfold GunStreamState.receive
  rw [if_neg (by decide), if_neg (by rw [hremain]; exact Nat.lt_irrefl 0), hread, hresult]

theorem reads_frames (rooms : List Nat) : ∀ (payloads : List Bytes) (s : GunStreamState),
    (∀ p ∈ payloads, p.length ≤ kMaxFramePayload) → s.remain = 0 →
    s.body.bytes = payloads.flatMap encodeFrame ++ more →
    ∃ s' : GunStreamState, s'.remain = 0 ∧ s'.body.bytes = more ∧
      s.reads (List.replicate payloads.length kMaxFramePayload ++ rooms) = payloads.map .bytes ++ s'.reads rooms
  | [], s, _, hremain, hbody => ⟨s, hremain, hbody, rfl⟩
  | p :: payloads, s, hfits, hremain, hbody => by
    rw [flatMap_cons, append_assoc] at hbody
    obtain ⟨s₁, hread, hremain₁, hbody₁⟩ := receive_frame (hfits p mem_cons_self) hremain hbody
    obtain ⟨s', hremain', hbody', hreads⟩ :=
      reads_frames rooms payloads s₁ (fun q hq => hfits q (mem_cons_of_mem p hq)) hremain₁ hbody₁
    refine ⟨s', hremain', hbody', ?_⟩
    rw [length_cons, replicate_succ, cons_append, GunStreamState.reads, hread]
    dsimp only
    rw [hreads]
    rfl

theorem delivered_frames (payloads : List Bytes) (results : List ReadResult) :
    delivered (payloads.map .bytes ++ results) = payloads.flatten ++ delivered results := by
  unfold delivered
  rw [flatMap_append, flatMap_map, ← flatMap_id]
  rfl

theorem noFrame_of_accepted {tail : Bytes} (hlong : kFramePrefixSize ≤ tail.length)
    (hsplit : tail.drop kFramePrefixSize = init ++ last :: rest) (hinit : ∀ b ∈ init, Leb128.continues b = true)
    (hlast : Leb128.continues last = false) (hrest : readLength (tail.drop kFramePrefixSize) ≤ rest.length)
    (hp : p.length ≤ kMaxFramePayload) (h : tail <+: encodeFrame p) : tail = encodeFrame p := by
  obtain ⟨more, hmore⟩ := h
  obtain ⟨init', last', heq, hinit', hlast', -, hvalue⟩ := encodeFrame_eq hp
  have hdrop : (encodeFrame p).drop kFramePrefixSize = init' ++ last' :: p := by
    rw [heq]
    rfl
  have hsame : init' ++ last' :: p = init ++ last :: (rest ++ more) := by
    rw [← hdrop, ← hmore, drop_append_of_le_length hlong, hsplit, append_assoc]
    rfl
  have hgroups : init' = init := by
    have hfirst : Leb128.groups (init' ++ last' :: p) = init' := Leb128.groups_of_split hinit' hlast'
    rw [← hfirst, hsame, Leb128.groups_of_split hinit hlast]
  rw [hgroups, append_cancel_left_eq, List.cons.injEq] at hsame
  have hmax := kMaxFramePayload_lt
  have hlength : readLength (tail.drop kFramePrefixSize) = p.length := by
    rw [hsplit, readLength_of_split hinit hlast, ← hgroups, ← hsame.1, hvalue, Nat.mod_eq_of_lt (by omega)]
  have hnil : more = [] := by
    have := congrArg List.length hsame.2
    rw [length_append] at this
    exact length_eq_zero_iff.1 (by omega)
  rw [← hmore, hnil, append_nil]

theorem not_conforms_of_untold (hne : t.tail ≠ []) (huntold : ¬ Rejected t.tail) (hremain : s.remain = 0)
    (hbody : s.body.bytes = t.tail) (rooms : List Nat) :
    ¬ Conforms t rooms (t.payloads.map .bytes ++ s.reads [kMaxFramePayload]) := by
  intro h
  have hreceive : s.receive kMaxFramePayload = s.readFramePrefix kMaxFramePayload := by
    unfold GunStreamState.receive
    rw [if_neg (by decide), if_neg (by rw [hremain]; exact Nat.lt_irrefl 0)]
  have hreads : ∀ r, (s.readFramePrefix kMaxFramePayload).1 = r → s.reads [kMaxFramePayload] = [r] := by
    intro r hr
    rw [GunStreamState.reads, hreceive]
    generalize s.readFramePrefix kMaxFramePayload = result at hr
    obtain ⟨first, s'⟩ := result
    cases hr
    cases first <;> rfl
  have hnoEof : (s.readFramePrefix kMaxFramePayload).1 ≠ .eof := fun heof => by
    rw [hreads _ heof] at h
    exact hne (h.clean (mem_append_right _ mem_cons_self)).1
  by_cases hlong : kFramePrefixSize ≤ t.tail.length
  · have hflags : ¬ (t.tail.getD 0 0 ≠ 0x00 ∨ t.tail.getD 5 0 ≠ 0x0a) := fun hflags =>
      huntold ⟨hlong, hflags.imp id .inl⟩
    have hlength : ¬ LengthRejected (t.tail.drop kFramePrefixSize) :=
      fun hrejected => huntold ⟨hlong, .inr (.inr hrejected)⟩
    obtain ⟨hall, hshort, hsmall⟩ := not_or.1 hlength |>.imp id not_or.1
    rcases Leb128.groups_cases (t.tail.drop kFramePrefixSize) with h0 | ⟨last, rest, hsplit, hlast⟩
    · exact hall h0
    have hinit : ∀ b ∈ Leb128.groups (t.tail.drop kFramePrefixSize), Leb128.continues b = true :=
      fun _ => Leb128.continues_of_mem_groups
    rw [← hbody] at hlong hflags
    have hcases := (readFramePrefix_cases kMaxFramePayload hlong).2 hflags
    rw [hbody] at hcases hlong
    obtain ⟨body, hrest, hread⟩ := hcases.2 _ last rest hsplit hinit hlast (by omega)
    generalize hsize : readLength (t.tail.drop kFramePrefixSize) = size at *
    unfold GunStreamState.readFramePayload GunStreamState.readRemainder at hread
    rw [if_neg hsmall] at hread
    dsimp only at hread
    rw [Nat.min_eq_right (by omega)] at hread
    by_cases hcut : rest.length < size
    · rw [readExact_short (by rw [hrest]; exact hcut)] at hread
      exact hnoEof (by rw [hread])
    · obtain ⟨body', hchunk, -⟩ := Segments.readExact_bytes size body (by rw [hrest]; omega)
      rw [hchunk, hrest] at hread
      rw [hreads (.bytes (rest.take size)) (by rw [hread])] at h
      have hnonempty := h.nonempty (rest.take size) (mem_append_right _ mem_cons_self)
      have horder := h.inOrder
      rw [delivered_frames] at horder
      rcases horder with hpre | ⟨p, hp, htail, -⟩
      · have := hpre.length_le
        unfold Stream.data at this
        rw [length_append] at this
        have hpos := length_pos_iff.2 hnonempty
        have hdel : delivered [ReadResult.bytes (rest.take size)] = rest.take size := append_nil _
        rw [hdel] at this
        omega
      · refine t.noFrame p hp ?_
        have hwhole := noFrame_of_accepted hlong hsplit hinit hlast (by rw [hsize]; omega) hp htail
        exact hwhole ▸ prefix_refl _
  · exact hnoEof (readFramePrefix_short _ (by rw [hbody]; omega))

theorem not_conforms_of_empty (hremain : s.remain = 0)
    (hbody : s.body.bytes = encodeFrame [] ++ more) (before : List ReadResult) (rooms : List Nat) :
    ¬ Conforms t rooms (before ++ s.reads [kMaxFramePayload]) := by
  intro h
  obtain ⟨s', hread, -, -⟩ := receive_frame (p := []) (Nat.zero_le _) hremain hbody
  refine h.nonempty [] (mem_append_right _ ?_) rfl
  rw [GunStreamState.reads, hread]
  exact mem_cons_self

theorem exists_body (bytes : Bytes) : ∃ body : Segments UInt8, body.bytes = bytes :=
  ⟨Segments.push bytes ended, by rw [Segments.push_bytes]; exact append_nil _⟩

/-- **A cut prefix is taken for the end**: three bytes of the first frame. -/
theorem cut_prefix_ends : ∃ t : Stream, t.payloads = [] ∧ t.tail = [0x00, 0x00, 0x00] ∧ ¬ t.Conforms := by
  have hlong : ∀ p : Bytes, p.length ≤ kMaxFramePayload → ¬ encodeFrame p <+: [0x00, 0x00, 0x00] := by
    rintro p - ⟨more, hmore⟩
    unfold encodeFrame putBe32 at hmore
    simp at hmore
  refine ⟨⟨[], [0x00, 0x00, 0x00], fun p hp => absurd hp not_mem_nil, hlong⟩, rfl, rfl, fun h => ?_⟩
  have hconforms := h ⟨[[0x00, 0x00, 0x00]], by decide⟩ rfl [1] (by decide)
  exact absurd (hconforms.clean mem_cons_self).1 (cons_ne_nil _ _)

/-- **The reads of a stream conform exactly when it is readable.** -/
theorem conforms_iff_readable (t : Stream) : t.Conforms ↔ t.Readable := by
  constructor
  · intro h
    obtain ⟨body, hbody⟩ := exists_body t.bytes
    have hrooms : ∀ n : Nat, ∀ room ∈ List.replicate n kMaxFramePayload ++ [kMaxFramePayload], 0 < room := by
      intro n room hroom
      have hroom : room = kMaxFramePayload := by
        rcases mem_append.1 hroom with hroom | hroom
        · exact (mem_replicate.1 hroom).2
        · exact mem_singleton.1 hroom
      rw [hroom]
      decide
    constructor
    · intro p hp hnil
      obtain ⟨before, after, hsplit⟩ := append_of_mem hp
      rw [hnil] at hsplit
      have hfits : ∀ q ∈ before, q.length ≤ kMaxFramePayload := fun q hq =>
        t.fits q (by rw [hsplit]; exact mem_append_left _ hq)
      have hbytes : body.bytes = before.flatMap encodeFrame ++
        (encodeFrame [] ++ (after.flatMap encodeFrame ++ t.tail)) := by
        rw [hbody, Stream.bytes, hsplit]
        simp
      obtain ⟨s', hremain, hrest, hreads⟩ :=
        reads_frames [kMaxFramePayload] before { body := body } hfits rfl hbytes
      have hconforms := h body hbody _ (hrooms before.length)
      rw [hreads] at hconforms
      exact not_conforms_of_empty hremain hrest _ _ hconforms
    · by_contra hnot
      rw [not_or] at hnot
      obtain ⟨s', hremain, hrest, hreads⟩ :=
        reads_frames [kMaxFramePayload] t.payloads { body := body } t.fits rfl hbody
      have hconforms := h body hbody _ (hrooms t.payloads.length)
      rw [hreads] at hconforms
      exact not_conforms_of_untold hnot.1 hnot.2 hremain hrest _ hconforms
  · rintro ⟨hnonempty, htail⟩ body hbody rooms hrooms
    obtain ⟨hdata, horder, hclean, hbroken, hends⟩ := reads_conform htail rooms { body := body } [] t.payloads
      ⟨rfl, hbody, t.fits, hnonempty⟩ hrooms
    refine ⟨hdata, .inl horder, hclean, fun herror => ?_, fun hlong => hends (Nat.lt_of_le_of_lt ?_ hlong)⟩
    · obtain ⟨hne, hall⟩ := hbroken herror
      exact ⟨hne, by rw [hall]; exact prefix_refl _⟩
    · rw [Stream.bytes, nil_append, length_append]
      exact Nat.le_add_right _ _

end ClashNative.Gun
