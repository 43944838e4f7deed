import ClashNative.Leb128
import ClashNative.Segments
/-!
# GunFrames — the frames of a Tun stream, and how they are read

`gun_stream.cpp`: `encode_frame`, and the receive half of `GunStreamState` from the response body up.  A
receive that waits for its body goes on where one that finds it starts, so the body is there from the
beginning.
-/
namespace ClashNative.Gun

open Wire List

abbrev Bytes := List UInt8

def kMaxFramePayload : Nat := 8 * 1024 * 1024

def kFramePrefixSize : Nat := 6

/-! ## Frames -/

/-- The loop of `uvarint_length`; a 64-bit value is through after ten turns. -/
def uvarintLengthLoop : Nat → Nat → Nat
  | 0, _ => 1
  | turns + 1, value => if 0x80 ≤ value then uvarintLengthLoop turns (value / 128) + 1 else 1

def uvarintLength (value : Nat) : Nat := uvarintLengthLoop 10 value

def putBe32 (total : Nat) : Bytes :=
  [UInt8.ofNat (total / 2 ^ 24), UInt8.ofNat (total / 2 ^ 16), UInt8.ofNat (total / 2 ^ 8), UInt8.ofNat total]

def encodeFrame (payload : Bytes) : Bytes :=
  let varlen := uvarintLength payload.length
  0x00 :: putBe32 (1 + varlen + payload.length) ++ 0x0a :: Leb128.encode 10 payload.length ++ payload

/-! ## Reads -/

inductive ReadResult
  | bytes (data : Bytes)
  | eof
  | error
  deriving DecidableEq, Repr

def ReadResult.data : ReadResult → Bytes
  | .bytes data => data
  | _ => []

structure GunStreamState where
  body : Segments UInt8
  remain : Nat := 0

def ended : Segments UInt8 := ⟨[], fun _ h => absurd h List.not_mem_nil⟩

/-- `read_frame_length`; ten turns are enough.  `none`: a protocol error. -/
def readFrameLength : Nat → Nat → Nat → Segments UInt8 → Option Nat × Segments UInt8
  | 0, _, _, body => (none, body)
  | turns + 1, value, shift, body =>
    match body.readExact 1 with
    | none => (none, ended)
    | some (byte, body) =>
      let next := (value ||| ((byte.headD 0).toNat % 128) <<< shift) % 2 ^ 64
      if Leb128.continues (byte.headD 0) = false then (some next, body)
      else if 63 ≤ shift then (none, body)
      else readFrameLength turns next (shift + 7) body

namespace GunStreamState

def readRemainder (s : GunStreamState) (room : Nat) : ReadResult × GunStreamState :=
  match s.body.readExact (min room s.remain) with
  | none => (.eof, { s with body := ended })
  | some (chunk, body) => (.bytes chunk, ⟨body, s.remain - chunk.length⟩)

def readFramePayload (s : GunStreamState) (payloadSize room : Nat) : ReadResult × GunStreamState :=
  if kMaxFramePayload < payloadSize then (.error, s) else ({ s with remain := payloadSize }).readRemainder room

/-- `read_frame_prefix`: the four bytes of the gRPC length are read and not looked at. -/
def readFramePrefix (s : GunStreamState) (room : Nat) : ReadResult × GunStreamState :=
  match s.body.readExact kFramePrefixSize with
  | none => (.eof, { s with body := ended })
  | some (prefix_, body) =>
    if prefix_.getD 0 0 ≠ 0x00 ∨ prefix_.getD 5 0 ≠ 0x0a then (.error, { s with body := body })
    else
      match readFrameLength 10 0 0 body with
      | (none, body) => (.error, { s with body := body })
      | (some payloadSize, body) => ({ s with body := body }).readFramePayload payloadSize room

def receive (s : GunStreamState) (room : Nat) : ReadResult × GunStreamState :=
  if room = 0 then (.bytes [], s)
  else if 0 < s.remain then s.readRemainder room
  else s.readFramePrefix room

def reads (s : GunStreamState) : List Nat → List ReadResult
  | [] => []
  | room :: rooms =>
    match s.receive room with
    | (.bytes data, s') => .bytes data :: s'.reads rooms
    | (result, _) => [result]

end GunStreamState

/-! ## The bytes of a frame -/

theorem uvarintLengthLoop_eq : ∀ (turns n : Nat), n < 128 ^ (turns + 1) →
    uvarintLengthLoop (turns + 1) n = (Leb128.encode (turns + 1) n).length
  | turns, n, h => by
    rw [uvarintLengthLoop, Leb128.encode]
    by_cases hsmall : n / 128 = 0
    · rw [if_neg (by omega), if_pos hsmall]
      rfl
    · rw [if_pos (by omega), if_neg hsmall, length_cons]
      cases turns with
      | zero => omega
      | succ turns =>
        rw [uvarintLengthLoop_eq turns (n / 128) (by omega)]

theorem kMaxFramePayload_lt : kMaxFramePayload < 2 ^ 64 := by decide

variable {payload : Bytes}

theorem length_lt (h : payload.length ≤ kMaxFramePayload) : payload.length < 128 ^ (9 + 1) := by
  have hmax : kMaxFramePayload < 128 ^ 10 := by decide
  omega

theorem encodeFrame_eq (h : payload.length ≤ kMaxFramePayload) :
    ∃ init last, encodeFrame payload = 0x00 :: putBe32 (1 + (init.length + 1) + payload.length) ++ 0x0a ::
    (init ++ last :: payload) ∧
      (∀ b ∈ init, Leb128.continues b = true) ∧ Leb128.continues last = false ∧ init.length ≤ 9 ∧
      Leb128.value (init ++ [last]) = payload.length := by
  obtain ⟨init, last, heq, hinit, hlast, hlength⟩ := Leb128.encode_shape 9 payload.length (length_lt h)
  have hvarlen : uvarintLength payload.length = init.length + 1 := by
    unfold uvarintLength
    rw [uvarintLengthLoop_eq 9 _ (length_lt h), heq, length_append, length_singleton]
  refine ⟨init, last, ?_, hinit, hlast, hlength, ?_⟩
  · unfold encodeFrame
    rw [hvarlen, heq]
    simp
  · rw [← heq]
    exact Leb128.value_encode 10 _ (length_lt h)

theorem length_lt_encodeFrame (p : Bytes) : p.length < (encodeFrame p).length := by
  unfold encodeFrame
  rw [length_append]
  exact Nat.lt_add_of_pos_left (Nat.succ_pos _)

/-! ## What is read depends on the bytes -/

theorem readExact_short {n : Nat} {body : Segments UInt8}
    (h : body.bytes.length < n) : body.readExact n = none := by
  cases hread : body.readExact n with
  | none => rfl
  | some r =>
    have hshort : ∀ (m : Nat) (ps : List (List UInt8)) (r : List UInt8 × List (List UInt8)),
        Segments.takeExact m ps = some r → m ≤ ps.flatten.length := by
      intro m ps
      induction ps generalizing m with
      | nil =>
        intro r hr
        cases m with
        | zero => exact Nat.zero_le _
        | succ m => cases hr
      | cons p ps ih =>
        intro r hr
        cases m with
        | zero => exact Nat.zero_le _
        | succ m =>
          rw [Segments.takeExact] at hr
          rw [flatten_cons, length_append]
          split at hr
          · obtain ⟨r', hr', -⟩ := Option.map_eq_some_iff.1 hr
            have := ih _ r' hr'
            omega
          · omega
    unfold Segments.readExact at hread
    split at hread
    · cases hread
    · rename_i r' hr'
      exact absurd (hshort n body.pieces r' hr') (Nat.not_le.2 h)

theorem or_shift {value shift : Nat} (h : value < 2 ^ shift) (b : Nat) :
    value ||| b <<< shift = value + 2 ^ shift * b := by
  rw [Nat.shiftLeft_eq, Nat.or_comm, Nat.mul_comm b, ← Nat.two_pow_add_eq_or_of_lt h, Nat.add_comm]

theorem readFrameLength_eq : ∀ (turns value shift : Nat) (body : Segments UInt8), turns * 7 + shift = 70 →
    value < 2 ^ shift →
    ((Leb128.groups body.bytes = body.bytes ∨ turns ≤ (Leb128.groups body.bytes).length) →
      (readFrameLength turns value shift body).1 = none) ∧
    ∀ init last rest, body.bytes = init ++ last :: rest → (∀ b ∈ init, Leb128.continues b = true) →
    Leb128.continues last = false →
      init.length < turns → ∃ body', body'.bytes = rest ∧
        readFrameLength turns value shift body =
        (some ((value + 2 ^ shift * Leb128.value (init ++ [last])) % 2 ^ 64), body')
  | 0, value, shift, body, _, _ => ⟨fun _ => rfl, fun _ _ _ _ _ _ h => absurd h (Nat.not_lt_zero _)⟩
  | turns + 1, value, shift, body, hturns, hvalue => by
    rw [readFrameLength]
    cases hbytes : body.bytes with
    | nil =>
      rw [readExact_short (by rw [hbytes]; exact Nat.one_pos)]
      exact ⟨fun _ => rfl, fun init last rest heq => by simp at heq⟩
    | cons b bytes =>
      obtain ⟨body', hread, hbody'⟩ := Segments.readExact_bytes 1 body (by rw [hbytes]; simp)
      rw [hbytes] at hread hbody'
      rw [hread]
      have hbody' : body'.bytes = bytes := hbody'
      have hnext : (value ||| (b.toNat % 128) <<< shift) % 2 ^ 64 =
        (value + 2 ^ shift * (b.toNat % 128)) % 2 ^ 64 := by
        rw [or_shift hvalue]
      dsimp only
      rw [show ((b :: bytes).take 1).headD 0 = b from rfl, hnext]
      by_cases hcontinues : Leb128.continues b = false
      · rw [if_pos hcontinues]
        constructor
        · intro h
          have hgroups : Leb128.groups (b :: bytes) = [] := by
            unfold Leb128.groups
            rw [takeWhile_cons_of_neg (by simp [hcontinues])]
          rw [hgroups] at h
          rcases h with h | h
          · cases h
          · exact absurd h (Nat.not_succ_le_zero _)
        · intro init last rest heq hinit _ _
          cases init with
          | cons c init =>
            rw [cons_append, List.cons.injEq] at heq
            have := hinit c mem_cons_self
            rw [← heq.1, hcontinues] at this
            cases this
          | nil =>
            obtain ⟨rfl, rfl⟩ := heq
            exact ⟨body', hbody', by simp [Leb128.value]⟩
      · rw [if_neg hcontinues]
        have hcontinues : Leb128.continues b = true := by simpa using hcontinues
        have hgroups : Leb128.groups (b :: bytes) = b :: Leb128.groups bytes := by
          unfold Leb128.groups
          rw [takeWhile_cons_of_pos hcontinues]
        rw [hgroups]
        by_cases hlast : 63 ≤ shift
        · rw [if_pos hlast]
          refine ⟨fun _ => rfl, fun init last rest heq hinit hnot hlength => ?_⟩
          have hinit : init = [] := length_eq_zero_iff.1 (by omega)
          subst hinit
          rw [nil_append, List.cons.injEq] at heq
          rw [← heq.1, hcontinues] at hnot
          cases hnot
        · rw [if_neg hlast]
          have hgroup : b.toNat % 128 + 1 ≤ 128 := Nat.mod_lt _ (by decide)
          have hgrown : value + 2 ^ shift * (b.toNat % 128) < 2 ^ (shift + 7) := by
            have := Nat.mul_le_mul_left (2 ^ shift) hgroup
            rw [Nat.pow_add]
            rw [Nat.mul_add, Nat.mul_one] at this
            omega
          have hsmall : (value + 2 ^ shift * (b.toNat % 128)) % 2 ^ 64 = value + 2 ^ shift *
            (b.toNat % 128) := by
            have : 2 ^ (shift + 7) ≤ 2 ^ 64 := Nat.pow_le_pow_right (by decide) (by omega)
            exact Nat.mod_eq_of_lt (by omega)
          rw [hsmall]
          obtain ⟨hnone, hsome⟩ := readFrameLength_eq turns _ (shift + 7) body' (by omega) hgrown
          rw [hbody'] at hnone hsome
          refine ⟨fun h => hnone (h.imp (fun h => (List.cons.inj h).2) fun h => ?_),
            fun init last rest heq hinit hnot hlength => ?_⟩
          · rw [length_cons] at h
            omega
          · cases init with
            | nil =>
              rw [nil_append, List.cons.injEq] at heq
              rw [← heq.1, hcontinues] at hnot
              cases hnot
            | cons c init =>
              rw [cons_append, List.cons.injEq] at heq
              obtain ⟨rfl, heq⟩ := heq
              rw [length_cons] at hlength
              obtain ⟨body'', hrest, hread'⟩ :=
                hsome init last rest heq (fun x hx => hinit x (mem_cons_of_mem _ hx)) hnot (by omega)
              refine ⟨body'', hrest, ?_⟩
              rw [hread', cons_append, Leb128.value, Nat.pow_add]
              congr 3
              rw [Nat.mul_add, Nat.add_assoc, ← Nat.mul_assoc]

end ClashNative.Gun
