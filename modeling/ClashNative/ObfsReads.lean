import ClashNative.HttpText
import ClashNative.SimpleObfs
/-!
# ObfsReads — the readers of the obfs layer, a piece at a time

`TlsObfsRead` and `HttpObfsResponse` of `simple_obfs.cpp` as the pieces come: what they have, how much the
next read may take at most, and what they make of it.  Whatever the pieces are, a reader gives what the
server framed.
-/
namespace ClashNative.SimpleObfs

open List

open Wire (putU16 getU16)
open Http (ascii breakOn)

inductive Turn
  | more
  | failed
  | done (payload : Bytes)
  deriving DecidableEq, Repr

/-! ### `TlsObfsRead` -/

def discardSize (firstResponse : Bool) : Nat := if firstResponse then 105 else 3

def expectedHeader (firstResponse : Bool) : Bytes :=
  if firstResponse then [0x16, 0x03, 0x01] else [0x17, 0x03, 0x03]

/-- Where its next read ends at the latest: behind the discarded bytes, the length, the payload. -/
def tlsWant (firstResponse : Bool) (taken : Bytes) : Nat :=
  if taken.length < discardSize firstResponse then discardSize firstResponse
  else if taken.length < discardSize firstResponse + 2 then discardSize firstResponse + 2
  else discardSize firstResponse + 2 + getU16 (taken.drop (discardSize firstResponse))

def tlsTurn (firstResponse : Bool) (taken : Bytes) : Turn :=
  if taken.length < discardSize firstResponse then .more
  else if taken.take 3 ≠ expectedHeader firstResponse then .failed
  else if taken.length < discardSize firstResponse + 2 then .more
  else if getU16 (taken.drop (discardSize firstResponse)) = 0 then .failed
  else if taken.length < discardSize firstResponse + 2 + getU16
    (taken.drop (discardSize firstResponse)) then .more
  else .done (taken.drop (discardSize firstResponse + 2))

/-! ### `HttpObfsResponse` -/

def kMaxResponseHeaderSize : Nat := 64 * 1024

def kReadBuffer : Nat := 8192

def crlf : Bytes := [13, 10]

def delimiter : Bytes := [13, 10, 13, 10]

def switches (headers : Bytes) : Bool :=
  match breakOn crlf headers with
  | none => false
  | some (line, _) => (ascii "HTTP/1.1 101").isPrefixOf line

def httpTurn (response : Bytes) : Turn :=
  if kMaxResponseHeaderSize < response.length then .failed
  else match breakOn delimiter response with
    | none => .more
    | some (lines, remainder) => if switches (lines ++ delimiter) then .done remainder else .failed

/-! ### What the server frames -/

structure TlsHead (firstResponse : Bool) where
  bytes : Bytes
  size : bytes.length = discardSize firstResponse
  header : bytes.take 3 = expectedHeader firstResponse

def Framable (payload : Bytes) : Prop := 0 < payload.length ∧ payload.length < 65536

instance (payload : Bytes) : Decidable (Framable payload) := inferInstanceAs (Decidable (_ ∧ _))

def TlsHead.frame {firstResponse : Bool} (head : TlsHead firstResponse) (payload : Bytes) : Bytes :=
  head.bytes ++ (putU16 payload.length ++ payload)

def recordHead : TlsHead false := ⟨[0x17, 0x03, 0x03], rfl, rfl⟩

/-- The response of an HTTP server that switches protocols; a read behind it still fits. -/
structure HttpHead where
  bytes : Bytes
  lines : Bytes
  ended : breakOn delimiter bytes = some (lines, [])
  switching : switches (lines ++ delimiter) = true
  size : bytes.length + kReadBuffer ≤ kMaxResponseHeaderSize + 1

/-! ### What the readers make of it -/

variable {firstResponse : Bool} {head : TlsHead firstResponse} {taken raw payload rest : Bytes}

theorem behind_head (h : taken ++ raw = head.frame payload ++ rest)
    (hle : discardSize firstResponse ≤ taken.length) :
    taken.take 3 = expectedHeader firstResponse ∧
      taken.drop (discardSize firstResponse) ++ raw = putU16 payload.length ++ (payload ++ rest) := by
  have hthree : 3 ≤ discardSize firstResponse := by
    cases firstResponse <;> decide
  rw [TlsHead.frame, append_assoc, append_assoc] at h
  constructor
  · have htake := congrArg (List.take 3) h
    rw [take_append_of_le_length (by omega),
      take_append_of_le_length (by rw [head.size]; exact hthree), head.header] at htake
    exact htake
  · have hdrop := congrArg (List.drop (discardSize firstResponse)) h
    rw [drop_append_of_le_length hle] at hdrop
    rw [hdrop, ← head.size, drop_left]

theorem behind_length (hlt : payload.length < 65536) (h : taken ++ raw = head.frame payload ++ rest)
    (hle : discardSize firstResponse + 2 ≤ taken.length) :
    getU16 (taken.drop (discardSize firstResponse)) = payload.length ∧
    taken.drop (discardSize firstResponse + 2) ++ raw = payload ++ rest := by
  obtain ⟨-, hbehind⟩ := behind_head h (by omega)
  have hsize : 2 ≤ (taken.drop (discardSize firstResponse)).length := by
    rw [length_drop]
    omega
  have hdrop := congrArg (List.drop 2) hbehind
  rw [drop_append_of_le_length hsize, drop_drop] at hdrop
  have htake := congrArg (List.take 2) hbehind
  rw [take_append_of_le_length hsize] at htake
  have hlength : taken.drop (discardSize firstResponse) = putU16 payload.length ++
    (taken.drop (discardSize firstResponse)).drop 2 := by
    rw [← take_append_drop 2 (taken.drop (discardSize firstResponse)), htake]
    rfl
  refine ⟨?_, hdrop⟩
  rw [hlength]
  exact Wire.getU16_putU16_append hlt _

theorem frame_length (head : TlsHead firstResponse) (payload : Bytes) :
    (head.frame payload).length = discardSize firstResponse + 2 + payload.length := by
  rw [TlsHead.frame, length_append, length_append, head.size, Wire.length_putU16]
  omega

theorem tlsTurn_of_append (hpayload : Framable payload) (h : taken ++ raw = head.frame payload ++ rest)
    (hle : taken.length ≤ (head.frame payload).length) :
    tlsTurn firstResponse taken =
      if taken.length < (head.frame payload).length then .more else .done payload := by
  obtain ⟨hpos, hlt⟩ := hpayload
  rw [frame_length] at hle ⊢
  unfold tlsTurn
  by_cases hhead : taken.length < discardSize firstResponse
  · rw [if_pos hhead, if_pos (by omega)]
  · obtain ⟨hheader, -⟩ := behind_head h (Nat.le_of_not_lt hhead)
    rw [if_neg hhead, if_neg (not_not.2 hheader)]
    by_cases hlength : taken.length < discardSize firstResponse + 2
    · rw [if_pos hlength, if_pos (by omega)]
    · obtain ⟨hget, hrest⟩ := behind_length hlt h (Nat.le_of_not_lt hlength)
      rw [if_neg hlength, hget, if_neg (by omega)]
      by_cases hmore : taken.length < discardSize firstResponse + 2 + payload.length
      · rw [if_pos hmore, if_pos hmore]
      · rw [if_neg hmore, if_neg hmore]
        have hsize : (taken.drop (discardSize firstResponse + 2)).length = payload.length := by
          rw [length_drop]
          omega
        rw [(append_inj hrest hsize).1]

theorem tlsWant_of_append (hpayload : Framable payload) (h : taken ++ raw = head.frame payload ++ rest)
    (hlt : taken.length < (head.frame payload).length) :
    taken.length < tlsWant firstResponse taken ∧ tlsWant firstResponse taken ≤ (head.frame payload).length := by
  obtain ⟨hpos, hsize⟩ := hpayload
  rw [frame_length] at hlt ⊢
  unfold tlsWant
  split
  · omega
  · split
    · omega
    · rename_i hlength
      rw [(behind_length hsize h (Nat.le_of_not_lt hlength)).1]
      omega

theorem httpTurn_of_append {head : HttpHead} (h : taken ++ raw = head.bytes ++ rest)
    (hfits : taken.length ≤ kMaxResponseHeaderSize) :
    httpTurn taken = if taken.length < head.bytes.length then .more else
    .done (taken.drop head.bytes.length) := by
  have htaken : taken <+: head.bytes ++ rest := ⟨raw, h⟩
  have hiff := Http.breakOn_isSome_iff (by decide) ⟨head.lines, head.ended⟩ htaken (prefix_append _ _)
  unfold httpTurn
  rw [if_neg (by omega)]
  by_cases hlt : taken.length < head.bytes.length
  · have hnone : breakOn delimiter taken = none := by
      rw [← Option.not_isSome_iff_eq_none, hiff]
      intro hfront
      have hle := hfront.length_le
      omega
    rw [if_pos hlt, hnone]
  · obtain ⟨remainder, rfl⟩ := prefix_of_prefix_length_le (prefix_append head.bytes rest) htaken
      (Nat.le_of_not_lt hlt)
    rw [if_neg hlt, Http.breakOn_append (by decide) remainder head.ended, drop_left]
    dsimp only
    rw [if_pos head.switching, nil_append]

end ClashNative.SimpleObfs
