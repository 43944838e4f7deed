import ClashNative.RecordWrites
/-!
# StreamWrites — writes of the 2022 stream and of the stream inside of Trojan

`write` of `ss2022_stream.cpp` and `send` of `ss_stream.cpp`.  A write that is cancelled is answered at
once while its records are still on their way, and the write behind it finds no write in progress.
-/
namespace ClashNative.Shadowsocks.Writes

open List

open LegacyStream (ObfsMode)

theorem new_inv {w : Writer} (nonce : Bytes) : WriteInv w { writeNonce := nonce } :=
  ⟨rfl, .inl ⟨rfl, rfl⟩, fun _ => rfl, nofun, nofun⟩

theorem length_appendRecord {sealer : Sealer} {nonce payload sealed nonce' : Bytes}
    (h : appendRecord sealer nonce payload = (some sealed, nonce')) :
    0 < sealed.length := by
  obtain ⟨length, hlength, hpayload⟩ := Option.bind_eq_some_iff.1 (Prod.ext_iff.1 h).1
  obtain ⟨encrypted, -, rfl⟩ := Option.map_eq_some_iff.1 hpayload
  have := sealer.encrypt_length _ _ _ hlength
  rw [Wire.length_putU16] at this
  rw [length_append]
  omega

theorem appendRecords_ne_nil {record : Bytes → Bytes → Option Bytes × Bytes}
    (hrecord : ∀ nonce payload sealed nonce', record nonce payload = (some sealed, nonce') →
      0 < sealed.length) {nonce data wire : Bytes} {n : Nat}
    (hdata : data ≠ []) (h : (appendRecords record (n + 1) nonce data).1 = some wire) : wire ≠ [] := by
  unfold appendRecords at h
  rw [if_neg hdata] at h
  split at h
  · cases h
  · rename_i head nonce' hhead
    obtain ⟨tail, -, rfl⟩ := Option.map_eq_some_iff.1 h
    have hpos := hrecord _ _ _ _ hhead
    intro hnil
    rw [(append_eq_nil_iff.1 hnil).1] at hpos
    cases hpos

/-! ## The 2022 stream -/

namespace Ss2022

def encryptRecord (sealer : Sealer) (nonce payload : Bytes) : Option Bytes × Bytes :=
  if payload = [] ∨ kMaxChunkPayload < payload.length then (none, nonce) else appendRecord sealer nonce payload

def encoded (sealer : Sealer) (s : WriteState) (data : Bytes) : Option Bytes × Bytes :=
  appendRecords (encryptRecord sealer) data.length s.writeNonce data

def write (sealer : Sealer) (s : WriteState) (data : Bytes) : WriteState :=
  if s.writeInProgress then s.post data (.error .alreadyStarted)
  else if data = [] then s.post data (.ok 0)
  else
    match encoded sealer s data with
    | (none, nonce) => { s with writeNonce := nonce }.post data (.error .operationNotSupported)
    | (some wire, nonce) => { s with writeNonce := nonce }.startWrite data wire

/-- A write of obfs records tells of no error but one; `close` leaves the writes to the lower stream. -/
def writer (mode : ObfsMode) (sealer : Sealer) : Writer where
  wire s data := if data = [] then none else (encoded sealer s data).1
  write := write sealer
  size _ lower := lower.size
  failure e := if mode = .tls then .fault else e
  close s := s

theorem writer_lawful (mode : ObfsMode) (sealer : Sealer) : (writer mode sealer).Lawful where
  size _ _ _ := rfl
  close _ := .inl rfl
  write s data := by
    show (∃ wire nonce salt, _ ∧ (if data = [] then none else (encoded sealer s data).1) = some wire ∧
      write sealer s data = _) ∨
      ∃ result nonce salt, (_ → (if data = [] then none else (encoded sealer s data).1) = none) ∧ _ ∧
      write sealer s data = _
    unfold write
    by_cases hbusy : s.writeInProgress = true
    · refine .inr ⟨.error .alreadyStarted, s.writeNonce, s.saltWritten, fun hfree => ?_,
        fun n hn => (nomatch hn), if_pos hbusy⟩
      rw [hbusy] at hfree
      cases hfree
    · rw [if_neg hbusy]
      by_cases hdata : data = []
      · refine .inr ⟨.ok 0, s.writeNonce, s.saltWritten, fun _ => if_pos hdata,
          fun n hn => ⟨(Except.ok.inj hn).symm, hdata⟩, if_pos hdata⟩
      · rw [if_neg hdata, if_neg hdata]
        rcases hencoded : encoded sealer s data with ⟨wire, nonce⟩
        cases wire with
        | none => exact .inr ⟨.error .operationNotSupported, nonce, s.saltWritten, fun _ => rfl,
          fun n hn => (nomatch hn), rfl⟩
        | some wire => exact .inl ⟨wire, nonce, s.saltWritten, by simpa using hbusy, rfl, rfl⟩

end Ss2022

/-! ## The stream inside of Trojan -/

namespace TrojanSs

def sealed (sealer : Sealer) (salt : Bytes) (s : WriteState) (data : Bytes) : Option Bytes × Bytes :=
  let records := appendRecords (appendRecord sealer) data.length s.writeNonce data
  (records.1.map fun records => (if s.saltWritten then [] else salt) ++ records, records.2)

def send (sealer : Sealer) (salt : Bytes) (s : WriteState) (data : Bytes) : WriteState :=
  if s.closed then s.post data (.error .operationAborted)
  else if s.writeInProgress then s.post data (.error .alreadyStarted)
  else
    match sealed sealer salt s data with
    | (none, nonce) => { s with saltWritten := true, writeNonce := nonce }.post data (.error .protocolError)
    | (some wire, nonce) =>
      if wire = [] then { s with saltWritten := true, writeNonce := nonce }.post data (.ok 0)
      else { s with saltWritten := true, writeNonce := nonce }.startWrite data wire

def close (s : WriteState) : WriteState :=
  if s.closed then s else { s with closed := true }.finishWrite (.error .operationAborted)

theorem data_of_empty {sealer : Sealer} {salt nonce : Bytes} {s : WriteState} {data : Bytes}
    (h : sealed sealer salt s data = (some [], nonce)) : data = [] := by
  by_contra hdata
  obtain ⟨records, hrecords, hnil⟩ := Option.map_eq_some_iff.1 (Prod.ext_iff.1 h).1
  obtain ⟨n, hn⟩ : ∃ n, data.length = n + 1 := Nat.exists_eq_succ_of_ne_zero fun hzero =>
    hdata (length_eq_zero_iff.1 hzero)
  rw [hn] at hrecords
  exact appendRecords_ne_nil (fun _ _ _ _ => length_appendRecord) hdata hrecords (append_eq_nil_iff.1 hnil).2

/-- `send_size_` is the size of the last write that was parked. -/
def writer (sealer : Sealer) (salt : Bytes) : Writer where
  wire s data := if s.closed then none else (sealed sealer salt s data).1.filter (· ≠ [])
  write := send sealer salt
  size s _ := s.sendSize
  failure e := e
  close := close

theorem writer_lawful (sealer : Sealer) (salt : Bytes) : (writer sealer salt).Lawful where
  size _ _ h := h
  close s := by
    show close s = s ∨ close s = _
    unfold close
    split
    · exact .inl rfl
    · exact .inr rfl
  write s data := by
    show (∃ wire nonce written, _ ∧ (if s.closed then none else
      (sealed sealer salt s data).1.filter (· ≠ [])) = some wire ∧
        send sealer salt s data = _) ∨
      ∃ result nonce written, (_ → (if s.closed then none else
        (sealed sealer salt s data).1.filter (· ≠ [])) = none) ∧ _ ∧
        send sealer salt s data = _
    unfold send
    by_cases hclosed : s.closed = true
    · exact .inr ⟨.error .operationAborted, s.writeNonce, s.saltWritten, fun _ => if_pos hclosed,
        fun n hn => (nomatch hn), if_pos hclosed⟩
    · rw [if_neg hclosed, if_neg hclosed]
      by_cases hbusy : s.writeInProgress = true
      · refine .inr ⟨.error .alreadyStarted, s.writeNonce, s.saltWritten, fun hfree => ?_,
          fun n hn => (nomatch hn), if_pos hbusy⟩
        rw [hbusy] at hfree
        cases hfree
      · rw [if_neg hbusy]
        rcases hsealed : sealed sealer salt s data with ⟨wire, nonce⟩
        cases wire with
        | none => exact .inr ⟨.error .protocolError, nonce, true, fun _ => rfl, fun n hn => (nomatch hn), rfl⟩
        | some wire =>
          by_cases hwire : wire = []
          · refine .inr ⟨.ok 0, nonce, true, fun _ => ?_, fun n hn => ⟨(Except.ok.inj hn).symm, ?_⟩,
              if_pos hwire⟩
            · rw [hwire]
              rfl
            · exact data_of_empty (hwire ▸ hsealed)
          · refine .inl ⟨wire, nonce, true, by simpa using hbusy, ?_, if_neg hwire⟩
            rw [Option.filter_some, if_pos (by simpa using hwire)]

end TrojanSs

/-! ## The two streams -/

def exampleSealer : Sealer where
  overhead := 16
  encrypt _ plaintext := some (plaintext ++ List.replicate 16 0)
  encrypt_length _ plaintext encrypted h := by
    rw [← Option.some.inj h, List.length_append, List.length_replicate]

/-- A write is cancelled while its records are on their way, and the next one starts beside it; the 2022
stream answers the second with the size of the first. -/
theorem cancelled_write_inherited :
    ¬ (∀ pre, pre <+: [.write [1, 2], .cancelWrite, .write [3], .complete 0 none] →
      Answered (Ss2022.writer .none exampleSealer)
      (Runs.run (Ss2022.writer .none exampleSealer).step { writeNonce := [0] } pre)) ∧
    ¬ (∀ pre, pre <+: [.write [1, 2], .cancelWrite, .write [3], .complete 0 none] →
      Answered (TrojanSs.writer exampleSealer [9])
        (Runs.run (TrojanSs.writer exampleSealer [9]).step { writeNonce := [0] } pre)) := by
  refine ⟨fun h => ?_, fun h => ?_⟩
  · exact absurd (h [.write [1, 2], .cancelWrite, .write [3]] (by decide)).single (by decide +kernel)
  · exact absurd (h [.write [1, 2], .cancelWrite, .write [3]] (by decide)).single (by decide +kernel)

/-- **Writes are answered as they went** in exactly the runs in which every write that reaches the lower
stream finds no other there. -/
theorem writes_answered_iff (mode : ObfsMode) (sealer : Sealer) (salt nonce : Bytes) (events : List WriteEvent) :
    ((∀ pre, pre <+: events →
        Answered (Ss2022.writer mode sealer)
        (Runs.run (Ss2022.writer mode sealer).step { writeNonce := nonce } pre)) ↔
      Runs.Along (Ss2022.writer mode sealer).step (Clear (Ss2022.writer mode sealer))
        { writeNonce := nonce } events) ∧
    ((∀ pre, pre <+: events →
        Answered (TrojanSs.writer sealer salt)
          (Runs.run (TrojanSs.writer sealer salt).step { writeNonce := nonce } pre)) ↔
      Runs.Along (TrojanSs.writer sealer salt).step (Clear (TrojanSs.writer sealer salt))
        { writeNonce := nonce } events) :=
  ⟨(Ss2022.writer_lawful mode sealer).answered_iff (new_inv nonce) events,
    (TrojanSs.writer_lawful sealer salt).answered_iff (new_inv nonce) events⟩

end ClashNative.Shadowsocks.Writes
