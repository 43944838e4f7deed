import ClashNative.LegacyCancels
import ClashNative.Ss2022Stream
import ClashNative.TrojanSsStream
/-!
# CancelledReads — cancelled reads of the Shadowsocks streams

What each of the three streams needs for a cancelled read to lose nothing.
-/
namespace ClashNative.Shadowsocks

/-! ### Servers for examples -/

def exampleSalt : Bytes := List.replicate 16 5

def exampleConfig (mode : LegacyStream.ObfsMode) : Ss2022.Config Bytes := ⟨mode, tagMethod, []⟩

def exampleServer : Server tagMethod where
  salt := exampleSalt
  key := exampleSalt
  payloads := [[1, 2], [3]]
  salt_length := rfl
  derive_salt := rfl
  payload_size payload hpayload := by
    rcases List.mem_cons.1 hpayload with rfl | hrest
    · decide
    · rw [List.mem_singleton.1 hrest]
      decide

def exampleServer2022 (mode : LegacyStream.ObfsMode) : Ss2022.Server (exampleConfig mode) where
  toServer := exampleServer
  timestamp := List.replicate 8 0
  head := []
  timestamp_length := rfl
  head_length := by decide

def exampleCipher : Wire.StreamCipher UInt8 := ⟨1, fun _ => 0, fun k b => (k + 1, b + k)⟩

def exampleLegacy : LegacyStream.Server where
  initialWire := []
  carrier := ⟨[[9], [5], [7]], by decide⟩
  fails := false
  initialWire_le := by decide
  carrier_le := by decide

/-! ## The streams -/

/-- A cancelled read and the one behind it read the records of the 2022 stream side by side, and one
overwrites what the other has left; the stream inside of Trojan drops a record that comes for nobody, and
then reports the end of file; the legacy stream drops ciphertext, and deciphers what follows as if it had
not been there. -/
theorem cancelled_reads_lose :
    ¬ Intact (exampleServer2022 .none).plaintext (Ss2022.run (exampleConfig .none) (exampleServer2022 .none) 0
      [.read 1, .complete 0 16, .complete 0 27, .complete 0 18, .cancelRead, .read 1, .complete 0 18,
        .complete 0 18, .complete 0 17, .read 1]) ∧
    ¬ Intact exampleServer.payloads.flatten (TrojanSs.run exampleServer
      [.read 2, .complete 0 16, .complete 0 18, .complete 0 18, .read 1, .complete 0 18, .cancelRead,
        .complete 0 17, .read 1,
        .complete 0 1]) ∧
    ¬ LegacyStream.Intact ⟨.none, some exampleCipher⟩ exampleLegacy
    (Runs.run (LegacyStream.cancelStep ⟨.none, some exampleCipher⟩)
      (LegacyStream.start ⟨.none, some exampleCipher⟩ exampleLegacy)
      [.run (.read 1), .run (.complete 0), .cancelRead, .run (.complete 0), .run (.read 1),
        .run (.complete 0)]) := by
  refine ⟨fun h => ?_, fun h => ?_, fun h => ?_⟩
  · exact absurd h.in_order (by decide +kernel)
  · exact absurd (h.whole 2 (by decide +kernel) (by decide +kernel)) (by decide +kernel)
  · exact absurd h.in_order (by decide +kernel)

/-- **Cancelled reads lose nothing** in the runs that meet the condition of their stream. -/
theorem cancelled_reads_intact {κ ι : Type} (c : Ss2022.Config κ) (server2022 : Ss2022.Server c)
    (initial : Nat) {method : CipherMethod κ}
    (inside : Server method) (before after : List Event) (legacy : LegacyStream.Config ι)
    (server : LegacyStream.Server)
    (legacyBefore legacyAfter : List LegacyStream.CancelEvent) :
    (Runs.Along (Ss2022.reader c).step Alone (Ss2022.start c server2022 initial) (before ++ after) →
      Intact server2022.plaintext (Ss2022.run c server2022 initial before)) ∧
    (Runs.Along (TrojanSs.step method) TrojanSs.Served (TrojanSs.start inside) (before ++ after) →
      Intact inside.payloads.flatten (TrojanSs.run inside before)) ∧
    (Runs.Along (LegacyStream.cancelStep legacy) (LegacyStream.Served legacy)
      (LegacyStream.start legacy server) (legacyBefore ++ legacyAfter) →
      LegacyStream.Intact legacy server (Runs.run (LegacyStream.cancelStep legacy)
        (LegacyStream.start legacy server) legacyBefore)) := by
  refine ⟨fun halone => ?_, fun hserved => ?_, fun hserved => ?_⟩
  · exact Ss2022.reader_lawful.intact (Ss2022.start_inv server2022 initial) before after halone
  · exact TrojanSs.intact inside before after hserved
  · exact LegacyStream.intact_of_served legacy server legacyBefore legacyAfter hserved

/-- A read of each stream is cancelled, and what comes is read on: behind the header of the response;
late, when its bytes are there, and before the end; before the IV. -/
theorem cancelled_reads_intact_once :
    let s := Ss2022.run (exampleConfig .none) (exampleServer2022 .none) 0
      [.read 1, .complete 0 16, .complete 0 27, .cancelRead, .complete 0 18, .complete 0 18, .read 1, .read 1]
    let t := TrojanSs.run exampleServer [.read 1, .complete 0 16, .complete 0 18, .complete 0 18,
      .cancelRead, .read 1, .read 1, .cancelRead,
      .lowerFails, .complete 0 1]
    let u := Runs.run (LegacyStream.cancelStep ⟨.none, some exampleCipher⟩)
      (LegacyStream.start ⟨.none, some exampleCipher⟩ exampleLegacy)
      [.run (.read 1), .cancelRead, .run (.complete 0), .run (.complete 0), .run (.read 1), .run (.complete 0)]
    (Intact (exampleServer2022 .none).plaintext s ∧ s.delivered = [1, 2]) ∧
    (Intact exampleServer.payloads.flatten t ∧ t.delivered = [1, 2]) ∧
      LegacyStream.Intact ⟨.none, some exampleCipher⟩ exampleLegacy u ∧ u.delivered = [5] := by
  have h (before : List Event) (legacyBefore : List LegacyStream.CancelEvent) :=
    cancelled_reads_intact (exampleConfig .none)
    (exampleServer2022 .none) 0 exampleServer before [] ⟨.none, some exampleCipher⟩ exampleLegacy legacyBefore []
  refine ⟨⟨(h _ []).1 ⟨fun _ _ _ => rfl, trivial, trivial, trivial, trivial, trivial, fun _ _ hleft => ?_,
    fun _ _ hleft => ?_, trivial⟩,
      by decide +kernel⟩,
    ⟨(h _ []).2.1 ⟨fun _ _ _ => rfl, fun _ _ _ _ hgone => ?_, fun _ _ _ _ hgone => ?_,
      fun _ _ _ _ hgone => ?_, trivial,
      fun _ _ hleft => ?_, fun _ _ _ => ?_, trivial, trivial, fun _ _ _ _ _ hopen =>
      ?_, trivial⟩, by decide +kernel⟩,
    (h [] _).2.2 ⟨⟨rfl, fun _ _ => ⟨rfl, rfl⟩⟩, ⟨rfl, trivial⟩, ⟨rfl, fun _ hop _ => nomatch hop⟩,
      ⟨rfl, fun _ hop _ => .inl (by cases hop; rfl)⟩, ⟨rfl, fun _ _ => by decide +kernel⟩,
      ⟨rfl, fun _ _ hgone => ?_⟩, trivial⟩,
    by decide +kernel⟩
  · exact absurd hleft (by decide +kernel)
  · exact absurd hleft (by decide +kernel)
  · exact absurd hgone (by decide +kernel)
  · exact absurd hgone (by decide +kernel)
  · exact absurd hgone (by decide +kernel)
  · exact absurd hleft (by decide +kernel)
  · rfl
  · exact absurd hopen (by decide +kernel)
  · exact absurd hgone (by decide +kernel)

end ClashNative.Shadowsocks
