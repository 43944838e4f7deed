import ClashNative.ClassicWrites
import ClashNative.StreamTruncation
import ClashNative.StreamWrites
/-!
# ClassicCancels — a classic AEAD stream under cancellation

`cancel_read` lets the chain of reads go on that the cancelled read has started, and the next read starts
a chain of its own beside it; `cancel_write` does not reach the write.  Reads and writes of a stream share
the carrier only.
-/
namespace ClashNative.Shadowsocks.Classic

open List

variable {κ : Type}

structure Stream (κ : Type) where
  reads : State κ
  writes : ClassicWrites.State

inductive StreamEvent
  | reads (e : Event)
  | writes (e : ClassicWrites.Event)
  deriving DecidableEq, Repr

def streamStep (c : Config κ) (sealer : Writes.Sealer) (s : Stream κ) : StreamEvent → Stream κ
  | .reads e => { s with reads := (reader c).step s.reads e }
  | .writes e => { s with writes := ClassicWrites.step sealer s.writes e }

def openStream (c : Config κ) (sealer : Writes.Sealer) (server : Server c.method) (initial : Nat)
    (address : Bytes) : Stream κ where
  reads := start server initial
  writes := (ClassicWrites.openStream sealer c.method.nonceSize address).2

/-- **What is owed under cancellation**: one chain of reads at a time, no byte of the server lost, and
writes as they are owed. -/
structure Unharmed (P : Bytes) (s : Stream κ) : Prop where
  single : s.reads.ops.length ≤ 1
  intact : Intact P s.reads
  kept : ClassicWrites.Kept s.writes

/-- **The condition**: a read that wants bytes of the carrier finds no chain of reads there, and a write
that finds none waiting finds no carrier write there. -/
def Clear (s : Stream κ) : StreamEvent → Prop
  | .reads e => Alone s.reads e
  | .writes e => ClassicWrites.Clear s.writes e

/-! ### One chain at a time -/

section Single

variable {r : Reader κ} {known : Stage → Prop} {s s' : State κ}

theorem settles_single {fits : State κ → Op → Prop} (h : Settles fits s s')
    (hops : s.ops = []) : s'.ops.length ≤ 1 := by
  rcases h.ops with ⟨hsame, -⟩ | ⟨op, -, hnew⟩
  · rw [hsame, hops]
    exact Nat.zero_le 1
  · rw [hnew, hops]
    exact Nat.le_refl 1

theorem read_single (hr : r.Settling known) (size : Nat) (hle : s.ops.length ≤ 1)
    (halone : Alone s (.read size)) :
    (r.read s size).ops.length ≤ 1 := by
  unfold Reader.read
  split
  · exact hle
  · rename_i hfree
    split
    · exact hle
    · rename_i hsize
      split
      · exact hle
      · rename_i hpending
        have hops : s.ops = [] := halone (by simpa using hfree) hsize (by simpa using hpending)
        split
        · rw [State.start, State.park, hops]
          exact Nat.le_refl 1
        · exact settles_single (hr.receive (s.park size)) hops

theorem finishRead_ops (s : State κ) (result : Except StreamError Bytes) :
    (s.finishRead result).ops = s.ops := rfl

theorem complete_single (hr : r.Settling known) (hops : s.ops = [])
    (hparked : s.readHandler.isSome = s.readInProgress) {op : Op}
    (hfits : Fits known s op) (n : Nat) : (r.complete s n op).ops.length ≤ 1 := by
  cases op with
  | obfsResponse =>
    show (r.obfsResponse s n).ops.length ≤ 1
    unfold Reader.obfsResponse
    split
    · show ((s.lowerFails .eof).finishRead _).ops.length ≤ 1
      rw [finishRead_ops, State.lowerFails, hops]
      exact Nat.zero_le 1
    · exact settles_single (hr.receiveSalt _) hops
  | carrier stage size got =>
    show (r.carrierRead s stage size got n).ops.length ≤ 1
    unfold Reader.carrierRead
    split
    · rename_i e s' hlower
      rw [lowerRead_error hlower, finishRead_ops, hops]
      exact Nat.zero_le 1
    · rename_i chunk s' hlower
      obtain ⟨-, -, -, wire, -, rfl⟩ := lowerRead_ok hlower
      split
      · exact settles_single (hr.received { s with wire := wire } stage _ hfits.1 hfits.2 hparked) hops
      · rw [State.start, hops]
        exact Nat.le_refl 1
  | obfsRecord stage size copied =>
    show (r.obfsRecord s stage size copied n).ops.length ≤ 1
    unfold Reader.obfsRecord
    split
    · rename_i e s' hlower
      rw [lowerRead_error hlower, finishRead_ops, hops]
      exact Nat.zero_le 1
    · rename_i payload s' hlower
      obtain ⟨-, -, -, wire, -, rfl⟩ := lowerRead_ok hlower
      exact settles_single (readExactTls_settles { s with wire := wire, initialWire := payload }
        hfits.1 hfits.2) hops
  | exact stage bytes => exact settles_single (hr.received s stage bytes hfits.1 hfits.2 hparked) hops

theorem step_single (hr : r.Settling known) (e : Event) {boundary : Nat → Prop} {total : Nat}
    (h : Settled (Fits known) boundary total s)
    (hle : s.ops.length ≤ 1) (halone : Alone s e) : (r.step s e).ops.length ≤ 1 := by
  cases e with
  | read size => exact read_single hr size hle halone
  | cancelRead =>
    show s.cancelRead.ops.length ≤ 1
    unfold State.cancelRead
    split
    · exact hle
    · exact hle
  | close => exact hle
  | lowerFails => exact hle
  | complete i n =>
    cases hop : s.ops[i]? with
    | none =>
      rw [Reader.step_complete_none hop]
      exact hle
    | some op =>
      rw [Reader.step_complete hop]
      have hnil : s.ops.eraseIdx i = [] := by
        have hlength := length_eraseIdx_of_lt (List.getElem?_eq_some_iff.1 hop).1
        exact length_eq_zero_iff.1 (by omega)
      exact complete_single hr (s := { s with ops := s.ops.eraseIdx i }) hnil h.parked
        (fits_keyed known s _ op (fun h => h) (h.fits op (mem_of_getElem? hop))) n

theorem step_beside {c : Config κ} (e : Event) (hnot : ¬ Alone s e) :
    ¬ ((reader c).step s e).ops.length ≤ 1 := by
  cases e with
  | read size =>
    unfold Alone at hnot
    push Not at hnot
    obtain ⟨hfree, hsize, hpending, hops⟩ := hnot
    have hone := length_pos_iff.2 hops
    have hexact : ∀ (t : State κ) stage size, (t.readExact c.mode stage size).ops.length = t.ops.length + 1 := by
      intro t stage size
      unfold State.readExact
      split
      · unfold State.readExactTls
        dsimp only
        split <;> simp [State.start]
      · dsimp only
        split <;> simp [State.start]
    show ¬ ((reader c).read s size).ops.length ≤ 1
    unfold Reader.read
    rw [if_neg (by simp [hfree]), if_neg hsize, if_neg (by simp [hpending])]
    split
    · simp only [State.start, State.park, length_append, length_singleton]
      omega
    · show ¬ (if (s.park size).readKey.isNone then receiveSalt c (s.park size) else
        receiveLength c (s.park size)).ops.length ≤ 1
      have hpark : (s.park size).ops = s.ops := rfl
      split
      · rw [receiveSalt, hexact, hpark]
        omega
      · rw [receiveLength, hexact, hpark]
        omega
  | cancelRead => exact absurd trivial hnot
  | close => exact absurd trivial hnot
  | lowerFails => exact absurd trivial hnot
  | complete i n => exact absurd trivial hnot

end Single

/-! ### Runs -/

section Runs

variable {c : Config κ} {server : Server c.method} {sealer : Writes.Sealer}

structure StreamInv (server : Server c.method) (s : Stream κ) : Prop where
  single : s.reads.ops.length ≤ 1
  settled : Settled (Fits Plainly) (fun _ => True) 0 s.reads
  inv : Inv (Ahead server) (entry c) server.payloads.flatten s.reads
  writes : ClassicWrites.WriteInv s.writes

theorem endsWhole_true (s : State κ) (e : Event) : EndsWhole (fun _ => False) (fun _ => True) 0 s e := by
  cases e with
  | complete i n => exact fun _ _ _ _ _ _ => .inr trivial
  | read size => trivial
  | cancelRead => trivial
  | close => trivial
  | lowerFails => trivial

theorem streamStep_inv (s : Stream κ) (e : StreamEvent) (h : StreamInv server s) (hclear : Clear s e) :
    StreamInv server (streamStep c sealer s e) := by
  cases e with
  | reads e =>
    exact ⟨step_single (reader_settling c) e h.settled h.single hclear,
      Reader.step_settled (reader_settling c) s.reads e h.settled (endsWhole_true s.reads e),
      step_inv reader_lawful s.reads e h.inv hclear, h.writes⟩
  | writes e => exact { h with writes := ClassicWrites.step_inv s.writes e h.writes hclear }

theorem streamStep_harmed (s : Stream κ) (e : StreamEvent) (h : StreamInv server s) (hclear : ¬ Clear s e) :
    ¬ Unharmed server.payloads.flatten (streamStep c sealer s e) := by
  intro hunharmed
  cases e with
  | reads e => exact step_beside e hclear hunharmed.single
  | writes e => exact ClassicWrites.step_refused s.writes e h.writes hclear hunharmed.kept

/-- **A stream is unharmed by cancellation** in exactly the runs in which reads are alone on the carrier,
and writes as well. -/
theorem unharmed_iff (c : Config κ) (sealer : Writes.Sealer) (server : Server c.method) (initial : Nat)
    (address : Bytes)
    (events : List StreamEvent) :
    (∀ pre, pre <+: events →
      Unharmed server.payloads.flatten (Runs.run (streamStep c sealer)
        (openStream c sealer server initial address) pre)) ↔
    Runs.Along (streamStep c sealer) Clear (openStream c sealer server initial address) events := by
  have hnew : StreamInv server (openStream c sealer server initial address) :=
    ⟨Nat.zero_le 1, new_settled rfl rfl rfl rfl, start_inv server initial, ClassicWrites.new_inv _⟩
  exact Runs.forall_prefix_iff_along (fun _ hs => ⟨hs.single, hs.inv.intact, hs.writes.toKept⟩)
    streamStep_inv streamStep_harmed hnew events

/-- A read is cancelled before its salt has come, and the next one starts beside it; a write is cancelled
on its way, and the next one is turned away. -/
theorem cancelled_stream_harmed :
    ¬ Unharmed exampleServer.payloads.flatten (Runs.run (streamStep ⟨.none, tagMethod⟩ Writes.exampleSealer)
      (openStream ⟨.none, tagMethod⟩ Writes.exampleSealer exampleServer 0 [1, 127, 0, 0, 1, 0, 80])
      [.reads (.read 1), .reads .cancelRead, .reads (.read 1)]) ∧
    ¬ Unharmed exampleServer.payloads.flatten (Runs.run (streamStep ⟨.none, tagMethod⟩ Writes.exampleSealer)
      (openStream ⟨.none, tagMethod⟩ Writes.exampleSealer exampleServer 0 [1, 127, 0, 0, 1, 0, 80])
      [.writes (.write [5]), .writes .cancelWrite, .writes (.write [6])]) := by
  refine ⟨fun h => ?_, fun h => ?_⟩
  · exact absurd h.single (by decide +kernel)
  · exact absurd (h.kept.accepted 1 (by decide +kernel)) (by decide +kernel)

end Runs

end ClashNative.Shadowsocks.Classic
