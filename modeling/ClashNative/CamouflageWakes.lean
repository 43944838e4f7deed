import ClashNative.RestlsPump
import ClashNative.ShadowTlsStreams
import ClashNative.ShadowTlsV3Session
/-!
# CamouflageWakes — parked reads of ResTLS and Shadow-TLS v3

A read that is parked needs a read of the lower stream to be woken by.  What a record that carries no data
does to it.
-/
namespace ClashNative

open List

namespace Restls.RestlsStream

variable {env : Env} {s t : RestlsStream}

/-- **A parked read is woken**: until the lower stream ends, a read of it is outstanding. -/
def Awake (s : RestlsStream) : Prop := s.readHandler.isSome = true → s.ended = none → s.lowerRead.isSome = true

/-- **The condition**: a read that `ensure_control_read` has started brings a parked read its data, or its
failure; or a write goes on to wait for a record. -/
def Woken (hash : KeyedHash) (s : RestlsStream) (event : Event) : Prop :=
  match event.act with
  | .lowerRead n => s.lowerRead = some .control → s.readHandler.isSome = true → s.brings n ≠ [] →
      quiet hash (s.readWire ++ s.brings n).length s.decoder (s.readWire ++ s.brings n) = true →
      s.writeWaitingResponse = true ∧ nextRecord (s.readWire ++ s.brings n) = none
  | _ => True

structure Alert (s : RestlsStream) : Prop where
  plain : s.readHandler.isSome = true → s.pendingPlain = []
  awake : s.Awake

theorem Alert.of_none (h : s.readHandler = none) : Alert s := by
  constructor
  · rw [h]
    exact nofun
  · unfold Awake
    rw [h]
    exact nofun

theorem Alert.of_ended (hplain : s.readHandler.isSome = true → s.pendingPlain = [])
    (h : s.ended ≠ none) : Alert s :=
  ⟨hplain, fun _ hnone => absurd hnone h⟩

theorem Unread.alert (h : Unread s t) (hs : Alert s) : Alert t := by
  refine ⟨fun hparked => ?_, fun hparked hended => ?_⟩
  · rw [h.pendingPlain]
    exact hs.plain (h.readHandler ▸ hparked)
  · have hlower := hs.awake (h.readHandler ▸ hparked) (h.ended ▸ hended)
    rcases h.lowerRead with hsame | ⟨-, -, hcontrol⟩
    · rwa [hsame]
    · rw [hcontrol]
      rfl

theorem finishRead_alert (s : RestlsStream) (result : Except StreamError Bytes) : Alert
    (s.finishRead result) := .of_none rfl

theorem pumpRead_alert (hplain : s.readHandler.isSome = true → s.pendingPlain = []) : Alert
    (s.pumpRead env) := by
  unfold pumpRead
  by_cases hstops : s.readHandler = none ∨ s.lowerRead.isSome = true
  · rw [if_pos hstops]
    refine ⟨hplain, fun hparked _ => ?_⟩
    rcases hstops with hnone | hlower
    · rw [hnone] at hparked
      cases hparked
    · exact hlower
  · rw [if_neg hstops]
    rw [not_or] at hstops
    obtain ⟨id, hid⟩ := Option.ne_none_iff_exists'.1 hstops.1
    have hnothing := hplain (by rw [hid]; rfl)
    dsimp only
    cases hquiet : quiet env.hash s.readWire.length s.decoder s.readWire with
    | true =>
      obtain ⟨hfalse, -, -, hleft, -⟩ := processWire_quiet env s.readWire.length hnothing hquiet
      rw [hfalse, if_neg Bool.false_ne_true]
      exact ⟨fun _ => hleft, fun _ _ => rfl⟩
    | false =>
      obtain ⟨htrue, hnone, -⟩ := processWire_loud env s.readWire.length hid hnothing hquiet
      rw [htrue, if_pos rfl]
      exact .of_none hnone

theorem readImpl_alert (h : Alert s) (size : Nat) : Alert (s.readImpl env size) := by
  unfold readImpl
  by_cases hparked : s.readHandler.isSome = true
  · rw [if_pos hparked]
    exact ⟨h.plain, h.awake⟩
  · rw [if_neg hparked]
    by_cases hsize : size = 0
    · rw [if_pos hsize]
      exact ⟨h.plain, h.awake⟩
    · rw [if_neg hsize]
      by_cases hpending : s.pendingPlain ≠ []
      · rw [if_pos hpending]
        exact finishRead_alert _ _
      · rw [if_neg hpending]
        exact pumpRead_alert fun _ => not_not.1 hpending

theorem ensureControlRead_alert (hplain : s.readHandler.isSome = true →
    s.pendingPlain = []) : Alert s.ensureControlRead := by
  unfold ensureControlRead
  by_cases hlower : s.lowerRead.isSome = true
  · rw [if_pos hlower]
    exact ⟨hplain, fun _ _ => hlower⟩
  · rw [if_neg hlower]
    exact ⟨hplain, fun _ _ => rfl⟩

theorem control_quiet {data : Bytes} (hplain : s.pendingPlain = [])
    (hquiet : quiet env.hash (s.readWire ++ data).length s.decoder (s.readWire ++ data) = true) (wire : Bytes) :
    let t := (processWire env (s.readWire ++ data).length
      { s with lowerRead := none, wire, readWire := s.readWire ++ data }).2
    t.readHandler = s.readHandler ∧ t.pendingPlain = [] ∧ t.ended = s.ended ∧ t.lowerRead = none ∧
      (t.writeWaitingResponse = true ↔ s.writeWaitingResponse = true ∧
        nextRecord (s.readWire ++ data) = none) := by
  have hapart := processWire_apart env (s.readWire ++ data).length
    { s with lowerRead := none, wire, readWire := s.readWire ++ data }
  obtain ⟨-, hhandler, -, hleft, hstays, hreleased⟩ := processWire_quiet env (s.readWire ++ data).length
    (s := { s with lowerRead := none, wire, readWire := s.readWire ++ data }) hplain hquiet
  refine ⟨hhandler, hleft, hapart.ended, hapart.lowerRead, ?_⟩
  by_cases hnext : nextRecord (s.readWire ++ data) = none
  · rw [hstays hnext]
    exact ⟨fun hwaiting => ⟨hwaiting, hnext⟩, fun h => h.1⟩
  · have hlength : (s.readWire ++ data).length ≠ 0 :=
      fun hzero => hnext (by rw [length_eq_zero_iff.1 hzero]; rfl)
    rw [hreleased hlength hnext]
    exact ⟨nofun, fun h => absurd h.2 hnext⟩

variable {n : Nat}

theorem lowerReadDone_alert (h : Alert s) (replies : List
    (Option Bytes)) (hwoken : Woken env.hash s ⟨.lowerRead n, replies⟩) :
    Alert (s.lowerReadDone env n) := by
  unfold lowerReadDone
  cases hlower : s.lowerRead with
  | none => exact h
  | some reader =>
    dsimp only
    by_cases hdata : s.brings n = []
    · rw [if_pos hdata]
      cases reader with
      | pump => exact finishRead_alert _ _
      | control => exact finishRead_alert _ _
    · rw [if_neg hdata]
      cases reader with
      | pump => exact pumpRead_alert h.plain
      | control =>
        dsimp only
        cases hhandler : s.readHandler with
        | none =>
          obtain ⟨hnone, -⟩ := processWire_idle env (s.readWire ++ s.brings n).length
            (s := { s with lowerRead := none, wire := s.wire.drop (s.brings n).length, readWire :=
              s.readWire ++ s.brings n }) hhandler
          rw [hhandler] at hnone
          split
          · exact ensureControlRead_alert fun hparked => by
              rw [hnone] at hparked
              cases hparked
          · exact .of_none hnone
        | some id =>
          have hparked : s.readHandler.isSome = true := by
            rw [hhandler]
            rfl
          have hplain := h.plain hparked
          cases hquiet : quiet env.hash (s.readWire ++ s.brings n).length
              s.decoder (s.readWire ++ s.brings n) with
          | true =>
            obtain ⟨-, hleft, -, -, hwaiting⟩ := control_quiet hplain hquiet (s.wire.drop (s.brings n).length)
            rw [hhandler] at hleft hwaiting
            rw [if_pos (hwaiting.2 (hwoken hlower hparked hdata hquiet))]
            exact ensureControlRead_alert fun _ => hleft
          | false =>
            obtain ⟨-, hnone, -⟩ := processWire_loud env (s.readWire ++ s.brings n).length
              (s := { s with lowerRead := none, wire := s.wire.drop (s.brings n).length, readWire :=
                s.readWire ++ s.brings n }) hhandler hplain
                hquiet
            rw [hhandler] at hnone
            split
            · exact ensureControlRead_alert fun hsome => by
                rw [hnone] at hsome
                cases hsome
            · exact .of_none hnone

theorem lowerWritten_alert (h : Alert s) (fails : Bool) : Alert (s.lowerWritten env fails) := by
  unfold lowerWritten
  cases s.inFlight with
  | none => exact h
  | some lower =>
    cases lower with
    | data owner chunk needsResponse wire =>
      cases fails with
      | true => exact (finishWrite_unread env _ _).alert ⟨h.plain, h.awake⟩
      | false =>
        refine Unread.alert (s := { s with
          inFlight := none, pendingWriteOffset := s.pendingWriteOffset + chunk, scriptIndex := s.scriptIndex + 1
          writeWaitingResponse := _ }) (pumpWrite_unread env (finishWrite_unread env) _) ?_
        exact ⟨h.plain, h.awake⟩
    | control wire =>
      cases fails with
      | true => exact (finishWrite_unread env _ _).alert (finishRead_alert _ _)
      | false => exact (pumpWrite_unread env
        (finishWrite_unread env) _).alert ((pumpControlWrite_unread env _ _).alert ⟨h.plain, h.awake⟩)

theorem step_alert (s : RestlsStream) (event : Event) (h : Alert s) (hwoken : Woken env.hash s event) :
    Alert (step env s event) := by
  obtain ⟨act, replies⟩ := event
  have hs : Alert { s with replies } := ⟨h.plain, h.awake⟩
  cases act with
  | read size => exact readImpl_alert hs size
  | cancelRead =>
    change Alert (cancelRead { s with replies })
    unfold cancelRead
    split
    · exact hs
    · exact finishRead_alert _ _
  | write buffer => exact (writeImpl_unread env (finishWrite_unread env) _ buffer).alert hs
  | cancelWrite =>
    change Alert (cancelWrite { s with replies })
    unfold cancelWrite
    split
    · exact hs
    · exact ⟨h.plain, h.awake⟩
  | lowerRead n => exact lowerReadDone_alert hs replies hwoken
  | lowerWritten fails => exact lowerWritten_alert hs fails
  | fail =>
    refine .of_ended h.plain ?_
    change s.ended.or (some .transport) ≠ none
    cases s.ended <;> exact nofun
  | close => exact (finishWrite_unread env _ _).alert (finishRead_alert _ _)

theorem lowerReadDone_asleep (h : Alert s) (hlower : s.lowerRead = some .control) (hparked :
    s.readHandler.isSome = true)
    (hdata : s.brings n ≠ []) (hquiet : quiet env.hash (s.readWire ++ s.brings n).length s.decoder
      (s.readWire ++ s.brings n) = true)
    (hgone : ¬ (s.writeWaitingResponse = true ∧ nextRecord (s.readWire ++ s.brings n) = none)) :
    ¬ (s.lowerReadDone env n).Awake := by
  obtain ⟨hhandler, -, hended, hnone, hwaiting⟩ :=
    control_quiet (h.plain hparked) hquiet (s.wire.drop (s.brings n).length)
  have hdone : s.lowerReadDone env n = (processWire env (s.readWire ++ s.brings n).length
      { s with
        lowerRead := none, wire := s.wire.drop (s.brings n).length,
        readWire := s.readWire ++ s.brings n }).2 := by
    unfold lowerReadDone
    rw [hlower]
    dsimp only
    rw [if_neg hdata]
    exact if_neg fun h => hgone (hwaiting.1 h)
  rw [hdone]
  intro hawake
  have hsome := hawake (by rw [hhandler]; exact hparked) (by rw [hended]; exact ended_of_brings hdata)
  rw [hnone] at hsome
  cases hsome

theorem step_asleep (s : RestlsStream) (event : Event) (h : Alert s) (hnot : ¬ Woken env.hash s event) :
    ¬ (step env s event).Awake := by
  obtain ⟨act, replies⟩ := event
  cases act with
  | lowerRead n =>
    unfold Woken at hnot
    simp only [Classical.not_imp] at hnot
    obtain ⟨hlower, hparked, hdata, hquiet, hgone⟩ := hnot
    exact lowerReadDone_asleep (s := { s with replies }) ⟨h.plain, h.awake⟩ hlower hparked hdata hquiet hgone
  | read size => exact absurd trivial hnot
  | cancelRead => exact absurd trivial hnot
  | write buffer => exact absurd trivial hnot
  | cancelWrite => exact absurd trivial hnot
  | lowerWritten fails => exact absurd trivial hnot
  | fail => exact absurd trivial hnot
  | close => exact absurd trivial hnot

end Restls.RestlsStream

namespace ShadowTls

open ShadowTlsV3 (Bytes Chains HmacSha1)

/-- **A parked read is woken**: until the lower stream ends, a read of it is outstanding, or a handler is
posted that goes on. -/
def Awake {κ μ : Type} (s : State κ μ) : Prop := s.reads.waiting.isSome = true → s.reads.ended = none →
    s.reads.ops ≠ []

/-- **The condition**: a frame that is read for a parked read has data, or is at fault. -/
def Woken (mac : HmacSha1) (s : State Chains Bytes) : Event → Prop
  | .posted i => ∀ op ∈ s.reads.ops[i]?, ∀ header, op.posted = true → op.stage = .payload header →
      s.reads.waiting.isSome = true →
      s.reads.ended = none → s.reads.ops.eraseIdx i = [] →
      (ShadowTlsV3.handleFrame mac s.reads.kept (header ++ op.got)).1 ≠ .data []
  | _ => True

structure Reads.Alert (s : Reads Chains) : Prop where
  called : s.called = none
  awake : s.waiting.isSome = true → s.ended = none → s.ops ≠ []

namespace Reads

variable {mac : HmacSha1} {s : Reads Chains}

theorem finishRead_alert (s : Reads Chains) (origin : Nat) (result : Except StreamError Bytes) :
    (s.finishRead origin result).Alert := ⟨rfl, nofun⟩

theorem readExact_alert (h : s.called = none) (owner : Nat) (stage : Stage) : (s.readExact owner stage).Alert :=
  ⟨h, fun _ _ hnil => absurd (append_eq_nil_iff.1 hnil).2 (cons_ne_nil _ _)⟩

theorem copyPending_alert (h : s.called = none) (origin : Nat)
    (hnothing : s.pending = [] → s.waiting.isSome = true → s.ended = none → s.ops ≠ []) :
    (s.copyPending (framingV3 mac) origin).Alert := by
  unfold copyPending handler
  rw [h, Option.or_none]
  cases hwaiting : s.waiting with
  | none =>
    refine ⟨h, fun hparked => ?_⟩
    rw [hwaiting] at hparked
    cases hparked
  | some id =>
    dsimp only
    by_cases hpending : s.pending = []
    · rw [if_pos hpending]
      exact ⟨h, hnothing hpending⟩
    · rw [if_neg hpending]
      exact ⟨rfl, nofun⟩

theorem readV3_alert (h : s.Alert) (size : Nat) : (readV3 mac s size).Alert := by
  unfold readV3
  split
  · exact ⟨h.called, h.awake⟩
  · split
    · exact ⟨h.called, h.awake⟩
    · by_cases hpending : s.pending = []
      · rw [if_neg (not_not_intro hpending)]
        exact readExact_alert rfl _ _
      · rw [if_pos hpending]
        exact copyPending_alert rfl _ fun hnil => absurd hnil hpending

theorem cancelRead_alert (h : s.Alert) : s.cancelRead.Alert := by
  unfold cancelRead
  split
  · exact h
  · exact ⟨rfl, nofun⟩

theorem fail_alert (h : s.Alert) : s.fail.Alert := by
  refine ⟨h.called, fun _ hnone => ?_⟩
  unfold fail at hnone
  cases hended : s.ended with
  | none =>
    rw [hended] at hnone
    cases hnone
  | some e =>
    rw [hended] at hnone
    cases hnone

theorem lowerRead_alert (h : s.Alert) (i n : Nat) : (s.lowerRead (framingV3 mac) i n).Alert := by
  unfold lowerRead
  split
  · exact h
  · split
    · exact h
    · dsimp only
      split
      · exact finishRead_alert _ _ _
      · split
        · rename_i hdropped
          refine ⟨h.called, fun hparked => ?_⟩
          rw [show s.waiting = none from hdropped.2] at hparked
          cases hparked
        · split
          · exact finishRead_alert _ _ _
          · exact ⟨h.called, fun _ _ hnil => absurd (append_eq_nil_iff.1 hnil).2 (cons_ne_nil _ _)⟩

variable {i : Nat}

theorem runPosted_alert (h : s.Alert) (hwoken : ∀ op ∈ s.ops[i]?, ∀ header, op.posted = true →
    op.stage = .payload header →
    s.waiting.isSome = true → s.ended = none → s.ops.eraseIdx i = [] →
    (ShadowTlsV3.handleFrame mac s.kept (header ++ op.got)).1 ≠ .data []) :
    (s.runPosted (framingV3 mac) i).Alert := by
  unfold runPosted
  cases hop : s.ops[i]? with
  | none => exact h
  | some op =>
    dsimp only
    by_cases hposted : op.posted = true
    · rw [if_pos hposted]
      split
      · split
        · exact readExact_alert (s := { s with ops := s.ops.eraseIdx i }) h.called _ _
        · exact finishRead_alert _ _ _
      · rename_i header hstage
        split
        · exact readExact_alert (s := { s with ops := s.ops.eraseIdx i, kept := _ }) h.called _ _
        · exact finishRead_alert _ _ _
        · rename_i payload hverdict
          refine copyPending_alert (s := {
            s with ops := s.ops.eraseIdx i, kept := _, pending := payload }) h.called _
            fun hnil hparked hended hempty => ?_
          refine hwoken op hop header hposted hstage hparked hended hempty (hverdict.trans ?_)
          rw [show payload = [] from hnil]
    · rw [if_neg hposted]
      exact h

theorem runPosted_asleep (h : s.Alert) {op : Op} {header : Bytes}
    (hop : s.ops[i]? = some op) (hposted : op.posted = true)
    (hstage : op.stage = .payload header) (hempty : s.ops.eraseIdx i = [])
    (hverdict : (ShadowTlsV3.handleFrame mac s.kept (header ++ op.got)).1 = .data []) :
    (s.runPosted (framingV3 mac) i).waiting = s.waiting ∧ (s.runPosted (framingV3 mac) i).ended = s.ended ∧
      (s.runPosted (framingV3 mac) i).ops = [] := by
  have hdone : s.runPosted (framingV3 mac) i =
      { s with ops := s.ops.eraseIdx i, kept := (ShadowTlsV3.handleFrame mac s.kept
        (header ++ op.got)).2, pending := [] } := by
    unfold runPosted
    rw [hop]
    dsimp only
    rw [if_pos hposted, hstage]
    dsimp only
    rw [show (framingV3 mac).handle = ShadowTlsV3.handleFrame mac from rfl, hverdict]
    dsimp only
    unfold copyPending handler
    rw [h.called, Option.or_none]
    cases s.waiting <;> rfl
  rw [hdone]
  exact ⟨rfl, rfl, hempty⟩

end Reads

variable {mac : HmacSha1}

theorem step_alert (s : State Chains Bytes) (event : Event) (h : s.reads.Alert) (hwoken : Woken mac s event) :
    (step (kindV3 mac) s event).reads.Alert := by
  cases event with
  | read size => exact Reads.readV3_alert h size
  | cancelRead => exact Reads.cancelRead_alert h
  | lowerRead i n => exact Reads.lowerRead_alert h i n
  | posted i => exact Reads.runPosted_alert h hwoken
  | fail => exact Reads.fail_alert h
  | write buffer => exact h
  | cancelWrite => exact h
  | lowerWritten i error => exact h
  | close =>
    change (close (kindV3 mac) s).reads.Alert
    unfold close
    rw [if_pos (show (kindV3 mac).closes = true from rfl)]
    split
    · exact h
    · split
      · exact Reads.fail_alert h
      · exact Reads.finishRead_alert _ _ _

theorem step_asleep (s : State Chains Bytes) (event : Event) (h : s.reads.Alert) (hnot : ¬ Woken mac s event) :
    ¬ Awake (step (kindV3 mac) s event) := by
  cases event with
  | posted i =>
    unfold Woken at hnot
    push Not at hnot
    obtain ⟨op, hop, header, hposted, hstage, hparked, hended, hempty, hverdict⟩ := hnot
    obtain ⟨hwaiting, hended', hops⟩ := Reads.runPosted_asleep h hop hposted hstage hempty hverdict
    exact fun hawake => hawake (by rw [← hwaiting] at hparked; exact hparked) (hended'.trans hended) hops
  | read size => exact absurd trivial hnot
  | cancelRead => exact absurd trivial hnot
  | lowerRead i n => exact absurd trivial hnot
  | fail => exact absurd trivial hnot
  | write buffer => exact absurd trivial hnot
  | cancelWrite => exact absurd trivial hnot
  | lowerWritten i error => exact absurd trivial hnot
  | close => exact absurd trivial hnot

end ShadowTls

/-- **Parked reads are woken** in every state of a run, exactly when every record that comes while a read
is parked brings it its data or its failure, or leaves a write waiting. -/
theorem parked_reads_woken_iff (env : Restls.Env) (secret serverRandom : List UInt8) (tls12Gcm : Bool)
    (initialAuthExtra : List UInt8)
    (script : List Restls.RestlsScriptLine) (mac : ShadowTlsV3.HmacSha1) (chains : ShadowTlsV3.Chains)
    (mark pending : List UInt8)
    (initialWire wire : List UInt8) (restlsEvents : List Restls.RestlsStream.Event)
    (events : List ShadowTls.Event) :
    let restls := Restls.RestlsStream.opened secret serverRandom tls12Gcm initialAuthExtra script initialWire
      wire
    let v3 := ShadowTls.opened chains mark pending initialWire wire
    ((∀ pre, pre <+: restlsEvents → (Runs.run (Restls.RestlsStream.step env) restls pre).Awake) ↔
        Runs.Along (Restls.RestlsStream.step env) (Restls.RestlsStream.Woken env.hash) restls restlsEvents) ∧
      ((∀ pre, pre <+: events → ShadowTls.Awake (Runs.run (ShadowTls.step (ShadowTls.kindV3 mac)) v3 pre)) ↔
        Runs.Along (ShadowTls.step (ShadowTls.kindV3 mac)) (ShadowTls.Woken mac) v3 events) := by
  intro restls v3
  constructor
  · exact Runs.forall_prefix_iff_along (P := Restls.RestlsStream.Alert)
      (fun _ hs => hs.awake) Restls.RestlsStream.step_alert
      Restls.RestlsStream.step_asleep (.of_none rfl) restlsEvents
  · exact Runs.forall_prefix_iff_along (P := fun s => s.reads.Alert)
      (fun _ hs => hs.awake) ShadowTls.step_alert ShadowTls.step_asleep
      ⟨rfl, nofun⟩ events

/-- A record of padding alone that lets a write go on, and a frame without a payload: each leaves a read
parked that nothing will wake. -/
theorem empty_records_leave_reads_asleep :
    let env : Restls.Env := ⟨Restls.exampleHash, fun _ => 0⟩
    let server : Restls.RestlsApplicationCodec :=
      { secret := [9], serverRandom := [5], toClient := true, tls12Gcm := false }
    let padding := match (server.encode env.hash [] 0 4 {}).1 with
      | .ok record => record
      | .error _ => []
    let restls := Runs.run (Restls.RestlsStream.step env)
      (Restls.RestlsStream.opened [9] [5] false [] [{ targetLength := 1, command := ⟨.response, 1⟩ }] [] padding)
      [⟨.write [5, 6], []⟩, ⟨.lowerWritten false, []⟩, ⟨.read 4, []⟩, ⟨.lowerRead 100, []⟩]
    let v3 := Runs.run (ShadowTls.step (ShadowTls.kindV3 ShadowTlsV3.exampleMac))
      (ShadowTls.opened ⟨[], [7]⟩ [7] [] [] (ShadowTlsV3.frameOf ShadowTlsV3.exampleMac [7] []))
      [.read 4, .lowerRead 0 5, .posted 0, .lowerRead 0 4, .posted 0]
    (restls.readHandler = some 0 ∧ restls.ended = none ∧ restls.wire = [] ∧ restls.readWire = [] ∧
      restls.lowerRead = none) ∧
      v3.reads.waiting = some 0 ∧ v3.reads.ended = none ∧ v3.reads.wire = [] ∧ v3.reads.ops = [] := by
  decide +kernel

end ClashNative
