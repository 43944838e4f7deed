import ClashNative.Runs
/-!
# Http1Tunnel — the stream behind an HTTP/1.1 CONNECT

`Http1TunnelState` of `http1_client.cpp` over its lower stream.  An operation is started where its sender
is made; the lower operation then ends with a value, with an error, or stopped, which is also how one ends
that is destroyed.
-/
namespace ClashNative.Http1Tunnel

open List

abbrev Bytes := List UInt8

/-- `reading` and `writing` are the lower operations that are out, a read with the size of its buffer;
`asked` is that the end of the sending was asked for in time, `shutdowns` counts the lower
`shutdown_send`s; with `received`, `delivered`, `accepted` and `handed` it is kept for the statements. -/
structure Tunnel where
  buffered : Bytes
  bufferedOffset : Nat := 0
  readInProgress : Bool := false
  writeInProgress : Bool := false
  shutdownRequested : Bool := false
  localClosed : Bool := false
  closed : Bool := false
  reading : List Nat := []
  writing : List Bytes := []
  asked : Bool := false
  shutdowns : Nat := 0
  received : Bytes := []
  delivered : Bytes := []
  accepted : Bytes := []
  handed : Bytes := []
  deriving DecidableEq

inductive Refusal
  | closed | started
  deriving DecidableEq, Repr

/-- What an operation is: over at once, refused, or the lower stream's. -/
inductive Started
  | done (bytes : Bytes)
  | refused (reason : Refusal)
  | lower
  deriving DecidableEq, Repr

inductive Ended (α : Type)
  | value (a : α)
  | error
  | stopped
  deriving DecidableEq, Repr

namespace Tunnel

def remaining (t : Tunnel) : Bytes := t.buffered.drop t.bufferedOffset

def asyncReadSome (t : Tunnel) (size : Nat) : Started × Tunnel :=
  if size = 0 then (.done [], t)
  else if t.closed then (.refused .closed, t)
  else if t.readInProgress then (.refused .started, t)
  else if t.bufferedOffset < t.buffered.length then
    let bytes := t.remaining.take size
    (.done bytes, { t with bufferedOffset := t.bufferedOffset + bytes.length, delivered :=
      t.delivered ++ bytes })
  else (.lower, { t with readInProgress := true, reading := t.reading ++ [size] })

def asyncWrite (t : Tunnel) (buffer : Bytes) : Started × Tunnel :=
  if t.closed || t.localClosed then (.refused .closed, t)
  else if t.writeInProgress then (.refused .started, t)
  else if buffer = [] then (.done [], t)
  else
    (.lower, { t with writeInProgress := true, writing := t.writing ++ [buffer], handed := t.handed ++ buffer })

/-- The end of a lower read: of the bytes there were, those that the buffer takes; `none` is the end of
the stream. -/
def readEnded (t : Tunnel) (size : Nat) (rest : List Nat) : Ended (Option Bytes) → Tunnel
  | .value bytes =>
    let bytes := (bytes.getD []).take size
    { t with reading := rest, readInProgress := false, received := t.received ++
      bytes, delivered := t.delivered ++ bytes }
  | .error => { t with reading := rest, readInProgress := false }
  | .stopped => { t with reading := rest }

def writeEnded (t : Tunnel) (rest : List Bytes) : Ended Unit → Tunnel
  | .value _ =>
    if t.shutdownRequested && !t.closed then
      { t with writing := rest, writeInProgress := false, shutdownRequested :=
        false, localClosed := true, shutdowns := t.shutdowns + 1 }
    else { t with writing := rest, writeInProgress := false }
  | .error => { t with writing := rest, writeInProgress := false }
  | .stopped => { t with writing := rest }

def shutdownSend (t : Tunnel) : Tunnel :=
  if t.closed || t.localClosed then t
  else if t.writeInProgress then { t with shutdownRequested := true, asked := true }
  else { t with localClosed := true, asked := true, shutdowns := t.shutdowns + 1 }

def close (t : Tunnel) : Tunnel :=
  if t.closed then t else { t with closed := true, localClosed := true, buffered := [], bufferedOffset := 0 }

end Tunnel

inductive Event
  | read (size : Nat)
  | write (buffer : Bytes)
  | readEnded (outcome : Ended (Option Bytes))
  | writeEnded (outcome : Ended Unit)
  | shutdownSend
  | close
  deriving DecidableEq, Repr

def step (t : Tunnel) : Event → Tunnel
  | .read size => (t.asyncReadSome size).2
  | .write buffer =>
    match t.asyncWrite buffer with
    | (.refused _, t) => t
    | (_, t) => { t with accepted := t.accepted ++ buffer }
  | .readEnded outcome =>
    match t.reading with
    | [] => t
    | size :: rest => t.readEnded size rest outcome
  | .writeEnded outcome =>
    match t.writing with
    | [] => t
    | _ :: rest => t.writeEnded rest outcome
  | .shutdownSend => t.shutdownSend
  | .close => t.close

def start (buffered : Bytes) : Tunnel := { buffered }

/-- **The stream is usable**: one lower operation a direction, the next operation is taken where none is
out, no byte is lost, and the sending is shut once, where it was asked for and no write is out. -/
structure Usable (first : Bytes) (t : Tunnel) : Prop where
  reads : t.reading.length ≤ 1
  writes : t.writing.length ≤ 1
  read : t.closed = false → t.reading = [] → ∀ size reason, (t.asyncReadSome size).1 ≠ .refused reason
  write : t.closed = false → t.asked = false → t.writing = [] →
    ∀ buffer reason, (t.asyncWrite buffer).1 ≠ .refused reason
  delivered : t.delivered <+: first ++ t.received
  pending : t.closed = false → t.delivered ++ t.remaining = first ++ t.received
  handed : t.handed = t.accepted
  shut : t.closed = false → t.writing = [] → t.shutdowns = if t.asked then 1 else 0
  notBefore : t.writing ≠ [] → t.shutdowns = 0

/-- **The lower operation ends so that its flag is reset**, and a write that ends with an error is not one
that a shutdown waits for. -/
def Resets (t : Tunnel) : Event → Prop
  | .readEnded .stopped => t.closed = false → t.reading = []
  | .writeEnded .stopped => t.closed = false → t.writing = []
  | .writeEnded .error => t.closed = false → t.writing ≠ [] → t.asked = false
  | _ => True

/-- **The flags are what they stand for**, while the stream is open. -/
structure Inv (first : Bytes) (t : Tunnel) : Prop where
  readFlag : t.closed = false → t.readInProgress = !t.reading.isEmpty
  writeFlag : t.closed = false → t.writeInProgress = !t.writing.isEmpty
  reads : t.reading.length ≤ 1
  writes : t.writing.length ≤ 1
  shut : t.closed = false → t.shutdownRequested = (t.asked && !t.writing.isEmpty) ∧
    t.localClosed = (t.asked && t.writing.isEmpty) ∧
    t.shutdowns = if t.localClosed then 1 else 0
  notBefore : t.writing ≠ [] → t.shutdowns = 0
  delivered : t.delivered <+: first ++ t.received
  pending : t.closed = false ∨ t.reading ≠ [] → t.delivered ++ t.remaining = first ++ t.received
  later : t.remaining ≠ [] → t.reading = []
  handed : t.handed = t.accepted

variable {t : Tunnel} {first : Bytes}

theorem Inv.usable (h : Inv first t) : Usable first t where
  reads := h.reads
  writes := h.writes
  read hopen hnone size reason := by
    unfold Tunnel.asyncReadSome
    rw [hopen, h.readFlag hopen, hnone]
    split_ifs <;> simp_all
  write hopen hasked hnone buffer reason := by
    unfold Tunnel.asyncWrite
    rw [hopen, (h.shut hopen).2.1, h.writeFlag hopen, hasked, hnone]
    split_ifs <;> simp_all
  delivered := h.delivered
  pending hopen := h.pending (.inl hopen)
  handed := h.handed
  shut hopen hnone := by
    obtain ⟨-, hlocal, hshut⟩ := h.shut hopen
    rw [hshut, hlocal, hnone]
    simp
  notBefore := h.notBefore

theorem start_inv (first : Bytes) : Inv first (start first) where
  readFlag _ := rfl
  writeFlag _ := rfl
  reads := Nat.zero_le _
  writes := Nat.zero_le _
  shut _ := ⟨rfl, rfl, rfl⟩
  notBefore h := absurd rfl h
  delivered := nil_prefix
  pending _ := (append_nil first).symm
  later _ := rfl
  handed := rfl

theorem Inv.read (h : Inv first t) (size : Nat) : Inv first (t.asyncReadSome size).2 := by
  unfold Tunnel.asyncReadSome
  split_ifs with hsize hclosed hread hbuffered
  · exact h
  · exact h
  · exact h
  · have hopen : t.closed = false := by simpa using hclosed
    have hmore : t.remaining ≠ [] := by simpa [Tunnel.remaining] using hbuffered
    have hrest : t.delivered ++ t.remaining.take size ++ t.buffered.drop
      (t.bufferedOffset + (t.remaining.take size).length) =
        first ++ t.received := by
      rw [← drop_drop, append_assoc]
      change t.delivered ++ (t.remaining.take size ++ t.remaining.drop (t.remaining.take size).length) = _
      rw [prefix_iff_eq_append.1 (List.take_prefix size t.remaining)]
      exact h.pending (.inl hopen)
    exact { h with delivered := ⟨_, hrest⟩, pending := fun _ => hrest, later := fun _ => h.later hmore }
  · have hopen : t.closed = false := by simpa using hclosed
    have hnone : t.reading = [] := by
      have hflag := h.readFlag hopen
      simpa [hread] using hflag
    have hover : t.remaining = [] := drop_of_length_le (Nat.le_of_not_lt hbuffered)
    refine { h with
      readFlag := fun _ => ?_, reads := ?_, pending := fun _ => h.pending (.inl hopen),
      later := fun hmore => absurd hover hmore }
    · rw [hnone]; rfl
    · rw [hnone]; exact Nat.le_refl 1

theorem Inv.write (h : Inv first t) (buffer : Bytes) : Inv first (step t (.write buffer)) := by
  unfold step Tunnel.asyncWrite
  dsimp only
  split_ifs with hclosed hwrite hempty
  · exact h
  · exact h
  · have hsame : t.handed = t.accepted ++ buffer := by rw [hempty, append_nil, h.handed]
    exact { h with handed := hsame }
  · rw [Bool.or_eq_true, not_or, Bool.not_eq_true, Bool.not_eq_true] at hclosed
    obtain ⟨hopen, hlocal⟩ := hclosed
    have hnone : t.writing = [] := by
      have hflag := h.writeFlag hopen
      simpa [hwrite] using hflag
    obtain ⟨hrequested, hasked, hshut⟩ := h.shut hopen
    rw [hlocal, hnone] at hasked
    have hasked : t.asked = false := by simpa using hasked.symm
    rw [hlocal] at hshut
    refine { h with
      writeFlag := fun _ => ?_, writes := ?_, shut := fun _ => ?_, notBefore := fun _ => hshut,
      handed := ?_ }
    · rw [hnone]; rfl
    · rw [hnone]; exact Nat.le_refl 1
    · refine ⟨?_, ?_, ?_⟩
      · rw [hrequested, hasked]; rfl
      · rw [hlocal, hasked]; rfl
      · rw [hlocal]; exact hshut
    · rw [h.handed]

theorem Inv.readEnded (h : Inv first t) {size : Nat} {rest : List Nat} (hout : t.reading = size :: rest)
    (outcome : Ended (Option Bytes)) (hresets : Resets t (.readEnded outcome)) :
    Inv first (t.readEnded size rest outcome) := by
  have hrest : rest = [] := by simpa [hout] using h.reads
  have hover : t.remaining = [] := by
    by_contra hmore
    rw [h.later hmore] at hout
    cases hout
  have hpending := h.pending (.inr (by rw [hout]; exact cons_ne_nil _ _))
  subst hrest
  cases outcome with
  | value bytes =>
    have hall : t.delivered ++ (bytes.getD []).take size =
        first ++ (t.received ++ (bytes.getD []).take size) := by
      rw [hover, append_nil] at hpending
      rw [hpending, append_assoc]
    refine { h with
      readFlag := fun _ => rfl, reads := Nat.zero_le 1, delivered := ?_, pending := fun _ => ?_,
      later := fun _ => rfl }
    · exact hall ▸ prefix_rfl
    · exact (congrArg (_ ++ ·) hover).trans ((append_nil _).trans hall)
  | error => exact { h with
      readFlag := fun _ => rfl, reads := Nat.zero_le 1, pending := fun _ => hpending,
      later := fun _ => rfl }
  | stopped =>
    refine { h with
      readFlag := fun hopen => ?_, reads := Nat.zero_le 1, pending := fun _ => hpending,
      later := fun _ => rfl }
    rw [hresets hopen] at hout
    cases hout

theorem Inv.writeEnded (h : Inv first t) {buffer : Bytes} {rest : List Bytes} (hout : t.writing = buffer :: rest)
    (outcome : Ended Unit) (hresets : Resets t (.writeEnded outcome)) :
    Inv first (t.writeEnded rest outcome) := by
  have hrest : rest = [] := by simpa [hout] using h.writes
  have hnone : t.shutdowns = 0 := h.notBefore (by rw [hout]; exact cons_ne_nil _ _)
  subst hrest
  have hopen_of : t.closed = false → t.shutdownRequested = t.asked ∧ t.localClosed = false := by
    intro hopen
    obtain ⟨hrequested, hlocal, -⟩ := h.shut hopen
    rw [hout] at hrequested hlocal
    exact ⟨by simpa using hrequested, by simpa using hlocal⟩
  cases outcome with
  | value _ =>
    unfold Tunnel.writeEnded
    dsimp only
    split
    · rename_i hshut
      rw [Bool.and_eq_true, Bool.not_eq_true'] at hshut
      obtain ⟨hrequested, hlocal⟩ := hopen_of hshut.2
      refine { h with
        writeFlag := fun _ => rfl, writes := Nat.zero_le 1, notBefore := fun hne => absurd rfl hne,
        shut := fun _ => ⟨?_, ?_, ?_⟩ }
      · simp
      · simp [← hrequested, hshut.1]
      · simp [hnone]
    · rename_i hshut
      refine { h with
        writeFlag := fun _ => rfl, writes := Nat.zero_le 1, notBefore := fun hne => absurd rfl hne,
        shut := fun hopen => ?_ }
      obtain ⟨hrequested, hlocal⟩ := hopen_of hopen
      have hopen : t.closed = false := hopen
      have hasked : t.asked = false := by simpa [hopen, hrequested] using hshut
      refine ⟨?_, ?_, ?_⟩
      · simp [hrequested, hasked]
      · simp [hlocal, hasked]
      · simp [hlocal, hnone]
  | error =>
    refine { h with
      writeFlag := fun _ => rfl, writes := Nat.zero_le 1, notBefore := fun hne => absurd rfl hne,
      shut := fun hopen => ?_ }
    obtain ⟨hrequested, hlocal⟩ := hopen_of hopen
    have hasked : t.asked = false := hresets hopen (by rw [hout]; exact cons_ne_nil _ _)
    refine ⟨?_, ?_, ?_⟩
    · simp [Tunnel.writeEnded, hrequested, hasked]
    · simp [Tunnel.writeEnded, hlocal, hasked]
    · simp [Tunnel.writeEnded, hlocal, hnone]
  | stopped =>
    have hclosed : t.closed = true := by
      by_contra hopen
      rw [hresets (Bool.eq_false_iff.2 hopen)] at hout
      cases hout
    have hnot {P : Prop} (hopen : t.closed = false) : P := by
      rw [hclosed] at hopen
      cases hopen
    exact { h with
      writeFlag := fun hopen => hnot hopen
      writes := Nat.zero_le 1
      notBefore := fun hne => absurd rfl hne
      shut := fun hopen => hnot hopen }

theorem Inv.shutdownSend (h : Inv first t) : Inv first t.shutdownSend := by
  unfold Tunnel.shutdownSend
  split_ifs with hclosed hwrite
  · exact h
  all_goals
    rw [Bool.or_eq_true, not_or, Bool.not_eq_true, Bool.not_eq_true] at hclosed
    obtain ⟨hopen, hlocal⟩ := hclosed
    obtain ⟨hrequested, hasked, hshut⟩ := h.shut hopen
    have hflag := h.writeFlag hopen
  · have hout : t.writing ≠ [] := by simpa [hwrite] using hflag
    refine { h with shut := fun _ => ⟨?_, ?_, hshut⟩ }
    · simp [hout]
    · simp [hlocal, hout]
  · have hnone : t.writing = [] := by simpa [hwrite] using hflag
    have hzero : t.shutdowns = 0 := by simpa [hlocal] using hshut
    refine { h with shut := fun _ => ⟨?_, ?_, ?_⟩, notBefore := fun hne => absurd hnone hne }
    · simp [hrequested, hnone]
    · simp [hnone]
    · simp [hzero]

theorem Inv.close (h : Inv first t) : Inv first t.close := by
  unfold Tunnel.close
  split_ifs with hclosed
  · exact h
  · refine { h with
      readFlag := fun hopen => Bool.noConfusion hopen, writeFlag := fun hopen =>
        Bool.noConfusion hopen, shut := fun hopen => Bool.noConfusion hopen,
      pending := fun hor => ?_, later := fun hmore => absurd rfl hmore }
    have hout := hor.resolve_left fun hopen => Bool.noConfusion hopen
    have hpending := h.pending (.inr hout)
    have hover : t.remaining = [] := by
      by_contra hmore
      exact hout (h.later hmore)
    rw [hover] at hpending
    exact hpending

theorem Inv.step (h : Inv first t) (event : Event) (hresets : Resets t event) : Inv first (step t event) := by
  cases event with
  | read size => exact h.read size
  | write buffer => exact h.write buffer
  | readEnded outcome =>
    unfold Http1Tunnel.step
    dsimp only
    split
    · exact h
    · rename_i hout
      exact h.readEnded hout outcome hresets
  | writeEnded outcome =>
    unfold Http1Tunnel.step
    dsimp only
    split
    · exact h
    · rename_i hout
      exact h.writeEnded hout outcome hresets
  | shutdownSend => exact h.shutdownSend
  | close => exact h.close

theorem Inv.back (h : Inv first t) (event : Event) (hnot : ¬ Resets t event) :
    ¬ Usable first (Http1Tunnel.step t event) := by
  intro hafter
  match event, hnot with
  | .readEnded .stopped, hnot =>
    obtain ⟨hopen, hout⟩ := Classical.not_imp.1 hnot
    obtain ⟨size, rest, hreading⟩ := exists_cons_of_ne_nil hout
    have hrest : rest = [] := by simpa [hreading] using h.reads
    have hflag := h.readFlag hopen
    rw [hreading] at hflag
    rw [Http1Tunnel.step, hreading] at hafter
    refine hafter.read hopen hrest 1 .started ?_
    simp [Tunnel.asyncReadSome, Tunnel.readEnded, hopen, hflag]
  | .writeEnded outcome, hnot =>
    have hstuck : t.closed = false ∧ t.writing ≠ [] ∧
      (outcome = .stopped ∨ outcome = .error ∧ t.asked = true) := by
      cases outcome with
      | value _ => exact absurd trivial hnot
      | error =>
        obtain ⟨hopen, hnot⟩ := Classical.not_imp.1 hnot
        obtain ⟨hout, hasked⟩ := Classical.not_imp.1 hnot
        exact ⟨hopen, hout, .inr ⟨rfl, by simpa using hasked⟩⟩
      | stopped =>
        obtain ⟨hopen, hout⟩ := Classical.not_imp.1 hnot
        exact ⟨hopen, hout, .inl rfl⟩
    obtain ⟨hopen, hout, houtcome⟩ := hstuck
    obtain ⟨buffer, rest, hwriting⟩ := exists_cons_of_ne_nil hout
    have hrest : rest = [] := by simpa [hwriting] using h.writes
    have hflag := h.writeFlag hopen
    obtain ⟨-, hlocal, -⟩ := h.shut hopen
    rw [hwriting] at hflag hlocal
    rw [Http1Tunnel.step, hwriting] at hafter
    cases hasked : t.asked with
    | true =>
      have hshut : (t.writeEnded rest outcome).shutdowns =
          t.shutdowns ∧ (t.writeEnded rest outcome).asked = t.asked ∧
          (t.writeEnded rest outcome).writing = rest ∧ (t.writeEnded rest outcome).closed = t.closed := by
        rcases houtcome with rfl | ⟨rfl, -⟩ <;> exact ⟨rfl, rfl, rfl, rfl⟩
      have hone := hafter.shut (hshut.2.2.2.trans hopen) (hshut.2.2.1.trans hrest)
      rw [hshut.1, hshut.2.1, hasked, h.notBefore hout] at hone
      cases hone
    | false =>
      obtain rfl : outcome = .stopped := houtcome.resolve_right fun herror =>
          by rw [hasked] at herror; cases herror.2
      refine hafter.write hopen hasked hrest [0] .started ?_
      simp [Tunnel.asyncWrite, Tunnel.writeEnded, hopen, hlocal, hasked, hflag]
  | .readEnded (.value _), hnot => exact hnot trivial
  | .readEnded .error, hnot => exact hnot trivial
  | .read _, hnot => exact hnot trivial
  | .write _, hnot => exact hnot trivial
  | .shutdownSend, hnot => exact hnot trivial
  | .close, hnot => exact hnot trivial

/-- **The stream stays usable exactly as long as no operation of the open stream is stopped**, and no
write that a shutdown waits for fails. -/
theorem usable_iff_resets (first : Bytes) (events : List Event) :
    (∀ pre, pre <+: events → Usable first (Runs.run step (start first) pre)) ↔
    Runs.Along step Resets (start first) events :=
  Runs.forall_prefix_iff_along (fun _ h => h.usable)
  (fun _ event h => h.step event) (fun _ event h => h.back event) (start_inv first) events

/-- **After a stopped read no read is taken**, and a shutdown that waits for a write that fails is never
done. -/
theorem stopped_read_sticks : ¬ Usable [] (Runs.run step (start []) [.read 1, .readEnded .stopped]) ∧
    ¬ Usable [] (Runs.run step (start []) [.write [0], .shutdownSend, .writeEnded .error]) := by
  refine ⟨fun h => ?_, fun h => ?_⟩
  · exact h.read rfl rfl 1 .started rfl
  · exact absurd (h.shut rfl rfl) (by decide)

end ClashNative.Http1Tunnel
