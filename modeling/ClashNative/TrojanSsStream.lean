import ClashNative.RecordStreamReads
/-!
# TrojanSsStream — reads of the Shadowsocks layer inside of Trojan

`TrojanSsStreamState` of `ss_stream.cpp`: no obfs layer and no bytes ahead, and a lower read whose reader
is gone drops what it brings.
-/
namespace ClashNative.Shadowsocks.TrojanSs

open List

section Model

variable {κ : Type} (method : CipherMethod κ)

def readPeerSalt (s : State κ) : State κ := s.start (.carrier .salt method.keySize [])

def readChunkLength (s : State κ) : State κ := s.start (.carrier .length (2 + method.overhead) [])

def readChunkPayload (s : State κ) (payloadSize : Nat) : State κ :=
  s.start (.carrier (.payload payloadSize) (payloadSize + method.overhead) [])

/-! ### What `read_exact` goes on to -/

def saltReceived (s : State κ) (salt : Bytes) : State κ :=
  match method.deriveKey salt with
  | none => s.finishRead (.error .protocolError)
  | some key => readChunkLength method { s with readKey := some key }

def lengthReceived (s : State κ) (key : κ) (encrypted : Bytes) : State κ :=
  match method.decrypt key s.readNonce encrypted with
  | none => s.finishRead (.error .protocolError)
  | some length =>
    if length.length ≠ 2 then s.finishRead (.error .protocolError)
    else if Wire.getU16 length = 0 ∨ kMaxChunkPayload < Wire.getU16 length then
      s.incrementReadNonce.finishRead (.error .protocolError)
    else readChunkPayload method s.incrementReadNonce (Wire.getU16 length)

def payloadReceived (s : State κ) (key : κ) (encrypted : Bytes) : State κ :=
  match method.decrypt key s.readNonce encrypted with
  | none => s.finishRead (.error .protocolError)
  | some plaintext =>
    if plaintext = [] then s.finishRead (.error .protocolError)
    else { s.incrementReadNonce with pendingPlaintext := plaintext }.copy

def received (s : State κ) (stage : Stage) (bytes : Bytes) : State κ :=
  match stage, s.readKey with
  | .salt, _ => saltReceived method s bytes
  | .length, some key => lengthReceived method s key bytes
  | .payload _, some key => payloadReceived method s key bytes
  | _, _ => s

def failed (s : State κ) (stage : Stage) (error : StreamError) : State κ :=
  match stage with
  | .payload _ => s.finishRead (.error .protocolError)
  | _ => s.finishRead (.error error)

def readExactGuarded (s : State κ) (stage : Stage) (size : Nat) (got : Bytes) (n : Nat) : State κ :=
  match s.lowerRead (size - got.length) n with
  | (result, s) =>
    if s.readHandler.isNone then { s with readInProgress := false }
    else
      match result with
      | .error e => failed s stage e
      | .ok chunk =>
        if (got ++ chunk).length = size then received method s stage (got ++ chunk)
        else s.start (.carrier stage size (got ++ chunk))

def serve (s : State κ) (size : Nat) : State κ :=
  { s with pendingPlaintext := s.pendingPlaintext.drop size }.answer (.ok (s.pendingPlaintext.take size))

def receive (s : State κ) (size : Nat) : State κ :=
  if s.closed then s.answer (.error .operationAborted)
  else if s.readInProgress then s.answer (.error .alreadyStarted)
  else if s.pendingPlaintext ≠ [] then serve s size
  else if size = 0 then (s.park size).finishRead (.ok [])
  else if s.readKey.isNone then readPeerSalt method (s.park size)
  else readChunkLength method (s.park size)

def cancelReceive (s : State κ) : State κ :=
  if s.readInProgress then s.finishRead (.error .operationAborted) else s

def close (s : State κ) : State κ :=
  if s.closed then s
  else if s.readInProgress then ({ s with closed := true }.lowerFails .operationAborted).finishRead
    (.error .operationAborted)
  else { s with closed := true }.lowerFails .operationAborted

def complete (s : State κ) (n : Nat) : Op → State κ
  | .carrier stage size got => readExactGuarded method s stage size got n
  | _ => s

def step (s : State κ) : Event → State κ
  | .read size => receive method s size
  | .cancelRead => cancelReceive s
  | .close => close s
  | .lowerFails => s.lowerFails .transport
  | .complete i n =>
    match s.ops[i]? with
    | none => s
    | some op => complete method { s with ops := s.ops.eraseIdx i } n op

variable {i : Nat} {s : State κ}

theorem step_complete {method : CipherMethod κ} {op : Op} (hop : s.ops[i]? = some op) (n : Nat) :
    step method s (.complete i n) = complete method { s with ops := s.ops.eraseIdx i } n op := by
  unfold step
  dsimp only
  rw [hop]

theorem step_complete_none {method : CipherMethod κ} (hop : s.ops[i]? = none) (n : Nat) :
    step method s (.complete i n) = s := by
  unfold step
  dsimp only
  rw [hop]

/-! ### The server -/

variable {method} (server : Server method)

def zeroNonce (method : CipherMethod κ) : Bytes := List.replicate method.nonceSize 0

def wire : Bytes := server.salt ++ method.records incrementNonce server.key (zeroNonce method) server.payloads

def start : State κ where
  readNonce := zeroNonce method
  wire := wire server

def run (events : List Event) : State κ := Runs.run (step method) (start server) events

end Model

/-! ## What comes is what the server sends -/

section Reads

variable {κ : Type} {method : CipherMethod κ} {server : Server method} {s : State κ} {P left : Bytes}

/-- **The condition**: a read that wants bytes finds no other read's operation on the lower stream, and a
lower read whose reader is gone brings none. -/
def Served (s : State κ) : Event → Prop
  | .read size => Alone s (.read size)
  | .complete i n => ∀ stage size got, s.ops[i]? = some (.carrier stage size got) → s.readHandler = none →
    s.ended = none → s.wire.take (min n (size - got.length)) = []
  | _ => True

def Ahead (server : Server method) : Next κ := fun s stage size rest left =>
  match stage with
  | .salt => s.readKey = none ∧ s.readNonce = zeroNonce method ∧ size = method.keySize ∧
    rest = wire server ∧ left = server.payloads.flatten
  | stage => RecordsAhead method server.key s size rest left stage

def entry (method : CipherMethod κ) (s : State κ) : Stage × Nat :=
  if s.readKey.isNone then (.salt, method.keySize) else (.length, 2 + method.overhead)

theorem entry_pos (s : State κ) : 0 < (entry method s).2 := by
  have hpos := method.keySize_pos
  unfold entry
  split
  · exact hpos
  · omega

theorem framed : Framed (Ahead server) (entry method) where
  frame {s s' stage size rest left} hkey hnonce _ h := by
    cases stage with
    | salt =>
      unfold Ahead at h ⊢
      rw [hkey, hnonce]
      exact h
    | length => exact recordsAhead_frame hkey hnonce (show RecordsAhead method server.key s size rest left
      .length from h)
    | payload n => exact recordsAhead_frame hkey hnonce (show RecordsAhead method server.key s size rest
      left (.payload n) from h)
    | responseFixed | responseVariable n => exact h.elim
  entry_frame hkey _ := by
    unfold entry
    rw [hkey]
  entry_pos := entry_pos
  short {s stage size rest left} h hshort := by
    cases stage with
    | salt =>
      obtain ⟨-, -, rfl, rfl, -⟩ := h
      rw [wire, length_append, server.salt_length] at hshort
      omega
    | length => exact recordsAhead_short (show RecordsAhead method server.key s size rest left
      .length from h) hshort
    | payload n => exact recordsAhead_short (show RecordsAhead method server.key s size
      rest left (.payload n) from h) hshort
    | responseFixed | responseVariable n => exact h.elim

structure Plain (server : Server method) (s : State κ) : Prop where
  inv : Inv (Ahead server) (entry method) server.payloads.flatten s
  ready : s.obfsResponseReady = true
  initial : s.initialWire = []
  carriers : ∀ op ∈ s.ops, ∃ stage size got, op = .carrier stage size got

variable {stage : Stage} {got : Bytes} {size : Nat}

theorem start_plain (h : Core server.payloads.flatten left s) (hops : s.ops = [])
    (hpending : s.pendingPlaintext = [])
    (hready : s.obfsResponseReady = true) (hinitial : s.initialWire = []) (hgot : got.length < size)
    (hahead : Ahead server s stage size (got ++ s.wire) left) :
    Plain server (s.start (.carrier stage size got)) := by
  have hwaits : Waits (Ahead server) (entry method) left s (.carrier stage size got) :=
    ⟨hready, hinitial, hgot, hahead⟩
  refine ⟨.inl (start_alive h hops hpending _ (hwaits.frame framed rfl rfl rfl rfl rfl rfl)), hready,
    hinitial, fun op hop => ?_⟩
  rw [State.start, hops] at hop
  exact ⟨stage, size, got, mem_singleton.1 hop⟩

theorem received_plain (h : Core server.payloads.flatten left s) (hops : s.ops = [])
    (hpending : s.pendingPlaintext = [])
    (hready : s.obfsResponseReady = true) (hinitial : s.initialWire = []) (hparked : s.readHandler.isSome = true)
    {bytes : Bytes} (hahead : Ahead server s stage bytes.length (bytes ++ s.wire) left) :
    Plain server (received method s stage bytes) := by
  cases stage with
  | salt =>
    obtain ⟨-, hnonce, hsize, hrest, hleft⟩ := hahead
    obtain ⟨rfl, htail⟩ := append_inj hrest (hsize.trans server.salt_length.symm)
    show Plain server (saltReceived method s server.salt)
    unfold saltReceived
    rw [server.derive_salt]
    refine start_plain (s := { s with readKey := some server.key }) { h with } hops hpending hready hinitial
      (by rw [length_nil]; omega) ?_
    rw [nil_append]
    exact ⟨rfl, rfl, server.payloads, server.payload_size, by rw [htail, ← hnonce], hleft⟩
  | length =>
    obtain ⟨n, hdecrypt, hget, hpos, hle, hnext⟩ := length_whole hahead
    have hkey : s.readKey = some server.key := hahead.1
    unfold received
    rw [hkey]
    show Plain server (lengthReceived method s server.key bytes)
    unfold lengthReceived
    rw [hdecrypt]
    dsimp only
    rw [if_neg (not_not.2 (Wire.length_putU16 n)), hget, if_neg (by omega)]
    exact start_plain (s := s.incrementReadNonce) { h with } hops hpending hready hinitial
      (by rw [length_nil]; omega) hnext
  | payload n =>
    obtain ⟨payload, left', hdecrypt, hne, hleft, hnext⟩ := payload_whole hahead
    have hkey : s.readKey = some server.key := hahead.1
    unfold received
    rw [hkey]
    show Plain server (payloadReceived method s server.key bytes)
    unfold payloadReceived
    rw [hdecrypt]
    dsimp only
    rw [if_neg hne]
    have hcore : Core server.payloads.flatten left'
      { s.incrementReadNonce with pendingPlaintext := payload } := by
      refine { h with order := ?_ }
      have horder := h.order
      rw [hpending, nil_append, hleft] at horder
      exact horder
    have hidle : Idle (Ahead server) (entry method) left' s.incrementReadNonce := by
      refine ⟨hops, ?_, fun hnot => absurd (hnot.symm.trans hready) Bool.noConfusion⟩
      have hentry : entry method s.incrementReadNonce = (.length, 2 + method.overhead) := by
        unfold entry
        rw [show s.incrementReadNonce.readKey = some server.key from hkey]
        rfl
      rw [hentry, show s.incrementReadNonce.initialWire = [] from hinitial]
      exact hnext
    refine ⟨.inl ⟨left', hcore.copy hparked, .inl (hidle.frame framed rfl rfl rfl rfl rfl rfl rfl)⟩, hready,
      hinitial, fun op hop => ?_⟩
    have hop : op ∈ s.ops := hop
    rw [hops] at hop
    cases hop
  | responseFixed | responseVariable n => exact hahead.elim

/-! ## The events -/

theorem Plain.results (h : Plain server s) {s' : State κ}
    (hcore : ∀ left, Core server.payloads.flatten left s → Core server.payloads.flatten left s')
    (hdead : Dead server.payloads.flatten s → Dead server.payloads.flatten s') (hkey : s'.readKey = s.readKey)
    (hnonce : s'.readNonce = s.readNonce) (hheader : s'.responseHeaderReady = s.responseHeaderReady)
    (hops : s'.ops = s.ops)
    (hinitial : s'.initialWire = s.initialWire) (hwire : s'.wire = s.wire)
    (hready : s'.obfsResponseReady = s.obfsResponseReady)
    (hpending : s'.pendingPlaintext = s.pendingPlaintext) : Plain server s' :=
  ⟨h.inv.results framed hcore hdead hkey hnonce hheader hops hinitial hwire hready hpending,
    hready.trans h.ready, hinitial.trans h.initial,
    fun op hop => h.carriers op (hops ▸ hop)⟩

theorem answer_plain (h : Plain server s) {result : Except StreamError Bytes}
    (htells : Says s result) : Plain server (s.answer result) :=
  h.results (fun _ hc => hc.answer htells) (fun hd => hd.answer htells.1) rfl rfl rfl rfl rfl rfl rfl rfl

theorem aborted_plain (h : Plain server s) : Plain server (s.finishRead (.error .operationAborted)) := by
  refine h.results (fun _ hc => ?_) (fun hd => hd.finish rfl) rfl rfl rfl rfl rfl rfl rfl rfl
  exact hc.finish rfl (fun e he => .inl (Except.error.inj he).symm) nofun

theorem lowerFails_plain (h : Plain server s) (e : StreamError) : Plain server (s.lowerFails e) :=
  { h with inv := lowerFails_inv framed h.inv e }

theorem close_plain (h : Plain server s) : Plain server (close s) := by
  have hclosed : Plain server { s with closed := true } :=
    h.results (fun _ hc => { hc with })
      (fun hd => { hd with }) rfl rfl rfl rfl rfl rfl rfl rfl
  unfold close
  split
  · exact h
  · split
    · exact aborted_plain (lowerFails_plain hclosed .operationAborted)
    · exact lowerFails_plain hclosed .operationAborted

theorem serve_plain (h : Plain server s) (hpending : s.pendingPlaintext ≠ []) (size : Nat) : Plain server
    (serve s size) := by
  obtain ⟨⟨left, hc, hidle | ⟨op, -, hnil, -⟩⟩ | hd, hready, hinitial, hcarriers⟩ := h
  · have hdelivered : (serve s size).delivered = s.delivered ++ s.pendingPlaintext.take size := by
      unfold serve State.answer State.delivered
      rw [delivered_append]
      rfl
    have hcore : Core server.payloads.flatten left (serve s size) := by
      refine ⟨?_, fun id e he => ?_, fun id hid => ?_, hc.parked⟩
      · show (serve s size).delivered ++ (s.pendingPlaintext.drop size ++ left) = _
        rw [hdelivered, append_assoc, ← append_assoc (s.pendingPlaintext.take _), take_append_drop]
        exact hc.order
      · rcases mem_append.1 he with hold | hnew
        · exact hc.fails id e hold
        · exact nomatch (Prod.ext_iff.1 (mem_singleton.1 hnew)).2
      · rcases mem_append.1 hid with hold | hnew
        · refine ⟨(hc.whole id hold).1, fun hwire => ?_⟩
          have hall := (hc.whole id hold).2 hwire
          have horder := hc.order
          rw [hall] at horder
          exact absurd (append_eq_nil_iff.1 (self_eq_append_right.1 horder.symm)).1 hpending
        · exact nomatch (Prod.ext_iff.1 (mem_singleton.1 hnew)).2
    exact ⟨.inl ⟨left, hcore, .inl (hidle.frame framed rfl rfl rfl rfl rfl rfl rfl)⟩, hready,
      hinitial, hcarriers⟩
  · exact absurd hnil hpending
  · exact absurd hd.pending hpending

theorem begin_plain (h : Plain server s) (hops : s.ops = []) (hpending : s.pendingPlaintext = []) :
    Plain server (s.start (.carrier (entry method s).1 (entry method s).2 [])) := by
  obtain ⟨⟨left, hc, hidle | ⟨op, hop, -, -⟩⟩ | hd, hready, hinitial, hcarriers⟩ := h
  · have hahead := hidle.2.1
    rw [hinitial, nil_append] at hahead
    exact start_plain hc hops hpending hready hinitial (entry_pos s) hahead
  · rw [hops] at hop
    cases hop
  · refine ⟨.inr { hd with ops := fun stage bytes hmem => ?_ }, hready, hinitial,
      fun op hop => ?_⟩
    · rw [State.start, hops] at hmem
      cases mem_singleton.1 hmem
    · rw [State.start, hops] at hop
      exact ⟨_, _, _, mem_singleton.1 hop⟩

theorem receive_plain (h : Plain server s) (size : Nat) (halone : Alone s (.read size)) :
    Plain server (receive method s size) := by
  unfold receive
  split
  · exact answer_plain h ⟨rfl, (by intro he; cases he), fun e he => .inl (Except.error.inj he).symm⟩
  · split
    · exact answer_plain h ⟨rfl, (by intro he; cases he), fun e he => .inr (.inl (Except.error.inj he).symm)⟩
    · rename_i hfree
      have hfree : s.readInProgress = false := by simpa using hfree
      split
      · exact serve_plain h ‹_› size
      · rename_i hpending
        have hpending : s.pendingPlaintext = [] := not_not.1 hpending
        have hparked : Plain server (s.park size) :=
          h.results (fun _ hc => { hc with parked := rfl })
            (fun hd => { hd with parked := rfl }) rfl rfl rfl rfl rfl rfl rfl rfl
        split
        · refine hparked.results (fun _ hc => ?_) (fun hd => hd.finish rfl) rfl rfl rfl rfl rfl rfl rfl rfl
          exact hc.finish rfl (fun e he => (nomatch he)) nofun
        · rename_i hsize
          have hops : s.ops = [] := halone hfree hsize hpending
          have hstart : Plain server ((s.park size).start (.carrier (entry method s).1 (entry method s).2 [])) :=
            begin_plain hparked hops hpending
          unfold entry at hstart
          split
          · rename_i hnone
            rw [if_pos hnone] at hstart
            exact hstart
          · rename_i hsome
            rw [if_neg hsome] at hstart
            exact hstart

theorem carrier_plain (h : Core server.payloads.flatten left s) (hops : s.ops = [])
    (hpending : s.pendingPlaintext = [])
    (hwaits : Waits (Ahead server) (entry method) left s (.carrier stage size got)) (n : Nat)
    (hserved : s.readHandler = none → s.ended = none → s.wire.take (min n (size - got.length)) = []) :
    Plain server (readExactGuarded method s stage size got n) := by
  obtain ⟨hready, hinitial, hgot, hahead⟩ := hwaits
  unfold readExactGuarded
  rcases hlower : s.lowerRead (size - got.length) n with ⟨result, s'⟩
  dsimp only
  cases result with
  | error e =>
    have heq := lowerRead_error hlower
    subst heq
    have hdead : Dead server.payloads.flatten { s with ended := some e } := by
      refine (h.ends e).dead hinitial hops hpending rfl fun hwire => ?_
      rw [hwire, append_nil] at hahead
      exact (framed.short hahead hgot).2
    have hfinish : ∀ e', Plain server (({ s with ended := some e } : State κ).finishRead
      (.error e')) := fun e' =>
      ⟨.inr (hdead.finish rfl), hready, hinitial, fun op hop => by
        rw [hops] at hop
        cases hop⟩
    split
    · rename_i hgone
      have hgone : s.readHandler = none := by simpa using hgone
      refine ⟨.inr ⟨rfl, hdead.order, hdead.whole, hpending, ?_, hinitial, hdead.ops⟩, hready, hinitial,
        fun op hop => ?_⟩
      · rw [hgone]
        rfl
      · have hop : op ∈ s.ops := hop
        rw [hops] at hop
        cases hop
    · cases stage with
      | payload => exact hfinish _
      | salt | responseFixed | responseVariable | length => exact hfinish _
  | ok chunk =>
    have hparked : s.readHandler.isSome = true := by
      by_contra hnot
      have hgone : s.readHandler = none := by simpa using hnot
      obtain ⟨-, -, hnone, -⟩ := lowerRead_ok hlower
      have hend : s.lowerRead (size - got.length) n = (.error .eof, { s with ended := some .eof }) := by
        unfold State.lowerRead
        rw [hnone]
        exact if_pos (hserved hgone hnone)
      rw [hend] at hlower
      cases hlower
    obtain ⟨-, hle, hnone, wire, hwire, rfl⟩ := lowerRead_ok hlower
    have hcore := h.brought hnone wire
    rw [hwire, ← append_assoc] at hahead
    rw [if_neg (by simp [Option.isNone_eq_false_iff.2 hparked])]
    dsimp only
    split
    · rename_i hfull
      rw [← hfull] at hahead
      exact received_plain hcore hops hpending hready hinitial hparked hahead
    · rename_i hmore
      rw [length_append] at hmore
      exact start_plain hcore hops hpending hready hinitial (by rw [length_append]; omega) hahead

theorem complete_plain (h : Plain server s) (i n : Nat) (hserved : Served s (.complete i n)) :
    Plain server (step method s (.complete i n)) := by
  cases hop : s.ops[i]? with
  | none =>
    rw [step_complete_none hop]
    exact h
  | some op =>
    rw [step_complete hop]
    obtain ⟨stage, size, got, rfl⟩ := h.carriers op (mem_of_getElem? hop)
    show Plain server (readExactGuarded method { s with ops := s.ops.eraseIdx i } stage size got n)
    rcases h.inv with ⟨left, hc, hidle | ⟨op', hops, hpending, hwaits⟩⟩ | hd
    · rw [hidle.1] at hop
      cases hop
    · have hop' := hop
      rw [hops] at hop'
      obtain ⟨rfl, rfl⟩ : i = 0 ∧ op' = .carrier stage size got := by
        cases i with
        | zero => exact ⟨rfl, Option.some.inj hop'⟩
        | succ i => cases hop'
      have hserved := hserved stage size got hop
      rw [hops]
      exact carrier_plain (s := { s with ops := [] }) { hc with } rfl hpending
        (hwaits.frame framed rfl rfl rfl rfl rfl rfl) n hserved
    · obtain ⟨e, he⟩ := Option.isSome_iff_exists.1 hd.ended
      have hcarriers : ∀ op ∈ s.ops.eraseIdx i, ∃ stage size got, op = .carrier stage size got :=
        fun op hop => h.carriers op (mem_of_mem_eraseIdx hop)
      have hdead : Dead server.payloads.flatten { s with ops := s.ops.eraseIdx i } :=
        { hd with ops := fun stage bytes hmem => hd.ops stage bytes (mem_of_mem_eraseIdx hmem) }
      have hfinish : ∀ e', Plain server (({ s with ops := s.ops.eraseIdx i } : State κ).finishRead
        (.error e')) := fun e' =>
        ⟨.inr (hdead.finish rfl), h.ready, h.initial, hcarriers⟩
      have hlower : ({ s with ops := s.ops.eraseIdx i } : State κ).lowerRead (size - got.length) n =
          (.error e, { s with ops := s.ops.eraseIdx i }) := by
        unfold State.lowerRead
        rw [he]
      unfold readExactGuarded
      rw [hlower]
      dsimp only
      split
      · rename_i hgone
        have hgone : s.readHandler = none := by simpa using hgone
        refine ⟨.inr { hd with parked := ?_, ops := hdead.ops }, h.ready, h.initial, hcarriers⟩
        rw [hgone]
        rfl
      · cases stage with
        | payload => exact hfinish _
        | salt | responseFixed | responseVariable | length => exact hfinish _

theorem step_plain (s : State κ) (e : Event) (h : Plain server s) (hserved : Served s e) : Plain server
    (step method s e) := by
  cases e with
  | read size => exact receive_plain h size hserved
  | cancelRead =>
    show Plain server (cancelReceive s)
    unfold cancelReceive
    split
    · exact aborted_plain h
    · exact h
  | close => exact close_plain h
  | lowerFails => exact lowerFails_plain h .transport
  | complete i n => exact complete_plain h i n hserved

theorem new_plain (server : Server method) : Plain server (start server) := by
  refine ⟨.inl ⟨server.payloads.flatten, ⟨rfl, nofun, nofun, rfl⟩,
    .inl ⟨rfl, ?_, nofun⟩⟩,
    rfl, rfl, nofun⟩
  exact ⟨rfl, rfl, rfl, rfl, rfl⟩

theorem intact (server : Server method) (before after : List Event)
    (hserved : Runs.Along (step method) Served (start server) (before ++ after)) :
    Intact server.payloads.flatten (run server before) := by
  have hbefore := ((Runs.along_append before after (start server)).1 hserved).1
  have hplain := Runs.along_induction (P := Plain server) step_plain before (start server)
    (new_plain server) hbefore
  exact hplain.inv.intact

end Reads

end ClashNative.Shadowsocks.TrojanSs
