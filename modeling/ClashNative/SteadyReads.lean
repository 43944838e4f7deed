import ClashNative.RecordStreamReads
/-!
# SteadyReads — reads of a record stream that nobody cancels

With nothing but reads and completions that bring something, a read that waits has one operation of its
own, and every completion brings it nearer to its answer: it gets more of what the server sends, or all of
that has been given.
-/
namespace ClashNative.Shadowsocks

open List

open LegacyStream (ObfsMode)

variable {κ : Type}

/-- A completion may bring something; behind the head of an HTTP response there need not be anything yet.
-/
def Brings (mode : ObfsMode) (s : State κ) (i n : Nat) : Prop :=
  0 < n ∨ mode = .http ∧ s.ops[i]? = some .obfsResponse

def Op.held : Op → Nat
  | .obfsResponse => 1
  | .carrier _ _ got | .obfsRecord _ _ got => got.length
  | .exact _ bytes => bytes.length

/-- `read_exact` reads the records of a TLS obfs layer, or the carrier. -/
def Op.Suits (mode : ObfsMode) : Op → Prop
  | .carrier .. => mode ≠ .tls
  | .obfsRecord .. => mode = .tls
  | _ => True

/-- How far a read has to go at most: a byte of the lower stream counts twice. -/
def State.toGo (s : State κ) : Nat := (s.ops.map Op.held).sum + s.initialWire.length + 2 * s.wire.length

def Clean (s : State κ) : Prop := ∀ id e, (id, .error e) ∈ s.results → e = .alreadyStarted

section Steady

variable (Ahead : Next κ) (entry : State κ → Stage × Nat) (P : Bytes)

structure Free (s : State κ) : Prop where
  alive : Alive Ahead entry P s
  ops : s.ops = []
  progress : s.readInProgress = false
  unended : s.ended = none
  clean : Clean s

structure Busy (mode : ObfsMode) (s : State κ) : Prop where
  alive : Alive Ahead entry P s
  ops : s.ops ≠ []
  progress : s.readInProgress = true
  room : 0 < s.readBuffer
  unended : s.ended = none
  clean : Clean s
  held : ∀ stage bytes, .exact stage bytes ∈ s.ops → bytes ≠ []
  suits : ∀ op ∈ s.ops, op.Suits mode

/-- **All has been given**, and the lower stream has ended. -/
structure Over (s : State κ) : Prop where
  dead : Dead P s
  wire : s.wire = []
  lone : s.ops.length = if s.readInProgress then 1 else 0

def Steady (mode : ObfsMode) (s : State κ) : Prop := Free Ahead entry P s ∨ Busy Ahead entry P mode s ∨ Over P s

/-- What a completion comes to, where `d` bytes had been delivered: all is given, or more, or the read
goes on with less to go. -/
def Onward (mode : ObfsMode) (toGo d : Nat) (s : State κ) : Prop :=
  Over P s ∨ s.obfsResponseReady = true ∧
    (Free Ahead entry P s ∧ d < s.delivered.length ∨ Busy Ahead entry P mode s ∧
      s.delivered.length = d ∧ s.toGo < toGo)

end Steady

variable {Ahead : Next κ} {entry : State κ → Stage × Nat} {P left : Bytes} {s : State κ} {r : Reader κ}
    {mode : ObfsMode}

theorem Over.delivered (h : Over P s) : s.delivered = P := h.dead.whole h.wire

theorem Inv.alive (h : Inv Ahead entry P s) (hopen : s.ended = none) : Alive Ahead entry P s := by
  rcases h with halive | hdead
  · exact halive
  · have hended := hdead.ended
    rw [hopen] at hended
    cases hended

theorem Steady.in_order (h : Steady Ahead entry P mode s) : s.delivered <+: P := by
  rcases h with h | h | h
  · obtain ⟨left, hcore, -⟩ := h.alive
    exact ⟨_, hcore.order⟩
  · obtain ⟨left, hcore, -⟩ := h.alive
    exact ⟨_, hcore.order⟩
  · exact h.dead.order

theorem Steady.fails (h : Steady Ahead entry P mode s) {id : Nat} {e : StreamError}
    (he : (id, .error e) ∈ s.results) :
    e = .alreadyStarted ∨ s.delivered = P := by
  rcases h with h | h | h
  · exact .inl (h.clean id e he)
  · exact .inl (h.clean id e he)
  · exact .inr h.delivered

/-! ### What the functions start -/

theorem readExactTls_starts (s : State κ) (stage : Stage) (size : Nat) (copied : Bytes) : ∃ op initialWire,
    s.readExactTls stage size copied = { s with initialWire := initialWire }.start op ∧
      op.held + initialWire.length = copied.length + s.initialWire.length ∧ op.Suits .tls ∧
        ∀ stage' bytes, op = .exact stage' bytes → bytes.length = size := by
  have hsplit : (s.initialWire.take (size - copied.length)).length +
    (s.initialWire.drop (size - copied.length)).length = s.initialWire.length := by
    rw [← length_append, take_append_drop]
  unfold State.readExactTls
  dsimp only
  split
  · rename_i hfull
    refine ⟨_, _, rfl, ?_, trivial, fun stage' bytes heq => ?_⟩
    · rw [Op.held, length_append]
      omega
    · cases heq
      exact hfull
  · refine ⟨_, _, rfl, ?_, rfl, nofun⟩
    rw [Op.held, length_append]
    omega

theorem readExact_starts (s : State κ) (mode : ObfsMode) (stage : Stage) (size : Nat) : ∃ op initialWire,
    s.readExact mode stage size = { s with initialWire := initialWire }.start op ∧
      op.held + initialWire.length = s.initialWire.length ∧ op.Suits mode ∧
      ∀ stage' bytes, op = .exact stage' bytes → bytes.length = size := by
  have hsplit : (s.initialWire.take size).length + (s.initialWire.drop size).length = s.initialWire.length := by
    rw [← length_append, take_append_drop]
  unfold State.readExact
  split
  · rename_i htls
    obtain ⟨op, initialWire, heq, hheld, hsuits, hsize⟩ := readExactTls_starts s stage size []
    exact ⟨op, initialWire, heq, by rw [hheld, length_nil, Nat.zero_add], htls ▸ hsuits, hsize⟩
  · rename_i htls
    dsimp only
    split
    · rename_i hfull
      refine ⟨_, _, rfl, hsplit, trivial, fun stage' bytes heq => ?_⟩
      cases heq
      exact hfull
    · exact ⟨_, _, rfl, hsplit, htls, nofun⟩

theorem toGo_start (hops : s.ops = []) (op : Op) (initialWire : Bytes) :
    ({ s with initialWire := initialWire }.start op).toGo =
    op.held + initialWire.length + 2 * s.wire.length := by
  unfold State.toGo State.start
  rw [hops]
  simp

theorem busy_start {op : Op} {initialWire : Bytes}
    (halive : Alive Ahead entry P ({ s with initialWire := initialWire }.start op))
    (hprogress : s.readInProgress = true) (hroom : 0 < s.readBuffer) (hopen : s.ended = none)
    (hclean : Clean s) (hops : s.ops = [])
    (hsuits : op.Suits mode) (hheld : ∀ stage bytes, op = .exact stage bytes → bytes ≠ []) :
      Busy Ahead entry P mode ({ s with initialWire := initialWire }.start op) where
  alive := halive
  ops := append_ne_nil_of_right_ne_nil _ (cons_ne_nil _ _)
  progress := hprogress
  room := hroom
  unended := hopen
  clean := hclean
  held stage bytes hmem := by
    change Op.exact stage bytes ∈ s.ops ++ [op] at hmem
    rw [hops, nil_append, mem_singleton] at hmem
    exact hheld stage bytes hmem.symm
  suits op' hmem := by
    change op' ∈ s.ops ++ [op] at hmem
    rw [hops, nil_append, mem_singleton] at hmem
    rw [hmem]
    exact hsuits

theorem ne_nil_of_size {op : Op} {size : Nat} (hsize : 0 < size)
    (h : ∀ stage bytes, op = .exact stage bytes → bytes.length = size) :
    ∀ stage bytes, op = .exact stage bytes → bytes ≠ [] := by
  intro stage bytes heq
  have hlength := h stage bytes heq
  exact length_pos_iff.1 (by omega)

section Onward

variable (hr : r.Prompt Ahead entry)

include hr

variable {n : Nat} {stage : Stage}

theorem received_onward (hcore : Core P left s) (hops : s.ops = []) (hpending : s.pendingPlaintext = [])
    (hready : s.obfsResponseReady = true)
    (hprogress : s.readInProgress = true) (hroom : 0 < s.readBuffer) (hopen : s.ended = none) (hclean : Clean s)
    {bytes : Bytes} (hahead : Ahead s stage bytes.length (bytes ++ (s.initialWire ++ s.wire)) left)
    (hn : s.toGo < n) :
    Onward Ahead entry P r.mode n s.delivered.length (r.received s stage bytes) := by
  have halive := received_alive hr.toLawful hcore hops hpending hready hahead
  have hhandler : s.readHandler.isSome = true := hcore.parked.trans hprogress
  have htoGo : s.toGo = s.initialWire.length + 2 * s.wire.length := by
    unfold State.toGo
    rw [hops]
    simp
  rcases hr.prompt hahead hpending hhandler hprogress with ⟨key, nonce, ready, stage', size', hsize, -, heq⟩ |
    ⟨key, nonce, ready, p, left', hp, -, -, heq⟩
  · obtain ⟨op, initialWire, hstart, hheld, hsuits, hexact⟩ :=
      readExact_starts (s.turned key nonce ready) r.mode stage' size'
    rw [heq, hstart] at halive ⊢
    have hheld : op.held + initialWire.length = s.initialWire.length := hheld
    refine .inr ⟨hready, .inr ⟨busy_start halive hprogress hroom hopen hclean hops hsuits
      (ne_nil_of_size hsize hexact), rfl, ?_⟩⟩
    rw [toGo_start (s := s.turned key nonce ready) hops]
    show op.held + initialWire.length + 2 * s.wire.length < n
    omega
  · rw [if_pos hhandler] at heq
    obtain ⟨id, hid⟩ := Option.isSome_iff_exists.1 hhandler
    have hdelivered : (r.received s stage bytes).delivered = s.delivered ++ p.take s.readBuffer := by
      rw [heq]
      unfold State.copy State.finishRead State.delivered
      simp only [State.turned, hid, delivered_append]
      rfl
    rw [heq] at halive
    refine .inr ⟨by rw [heq]; exact hready, .inl ⟨⟨by rwa [heq], ?_, ?_, ?_, fun id e he => ?_⟩, ?_⟩⟩
    · rw [heq]
      exact hops
    · rw [heq]
      rfl
    · rw [heq]
      exact hopen
    · rw [heq] at he
      rcases mem_finishRead he with hold | hnew
      · exact hclean id e hold
      · cases hnew
    · have hpos := length_pos_iff.2 hp
      rw [hdelivered, length_append, length_take]
      omega

omit hr in
theorem over_of_ended (hcore : Core P left s) (hops : s.ops = []) (hpending : s.pendingPlaintext = [])
    (hdrained : s.initialWire = [])
    (hwire : s.wire = []) (hended : s.ended.isSome = true) (hleft : left = []) (e : StreamError) :
    Over P (s.finishRead (.error e)) where
  dead := (hcore.dead hdrained hops hpending hended fun _ => hleft).finish rfl
  wire := hwire
  lone := by
    rw [State.finishRead, hops]
    rfl

omit hr in
theorem lowerRead_ends {s' : State κ} {room : Nat} {e : StreamError}
    (h : s.lowerRead room n = (.error e, s')) (hopen : s.ended = none)
    (hroom : 0 < room) (hn : 0 < n) : s.wire = [] ∧ s' = { s with ended := some .eof } := by
  unfold State.lowerRead at h
  rw [hopen] at h
  dsimp only at h
  split at h
  · rename_i hnil
    cases h
    refine ⟨(take_eq_nil_iff.1 hnil).resolve_left ?_, rfl⟩
    omega
  · cases h

theorem obfsResponse_onward (hcore : Core P left s) (hops : s.ops = []) (hpending : s.pendingPlaintext = [])
    (hprogress : s.readInProgress = true) (hroom : 0 < s.readBuffer) (hopen : s.ended = none) (hclean : Clean s)
    (hwaits : Waits Ahead entry left s .obfsResponse) (hn : 0 < n ∨ r.mode = .http) :
    Onward Ahead entry P r.mode (1 + s.initialWire.length + 2 * s.wire.length) s.delivered.length
    (r.obfsResponse s n) := by
  have hinv := obfsResponse_inv hr.toLawful hcore hops hpending hwaits n
  obtain ⟨-, hkey, hinitial, hahead⟩ := hwaits
  unfold Reader.obfsResponse at hinv ⊢
  split
  · rename_i hend
    have hwire : s.wire = [] := by
      rw [hopen] at hend
      obtain ⟨htls, hnil⟩ := hend.resolve_left (by decide)
      rcases hn with hpos | hhttp
      · exact (take_eq_nil_iff.1 hnil).resolve_left (by omega)
      · rw [hhttp] at htls
        cases htls
    have hended : s.lowerFails .eof = { s with ended := some .eof } := by
      unfold State.lowerFails
      rw [hopen]
      rfl
    rw [hended]
    rw [hwire] at hahead
    exact .inl (over_of_ended (hcore.ends .eof) hops hpending hinitial hwire rfl
      (hr.short hahead (hr.entry_pos s)).2 _)
  · rename_i hgoes
    rw [if_neg hgoes] at hinv
    have heq := hr.receiveSalt { s with
        wire := s.wire.drop n, initialWire := s.wire.take n, obfsResponseReady := true } hkey
    obtain ⟨op, initialWire, hstart, hheld, hsuits, hexact⟩ := readExact_starts
      { s with wire := s.wire.drop n, initialWire := s.wire.take n, obfsResponseReady := true } r.mode _ _
    unfold Reader.obfsResponseRead at hinv ⊢
    dsimp only at hinv ⊢
    rw [heq, hstart] at hinv ⊢
    refine .inr ⟨rfl, .inr ⟨busy_start (hinv.alive hopen) hprogress hroom hopen
      hclean hops hsuits (ne_nil_of_size (hr.entry_pos _) hexact),
      rfl, ?_⟩⟩
    have hlength : (s.wire.take n).length + (s.wire.drop n).length
      = s.wire.length := by rw [← length_append, take_append_drop]
    have hheld : op.held + initialWire.length = (s.wire.take n).length := hheld
    rw [toGo_start (s := { s with
      wire := s.wire.drop n, initialWire := s.wire.take n, obfsResponseReady := true }) hops]
    show op.held + initialWire.length + 2 * (s.wire.drop n).length < _
    omega

variable {size : Nat}

theorem carrierRead_onward (hcore : Core P left s) (hops : s.ops = []) (hpending : s.pendingPlaintext = [])
    (hprogress : s.readInProgress = true) (hroom : 0 < s.readBuffer) (hopen : s.ended = none) (hclean : Clean s)
    {got : Bytes} (hmode : r.mode ≠ .tls) (hwaits : Waits Ahead entry left s (.carrier stage size got))
    (hn : 0 < n) :
    Onward Ahead entry P r.mode (got.length + s.initialWire.length + 2 * s.wire.length) s.delivered.length
    (r.carrierRead s stage size got n) := by
  have hinv := carrierRead_inv hr.toLawful hcore hops hpending hwaits n
  obtain ⟨hready, hinitial, hgot, hahead⟩ := hwaits
  unfold Reader.carrierRead at hinv ⊢
  cases hlower : s.lowerRead (size - got.length) n with
  | mk result s' =>
    rw [hlower] at hinv
    cases result with
    | error e =>
      obtain ⟨hwire, rfl⟩ := lowerRead_ends hlower hopen (by omega) hn
      rw [hwire, append_nil] at hahead
      exact .inl (over_of_ended (hcore.ends .eof) hops hpending hinitial hwire rfl (hr.short hahead hgot).2 e)
    | ok chunk =>
      obtain ⟨hchunk, hle, -, wire, hwire, rfl⟩ := lowerRead_ok hlower
      have hpos := length_pos_iff.2 hchunk
      have hlength := congrArg List.length hwire
      rw [length_append] at hlength
      dsimp only at hinv ⊢
      have hcore' := hcore.brought hopen wire
      rw [hwire, ← append_assoc] at hahead
      split
      · rename_i hfull
        refine received_onward hr hcore' hops hpending hready hprogress hroom hopen hclean ?_ ?_
        · rw [hfull]
          rw [hinitial, nil_append]
          exact hr.frame (s := s) rfl rfl rfl hahead
        · unfold State.toGo
          simp only [hops, map_nil, sum_nil]
          omega
      · rename_i hmore
        rw [if_neg hmore] at hinv
        refine .inr ⟨hready, .inr ⟨busy_start (s := { s with wire := wire })
          (hinv.alive hopen) hprogress hroom hopen hclean hops
          hmode (nofun), rfl, ?_⟩⟩
        have htoGo := toGo_start (s := { s with wire := wire }) hops
          (.carrier stage size (got ++ chunk)) s.initialWire
        rw [Op.held, length_append] at htoGo
        refine Nat.lt_of_le_of_lt (Nat.le_of_eq htoGo) ?_
        dsimp only
        omega

theorem obfsRecord_onward (hcore : Core P left s) (hops : s.ops = []) (hpending : s.pendingPlaintext = [])
    (hprogress : s.readInProgress = true) (hroom : 0 < s.readBuffer) (hopen : s.ended = none) (hclean : Clean s)
    {copied : Bytes} (hmode : r.mode = .tls)
    (hwaits : Waits Ahead entry left s (.obfsRecord stage size copied)) (hn : 0 < n) :
    Onward Ahead entry P r.mode (copied.length + s.initialWire.length + 2 * s.wire.length) s.delivered.length
      (r.obfsRecord s stage size copied n) := by
  have hinv := obfsRecord_inv hr.toLawful hcore hops hpending hwaits n
  obtain ⟨hready, hinitial, hcopied, hahead⟩ := hwaits
  unfold Reader.obfsRecord at hinv ⊢
  cases hlower : s.lowerRead n n with
  | mk result s' =>
    rw [hlower] at hinv
    cases result with
    | error e =>
      obtain ⟨hwire, rfl⟩ := lowerRead_ends hlower hopen hn hn
      rw [hwire, append_nil] at hahead
      exact .inl (over_of_ended (hcore.ends .eof) hops hpending hinitial hwire rfl (hr.short hahead hcopied).2 _)
    | ok payload =>
      obtain ⟨hpayload, -, -, wire, hwire, rfl⟩ := lowerRead_ok hlower
      have hpos := length_pos_iff.2 hpayload
      have hlength := congrArg List.length hwire
      rw [length_append] at hlength
      dsimp only at hinv ⊢
      obtain ⟨op, initialWire, hstart, hheld, hsuits, hexact⟩ :=
        readExactTls_starts { s with wire := wire, initialWire := payload } stage size copied
      rw [hstart] at hinv ⊢
      refine .inr ⟨hready, .inr ⟨busy_start (s := { s with wire := wire, initialWire := payload })
        (hinv.alive hopen) hprogress hroom hopen
        hclean hops (hmode ▸ hsuits) (ne_nil_of_size (by omega) hexact), rfl, ?_⟩⟩
      rw [toGo_start (s := { s with wire := wire, initialWire := payload }) hops]
      have hheld : op.held + initialWire.length = copied.length + payload.length := hheld
      show op.held + initialWire.length + 2 * wire.length < _
      omega

theorem complete_onward (h : Busy Ahead entry P r.mode s) (hn : Brings r.mode s 0 n) :
    Onward Ahead entry P r.mode s.toGo s.delivered.length (r.step s (.complete 0 n)) := by
  obtain ⟨left, hcore, hidle | ⟨op, hop, hpending, hwaits⟩⟩ := h.alive
  · exact absurd hidle.1 h.ops
  · have hget : s.ops[0]? = some op := by
      rw [hop]
      rfl
    have hcore' : Core P left { s with ops := [] } := { hcore with }
    have hwaits' : Waits Ahead entry left { s with
        ops := [] } op := hwaits.frame hr.toFramed rfl rfl rfl rfl rfl rfl
    have herase : s.ops.eraseIdx 0 = [] := by rw [hop, eraseIdx_cons_zero]
    have htoGo : s.toGo = op.held + s.initialWire.length + 2 * s.wire.length := by
      unfold State.toGo
      rw [hop]
      simp
    rw [Reader.step_complete hget, herase, htoGo]
    have hclean : Clean { s with ops := [] } := h.clean
    have hsuits : op.Suits r.mode := h.suits op (by rw [hop]; exact mem_singleton_self _)
    unfold Brings at hn
    rw [hget] at hn
    cases op with
    | obfsResponse =>
      exact obfsResponse_onward hr hcore' rfl hpending h.progress h.room h.unended hclean hwaits'
        (hn.imp_right And.left)
    | carrier stage size got =>
      exact carrierRead_onward hr hcore' rfl hpending h.progress h.room h.unended hclean hsuits hwaits'
        (hn.resolve_right fun hhttp => nomatch hhttp.2)
    | obfsRecord stage size copied =>
      exact obfsRecord_onward hr hcore' rfl hpending h.progress h.room h.unended hclean hsuits hwaits'
        (hn.resolve_right fun hhttp => nomatch hhttp.2)
    | exact stage bytes =>
      have hne := length_pos_iff.2 (h.held stage bytes (by rw [hop]; exact mem_singleton_self _))
      refine received_onward hr hcore' rfl hpending hwaits'.1 h.progress h.room h.unended hclean hwaits'.2 ?_
      unfold State.toGo
      simp only [map_nil, sum_nil, Op.held]
      omega

omit hr in
theorem Over.complete (h : Over P s) (i n : Nat) : Over P (r.step s (.complete i n)) := by
  cases hop : s.ops[i]? with
  | none =>
    rw [Reader.step_complete_none hop]
    exact h
  | some op =>
    rw [Reader.step_complete hop]
    have hlt := (List.getElem?_eq_some_iff.1 hop).1
    have hprogress : s.readInProgress = true := by
      by_contra hfree
      have hlone := h.lone
      rw [if_neg hfree] at hlone
      omega
    have hlone : s.ops.length = 1 := by
      have hlone := h.lone
      rwa [if_pos hprogress] at hlone
    have hnil : s.ops.eraseIdx i = [] := by
      have hlength := length_eraseIdx_of_lt hlt
      exact length_eq_zero_iff.1 (by omega)
    have hdead : Dead P { s with ops := s.ops.eraseIdx i } := ⟨h.dead.ended, h.dead.order, h.dead.whole,
      h.dead.pending, h.dead.parked,
      h.dead.drained, fun stage bytes hmem => h.dead.ops stage bytes (mem_of_mem_eraseIdx hmem)⟩
    obtain ⟨e, he⟩ := Option.isSome_iff_exists.1 h.dead.ended
    have hlower : ∀ room, State.lowerRead { s with ops := s.ops.eraseIdx i } room n =
      (.error e, { s with ops := s.ops.eraseIdx i }) := by
      intro room
      unfold State.lowerRead
      rw [he]
    have hfinish : ∀ result : Except StreamError Bytes, dataOf result = [] →
        Over P (State.finishRead { s with ops := s.ops.eraseIdx i } result) := fun result hdata =>
      ⟨hdead.finish hdata, h.wire, congrArg List.length hnil⟩
    cases op with
    | obfsResponse =>
      show Over P (r.obfsResponse _ n)
      unfold Reader.obfsResponse
      rw [if_pos (.inl h.dead.ended)]
      have hsame : State.lowerFails { s with ops := s.ops.eraseIdx i } .eof =
        { s with ops := s.ops.eraseIdx i } := by
        rw [he]
        show ({ s with ops := s.ops.eraseIdx i, ended := some e } : State κ) = _
        rw [← he]
      rw [hsame]
      exact hfinish _ rfl
    | carrier stage size got =>
      show Over P (r.carrierRead _ stage size got n)
      unfold Reader.carrierRead
      rw [hlower]
      exact hfinish _ rfl
    | obfsRecord stage size copied =>
      show Over P (r.obfsRecord _ stage size copied n)
      unfold Reader.obfsRecord
      rw [hlower]
      exact hfinish _ rfl
    | exact stage bytes => exact absurd (mem_of_getElem? hop) (h.dead.ops stage bytes)

/-! ### Reads -/

omit hr in
theorem answer_clean (h : Clean s) {result : Except StreamError Bytes} (hresult : ∀ e, result = .error e →
    e = .alreadyStarted) :
    Clean (s.answer result) := by
  intro id e he
  rcases mem_append.1 he with hold | hnew
  · exact h id e hold
  · exact hresult e (Prod.ext_iff.1 (mem_singleton.1 hnew)).2.symm

theorem answer_steady (h : Steady Ahead entry P r.mode s) (result : Except StreamError Bytes)
    (hdata : dataOf result = [])
    (hresult : ∀ e, result = .error e → e = .alreadyStarted) :
    Steady Ahead entry P r.mode (s.answer result) ∧
    (Busy Ahead entry P r.mode s → Busy Ahead entry P r.mode (s.answer result)) := by
  have hsays : Says s result := by
    refine ⟨hdata, fun heof => ?_, fun e he => .inr (.inl (hresult e he))⟩
    cases hresult .eof heof
  have hbusy : Busy Ahead entry P r.mode s → Busy Ahead entry P r.mode (s.answer result) := fun h =>
    ⟨(answer_inv hr.toFramed (.inl h.alive) hsays).alive h.unended, h.ops, h.progress, h.room, h.unended,
      answer_clean h.clean hresult, h.held,
      h.suits⟩
  refine ⟨?_, hbusy⟩
  rcases h with h | h | h
  · exact .inl ⟨(answer_inv hr.toFramed (.inl h.alive) hsays).alive h.unended, h.ops, h.progress, h.unended,
      answer_clean h.clean hresult⟩
  · exact .inr (.inl (hbusy h))
  · exact .inr (.inr { h with dead := h.dead.answer hdata })

theorem read_free (h : Free Ahead entry P s) (hsize : 0 < size) :
    Free Ahead entry P (r.read s size) ∧ s.delivered.length < (r.read s size).delivered.length ∨
      Busy Ahead entry P r.mode (r.read s size) ∧ (r.read s size).delivered = s.delivered := by
  have hinv := read_inv hr.toLawful (.inl h.alive) size fun _ _ _ => h.ops
  unfold Reader.read at hinv ⊢
  rw [if_neg (by rw [h.progress]; decide), if_neg (by omega)] at hinv ⊢
  split
  · rename_i hpending
    rw [if_pos hpending] at hinv
    refine .inl ⟨⟨hinv.alive h.unended, h.ops, rfl, h.unended, fun id e he => ?_⟩, ?_⟩
    · rcases mem_finishRead he with hold | hnew
      · exact h.clean id e hold
      · cases hnew
    · have hdelivered : (s.park size).copy.delivered = s.delivered ++ s.pendingPlaintext.take size := by
        unfold State.copy State.finishRead State.delivered State.park
        simp only [delivered_append]
        rfl
      have hpos := length_pos_iff.2 hpending
      rw [hdelivered, length_append, length_take]
      omega
  · rename_i hpending
    rw [if_neg hpending] at hinv
    right
    split
    · rename_i hnot
      rw [if_pos hnot] at hinv
      exact ⟨busy_start (s := s.park size)
        (hinv.alive h.unended) rfl hsize h.unended h.clean h.ops trivial nofun, rfl⟩
    · rename_i hready
      rw [if_neg hready] at hinv
      obtain ⟨op, initialWire, hstart, -, hsuits, hexact⟩ :=
        readExact_starts (s.park size) r.mode (entry (s.park size)).1 (entry (s.park size)).2
      rw [hr.receive, hstart] at hinv ⊢
      exact ⟨busy_start (s := s.park size) (hinv.alive h.unended) rfl hsize h.unended h.clean h.ops hsuits
        (ne_nil_of_size (hr.entry_pos _) hexact),
        rfl⟩

theorem Over.read (h : Over P s) (size : Nat) : Over P (r.read s size) := by
  unfold Reader.read
  split
  · exact { h with dead := h.dead.answer rfl }
  · rename_i hfree
    split
    · exact { h with dead := h.dead.answer rfl }
    · have hops : s.ops = [] := by
        have hlone := h.lone
        rw [if_neg hfree] at hlone
        exact length_eq_zero_iff.1 hlone
      have hparked : Dead P (s.park size) :=
        ⟨h.dead.ended, h.dead.order, h.dead.whole, h.dead.pending, rfl, h.dead.drained, h.dead.ops⟩
      rw [if_neg (not_not.2 h.dead.pending)]
      split
      · refine ⟨⟨h.dead.ended, h.dead.order, h.dead.whole, h.dead.pending, rfl, h.dead.drained,
          fun stage bytes hmem => ?_⟩, h.wire, ?_⟩
        · rcases mem_append.1 hmem with hold | hnew
          · exact h.dead.ops stage bytes hold
          · cases mem_singleton.1 hnew
        · show (s.ops ++ [_]).length = 1
          rw [hops]
          rfl
      · have hdead : Dead P ((s.park size).readExact r.mode (entry (s.park size)).1 (entry (s.park size)).2) :=
          readExact_dead hparked (hr.entry_pos _) r.mode
        obtain ⟨op, initialWire, hstart, -⟩ :=
          readExact_starts (s.park size) r.mode (entry (s.park size)).1 (entry (s.park size)).2
        rw [hr.receive]
        refine ⟨hdead, ?_, ?_⟩
        · rw [hstart]
          exact h.wire
        · rw [hstart]
          show (s.ops ++ [_]).length = 1
          rw [hops]
          rfl

theorem read_steady (h : Steady Ahead entry P r.mode s) (size : Nat) :
    Steady Ahead entry P r.mode (r.read s size) := by
  by_cases hbusy : s.readInProgress = true
  · have heq : r.read s size = s.answer (.error .alreadyStarted) := if_pos hbusy
    rw [heq]
    exact (answer_steady hr h _ rfl fun e he => (Except.error.inj he).symm).1
  · by_cases hsize : size = 0
    · have heq : r.read s size = s.answer (.ok []) := (if_neg hbusy).trans (if_pos hsize)
      rw [heq]
      exact (answer_steady hr h (.ok []) rfl fun e he => by cases he).1
    · rcases h with h | h | h
      · rcases read_free hr h (Nat.pos_of_ne_zero hsize) with ⟨hfree, -⟩ | ⟨hwaits, -⟩
        · exact .inl hfree
        · exact .inr (.inl hwaits)
      · exact absurd h.progress hbusy
      · exact .inr (.inr (h.read hr size))

theorem read_onward (h : Steady Ahead entry P r.mode s) (hsize : 0 < size) :
    Over P (r.read s size) ∨ Free Ahead entry P (r.read s size) ∧
    s.delivered.length < (r.read s size).delivered.length ∨
      Busy Ahead entry P r.mode (r.read s size) ∧ (r.read s size).delivered = s.delivered := by
  rcases h with h | h | h
  · exact .inr (read_free hr h hsize)
  · have heq : r.read s size = s.answer (.error .alreadyStarted) := if_pos h.progress
    have hbusy := (answer_steady hr (.inr (.inl h)) (.error .alreadyStarted) rfl fun e he =>
      (Except.error.inj he).symm).2 h
    refine .inr (.inr ?_)
    rw [heq]
    refine ⟨hbusy, ?_⟩
    unfold State.answer State.delivered
    rw [delivered_append]
    exact append_nil _
  · exact .inl (h.read hr size)

end Onward

end ClashNative.Shadowsocks
