import ClashNative.Runs
import Mathlib.Data.List.TakeWhile
import Mathlib.Tactic.Ring
/-!
# KcpRateLimiter — the output of a KCP stream under a rate limit

The send chain of `KcpStreamState` (`kcp_client.cpp`) with the bucket that it takes its bytes from.  Times
are the nanoseconds of the steady clock.
-/
namespace ClashNative.KcpRateLimiter

open List

def kMaximumDatagramSize : Nat := 65507
def kKcpOverhead : Nat := 24

def wrap (n : Nat) : Nat := n % 2 ^ 64

/-- **The options** that `make_kcp_client_stream` accepts, where there is a limit; `began` is the reading
of the clock that the stream is made at, which is not its zero. -/
structure Config where
  rateLimit : Nat
  mtu : Nat
  began : Nat
  rate_pos : 0 < rateLimit := by decide
  rate_le : rateLimit ≤ 2147483647 := by decide
  mtu_le : mtu ≤ kMaximumDatagramSize := by decide
  began_pos : 0 < began := by decide

def Config.rateCapacity (c : Config) : Nat := max c.rateLimit (16 * max c.mtu kKcpOverhead)

inductive Chain
  | idle
  | sleeping (wakeAt : Nat)
  | sending
  deriving DecidableEq, Repr

/-- The stream.  `rateLastRefill` is zero before the first refill.  Only for the statements: the bytes
released so far, how often the packet in front has waited, and whether a value did not fit into 64 bits.
-/
structure State where
  now : Nat
  sendQueue : List Nat := []
  sendInProgress : Bool := false
  chain : Chain := .idle
  rateTokens : Nat
  rateLastRefill : Nat := 0
  closed : Bool := false
  released : Nat := 0
  waits : Nat := 0
  overflow : Bool := false
  deriving DecidableEq, Repr

/-- What can happen: `output` with the sizes of what `encode_packet` makes of a packet, an `update_now`,
the end of the sleep or of the send of the chain, either of which may fail, and `close`. -/
inductive Act
  | output (sizes : List Nat)
  | update
  | wake (ok : Bool)
  | sent (ok : Bool)
  | close
  deriving DecidableEq, Repr

/-- An act, so many nanoseconds behind the one before. -/
structure Event where
  after : Nat
  act : Act
  deriving DecidableEq, Repr

def start (c : Config) : State := { now := c.began, rateTokens := c.rateCapacity }

variable (c : Config)

/-- The microseconds that `refill_rate_tokens` counts. -/
def elapsed (s : State) : Nat := if s.rateLastRefill = 0 then 0 else (s.now - s.rateLastRefill) / 1000

def refillRateTokens (s : State) : State :=
  let micros := elapsed s
  if 0 < micros then
    let refill := wrap (micros * c.rateLimit) / 1000000
    { s with
      rateTokens := min c.rateCapacity (wrap (s.rateTokens + refill))
      rateLastRefill := s.now
      overflow := s.overflow || decide (2 ^ 64 ≤ micros * c.rateLimit) || decide
        (2 ^ 64 ≤ s.rateTokens + refill) }
  else { s with rateLastRefill := if s.rateLastRefill = 0 then s.now else s.rateLastRefill }

/-- One turn of `run_send_chain`, up to where it waits for something. -/
def turn (s : State) : State :=
  if s.closed then { s with sendInProgress := false }
  else
    match s.sendQueue with
    | [] => { s with sendInProgress := false }
    | size :: _ =>
      let s := refillRateTokens c s
      if s.rateTokens < size then
        let scaled := (size - s.rateTokens) * 1000000 + c.rateLimit - 1
        { s with
          chain := .sleeping (s.now + wrap scaled / c.rateLimit * 1000)
          waits := s.waits + 1
          overflow := s.overflow || decide (2 ^ 64 ≤ scaled) }
      else { s with rateTokens := s.rateTokens - size, chain := .sending, released := s.released + size }

def pumpOutput (s : State) : State × Bool :=
  if s.closed ∨ s.sendInProgress ∨ s.sendQueue = [] then (s, false) else
    ({ s with sendInProgress := true }, true)

/-- What an act does before the next turn of the chain, and whether there is one. -/
def act (s : State) : Act → State × Bool
  | .output sizes =>
    if s.closed then (s, false)
    else
      let s := { s with sendQueue := s.sendQueue ++ sizes.takeWhile (· ≤ kMaximumDatagramSize) }
      if sizes.all (· ≤ kMaximumDatagramSize) then pumpOutput s else (s, false)
  | .update => pumpOutput s
  | .wake ok =>
    match s.chain with
    | .sleeping wakeAt =>
      if !ok then ({ s with chain := .idle, sendInProgress := false }, false)
      else if wakeAt ≤ s.now then ({ s with chain := .idle }, true) else (s, false)
    | _ => (s, false)
  | .sent ok =>
    if s.chain ≠ .sending then (s, false)
    else if !ok then ({ s with chain := .idle, sendInProgress := false, closed := true, sendQueue := [] }, false)
    else if s.closed then ({ s with chain := .idle, sendInProgress := false }, false)
    else ({ s with chain := .idle, sendQueue := s.sendQueue.tail, waits := 0 }, true)
  | .close => ({ s with closed := true, sendQueue := [] }, false)

def begun (s : State) (e : Event) : State × Bool := act { s with now := s.now + e.after } e.act

/-- The turn of the chain behind an act, where there is one. -/
def goOn (begun : State × Bool) : State := if begun.2 then turn c begun.1 else begun.1

def step (s : State) (e : Event) : State := goOn c (begun s e)

/-! ### What is promised -/

/-- **The limiter keeps its bounds**: no more bytes are out than the bucket held and the rate allowed
since, the packet in front has waited once at most, and every value fitted into its 64 bits. -/
structure Sound (s : State) : Prop where
  allowance : 1000000000 * s.released ≤ 1000000000 * c.rateCapacity + c.rateLimit * (s.now - c.began)
  once : s.waits ≤ 1
  exact : s.overflow = false

/-- What the chain looks at: the microseconds since the last refill times the rate fit into 64 bits, and a
packet that has waited fits into the bucket; and its bytes are there where the chain does not come from
the sleep for them (`woken`), which has then failed. -/
def Ready (woken : Bool) (s : State) : Prop :=
  s.closed = false → ∀ size ∈ s.sendQueue.head?, elapsed s * c.rateLimit < 2 ^ 64 ∧
    (0 < s.waits → size ≤ c.rateCapacity ∧
      (woken = true ∨ size ≤ s.rateTokens + elapsed s * c.rateLimit / 1000000))

/-- **The condition**, on what the chain looks at. -/
def Calm (s : State) (e : Event) : Prop :=
  (begun s e).2 = true → Ready c (decide (e.act = .wake true)) (begun s e).1

instance (s : State) (e : Event) : Decidable (Calm c s e) := inferInstanceAs (Decidable (_ → _ → _))

def anchor (s : State) : Nat := if s.rateLastRefill = 0 then c.began else s.rateLastRefill

structure Book (s : State) : Prop where
  tokens : s.rateTokens ≤ c.rateCapacity
  began : c.began ≤ anchor c s
  anchor : anchor c s ≤ s.now
  account : 1000000000 * (s.released + s.rateTokens) ≤ 1000000000 * c.rateCapacity + c.rateLimit *
    (KcpRateLimiter.anchor c s - c.began)
  sizes : ∀ size ∈ s.sendQueue, size ≤ kMaximumDatagramSize
  exact : s.overflow = false

/-- **Where the chain is**: what a sleep is for will be there when it ends. -/
def Chained (s : State) : Prop :=
  match s.chain with
  | .idle => s.sendInProgress = false
  | .sending => s.sendInProgress = true
  | .sleeping wakeAt =>
    s.sendInProgress = true ∧ s.rateLastRefill ≠ 0 ∧ s.rateLastRefill ≤ wakeAt ∧ s.waits = 1 ∧
      (s.closed = false → ∃ size, s.sendQueue.head? = some size ∧
        size ≤ s.rateTokens + (wakeAt - s.rateLastRefill) / 1000 * c.rateLimit / 1000000)

structure Inv (s : State) : Prop extends Book c s where
  once : s.waits ≤ 1
  chained : Chained c s

variable {c} {s : State}

theorem goOn_turn (s : State) : goOn c (s, true) = turn c s := if_pos rfl

theorem goOn_stay (s : State) : goOn c (s, false) = s := if_neg Bool.false_ne_true

theorem Inv.sound (h : Inv c s) : Sound c s := by
  refine ⟨?_, h.once, h.exact⟩
  have hmono : c.rateLimit * (anchor c s - c.began) ≤ c.rateLimit * (s.now - c.began) :=
    Nat.mul_le_mul_left _ (Nat.sub_le_sub_right h.anchor _)
  have haccount := h.account
  omega

theorem start_inv : Inv c (start c) := by
  have hanchor : anchor c (start c) = c.began := if_pos rfl
  refine ⟨⟨Nat.le_refl _, hanchor ▸ Nat.le_refl _, hanchor ▸ Nat.le_refl _, ?_,
    fun _ h => absurd h not_mem_nil, rfl⟩,
    Nat.zero_le _, rfl⟩
  rw [hanchor]
  simp [start]

theorem rateCapacity_lt : c.rateCapacity < 2 ^ 32 := by
  have hrate := c.rate_le
  have hmtu := c.mtu_le
  unfold Config.rateCapacity kKcpOverhead
  unfold kMaximumDatagramSize at hmtu
  omega

theorem wrap_of_lt {n : Nat} (h : n < 2 ^ 64) : wrap n = n := Nat.mod_eq_of_lt h

theorem refill_eq (hbook : Book c s) (hfits : elapsed s * c.rateLimit < 2 ^ 64) :
    ∃ tokens last, refillRateTokens c s = { s with rateTokens := tokens, rateLastRefill := last } ∧ last ≠ 0 ∧
      tokens = min c.rateCapacity (s.rateTokens + elapsed s * c.rateLimit / 1000000) ∧ anchor c s ≤ last ∧
      last ≤ s.now ∧ elapsed s * 1000 ≤ last - anchor c s := by
  have hpos := c.began_pos
  have hbegan := hbook.began
  have hanchor := hbook.anchor
  have hcapacity := rateCapacity_lt (c := c)
  have htokens := hbook.tokens
  unfold refillRateTokens
  dsimp only
  by_cases hmicros : 0 < elapsed s
  · have hset : s.rateLastRefill ≠ 0 := fun hzero => by
      rw [elapsed, if_pos hzero] at hmicros
      exact Nat.lt_irrefl _ hmicros
    have hsum : s.rateTokens + elapsed s * c.rateLimit / 1000000 < 2 ^ 64 := by omega
    rw [if_pos hmicros, wrap_of_lt hfits, wrap_of_lt hsum, decide_eq_false (Nat.not_le.2 hfits),
      decide_eq_false (Nat.not_le.2 hsum),
      Bool.or_false, Bool.or_false]
    refine ⟨_, _, rfl, by omega, rfl, hanchor, Nat.le_refl _, ?_⟩
    rw [elapsed, anchor, if_neg hset, if_neg hset]
    exact Nat.div_mul_le_self _ _
  · have hzero : elapsed s = 0 := Nat.eq_zero_of_not_pos hmicros
    rw [if_neg hmicros, hzero, Nat.zero_mul, Nat.zero_div, Nat.add_zero, Nat.min_eq_right htokens, Nat.zero_mul]
    refine ⟨s.rateTokens, _, rfl, ?_⟩
    by_cases hunset : s.rateLastRefill = 0
    · rw [anchor, if_pos hunset] at hanchor ⊢
      rw [if_pos hunset]
      exact ⟨by omega, rfl, hanchor, Nat.le_refl _, Nat.zero_le _⟩
    · rw [anchor, if_neg hunset] at hanchor ⊢
      rw [if_neg hunset]
      exact ⟨hunset, rfl, Nat.le_refl _, hanchor, Nat.zero_le _⟩

theorem refill_book (hbook : Book c s) (hfits : elapsed s * c.rateLimit < 2 ^ 64) : Book c
    (refillRateTokens c s) := by
  obtain ⟨tokens, last, heq, hlast, htokens, hafter, hnow, hmicros⟩ := refill_eq hbook hfits
  have hanchor : anchor c { s with rateTokens := tokens, rateLastRefill := last } = last := if_neg hlast
  rw [heq]
  refine ⟨htokens ▸ Nat.min_le_left _ _, ?_, ?_, ?_, hbook.sizes, hbook.exact⟩
  · rw [hanchor]
    exact Nat.le_trans hbook.began hafter
  · rw [hanchor]
    exact hnow
  · rw [hanchor]
    have haccount := hbook.account
    have hbegan := hbook.began
    have hgained : 1000000000 * tokens ≤ 1000000000 * s.rateTokens + c.rateLimit * (last - anchor c s) := by
      have hle : tokens ≤ s.rateTokens + elapsed s * c.rateLimit / 1000000 := htokens ▸ Nat.min_le_right _ _
      have hdiv := Nat.mul_div_le (elapsed s * c.rateLimit) 1000000
      have hrate : 1000 * (elapsed s * c.rateLimit) ≤ c.rateLimit * (last - anchor c s) := by
        calc 1000 * (elapsed s * c.rateLimit) = c.rateLimit * (elapsed s * 1000) := by ring
          _ ≤ c.rateLimit * (last - anchor c s) := Nat.mul_le_mul_left _ hmicros
      omega
    have hsplit : c.rateLimit * (last - c.began) = c.rateLimit * (last - anchor c s) + c.rateLimit *
      (anchor c s - c.began) := by
      rw [← Nat.mul_add, show last - c.began = last - anchor c s + (anchor c s - c.began) by omega]
    dsimp only
    omega

/-- **One turn of the chain**: it sends, or sleeps long enough; it does not sleep again for a packet whose
bytes are there. -/
theorem turn_inv (hbook : Book c s) (hidle : s.chain = .idle) (hprogress : s.sendInProgress = true)
    (honce : s.waits ≤ 1)
    (hfront : s.closed = false → ∀ size ∈ s.sendQueue.head?, elapsed s * c.rateLimit < 2 ^ 64 ∧
      (s.waits = 0 ∨ size ≤ min c.rateCapacity (s.rateTokens + elapsed s * c.rateLimit / 1000000))) :
      Inv c (turn c s) := by
  have hstopped : Book c { s with sendInProgress := false } := { hbook with }
  have hchained : Chained c { s with sendInProgress := false } := by
    rw [hidle]
    exact rfl
  unfold turn
  by_cases hclosed : s.closed = true
  · rw [if_pos hclosed]
    exact ⟨hstopped, honce, hchained⟩
  · rw [if_neg hclosed]
    rw [Bool.not_eq_true] at hclosed
    split
    · exact ⟨hstopped, honce, hchained⟩
    · rename_i size rest hqueue
      obtain ⟨hfits, hpaid⟩ := hfront hclosed size (by rw [hqueue]; rfl)
      have hrefilled := refill_book hbook hfits
      obtain ⟨tokens, last, heq, hlast, htokens, -, hnow, -⟩ := refill_eq hbook hfits
      rw [heq] at hrefilled
      rw [heq]
      dsimp only
      have hrate := c.rate_pos
      by_cases hshort : tokens < size
      · rw [if_pos hshort]
        have hwaits : s.waits = 0 := hpaid.resolve_right fun hle => Nat.not_le.2 hshort (htokens ▸ hle)
        have hscaled : (size - tokens) * 1000000 + c.rateLimit - 1 < 2 ^ 64 := by
          have hsize := hbook.sizes size (hqueue ▸ mem_cons_self)
          have hle := c.rate_le
          unfold kMaximumDatagramSize at hsize
          omega
        rw [wrap_of_lt hscaled, decide_eq_false (Nat.not_le.2 hscaled), Bool.or_false]
        refine ⟨{ hrefilled with },
          by rw [hwaits], hprogress, hlast, ?_, by rw [hwaits], fun _ => ⟨size, by rw [hqueue]; rfl, ?_⟩⟩
        · exact Nat.le_trans hnow (Nat.le_add_right _ _)
        · -- the sleep, in microseconds, is worth what is missing
          have hsleep : ((size - tokens) * 1000000 + c.rateLimit - 1) / c.rateLimit ≤
              (s.now + ((size - tokens) * 1000000 + c.rateLimit - 1) / c.rateLimit * 1000 - last) / 1000 :=
            (Nat.le_div_iff_mul_le (by decide)).2 (by omega)
          have hceil : (size - tokens) * 1000000 ≤
            ((size - tokens) * 1000000 + c.rateLimit - 1) / c.rateLimit * c.rateLimit := by
            have hmod := Nat.div_add_mod ((size - tokens) * 1000000 + c.rateLimit - 1) c.rateLimit
            have hlt := Nat.mod_lt ((size - tokens) * 1000000 + c.rateLimit - 1) hrate
            rw [Nat.mul_comm] at hmod
            omega
          have hworth := (Nat.le_div_iff_mul_le (by decide)).2
            (Nat.le_trans hceil (Nat.mul_le_mul_right c.rateLimit hsleep))
          dsimp only
          omega
      · rw [if_neg hshort]
        have haccount := hrefilled.account
        have hbucket := hrefilled.tokens
        refine ⟨{ hrefilled with tokens := Nat.le_trans (Nat.sub_le _ _) hrefilled.tokens, account := ?_ },
          honce, hprogress⟩
        have hsame : s.released + size + (tokens - size) = s.released + tokens := by omega
        rw [hsame]
        exact haccount

/-! ### Runs -/

theorem Book.later (h : Book c s) (after : Nat) : Book c { s with now := s.now + after } :=
  { h with anchor := Nat.le_trans h.anchor (Nat.le_add_right _ _) }

theorem Book.cleared (h : Book c s) : Book c { s with closed := true, sendQueue := [] } :=
  { h with sizes := fun _ h => absurd h not_mem_nil }

theorem Inv.later (h : Inv c s) (after : Nat) : Inv c { s with now := s.now + after } := { h with
  toBook := h.toBook.later after }

theorem Chained.closed (h : Chained c s) : Chained c { s with closed := true, sendQueue := [] } := by
  unfold Chained at h ⊢
  cases hchain : s.chain with
  | idle => rw [hchain] at h; exact h
  | sending => rw [hchain] at h; exact h
  | sleeping wakeAt =>
    rw [hchain] at h
    exact ⟨h.1, h.2.1, h.2.2.1, h.2.2.2.1, fun hclosed => Bool.noConfusion hclosed⟩

theorem Chained.idle_of_stopped (h : Chained c s) (hstopped : ¬ s.sendInProgress = true) : s.chain = .idle := by
  unfold Chained at h
  split at h
  · assumption
  · exact absurd h hstopped
  · exact absurd h.1 hstopped

/-- A packet that is looked at without a sleep has not waited, or has its bytes. -/
theorem Ready.paid {woken : Bool} (h : Ready c woken s) (hopen : s.closed = false) {size : Nat}
    (hsize : size ∈ s.sendQueue.head?)
    (hworth : 0 < s.waits → woken = true → size ≤ s.rateTokens + elapsed s * c.rateLimit / 1000000) :
    elapsed s * c.rateLimit < 2 ^ 64 ∧
      (s.waits = 0 ∨ size ≤ min c.rateCapacity (s.rateTokens + elapsed s * c.rateLimit / 1000000)) := by
  obtain ⟨hfits, hwaited⟩ := h hopen size hsize
  refine ⟨hfits, (Nat.eq_zero_or_pos s.waits).imp_right fun hpos => ?_⟩
  obtain ⟨hbucket, hthere⟩ := hwaited hpos
  exact Nat.le_min.2 ⟨hbucket, hthere.elim (hworth hpos) id⟩

theorem pump_inv (h : Inv c s) (hready : (pumpOutput s).2 = true → Ready c false (pumpOutput s).1) : Inv c
    (goOn c (pumpOutput s)) := by
  unfold pumpOutput at hready ⊢
  by_cases hstays : s.closed = true ∨ s.sendInProgress = true ∨ s.sendQueue = []
  · rw [if_pos hstays]
    exact h
  · rw [if_neg hstays] at hready ⊢
    rw [not_or, not_or] at hstays
    have hbook : Book c { s with sendInProgress := true } := { h with }
    rw [goOn_turn]
    exact turn_inv hbook (h.chained.idle_of_stopped hstays.2.1) rfl h.once fun hopen _ hsize =>
      (hready rfl).paid hopen hsize nofun

theorem wake_inv (h : Inv c s) (ok : Bool) (hready : (act s (.wake ok)).2 = true →
    Ready c ok (act s (.wake ok)).1) :
    Inv c (goOn c (act s (.wake ok))) := by
  have hchained := h.chained
  unfold Chained at hchained
  unfold act at hready ⊢
  dsimp only at hready ⊢
  split
  · rename_i wakeAt hchain
    rw [hchain] at hchained hready
    obtain ⟨hprogress, hlast, hbefore, hwaits, hpaid⟩ := hchained
    cases ok with
    | false => exact ⟨{ h with }, h.once, rfl⟩
    | true =>
      rw [if_neg (by decide)]
      by_cases hdue : wakeAt ≤ s.now
      · dsimp only at hready
        rw [if_neg (by decide), if_pos hdue] at hready
        rw [if_pos hdue]
        refine turn_inv (s := { s with chain := .idle }) { h with } rfl hprogress h.once fun hopen size hsize =>
          (hready rfl).paid hopen hsize fun _ _ => ?_
        obtain ⟨size', hsize', hworth⟩ := hpaid hopen
        obtain rfl := Option.some.inj (hsize'.symm.trans hsize)
        refine Nat.le_trans hworth (Nat.add_le_add_left (Nat.div_le_div_right ?_) _)
        unfold elapsed
        rw [if_neg hlast]
        exact Nat.mul_le_mul_right _ (Nat.div_le_div_right (Nat.sub_le_sub_right hdue _))
      · rw [if_neg hdue]
        exact h
  · exact h

theorem sent_inv (h : Inv c s) (ok : Bool) (hready : (act s (.sent ok)).2 = true →
    Ready c false (act s (.sent ok)).1) :
    Inv c (goOn c (act s (.sent ok))) := by
  have hchained := h.chained
  unfold Chained at hchained
  unfold act at hready ⊢
  dsimp only at hready ⊢
  by_cases hsending : s.chain = .sending
  · rw [hsending] at hchained
    rw [if_neg (not_not.2 hsending)] at hready ⊢
    cases ok with
    | false =>
      rw [if_pos (by decide), goOn_stay]
      exact ⟨{ h with sizes := fun _ h => absurd h not_mem_nil }, h.once, rfl⟩
    | true =>
      rw [if_neg (by decide)] at hready ⊢
      by_cases hclosed : s.closed = true
      · rw [if_pos hclosed]
        exact ⟨{ h with }, h.once, rfl⟩
      · rw [if_neg hclosed] at hready ⊢
        exact turn_inv (s := { s with chain := .idle, sendQueue := s.sendQueue.tail, waits := 0 })
          { h with sizes := fun size hsize => h.sizes size (mem_of_mem_tail hsize) } rfl hchained
          (Nat.zero_le _) fun hopen _ hsize => (hready rfl).paid hopen hsize nofun
  · rw [if_pos hsending]
    exact h

theorem Chained.queued (h : Chained c s)
    (more : List Nat) : Chained c { s with sendQueue := s.sendQueue ++ more } := by
  unfold Chained at h ⊢
  cases hchain : s.chain with
  | idle => rw [hchain] at h; exact h
  | sending => rw [hchain] at h; exact h
  | sleeping wakeAt =>
    rw [hchain] at h
    refine ⟨h.1, h.2.1, h.2.2.1, h.2.2.2.1, fun hclosed => ?_⟩
    obtain ⟨size, hsize, hworth⟩ := h.2.2.2.2 hclosed
    exact ⟨size, by rw [head?_append, hsize]; rfl, hworth⟩

theorem Inv.queued (h : Inv c s) (sizes : List Nat) :
    Inv c { s with sendQueue := s.sendQueue ++ sizes.takeWhile (· ≤ kMaximumDatagramSize) } := by
  refine ⟨{ h with sizes := fun size hsize => ?_ }, h.once, h.chained.queued _⟩
  rcases mem_append.1 hsize with hold | hnew
  · exact h.sizes size hold
  · exact of_decide_eq_true (mem_takeWhile_imp (p := fun n => decide (n ≤ kMaximumDatagramSize)) hnew)

theorem step_inv (s : State) (e : Event) (h : Inv c s) (hcalm : Calm c s e) : Inv c (step c s e) := by
  obtain ⟨after, a⟩ := e
  have hlater := h.later after
  unfold Calm begun at hcalm
  unfold step begun
  dsimp only at hcalm ⊢
  generalize { s with now := s.now + after } = t at hlater hcalm ⊢
  cases a with
  | close => exact ⟨hlater.toBook.cleared, hlater.once, hlater.chained.closed⟩
  | update => exact pump_inv hlater hcalm
  | wake ok => exact wake_inv hlater ok fun hturn => by cases ok <;> exact hcalm hturn
  | sent ok => exact sent_inv hlater ok hcalm
  | output sizes =>
    unfold act at hcalm ⊢
    dsimp only at hcalm ⊢
    by_cases hclosed : t.closed = true
    · rw [if_pos hclosed]
      exact hlater
    · rw [if_neg hclosed] at hcalm ⊢
      have hqueued := hlater.queued sizes
      by_cases hall : sizes.all (· ≤ kMaximumDatagramSize) = true
      · rw [if_pos hall] at hcalm ⊢
        exact pump_inv hqueued hcalm
      · rw [if_neg hall]
        exact hqueued

theorem turn_front {size : Nat} (hopen : s.closed = false) (hsize : size ∈ s.sendQueue.head?) :
    ((turn c s).overflow = false → (refillRateTokens c s).overflow = false) ∧
      ((refillRateTokens c s).rateTokens < size → (turn c s).waits = (refillRateTokens c s).waits + 1) := by
  obtain ⟨rest, hqueue⟩ := head?_eq_some_iff.1 hsize
  unfold turn
  rw [if_neg (by simp [hopen]), hqueue]
  dsimp only
  split
  · exact ⟨fun h => (Bool.or_eq_false_iff.1 h).1, fun _ => rfl⟩
  · rename_i hnot
    exact ⟨id, fun hlt => absurd hlt hnot⟩

theorem refill_le (h : s.rateTokens ≤ c.rateCapacity) : (refillRateTokens c s).waits = s.waits ∧
    (refillRateTokens c s).rateTokens ≤ min c.rateCapacity
    (s.rateTokens + elapsed s * c.rateLimit / 1000000) := by
  unfold refillRateTokens
  dsimp only
  split
  · exact ⟨rfl, min_le_min_left _ (Nat.le_trans (Nat.mod_le _ _)
      (Nat.add_le_add_left (Nat.div_le_div_right (Nat.mod_le _ _)) _))⟩
  · exact ⟨rfl, Nat.le_min.2 ⟨h, Nat.le_add_right _ _⟩⟩

theorem act_rateTokens (s : State) (a : Act) : (act s a).1.rateTokens = s.rateTokens := by
  have hpump : ∀ s, (pumpOutput s).1.rateTokens = s.rateTokens := fun s => by
    unfold pumpOutput
    split <;> rfl
  cases a with
  | close => rfl
  | update => exact hpump s
  | output sizes =>
    unfold act
    dsimp only
    split_ifs
    · rfl
    · exact hpump _
    · rfl
  | wake ok =>
    unfold act
    dsimp only
    split
    · split_ifs <;> rfl
    · rfl
  | sent ok =>
    unfold act
    dsimp only
    split_ifs <;> rfl

theorem step_unsound (s : State) (e : Event) (h : Inv c s) (hnot : ¬ Calm c s e) : ¬ Sound c (step c s e) :=
  fun hsound => by
  refine hnot fun hturn hopen size hsize => ?_
  have hstep : step c s e = turn c (begun s e).1 := if_pos hturn
  rw [hstep] at hsound
  have hfront := turn_front (c := c) hopen hsize
  have hfits : elapsed (begun s e).1 * c.rateLimit < 2 ^ 64 := by
    by_contra hlarge
    have hexact := hfront.1 hsound.exact
    have hpos : 0 < elapsed (begun s e).1 := Nat.pos_of_ne_zero fun hzero => by
      rw [hzero, Nat.zero_mul] at hlarge
      exact hlarge (by decide)
    unfold refillRateTokens at hexact
    dsimp only at hexact
    rw [if_pos hpos, decide_eq_true (Nat.not_lt.1 hlarge), Bool.or_true, Bool.true_or] at hexact
    cases hexact
  refine ⟨hfits, fun _ => by_contra fun hshort => ?_⟩
  -- a packet that has waited waits again
  obtain ⟨hwaits, hle⟩ := refill_le (c := c) (s := (begun s e).1) ((act_rateTokens _ _).trans_le h.tokens)
  have hlt : (refillRateTokens c (begun s e).1).rateTokens < size :=
    Nat.lt_of_le_of_lt hle (Nat.not_le.1 fun hsmall => hshort ((Nat.le_min.1 hsmall).imp_right .inr))
  have honce := hsound.once
  rw [hfront.2 hlt, hwaits] at honce
  omega

/-- **The limiter keeps its bounds exactly in the runs that are calm.** -/
theorem limiter_sound_iff (c : Config) (events : List Event) :
    (∀ pre, pre <+: events → Sound c (Runs.run (step c) (start c) pre)) ↔
    Runs.Along (step c) (Calm c) (start c) events :=
  Runs.forall_prefix_iff_along (fun _ h => h.sound) step_inv step_unsound start_inv events

/-- Three hours at the highest rate are more microseconds times bytes than 64 bits hold. -/
theorem idle_hours_overflow :
    let c : Config := { rateLimit := 2147483647, mtu := 1400, began := 1 }
    ¬ Sound c (Runs.run (step c) (start c) [⟨0, .output [1400]⟩, ⟨0, .sent true⟩,
      ⟨10800000000000, .output [1400]⟩]) := fun h =>
  absurd h.exact (by decide)

end ClashNative.KcpRateLimiter
