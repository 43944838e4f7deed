import ClashNative.AddressAnswers
import ClashNative.DnsNames
import ClashNative.Runs
import Mathlib.Data.List.Perm.Basic
/-!
# AddressResolver — a question followed through several responses

`AddressResolver` of `address_resolver.cpp`, with its `Operation`.  The task of an operation is at the
head of its loop, or awaits the query service; a step is one of its turns, a call from outside or a posted
task.
-/
namespace ClashNative.Dns.Resolver

open List

open AsioTransport (IpAddress)
open Server (encodeQueryPacket dnsRecordTypeA dnsRecordTypeAaaa)

def cancelledError : Error := ⟨.cancelled, "DNS address resolution was cancelled"⟩

def makeQueryPacket (question : DnsQuestion) : DnsPacket where
  wire := match encodeQueryPacket question 0 with
    | .ok wire => wire
    | .error _ => []
  flags := 0x0100
  questions := [question]

/-- What awaiting the query service ends with: a result, a stop, or an exception (a `core::Error`, or
another one). -/
inductive QueryOutcome
  | value (result : Except Error Packet)
  | stopped
  | thrown (failure : Option Error)

def QueryOutcome.result : QueryOutcome → Except Error Packet
  | .value result => result
  | .stopped => .error cancelledError
  | .thrown (some failure) => .error failure
  | .thrown none => .error cancelledError

inductive Phase
  | head | awaiting | ended
  deriving DecidableEq

/-- `Operation`.  `query_id_` is never set, so it is left out.  The last fields are kept for the
statements: the queries, the questions that were out when the responses came, the CNAME records that were
followed, and the turns of the task. -/
structure Operation where
  originalQuestion : DnsQuestion
  currentQuestion : DnsQuestion
  handler : Bool
  completionScheduler : Option Nat
  visitedNames : List Name
  cancelRequested : Bool := false
  cnameTtl : UInt32 := ttlLimit
  completed : Bool := false
  phase : Phase := .head
  queries : List DnsPacket := []
  responses : List (DnsQuestion × Packet) := []
  followed : List Record := []
  turns : Nat := 0

namespace Operation

def make (question : DnsQuestion) (handler : Bool) (completionScheduler : Option Nat) : Operation where
  originalQuestion := question
  currentQuestion := question
  handler := handler
  completionScheduler := completionScheduler
  visitedNames := [normalizeName question.name]

/-- `cancel`: the stop reaches the task as the outcome of its query. -/
def cancel (op : Operation) : Operation := if op.completed then op else { op with cancelRequested := true }

/-- `finish`, with which the task ends; the result is what `owner_.complete` is called with. -/
def finish (op : Operation) (result : Except Error DnsAnswer) : Operation × Option (Except Error DnsAnswer) :=
  if op.completed then ({ op with phase := .ended }, none) else
    ({ op with completed := true, phase := .ended }, some result)

def finalAnswer (op : Operation) (answer : DnsAnswer) : DnsAnswer :=
  { answer with
    question := op.originalQuestion
    ttlSeconds := if answer.addresses ≠ [] ∧
      op.cnameTtl ≠ ttlLimit then min answer.ttlSeconds op.cnameTtl else answer.ttlSeconds }

def completeAnswer (op : Operation) (answer : DnsAnswer) : Operation × Option (Except Error DnsAnswer) :=
  op.finish (.ok (op.finalAnswer answer))

/-- The head of the loop in `run`, and what stands behind the loop. -/
def loop (op : Operation) : Operation × Option (Except Error DnsAnswer) :=
  if !op.completed && !op.cancelRequested then
    ({ op with phase := .awaiting, queries := op.queries ++ [makeQueryPacket op.currentQuestion] }, none)
  else op.finish (.error cancelledError)

def follow (op : Operation) (cname : Record) : Operation :=
  { op with
    visitedNames := op.visitedNames ++ [cname.target]
    cnameTtl := min op.cnameTtl cname.ttlSeconds
    currentQuestion := { op.currentQuestion with name := cname.target }
    phase := .head
    followed := op.followed ++ [cname] }

def answered (op : Operation) (packet : Packet) (answer : DnsAnswer) :
    Operation × Option (Except Error DnsAnswer) :=
  if answer.addresses ≠ [] then op.completeAnswer answer
  else if answer.responseCode ≠ 0 ∨ (op.currentQuestion.type ≠ dnsRecordTypeA ∧
    op.currentQuestion.type ≠ dnsRecordTypeAaaa) then
    op.completeAnswer answer
  else
    match findCname packet.answers op.currentQuestion.classCode (normalizeName op.currentQuestion.name) with
    | none => op.completeAnswer answer
    | some cname =>
      if 8 ≤ op.visitedNames.length then op.completeAnswer answer
      else if cname.target = [] ∨ op.visitedNames.contains cname.target then op.completeAnswer answer
      else (op.follow cname, none)

def resumed (op : Operation) (outcome : QueryOutcome) : Operation × Option (Except Error DnsAnswer) :=
  if op.completed then ({ op with phase := .ended }, none)
  else if op.cancelRequested then op.finish (.error cancelledError)
  else
    match outcome.result with
    | .error failure => op.finish (.error failure)
    | .ok packet =>
      let op := { op with responses := op.responses ++ [(op.currentQuestion, packet)] }
      match toAddressAnswer packet with
      | .error failure => op.finish (.error failure)
      | .ok answer => op.answered packet answer

end Operation

structure Task where
  request : Nat
  scheduler : Option Nat
  result : Except Error DnsAnswer

/-- `AddressResolver`: `operations` are the keys of `operations_`; the operations themselves are kept by
their tasks.  `tasks` is what the schedulers have been given, `invoked` what they have run. -/
structure State where
  nextRequestId : Nat := 1
  operations : List Nat := []
  requests : Nat → Option Operation := fun _ => none
  tasks : List Task := []
  invoked : List Task := []

namespace State

def resolve (s : State) (question : DnsQuestion) (handler : Bool) (completionScheduler : Option Nat) : State :=
  { s with
    nextRequestId := s.nextRequestId + 1
    operations := s.nextRequestId :: s.operations
    requests := Function.update s.requests s.nextRequestId
      (some (Operation.make question handler completionScheduler)) }

def cancel (s : State) (id : Nat) : State :=
  if id ∈ s.operations then { s with requests := Function.update s.requests id ((s.requests id).map
    Operation.cancel) } else s

def complete (s : State) (id : Nat) (op : Operation) (result : Except Error DnsAnswer) : State :=
  if id ∈ s.operations then
    { s with
      operations := s.operations.erase id
      tasks := if op.handler then s.tasks ++ [⟨id, op.completionScheduler, result⟩] else s.tasks }
  else s

def turn (s : State) (id : Nat) (turned : Operation × Option (Except Error DnsAnswer)) : State :=
  let s := { s with requests := Function.update s.requests id (some turned.1) }
  match turned.2 with
  | none => s
  | some result => s.complete id turned.1 result

def run (s : State) (index : Nat) : State :=
  match s.tasks[index]? with
  | none => s
  | some task => { s with tasks := s.tasks.eraseIdx index, invoked := task :: s.invoked }

end State

inductive Event
  | resolve (question : DnsQuestion) (handler : Bool) (completionScheduler : Option Nat)
  | cancel (id : Nat)
  | loop (id : Nat)
  | resumed (id : Nat) (outcome : QueryOutcome)
  | run (index : Nat)

def step (s : State) : Event → State
  | .resolve question handler completionScheduler => s.resolve question handler completionScheduler
  | .cancel id => s.cancel id
  | .loop id =>
    match s.requests id with
    | none => s
    | some op => if op.phase = .head then s.turn id { op with turns := op.turns + 1 }.loop else s
  | .resumed id outcome =>
    match s.requests id with
    | none => s
    | some op => if op.phase = .awaiting then
      s.turn id ({ op with turns := op.turns + 1 }.resumed outcome) else s
  | .run index => s.run index

/-! ### What a request is owed -/

def SameQuestion (asked answered : DnsQuestion) : Prop :=
  normalizeName answered.name = normalizeName asked.name ∧ answered.type = asked.type ∧
  answered.classCode = asked.classCode

def Operation.EachAsked (op : Operation) : Prop :=
  ∀ r ∈ op.responses, ∀ question ∈ r.2.questions, SameQuestion r.1 question

def Operation.records (op : Operation) : List Record := op.responses.flatMap (·.2.answers)

/-- **The addresses are at the end of a chain** from the question, which begins with the CNAME records
that were followed across queries; the TTL is no more than that of any record of it. -/
def Operation.EndOfChain (op : Operation) (answer : DnsAnswer) (owned : List Record) : Prop :=
  ∃ cnames owner, Chain op.records op.originalQuestion.classCode
  (normalizeName op.originalQuestion.name) cnames owner ∧
    op.followed <+: cnames ∧ (∀ cname ∈ cnames, answer.ttlSeconds ≤ cname.ttlSeconds) ∧
    ∀ record ∈ owned, record ∈ op.records ∧ normalizeName record.name = owner ∧
    record.type = op.originalQuestion.type ∧
      record.classCode = op.originalQuestion.classCode

/-- **An answer is sound**: it is one to the question, and its TTL is no more than that of a CNAME record
that was followed across queries and of an address; where each response carries the question asked, the
addresses are at the end of a chain. -/
def Operation.Sound (op : Operation) (answer : DnsAnswer) : Prop :=
  answer.question = op.originalQuestion ∧ (∀ cname ∈ op.followed, answer.ttlSeconds ≤ cname.ttlSeconds) ∧
    ∃ owned, AddressesOf answer owned ∧ (op.EachAsked → op.EndOfChain answer owned)

/-- **A request is kept**: at most eight queries and sixteen turns of its task, which is over only when
the request is completed; from then on the request is in no table, and its handler is called or about to
be called, once. -/
structure Kept (s : State) (id : Nat) (op : Operation) : Prop where
  queries : op.queries.length ≤ 8
  turns : op.turns ≤ 16
  going : op.phase = .ended ↔ op.completed = true
  forgotten : id ∈ s.operations ↔ op.completed = false
  once : s.tasks.countP (·.request = id) + s.invoked.countP (·.request = id) =
    if op.completed && op.handler then 1 else 0
  answers : ∀ task ∈ s.tasks ++ s.invoked, task.request = id → ∀ answer, task.result = .ok answer →
    op.Sound answer

/-! ### A turn of a task -/

theorem normalizeName_idem (name : Name) : normalizeName (normalizeName name) = normalizeName name := by
  have hlast : (normalizeName name).getLast? ≠ some 46 := by
    unfold normalizeName
    rw [getLast?_map, getLast?_reverse]
    intro h
    obtain ⟨b, hb, hdot⟩ := Option.map_eq_some_iff.1 h
    have hnot := head?_dropWhile_not (· == (46 : UInt8)) name.reverse
    rw [hb, (Names.toLower_dot_iff b).1 hdot] at hnot
    simp at hnot
  rw [Names.normalizeName_of_last hlast]
  unfold normalizeName
  rw [map_map]
  exact map_congr_left fun b _ => toLower_toLower b

theorem le_ttlLimit (ttl : UInt32) : ttl ≤ ttlLimit := by
  have hlt := ttl.toNat_lt
  change ttl.toNat ≤ 4294967295
  omega

namespace Operation

def Paced (op : Operation) : Prop :=
  match op.phase with
  | .head => op.completed = false ∧ op.queries.length + 1 = op.visitedNames.length ∧
    op.turns = 2 * op.queries.length
  | .awaiting => op.completed = false ∧ op.queries.length = op.visitedNames.length ∧
    op.turns + 1 = 2 * op.queries.length
  | .ended => op.completed = true ∧ op.queries.length ≤ 8 ∧ op.turns ≤ 16

/-- The CNAME records that were followed lead from the question to the one that is out. -/
structure Linked (op : Operation) : Prop where
  type : op.currentQuestion.type = op.originalQuestion.type
  classCode : op.currentQuestion.classCode = op.originalQuestion.classCode
  chain : Chain op.records op.originalQuestion.classCode (normalizeName op.originalQuestion.name)
    op.followed (normalizeName op.currentQuestion.name)
  ttl : ∀ cname ∈ op.followed, op.cnameTtl ≤ cname.ttlSeconds
  names : op.visitedNames.length ≤ 8

structure Inv (op : Operation) : Prop extends Linked op where
  paced : op.Paced

/-- **What a turn leads to**: the operation goes on, or it is finished with a sound answer or an error. -/
structure Turned (op : Operation) (turned : Operation × Option (Except Error DnsAnswer)) : Prop where
  inv : turned.1.Inv
  handler : turned.1.handler = op.handler
  completed : turned.1.completed = turned.2.isSome
  sound : ∀ answer, turned.2 = some (.ok answer) → turned.1.Sound answer

variable {op : Operation}

theorem make_inv (question : DnsQuestion) (handler : Bool) (completionScheduler : Option Nat) :
    (make question handler completionScheduler).Inv :=
  ⟨⟨rfl, rfl, .nil _, nofun, by change 1 ≤ 8; decide⟩, rfl, rfl, rfl⟩

theorem Inv.cancel (h : op.Inv) : op.cancel.Inv := by
  unfold Operation.cancel
  split
  · exact h
  · exact ⟨{ h with }, h.paced⟩

theorem Linked.finish (base : Operation) (h : op.Linked) (hhandler : op.handler = base.handler)
    (hgoing : op.completed = false)
    (hqueries : op.queries.length ≤ 8) (hturns : op.turns ≤ 16) {result : Except Error DnsAnswer}
    (hsound : ∀ answer, result = .ok answer → op.Sound answer) : Turned base (op.finish result) := by
  unfold Operation.finish
  rw [if_neg (by rw [hgoing]; decide)]
  exact ⟨⟨{ h with }, rfl, hqueries, hturns⟩, hhandler, rfl,
    fun answer hanswer => hsound answer (Option.some.inj hanswer)⟩

theorem Linked.fail (base : Operation) (h : op.Linked) (hhandler : op.handler = base.handler)
    (hgoing : op.completed = false)
    (hqueries : op.queries.length ≤ 8) (hturns : op.turns ≤ 16) (failure : Error) :
    Turned base (op.finish (.error failure)) :=
  h.finish base hhandler hgoing hqueries hturns nofun

theorem Inv.loop (h : op.Inv) (hphase : op.phase = .head) : Turned op
    { op with turns := op.turns + 1 }.loop := by
  have hpaced := h.paced
  have hnames := h.names
  rw [Paced, hphase] at hpaced
  obtain ⟨hgoing, hqueries, hturns⟩ := hpaced
  have hlinked : Linked { op with turns := op.turns + 1 } := { h with }
  unfold Operation.loop
  split
  · refine ⟨⟨{ h with }, hgoing, ?_, ?_⟩, rfl, hgoing, nofun⟩
    · rw [length_append, length_singleton]
      exact hqueries
    · change op.turns + 1 + 1 = 2 * (op.queries ++ [_]).length
      rw [length_append, length_singleton]
      omega
  · exact hlinked.fail op rfl hgoing (by change op.queries.length ≤ 8; omega)
      (by change op.turns + 1 ≤ 16; omega) _

/-! What was asked and what came: a response more. -/

theorem records_append (op : Operation) (asked : DnsQuestion) (packet : Packet) :
    records { op with responses := op.responses ++ [(asked, packet)] } = op.records ++ packet.answers := by
  unfold records
  rw [flatMap_append, flatMap_cons, flatMap_nil, append_nil]

theorem Linked.received (h : op.Linked) (packet : Packet) : Linked
    { op with responses := op.responses ++ [(op.currentQuestion, packet)] } := by
  refine { h with chain := ?_ }
  rw [records_append]
  exact h.chain.mono (subset_append_left _ _)

variable {packet : Packet} {answer : DnsAnswer}

theorem Linked.sound (h : op.Linked) (hlast : ∃ before, op.responses = before ++ [(op.currentQuestion, packet)])
    (hanswer : toAddressAnswer packet = .ok answer) : op.Sound (op.finalAnswer answer) := by
  obtain ⟨before, hresponses⟩ := hlast
  obtain ⟨question, cnames, owner, owned, hquestions, hchain, hcnames, ⟨haddresses, howned⟩, hnone, hall⟩ :=
    toAddressAnswer_ok hanswer
  have hsub : packet.answers ⊆ op.records := by
    unfold records
    rw [hresponses, flatMap_append, flatMap_cons, flatMap_nil, append_nil]
    exact subset_append_right _ _
  -- the TTL that is told is no more than the one of the response
  have hleast : (op.finalAnswer answer).ttlSeconds ≤ answer.ttlSeconds := by
    unfold finalAnswer
    split
    · exact Std.min_le_left
    · exact Std.le_refl _
  have hfollowed : ∀ cname ∈ op.followed, (op.finalAnswer answer).ttlSeconds ≤ cname.ttlSeconds := by
    intro cname hcname
    unfold finalAnswer
    split
    · exact Std.le_trans Std.min_le_right (h.ttl cname hcname)
    · rename_i hnot
      by_cases hempty : answer.addresses = []
      · rw [hnone hempty]
        exact zero_ttl_le _
      · have hlimit : op.cnameTtl = ttlLimit := by
          by_contra hne
          exact hnot ⟨hempty, hne⟩
        exact Std.le_trans (le_ttlLimit _) (hlimit ▸ h.ttl cname hcname)
  refine ⟨rfl, hfollowed, owned, ⟨haddresses,
    fun record hrecord => Std.le_trans hleast (howned record hrecord)⟩, fun hasked => ?_⟩
  obtain ⟨hname, htype, hclass⟩ : SameQuestion op.currentQuestion question :=
    hasked (op.currentQuestion, packet) (hresponses ▸ mem_append_right _ mem_cons_self) question
      (hquestions ▸ mem_cons_self)
  rw [h.type] at htype
  rw [h.classCode] at hclass
  rw [hname, hclass] at hchain
  refine ⟨op.followed ++ cnames, owner, h.chain.append (hchain.mono hsub), prefix_append _ _,
    fun cname hcname => ?_,
    fun record hrecord => ?_⟩
  · rcases mem_append.1 hcname with hcname | hcname
    · exact hfollowed cname hcname
    · exact Std.le_trans hleast (hcnames cname hcname)
  · obtain ⟨hmem, howner, hrtype, hrclass⟩ := hall record hrecord
    exact ⟨hsub hmem, howner, hrtype.trans htype, hrclass.trans hclass⟩

theorem Linked.follow (h : op.Linked) (hsub : packet.answers ⊆ op.records) {cname : Record}
    (hfound : findCname packet.answers op.currentQuestion.classCode
      (normalizeName op.currentQuestion.name) = some cname)
    (hnames : op.visitedNames.length < 8) : (op.follow cname).Linked := by
  have hchain := (findCname_chain hfound).mono hsub
  refine ⟨h.type, h.classCode, ?_, fun other hother => ?_, ?_⟩
  · change Chain op.records op.originalQuestion.classCode (normalizeName op.originalQuestion.name)
      (op.followed ++ [cname])
      (normalizeName cname.target)
    have htarget : normalizeName cname.target = cname.target := normalizeName_idem _
    rw [htarget]
    exact h.chain.append (h.classCode ▸ hchain)
  · rcases mem_append.1 hother with hother | hother
    · exact Std.le_trans Std.min_le_left (h.ttl other hother)
    · rw [mem_singleton.1 hother]
      exact Std.min_le_right
  · change (op.visitedNames ++ [cname.target]).length ≤ 8
    rw [length_append, length_singleton]
    omega

theorem Linked.answered (base : Operation) (h : op.Linked) (hhandler : op.handler = base.handler)
    (hgoing : op.completed = false)
    (hqueries : op.queries.length = op.visitedNames.length) (hturns : op.turns = 2 * op.queries.length)
    (hlast : ∃ before, op.responses = before ++ [(op.currentQuestion, packet)])
    (hanswer : toAddressAnswer packet = .ok answer) : Turned base (op.answered packet answer) := by
  have hnames := h.names
  have hdone : Turned base (op.completeAnswer answer) := by
    refine h.finish base hhandler hgoing (by omega) (by omega) fun told htold => ?_
    rw [← Except.ok.inj htold]
    exact h.sound hlast hanswer
  have hsub : packet.answers ⊆ op.records := by
    obtain ⟨before, hresponses⟩ := hlast
    unfold records
    rw [hresponses, flatMap_append, flatMap_cons, flatMap_nil, append_nil]
    exact subset_append_right _ _
  unfold Operation.answered
  split
  · exact hdone
  · split
    · exact hdone
    · split
      · exact hdone
      · rename_i cname hfound
        split
        · exact hdone
        · rename_i hfew
          split
          · exact hdone
          · refine ⟨⟨h.follow hsub hfound (Nat.not_le.1 hfew), hgoing, ?_, hturns⟩, hhandler, hgoing, nofun⟩
            change op.queries.length + 1 = (op.visitedNames ++ [cname.target]).length
            rw [length_append, length_singleton, hqueries]

theorem Inv.resumed (h : op.Inv) (hphase : op.phase = .awaiting) (outcome : QueryOutcome) :
    Turned op ({ op with turns := op.turns + 1 }.resumed outcome) := by
  have hpaced := h.paced
  have hnames := h.names
  rw [Paced, hphase] at hpaced
  obtain ⟨hgoing, hqueries, hturns⟩ := hpaced
  have hlinked : Linked { op with turns := op.turns + 1 } := { h with }
  have hmost : op.queries.length ≤ 8 := by omega
  have hlate : op.turns + 1 ≤ 16 := by omega
  unfold Operation.resumed
  rw [if_neg (by change ¬ op.completed = true; rw [hgoing]; decide)]
  split
  · exact hlinked.fail op rfl hgoing hmost hlate _
  · cases outcome.result with
    | error failure => exact hlinked.fail op rfl hgoing hmost hlate failure
    | ok packet =>
      have hreceived := hlinked.received packet
      dsimp only
      cases hanswer : toAddressAnswer packet with
      | error failure => exact hreceived.fail op rfl hgoing hmost hlate failure
      | ok answer => exact hreceived.answered op rfl hgoing hqueries hturns ⟨op.responses, rfl⟩ hanswer

end Operation

/-! ### Runs -/

/-- **The invariant**: every request is kept, and a number that was not given out has left nothing. -/
structure State.Inv (s : State) : Prop where
  fresh : ∀ id, s.nextRequestId ≤ id → s.requests id = none
  nodup : s.operations.Nodup
  unknown : ∀ id, s.requests id = none → id ∉ s.operations ∧ ∀ task ∈ s.tasks ++ s.invoked, task.request ≠ id
  kept : ∀ id op, s.requests id = some op → op.Inv ∧ Kept s id op

theorem init_inv : State.Inv {} :=
  ⟨fun _ _ => rfl, nodup_nil, fun _ _ => ⟨not_mem_nil, nofun⟩, nofun⟩

variable {s : State} {id : Nat}

theorem countP_request_eq_zero {tasks : List Task} (h : ∀ task ∈ tasks, task.request ≠ id) : tasks.countP
    (·.request = id) = 0 :=
  countP_eq_zero.2 fun task htask => by simpa using h task htask

variable {op : Operation} {t : State}

theorem Kept.congr (h : Kept s id op) (hoperations : id ∈ t.operations ↔ id ∈ s.operations)
    (htasks : t.tasks.countP (·.request = id) + t.invoked.countP (·.request = id) =
      s.tasks.countP (·.request = id) + s.invoked.countP (·.request = id))
    (hsub : ∀ task ∈ t.tasks ++ t.invoked, task.request = id → task ∈ s.tasks ++ s.invoked) : Kept t id op :=
  ⟨h.queries, h.turns, h.going, hoperations.trans h.forgotten, htasks.trans h.once, fun task htask hid =>
    h.answers task (hsub task htask hid) hid⟩

theorem Kept.none_posted (h : Kept s id op) (hgoing : op.completed = false) :
    ∀ task ∈ s.tasks ++ s.invoked, task.request ≠ id := by
  have honce := h.once
  rw [hgoing, Bool.false_and, if_neg (by decide), ← countP_append] at honce
  intro task htask
  simpa using countP_eq_zero.1 honce task htask

theorem kept_going (hinv : op.Inv) (hgoing : op.completed = false) (hmem : id ∈ s.operations)
    (hnone : ∀ task ∈ s.tasks ++ s.invoked, task.request ≠ id) : Kept s id op := by
  have hpaced := hinv.paced
  have hnames := hinv.names
  have hcount : s.tasks.countP (·.request = id) + s.invoked.countP (·.request = id) = 0 := by
    rw [← countP_append]
    exact countP_request_eq_zero hnone
  have hturns : op.queries.length ≤ 8 ∧ op.turns ≤ 16 ∧ op.phase ≠ .ended := by
    unfold Operation.Paced at hpaced
    cases hphase : op.phase <;> rw [hphase] at hpaced
    · exact ⟨by omega, by omega, nofun⟩
    · exact ⟨by omega, by omega, nofun⟩
    · rw [hgoing] at hpaced
      exact absurd hpaced.1 (by decide)
  refine ⟨hturns.1, hturns.2.1, ⟨fun h => absurd h hturns.2.2, fun h => absurd (hgoing ▸ h) (by decide)⟩,
    ⟨fun _ => hgoing, fun _ => hmem⟩, ?_,
    fun task htask hid => absurd hid (hnone task htask)⟩
  rw [hcount, hgoing]
  rfl

theorem kept_over (hinv : op.Inv) (hdone : op.completed = true) (hmem : id ∉ s.operations)
    (honce : s.tasks.countP (·.request = id) + s.invoked.countP (·.request = id) = if op.handler then 1 else 0)
    (hsound : ∀ task ∈ s.tasks ++ s.invoked, task.request = id → ∀ answer, task.result = .ok answer →
      op.Sound answer) : Kept s id op := by
  have hpaced := hinv.paced
  unfold Operation.Paced at hpaced
  cases hphase : op.phase with
  | head =>
    rw [hphase, hdone] at hpaced
    exact absurd hpaced.1 (by decide)
  | awaiting =>
    rw [hphase, hdone] at hpaced
    exact absurd hpaced.1 (by decide)
  | ended =>
    rw [hphase] at hpaced
    refine ⟨hpaced.2.1, hpaced.2.2, ⟨fun _ => hdone, fun _ => hphase⟩,
      ⟨fun hin => absurd hin hmem, fun h => absurd (hdone.symm.trans h) (by decide)⟩,
      ?_, hsound⟩
    rw [honce, hdone, Bool.true_and]

theorem State.Inv.resolve (h : s.Inv) (question : DnsQuestion) (handler : Bool)
    (completionScheduler : Option Nat) :
    (s.resolve question handler completionScheduler).Inv := by
  obtain ⟨hmem, hnone⟩ := h.unknown s.nextRequestId (h.fresh _ (Nat.le_refl _))
  refine ⟨fun id hid => ?_, nodup_cons.2 ⟨hmem, h.nodup⟩, fun id hid => ?_, fun id op hop => ?_⟩
  · have hne : id ≠ s.nextRequestId := Nat.ne_of_gt hid
    change Function.update s.requests _ _ id = none
    rw [Function.update_of_ne hne]
    exact h.fresh id (Nat.le_of_lt hid)
  · by_cases hne : id = s.nextRequestId
    · change Function.update s.requests _ _ id = none at hid
      rw [hne, Function.update_self] at hid
      cases hid
    · change Function.update s.requests _ _ id = none at hid
      rw [Function.update_of_ne hne] at hid
      exact ⟨fun hin => (mem_cons.1 hin).elim hne (h.unknown id hid).1, (h.unknown id hid).2⟩
  · change Function.update s.requests _ _ id = some op at hop
    by_cases hne : id = s.nextRequestId
    · rw [hne, Function.update_self] at hop
      cases hop
      have hinv := Operation.make_inv question handler completionScheduler
      exact ⟨hinv, kept_going hinv rfl (hne ▸ mem_cons_self) (hne ▸ hnone)⟩
    · rw [Function.update_of_ne hne] at hop
      obtain ⟨hinv, hkept⟩ := h.kept id op hop
      exact ⟨hinv, hkept.congr ⟨fun hin => (mem_cons.1 hin).resolve_left hne,
        mem_cons_of_mem _⟩ rfl fun _ htask _ => htask⟩

theorem State.Inv.replace (h : s.Inv) {op' : Operation} (hop : s.requests id = some op)
    (hnext : t.nextRequestId = s.nextRequestId)
    (hrequests : t.requests = Function.update s.requests id (some op')) (hnodup : t.operations.Nodup)
    (hothers : ∀ other, other ≠ id → (other ∈ t.operations ↔ other ∈ s.operations) ∧
      t.tasks.countP (·.request = other) + t.invoked.countP (·.request = other) =
        s.tasks.countP (·.request = other) + s.invoked.countP (·.request = other) ∧
      ∀ task ∈ t.tasks ++ t.invoked, task.request = other → task ∈ s.tasks ++ s.invoked)
    (hnew : op'.Inv ∧ Kept t id op') : t.Inv := by
  have hsame : ∀ other, other ≠ id → t.requests other = s.requests other :=
    fun other hne => by rw [hrequests, Function.update_of_ne hne]
  have hself : t.requests id = some op' := by rw [hrequests, Function.update_self]
  refine ⟨fun other hother => ?_, hnodup, fun other hother => ?_, fun other op'' hop'' => ?_⟩
  · have hfresh := h.fresh other (hnext ▸ hother)
    have hne : other ≠ id := by
      rintro rfl
      rw [hop] at hfresh
      cases hfresh
    exact (hsame other hne).trans hfresh
  · have hne : other ≠ id := by
      rintro rfl
      rw [hself] at hother
      cases hother
    obtain ⟨hmem, -, htasks⟩ := hothers other hne
    obtain ⟨hout, hnone⟩ := h.unknown other ((hsame other hne).symm.trans hother)
    exact ⟨fun hin => hout (hmem.1 hin), fun task htask hid => hnone task (htasks task htask hid) hid⟩
  · by_cases hne : other = id
    · rw [hne, hself] at hop''
      cases hop''
      exact hne ▸ hnew
    · obtain ⟨hmem, hcount, htasks⟩ := hothers other hne
      obtain ⟨hinv, hkept⟩ := h.kept other op'' ((hsame other hne).symm.trans hop'')
      exact ⟨hinv, hkept.congr hmem hcount htasks⟩

theorem State.Inv.cancel (h : s.Inv) (id : Nat) : (s.cancel id).Inv := by
  unfold State.cancel
  split
  · rename_i hmem
    cases hop : s.requests id with
    | none => exact absurd hmem (h.unknown id hop).1
    | some op =>
      obtain ⟨hinv, hkept⟩ := h.kept id op hop
      have hgoing := hkept.forgotten.1 hmem
      have hcancel : op.cancel.completed =
        false := by rw [Operation.cancel, if_neg (by rw [hgoing]; decide), ← hgoing]
      exact h.replace (t := { s with requests := Function.update s.requests id (some op.cancel) })
        hop rfl rfl h.nodup
        (fun other _ => ⟨Iff.rfl, rfl, fun task htask _ => htask⟩)
        ⟨hinv.cancel, kept_going hinv.cancel hcancel hmem (hkept.none_posted hgoing)⟩
  · exact h

theorem State.Inv.turn (h : s.Inv) (hop : s.requests id = some op) (hgoing : op.completed = false)
    {turned : Operation × Option (Except Error DnsAnswer)} (hturned : Operation.Turned op turned) :
    (s.turn id turned).Inv := by
  obtain ⟨hinv, hkept⟩ := h.kept id op hop
  have hmem := hkept.forgotten.2 hgoing
  have hnone := hkept.none_posted hgoing
  have hcompleted := hturned.completed
  unfold State.turn
  cases hresult : turned.2 with
  | none =>
    rw [hresult, Option.isSome_none] at hcompleted
    exact h.replace hop rfl rfl h.nodup (fun other _ => ⟨Iff.rfl, rfl, fun task htask _ => htask⟩)
      ⟨hturned.inv, kept_going hturned.inv hcompleted hmem hnone⟩
  | some result =>
    rw [hresult, Option.isSome_some] at hcompleted
    dsimp only
    unfold State.complete
    rw [if_pos hmem]
    have hcount : s.tasks.countP (·.request = id) + s.invoked.countP (·.request = id) = 0 := by
      rw [← countP_append]
      exact countP_request_eq_zero hnone
    refine h.replace hop rfl rfl (h.nodup.erase id)
      (fun other hne => ⟨mem_erase_of_ne hne, ?_, fun task htask hid => ?_⟩)
      ⟨hturned.inv, kept_over hturned.inv hcompleted
        (fun hin => (h.nodup.mem_erase_iff.1 hin).1 rfl) ?_ fun task htask hid answer hanswer => ?_⟩
    · split
      · rw [countP_append, countP_singleton, if_neg (by simpa using Ne.symm hne), Nat.add_zero]
      · rfl
    · dsimp only at htask
      split at htask
      · rw [append_assoc] at htask
        rcases mem_append.1 htask with htask | htask
        · exact mem_append_left _ htask
        · rcases mem_append.1 htask with htask | htask
          · rw [mem_singleton.1 htask] at hid
            exact absurd hid.symm hne
          · exact mem_append_right _ htask
      · exact htask
    · dsimp only
      split
      · rw [countP_append, countP_singleton, if_pos (by simp)]
        omega
      · exact hcount
    · dsimp only at htask
      split at htask
      · rw [append_assoc] at htask
        rcases mem_append.1 htask with htask | htask
        · exact absurd hid (hnone task (mem_append_left _ htask))
        · rcases mem_append.1 htask with htask | htask
          · rw [mem_singleton.1 htask] at hanswer
            exact hturned.sound answer (hresult.trans (congrArg some hanswer))
          · exact absurd hid (hnone task (mem_append_right _ htask))
      · exact absurd hid (hnone task htask)

theorem State.Inv.run (h : s.Inv) (index : Nat) : (s.run index).Inv := by
  unfold State.run
  cases htask : s.tasks[index]? with
  | none => exact h
  | some task =>
    obtain ⟨hindex, hget⟩ := List.getElem?_eq_some_iff.1 htask
    have hperm : (s.tasks.eraseIdx index ++ task :: s.invoked).Perm (s.tasks ++ s.invoked) := by
      refine perm_middle.trans ?_
      rw [← cons_append, ← hget]
      exact (getElem_cons_eraseIdx_perm hindex).append_right _
    refine ⟨h.fresh, h.nodup, fun id hid => ?_, fun id op hop => ?_⟩
    · obtain ⟨hout, hnone⟩ := h.unknown id hid
      exact ⟨hout, fun other hother => hnone other (hperm.mem_iff.1 hother)⟩
    · obtain ⟨hinv, hkept⟩ := h.kept id op hop
      refine ⟨hinv, hkept.congr Iff.rfl ?_ fun other hother _ => hperm.mem_iff.1 hother⟩
      rw [← countP_append, ← countP_append]
      exact hperm.countP_eq _

theorem State.Inv.step (h : s.Inv) (event : Event) : (step s event).Inv := by
  cases event with
  | resolve question handler completionScheduler => exact h.resolve question handler completionScheduler
  | cancel id => exact h.cancel id
  | loop id =>
    dsimp only [Resolver.step]
    cases hop : s.requests id with
    | none => exact h
    | some op =>
      dsimp only
      split
      · rename_i hphase
        have hinv := (h.kept id op hop).1
        have hpaced := hinv.paced
        rw [Operation.Paced, hphase] at hpaced
        exact h.turn hop hpaced.1 (hinv.loop hphase)
      · exact h
  | resumed id outcome =>
    dsimp only [Resolver.step]
    cases hop : s.requests id with
    | none => exact h
    | some op =>
      dsimp only
      split
      · rename_i hphase
        have hinv := (h.kept id op hop).1
        have hpaced := hinv.paced
        rw [Operation.Paced, hphase] at hpaced
        exact h.turn hop hpaced.1 (hinv.resumed hphase outcome)
      · exact h
  | run index => exact h.run index

/-- **Every request of every run is kept.** -/
theorem resolver_keeps (events : List Event) (id : Nat) (op : Operation)
    (hop : (Runs.run step {} events).requests id = some op) :
    Kept (Runs.run step {} events) id op :=
  ((Runs.run_induction (P := State.Inv) (fun _ event h => h.step event) events {} init_inv).kept id op hop).2

def exampleAddress : IpAddress := .v4 #v[1, 2, 3, 4]

/-- The first response to `a` is a CNAME record to `b` alone; the one to `b` has the address. -/
def chainRun : List Event :=
  [.resolve ⟨[97], 1, 1⟩ true none, .loop 1,
    .resumed 1 (.value (.ok {
      flags := 0x8000, questions := [⟨[97], 1, 1⟩],
      answers := [{ name := [97], type := 5, ttlSeconds := 60, targetName := some [98] }] })),
    .loop 1,
    .resumed 1 (.value (.ok {
      flags := 0x8000, questions := [⟨[98], 1, 1⟩],
      answers := [{ name := [98], type := 1, ttlSeconds := 300, parsedAddress := some exampleAddress }] })),
    .run 0]

theorem resolver_keeps_chain :
    ∃ op, (Runs.run step {} chainRun).requests 1 = some op ∧ Kept (Runs.run step {} chainRun) 1 op ∧
    (Runs.run step {} chainRun).invoked.map (·.result) =
    [.ok { question := ⟨[97], 1, 1⟩, addresses := [exampleAddress], ttlSeconds := 60 }] :=
  ⟨_, rfl, resolver_keeps chainRun 1 _ rfl, rfl⟩

/-- The service answers the question for `a` with a response about `b`. -/
def strayRun : List Event :=
  [.resolve ⟨[97], 1, 1⟩ true none, .loop 1,
    .resumed 1 (.value (.ok {
      flags := 0x8000, questions := [⟨[98], 1, 1⟩],
      answers := [{ name := [98], type := 1, ttlSeconds := 300, parsedAddress := some exampleAddress }] })),
    .run 0]

/-- **A response to another question is taken**: its address is told, and no chain leads to it. -/
theorem stray_response_is_taken : ∃ op, (Runs.run step {} strayRun).requests 1 = some op ∧
    (Runs.run step {} strayRun).invoked.map (·.result) =
    [.ok { question := ⟨[97], 1, 1⟩, addresses := [exampleAddress], ttlSeconds := 300 }] ∧
    ∀ cnames owner, Chain op.records 1 (normalizeName [97]) cnames owner
    → ∀ record ∈ op.records, normalizeName record.name ≠ owner := by
  refine ⟨_, rfl, rfl, fun cnames owner hchain record hrecord hname => ?_⟩
  have hnone : ∀ other ∈
      [({ name := [98], type := 1, ttlSeconds := 300, parsedAddress := some exampleAddress } : Record)],
      other.type ≠ dnsRecordTypeCname ∧ normalizeName other.name ≠ normalizeName [97] := by decide
  generalize hstart : normalizeName [97] = start at hchain hnone
  cases hchain with
  | nil _ => exact (hnone record hrecord).2 hname
  | cons hmem _ htype _ _ => exact (hnone _ hmem).1 htype

end ClashNative.Dns.Resolver
