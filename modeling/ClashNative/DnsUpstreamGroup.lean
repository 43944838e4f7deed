import ClashNative.DnsTypes
import ClashNative.Runs
import Mathlib.Algebra.Group.Int.Defs
/-!
# DnsUpstreamGroup — an exchange tried on one member after another

`dns_upstream.cpp`.  The clock is read where the source reads it, and any reading may follow any other
(`Config.clock`).  A member's exchange ends at some later step in any way (`MemberOutcome`).
-/
namespace ClashNative.Dns.UpstreamGroup

abbrev Result := Except Error DnsPacket

inductive DnsUpstreamSelection
  | sequential | roundRobin
  deriving DecidableEq, Repr

/-- The group's members, how it picks the first one, and the readings of the clock in nanoseconds. -/
structure Config where
  members : Nat
  selection : DnsUpstreamSelection
  clock : Nat → Int

structure MemberHealth where
  consecutiveFailures : Nat := 0
  unhealthyUntil : Int := 0
  deriving DecidableEq, Repr

structure MemberRequest where
  index : Nat
  query : DnsPacket
  deadline : Int
  deriving DecidableEq, Repr

structure Operation where
  query : DnsPacket
  deadline : Int
  completed : Bool := false
  attempted : List Bool := []
  currentIndex : Nat := 0
  lastError : Option Error := none
  awaiting : Option MemberRequest := none
  deriving DecidableEq, Repr

/-- The group.  An operation stays in `ops` when it is done; `results` records the handler calls made. -/
structure State where
  clockReads : Nat := 0
  memberHealth : List MemberHealth
  nextMember : UInt64 := 0
  stopped : Bool := false
  operations : List Nat := []
  ops : List Operation := []
  results : List (Nat × Result) := []

/-- How a member's exchange ends: with a packet, with an error, stopped, or with an exception that is no
`core::Error`. -/
inductive MemberOutcome
  | response (packet : DnsPacket)
  | error (e : Error)
  | stopped
  | unknown
  deriving DecidableEq, Repr

def timedOut : Error := ⟨.timeout, "DNS upstream group timed out"⟩
def noMembers : Error := ⟨.configuration, "DNS upstream group has no configured members"⟩
def noAvailable : Error := ⟨.configuration, "DNS upstream group has no available members"⟩
def retryable : Error := ⟨.resolution, "DNS upstream returned a retryable response"⟩
def memberCancelled : Error := ⟨.cancelled, "DNS group member exchange cancelled"⟩
def memberFailed : Error := ⟨.transportIo, "DNS group member exchange failed"⟩
def exchangeCancelled : Error := ⟨.cancelled, "DNS upstream group exchange was cancelled"⟩

def MemberOutcome.result : MemberOutcome → Result
  | .response packet => .ok packet
  | .error e => .error e
  | .stopped => .error memberCancelled
  | .unknown => .error memberFailed

def shouldRetryResponse (packet : DnsPacket) : Bool := packet.responseCode == 2 || packet.responseCode == 5

def kHealthBackoffBase : Int := 250 * 1000000
def kHealthBackoffMaximum : Int := 30 * 1000000000

namespace State

def now (c : Config) (s : State) : Int × State :=
  (c.clock s.clockReads, { s with clockReads := s.clockReads + 1 })

def modifyOp (s : State) (o : Nat) (f : Operation → Operation) : State := { s with ops := s.ops.modify o f }

def nextStartIndex (c : Config) (s : State) : Nat × State :=
  if c.selection ≠ .roundRobin ∨ c.members = 0 then (0, s)
  else (s.nextMember.toNat % c.members, { s with nextMember := s.nextMember + 1 })

/-- The first member from `startIndex` on that was not attempted and is not in backoff, else the first
that was not attempted. -/
def selectMember (c : Config) (s : State) (startIndex : Nat) (attempted : List Bool) : Option Nat × State :=
  if c.members = 0 then (none, s)
  else
    let (now, s) := s.now c
    let order := (List.range c.members).map (fun offset => (startIndex % c.members + offset) % c.members)
    match order.find? (fun i => !attempted.getD i true && decide
      ((s.memberHealth.getD i {}).unhealthyUntil ≤ now)) with
    | some i => (some i, s)
    | none => (order.find? (fun i => !attempted.getD i true), s)

def recordFailure (c : Config) (s : State) (i : Nat) (e : Error) : State :=
  if s.memberHealth.length ≤ i ∨ e.code = .cancelled then s
  else
    let failures := min ((s.memberHealth.getD i {}).consecutiveFailures + 1) 8
    let backoff := min kHealthBackoffMaximum (kHealthBackoffBase * 2 ^ (failures - 1))
    let (now, s) := s.now c
    { s with memberHealth := s.memberHealth.set i ⟨failures, now + backoff⟩ }

def recordSuccess (s : State) (i : Nat) : State :=
  if s.memberHealth.length ≤ i then s else { s with memberHealth := s.memberHealth.set i {} }

def finish (s : State) (o : Nat) (result : Result) : State :=
  match s.ops[o]? with
  | none => s
  | some op =>
    if op.completed then s
    else { (s.modifyOp o (fun op => { op with completed := true })) with
           operations := s.operations.erase o, results := s.results ++ [(o, result)] }

/-- `member_finished`, of an operation whose current member is `index`. -/
def memberFinished (c : Config) (s : State) (o index : Nat) (result : Result) : State :=
  match result with
  | .ok packet =>
    if shouldRetryResponse packet then
      ((s.modifyOp o (fun op => { op with lastError := some retryable })).recordFailure
        c index retryable).finish o result
    else (s.recordSuccess index).finish o result
  | .error e =>
    ((s.modifyOp o (fun op => { op with lastError := some e })).recordFailure c index e).finish o (.error e)

def advance (c : Config) (s : State) (o index : Nat) : State :=
  match s.ops[o]? with
  | none => s
  | some op =>
    if op.completed then s
    else
      let (now, s) := s.now c
      if op.deadline ≤ now then s.memberFinished c o op.currentIndex (.error timedOut)
      else
        match s.selectMember c index op.attempted with
        | (none, s) => s.finish o (.error (op.lastError.getD noAvailable))
        | (some i, s) =>
          let attempted := op.attempted.set i true
          let (now, s) := s.now c
          let remaining := op.deadline - now
          let remainingAttempts := attempted.count false + 1
          let deadline :=
            if 1 < remainingAttempts ∧ 0 < remaining then now + remaining / remainingAttempts else op.deadline
          s.modifyOp o (fun op =>
            { op with currentIndex := i, attempted := attempted, awaiting := some ⟨i, op.query, deadline⟩ })

def startOp (c : Config) (s : State) (o : Nat) : State :=
  if c.members = 0 then s.finish o (.error noMembers)
  else
    let s := s.modifyOp o (fun op => { op with attempted := List.replicate c.members false })
    let (index, s) := s.nextStartIndex c
    s.advance c o index

/-- `Operation::cancel`: the stopped await ends without a word, now or later. -/
def cancelOp (s : State) (o : Nat) : State := s.finish o (.error exchangeCancelled)

def exchange (c : Config) (s : State) (query : DnsPacket) (deadline : Int) : State :=
  let o := s.ops.length
  let s := { s with ops := s.ops ++ [({ query, deadline } : Operation)], operations := o :: s.operations }
  if s.stopped then s.cancelOp o else s.startOp c o

def resume (c : Config) (s : State) (o : Nat) (outcome : MemberOutcome) : State :=
  match s.ops[o]? with
  | none => s
  | some op =>
    if op.awaiting.isNone then s
    else
      let s := s.modifyOp o (fun op => { op with awaiting := none })
      if op.completed then s
      else
        let next := (op.currentIndex + 1) % c.members
        match outcome.result with
        | .ok packet =>
          if !shouldRetryResponse packet then (s.recordSuccess op.currentIndex).finish o (.ok packet)
          else
            let s := s.modifyOp o (fun op => { op with lastError := some retryable })
            let s := s.recordFailure c op.currentIndex retryable
            let (now, s) := s.now c
            if now < op.deadline ∧ op.attempted.any (!·) then s.advance c o next else s.finish o (.ok packet)
        | .error e =>
          -- the await was stopped, and the one who stopped it is taken to have answered
          if e.code = .cancelled then s
          else
            let s := s.modifyOp o (fun op => { op with lastError := some e })
            let s := if e.code ≠ .cancelled then s.recordFailure c op.currentIndex e else s
            let (now, s) := s.now c
            if now < op.deadline then s.advance c o next else s.finish o (.error e)

/-- `stop`: every operation in the set is cancelled. -/
def stop (s : State) : State :=
  if s.stopped then s else s.operations.foldl cancelOp { s with stopped := true, operations := [] }

end State

inductive Event
  | exchange (query : DnsPacket) (deadline : Int)
  | outcome (o : Nat) (outcome : MemberOutcome)
  | cancel (o : Nat)
  | stop
  deriving DecidableEq, Repr

def step (c : Config) (s : State) : Event → State
  | .exchange query deadline => s.exchange c query deadline
  | .outcome o outcome => s.resume c o outcome
  | .cancel o => { s with operations := s.operations.erase o }.cancelOp o
  | .stop => s.stop

def start (c : Config) : State := { memberHealth := List.replicate c.members {} }

end ClashNative.Dns.UpstreamGroup
