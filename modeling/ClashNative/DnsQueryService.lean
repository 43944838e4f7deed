import ClashNative.DnsTypes
import ClashNative.Runs
import Mathlib.Data.List.AList
import Mathlib.Algebra.GroupWithZero.Nat
/-!
# DnsQueryService — coalesced queries, their cache, and what runs on the owner strand

`dns_query_service.cpp`.  What the service posts is a task that may run at any later step, in any order; a
handler is invoked by the `deliver` task posted for it.  An operation stays in `ops` when the service is
done with it.  Its exchange with the upstream group ends at some later step with any result.
-/
namespace ClashNative.Dns.QueryService

abbrev RequestId := Nat
abbrev OpId := Nat
abbrev Key := List UInt8

/-- The fields of `DnsResolverConfig` a query reads.  `groups` are the names in `upstream_groups_`. -/
structure DnsResolverConfig where
  groups : List (List UInt8) := []
  policyRouter : Option DnsPolicyRouter := none
  cacheCapacity : Nat := 4096
  negativeCacheTtl : Int := 5
  cacheGeneration : UInt64 := 0

/-- `Operation::Waiter`; its handler is the one its id was submitted with. -/
structure Waiter where
  id : RequestId
  responseId : UInt16
  deriving DecidableEq, Repr

/-- `DnsQueryService::Operation`.  `running`: its exchange has not ended yet. -/
structure Operation where
  key : Key
  packet : DnsPacket
  upstream : List UInt8
  waiters : List Waiter
  completed : Bool := false
  running : Bool := true

/-- `CacheEntry`; `lruPosition` names a node of `cache_lru_`. -/
structure CacheEntry where
  packet : DnsPacket
  expires : Nat
  lruPosition : Nat

abbrev Result := Except Error DnsPacket

inductive Task
  | query (id : RequestId) (packet : DnsPacket)
  | cancel (id : RequestId)
  | finish (op : OpId) (result : Result)
  | deliver (id : RequestId) (result : Result)
  | stopOnOwner
  | clearCache

/-- How far `stop()` has come: `stopped_` set, then `callback_gate_` closed and the rest dispatched. -/
inductive StopCall
  | none | marked | dispatched
  deriving DecidableEq, Repr

/-- The service.  `submitted` and `delivered` record the queries taken and the handler calls made. -/
structure State where
  stopCall : StopCall := .none
  nextRequestId : RequestId := 1
  now : Nat := 0
  cache : AList (fun _ : Key => CacheEntry) := ∅
  cacheLru : List (Nat × Key) := []
  nextNode : Nat := 0
  inFlight : AList (fun _ : Key => OpId) := ∅
  requests : AList (fun _ : RequestId => OpId) := ∅
  ops : List Operation := []
  tasks : List Task := []
  submitted : List (RequestId × DnsPacket) := []
  delivered : List (RequestId × Result) := []

namespace State

def stopped (s : State) : Bool := s.stopCall != .none

def gate (s : State) : Bool := s.stopCall != .dispatched

end State

/-! ## Keys and times -/

def le64 (n : UInt64) : List UInt8 :=
  [n.toUInt8, (n >>> 8).toUInt8, (n >>> 16).toUInt8, (n >>> 24).toUInt8,
    (n >>> 32).toUInt8, (n >>> 40).toUInt8, (n >>> 48).toUInt8, (n >>> 56).toUInt8]

def zeroId : List UInt8 → List UInt8
  | _ :: _ :: rest => 0 :: 0 :: rest
  | wire => wire

def cacheKey (query : DnsPacket) (upstreamGroup : List UInt8) (generation : UInt64) : Key :=
  zeroId query.wire ++ le64 (UInt64.ofNat upstreamGroup.length) ++ upstreamGroup ++ le64 generation

def cancelledError : Error := ⟨.cancelled, "DNS query was cancelled"⟩
def invalidQueryError : Error := ⟨.protocolFraming, "DNS query must contain one question"⟩

def text (bytes : List UInt8) : String := String.ofList (bytes.map (fun b => Char.ofNat b.toNat))

def unknownGroupError (group : List UInt8) : Error :=
  ⟨.configuration, "DNS policy selected unknown upstream group: " ++ text group⟩

def defaultGroupName : List UInt8 := [36, 100, 101, 102, 97, 117, 108, 116]

/-- `is_builtin_default_group`: the empty name, `default`, `$default` and `system`. -/
def isBuiltinDefaultGroup (group : List UInt8) : Bool :=
  group == [] || group == [100, 101, 102, 97, 117, 108, 116] || group == defaultGroupName ||
    group == [115, 121, 115, 116, 101, 109]

/-- The SOA minimum `cache_ttl` reads: the parsed one, else the last four bytes of the record. -/
def soaMinimum (record : DnsResourceRecord) : Option UInt32 :=
  match record.soa with
  | some soa => some soa.minimumTtl
  | none =>
    match record.rdata.reverse with
    | d :: c :: b :: a :: _ => some ((a.toUInt32 <<< 24) ||| (b.toUInt32 <<< 16) |||
      (c.toUInt32 <<< 8) ||| d.toUInt32)
    | _ => none

def lowerNegativeTtl (ttl : Int) (record : DnsResourceRecord) : Int :=
  if record.type ≠ dnsRecordTypeSoa then ttl
  else match soaMinimum record with
    | none => ttl
    | some minimum => min (min ttl record.ttlSeconds.toNat) minimum.toNat

def cacheTtl (packet : DnsPacket) (negativeCacheTtl : Int) : Option Nat :=
  if packet.responseCode = 3 ∨ (packet.responseCode = 0 ∧ packet.answers = []) then
    let ttl := packet.authorities.foldl lowerNegativeTtl negativeCacheTtl
    if ttl ≤ 0 then none else some ttl.toNat
  else if packet.responseCode ≠ 0 ∨ packet.answers = [] then none
  else
    let ttl := packet.answers.foldl (fun ttl record => min ttl record.ttlSeconds) 0xffffffff
    if ttl = 0 ∨ ttl = 0xffffffff then none else some ttl.toNat

def second : Nat := 1000000000

/-! ## Posting -/

def postCompletion (s : State) (id : RequestId) (result : Result) : State :=
  { s with tasks := s.tasks ++ [.deliver id result] }

/-- The result `post_packet` posts: the packet under the waiter's identifier. -/
def packetFor (packet : DnsPacket) (responseId : UInt16) : Result :=
  match rewriteId packet responseId with
  | .error e => .error e
  | .ok wire => .ok { packet with wire, id := responseId }

def postPacket (s : State) (id : RequestId) (packet : DnsPacket) (responseId : UInt16) : State :=
  postCompletion s id (packetFor packet responseId)

/-! ## The cache -/

def dropEntry (s : State) (key : Key) (entry : CacheEntry) : State :=
  { s with cache := s.cache.erase key, cacheLru := s.cacheLru.filter (fun n => n.1 != entry.lruPosition) }

/-- The eviction loop of `complete`: the back of the list, and what it names, while the cache is full. -/
def evict (capacity : Nat) : Nat → State → State
  | 0, s => s
  | fuel + 1, s =>
    if s.cache.keys.length ≥ capacity then
      match s.cacheLru.getLast? with
      | none => s
      | some node => evict capacity fuel
          { s with cache := s.cache.erase node.2, cacheLru := s.cacheLru.dropLast }
    else s

/-- What `complete` does with a result it may cache: the loop runs at most once a node. -/
def store (config : DnsResolverConfig) (s : State) (key : Key) (packet : DnsPacket) : State :=
  match cacheTtl packet config.negativeCacheTtl with
  | none => s
  | some ttl =>
    if config.cacheCapacity > 0 then
      let s := match s.cache.lookup key with
        | some existing => dropEntry s key existing
        | none => s
      let s := evict config.cacheCapacity s.cacheLru.length s
      { s with
        cache := s.cache.insert key ⟨packet, s.now + ttl * second, s.nextNode⟩,
        cacheLru := (s.nextNode, key) :: s.cacheLru,
        nextNode := s.nextNode + 1 }
    else s

/-! ## Completion and cancellation -/

def answerWaiter (result : Result) (s : State) (waiter : Waiter) : State :=
  match result with
  | .error e => postCompletion s waiter.id (.error e)
  | .ok packet => postPacket s waiter.id packet waiter.responseId

def answerWaiters (result : Result) (s : State) (waiters : List Waiter) : State :=
  waiters.foldl (answerWaiter result) s

/-- `complete`, of an operation that has just been marked completed. -/
def complete (config : DnsResolverConfig) (s : State) (op : OpId) (operation : Operation)
    (result : Result) : State :=
  let s := if s.inFlight.lookup operation.key = some op then
    { s with inFlight := s.inFlight.erase operation.key } else s
  let s := match result with
    | .ok packet => store config s operation.key packet
    | .error _ => s
  let s := { s with
    ops := s.ops.set op { operation with waiters := [] },
    requests := operation.waiters.foldl (fun requests waiter => requests.erase waiter.id) s.requests }
  answerWaiters result s operation.waiters

/-- `Operation::finish`; `cancel_shared` is this with a cancelled result (the stop it requests of the
exchange ends it at some later step, like any end of it). -/
def finish (config : DnsResolverConfig) (s : State) (op : OpId) (result : Result) : State :=
  match s.ops[op]? with
  | none => s
  | some operation =>
    if operation.completed then s
    else complete config s op { operation with completed := true } result

def cancelShared (config : DnsResolverConfig) (s : State) (op : OpId) : State :=
  finish config s op (.error cancelledError)

def cancelOnOwner (config : DnsResolverConfig) (s : State) (id : RequestId) : State :=
  match s.requests.lookup id with
  | none => s
  | some op =>
    let s := { s with requests := s.requests.erase id }
    match s.ops[op]? with
    | none => s
    | some operation =>
      match operation.waiters.find? (fun waiter => waiter.id == id) with
      | none => s
      | some _ =>
        let operation := { operation with waiters := operation.waiters.eraseP (fun waiter => waiter.id == id) }
        let s := postCompletion { s with ops := s.ops.set op operation } id (.error cancelledError)
        if operation.waiters = [] then cancelShared config s op else s

/-- The loop of `stop_on_owner`: one turn for each operation in flight. -/
def stopLoop (config : DnsResolverConfig) : Nat → State → State
  | 0, s => s
  | fuel + 1, s =>
    match s.inFlight.entries with
    | [] => s
    | ⟨_, op⟩ :: _ => stopLoop config fuel (cancelShared config s op)

def stopOnOwner (config : DnsResolverConfig) (s : State) : State :=
  let s := stopLoop config s.inFlight.entries.length s
  { s with inFlight := ∅, requests := ∅ }

def clearCache (s : State) : State := { s with cache := ∅, cacheLru := [] }

/-! ## Queries -/

/-- The upstream group of a question, or the name of the unknown group the policy selected. -/
def selectGroup (config : DnsResolverConfig) (name : List UInt8) : Except (List UInt8) (List UInt8) :=
  match config.policyRouter with
  | none => .ok defaultGroupName
  | some router =>
    let decision := router.select name
    if config.groups.contains decision then .ok decision
    else if isBuiltinDefaultGroup decision then .ok defaultGroupName
    else .error decision

/-- `query_on_owner` once its group is known: the cache, then an operation in flight, then an operation of
its own. -/
def lookupOrStart (s : State) (id : RequestId) (packet : DnsPacket) (upstream : List UInt8) (key : Key) :
    State :=
  let hit := match s.cache.lookup key with
    | none => none
    | some entry => if entry.expires > s.now then some entry else none
  match hit with
  | some entry =>
    postPacket { s with
      cacheLru := s.cacheLru.filter (fun n => n.1 == entry.lruPosition) ++
        s.cacheLru.filter (fun n => n.1 != entry.lruPosition) } id entry.packet packet.id
  | none =>
    let s := match s.cache.lookup key with
      | none => s
      | some entry => dropEntry s key entry
    match s.inFlight.lookup key with
    | some op =>
      match s.ops[op]? with
      | none => s
      | some operation =>
        { s with
          ops := s.ops.set op { operation with waiters := operation.waiters ++ [⟨id, packet.id⟩] },
          requests := s.requests.insert id op }
    | none =>
      { s with
        ops := s.ops ++ [{ key, packet, upstream, waiters := [⟨id, packet.id⟩] }],
        inFlight := s.inFlight.insert key s.ops.length,
        requests := s.requests.insert id s.ops.length }

def queryOnOwner (config : DnsResolverConfig) (s : State) (id : RequestId) (packet : DnsPacket) : State :=
  if s.stopped then postCompletion s id (.error cancelledError)
  else match packet.questions with
    | [question] =>
      if packet.response ∨ packet.wire.length < 12 then postCompletion s id (.error invalidQueryError)
      else
        let question := { question with name := normalizeName question.name }
        let packet := { packet with questions := [question] }
        match selectGroup config question.name with
        | .error group => postCompletion s id (.error (unknownGroupError group))
        | .ok upstream => lookupOrStart s id packet upstream (cacheKey packet upstream config.cacheGeneration)
    | _ => postCompletion s id (.error invalidQueryError)

/-! ## Events -/

/-- What can happen: a call (`running` is what `runtime_.running()` says to it), the end of an operation's
exchange, a posted task's turn, the clock. -/
inductive Event
  | query (packet : DnsPacket) (running : Bool)
  | cancel (id : RequestId) (running : Bool)
  | stop
  | closeGate (running : Bool)
  | clearCache (running : Bool)
  | exchangeDone (op : OpId) (result : Result)
  | runTask (index : Nat)
  | tick (elapsed : Nat)

def runTask (config : DnsResolverConfig) (s : State) : Task → State
  | .query id packet =>
    if s.gate then queryOnOwner config s id packet else postCompletion s id (.error cancelledError)
  | .cancel id => if s.gate then cancelOnOwner config s id else s
  | .finish op result => finish config s op result
  | .deliver id result => { s with delivered := s.delivered ++ [(id, result)] }
  | .stopOnOwner => stopOnOwner config s
  | .clearCache => if s.gate then clearCache s else s

def step (config : DnsResolverConfig) (s : State) : Event → State
  | .query packet running =>
    let id := s.nextRequestId
    let s := { s with nextRequestId := id + 1, submitted := s.submitted ++ [(id, packet)] }
    if running then { s with tasks := s.tasks ++ [.query id packet] } else queryOnOwner config s id packet
  | .cancel id running =>
    if running then { s with tasks := s.tasks ++ [.cancel id] } else cancelOnOwner config s id
  | .stop => if s.stopped then s else { s with stopCall := .marked }
  | .closeGate running =>
    if s.stopCall = .marked then
      let s := { s with stopCall := .dispatched }
      if running then { s with tasks := s.tasks ++ [.stopOnOwner] } else stopOnOwner config s
    else s
  | .clearCache running => if running then { s with tasks := s.tasks ++ [.clearCache] } else clearCache s
  | .exchangeDone op result =>
    match s.ops[op]? with
    | some operation =>
      if operation.running then
        { s with
          ops := s.ops.set op { operation with running := false },
          tasks := s.tasks ++ [.finish op result] }
      else s
    | none => s
  | .runTask index =>
    match s.tasks[index]? with
    | some task => runTask config { s with tasks := s.tasks.eraseIdx index } task
    | none => s
  | .tick elapsed => { s with now := s.now + elapsed }

end ClashNative.Dns.QueryService
