import ClashNative.AddressAnswers
import ClashNative.Runs
/-!
# BootstrapResolver — one name asked from server after server

`DnsBootstrapResolver` of `bootstrap_resolver.cpp`, for one request: its driver, its deadline tasks and
what comes in on its socket.  The clock is read in turns and any look may find the deadline passed
(`Config.late`); c-ares is an argument, and so is whether a socket can be bound.  Other requests only take
identifiers.
-/
namespace ClashNative.Dns.Bootstrap

open List

open AsioTransport (Endpoint IpAddress messageId)
open Resolver (Name Packet toAddressAnswer)
open Server (encodeQueryPacket Encodable dnsRecordTypeA dnsRecordTypeAaaa)

abbrev Bytes := List UInt8

structure Config where
  hostname : Name
  decodePacket : Bytes → UInt16 → Option Packet
  binds : Endpoint → Bool
  late : Nat → Bool

def cancelledError : Error := ⟨.cancelled, "bootstrap resolution was cancelled"⟩

def IpAddress.isUnspecified : IpAddress → Bool
  | .v4 bytes => bytes.toList.all (· == 0)
  | .v6 bytes _ => bytes.toList.all (· == 0)

def defaultBootstrapDnsServers : List Endpoint :=
  [⟨.v4 #v[223, 5, 5, 5], 53⟩, ⟨.v4 #v[223, 6, 6, 6], 53⟩, ⟨.v4 #v[1, 1, 1, 1], 53⟩, ⟨.v4 #v[1, 0, 0, 1], 53⟩,
    ⟨.v4 #v[8, 8, 8, 8], 53⟩, ⟨.v4 #v[8, 8, 4, 4], 53⟩]

def appendUnique (servers : List Endpoint) (endpoint : Endpoint) : List Endpoint :=
  if endpoint.port = 0 ∨ IpAddress.isUnspecified endpoint.address ∨ endpoint ∈ servers then servers
  else servers ++ [endpoint]

def mergeServers (configured : List Endpoint) : List Endpoint :=
  (configured ++ defaultBootstrapDnsServers).foldl appendUnique []

inductive Phase
  | sending | receiving | system | ended
  deriving DecidableEq, Repr

/-- A datagram that the receive loop took for the response to a query. -/
structure Taken where
  sender : Endpoint
  server : Option Endpoint
  queryId : UInt16
  type : UInt16
  datagram : Bytes

/-- `Request`.  `servers` are those from `server_index` on; `type` is that of the query that is out.
`looks` counts the looks at the clock; `taken` is kept for the statements. -/
structure Request where
  servers : List Endpoint
  phase : Phase := .sending
  attempt : Nat := 0
  type : UInt16 := dnsRecordTypeA
  queryId : UInt16 := 0
  queryWire : Bytes := []
  addresses : List IpAddress := []
  completed : Bool := false
  serverExpired : Bool := false
  deadlineExceeded : Bool := false
  result : Option (Except Error (List IpAddress)) := none
  nextQueryId : UInt16 := 1
  looks : Nat := 0
  taken : List Taken := []

/-- `next_query_id`, and what `next_query_id_` is then. -/
def takeQueryId (next : UInt16) : UInt16 × UInt16 := if next = 0 then (1, 2) else (next, next + 1)

def addAddresses (addresses more : List IpAddress) : List IpAddress :=
  more.foldl (fun addresses address => if address ∈ addresses then addresses else
    addresses ++ [address]) addresses

namespace Request

def look (r : Request) : Request := { r with looks := r.looks + 1 }

def complete (r : Request) (result : Except Error (List IpAddress)) : Request :=
  if r.completed then r else { r with completed := true, phase := .ended, result := some result }

def runSystem (r : Request) : Request := { r with phase := .system }

/-- The head of the loop in `run_server`: a query is sent, or the server is left. -/
def ask (c : Config) (r : Request) (type : UInt16) : Bool × Request :=
  if r.serverExpired || r.deadlineExceeded || c.late r.looks then (false, r.look)
  else
    match encodeQueryPacket ⟨c.hostname, type, 1⟩ (takeQueryId r.nextQueryId).1 with
    | .error _ => (false, { r.look with nextQueryId := (takeQueryId r.nextQueryId).2 })
    | .ok wire => (true, { r.look with
        nextQueryId := (takeQueryId r.nextQueryId).2, queryId := (takeQueryId r.nextQueryId).1, type,
          queryWire := wire, phase := .sending })

def runServer (c : Config) (r : Request) (endpoint : Endpoint) : Bool × Request :=
  if c.binds endpoint then ask c { r with serverExpired := false, attempt := r.attempt + 1 }
    dnsRecordTypeA else (false, r)

def run (c : Config) : List Endpoint → Request → Request
  | [], r => runSystem { r with servers := [] }
  | endpoint :: rest, r =>
    if r.deadlineExceeded || c.late r.looks then r.look.runSystem
    else
      let (asked, r) := runServer c { r.look with servers := endpoint :: rest } endpoint
      if asked then r
      else if r.deadlineExceeded || c.late r.looks then r.look.runSystem
      else run c rest r.look

/-- `run`, behind a `run_server` that returned `next_server`. -/
def nextServer (c : Config) (r : Request) : Request :=
  if r.deadlineExceeded || c.late r.looks then r.look.runSystem else run c r.servers.tail r.look

/-- Behind an answer: the next query, or the end of `run_server`. -/
def answered (c : Config) (r : Request) : Request :=
  if r.type = dnsRecordTypeA then
    let (asked, r) := r.ask c dnsRecordTypeAaaa
    if asked then r else r.nextServer c
  else if r.addresses ≠ [] then r.complete (.ok r.addresses)
  else r.nextServer c

def sent (c : Config) (r : Request) (ok : Bool) : Request :=
  if ok && !r.serverExpired then { r with phase := .receiving } else r.nextServer c

def Passes (r : Request) (sender : Endpoint) (datagram : Bytes) : Prop :=
  r.servers.head? = some sender ∧ 2 ≤ datagram.length ∧ messageId datagram = r.queryId

instance (r : Request) (sender : Endpoint) (datagram : Bytes) : Decidable (r.Passes sender datagram) :=
  inferInstanceAs (Decidable (_ ∧ _))

def take (r : Request) (sender : Endpoint) (datagram : Bytes) : Request :=
  { r with taken := r.taken ++ [⟨sender, r.servers.head?, r.queryId, r.type, datagram⟩] }

def addAnswer (r : Request) (packet : Packet) : Request :=
  match toAddressAnswer packet with
  | .error _ => r
  | .ok answer => { r with addresses := addAddresses r.addresses answer.addresses }

def received (c : Config) (r : Request) : Option (Endpoint × Bytes) → Request
  | none => r.nextServer c
  | some (sender, datagram) =>
    if r.serverExpired then r.nextServer c
    else if ¬ r.Passes sender datagram then r
    else
      match c.decodePacket datagram r.queryId with
      | none => (r.take sender datagram).nextServer c
      | some packet => ((r.take sender datagram).addAnswer packet).answered c

end Request

/-- `outcome`: what the system resolver answers, `none` where its channel is closed. -/
inductive Event
  | sent (ok : Bool)
  | received (datagram : Option (Endpoint × Bytes))
  | serverDeadline (attempt : Nat)
  | deadline
  | system (outcome : Option (Except Error (List IpAddress)))
  | cancel
  | other

def step (c : Config) (r : Request) : Event → Request
  | .sent ok => if r.phase = .sending then r.sent c ok else r
  | .received datagram => if r.phase = .receiving then r.received c datagram else r
  | .serverDeadline attempt => if r.completed ∨ r.attempt ≠ attempt then r else { r with serverExpired := true }
  | .deadline => if r.completed ∨ r.phase = .system then r else { r with deadlineExceeded := true }
  | .system outcome => if r.phase = .system then r.complete (outcome.getD (.error cancelledError)) else r
  | .cancel => r.complete (.error cancelledError)
  | .other => { r with nextQueryId := (takeQueryId r.nextQueryId).2 }

def start (c : Config) (configured : List Endpoint) : Request :=
  Request.run c (mergeServers configured) { servers := mergeServers configured }

/-! ## What a request owes -/

/-- **A datagram answers a query**: it is from the server, with the identifier, and has the question. -/
def Taken.Answers (c : Config) (t : Taken) : Prop :=
  t.server = some t.sender ∧ messageId t.datagram = t.queryId ∧
  ∃ packet question, c.decodePacket t.datagram t.queryId = some packet ∧ packet.questions = [question] ∧
    normalizeName question.name = normalizeName c.hostname ∧ question.type = t.type ∧ question.classCode = 1

def Taken.addresses (c : Config) (t : Taken) : List IpAddress :=
  match (c.decodePacket t.datagram t.queryId).map toAddressAnswer with
  | some (.ok answer) => answer.addresses
  | _ => []

/-- **The outcome is that of the answers**: the addresses are theirs, and with an address the name is
resolved with them, unless it was cancelled, and never left to the system resolver. -/
structure Sound (c : Config) (r : Request) : Prop where
  answers : ∀ t ∈ r.taken, t.Answers c
  addresses : r.addresses = r.taken.foldl (fun addresses t => addAddresses addresses (t.addresses c)) []
  asks : r.addresses ≠ [] → r.phase ≠ .system
  result : ∀ result, r.result = some result → r.addresses ≠ [] → result = .ok r.addresses ∨
    result = .error cancelledError

/-- One of these servers is asked before the deadline, the looks at the clock counted from `n`. -/
def asksOne (c : Config) : List Endpoint → Nat → Bool
  | [], _ => false
  | endpoint :: rest, n => !c.late n &&
    if c.binds endpoint then (!c.late (n + 1) && decide (Encodable (normalizeName c.hostname))) ||
    (!c.late (n + 2) && asksOne c rest (n + 3))
    else !c.late (n + 1) && asksOne c rest (n + 2)

def asksNext (c : Config) (r : Request) (n : Nat) : Bool :=
  !r.deadlineExceeded && !c.late n && asksOne c r.servers.tail (n + 1)

/-- **The step is no loss**: what passes for a response answers the query, and with an address there is
another query. -/
def Spared (c : Config) (r : Request) : Event → Prop
  | .sent ok => r.phase = .sending → (ok && !r.serverExpired) = false → r.addresses ≠ [] →
      asksNext c r r.looks = true
  | .received none => r.phase = .receiving → r.addresses ≠ [] → asksNext c r r.looks = true
  | .received (some (sender, datagram)) => r.phase = .receiving →
    (r.serverExpired = true → r.addresses ≠ [] → asksNext c r r.looks = true) ∧
    (r.serverExpired = false → r.Passes sender datagram →
      Taken.Answers c ⟨sender, r.servers.head?, r.queryId, r.type, datagram⟩ ∧
      (r.type = dnsRecordTypeA → addAddresses r.addresses
        (Taken.addresses c ⟨sender, r.servers.head?, r.queryId, r.type, datagram⟩) ≠ [] →
        (!r.deadlineExceeded && !c.late r.looks && decide (Encodable (normalizeName c.hostname)) ||
          asksNext c r (r.looks + 1)) = true))
  | _ => True

/-! ## The moves -/

namespace Request

variable {c : Config}

structure Same (r r' : Request) : Prop where
  addresses : r'.addresses = r.addresses
  taken : r'.taken = r.taken
  result : r'.result = r.result
  completed : r'.completed = r.completed
  exceeded : r'.deadlineExceeded = r.deadlineExceeded

theorem Same.trans {r r' r'' : Request} (h : Same r r') (h' : Same r' r'') : Same r r'' :=
  ⟨h'.addresses.trans h.addresses, h'.taken.trans h.taken, h'.result.trans h.result,
    h'.completed.trans h.completed,
    h'.exceeded.trans h.exceeded⟩

theorem ask_spec (c : Config) (r : Request) (type : UInt16) :
    Same r (r.ask c type).2 ∧ (r.ask c type).2.looks = r.looks + 1 ∧
    (r.ask c type).2.servers = r.servers ∧ ((r.ask c type).1 = true → (r.ask c type).2.phase = .sending) ∧
    (r.ask c type).1 = (!r.serverExpired && !r.deadlineExceeded && !c.late r.looks && decide
      (Encodable (normalizeName c.hostname))) := by
  unfold ask encodeQueryPacket
  cases r.serverExpired <;> cases r.deadlineExceeded <;> cases c.late r.looks <;>
    by_cases hname : Encodable (normalizeName c.hostname) <;> simp [hname, look] <;> exact ⟨rfl, rfl,
      rfl, rfl, rfl⟩

theorem runServer_spec (c : Config) (r : Request) (endpoint : Endpoint) : Same r (r.runServer c endpoint).2 ∧
    (r.runServer c endpoint).2.looks = (if c.binds endpoint then r.looks + 1 else r.looks) ∧
    ((r.runServer c endpoint).1 = true → (r.runServer c endpoint).2.phase = .sending) ∧
    (r.runServer c endpoint).1 =
      (c.binds endpoint && !r.deadlineExceeded &&
        !c.late r.looks && decide (Encodable (normalizeName c.hostname))) := by
  unfold runServer
  cases c.binds endpoint with
  | false => exact ⟨⟨rfl, rfl, rfl, rfl, rfl⟩, rfl, nofun, rfl⟩
  | true =>
    obtain ⟨hsame, hlooks, -, hphase, hasked⟩ :=
      ask_spec c { r with serverExpired := false, attempt := r.attempt + 1 } dnsRecordTypeA
    exact ⟨{ hsame with }, hlooks, hphase, by simpa using hasked⟩

theorem run_cons (c : Config) (r : Request) (endpoint : Endpoint) (rest : List Endpoint)
    (hin : r.deadlineExceeded = false)
    (hlate : c.late r.looks = false) : run c (endpoint :: rest) r =
      if (runServer c { r.look with servers := endpoint :: rest } endpoint).1 then
        (runServer c { r.look with servers := endpoint :: rest } endpoint).2
      else if c.late (if c.binds endpoint then r.looks + 2 else r.looks + 1) then
        (runServer c { r.look with servers := endpoint :: rest } endpoint).2.look.runSystem
      else run c rest (runServer c { r.look with servers := endpoint :: rest } endpoint).2.look := by
  obtain ⟨hsame, hlooks, -, -⟩ := runServer_spec c { r.look with servers := endpoint :: rest } endpoint
  have hlooks : (runServer c { r.look with servers := endpoint :: rest } endpoint).2.looks =
      if c.binds endpoint then r.looks + 2 else r.looks + 1 := hlooks
  rw [run, hin, hlate, Bool.false_or, if_neg Bool.false_ne_true]
  dsimp only
  rw [hsame.exceeded.trans hin, Bool.false_or, hlooks]

theorem run_spec (c : Config) : ∀ (servers : List Endpoint) (r : Request), Same r (run c servers r) ∧
    (run c servers r).phase = if !r.deadlineExceeded && asksOne c servers r.looks then .sending else .system
  | [], r => ⟨⟨rfl, rfl, rfl, rfl, rfl⟩, by simp [run, runSystem, asksOne]⟩
  | endpoint :: rest, r => by
    cases hin : r.deadlineExceeded with
    | true => rw [run, hin]; exact ⟨⟨rfl, rfl, rfl, rfl, rfl⟩, rfl⟩
    | false =>
      cases hlate : c.late r.looks with
      | true =>
        rw [run, hin, hlate, asksOne, hlate]
        exact ⟨⟨rfl, rfl, rfl, rfl, rfl⟩, rfl⟩
      | false =>
        obtain ⟨hsame, hlooks, hphase, hasked⟩ :=
        runServer_spec c { r.look with servers := endpoint :: rest } endpoint
        have hlook : Same r { r.look with servers := endpoint :: rest } := ⟨rfl, rfl, rfl, rfl, rfl⟩
        have hall := hlook.trans hsame
        have hlooks : (runServer c { r.look with servers := endpoint :: rest } endpoint).2.looks =
            if c.binds endpoint then r.looks + 2 else r.looks + 1 := hlooks
        have hasked : _ = (c.binds endpoint && !r.deadlineExceeded && !c.late (r.looks + 1) && _) := hasked
        rw [run_cons c r endpoint rest hin hlate, asksOne, hlate]
        generalize runServer c { r.look with servers := endpoint :: rest } endpoint =
          asked at hlooks hphase hasked hall
        obtain ⟨hsame', hphase'⟩ := run_spec c rest asked.2.look
        have hleft : Same r asked.2.look := hall.trans ⟨rfl, rfl, rfl, rfl, rfl⟩
        rw [hleft.exceeded, hin, show asked.2.look.looks = asked.2.looks + 1 from rfl, hlooks] at hphase'
        rw [hin] at hasked
        cases hbinds : c.binds endpoint <;> simp only [hbinds, Bool.false_eq_true,
          if_true, if_false] at hphase' hasked ⊢
        · rw [hasked]
          cases c.late (r.looks + 1)
          · exact ⟨hleft.trans hsame', by simpa using hphase'⟩
          · exact ⟨hleft.trans ⟨rfl, rfl, rfl, rfl, rfl⟩, by simp [runSystem]⟩
        · cases hfirst : asked.1 with
          | true =>
            rw [hfirst] at hasked
            simp only [Bool.not_false, Bool.true_and] at hasked ⊢
            exact ⟨hall, by simp [hphase hfirst, ← hasked]⟩
          | false =>
            rw [hfirst] at hasked
            simp only [Bool.not_false, Bool.true_and] at hasked ⊢
            rw [← hasked]
            cases c.late (r.looks + 2)
            · exact ⟨hleft.trans hsame', by simpa using hphase'⟩
            · exact ⟨hleft.trans ⟨rfl, rfl, rfl, rfl, rfl⟩, by simp [runSystem]⟩

theorem nextServer_spec (c : Config) (r : Request) :
    Same r (r.nextServer c) ∧ (r.nextServer c).phase = if asksNext c r r.looks then .sending else .system := by
  obtain ⟨hsame, hphase⟩ := run_spec c r.servers.tail r.look
  unfold nextServer asksNext
  cases hin : r.deadlineExceeded with
  | true => exact ⟨⟨rfl, rfl, rfl, rfl, rfl⟩, rfl⟩
  | false =>
    cases c.late r.looks with
    | true => exact ⟨⟨rfl, rfl, rfl, rfl, rfl⟩, rfl⟩
    | false =>
      have hlook : Same r r.look := ⟨rfl, rfl, rfl, rfl, rfl⟩
      exact ⟨hlook.trans hsame, by simpa [hin, look] using hphase⟩

theorem answered_a (c : Config) (r : Request) (htype : r.type = dnsRecordTypeA) : Same r (r.answered c) ∧
    (r.answered c).phase = if !r.serverExpired && !r.deadlineExceeded && !c.late r.looks && decide
    (Encodable (normalizeName c.hostname)) ||
      asksNext c r (r.looks + 1) then .sending else .system := by
  obtain ⟨hsame, hlooks, hservers, hphase, hasked⟩ := ask_spec c r dnsRecordTypeAaaa
  obtain ⟨hsame', hphase'⟩ := nextServer_spec c (r.ask c dnsRecordTypeAaaa).2
  rw [asksNext, hsame.exceeded, hservers, hlooks] at hphase'
  unfold answered
  rw [if_pos htype, ← hasked]
  dsimp only
  cases hfirst : (r.ask c dnsRecordTypeAaaa).1 with
  | true => exact ⟨hsame, hphase hfirst⟩
  | false => exact ⟨hsame.trans hsame', by simpa [asksNext] using hphase'⟩

theorem answered_aaaa (c : Config) (r : Request) (htype : r.type ≠ dnsRecordTypeA) :
    r.answered c = if r.addresses ≠ [] then r.complete (.ok r.addresses) else r.nextServer c := if_neg htype

theorem complete_taken (r : Request) (result : Except Error (List IpAddress)) :
    (r.complete result).taken = r.taken := by
  unfold complete
  split <;> rfl

theorem answered_taken (c : Config) (r : Request) : (r.answered c).taken = r.taken := by
  by_cases htype : r.type = dnsRecordTypeA
  · exact (answered_a c r htype).1.taken
  · rw [answered_aaaa c r htype]
    split
    · exact complete_taken r _
    · exact (nextServer_spec c r).1.taken

theorem addAnswer_spec (c : Config) (r : Request) (sender : Endpoint) (datagram : Bytes) (packet : Packet)
    (hpacket : c.decodePacket datagram r.queryId = some packet) : (r.take sender datagram).addAnswer packet =
      { r.take sender datagram with
        addresses := addAddresses r.addresses (Taken.addresses c ⟨sender, r.servers.head?, r.queryId,
          r.type, datagram⟩) } := by
  unfold addAnswer Taken.addresses
  rw [hpacket, Option.map_some]
  cases toAddressAnswer packet with
  | error _ => rfl
  | ok answer => rfl

end Request

/-! ## Every run -/

variable {c : Config}

/-- **A request ends with its result**, and only then. -/
structure Inv (c : Config) (r : Request) : Prop extends Sound c r where
  ended : r.completed = true ↔ r.phase = .ended
  none : r.completed = false → r.result = none

open Request

variable {r : Request} {asks : Bool} {r' : Request}

theorem Inv.moved (h : Inv c r) (hrun : r.completed = false) (hsame : Same r r')
    (hphase : r'.phase = if asks then .sending else .system) (hasks : r.addresses ≠ [] → asks = true) :
    Inv c r' where
  answers := hsame.taken ▸ h.answers
  addresses := by rw [hsame.addresses, hsame.taken]; exact h.addresses
  asks haddresses := by
    rw [hphase, hasks (hsame.addresses ▸ haddresses)]
    decide
  result result hresult := by
    rw [hsame.result, h.none hrun] at hresult
    cases hresult
  ended := by
    rw [hsame.completed, hrun, hphase]
    cases asks <;> decide
  none _ := hsame.result.trans (h.none hrun)

theorem not_sound_of_moved (hsame : Same r r') (hphase : r'.phase = if asks then .sending else .system)
    (haddresses : r.addresses ≠ []) (hasks : asks = false) : ¬ Sound c r' := by
  intro h
  refine h.asks (hsame.addresses ▸ haddresses) ?_
  rw [hphase, hasks]
  rfl

theorem Inv.complete (h : Inv c r) (result : Except Error (List IpAddress))
    (hresult : r.addresses ≠ [] → result = .ok r.addresses ∨ result = .error cancelledError) : Inv c
    (r.complete result) := by
  unfold Request.complete
  split
  · exact h
  · exact ⟨⟨h.answers, h.addresses, fun _ hphase => Phase.noConfusion hphase,
      fun _ heq haddresses => (by cases heq; exact hresult haddresses)⟩,
      ⟨fun _ => rfl, fun _ => rfl⟩, fun hfalse => by cases hfalse⟩

theorem Inv.running (h : Inv c r) (hphase : r.phase ≠ .ended) : r.completed = false := by
  cases hcompleted : r.completed with
  | false => rfl
  | true => exact absurd (h.ended.1 hcompleted) hphase

theorem Inv.add (h : Inv c r) (hrun : r.completed = false) (hphase : r.phase = .receiving)
    (sender : Endpoint) (datagram : Bytes)
    (hanswers : Taken.Answers c ⟨sender, r.servers.head?, r.queryId, r.type, datagram⟩) :
    Inv c { r.take sender datagram with
      addresses := addAddresses r.addresses (Taken.addresses c ⟨sender, r.servers.head?, r.queryId,
        r.type, datagram⟩) } where
  answers t ht := by
    rcases mem_append.1 ht with ht | ht
    · exact h.answers t ht
    · rw [mem_singleton.1 ht]
      exact hanswers
  addresses := by
    change _ = (r.taken ++ [_]).foldl _ _
    rw [foldl_append, ← h.addresses]
    rfl
  asks _ := by
    change r.phase ≠ _
    rw [hphase]
    decide
  result result hresult := by
    change r.result = _ at hresult
    rw [h.none hrun] at hresult
    cases hresult
  ended := h.ended
  none := h.none

theorem received_taken (c : Config) (r : Request) (sender : Endpoint) (datagram : Bytes)
    (hexpired : r.serverExpired = false)
    (hpasses : r.Passes sender datagram) : (r.received c (some (sender, datagram))).taken =
      r.taken ++ [⟨sender, r.servers.head?, r.queryId, r.type, datagram⟩] := by
  unfold Request.received
  dsimp only
  rw [hexpired, if_neg Bool.false_ne_true, if_neg (not_not_intro hpasses)]
  cases hpacket : c.decodePacket datagram r.queryId with
  | none => exact (nextServer_spec c _).1.taken
  | some packet =>
    dsimp only
    rw [addAnswer_spec c r sender datagram packet hpacket]
    exact answered_taken c _

theorem Inv.answered (h : Inv c r) (hrun : r.completed = false) (hexpired : r.serverExpired = false)
    (hfirst : r.type = dnsRecordTypeA → r.addresses ≠ [] →
      (!r.deadlineExceeded && !c.late r.looks && decide (Encodable (normalizeName c.hostname)) ||
        asksNext c r (r.looks + 1)) = true) :
    Inv c (r.answered c) := by
  by_cases htype : r.type = dnsRecordTypeA
  · obtain ⟨hsame, hphase⟩ := answered_a c r htype
    rw [hexpired, Bool.not_false, Bool.true_and] at hphase
    exact h.moved hrun hsame hphase (hfirst htype)
  · rw [answered_aaaa c r htype]
    split
    · exact h.complete _ fun _ => .inl rfl
    · rename_i hnone
      have hnext := nextServer_spec c r
      exact h.moved hrun hnext.1 hnext.2 fun haddresses => absurd haddresses hnone

theorem Inv.received (h : Inv c r) (hphase : r.phase = .receiving) (datagram : Option (Endpoint × Bytes))
    (hspared : Spared c r (.received datagram)) : Inv c (r.received c datagram) := by
  have hrun : r.completed = false := h.running (by rw [hphase]; decide)
  have hnext := nextServer_spec c r
  rcases datagram with _ | ⟨sender, datagram⟩
  · exact h.moved hrun hnext.1 hnext.2 (hspared hphase)
  · obtain ⟨hexpired, htaken⟩ := hspared hphase
    unfold Request.received
    dsimp only
    cases hcase : r.serverExpired with
    | true => exact h.moved hrun hnext.1 hnext.2 (hexpired hcase)
    | false =>
      by_cases hpasses : r.Passes sender datagram
      · obtain ⟨hanswers, hfirst⟩ := htaken hcase hpasses
        obtain ⟨packet, _, hpacket, _⟩ := hanswers.2.2
        have hadd := h.add hrun hphase sender datagram hanswers
        rw [if_neg Bool.false_ne_true, if_neg (not_not_intro hpasses), hpacket]
        dsimp only
        rw [addAnswer_spec c r sender datagram packet hpacket]
        exact hadd.answered hrun hcase hfirst
      · rw [if_neg Bool.false_ne_true, if_pos hpasses]
        exact h

theorem Inv.step (h : Inv c r) (event : Event) (hspared : Spared c r event) : Inv c (step c r event) := by
  cases event with
  | sent ok =>
    unfold Bootstrap.step
    dsimp only
    split
    · rename_i hphase
      have hrun : r.completed = false := h.running (by rw [hphase]; decide)
      unfold Request.sent
      split
      · refine ⟨{ h with asks := fun _ hsystem => Phase.noConfusion hsystem }, ?_, h.none⟩
        exact iff_of_false (by rw [hrun]; decide) (fun hended => Phase.noConfusion hended)
      · rename_i hfailed
        have hnext := nextServer_spec c r
        exact h.moved hrun hnext.1 hnext.2 (hspared hphase (Bool.eq_false_iff.2 hfailed))
    · exact h
  | received datagram =>
    unfold Bootstrap.step
    dsimp only
    split
    · rename_i hphase
      exact h.received hphase datagram hspared
    · exact h
  | serverDeadline attempt =>
    unfold Bootstrap.step
    dsimp only
    split
    · exact h
    · exact ⟨{ h with }, h.ended, h.none⟩
  | deadline =>
    unfold Bootstrap.step
    dsimp only
    split
    · exact h
    · exact ⟨{ h with }, h.ended, h.none⟩
  | system outcome =>
    unfold Bootstrap.step
    dsimp only
    split
    · rename_i hphase
      exact h.complete _ fun haddresses => absurd hphase (h.asks haddresses)
    · exact h
  | cancel => exact h.complete _ fun _ => .inr rfl
  | other => exact ⟨{ h with }, h.ended, h.none⟩

theorem Inv.back (event : Event) (hnot : ¬ Spared c r event) : ¬ Sound c (Bootstrap.step c r event) := by
  have hnext := nextServer_spec c r
  cases event with
  | sent ok =>
    unfold Spared at hnot
    push Not at hnot
    obtain ⟨hphase, hfailed, haddresses, hasks⟩ := hnot
    have hstep : Bootstrap.step c r (.sent ok) = r.nextServer c := by
      rw [Bootstrap.step, if_pos hphase, sent, hfailed, if_neg Bool.false_ne_true]
    rw [hstep]
    exact not_sound_of_moved hnext.1 hnext.2 haddresses (Bool.eq_false_iff.2 hasks)
  | received datagram =>
    rcases datagram with _ | ⟨sender, datagram⟩
    · unfold Spared at hnot
      push Not at hnot
      obtain ⟨hphase, haddresses, hasks⟩ := hnot
      rw [Bootstrap.step, if_pos hphase]
      exact not_sound_of_moved hnext.1 hnext.2 haddresses (Bool.eq_false_iff.2 hasks)
    · unfold Spared at hnot
      push Not at hnot
      obtain ⟨hphase, hnot⟩ := hnot
      rw [Bootstrap.step, if_pos hphase]
      by_cases hexpired : r.serverExpired = true → r.addresses ≠ [] → asksNext c r r.looks = true
      · obtain ⟨hfresh, hpasses, htaken⟩ := hnot hexpired
        have hadded := received_taken c r sender datagram hfresh hpasses
        intro h
        have hanswers : Taken.Answers c ⟨sender, r.servers.head?, r.queryId, r.type, datagram⟩ :=
          h.answers _ (by rw [hadded]; exact mem_append_right _ (mem_singleton_self _))
        obtain ⟨htype, haddresses, hasks⟩ := htaken hanswers
        obtain ⟨packet, _, hpacket, _⟩ := hanswers.2.2
        unfold Request.received at h
        dsimp only at h
        rw [hfresh, if_neg Bool.false_ne_true, if_neg (not_not_intro hpasses), hpacket] at h
        dsimp only at h
        rw [addAnswer_spec c r sender datagram packet hpacket] at h
        obtain ⟨hsame, hphase'⟩ := answered_a c { r.take sender datagram with
          addresses := addAddresses r.addresses
            (Taken.addresses c ⟨sender, r.servers.head?, r.queryId, r.type, datagram⟩) } htype
        refine not_sound_of_moved hsame hphase' haddresses ?_ h
        rw [show ({ r.take sender datagram with addresses := _ } : Request).serverExpired =
          false from hfresh, Bool.not_false, Bool.true_and]
        exact Bool.eq_false_iff.2 hasks
      · push Not at hexpired
        obtain ⟨hexpired, haddresses, hasks⟩ := hexpired
        unfold Request.received
        dsimp only
        rw [hexpired, if_pos rfl]
        exact not_sound_of_moved hnext.1 hnext.2 haddresses (Bool.eq_false_iff.2 hasks)
  | serverDeadline attempt => exact absurd trivial hnot
  | deadline => exact absurd trivial hnot
  | system outcome => exact absurd trivial hnot
  | cancel => exact absurd trivial hnot
  | other => exact absurd trivial hnot

theorem start_inv (c : Config) (configured : List Endpoint) : Inv c (start c configured) := by
  obtain ⟨hsame, hphase⟩ := run_spec c (mergeServers configured) { servers := mergeServers configured }
  have hfresh : Inv c { servers := mergeServers configured } := ⟨⟨by simp, rfl, by simp, by simp⟩,
    by simp, fun _ => rfl⟩
  exact hfresh.moved rfl hsame hphase fun h => absurd rfl h

/-- **What is resolved is what was answered, all along exactly when no step is a loss**, and a datagram
that does not pass changes nothing. -/
theorem resolved_as_answered (c : Config) (configured : List Endpoint) (events : List Event) :
    (∀ r sender datagram, r.serverExpired = false → ¬ Passes r sender datagram →
      step c r (.received (some (sender, datagram))) = r) ∧
    ((∀ pre, pre <+: events → Sound c (Runs.run (step c) (start c configured) pre)) ↔
      Runs.Along (step c) (Spared c) (start c configured) events) := by
  refine ⟨fun r sender datagram hexpired hpasses => ?_, ?_⟩
  · unfold Bootstrap.step
    dsimp only
    split
    · rw [Request.received, hexpired, if_neg Bool.false_ne_true, if_pos hpasses]
    · rfl
  · exact Runs.forall_prefix_iff_along (fun _ h => h.toSound) (fun _ event h => h.step event)
      (fun _ event _ => Inv.back event)
      (start_inv c configured) events

def server : Endpoint := ⟨.v4 #v[192, 0, 2, 53], 53⟩

def response (name : Name) : Packet :=
  { flags := 0x8180, questions := [⟨name, 1, 1⟩]
    answers := [{ name, type := 1, ttlSeconds := 60, parsedAddress := some (.v4 #v[198, 51, 100, 7]) }] }

def plain : Config :=
  { hostname := [97], decodePacket := fun datagram _ => some (response (datagram.drop 2)),
    binds := fun _ => true, late := fun _ => false }

def wronglyAnswered : List Event := [.sent true, .received (some (server, [0, 1, 98]))]

def answeredOnce : List Event :=
  [.sent true, .received (some (server, [0, 1, 97])), .deadline, .sent false,
    .system (some (.ok [.v4 #v[192, 0, 2, 2]]))]

/-- **An answer to another question is taken**, and what was answered in time is dropped when the deadline
passes behind it. -/
theorem other_question_taken : ¬ Sound plain (Runs.run (step plain) (start plain [server]) wronglyAnswered) ∧
    ¬ Sound plain (Runs.run (step plain) (start plain [server]) answeredOnce) := by
  constructor
  · intro h
    have htaken : (Runs.run (step plain) (start plain [server]) wronglyAnswered).taken = [⟨server,
      some server, 1, 1, [0, 1, 98]⟩] := by rfl
    obtain ⟨-, -, packet, question, hpacket, hquestion, hname, -⟩ :=
      h.answers _ (by rw [htaken]; exact mem_singleton_self _)
    cases hpacket
    cases hquestion
    exact absurd hname (by decide)
  · intro h
    have hresult : (Runs.run (step plain) (start plain [server]) answeredOnce).result = some
      (.ok [.v4 #v[192, 0, 2, 2]]) := by rfl
    have haddresses : (Runs.run (step plain) (start plain [server]) answeredOnce).addresses = [.v4 #v[198,
      51, 100, 7]] := by rfl
    rcases h.result _ hresult (by rw [haddresses]; decide) with heq | heq
    · rw [haddresses] at heq
      exact absurd heq (by decide)
    · cases heq

end ClashNative.Dns.Bootstrap
