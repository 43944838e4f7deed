import ClashNative.HttpText
import Mathlib.Algebra.GroupWithZero.Nat
import Mathlib.Data.List.Infix
/-!
# TrafficRouter — rules, their evaluation, and the route loop that resolves for them

`src/router/traffic_router.cpp` and the loop of `ProxyServer::route_stream`.  An evaluation stops at the
first rule that needs the destination's addresses; the loop resolves them and goes on from that rule.
-/
namespace ClashNative.TrafficRouter

open Http (Bytes ascii)

/-- `boost::asio::ip::address` by its bytes in network order. -/
inductive Address
  | v4 (bytes : Vector UInt8 4)
  | v6 (bytes : Vector UInt8 16)
  deriving DecidableEq

open List

def Address.isV4 : Address → Bool
  | v4 _ => true
  | v6 _ => false

def addressBytes : Address → Bytes
  | .v4 bytes => bytes.toList
  | .v6 bytes => bytes.toList

/-- `core::Destination` with both address families. -/
inductive SessionDestination
  | domain (host : Bytes) (port : UInt16)
  | address (ip : Address) (port : UInt16)
  deriving DecidableEq

def SessionDestination.port : SessionDestination → UInt16
  | domain _ port => port
  | address _ port => port

def SessionDestination.isAddress : SessionDestination → Bool
  | domain _ _ => false
  | address _ _ => true

inductive Network
  | tcp | udp
  deriving DecidableEq, Repr

/-- What the rules read of `core::ConnectionMetadata`. -/
structure ConnectionMetadata where
  network : Network
  destination : SessionDestination
  inboundName : Bytes
  inboundType : Bytes

inductive RouteAction
  | direct
  | reject
  | named (target : String)
  deriving DecidableEq, Repr

structure RouteDecision where
  action : RouteAction
  matchedRule : String
  usedDefault : Bool
  deriving DecidableEq, Repr

inductive MetadataNeed
  | destinationIp | processInfo
  deriving DecidableEq, Repr

inductive RuleEvaluation
  | noMatch
  | matched (decision : RouteDecision)
  | needMetadata (need : MetadataNeed) (ruleIndex : Nat)
  deriving DecidableEq, Repr

inductive RuleKind
  | domain | domainSuffix | domainKeyword | network | destinationPort | inbound | destinationIpCidr
  deriving DecidableEq, Repr

structure TrafficRule where
  id : String
  kind : RuleKind := .domain
  value : Bytes
  portFrom : UInt16 := 0
  portTo : UInt16 := 0
  noResolve : Bool := false
  action : RouteAction

inductive LookupState
  | unrequested | inProgress | resolved | failed
  deriving DecidableEq, Repr

structure RoutingContext where
  destinationLookup : LookupState := .unrequested
  destinationAddress : Option Address := none
  destinationAddresses : List Address := []
  deriving DecidableEq

structure Cidr where
  network : Address
  bits : Nat
  bits_le : bits ≤ if network.isV4 then 32 else 128

/-- `PreparedRule`; `cidr` stands for `cidr_valid` and the fields that are set with it. -/
structure PreparedRule where
  loweredValue : Bytes := []
  cidr : Option Cidr := none

def lowerCopy (value : Bytes) : Bytes := value.map toLower

/-- `std::from_chars` on the whole of a text: the digits of a 32-bit number and nothing else. -/
def fromChars (text : Bytes) : Option Nat :=
  if text = [] then none
  else if text.all fun c => 48 ≤ c && c ≤ 57 then
    let value := text.foldl (fun n c => 10 * n + (c.toNat - 48)) 0
    if value < 2 ^ 32 then some value else none
  else none

/-- The CIDR branch of `prepare_rule`; `makeAddress` is the library's parser of an address. -/
def prepareCidr (makeAddress : Bytes → Option Address) (value : Bytes) : Option Cidr :=
  match value.findIdx? (· = 47) with
  | none => none
  | some separator =>
    match makeAddress (value.take separator) with
    | none => none
    | some network =>
      match fromChars (value.drop (separator + 1)) with
      | none => none
      | some bits => if h : bits ≤ if network.isV4 then 32 else 128 then some ⟨network, bits, h⟩ else none

def prepareRule (makeAddress : Bytes → Option Address) (rule : TrafficRule) : PreparedRule :=
  match rule.kind with
  | .domain | .domainSuffix | .domainKeyword => { loweredValue := lowerCopy rule.value }
  | .destinationIpCidr => { cidr := prepareCidr makeAddress rule.value }
  | _ => {}

def domainMatches (destination : SessionDestination) (rule : TrafficRule) (prepared : PreparedRule) : Bool :=
  match destination with
  | .address _ _ => false
  | .domain host _ =>
    let domain := lowerCopy host
    let value := prepared.loweredValue
    match rule.kind with
    | .domain => domain = value
    | .domainSuffix =>
      domain = value ||
        (domain.length > value.length && domain.drop (domain.length - value.length) = value &&
          domain[domain.length - value.length - 1]? = some 46)
    | .domainKeyword => decide (value <:+: domain)
    | _ => false

/-- Whether one address lies in a network: whole bytes first, then the bits that are left over. -/
def cidrContains (cidr : Cidr) (address : Address) : Bool :=
  let fullBytes := cidr.bits / 8
  let remainingBits := cidr.bits % 8
  let networkBytes := addressBytes cidr.network
  let targetBytes := addressBytes address
  cidr.network.isV4 == address.isV4 &&
    (networkBytes.take fullBytes = targetBytes.take fullBytes &&
      (remainingBits = 0 ||
        (networkBytes.getD fullBytes 0).toNat >>> (8 - remainingBits) =
          (targetBytes.getD fullBytes 0).toNat >>> (8 - remainingBits)))

def candidateAddresses (metadata : ConnectionMetadata) (context : RoutingContext) : List Address :=
  if context.destinationAddresses ≠ [] then context.destinationAddresses
  else match context.destinationAddress with
    | some address => [address]
    | none =>
      match metadata.destination with
      | .address ip _ => [ip]
      | .domain _ _ => []

def matchesRule (rule : TrafficRule) (prepared : PreparedRule) (metadata : ConnectionMetadata)
    (context : RoutingContext) : Bool :=
  match rule.kind with
  | .domain | .domainSuffix | .domainKeyword => domainMatches metadata.destination rule prepared
  | .network =>
    (rule.value = ascii "tcp" && metadata.network = .tcp) ||
    (rule.value = ascii "udp" && metadata.network = .udp)
  | .destinationPort =>
    rule.portFrom ≤ metadata.destination.port &&
      metadata.destination.port ≤ if rule.portTo = 0 then rule.portFrom else rule.portTo
  | .inbound => rule.value = metadata.inboundName || rule.value = metadata.inboundType
  | .destinationIpCidr =>
    match prepared.cidr with
    | none => false
    | some cidr => (candidateAddresses metadata context).any (cidrContains cidr)

/-- `TrafficRouter`: the rules and what `add_rule` prepared of each. -/
structure Router (makeAddress : Bytes → Option Address) where
  defaultAction : RouteAction
  rules : List TrafficRule := []
  prepared : List PreparedRule := rules.map (prepareRule makeAddress)
  prepared_eq : prepared = rules.map (prepareRule makeAddress) := by rfl

variable {makeAddress : Bytes → Option Address}

def Router.addRule (r : Router makeAddress) (rule : TrafficRule) : Router makeAddress :=
  { r with
    rules := r.rules ++ [rule]
    prepared := r.prepared ++ [prepareRule makeAddress rule]
    prepared_eq := by rw [r.prepared_eq, List.map_append, List.map_cons, List.map_nil] }

/-- `evaluate` skips a CIDR rule, or asks for addresses, when there is none to hold it against. -/
def lacksAddresses (metadata : ConnectionMetadata) (context : RoutingContext) : Bool :=
  context.destinationAddresses = [] && context.destinationAddress.isNone && !metadata.destination.isAddress

/-- The loop of `evaluate` over the rules from `index` on. -/
def evaluateFrom (default : RouteAction) (metadata : ConnectionMetadata) (context : RoutingContext) :
    List (TrafficRule × PreparedRule) → Nat → RuleEvaluation
  | [], _ => .matched ⟨default, "", true⟩
  | (rule, prepared) :: rest, index =>
    if rule.kind = .destinationIpCidr && lacksAddresses metadata context then
      if !rule.noResolve && context.destinationLookup = .unrequested then .needMetadata .destinationIp index
      else evaluateFrom default metadata context rest (index + 1)
    else if matchesRule rule prepared metadata context then .matched ⟨rule.action, rule.id, false⟩
    else evaluateFrom default metadata context rest (index + 1)

def Router.evaluate (r : Router makeAddress) (metadata : ConnectionMetadata) (context : RoutingContext)
    (start : Nat) :
    RuleEvaluation :=
  evaluateFrom r.defaultAction metadata context ((r.rules.zip r.prepared).drop start) start

/-! ### The route loop -/

inductive DnsRecordType
  | a | aaaa
  deriving DecidableEq, Repr

/-- What the resolver and the server do while a route resolves: the addresses of each answer, none where
the lookup failed, and whether the server was stopped by then. -/
structure Resolver where
  answer : Bytes → DnsRecordType → Option (List Address)
  stopped : DnsRecordType → Bool := fun _ => false

inductive RouteOutcome
  | matched (decision : RouteDecision) (context : RoutingContext)
  | failed (e : Error)
  deriving DecidableEq

def RouteOutcome.cancelled : RouteOutcome := failed ⟨.cancelled, "proxy route was cancelled"⟩

def RouteOutcome.notConfigured : RouteOutcome :=
  failed ⟨.resolution, "destination IP enrichment is not configured"⟩

/-- The two lookups of a round, the A record first; each of them ends the route when the server has
stopped. -/
def lookUp (resolver : Resolver) (host : Bytes) :
    List DnsRecordType → List Address → Except RouteOutcome (List Address)
  | [], addresses => .ok addresses
  | type :: rest, addresses =>
    if resolver.stopped type then .error .cancelled
    else lookUp resolver host rest (addresses ++ (resolver.answer host type).getD [])

def resolvedContext (addresses : List Address) : RoutingContext :=
  if addresses ≠ [] then
    { destinationLookup := .resolved, destinationAddress := addresses.head?, destinationAddresses := addresses }
  else { destinationLookup := .failed }

def enrich (resolver : Option Resolver) (metadata : ConnectionMetadata) (need : MetadataNeed) :
    Except RouteOutcome RoutingContext :=
  match need, metadata.destination, resolver with
  | .destinationIp, .domain host _, some resolver =>
    match lookUp resolver host [.a, .aaaa] [] with
    | .error outcome => .error outcome
    | .ok addresses => .ok (resolvedContext addresses)
  | _, _, _ => .error .notConfigured

/-- The `for (;;)` of `route_stream`, up to the decision; `none` when `rounds` ran out first. -/
def routeLoop (r : Router makeAddress) (resolver : Option Resolver) (metadata : ConnectionMetadata) :
    Nat → RoutingContext → Nat → Option RouteOutcome
  | 0, _, _ => none
  | rounds + 1, context, start =>
    match r.evaluate metadata context start with
    | .needMetadata need ruleIndex =>
      match enrich resolver metadata need with
      | .error outcome => some outcome
      | .ok context' => routeLoop r resolver metadata rounds context' ruleIndex
    | .matched decision => some (.matched decision context)
    | .noMatch => some (.failed ⟨.resolution, "routing requires destination IP enrichment"⟩)

/-- `route_stream` as `open_stream` calls it, with a bound on the rounds of its loop. -/
def routeStream (r : Router makeAddress) (resolver : Option Resolver) (metadata : ConnectionMetadata)
    (rounds : Nat) :
    Option RouteOutcome :=
  routeLoop r resolver metadata rounds {} 0

/-! ### One evaluation -/

variable {default : RouteAction} {metadata : ConnectionMetadata}

theorem matchesRule_context {rule : TrafficRule} (prepared : PreparedRule) (c c' : RoutingContext)
    (h : rule.kind ≠ .destinationIpCidr) :
    matchesRule rule prepared metadata c = matchesRule rule prepared metadata c' := by
  unfold matchesRule
  cases hk : rule.kind <;> first | rfl | exact absurd hk h

variable {c : RoutingContext}

theorem evaluateFrom_decides (hc : c.destinationLookup ≠ .unrequested) :
    ∀ (rules : List (TrafficRule × PreparedRule)) (index : Nat),
      ∃ d, evaluateFrom default metadata c rules index = .matched d
  | [], index => ⟨_, rfl⟩
  | (rule, prepared) :: rest, index => by
    have ih := evaluateFrom_decides hc rest (index + 1)
    unfold evaluateFrom
    split
    · rw [if_neg (by simp [hc])]
      exact ih
    · split
      · exact ⟨_, rfl⟩
      · exact ih

theorem evaluateFrom_ne_noMatch (c : RoutingContext) :
    ∀ (rules : List (TrafficRule × PreparedRule)) (index : Nat),
      evaluateFrom default metadata c rules index ≠ .noMatch
  | [], index => by simp [evaluateFrom]
  | (rule, prepared) :: rest, index => by
    have ih := evaluateFrom_ne_noMatch c rest (index + 1)
    unfold evaluateFrom
    split
    · split
      · simp
      · exact ih
    · split
      · simp
      · exact ih

variable {k : Nat} {need : MetadataNeed}

/-- **What an evaluation that asked had passed**: the rules before the one it returned, none of which it
matched; the CIDR rules among them are all `no_resolve`. -/
theorem evaluateFrom_need :
    ∀ (rules : List (TrafficRule × PreparedRule)) (index : Nat),
      evaluateFrom default metadata c rules index = .needMetadata need k →
      need = .destinationIp ∧ lacksAddresses metadata c = true ∧ ∃ n, k = index + n ∧ n < rules.length ∧
        ∀ entry ∈ rules.take n,
          (entry.1.kind = .destinationIpCidr → entry.1.noResolve = true ∨ c.destinationLookup ≠ .unrequested) ∧
          (entry.1.kind ≠ .destinationIpCidr → matchesRule entry.1 entry.2 metadata c = false)
  | [], index, h => by cases h
  | (rule, prepared) :: rest, index, h => by
    unfold evaluateFrom at h
    split at h
    · rename_i hc
      rw [Bool.and_eq_true, decide_eq_true_eq] at hc
      split at h
      · cases h
        exact ⟨rfl, hc.2, 0, rfl, Nat.zero_lt_succ _, fun entry he => by cases he⟩
      · rename_i hr
        obtain ⟨hn, hl, n, hk, hlt, hall⟩ := evaluateFrom_need rest (index + 1) h
        refine ⟨hn, hl, n + 1, by omega, Nat.succ_lt_succ hlt, fun entry he => ?_⟩
        rcases mem_cons.1 he with rfl | he
        · refine ⟨fun _ => ?_, fun hne => absurd hc.1 hne⟩
          by_cases hres : rule.noResolve = true
          · exact .inl hres
          · exact .inr fun hu => hr (by simp [hres, hu])
        · exact hall entry he
    · rename_i hc
      split at h
      · cases h
      · rename_i hm
        obtain ⟨hn, hl, n, hk, hlt, hall⟩ := evaluateFrom_need rest (index + 1) h
        refine ⟨hn, hl, n + 1, by omega, Nat.succ_lt_succ hlt, fun entry he => ?_⟩
        rcases mem_cons.1 he with rfl | he
        · exact ⟨fun hkind => absurd (by rw [decide_eq_true hkind, hl]; rfl) hc, fun _ => eq_false_of_ne_true hm⟩
        · exact hall entry he

theorem evaluateFrom_skip (c c' : RoutingContext) :
    ∀ (n : Nat) (rules : List (TrafficRule × PreparedRule)) (index : Nat),
      (∀ entry ∈ rules.take n, entry.1.kind ≠ .destinationIpCidr ∧
        matchesRule entry.1 entry.2 metadata c = false) →
      n ≤ rules.length →
      evaluateFrom default metadata c' rules index = evaluateFrom default metadata c' (rules.drop n) (index + n)
  | 0, rules, index, _, _ => rfl
  | n + 1, [], index, _, hn => absurd hn (Nat.not_succ_le_zero n)
  | n + 1, (rule, prepared) :: rest, index, h, hn => by
    have hhead := h (rule, prepared) (by simp)
    have ih := evaluateFrom_skip c c' n rest (index + 1) (fun entry he => h entry (by simp [he]))
      (Nat.le_of_succ_le_succ hn)
    have hm : matchesRule rule prepared metadata c' = false :=
      (matchesRule_context prepared c' c hhead.1).trans hhead.2
    rw [evaluateFrom, if_neg (by simp [hhead.1]), if_neg (by simp [hm]), ih, drop_succ_cons, Nat.add_right_comm]
    rfl

/-! ### The loop -/

theorem resolvedContext_requested (addresses : List Address) :
    (resolvedContext addresses).destinationLookup ≠ .unrequested := by
  unfold resolvedContext
  split <;> simp

theorem enrich_requested {resolver : Option Resolver}
    (h : enrich resolver metadata need = .ok c) : c.destinationLookup ≠ .unrequested := by
  unfold enrich at h
  split at h
  · split at h
    · cases h
    · cases h
      exact resolvedContext_requested _
  · cases h

/-- `NO_RESOLVE` on an IP rule: it matches resolved addresses without having asked for them. -/
def TrafficRule.matchesUnasked (rule : TrafficRule) : Prop :=
  rule.kind = .destinationIpCidr ∧ rule.noResolve = true

/-- **An evaluation that asked at `k` and resumes there with other metadata** is the evaluation of the
whole list with it, when no rule before `k` matches resolved addresses unasked. -/
theorem evaluate_resume (r : Router makeAddress) (c : RoutingContext)
    (h : r.evaluate metadata {} 0 = .needMetadata need k) (hk : ∀ rule ∈ r.rules.take k, ¬rule.matchesUnasked) :
    r.evaluate metadata c k = r.evaluate metadata c 0 := by
  obtain ⟨-, -, n, hn, hlt, hall⟩ := evaluateFrom_need _ _ h
  rw [Nat.zero_add] at hn
  subst hn
  have hskip : evaluateFrom r.defaultAction metadata c (r.rules.zip r.prepared) 0 =
      evaluateFrom r.defaultAction metadata c ((r.rules.zip r.prepared).drop k) (0 + k) := by
    refine evaluateFrom_skip {} c k _ 0 (fun entry he => ?_) (Nat.le_of_lt hlt)
    have hmem : entry.1 ∈ r.rules.take k := by
      have hl : r.rules.length ≤ r.prepared.length := by rw [r.prepared_eq, length_map]
      rw [← map_fst_zip hl, ← map_take]
      exact mem_map_of_mem he
    have hcidr : entry.1.kind ≠ .destinationIpCidr := fun hc =>
      ((hall entry he).1 hc).elim (fun hres => hk entry.1 hmem ⟨hc, hres⟩) (fun hu => hu rfl)
    exact ⟨hcidr, (hall entry he).2 hcidr⟩
  rw [Nat.zero_add] at hskip
  exact hskip.symm

variable {start : Nat}

theorem routeLoop_matched (r : Router makeAddress) (resolver : Option Resolver) {d : RouteDecision}
    (rounds : Nat) (h : r.evaluate metadata c start = .matched d) :
    routeLoop r resolver metadata (rounds + 1) c start = some (.matched d c) := by
  unfold routeLoop
  rw [h]

theorem routeLoop_need (r : Router makeAddress) (resolver : Option Resolver)
    (rounds : Nat) (h : r.evaluate metadata c start = .needMetadata need k) :
    routeLoop r resolver metadata (rounds + 1) c start =
      match enrich resolver metadata need with
      | .error outcome => some outcome
      | .ok c' => routeLoop r resolver metadata rounds c' k := by
  rw [routeLoop, h]

/-- **The route loop ends within two rounds.**  A first evaluation that decides is the decision.  One that
asked at `k` ends the route where no address could be looked up; where one was, or the lookup failed, the
decision is that of the whole list with the metadata found, provided no rule before `k` matches resolved
addresses unasked. -/
theorem routeStream_resumes (r : Router makeAddress) (resolver : Option Resolver) (metadata : ConnectionMetadata)
    (rounds : Nat) :
    (∃ d, r.evaluate metadata {} 0 = .matched d ∧
      routeStream r resolver metadata (rounds + 2) = some (.matched d {})) ∨
    ∃ need k, r.evaluate metadata {} 0 = .needMetadata need k ∧
      (∀ outcome, enrich resolver metadata need = .error outcome →
        routeStream r resolver metadata (rounds + 2) = some outcome) ∧
      ∀ c, enrich resolver metadata need = .ok c → ∃ d,
        routeStream r resolver metadata (rounds + 2) = some (.matched d c) ∧
        ((∀ rule ∈ r.rules.take k, ¬rule.matchesUnasked) → r.evaluate metadata c 0 = .matched d) := by
  cases h : r.evaluate metadata {} 0 with
  | noMatch => exact absurd h (evaluateFrom_ne_noMatch _ _ _)
  | matched d => exact .inl ⟨d, rfl, routeLoop_matched r resolver (rounds + 1) h⟩
  | needMetadata need k =>
    refine .inr ⟨need, k, rfl, fun outcome he => ?_, fun c hc => ?_⟩
    · rw [routeStream, routeLoop_need r resolver (rounds + 1) h, he]
    · obtain ⟨d, hd⟩ : ∃ d, r.evaluate metadata c k = .matched d :=
        evaluateFrom_decides (enrich_requested hc) _ _
      refine ⟨d, ?_, fun hk => (evaluate_resume r c h hk).symm.trans hd⟩
      rw [routeStream, routeLoop_need r resolver (rounds + 1) h, hc]
      exact routeLoop_matched r resolver rounds hd

/-- A rule for private addresses that asks, behind a domain rule, and a name that resolves to one. -/
example :
    let home : Address := .v4 #v[10, 0, 0, 7]
    let r : Router (fun _ => some (.v4 #v[10, 0, 0, 0])) :=
      ((⟨.named "proxy", [], [], rfl⟩ : Router _).addRule ⟨"lan", .domainSuffix, ascii "lan", 0, 0,
        false, .reject⟩).addRule
        ⟨"private", .destinationIpCidr, ascii "10.0.0.0/8", 0, 0, false, .direct⟩
    let metadata : ConnectionMetadata := ⟨.tcp, .domain (ascii "Home.example") 443, [], []⟩
    routeStream r (some { answer := fun _ type => if type = .a then some [home] else none }) metadata 2 =
      some (.matched ⟨.direct, "private", false⟩ ⟨.resolved, some home, [home]⟩) := by
  decide

end ClashNative.TrafficRouter
