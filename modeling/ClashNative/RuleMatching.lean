import ClashNative.TrafficRouter
/-!
# RuleMatching — what the prepared rules decide

A router holds each rule against a destination by what `prepare_rule` made of it.  `Says` tells what a
rule says by itself, with an address as the list of its bits; the prepared rule decides the same, and an
evaluation stops at the first rule that says something.
-/
namespace ClashNative.TrafficRouter

open List

open Http (Bytes ascii)

/-! ### Addresses by their bits -/

def byteBits (byte : UInt8) : List Bool := (List.range 8).map fun i => byte.toNat.testBit (7 - i)

def bits (bytes : Bytes) : List Bool := bytes.flatMap byteBits

theorem length_byteBits (byte : UInt8) : (byteBits byte).length = 8 := by simp [byteBits]

theorem take_byteBits_iff (x y : UInt8) {n : Nat} (hn : n ≤ 8) :
    (byteBits x).take n = (byteBits y).take n ↔ x.toNat >>> (8 - n) = y.toNat >>> (8 - n) := by
  have hbits : (byteBits x).take n = (byteBits y).take n ↔
    ∀ i < n, x.toNat.testBit (7 - i) = y.toNat.testBit (7 - i) := by
    unfold byteBits
    rw [← map_take, ← map_take, take_range, Nat.min_eq_left hn, map_inj_left]
    simp
  rw [hbits]
  constructor
  · intro h
    refine Nat.eq_of_testBit_eq fun i => ?_
    rw [Nat.testBit_shiftRight, Nat.testBit_shiftRight]
    by_cases hi : i < n
    · have hbit := h (n - 1 - i) (by omega)
      rwa [show 7 - (n - 1 - i) = 8 - n + i by omega] at hbit
    · have hhigh : ∀ z : UInt8, z.toNat.testBit (8 - n + i) = false := fun z =>
        Nat.testBit_lt_two_pow (Nat.lt_of_lt_of_le z.toNat_lt (Nat.pow_le_pow_right (by decide) (by omega)))
      rw [hhigh, hhigh]
  · intro h i hi
    have hbit := congrArg (Nat.testBit · (n - 1 - i)) h
    simp only [Nat.testBit_shiftRight] at hbit
    rwa [show 8 - n + (n - 1 - i) = 7 - i by omega] at hbit

theorem byteBits_inj {x y : UInt8} (h : byteBits x = byteBits y) : x = y := by
  have htake := (take_byteBits_iff x y (n := 8) (Nat.le_refl 8)).1 (by rw [h])
  exact UInt8.toNat_inj.1 htake

theorem take_bits_iff {r : Nat} (hr : r < 8) : ∀ (k : Nat) {a b : Bytes}, a.length = b.length →
    (0 < r → k < a.length) →
    ((bits a).take (8 * k + r) = (bits b).take (8 * k + r) ↔
      a.take k = b.take k ∧ (r = 0 ∨ (a.getD k 0).toNat >>> (8 - r) = (b.getD k 0).toNat >>> (8 - r)))
  | 0, [], [], _, _ => by simp
  | 0, x :: a, y :: b, _, _ => by
    have htake : ∀ (z : UInt8) (rest : Bytes), (bits (z :: rest)).take (8 * 0 + r) = (byteBits z).take r :=
    fun z rest => by
      rw [bits, flatMap_cons, take_append_of_le_length (by rw [length_byteBits]; omega),
        Nat.mul_zero, Nat.zero_add]
    rw [htake, htake, take_byteBits_iff x y (Nat.le_of_lt hr)]
    refine ⟨fun h => ⟨rfl, .inr h⟩, fun h => h.2.elim (fun hzero => ?_) id⟩
    subst hzero
    rw [Nat.shiftRight_eq_zero _ _ x.toNat_lt, Nat.shiftRight_eq_zero _ _ y.toNat_lt]
  | k + 1, [], [], _, hk => by
    have hzero : r = 0 := Nat.eq_zero_of_not_pos fun hpos => absurd (hk hpos) (Nat.not_lt_zero _)
    simp [hzero]
  | k + 1, x :: a, y :: b, hlength, hk => by
    have htake : ∀ (z : UInt8) (rest : Bytes), (bits (z :: rest)).take (8 * (k + 1) + r) =
        byteBits z ++ (bits rest).take (8 * k + r) := fun z rest => by
      rw [bits, flatMap_cons, take_append, length_byteBits, take_of_length_le (by rw [length_byteBits]; omega),
        show 8 * (k + 1) + r - 8 = 8 * k + r by omega]
      rfl
    have ih := take_bits_iff hr k (Nat.succ.inj hlength) (fun hpos => Nat.lt_of_succ_lt_succ (hk hpos))
    rw [htake, htake, take_succ_cons, take_succ_cons, getD_cons_succ, getD_cons_succ]
    constructor
    · intro h
      obtain ⟨hhead, htail⟩ := append_inj h (by rw [length_byteBits, length_byteBits])
      obtain ⟨hbytes, hbits⟩ := ih.1 htail
      exact ⟨by rw [byteBits_inj hhead, hbytes], hbits⟩
    · rintro ⟨hbytes, hbits⟩
      obtain ⟨rfl, hrest⟩ := List.cons.inj hbytes
      rw [ih.2 ⟨hrest, hbits⟩]

def Address.width (address : Address) : Nat := if address.isV4 then 32 else 128

theorem length_addressBytes (address : Address) : 8 * (addressBytes address).length = address.width := by
  cases address <;> simp [addressBytes, Address.width, Address.isV4]

theorem cidrContains_iff (cidr : Cidr) (address : Address) : cidrContains cidr address = true ↔
    cidr.network.isV4 = address.isV4 ∧
      (bits (addressBytes address)).take cidr.bits = (bits (addressBytes cidr.network)).take cidr.bits := by
  unfold cidrContains
  simp only [Bool.and_eq_true, beq_iff_eq, Bool.or_eq_true, decide_eq_true_eq]
  refine and_congr_right fun hfamily => ?_
  have hnetwork := length_addressBytes cidr.network
  have hwidth : cidr.bits ≤ cidr.network.width := cidr.bits_le
  have hlength : (addressBytes cidr.network).length = (addressBytes address).length := by
    have haddress := length_addressBytes address
    unfold Address.width at hnetwork haddress
    rw [hfamily] at hnetwork
    omega
  have hbits := take_bits_iff (r := cidr.bits % 8) (Nat.mod_lt _ (by decide)) (cidr.bits / 8) hlength
    (fun _ => by omega)
  rw [Nat.div_add_mod] at hbits
  rw [← hbits, eq_comm]

/-! ### What a rule says -/

/-- **A name lies under a suffix**: it is the suffix, or ends with a dot and the suffix. -/
def Under (name suffix : Bytes) : Prop := name = suffix ∨ ∃ front, name = front ++ 46 :: suffix

/-- **An address lies in the network that a text names.** -/
def Within (makeAddress : Bytes → Option Address) (text : Bytes) (address : Address) : Prop :=
  ∃ host digits network n, text = host ++ 47 :: digits ∧ 47 ∉ host ∧ makeAddress host = some network ∧
  fromChars digits = some n ∧
    n ≤ network.width ∧ network.isV4 = address.isV4 ∧
    (bits (addressBytes address)).take n = (bits (addressBytes network)).take n

/-- **What a rule says of a destination**, read off the rule as it stands. -/
def Says (makeAddress : Bytes → Option Address) (rule : TrafficRule) (metadata : ConnectionMetadata)
    (context : RoutingContext) : Prop :=
  match rule.kind with
  | .domain => ∃ host port, metadata.destination = .domain host port ∧ lowerCopy host = lowerCopy rule.value
  | .domainSuffix => ∃ host port, metadata.destination = .domain host port ∧
    Under (lowerCopy host) (lowerCopy rule.value)
  | .domainKeyword => ∃ host port, metadata.destination = .domain host port ∧
    lowerCopy rule.value <:+: lowerCopy host
  | .network => rule.value = ascii "tcp" ∧ metadata.network = .tcp ∨ rule.value = ascii "udp" ∧
    metadata.network = .udp
  | .destinationPort => rule.portFrom ≤ metadata.destination.port ∧
      metadata.destination.port ≤ if rule.portTo = 0 then rule.portFrom else rule.portTo
  | .inbound => rule.value = metadata.inboundName ∨ rule.value = metadata.inboundType
  | .destinationIpCidr => ∃ address ∈ candidateAddresses metadata context, Within makeAddress rule.value address

def Asks (rule : TrafficRule) (metadata : ConnectionMetadata) (context : RoutingContext) : Prop :=
  rule.kind = .destinationIpCidr ∧ lacksAddresses metadata context = true ∧ rule.noResolve = false ∧
    context.destinationLookup = .unrequested

theorem suffix_iff (name suffix : Bytes) : (name = suffix ∨ (suffix.length < name.length ∧
    name.drop (name.length - suffix.length) = suffix) ∧ name[name.length - suffix.length - 1]? = some 46) ↔
    Under name suffix := by
  refine or_congr Iff.rfl ⟨fun ⟨⟨hlt, hdrop⟩, hdot⟩ => ?_, fun ⟨front, hfront⟩ => ?_⟩
  · refine ⟨name.take (name.length - suffix.length - 1), ?_⟩
    obtain ⟨hbound, hdot⟩ := List.getElem?_eq_some_iff.1 hdot
    have hcons := drop_eq_getElem_cons hbound
    rw [hdot, show name.length - suffix.length - 1 + 1 = name.length - suffix.length by omega, hdrop] at hcons
    rw [← hcons, take_append_drop]
  · subst hfront
    have hlength : (front ++ 46 :: suffix).length - suffix.length = front.length + 1 := by
      rw [length_append, length_cons]
      omega
    refine ⟨⟨by rw [length_append, length_cons]; omega, ?_⟩, ?_⟩
    · rw [hlength, append_cons, drop_left' (by simp)]
    · rw [hlength, Nat.add_sub_cancel, getElem?_append_right (Nat.le_refl _), Nat.sub_self]
      rfl

theorem prepareCidr_iff {makeAddress : Bytes → Option Address} {text : Bytes} (address : Address) :
    (∃ cidr, prepareCidr makeAddress text = some cidr ∧ cidrContains cidr address = true) ↔
    Within makeAddress text address := by
  have hsplit : ∀ {host digits : Bytes}, 47 ∉ host →
    (host ++ 47 :: digits).findIdx? (· = 47) = some host.length := fun {host digits} hnot => by
    have hnone : host.findIdx? (· = (47 : UInt8)) = none :=
      findIdx?_eq_none_iff.2 fun c hc => decide_eq_false fun heq => hnot (heq ▸ hc)
    simp [findIdx?_append, hnone, findIdx?_cons]
  constructor
  · rintro ⟨cidr, hcidr, hcontains⟩
    unfold prepareCidr at hcidr
    split at hcidr
    · cases hcidr
    · rename_i separator hseparator
      split at hcidr
      · cases hcidr
      · rename_i network hnetwork
        split at hcidr
        · cases hcidr
        · rename_i n hn
          have hle : n ≤ if network.isV4 then 32 else 128 := by
            by_contra hnot
            rw [dif_neg hnot] at hcidr
            cases hcidr
          rw [dif_pos hle] at hcidr
          obtain rfl := Option.some.inj hcidr
          obtain ⟨hlt, hslash, hbefore⟩ := findIdx?_eq_some_iff_getElem.1 hseparator
          obtain ⟨hfamily, htake⟩ := (cidrContains_iff _ address).1 hcontains
          refine ⟨text.take separator, text.drop (separator + 1), network, n, ?_,
            fun hmem => ?_, hnetwork, hn, hle, hfamily, htake⟩
          · have hcons := drop_eq_getElem_cons hlt
            rw [of_decide_eq_true hslash] at hcons
            rw [← hcons, take_append_drop]
          · obtain ⟨j, hj, hget⟩ := mem_take_iff_getElem.1 hmem
            exact hbefore j (by omega) (decide_eq_true hget)
  · rintro ⟨host, digits, network, n, rfl, hnot, hnetwork, hn, hle, hfamily, htake⟩
    refine ⟨⟨network, n, hle⟩, ?_, (cidrContains_iff _ address).2 ⟨hfamily, htake⟩⟩
    unfold prepareCidr
    rw [hsplit hnot]
    dsimp only
    rw [take_left, hnetwork]
    rw [append_cons, drop_left' (by simp), hn]
    exact dif_pos hle

theorem matchesRule_iff (makeAddress : Bytes → Option Address) (rule : TrafficRule)
    (metadata : ConnectionMetadata)
    (context : RoutingContext) :
    matchesRule rule (prepareRule makeAddress rule) metadata context = true ↔
    Says makeAddress rule metadata context := by
  unfold matchesRule Says
  cases hkind : rule.kind with
  | domain | domainKeyword =>
    simp only [domainMatches, prepareRule, hkind]
    cases metadata.destination <;> simp
  | domainSuffix =>
    simp only [domainMatches, prepareRule, hkind]
    cases metadata.destination with
    | address ip port => simp
    | domain host port =>
      simp only [SessionDestination.domain.injEq, Bool.or_eq_true, Bool.and_eq_true, decide_eq_true_eq]
      exact (suffix_iff _ _).trans ⟨fun h => ⟨host, port, ⟨rfl, rfl⟩, h⟩, fun ⟨_, _, ⟨rfl, rfl⟩, h⟩ => h⟩
  | network | destinationPort | inbound => simp
  | destinationIpCidr =>
    simp only [prepareRule, hkind]
    constructor
    · intro h
      cases hcidr : prepareCidr makeAddress rule.value with
      | none =>
        rw [hcidr] at h
        cases h
      | some cidr =>
        rw [hcidr] at h
        obtain ⟨address, hmem, hcontains⟩ := any_eq_true.1 h
        exact ⟨address, hmem, (prepareCidr_iff address).1 ⟨cidr, hcidr, hcontains⟩⟩
    · rintro ⟨address, hmem, hwithin⟩
      obtain ⟨cidr, hcidr, hcontains⟩ := (prepareCidr_iff address).2 hwithin
      rw [hcidr]
      exact any_eq_true.2 ⟨address, hmem, hcontains⟩

theorem candidateAddresses_of_lacks {metadata : ConnectionMetadata} {context : RoutingContext}
    (h : lacksAddresses metadata context = true) :
    candidateAddresses metadata context = [] := by
  simp only [lacksAddresses, Bool.and_eq_true, decide_eq_true_eq, Option.isNone_iff_eq_none] at h
  obtain ⟨⟨haddresses, haddress⟩, hdestination⟩ := h
  unfold candidateAddresses
  rw [if_neg (not_not.2 haddresses), haddress]
  cases hd : metadata.destination with
  | domain host port => rfl
  | address ip port =>
    rw [hd] at hdestination
    cases hdestination

/-! ### The first rule that says something -/

section Evaluation

variable (makeAddress : Bytes → Option Address)

theorem evaluateFrom_cons (default : RouteAction) (metadata : ConnectionMetadata) (context : RoutingContext)
    (rule : TrafficRule)
    (rest : List (TrafficRule × PreparedRule)) (index : Nat) :
    let evaluation := evaluateFrom default metadata context ((rule, prepareRule makeAddress rule) :: rest) index
    (Asks rule metadata context ∧ evaluation = .needMetadata .destinationIp index) ∨
    (¬ Asks rule metadata context ∧ Says makeAddress rule metadata context ∧
      evaluation = .matched ⟨rule.action, rule.id, false⟩) ∨
    (¬ Asks rule metadata context ∧ ¬ Says makeAddress rule metadata context ∧
      evaluation = evaluateFrom default metadata context rest (index + 1)) := by
  rw [evaluateFrom]
  by_cases hlacks : (decide (rule.kind = .destinationIpCidr) && lacksAddresses metadata context) = true
  · rw [if_pos hlacks]
    rw [Bool.and_eq_true, decide_eq_true_eq] at hlacks
    by_cases hasks : (!rule.noResolve && decide (context.destinationLookup = .unrequested)) = true
    · rw [if_pos hasks]
      rw [Bool.and_eq_true, Bool.not_eq_true', decide_eq_true_eq] at hasks
      exact .inl ⟨⟨hlacks.1, hlacks.2, hasks.1, hasks.2⟩, rfl⟩
    · rw [if_neg hasks]
      refine .inr (.inr ⟨fun h => hasks ?_, fun h => ?_, rfl⟩)
      · rw [h.2.2.1, h.2.2.2]
        rfl
      · unfold Says at h
        rw [hlacks.1, candidateAddresses_of_lacks hlacks.2] at h
        obtain ⟨address, hmem, -⟩ := h
        exact absurd hmem not_mem_nil
  · rw [if_neg hlacks]
    have hasks : ¬ Asks rule metadata context :=
      fun h => hlacks (by rw [Bool.and_eq_true, decide_eq_true_eq]; exact ⟨h.1, h.2.1⟩)
    by_cases hmatch : matchesRule rule (prepareRule makeAddress rule) metadata context = true
    · rw [if_pos hmatch]
      exact .inr (.inl ⟨hasks, (matchesRule_iff ..).1 hmatch, rfl⟩)
    · rw [if_neg hmatch]
      exact .inr (.inr ⟨hasks, fun h => hmatch ((matchesRule_iff ..).2 h), rfl⟩)

/-- **A rule that an evaluation goes by**: it neither says nor asks anything. -/
def Silent (makeAddress : Bytes → Option Address) (metadata : ConnectionMetadata) (context : RoutingContext)
    (rule : TrafficRule) : Prop :=
  ¬ Asks rule metadata context ∧ ¬ Says makeAddress rule metadata context

/-- **The rules decide in their order**, from any rule on: the first one that is not silent is asked about
or gives its action, and the default is for those that all are. -/
theorem evaluateFrom_first (default : RouteAction) (metadata : ConnectionMetadata) (context : RoutingContext) :
    ∀ (rules : List TrafficRule) (index : Nat),
      let evaluation := evaluateFrom default metadata context (rules.map fun rule =>
        (rule, prepareRule makeAddress rule)) index
      (∃ before rule after, rules = before ++ rule :: after ∧
        (∀ other ∈ before, Silent makeAddress metadata context other) ∧
        (Asks rule metadata context ∧ evaluation = .needMetadata .destinationIp (index + before.length) ∨
          ¬ Asks rule metadata context ∧ Says makeAddress rule metadata context ∧
            evaluation = .matched ⟨rule.action, rule.id, false⟩)) ∨
      (∀ rule ∈ rules, Silent makeAddress metadata context rule) ∧ evaluation = .matched ⟨default, "", true⟩
  | [], _ => .inr ⟨fun _ h => absurd h not_mem_nil, rfl⟩
  | rule :: rules, index => by
    rw [map_cons]
    rcases evaluateFrom_cons makeAddress default metadata context rule
      (rules.map fun rule => (rule, prepareRule makeAddress rule)) index with ⟨hasks, heq⟩ | ⟨hasks,
        hsays, heq⟩ | ⟨hasks, hsays, heq⟩
    · exact .inl ⟨[], rule, rules, rfl, fun _ h => absurd h not_mem_nil, .inl ⟨hasks, heq⟩⟩
    · exact .inl ⟨[], rule, rules, rfl, fun _ h => absurd h not_mem_nil, .inr ⟨hasks, hsays, heq⟩⟩
    · rw [heq]
      have hsilent : Silent makeAddress metadata context rule := ⟨hasks, hsays⟩
      rcases evaluateFrom_first default metadata context rules (index + 1) with ⟨before, first, after, rfl,
        hbefore, hfirst⟩ | ⟨hall, hdefault⟩
      · refine .inl ⟨rule :: before, first, after, rfl, forall_mem_cons.2 ⟨hsilent, hbefore⟩, ?_⟩
        rwa [length_cons, ← Nat.add_assoc, Nat.add_right_comm]
      · exact .inr ⟨forall_mem_cons.2 ⟨hsilent, hall⟩, hdefault⟩

/-- **Prepared rules decide as the plain ones**: an evaluation from any rule on gives the action of the
first rule from there that says something of the destination, stops before at one that asks for its
addresses, and is the default where all are silent. -/
theorem evaluate_plain_rules (r : Router makeAddress) (metadata : ConnectionMetadata)
    (context : RoutingContext) (start : Nat) :
    (∃ before rule after, r.rules.drop start = before ++ rule :: after ∧
      (∀ other ∈ before, Silent makeAddress metadata context other) ∧
      (Asks rule metadata context ∧ r.evaluate metadata context start =
        .needMetadata .destinationIp (start + before.length) ∨
        ¬ Asks rule metadata context ∧ Says makeAddress rule metadata context ∧
          r.evaluate metadata context start = .matched ⟨rule.action, rule.id, false⟩)) ∨
    (∀ rule ∈ r.rules.drop start, Silent makeAddress metadata context rule) ∧
      r.evaluate metadata context start = .matched ⟨r.defaultAction, "", true⟩ := by
  have hzip : (r.rules.zip r.prepared).drop start = (r.rules.drop start).map fun rule =>
      (rule, prepareRule makeAddress rule) := by
    rw [r.prepared_eq, ← map_prod_left_eq_zip, map_drop]
  have hfirst := evaluateFrom_first makeAddress r.defaultAction metadata context (r.rules.drop start) start
  rwa [← hzip] at hfirst

end Evaluation

end ClashNative.TrafficRouter
