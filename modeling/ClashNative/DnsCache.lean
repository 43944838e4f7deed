import ClashNative.DnsQueryLedger
import ClashNative.LinkedMap
/-!
# DnsCache — the answer cache of DnsQueryService

`cache_` and `cache_lru_` are a linked map (`CacheInv`); a step leaves them alone, drops an expired entry,
clears them, moves the entry it serves to the front, or stores a result.
-/
namespace ClashNative.Dns.QueryService

open LinkedMap Runs List

/-! ## Keys -/

theorem toNat_byte (n : UInt64) (k : UInt64) (hk : k.toNat < 64) :
    (n >>> k).toUInt8.toNat = n.toNat / 2 ^ k.toNat % 256 := by
  rw [UInt64.toNat_toUInt8, UInt64.toNat_shiftRight, Nat.mod_eq_of_lt hk, Nat.shiftRight_eq_div_pow]

variable {n : UInt64}

theorem le64_inj {m : UInt64} (h : le64 m = le64 n) : m = n := by
  simp only [le64, List.cons.injEq, and_true] at h
  obtain ⟨h0, h1, h2, h3, h4, h5, h6, h7⟩ := h
  have hm := m.toNat_lt
  have hn := n.toNat_lt
  have e0 := congrArg UInt8.toNat h0
  have e1 := congrArg UInt8.toNat h1
  have e2 := congrArg UInt8.toNat h2
  have e3 := congrArg UInt8.toNat h3
  have e4 := congrArg UInt8.toNat h4
  have e5 := congrArg UInt8.toNat h5
  have e6 := congrArg UInt8.toNat h6
  have e7 := congrArg UInt8.toNat h7
  rw [UInt64.toNat_toUInt8, UInt64.toNat_toUInt8] at e0
  rw [toNat_byte _ _ (by decide), toNat_byte _ _ (by decide)] at e1 e2 e3 e4 e5 e6 e7
  apply UInt64.toNat_inj.1
  simp only [UInt64.reduceToNat, Nat.reducePow] at *
  omega

theorem le64_snoc {n : Nat} (hn : n < 2 ^ 56) : ∃ front, le64 (UInt64.ofNat n) = front ++ [0] := by
  have hzero : (UInt64.ofNat n >>> 56).toUInt8 = 0 := by
    apply UInt8.toNat_inj.1
    rw [toNat_byte _ _ (by decide), UInt64.toNat_ofNat', Nat.mod_eq_of_lt (show n < 2 ^ 64 by omega)]
    simp only [UInt64.reduceToNat, UInt8.reduceToNat]
    omega
  refine ⟨(le64 (UInt64.ofNat n)).dropLast, ?_⟩
  rw [le64, hzero]
  rfl

variable {g g' : List UInt8}

theorem group_length_le {a a' : List UInt8} (hg : g.length < 2 ^ 56) (hg' : 0 ∉ g')
    (h : a ++ le64 (UInt64.ofNat g.length) ++ g = a' ++ g') : g'.length ≤ g.length := by
  by_contra hlt
  obtain ⟨front, hfront⟩ := le64_snoc hg
  have hsuf : (0 :: g) <:+ a' ++ g' := ⟨a ++ front, by rw [← h, hfront]; simp⟩
  have hsub : (0 :: g) <:+ g' :=
    suffix_of_suffix_length_le hsuf (suffix_append a' g') (by rw [length_cons]; omega)
  exact hg' (hsub.subset mem_cons_self)

theorem zeroId_drop (wire : List UInt8) : (zeroId wire).drop 2 = wire.drop 2 := by
  unfold zeroId
  split <;> rfl

/-- A group's name as the cache can take it: it has no NUL byte, and is not longer than memory. -/
def GroupName (g : List UInt8) : Prop := 0 ∉ g ∧ g.length < 2 ^ 56

theorem cacheKey_inj {q q' : DnsPacket} {n' : UInt64} (hg : GroupName g) (hg' : GroupName g')
    (h : cacheKey q g n = cacheKey q' g' n') : q.wire.drop 2 = q'.wire.drop 2 ∧ g = g' ∧ n = n' := by
  obtain ⟨hfront, hgen⟩ := append_inj' h rfl
  have hlen : g.length = g'.length :=
    Nat.le_antisymm (group_length_le hg'.2 hg.1 hfront.symm) (group_length_le hg.2 hg'.1 hfront)
  obtain ⟨hwire, hgroup⟩ := append_inj' hfront hlen
  obtain ⟨hwire, -⟩ := append_inj' hwire rfl
  refine ⟨?_, hgroup, le64_inj hgen⟩
  rw [← zeroId_drop q.wire, hwire, zeroId_drop]

theorem groupName_default : GroupName defaultGroupName := by
  constructor <;> decide

/-! ## What a step serves and stores -/

def asks (s : State) : Event → Option (RequestId × DnsPacket)
  | .query packet false => some (s.nextRequestId, packet)
  | .runTask index =>
    match s.tasks[index]? with
    | some (.query id packet) => if s.gate then some (id, packet) else none
    | _ => none
  | _ => none

/-- The group under which `query_on_owner` looks a query up. -/
def groupOf (config : DnsResolverConfig) (s : State) (packet : DnsPacket) : Option (List UInt8) :=
  if s.stopped then none
  else match packet.questions with
    | [question] =>
      if packet.response ∨ packet.wire.length < 12 then none
      else match selectGroup config (normalizeName question.name) with
        | .error _ => none
        | .ok upstream => some upstream
    | _ => none

def hit (s : State) (key : Key) : Option CacheEntry :=
  (s.cache.lookup key).filter (fun entry => s.now < entry.expires)

def stores (config : DnsResolverConfig) (s : State) : Event → Option (Operation × DnsPacket)
  | .runTask index =>
    match s.tasks[index]? with
    | some (.finish op (.ok packet)) =>
      match s.ops[op]? with
      | some operation =>
        if operation.completed = false ∧ (cacheTtl packet config.negativeCacheTtl).isSome ∧
        0 < config.cacheCapacity then
          some (operation, packet)
        else none
      | none => none
    | _ => none
  | _ => none

def touched (config : DnsResolverConfig) (s : State) (e : Event) : Option Key :=
  match asks s e with
  | some (_, packet) =>
    match groupOf config s packet with
    | some upstream =>
      (hit s (cacheKey packet upstream config.cacheGeneration)).map fun _ =>
        cacheKey packet upstream config.cacheGeneration
    | none => none
  | none => (stores config s e).map fun stored => stored.1.key

def recorded (config : DnsResolverConfig) (x : State × List Key) (e : Event) : State × List Key :=
  (step config x.1 e, (touched config x.1 e).toList ++ x.2)

/-- **The keys a run has served or stored**, the latest first. -/
def uses (config : DnsResolverConfig) (l : List Event) : List Key := (run (recorded config) ({}, []) l).2

/-- **A step answers the query it hands to `query_on_owner`**: it posts `p` for it. -/
def Serves (config : DnsResolverConfig) (s : State) (e : Event) (packet p : DnsPacket) : Prop :=
  ∃ id, asks s e = some (id, packet) ∧ .deliver id (.ok p) ∈ (step config s e).tasks

/-- An operation's key is that of its query, under a group the service knows. -/
def Keyed (config : DnsResolverConfig) (op : Operation) : Prop :=
  op.key = cacheKey op.packet op.upstream config.cacheGeneration ∧
    (op.upstream = defaultGroupName ∨ op.upstream ∈ config.groups)

/-! ## What leaves the cache alone -/

/-- **The cache and the clock stay as they are**, and operations keep their keys. -/
structure Quiet (config : DnsResolverConfig) (s s' : State) : Prop where
  now : s'.now = s.now
  cache : s'.cache = s.cache
  lru : s'.cacheLru = s.cacheLru
  node : s'.nextNode = s.nextNode
  keyed : (∀ op ∈ s.ops, Keyed config op) → ∀ op ∈ s'.ops, Keyed config op

namespace Quiet

variable {config : DnsResolverConfig} {s s' s'' : State}

theorem same (hnow : s'.now = s.now) (hcache : s'.cache = s.cache) (hlru : s'.cacheLru = s.cacheLru)
    (hnode : s'.nextNode = s.nextNode) (hops : s'.ops = s.ops) : Quiet config s s' :=
  ⟨hnow, hcache, hlru, hnode, fun h op hop => h op (hops ▸ hop)⟩

theorem refl (config : DnsResolverConfig) (s : State) : Quiet config s s := same rfl rfl rfl rfl rfl

theorem trans (h : Quiet config s s') (h' : Quiet config s' s'') : Quiet config s s'' :=
  ⟨h'.now.trans h.now, h'.cache.trans h.cache, h'.lru.trans h.lru, h'.node.trans h.node,
    fun hk => h'.keyed (h.keyed hk)⟩

theorem set {o : OpId} {op op' : Operation} (hop : s.ops[o]? = some op) (hkey : op'.key = op.key)
    (hpacket : op'.packet = op.packet) (hup : op'.upstream = op.upstream) :
    Quiet config s { s with ops := s.ops.set o op' } := by
  refine ⟨rfl, rfl, rfl, rfl, fun hk x hx => ?_⟩
  rcases mem_or_eq_of_mem_set hx with hx | rfl
  · exact hk x hx
  · obtain ⟨h1, h2⟩ := hk op (mem_of_getElem? hop)
    exact ⟨by rw [hkey, hpacket, hup, h1], by rw [hup]; exact h2⟩

end Quiet

variable (config : DnsResolverConfig)

theorem answerWaiters_quiet (result : Result) (waiters : List Waiter) (s : State) :
    Quiet config s (answerWaiters result s waiters) := by
  obtain ⟨posted, heq, -⟩ := answerWaiters_frame result waiters s
  rw [heq]
  exact Quiet.same rfl rfl rfl rfl rfl

variable {s : State} {op : Operation} {o : OpId}

theorem complete_quiet (hop : s.ops[o]? = some op) (result : Result) :
    ∃ s₁, Quiet config s s₁ ∧
      (∀ packet, result = .ok packet →
        Quiet config (store config s₁ op.key packet)
        (complete config s o { op with completed := true } result)) ∧
      ∀ e, result = .error e → Quiet config s₁ (complete config s o { op with completed := true } result) := by
  refine ⟨if s.inFlight.lookup op.key = some o then { s with inFlight := s.inFlight.erase op.key }
    else s, ?_, ?_⟩
  · split
    · exact Quiet.same rfl rfl rfl rfl rfl
    · exact Quiet.refl config s
  · have hops : (if s.inFlight.lookup op.key = some o then
      { s with inFlight := s.inFlight.erase op.key } else s).ops =
        s.ops := by split <;> rfl
    generalize hs₁ : (if s.inFlight.lookup op.key = some o then
      { s with inFlight := s.inFlight.erase op.key } else s) = s₁ at hops
    have hback : ∀ s₂ : State, s₂.ops = s.ops →
        Quiet config s₂ { s₂ with
          ops := s₂.ops.set o { op with completed := true, waiters := [] },
          requests := op.waiters.foldl (fun requests waiter => requests.erase waiter.id) s₂.requests } := by
      intro s₂ h₂
      have hop₂ : s₂.ops[o]? = some op := h₂ ▸ hop
      have hset : Quiet config s₂ { s₂ with ops := s₂.ops.set o { op with completed := true, waiters := [] } } :=
        Quiet.set hop₂ rfl rfl rfl
      exact hset.trans (Quiet.same rfl rfl rfl rfl rfl)
    unfold complete
    simp only [hs₁]
    refine ⟨fun packet hres => ?_, fun e hres => ?_⟩
    · subst hres
      have hstore : (store config s₁ op.key packet).ops = s.ops := by
        obtain ⟨cache, lru, n, heq⟩ := store_frame config s₁ op.key packet
        rw [heq, ← hops]
      exact (hback _ hstore).trans (answerWaiters_quiet config _ _ _)
    · subst hres
      exact (hback s₁ hops).trans (answerWaiters_quiet config _ _ _)

theorem finish_error_quiet (s : State) (o : OpId) (e : Error) :
    Quiet config s (finish config s o (.error e)) := by
  unfold finish
  cases hop : s.ops[o]? with
  | none => exact Quiet.refl config s
  | some op =>
    dsimp only
    split
    · exact Quiet.refl config s
    · obtain ⟨s₁, h₁, -, h⟩ := complete_quiet config hop (.error e)
      exact h₁.trans (h e rfl)

theorem cancelOnOwner_quiet (s : State) (id : RequestId) : Quiet config s (cancelOnOwner config s id) := by
  unfold cancelOnOwner
  cases s.requests.lookup id with
  | none => exact Quiet.refl config s
  | some o =>
    have hreq : Quiet config s { s with requests := s.requests.erase id } := Quiet.same rfl rfl rfl rfl rfl
    dsimp only
    cases hop : s.ops[o]? with
    | none => exact hreq
    | some op =>
      dsimp only
      split
      · exact hreq
      · have hset : Quiet config s (postCompletion { s with
            requests := s.requests.erase id,
            ops := s.ops.set o { op with waiters := op.waiters.eraseP (fun waiter => waiter.id == id) } } id
              (.error cancelledError)) := by
          have hops : Quiet config s { s with
              ops := s.ops.set o { op with waiters := op.waiters.eraseP (fun waiter => waiter.id == id) } } :=
            Quiet.set hop rfl rfl rfl
          exact hops.trans (Quiet.same rfl rfl rfl rfl rfl)
        split
        · exact hset.trans (finish_error_quiet config _ o _)
        · exact hset

theorem stopOnOwner_quiet (s : State) : Quiet config s (stopOnOwner config s) := by
  have hloop : ∀ (fuel : Nat) (s : State), Quiet config s (stopLoop config fuel s) := by
    intro fuel
    induction fuel with
    | zero => exact fun s => Quiet.refl config s
    | succ fuel ih =>
      intro s
      rw [stopLoop]
      split
      · exact Quiet.refl config s
      · exact (finish_error_quiet config s _ _).trans (ih _)
  exact (hloop _ s).trans (Quiet.same rfl rfl rfl rfl rfl)

/-! ## Queries -/

def Silent (s s' : State) : Prop := ∀ id p, .deliver id (.ok p) ∈ s'.tasks → .deliver id (.ok p) ∈ s.tasks

variable {key : Key} {upstream : List UInt8} {packet : DnsPacket}

theorem joinOrStart_quiet (s : State) (id : RequestId)
    (hkey : key = cacheKey packet upstream config.cacheGeneration)
    (hup : upstream = defaultGroupName ∨ upstream ∈ config.groups) :
    Quiet config s (joinOrStart s id packet upstream key) ∧ (joinOrStart s id packet
      upstream key).tasks = s.tasks := by
  unfold joinOrStart
  cases s.inFlight.lookup key with
  | some o =>
    dsimp only
    cases hop : s.ops[o]? with
    | none => exact ⟨Quiet.refl config s, rfl⟩
    | some op =>
      have hset : Quiet config s
          { s with ops := s.ops.set o { op with waiters := op.waiters ++ [⟨id, packet.id⟩] } } :=
        Quiet.set hop rfl rfl rfl
      exact ⟨hset.trans (Quiet.same rfl rfl rfl rfl rfl), rfl⟩
  | none =>
    refine ⟨⟨rfl, rfl, rfl, rfl, fun hk op hop => ?_⟩, rfl⟩
    rcases mem_append.1 hop with hop | hop
    · exact hk op hop
    · rw [mem_singleton.1 hop]
      exact ⟨hkey, hup⟩

theorem selectGroup_known {name : List UInt8} (h : selectGroup config name = .ok upstream) :
    upstream = defaultGroupName ∨ upstream ∈ config.groups := by
  unfold selectGroup at h
  split at h
  · cases h
    exact .inl rfl
  · dsimp only at h
    split at h
    · rename_i hmem
      cases h
      exact .inr (by simpa using hmem)
    · split at h
      · cases h
        exact .inl rfl
      · cases h

theorem groupOf_known
    (h : groupOf config s packet = some upstream) : upstream = defaultGroupName ∨ upstream ∈ config.groups := by
  unfold groupOf at h
  split at h
  · cases h
  · split at h
    · split at h
      · cases h
      · split at h
        · cases h
        · rename_i up hsel
          cases h
          exact selectGroup_known config hsel
    · cases h

/-- **What a lookup does to the cache**: nothing; the entry it finds is served and moves to the front; or
the entry it finds has expired and goes. -/
theorem lookupOrStart_cases (s : State) (id : RequestId)
    (hkey : key = cacheKey packet upstream config.cacheGeneration)
    (hup : upstream = defaultGroupName ∨ upstream ∈ config.groups) :
    (s.cache.lookup key = none ∧ Quiet config s (lookupOrStart s id packet upstream key) ∧
      Silent s (lookupOrStart s id packet upstream key)) ∨
    ∃ entry, s.cache.lookup key = some entry ∧
      (s.now < entry.expires ∧ lookupOrStart s id packet upstream key = postPacket { s with
        cacheLru := s.cacheLru.filter (fun n => n.1 == entry.lruPosition) ++
          s.cacheLru.filter (fun n => n.1 != entry.lruPosition) } id entry.packet packet.id ∨
      entry.expires ≤ s.now ∧ Quiet config (dropEntry s key entry) (lookupOrStart s id packet upstream key) ∧
        Silent s (lookupOrStart s id packet upstream key)) := by
  unfold lookupOrStart
  cases hlookup : s.cache.lookup key with
  | none =>
    have hquiet := joinOrStart_quiet config s id hkey hup
    exact .inl ⟨rfl, hquiet.1, fun i p hm => hquiet.2 ▸ hm⟩
  | some entry =>
    refine .inr ⟨entry, rfl, ?_⟩
    dsimp only
    by_cases hexp : entry.expires > s.now
    · refine .inl ⟨hexp, ?_⟩
      rw [if_pos hexp]
    · refine .inr ⟨Nat.le_of_not_lt hexp, ?_⟩
      rw [if_neg hexp]
      have hquiet := joinOrStart_quiet config (dropEntry s key entry) id hkey hup
      exact ⟨hquiet.1, fun i p hm => hquiet.2 ▸ hm⟩

theorem queryOnOwner_none (h : groupOf config s packet = none) (id : RequestId) :
    ∃ e, queryOnOwner config s id packet = postCompletion s id (.error e) := by
  unfold groupOf at h
  unfold queryOnOwner
  by_cases hstop : s.stopped = true
  · rw [if_pos hstop]
    exact ⟨_, rfl⟩
  · rw [if_neg hstop] at h ⊢
    cases hq : packet.questions with
    | nil => exact ⟨_, rfl⟩
    | cons question rest =>
      cases rest with
      | cons _ _ => exact ⟨_, rfl⟩
      | nil =>
        rw [hq] at h
        dsimp only at h ⊢
        by_cases hbad : packet.response = true ∨ packet.wire.length < 12
        · rw [if_pos hbad]
          exact ⟨_, rfl⟩
        · rw [if_neg hbad] at h ⊢
          cases hsel : selectGroup config (normalizeName question.name) with
          | error group => exact ⟨_, rfl⟩
          | ok upstream =>
            rw [hsel] at h
            cases h

theorem queryOnOwner_some
    (h : groupOf config s packet = some upstream) (id : RequestId) :
    ∃ packet', packet'.id = packet.id ∧ packet'.wire = packet.wire ∧ queryOnOwner config s id packet =
      lookupOrStart s id packet' upstream (cacheKey packet upstream config.cacheGeneration) := by
  unfold groupOf at h
  unfold queryOnOwner
  by_cases hstop : s.stopped = true
  · rw [if_pos hstop] at h
    cases h
  · rw [if_neg hstop] at h ⊢
    cases hq : packet.questions with
    | nil =>
      rw [hq] at h
      cases h
    | cons question rest =>
      rw [hq] at h
      cases rest with
      | cons _ _ => cases h
      | nil =>
        dsimp only at h ⊢
        by_cases hbad : packet.response = true ∨ packet.wire.length < 12
        · rw [if_pos hbad] at h
          cases h
        · rw [if_neg hbad] at h ⊢
          cases hsel : selectGroup config (normalizeName question.name) with
          | error group =>
            rw [hsel] at h
            cases h
          | ok up =>
            rw [hsel] at h
            cases h
            exact ⟨{ packet with questions := [{ question with name := normalizeName question.name }] },
              rfl, rfl, rfl⟩

/-! ## The invariant -/

/-- **The cache invariant**, after the keys `us` were served or stored. -/
structure CacheInv (us : List Key) (s : State) : Prop where
  linked : Linked CacheEntry.lruPosition s.cache s.cacheLru
  size : s.cache.keys.length ≤ config.cacheCapacity
  nodes : ∀ x ∈ s.cacheLru, x.1 < s.nextNode
  order : Ordered us (s.cacheLru.map Prod.snd)
  keyed : ∀ op ∈ s.ops, Keyed config op

theorem cacheInv_init : CacheInv config [] {} where
  linked := Linked.empty
  size := Nat.zero_le _
  nodes x hx := by cases hx
  order := Ordered.nil []
  keyed op hop := by cases hop

variable {config} {us : List Key} {s s' : State} {capacity : Nat}

theorem evict_room (h : s.cache.keys.length < capacity) (fuel : Nat) : evict capacity fuel s = s := by
  cases fuel with
  | zero => rfl
  | succ fuel => rw [evict, if_neg (Nat.not_le.2 h)]

theorem evict_full (hlink : Linked CacheEntry.lruPosition s.cache s.cacheLru) (hcap : 0 < capacity)
    (hfull : s.cache.keys.length = capacity) : ∃ front x, s.cacheLru = front ++ [x] ∧
      evict capacity s.cacheLru.length s = { s with cache := s.cache.erase x.2, cacheLru := front } := by
  have hlen := hlink.length_eq
  rcases eq_nil_or_concat s.cacheLru with hnil | ⟨front, x, hlru⟩
  · rw [hnil, length_nil] at hlen
    omega
  · rw [concat_eq_append] at hlru
    refine ⟨front, x, hlru, ?_⟩
    rw [hlru] at hlink
    have hpop := hlink.popLast.length_eq
    rw [hlru, length_append, length_singleton] at hlen
    rw [hlru, length_append, length_singleton, evict, if_pos (Nat.le_of_eq hfull.symm), hlru,
      getLast?_concat, dropLast_concat]
    exact evict_room (by dsimp only; omega) _

namespace CacheInv

theorem quiet (h : CacheInv config us s) (hq : Quiet config s s') : CacheInv config us s' where
  linked := by rw [hq.cache, hq.lru]; exact h.linked
  size := by rw [hq.cache]; exact h.size
  nodes := by rw [hq.lru, hq.node]; exact h.nodes
  order := by rw [hq.lru]; exact h.order
  keyed := hq.keyed h.keyed

theorem clear (h : CacheInv config us s) : CacheInv config us (clearCache s) where
  linked := Linked.empty
  size := Nat.zero_le _
  nodes x hx := by cases hx
  order := Ordered.nil us
  keyed := h.keyed

variable {entry : CacheEntry}

theorem drop (h : CacheInv config us s) (he : s.cache.lookup key = some entry) :
    CacheInv config us (dropEntry s key entry) := by
  have hsub : List.Sublist (s.cacheLru.filter (fun n => n.1 != entry.lruPosition)) s.cacheLru := filter_sublist
  have hlink := h.linked.drop he
  refine ⟨hlink, ?_, fun x hx => h.nodes x (hsub.subset hx), h.order.sublist (hsub.map _), h.keyed⟩
  have hlen : (s.cache.erase key).keys.length = _ := hlink.length_eq
  have hold := h.linked.length_eq
  have hsize := h.size
  have hle := hsub.length_le
  change (s.cache.erase key).keys.length ≤ _
  omega

theorem splice (h : CacheInv config us s) (he : s.cache.lookup key = some entry) :
    CacheInv config (key :: us) { s with
      cacheLru := s.cacheLru.filter (fun n => n.1 == entry.lruPosition) ++
        s.cacheLru.filter (fun n => n.1 != entry.lruPosition) } := by
  have hsub : List.Sublist (s.cacheLru.filter (fun n => n.1 != entry.lruPosition)) s.cacheLru := filter_sublist
  refine ⟨h.linked.splice _, h.size, fun x hx => ?_, ?_, h.keyed⟩
  · rcases mem_append.1 hx with hx | hx
    · exact h.nodes x (mem_of_mem_filter hx)
    · exact h.nodes x (mem_of_mem_filter hx)
  · have hself := h.linked.filter_self he
    have hnot := h.linked.filter_node he
    rw [hself, singleton_append, map_cons]
    exact (h.order.sublist (hsub.map _)).use hnot

variable {ttl : Nat}

theorem store_cases (h : CacheInv config us s)
    (httl : cacheTtl packet config.negativeCacheTtl = some ttl) (hcap : 0 < config.cacheCapacity) (key : Key) :
    ∃ cache lru, store config s key packet = { s with
        cache := cache.insert key ⟨packet, s.now + ttl * second, s.nextNode⟩,
        cacheLru := (s.nextNode, key) :: lru,
        nextNode := s.nextNode + 1 } ∧
      Linked CacheEntry.lruPosition cache lru ∧ cache.lookup key = none ∧ List.Sublist lru s.cacheLru ∧
      cache.keys.length < config.cacheCapacity ∧
      (∀ k entry, cache.lookup k = some entry → s.cache.lookup k = some entry) ∧
      ∀ k ∈ s.cache.keys, k ∉ cache.keys → k = key ∨ ∃ front n, s.cacheLru = front ++ [(n, k)] := by
  have hsize := h.size
  unfold store
  rw [httl]
  dsimp only
  rw [if_pos hcap]
  cases hkey : s.cache.lookup key with
  | some entry =>
    have hdrop := h.drop hkey
    have hlen : (s.cache.erase key).keys.length < config.cacheCapacity := by
      have hlen := Tally.length_entries_erase hkey
      simp only [AList.keys, List.keys, length_map] at hlen hsize ⊢
      omega
    have hroom : evict config.cacheCapacity (dropEntry s key entry).cacheLru.length (dropEntry s key entry) =
        dropEntry s key entry := evict_room hlen _
    refine ⟨s.cache.erase key, s.cacheLru.filter (fun n => n.1 != entry.lruPosition), ?_, hdrop.linked,
      AList.lookup_erase _ _, filter_sublist, hlen, fun k e he => ?_, fun k hk hgone => ?_⟩
    · rw [hroom]
      rfl
    · by_cases hne : k = key
      · rw [hne, AList.lookup_erase] at he
        cases he
      · rwa [AList.lookup_erase_ne hne] at he
    · by_contra hnot
      rw [not_or] at hnot
      exact hgone ((AList.mem_keys).1 (AList.mem_erase.2 ⟨hnot.1, AList.mem_keys.2 hk⟩))
  | none =>
    by_cases hroom : s.cache.keys.length < config.cacheCapacity
    · refine ⟨s.cache, s.cacheLru, ?_, h.linked, hkey, List.Sublist.refl _, hroom, fun k e he => he,
        fun k hk hgone => absurd hk hgone⟩
      rw [evict_room hroom]
    · obtain ⟨front, x, hlru, heq⟩ := evict_full h.linked hcap (by omega)
      have hlink := h.linked
      rw [hlru] at hlink
      have hlen := hlink.length_eq
      have hpop := hlink.popLast.length_eq
      rw [length_append, length_singleton] at hlen
      refine ⟨s.cache.erase x.2, front, by rw [heq], hlink.popLast, ?_, hlru ▸ sublist_append_left _ _,
        by omega, fun k e he => ?_, fun k hk hgone => .inr ⟨front, x.1, ?_⟩⟩
      · by_cases hne : key = x.2
        · rw [hne, AList.lookup_erase]
        · rw [AList.lookup_erase_ne hne, hkey]
      · by_cases hne : k = x.2
        · rw [hne, AList.lookup_erase] at he
          cases he
        · rwa [AList.lookup_erase_ne hne] at he
      · have heq : k = x.2 := by
          by_contra hne
          exact hgone (AList.mem_keys.1 (AList.mem_erase.2 ⟨hne, AList.mem_keys.2 hk⟩))
        rw [hlru, heq]

theorem store (h : CacheInv config us s)
    (httl : cacheTtl packet config.negativeCacheTtl = some ttl) (hcap : 0 < config.cacheCapacity) (key : Key) :
    CacheInv config (key :: us) (QueryService.store config s key packet) := by
  obtain ⟨cache, lru, heq, hlink, hnone, hsub, hlen, -, -⟩ := h.store_cases httl hcap key
  have hnode : s.nextNode ∉ lru.map Prod.fst := by
    intro hmem
    obtain ⟨x, hx, hn⟩ := mem_map.1 hmem
    exact absurd (h.nodes x (hsub.subset hx)) (hn ▸ Nat.lt_irrefl _)
  have hpush := hlink.push (e := ⟨packet, s.now + ttl * second, s.nextNode⟩) hnone hnode
  rw [heq]
  refine ⟨hpush, ?_, fun x hx => ?_, ?_, h.keyed⟩
  · have h1 := hpush.length_eq
    have h2 := hlink.length_eq
    rw [length_cons] at h1
    dsimp only
    omega
  · rcases mem_cons.1 hx with rfl | hx
    · exact Nat.lt_succ_self _
    · exact Nat.lt_succ_of_lt (h.nodes x (hsub.subset hx))
  · refine (h.order.sublist (hsub.map _)).use ?_
    rw [← hlink.mem_keys, ← AList.mem_keys, ← AList.lookup_isSome, hnone]
    exact Bool.false_ne_true

end CacheInv

/-! ## Steps -/

variable {id : RequestId} {e : Event}

theorem step_asks (config : DnsResolverConfig) (ha : asks s e = some (id, packet)) :
    ∃ s₁, step config s e = queryOnOwner config s₁ id packet ∧ Quiet config s s₁ ∧
      (∀ packet, groupOf config s₁ packet = groupOf config s packet) ∧ stores config s e = none ∧
      ∀ {hand}, Inv hand s → Inv ((id, packet.id) :: hand) s₁ := by
  cases e with
  | query p running =>
    cases running with
    | true => cases ha
    | false =>
      cases ha
      exact ⟨_, rfl, Quiet.same rfl rfl rfl rfl rfl, fun _ => rfl, rfl, fun h => h.submit packet⟩
  | runTask i =>
    unfold asks at ha
    dsimp only at ha
    split at ha
    · rename_i htask
      split at ha
      · rename_i hgate
        cases ha
        refine ⟨{ s with tasks := s.tasks.eraseIdx i }, ?_, Quiet.same rfl rfl rfl rfl rfl, fun _ => rfl, ?_,
          fun h => h.popQuery htask⟩
        · unfold step
          dsimp only
          rw [htask]
          exact if_pos hgate
        · unfold stores
          dsimp only
          rw [htask]
      · cases ha
    · cases ha
  | _ => cases ha

theorem step_stores (hs : stores config s e = some (op, packet)) :
    ∃ s₁ ttl, Quiet config s s₁ ∧ cacheTtl packet config.negativeCacheTtl = some ttl ∧
      0 < config.cacheCapacity ∧ op ∈ s.ops ∧ asks s e = none ∧
      Quiet config (store config s₁ op.key packet) (step config s e) := by
  cases e with
  | runTask i =>
    unfold stores at hs
    dsimp only at hs
    split at hs
    · rename_i o result htask
      split at hs
      · rename_i operation hop
        split at hs
        · rename_i hcond
          cases hs
          obtain ⟨hlive, httl, hcap⟩ := hcond
          obtain ⟨ttl, httl⟩ := Option.isSome_iff_exists.1 httl
          have hpop : Quiet config s { s with tasks := s.tasks.eraseIdx i } := Quiet.same rfl rfl rfl rfl rfl
          obtain ⟨s₁, h₁, h, -⟩ :=
            complete_quiet config (s := { s with tasks := s.tasks.eraseIdx i }) hop (.ok packet)
          refine ⟨s₁, ttl, hpop.trans h₁, httl, hcap, mem_of_getElem? hop, ?_, ?_⟩
          · unfold asks
            dsimp only
            rw [htask]
          · unfold step
            dsimp only
            rw [htask]
            unfold runTask finish
            dsimp only
            rw [hop]
            dsimp only
            rw [if_neg (by simp [hlive])]
            exact h packet rfl
        · cases hs
      · cases hs
    · cases hs
  | _ => cases hs

theorem finish_quiet {result : Result} (hnot : ∀ packet op, result = .ok packet → s.ops[o]? = some op →
    ¬ (op.completed = false ∧ (cacheTtl packet config.negativeCacheTtl).isSome ∧ 0 < config.cacheCapacity)) :
    Quiet config s (finish config s o result) := by
  cases result with
  | error e => exact finish_error_quiet config s o e
  | ok packet =>
    unfold finish
    cases hop : s.ops[o]? with
    | none => exact Quiet.refl config s
    | some op =>
      dsimp only
      cases hlive : op.completed with
      | true => exact Quiet.refl config s
      | false =>
        obtain ⟨s₁, h₁, h, -⟩ := complete_quiet config hop (.ok packet)
        have hstore : store config s₁ op.key packet = s₁ := by
          have hno := hnot packet op rfl hop
          unfold store
          cases httl : cacheTtl packet config.negativeCacheTtl with
          | none => rfl
          | some ttl =>
            dsimp only
            rw [if_neg]
            exact fun hcap => hno ⟨hlive, by rw [httl]; rfl, hcap⟩
        have hdone := h packet rfl
        rw [hstore] at hdone
        exact h₁.trans hdone

theorem step_quiet (ha : asks s e = none) (hs : stores config s e = none) :
    Quiet config s (step config s e) ∨ Quiet config (clearCache s) (step config s e) ∨
      ∃ elapsed, step config s e = { s with now := s.now + elapsed } := by
  cases e with
  | query packet running =>
    cases running with
    | true => exact .inl (Quiet.same rfl rfl rfl rfl rfl)
    | false => cases ha
  | cancel id running =>
    cases running with
    | true => exact .inl (Quiet.same rfl rfl rfl rfl rfl)
    | false => exact .inl (cancelOnOwner_quiet config s id)
  | stop =>
    refine .inl ?_
    unfold step
    dsimp only
    split <;> exact Quiet.same rfl rfl rfl rfl rfl
  | closeGate running =>
    refine .inl ?_
    unfold step
    dsimp only
    split
    · have hmark : Quiet config s { s with stopCall := .dispatched } := Quiet.same rfl rfl rfl rfl rfl
      split
      · exact hmark.trans (Quiet.same rfl rfl rfl rfl rfl)
      · exact hmark.trans (stopOnOwner_quiet config _)
    · exact Quiet.refl config s
  | clearCache running =>
    cases running with
    | true => exact .inl (Quiet.same rfl rfl rfl rfl rfl)
    | false => exact .inr (.inl (Quiet.refl config _))
  | exchangeDone o result =>
    refine .inl ?_
    unfold step
    dsimp only
    cases hop : s.ops[o]? with
    | none => exact Quiet.refl config s
    | some op =>
      dsimp only
      split
      · have hset : Quiet config s { s with ops := s.ops.set o { op with running := false } } :=
          Quiet.set hop rfl rfl rfl
        exact hset.trans (Quiet.same rfl rfl rfl rfl rfl)
      · exact Quiet.refl config s
  | runTask i =>
    unfold step
    dsimp only
    cases htask : s.tasks[i]? with
    | none => exact .inl (Quiet.refl config s)
    | some t =>
      have hpop : Quiet config s { s with tasks := s.tasks.eraseIdx i } := Quiet.same rfl rfl rfl rfl rfl
      unfold asks at ha
      unfold stores at hs
      dsimp only at ha hs
      rw [htask] at ha hs
      unfold runTask
      cases t with
      | query id packet =>
        dsimp only at ha ⊢
        refine .inl ?_
        split at ha
        · cases ha
        · rename_i hgate
          have hgate : ({ s with tasks := s.tasks.eraseIdx i } : State).gate ≠ true := hgate
          rw [if_neg hgate]
          exact hpop.trans (Quiet.same rfl rfl rfl rfl rfl)
      | cancel id =>
        dsimp only
        refine .inl ?_
        split
        · exact hpop.trans (cancelOnOwner_quiet config _ id)
        · exact hpop
      | finish o result =>
        refine .inl (hpop.trans (finish_quiet fun packet op hres hop hcond => ?_))
        subst hres
        dsimp only at hs hop
        rw [hop] at hs
        dsimp only at hs
        rw [if_pos hcond] at hs
        cases hs
      | deliver id result => exact .inl (hpop.trans (Quiet.same rfl rfl rfl rfl rfl))
      | stopOnOwner => exact .inl (hpop.trans (stopOnOwner_quiet config _))
      | clearCache =>
        dsimp only
        split
        · exact .inr (.inl (Quiet.same rfl rfl rfl rfl rfl))
        · exact .inl hpop
  | tick elapsed => exact .inr (.inr ⟨elapsed, rfl⟩)

theorem touched_asks
    (ha : asks s e = some (id, packet)) (hg : groupOf config s packet = some upstream) :
    touched config s e = (hit s (cacheKey packet upstream config.cacheGeneration)).map fun _ =>
      cacheKey packet upstream config.cacheGeneration := by
  unfold touched
  rw [ha]
  dsimp only
  rw [hg]

theorem step_lookup_cases (config : DnsResolverConfig) (ha : asks s e = some (id, packet)) :
    (Quiet config s (step config s e) ∧ touched config s e = none) ∨
    ∃ upstream entry, groupOf config s packet = some upstream ∧
      s.cache.lookup (cacheKey packet upstream config.cacheGeneration) = some entry ∧
      (s.now < entry.expires ∧ touched config s e = some (cacheKey packet upstream config.cacheGeneration) ∧
        Quiet config { s with
          cacheLru := s.cacheLru.filter (fun n => n.1 == entry.lruPosition) ++
            s.cacheLru.filter (fun n => n.1 != entry.lruPosition) } (step config s e) ∨
      touched config s e = none ∧
        Quiet config (dropEntry s (cacheKey packet upstream config.cacheGeneration) entry)
          (step config s e)) := by
  obtain ⟨s₁, heq, h₁, hgroup, -, -⟩ := step_asks config ha
  rw [heq]
  cases hg : groupOf config s packet with
  | none =>
    obtain ⟨err, hq⟩ := queryOnOwner_none config ((hgroup packet).trans hg) id
    refine .inl ⟨?_, ?_⟩
    · rw [hq]
      exact h₁.trans (Quiet.same rfl rfl rfl rfl rfl)
    · unfold touched
      rw [ha]
      dsimp only
      rw [hg]
  | some upstream =>
    obtain ⟨packet', hid, hwire, hq⟩ := queryOnOwner_some config ((hgroup packet).trans hg) id
    have hkey : cacheKey packet upstream config.cacheGeneration =
      cacheKey packet' upstream config.cacheGeneration := by
      unfold cacheKey
      rw [hwire]
    have hup := groupOf_known config hg
    have htouch := touched_asks ha hg
    rw [hq]
    rcases lookupOrStart_cases config s₁ id hkey hup with ⟨hnone, hquiet, -⟩ | ⟨entry, hentry, hcase⟩
    · rw [h₁.cache] at hnone
      refine .inl ⟨h₁.trans hquiet, ?_⟩
      rw [htouch, hit, hnone]
      rfl
    · rw [h₁.cache] at hentry
      refine .inr ⟨upstream, entry, rfl, hentry, ?_⟩
      rcases hcase with ⟨hexp, hpost⟩ | ⟨hexp, hquiet, -⟩
      · refine .inl ⟨h₁.now ▸ hexp, ?_, ?_⟩
        · rw [htouch, hit, hentry, Option.filter, if_pos (by simpa [h₁.now] using hexp)]
          rfl
        · rw [hpost]
          exact { h₁ with lru := by simp only [postPacket, postCompletion, h₁.lru] }
      · refine .inr ⟨?_, ?_⟩
        · rw [htouch, hit, hentry, Option.filter, if_neg (by simpa [h₁.now] using hexp)]
          rfl
        · have hdrop : Quiet config (dropEntry s (cacheKey packet upstream config.cacheGeneration) entry)
              (dropEntry s₁ (cacheKey packet upstream config.cacheGeneration) entry) :=
            { h₁ with cache := by simp only [dropEntry, h₁.cache], lru := by simp only [dropEntry, h₁.lru] }
          exact hdrop.trans hquiet

theorem step_cacheInv (h : CacheInv config us s) (e : Event) :
    CacheInv config ((touched config s e).toList ++ us) (step config s e) := by
  cases ha : asks s e with
  | some asked =>
    rcases step_lookup_cases config ha with ⟨hquiet, hu⟩ | ⟨upstream, entry, -, he, hcase⟩
    · rw [hu]
      exact h.quiet hquiet
    · rcases hcase with ⟨-, hu, hquiet⟩ | ⟨hu, hquiet⟩
      · rw [hu]
        exact (h.splice he).quiet hquiet
      · rw [hu]
        exact (h.drop he).quiet hquiet
  | none =>
    cases hs : stores config s e with
    | some stored =>
      obtain ⟨s₁, ttl, h₁, httl, hcap, -, -, hquiet⟩ := step_stores hs
      have hu : touched config s e = some stored.1.key := by
        unfold touched
        rw [ha, hs]
        rfl
      rw [hu]
      exact ((h.quiet h₁).store httl hcap stored.1.key).quiet hquiet
    | none =>
      have hu : touched config s e = none := by
        unfold touched
        rw [ha, hs]
        rfl
      rw [hu]
      rcases step_quiet ha hs with hquiet | hquiet | ⟨elapsed, heq⟩
      · exact h.quiet hquiet
      · exact h.clear.quiet hquiet
      · rw [heq]
        exact { h with }

variable {entry : CacheEntry}

theorem step_entry (h : CacheInv config us s)
    (he : (step config s e).cache.lookup key = some entry) :
    s.cache.lookup key = some entry ∨ ∃ op ttl, stores config s e = some (op, entry.packet) ∧
      op.key = key ∧ op ∈ s.ops ∧
      cacheTtl entry.packet config.negativeCacheTtl = some ttl ∧ entry.expires = s.now + ttl * second := by
  have hdropped : ∀ (k : Key) (x : CacheEntry), (dropEntry s k x).cache.lookup key = some entry →
      s.cache.lookup key = some entry := by
    intro k x hx
    by_cases hk : key = k
    · rw [hk] at hx
      simp [dropEntry] at hx
    · rwa [dropEntry, AList.lookup_erase_ne hk] at hx
  cases ha : asks s e with
  | some asked =>
    rcases step_lookup_cases config ha with ⟨hquiet, -⟩ | ⟨upstream, found, -, -, hcase⟩
    · exact .inl (hquiet.cache ▸ he)
    · rcases hcase with ⟨-, -, hquiet⟩ | ⟨-, hquiet⟩
      · exact .inl (by rwa [hquiet.cache] at he)
      · exact .inl (hdropped _ _ (hquiet.cache ▸ he))
  | none =>
    cases hs : stores config s e with
    | some stored =>
      obtain ⟨op, packet⟩ := stored
      obtain ⟨s₁, ttl, h₁, httl, hcap, hop, -, hquiet⟩ := step_stores hs
      obtain ⟨cache, lru, heq, -, -, -, -, hsub, -⟩ := (h.quiet h₁).store_cases httl hcap op.key
      rw [hquiet.cache, heq] at he
      by_cases hk : key = op.key
      · rw [hk, AList.lookup_insert, Option.some.injEq] at he
        subst he
        exact .inr ⟨op, ttl, rfl, hk.symm, hop, httl, by rw [h₁.now]⟩
      · rw [AList.lookup_insert_ne hk] at he
        exact .inl (h₁.cache ▸ hsub key entry he)
    | none =>
      rcases step_quiet ha hs with hquiet | hquiet | ⟨elapsed, heq⟩
      · exact .inl (hquiet.cache ▸ he)
      · rw [hquiet.cache] at he
        simp [clearCache] at he
      · exact .inl (by rwa [heq] at he)

theorem step_evicts (h : CacheInv config us s) {stored : Operation × DnsPacket}
    (hs : stores config s e = some stored) {k a : Key} (hk : k ∈ s.cache.keys)
    (hgone : k ∉ (step config s e).cache.keys)
    (ha : a ∈ s.cache.keys) (hne : a ≠ k) : MoreRecent us a k := by
  obtain ⟨s₁, ttl, h₁, httl, hcap, -, -, hquiet⟩ := step_stores hs
  obtain ⟨cache, lru, heq, -, -, -, -, -, hout⟩ := (h.quiet h₁).store_cases httl hcap stored.1.key
  rw [hquiet.cache, heq, ← AList.mem_keys, AList.mem_insert, not_or] at hgone
  rcases hout k (h₁.cache ▸ hk) (fun hmem => hgone.2 (AList.mem_keys.2 hmem)) with hkey | ⟨front, n, hlru⟩
  · exact absurd hkey hgone.1
  · have horder := h.order
    have hmem := h.linked.mem_keys.1 ha
    rw [h₁.lru] at hlru
    rw [hlru, map_append] at horder hmem
    refine Ordered.last horder ?_
    rcases mem_append.1 hmem with hmem | hmem
    · exact hmem
    · exact absurd (mem_singleton.1 hmem) hne

theorem not_answered {rid : UInt16} (h : Inv [(id, rid)] s) (r : Result) : .deliver id r ∉ s.tasks := by
  intro hmem
  have hle := h.held_le_one id
  have hpos : 0 < s.tasks.countP (Task.holds id) := countP_pos_iff.2 ⟨_, hmem, by simp [Task.holds]⟩
  have hone : ([(id, rid)].map (·.1)).count id = 1 := by simp
  unfold held at hle
  omega

theorem serves_entry (h : Inv [] s) {p : DnsPacket} (hserves : Serves config s e packet p) :
    ∃ upstream entry, groupOf config s packet = some upstream ∧
      s.cache.lookup (cacheKey packet upstream config.cacheGeneration) = some entry ∧
      s.now < entry.expires ∧ packetFor entry.packet packet.id = .ok p := by
  obtain ⟨id, ha, hmem⟩ := hserves
  obtain ⟨s₁, heq, h₁, hgroup, -, hinv⟩ := step_asks config ha
  have hnot := not_answered (hinv h) (.ok p)
  rw [heq] at hmem
  cases hg : groupOf config s packet with
  | none =>
    obtain ⟨err, hq⟩ := queryOnOwner_none config ((hgroup packet).trans hg) id
    rw [hq] at hmem
    exact absurd (by simpa [postCompletion] using hmem) hnot
  | some upstream =>
    obtain ⟨packet', hid, hwire, hq⟩ := queryOnOwner_some config ((hgroup packet).trans hg) id
    have hkey : cacheKey packet upstream config.cacheGeneration =
      cacheKey packet' upstream config.cacheGeneration := by
      unfold cacheKey
      rw [hwire]
    rw [hq] at hmem
    rcases lookupOrStart_cases config s₁ id hkey (groupOf_known config hg) with ⟨-,
      -, hsilent⟩ | ⟨entry, hentry, hcase⟩
    · exact absurd (hsilent id p hmem) hnot
    · rcases hcase with ⟨hexp, hpost⟩ | ⟨-, -, hsilent⟩
      · refine ⟨upstream, entry, rfl, h₁.cache ▸ hentry, h₁.now ▸ hexp, ?_⟩
        rw [hpost] at hmem
        rcases mem_append.1 hmem with hmem | hmem
        · exact absurd hmem hnot
        · have hdeliver := mem_singleton.1 hmem
          rw [Task.deliver.injEq] at hdeliver
          rw [← hid]
          exact hdeliver.2.symm
      · exact absurd (hsilent id p hmem) hnot

/-! ## Runs -/

/-- **An entry was stored at time `t₀` of a run**, as the result of `op`. -/
def StoredAt (config : DnsResolverConfig) (l : List Event) (key : Key) (entry : CacheEntry)
    (op : Operation) (t₀ : Nat) : Prop :=
  ∃ before e after, l = before ++ e :: after ∧
    stores config (run (step config) {} before) e = some (op, entry.packet) ∧ op.key = key ∧
    (step config (run (step config) {} before) e).cache.lookup key = some entry ∧
    (run (step config) {} before).now = t₀

theorem recorded_fst (config : DnsResolverConfig) : ∀ (l : List Event) (s : State) (us : List Key),
    (run (recorded config) (s, us) l).1 = run (step config) s l
  | [], _, _ => rfl
  | e :: l, s, _ => recorded_fst config l (step config s e) _

theorem run_cacheInv (config : DnsResolverConfig) (l : List Event) :
    CacheInv config (uses config l) (run (step config) {} l) := by
  have hstep : ∀ x e, CacheInv config x.2 x.1 →
    CacheInv config (recorded config x e).2 (recorded config x e).1 :=
    fun _ e h => step_cacheInv h e
  have hall := run_induction (P := fun x => CacheInv config x.2 x.1) hstep l ({}, []) (cacheInv_init config)
  rwa [recorded_fst] at hall

theorem run_inv (config : DnsResolverConfig) (l : List Event) : Inv [] (run (step config) {} l) :=
  run_induction (step_inv config) l {} inv_init

theorem run_entry (config : DnsResolverConfig) (l : List Event)
    (he : (run (step config) {} l).cache.lookup key = some entry) :
    ∃ op t₀ ttl, StoredAt config l key entry op t₀ ∧ Keyed config op ∧
      cacheTtl entry.packet config.negativeCacheTtl = some ttl ∧ entry.expires = t₀ + ttl * second := by
  induction l using List.reverseRecOn with
  | nil => cases he
  | append_singleton l e ih =>
    rw [run_append] at he
    rcases step_entry (run_cacheInv config l) he with hold | ⟨op, ttl, hs, hkey, hop, httl, hexp⟩
    · obtain ⟨op, t₀, ttl, ⟨before, e', after, rfl, hstored⟩, hrest⟩ := ih hold
      exact ⟨op, t₀, ttl, ⟨before, e', after ++ [e], by simp, hstored⟩, hrest⟩
    · exact ⟨op, _, ttl, ⟨l, e, [], rfl, hs, hkey, he, rfl⟩, (run_cacheInv config l).keyed op hop, httl, hexp⟩

/-- **The answer cache is sound** in every state of every run: the map and its list are in bijection and
within capacity; what a step serves has not expired and was stored for a query with the same wire message
apart from the identifier, the same group and the same generation; what a step evicts is the least
recently used. -/
theorem cache_sound (config : DnsResolverConfig) (hgroups : ∀ g ∈ config.groups, GroupName g) (l : List Event) :
    Linked CacheEntry.lruPosition (run (step config) {} l).cache (run (step config) {} l).cacheLru ∧
      (run (step config) {} l).cache.keys.length ≤ config.cacheCapacity ∧
      (∀ e packet p, Serves config (run (step config) {} l) e packet p →
        ∃ upstream entry op t₀, groupOf config (run (step config) {} l) packet = some upstream ∧
          (run (step config) {} l).cache.lookup (cacheKey packet upstream config.cacheGeneration) = some entry ∧
          packetFor entry.packet packet.id = .ok p ∧ (run (step config) {} l).now < entry.expires ∧
          StoredAt config l (cacheKey packet upstream config.cacheGeneration) entry op t₀ ∧
          op.packet.wire.drop 2 = packet.wire.drop 2 ∧ op.upstream = upstream ∧
          ∀ generation, op.key = cacheKey op.packet op.upstream generation →
          generation = config.cacheGeneration) ∧
      ∀ e stored k a, stores config (run (step config) {} l) e = some stored →
        k ∈ (run (step config) {} l).cache.keys → k ∉ (step config (run (step config) {} l) e).cache.keys →
        a ∈ (run (step config) {} l).cache.keys → a ≠ k → MoreRecent (uses config l) a k := by
  have hinv := run_cacheInv config l
  refine ⟨hinv.linked, hinv.size, fun e packet p hserves => ?_, fun e stored k a hs hk hgone ha hne =>
    step_evicts hinv hs hk hgone ha hne⟩
  obtain ⟨upstream, entry, hg, he, hexp, hp⟩ := serves_entry (run_inv config l) hserves
  obtain ⟨op, t₀, ttl, hstored, hkeyed, -, -⟩ := run_entry config l he
  have hname : ∀ g, g = defaultGroupName ∨ g ∈ config.groups → GroupName g := by
    rintro g (rfl | hg)
    · exact groupName_default
    · exact hgroups g hg
  have hkey : op.key = cacheKey packet upstream config.cacheGeneration := by
    obtain ⟨_, _, _, _, _, hkey, _, _⟩ := hstored
    exact hkey
  have hopname := hname op.upstream hkeyed.2
  obtain ⟨hwire, hup, -⟩ := cacheKey_inj hopname (hname upstream (groupOf_known config hg))
    (hkeyed.1.symm.trans hkey)
  exact ⟨upstream, entry, op, t₀, hg, he, hp, hexp, hstored, hwire, hup,
    fun generation hgen => (cacheKey_inj hopname hopname (hgen.symm.trans hkeyed.1)).2.2⟩

def exampleQuery (id : UInt16) : DnsPacket :=
  { wire := [(id >>> 8).toUInt8, (id &&& 0xff).toUInt8, 1, 0, 0, 1, 0, 0, 0, 0, 0, 0], id,
    questions := [⟨[97], 1, 1⟩] }

def exampleAnswer : DnsPacket :=
  { wire := [0, 1, 129, 128, 0, 1, 0, 1, 0, 0, 0, 0], id := 1, flags := 0x8180, questions := [⟨[97], 1, 1⟩],
    answers := [{ type := 1, ttlSeconds := 60 }] }

def exampleConfig : DnsResolverConfig :=
  { groups := [[108, 97, 110]], policyRouter := some { defaultUpstream := [108, 97, 110], rules := [] } }

def exampleRun : List Event :=
  [.query (exampleQuery 1) false, .exchangeDone 0 (.ok exampleAnswer), .runTask 0, .tick (30 * second)]

theorem cache_sound_served : (∀ g ∈ exampleConfig.groups, GroupName g) ∧
    Serves exampleConfig (run (step exampleConfig) {} exampleRun) (.query (exampleQuery 7) false)
    (exampleQuery 7)
      { exampleAnswer with wire := [0, 7, 129, 128, 0, 1, 0, 1, 0, 0, 0, 0], id := 7 } ∧
    ∃ upstream entry op t₀, StoredAt exampleConfig exampleRun
        (cacheKey (exampleQuery 7) upstream exampleConfig.cacheGeneration) entry op t₀ ∧
      op.packet.wire.drop 2 = (exampleQuery 7).wire.drop 2 ∧ op.upstream = upstream := by
  have hgroups : ∀ g ∈ exampleConfig.groups, GroupName g := by
    intro g hg
    rw [mem_singleton.1 hg]
    constructor <;> decide
  have hserves : Serves exampleConfig (run (step exampleConfig) {} exampleRun) (.query (exampleQuery 7) false)
      (exampleQuery 7) { exampleAnswer with wire := [0, 7, 129, 128, 0, 1, 0, 1, 0, 0, 0, 0], id := 7 } :=
    ⟨2, rfl, mem_append_right _ (mem_singleton.2 rfl)⟩
  obtain ⟨upstream, entry, op, t₀, -, -, -, -, hstored, hwire, hup, -⟩ :=
    (cache_sound exampleConfig hgroups exampleRun).2.2.1 _ _ _ hserves
  exact ⟨hgroups, hserves, upstream, entry, op, t₀, hstored, hwire, hup⟩

end ClashNative.Dns.QueryService
