import ClashNative.DnsQueryService
import ClashNative.Tally
/-!
# DnsQueryLedger — where every query is, and the two indices

Every submitted query is in one place: a posted task, a waiter of an operation, a posted delivery, a
delivered answer, or the hand of the code that runs (`Inv hand`).  The same invariant keeps the two
indices: `in_flight_` names exactly the live operations, by key, and `requests_` exactly their waiters.
-/
namespace ClashNative.Dns.QueryService

open List

/-! ## The ledger -/

def Task.holds (id : RequestId) : Task → Bool
  | .query i _ => i == id
  | .deliver i _ => i == id
  | _ => false

/-- How many waiters of an operation wait for `id`. -/
def Operation.waits (id : RequestId) (op : Operation) : Nat := (op.waiters.map (·.id)).count id

def held (s : State) (id : RequestId) : Nat :=
  s.tasks.countP (Task.holds id) + (s.ops.map (Operation.waits id)).sum + (s.delivered.map (·.1)).count id

/-- `id` was submitted with a packet of identifier `rid`. -/
def Own (s : State) (id : RequestId) (rid : UInt16) : Prop := ∃ p, (id, p) ∈ s.submitted ∧ p.id = rid

/-- **The packet carries the identifier**, in its field and in the first two bytes of its wire message. -/
def Carries (packet : DnsPacket) (rid : UInt16) : Prop :=
  packet.id = rid ∧ packet.wire.take 2 = [(rid >>> 8).toUInt8, (rid &&& 0xff).toUInt8]

/-- A result that query `id` may be given: an error, or a packet under the query's own identifier. -/
def Answers (s : State) (id : RequestId) (result : Result) : Prop :=
  ∀ packet, result = .ok packet → ∃ rid, Own s id rid ∧ Carries packet rid

/-- **The service invariant**, with the queries `hand` in the hand of the running code. -/
structure Inv (hand : List (RequestId × UInt16)) (s : State) : Prop where
  ledger : ∀ id, held s id + (hand.map (·.1)).count id = (s.submitted.map (·.1)).count id
  fresh : ∀ q ∈ s.submitted, q.1 < s.nextRequestId
  submitted_nodup : (s.submitted.map (·.1)).Nodup
  hand_own : ∀ h ∈ hand, Own s h.1 h.2
  waiter_own : ∀ op ∈ s.ops, ∀ w ∈ op.waiters, Own s w.id w.responseId
  task_query : ∀ id packet, .query id packet ∈ s.tasks → (id, packet) ∈ s.submitted
  task_deliver : ∀ id result, .deliver id result ∈ s.tasks → Answers s id result
  delivered_own : ∀ d ∈ s.delivered, Answers s d.1 d.2
  inFlight_iff : ∀ k o, s.inFlight.lookup k = some o ↔ ∃ op, s.ops[o]? = some op ∧
    op.completed = false ∧ op.key = k
  requests_iff : ∀ id o, s.requests.lookup id = some o ↔
    ∃ op, s.ops[o]? = some op ∧ op.completed = false ∧ id ∈ op.waiters.map (·.id)
  completed_empty : ∀ op ∈ s.ops, op.completed = true → op.waiters = []

theorem inv_init : Inv [] {} where
  ledger _ := rfl
  fresh _ h := by cases h
  submitted_nodup := nodup_nil
  hand_own _ h := by cases h
  waiter_own _ h := by cases h
  task_query _ _ h := by cases h
  task_deliver _ _ h := by cases h
  delivered_own _ h := by cases h
  inFlight_iff k o := by simp
  requests_iff id o := by simp
  completed_empty _ h := by cases h

theorem packetFor_carries (packet : DnsPacket) (rid : UInt16) :
    ∀ p, packetFor packet rid = .ok p → Carries p rid := by
  intro p hp
  unfold packetFor rewriteId at hp
  split at hp
  · cases hp
  · rename_i wire hwire
    simp only [Except.ok.injEq] at hp
    subst hp
    refine ⟨rfl, ?_⟩
    split at hwire
    · simp only [Except.ok.injEq] at hwire
      rw [← hwire]
      rfl
    · cases hwire

namespace Inv

variable {hand : List (RequestId × UInt16)} {s : State}

theorem held_le_one (h : Inv hand s) (id : RequestId) : held s id + (hand.map (·.1)).count id ≤ 1 := by
  rw [h.ledger id]
  exact nodup_iff_count_le_one.1 h.submitted_nodup id

variable {op : Operation}

theorem waiters_nodup (h : Inv hand s) (hop : op ∈ s.ops) : (op.waiters.map (·.id)).Nodup := by
  rw [nodup_iff_count_le_one]
  intro id
  have h1 := h.held_le_one id
  have h2 : Operation.waits id op ≤ _ := Tally.le_sum_map (Operation.waits id) hop
  unfold held at h1
  unfold Operation.waits at h2
  unfold Operation.waits at h1
  omega

variable {id : RequestId}

theorem not_waiting (h : Inv hand s) (hid : id ∈ hand.map (·.1)) (hop : op ∈ s.ops) :
    id ∉ op.waiters.map (·.id) := by
  have h1 := h.held_le_one id
  have h2 := Tally.le_sum_map (Operation.waits id) hop
  have h3 : 0 < (hand.map (·.1)).count id := count_pos_iff.2 hid
  intro hw
  have h4 : 0 < Operation.waits id op := count_pos_iff.2 hw
  unfold held at h1
  omega

theorem cache_irrelevant (h : Inv hand s) (cache : AList (fun _ : Key => CacheEntry))
    (lru : List (Nat × Key)) (n : Nat) :
    Inv hand { s with cache := cache, cacheLru := lru, nextNode := n } :=
  { h with }

/-! ## The moves -/

variable {rid : UInt16}

theorem post {a : Result} (h : Inv ((id, rid) :: hand) s)
    (hr : ∀ packet, a = .ok packet → Carries packet rid) : Inv hand (postCompletion s id a) where
  ledger i := by
    have hi := h.ledger i
    simp only [held, postCompletion, countP_append, countP_cons, countP_nil, Task.holds, map_cons,
      count_cons] at hi ⊢
    by_cases hid : (id == i) = true
    · simp only [hid, if_true] at hi ⊢
      omega
    · simp only [hid, Bool.false_eq_true, if_false] at hi ⊢
      omega
  fresh := h.fresh
  submitted_nodup := h.submitted_nodup
  hand_own x hx := h.hand_own x (mem_cons_of_mem _ hx)
  waiter_own := h.waiter_own
  task_query i packet hm := by
    simp only [postCompletion, mem_append, mem_singleton, reduceCtorEq, or_false] at hm
    exact h.task_query i packet hm
  task_deliver i r hm := by
    simp only [postCompletion, mem_append, mem_singleton, Task.deliver.injEq] at hm
    rcases hm with hm | ⟨rfl, rfl⟩
    · exact h.task_deliver i r hm
    · exact fun packet hp => ⟨rid, h.hand_own (i, rid) mem_cons_self, hr packet hp⟩
  delivered_own := h.delivered_own
  inFlight_iff := h.inFlight_iff
  requests_iff := h.requests_iff
  completed_empty := h.completed_empty

theorem answer (result : Result) : ∀ (waiters : List Waiter) {s : State},
    Inv (waiters.map (fun w => (w.id, w.responseId)) ++ hand) s → Inv hand (answerWaiters result s waiters)
  | [], _, h => h
  | w :: waiters, s, h => by
    refine answer result waiters ?_
    cases result with
    | error e => exact h.post (fun p hp => by cases hp)
    | ok packet => exact h.post (packetFor_carries packet w.responseId)

variable {o : OpId}

theorem take (h : Inv hand s) (hop : s.ops[o]? = some op) (hlive : op.completed = false) :
    Inv (op.waiters.map (fun w => (w.id, w.responseId)) ++ hand)
      { s with
        inFlight := s.inFlight.erase op.key,
        ops := s.ops.set o { op with completed := true, waiters := [] },
        requests := op.waiters.foldl (fun requests w => requests.erase w.id) s.requests } where
  ledger i := by
    have hi := h.ledger i
    have hset := Tally.sum_map_set (Operation.waits i) (b := { op with completed := true, waiters := [] }) hop
    have hcomp : ((fun x : RequestId × UInt16 => x.1) ∘ fun w : Waiter => (w.id, w.responseId)) = (·.id) := rfl
    simp only [held, map_append, map_map, count_append, hcomp] at hi ⊢
    simp only [Operation.waits, map_nil, count_nil] at hi hset ⊢
    omega
  fresh := h.fresh
  submitted_nodup := h.submitted_nodup
  hand_own x hx := by
    rcases mem_append.1 hx with hx | hx
    · obtain ⟨w, hw, rfl⟩ := mem_map.1 hx
      exact h.waiter_own op (mem_of_getElem? hop) w hw
    · exact h.hand_own x hx
  waiter_own op' hop' w hw := by
    rcases mem_or_eq_of_mem_set hop' with hop' | rfl
    · exact h.waiter_own op' hop' w hw
    · cases hw
  task_query := h.task_query
  task_deliver := h.task_deliver
  delivered_own := h.delivered_own
  inFlight_iff k o' := by
    have hkey : s.inFlight.lookup op.key = some o := (h.inFlight_iff _ _).2 ⟨op, hop, hlive, rfl⟩
    constructor
    · intro hk
      by_cases hne : k = op.key
      · subst hne
        simp at hk
      · rw [AList.lookup_erase_ne hne] at hk
        obtain ⟨op', hop', hlive', rfl⟩ := (h.inFlight_iff _ _).1 hk
        refine ⟨op', ?_, hlive', rfl⟩
        rw [getElem?_set_ne, hop']
        rintro rfl
        rw [hop] at hop'
        cases hop'
        exact hne rfl
    · rintro ⟨op', hop', hlive', rfl⟩
      rcases Tally.getElem?_set_cases hop' with ⟨rfl, rfl⟩ | ⟨hne, hop'⟩
      · cases hlive'
      · have hk : s.inFlight.lookup op'.key = some o' := (h.inFlight_iff _ _).2 ⟨op', hop', hlive', rfl⟩
        rw [AList.lookup_erase_ne, hk]
        intro heq
        rw [heq, hkey] at hk
        exact hne (Option.some.inj hk)
  requests_iff id o' := by
    rw [Tally.lookup_foldl_erase]
    constructor
    · intro hk
      split at hk
      · cases hk
      · rename_i hmem
        obtain ⟨op', hop', hlive', hw⟩ := (h.requests_iff _ _).1 hk
        refine ⟨op', ?_, hlive', hw⟩
        rw [getElem?_set_ne, hop']
        rintro rfl
        rw [hop] at hop'
        cases hop'
        exact hmem hw
    · rintro ⟨op', hop', hlive', hw⟩
      rcases Tally.getElem?_set_cases hop' with ⟨rfl, rfl⟩ | ⟨hne, hop'⟩
      · cases hlive'
      · have hk := (h.requests_iff id o').2 ⟨op', hop', hlive', hw⟩
        rw [if_neg, hk]
        intro hmem
        have hk' := (h.requests_iff id o).2 ⟨op, hop, hlive, hmem⟩
        rw [hk] at hk'
        exact hne (Option.some.inj hk').symm
  completed_empty op' hop' hc := by
    rcases mem_or_eq_of_mem_set hop' with hop' | rfl
    · exact h.completed_empty op' hop' hc
    · rfl

theorem map_id_eraseP (waiters : List Waiter) (id : RequestId) :
    (waiters.eraseP (fun w => w.id == id)).map (·.id) = (waiters.map (·.id)).erase id := by
  rw [erase_eq_eraseP', eraseP_map]
  rfl

theorem leave (h : Inv hand s) {w : Waiter} (hop : s.ops[o]? = some op)
    (hreq : s.requests.lookup id = some o) (hw : op.waiters.find? (fun w => w.id == id) = some w) :
    Inv ((id, w.responseId) :: hand)
      { s with
        requests := s.requests.erase id,
        ops := s.ops.set o { op with waiters := op.waiters.eraseP (fun w => w.id == id) } } := by
  have hmem := mem_of_find?_eq_some hw
  have hid : w.id = id := by simpa using find?_some hw
  have hin : id ∈ op.waiters.map (·.id) := mem_map.2 ⟨w, hmem, hid⟩
  have hnodup := h.waiters_nodup (mem_of_getElem? hop)
  have hlive : op.completed = false := by
    obtain ⟨op', hop', hlive, _⟩ := (h.requests_iff _ _).1 hreq
    rw [hop] at hop'
    cases hop'
    exact hlive
  refine ⟨?_, h.fresh, h.submitted_nodup, ?_, ?_, h.task_query, h.task_deliver, h.delivered_own, ?_, ?_, ?_⟩
  · intro i
    have hi := h.ledger i
    have hset := Tally.sum_map_set (Operation.waits i)
      (b := { op with waiters := op.waiters.eraseP (fun w => w.id == id) }) hop
    simp only [held, map_cons, count_cons] at hi ⊢
    simp only [Operation.waits, map_id_eraseP] at hi hset ⊢
    by_cases hii : id = i
    · subst hii
      have hpos : 0 < (op.waiters.map (·.id)).count id := count_pos_iff.2 hin
      rw [count_erase_self] at hset
      simp only [beq_self_eq_true, if_true]
      omega
    · rw [count_erase_of_ne (Ne.symm hii)] at hset
      simp only [beq_iff_eq, hii, if_false]
      omega
  · intro x hx
    rcases mem_cons.1 hx with rfl | hx
    · have := h.waiter_own op (mem_of_getElem? hop) w hmem
      rwa [hid] at this
    · exact h.hand_own x hx
  · intro op' hop' w' hw'
    rcases mem_or_eq_of_mem_set hop' with hop' | rfl
    · exact h.waiter_own op' hop' w' hw'
    · exact h.waiter_own op (mem_of_getElem? hop) w' (mem_of_mem_eraseP hw')
  · intro k o'
    rw [h.inFlight_iff]
    refine (Tally.exists_getElem?_set_iff hop (fun op => op.completed = false ∧ op.key = k) ?_ o').symm
    exact Iff.rfl
  · intro i o'
    constructor
    · intro hi
      have hne : i ≠ id := by
        rintro rfl
        simp at hi
      rw [AList.lookup_erase_ne hne] at hi
      obtain ⟨op', hop', hlive', hw'⟩ := (h.requests_iff _ _).1 hi
      by_cases hoo : o = o'
      · subst hoo
        rw [hop] at hop'
        cases hop'
        refine ⟨_, getElem?_set_self (List.getElem?_eq_some_iff.1 hop).1, hlive', ?_⟩
        rw [map_id_eraseP]
        exact (mem_erase_of_ne hne).2 hw'
      · exact ⟨op', by rw [getElem?_set_ne hoo, hop'], hlive', hw'⟩
    · rintro ⟨op', hop', hlive', hw'⟩
      rcases Tally.getElem?_set_cases hop' with ⟨rfl, rfl⟩ | ⟨hoo, hop'⟩
      · rw [map_id_eraseP] at hw'
        have hne : i ≠ id := by
          rintro rfl
          exact hnodup.not_mem_erase hw'
        rw [AList.lookup_erase_ne hne]
        exact (h.requests_iff _ _).2 ⟨op, hop, hlive', mem_of_mem_erase hw'⟩
      · have hreq' := (h.requests_iff i o').2 ⟨op', hop', hlive', hw'⟩
        have hne : i ≠ id := by
          rintro rfl
          rw [hreq] at hreq'
          exact hoo (Option.some.inj hreq')
        rw [AList.lookup_erase_ne hne, hreq']
  · intro op' hop' hc
    rcases mem_or_eq_of_mem_set hop' with hop' | rfl
    · exact h.completed_empty op' hop' hc
    · rw [hlive] at hc
      cases hc

variable {key : Key}

theorem join (h : Inv ((id, rid) :: hand) s)
    (hkey : s.inFlight.lookup key = some o) (hop : s.ops[o]? = some op) :
    Inv hand { s with
      ops := s.ops.set o { op with waiters := op.waiters ++ [⟨id, rid⟩] },
      requests := s.requests.insert id o } := by
  have hlive : op.completed = false := by
    obtain ⟨op', hop', hlive, _⟩ := (h.inFlight_iff _ _).1 hkey
    rw [hop] at hop'
    cases hop'
    exact hlive
  have hself : ∀ b : Operation, (s.ops.set o b)[o]? = some b :=
    fun b => getElem?_set_self (List.getElem?_eq_some_iff.1 hop).1
  have hnew : ∀ op' ∈ s.ops, id ∉ op'.waiters.map (·.id) :=
    fun op' hop' => h.not_waiting (mem_map.2 ⟨(id, rid), mem_cons_self, rfl⟩) hop'
  refine ⟨?_, h.fresh, h.submitted_nodup, fun x hx => h.hand_own x (mem_cons_of_mem _ hx), ?_, h.task_query,
    h.task_deliver, h.delivered_own, ?_, ?_, ?_⟩
  · intro i
    have hi := h.ledger i
    have hset := Tally.sum_map_set (Operation.waits i)
      (b := { op with waiters := op.waiters ++ [⟨id, rid⟩] }) hop
    simp only [held, map_cons, count_cons] at hi ⊢
    simp only [Operation.waits, map_append, map_cons, map_nil, count_append, count_cons,
      count_nil] at hi hset ⊢
    omega
  · intro op' hop' w hw
    rcases mem_or_eq_of_mem_set hop' with hop' | rfl
    · exact h.waiter_own op' hop' w hw
    · rcases mem_append.1 hw with hw | hw
      · exact h.waiter_own op (mem_of_getElem? hop) w hw
      · rw [mem_singleton.1 hw]
        exact h.hand_own (id, rid) mem_cons_self
  · intro k o'
    rw [h.inFlight_iff]
    refine (Tally.exists_getElem?_set_iff hop (fun op => op.completed = false ∧ op.key = k) ?_ o').symm
    exact Iff.rfl
  · intro i o'
    by_cases hii : i = id
    · subst hii
      rw [AList.lookup_insert]
      constructor
      · intro ho
        cases ho
        exact ⟨_, hself _, hlive, by simp⟩
      · rintro ⟨op', hop', hlive', hw'⟩
        rcases Tally.getElem?_set_cases hop' with ⟨rfl, rfl⟩ | ⟨_, hop'⟩
        · rfl
        · exact absurd hw' (hnew op' (mem_of_getElem? hop'))
    · rw [AList.lookup_insert_ne hii, h.requests_iff]
      constructor
      · rintro ⟨op', hop', hlive', hw'⟩
        by_cases hoo : o = o'
        · subst hoo
          rw [hop] at hop'
          cases hop'
          exact ⟨_, hself _, hlive', by rw [map_append]; exact mem_append_left _ hw'⟩
        · exact ⟨op', by rw [getElem?_set_ne hoo, hop'], hlive', hw'⟩
      · rintro ⟨op', hop', hlive', hw'⟩
        rcases Tally.getElem?_set_cases hop' with ⟨rfl, rfl⟩ | ⟨_, hop'⟩
        · refine ⟨op, hop, hlive', ?_⟩
          rw [map_append, mem_append] at hw'
          exact hw'.resolve_right (by simpa using hii)
        · exact ⟨op', hop', hlive', hw'⟩
  · intro op' hop' hc
    rcases mem_or_eq_of_mem_set hop' with hop' | rfl
    · exact h.completed_empty op' hop' hc
    · rw [hlive] at hc
      cases hc

theorem start (packet : DnsPacket) (upstream : List UInt8)
    (h : Inv ((id, rid) :: hand) s) (hkey : s.inFlight.lookup key = none) :
    Inv hand { s with
      ops := s.ops ++ [{ key, packet, upstream, waiters := [⟨id, rid⟩] }],
      inFlight := s.inFlight.insert key s.ops.length,
      requests := s.requests.insert id s.ops.length } := by
  have hnew : ∀ op' ∈ s.ops, id ∉ op'.waiters.map (·.id) :=
    fun op' hop' => h.not_waiting (mem_map.2 ⟨(id, rid), mem_cons_self, rfl⟩) hop'
  have hlast : (s.ops ++ [({ key, packet, upstream, waiters := [⟨id, rid⟩] } : Operation)])[s.ops.length]? =
      some { key, packet, upstream, waiters := [⟨id, rid⟩] } := by simp
  have hold : ∀ {o' : OpId} {op' b : Operation}, s.ops[o']? = some op' → (s.ops ++ [b])[o']? = some op' :=
    fun ho => by rw [getElem?_append_left (List.getElem?_eq_some_iff.1 ho).1, ho]
  refine ⟨?_, h.fresh, h.submitted_nodup, fun x hx => h.hand_own x (mem_cons_of_mem _ hx), ?_, h.task_query,
    h.task_deliver, h.delivered_own, ?_, ?_, ?_⟩
  · intro i
    have hi := h.ledger i
    simp only [held, map_cons, count_cons] at hi
    simp only [held, map_append, map_cons, map_nil, sum_append, sum_cons, sum_nil]
    simp only [Operation.waits, map_cons, map_nil, count_cons, count_nil] at hi ⊢
    omega
  · intro op' hop' w hw
    rcases mem_append.1 hop' with hop' | hop'
    · exact h.waiter_own op' hop' w hw
    · rw [mem_singleton.1 hop'] at hw
      rw [mem_singleton.1 hw]
      exact h.hand_own (id, rid) mem_cons_self
  · intro k o'
    by_cases hk : k = key
    · subst hk
      rw [AList.lookup_insert]
      constructor
      · intro ho
        cases ho
        exact ⟨_, hlast, rfl, rfl⟩
      · rintro ⟨op', hop', hlive', hk'⟩
        rcases Tally.getElem?_concat_cases hop' with hop' | ⟨rfl, rfl⟩
        · have := (h.inFlight_iff k o').2 ⟨op', hop', hlive', hk'⟩
          rw [hkey] at this
          cases this
        · rfl
    · rw [AList.lookup_insert_ne hk, h.inFlight_iff]
      constructor
      · rintro ⟨op', hop', hlive', hk'⟩
        exact ⟨op', hold hop', hlive', hk'⟩
      · rintro ⟨op', hop', hlive', hk'⟩
        rcases Tally.getElem?_concat_cases hop' with hop' | ⟨rfl, rfl⟩
        · exact ⟨op', hop', hlive', hk'⟩
        · exact absurd hk'.symm hk
  · intro i o'
    by_cases hii : i = id
    · subst hii
      rw [AList.lookup_insert]
      constructor
      · intro ho
        cases ho
        exact ⟨_, hlast, rfl, by simp⟩
      · rintro ⟨op', hop', hlive', hw'⟩
        rcases Tally.getElem?_concat_cases hop' with hop' | ⟨rfl, rfl⟩
        · exact absurd hw' (hnew op' (mem_of_getElem? hop'))
        · rfl
    · rw [AList.lookup_insert_ne hii, h.requests_iff]
      constructor
      · rintro ⟨op', hop', hlive', hw'⟩
        exact ⟨op', hold hop', hlive', hw'⟩
      · rintro ⟨op', hop', hlive', hw'⟩
        rcases Tally.getElem?_concat_cases hop' with hop' | ⟨rfl, rfl⟩
        · exact ⟨op', hop', hlive', hw'⟩
        · exact absurd (by simpa using hw') hii
  · intro op' hop' hc
    rcases mem_append.1 hop' with hop' | hop'
    · exact h.completed_empty op' hop' hc
    · rw [mem_singleton.1 hop'] at hc
      cases hc

end Inv

/-! ## What each function keeps -/

theorem evict_frame (capacity : Nat) : ∀ (fuel : Nat) (s : State), ∃ cache lru,
    evict capacity fuel s = { s with cache := cache, cacheLru := lru }
  | 0, s => ⟨s.cache, s.cacheLru, rfl⟩
  | fuel + 1, s => by
    rw [evict]
    split
    · split
      · exact ⟨s.cache, s.cacheLru, rfl⟩
      · rename_i node _
        obtain ⟨cache, lru, heq⟩ := evict_frame capacity fuel
          { s with cache := s.cache.erase node.2, cacheLru := s.cacheLru.dropLast }
        exact ⟨cache, lru, heq⟩
    · exact ⟨s.cache, s.cacheLru, rfl⟩

theorem store_frame (config : DnsResolverConfig) (s : State) (key : Key) (packet : DnsPacket) : ∃ cache lru n,
    store config s key packet = { s with cache := cache, cacheLru := lru, nextNode := n } := by
  unfold store
  split
  · exact ⟨s.cache, s.cacheLru, s.nextNode, rfl⟩
  · rename_i ttl _
    split
    · cases hkey : s.cache.lookup key with
      | none =>
        obtain ⟨cache, lru, heq⟩ := evict_frame config.cacheCapacity s.cacheLru.length s
        dsimp only
        rw [heq]
        exact ⟨_, _, _, rfl⟩
      | some entry =>
        obtain ⟨cache, lru, heq⟩ := evict_frame config.cacheCapacity (dropEntry s key entry).cacheLru.length
          (dropEntry s key entry)
        dsimp only
        rw [heq]
        exact ⟨_, _, _, rfl⟩
    · exact ⟨s.cache, s.cacheLru, s.nextNode, rfl⟩

variable {op : Operation} {o : OpId}

theorem complete_eq (config : DnsResolverConfig) {hand : List (RequestId × UInt16)} {s : State} (h : Inv hand s)
    (hop : s.ops[o]? = some op) (hlive : op.completed = false) (result : Result) :
    ∃ cache lru n, complete config s o { op with completed := true } result =
      answerWaiters result { s with
        cache := cache, cacheLru := lru, nextNode := n,
        inFlight := s.inFlight.erase op.key,
        ops := s.ops.set o { op with completed := true, waiters := [] },
        requests := op.waiters.foldl (fun requests w => requests.erase w.id) s.requests } op.waiters := by
  have hkey : s.inFlight.lookup op.key = some o := (h.inFlight_iff _ _).2 ⟨op, hop, hlive, rfl⟩
  unfold complete
  simp only [hkey, if_true]
  cases result with
  | error e => exact ⟨s.cache, s.cacheLru, s.nextNode, rfl⟩
  | ok packet =>
    obtain ⟨cache, lru, n, heq⟩ := store_frame config { s with inFlight := s.inFlight.erase op.key }
      op.key packet
    dsimp only
    rw [heq]
    exact ⟨cache, lru, n, rfl⟩

variable (config : DnsResolverConfig) {hand : List (RequestId × UInt16)} {s : State}

theorem finish_inv (h : Inv hand s) (o : OpId) (result : Result) : Inv hand (finish config s o result) := by
  unfold finish
  cases hop : s.ops[o]? with
  | none => exact h
  | some op =>
    dsimp only
    cases hlive : op.completed with
    | true => exact h
    | false =>
      obtain ⟨cache, lru, n, heq⟩ := complete_eq config h hop hlive result
      rw [heq]
      exact ((h.take hop hlive).cache_irrelevant cache lru n).answer result op.waiters

theorem cancelOnOwner_inv (h : Inv hand s) (id : RequestId) : Inv hand (cancelOnOwner config s id) := by
  unfold cancelOnOwner
  cases hreq : s.requests.lookup id with
  | none => exact h
  | some o =>
    obtain ⟨op, hop, hlive, hmem⟩ := (h.requests_iff _ _).1 hreq
    obtain ⟨w', hw', hid⟩ := mem_map.1 hmem
    dsimp only
    rw [hop]
    dsimp only
    cases hw : op.waiters.find? (fun w => w.id == id) with
    | none =>
      have := find?_eq_none.1 hw w' hw'
      simp [hid] at this
    | some w =>
      have hpost := (h.leave hop hreq hw).post (a := .error cancelledError) (fun p hp => by cases hp)
      dsimp only
      split
      · exact finish_inv config hpost o _
      · exact hpost

theorem stopLoop_inv : ∀ (fuel : Nat) {s : State}, Inv hand s → Inv hand (stopLoop config fuel s)
  | 0, _, h => h
  | fuel + 1, s, h => by
    rw [stopLoop]
    split
    · exact h
    · exact stopLoop_inv fuel (finish_inv config h _ _)

theorem answerWaiters_frame (result : Result) : ∀ (waiters : List Waiter) (s : State), ∃ posted,
    answerWaiters result s waiters = { s with tasks := s.tasks ++ posted } ∧
      ∀ t ∈ posted, ∃ id r, t = .deliver id r
  | [], s => ⟨[], by simp [answerWaiters], fun t ht => by cases ht⟩
  | w :: waiters, s => by
    rw [answerWaiters, foldl_cons]
    have hone : ∃ r, answerWaiter result s w = postCompletion s w.id r := by
      cases result with
      | error e => exact ⟨_, rfl⟩
      | ok packet => exact ⟨_, rfl⟩
    obtain ⟨r, hr⟩ := hone
    rw [hr]
    obtain ⟨posted, heq, hposted⟩ := answerWaiters_frame result waiters (postCompletion s w.id r)
    refine ⟨.deliver w.id r :: posted, ?_, ?_⟩
    · rw [answerWaiters] at heq
      rw [heq]
      simp [postCompletion]
    · intro t ht
      rcases mem_cons.1 ht with rfl | ht
      · exact ⟨w.id, r, rfl⟩
      · exact hposted t ht

/-- **What finishing an operation does**: nothing, when it is done with already; else it becomes
completed, without waiters, leaves both indices, and deliveries are posted. -/
theorem finish_cases (h : Inv hand s) (o : OpId) (result : Result) :
    finish config s o result = s ∧ (∀ op, s.ops[o]? = some op → op.completed = true) ∨
    ∃ op cache lru n posted, s.ops[o]? = some op ∧ op.completed = false ∧
      (∀ t ∈ posted, ∃ id r, t = .deliver id r) ∧
      finish config s o result = { s with
        cache := cache, cacheLru := lru, nextNode := n,
        inFlight := s.inFlight.erase op.key,
        ops := s.ops.set o { op with completed := true, waiters := [] },
        requests := op.waiters.foldl (fun requests w => requests.erase w.id) s.requests,
        tasks := s.tasks ++ posted } := by
  unfold finish
  cases hop : s.ops[o]? with
  | none => exact .inl ⟨rfl, fun op ho => by cases ho⟩
  | some op =>
    dsimp only
    cases hlive : op.completed with
    | true =>
      refine .inl ⟨rfl, fun op' ho => ?_⟩
      cases ho
      exact hlive
    | false =>
      obtain ⟨cache, lru, n, heq⟩ := complete_eq config h hop hlive result
      obtain ⟨posted, hposted, hall⟩ := answerWaiters_frame result op.waiters { s with
        cache := cache, cacheLru := lru, nextNode := n,
        inFlight := s.inFlight.erase op.key,
        ops := s.ops.set o { op with completed := true, waiters := [] },
        requests := op.waiters.foldl (fun requests w => requests.erase w.id) s.requests }
      refine .inr ⟨op, cache, lru, n, posted, rfl, hlive, hall, ?_⟩
      simp only [Bool.false_eq_true, if_false]
      rw [heq, hposted]

theorem stopLoop_empty : ∀ (fuel : Nat) {s : State}, Inv hand s → s.inFlight.entries.length ≤ fuel →
    (stopLoop config fuel s).inFlight.entries = []
  | 0, s, _, hlen => length_eq_zero_iff.1 (Nat.le_zero.1 hlen)
  | fuel + 1, s, h, hlen => by
    rw [stopLoop]
    split
    · rename_i hnil
      exact hnil
    · rename_i key o rest hcons
      refine stopLoop_empty fuel (finish_inv config h _ _) ?_
      have hkey : s.inFlight.lookup key = some o := by
        have hmem : (⟨key, o⟩ : Sigma fun _ : Key => OpId) ∈ s.inFlight.entries := hcons ▸ mem_cons_self
        exact AList.mem_lookup_iff.2 hmem
      obtain ⟨op, hop, hlive, rfl⟩ := (h.inFlight_iff _ _).1 hkey
      rcases finish_cases config h o (.error cancelledError) with ⟨_, hdone⟩ | ⟨op', _, _, _, _, hop', _, _, heq⟩
      · rw [hdone op hop] at hlive
        cases hlive
      · rw [hop] at hop'
        cases hop'
        rw [cancelShared, heq]
        have := Tally.length_entries_erase hkey
        dsimp only
        omega

theorem stopOnOwner_inv (h : Inv hand s) :
    Inv hand (stopOnOwner config s) ∧ ∀ op ∈ (stopOnOwner config s).ops, op.completed = true := by
  have hinv := stopLoop_inv config s.inFlight.entries.length h
  have hempty := stopLoop_empty config s.inFlight.entries.length h (Nat.le_refl _)
  have hnone : ∀ k, (stopLoop config s.inFlight.entries.length s).inFlight.lookup k = none := by
    intro k
    rw [AList.lookup_eq_none, AList.mem_keys, AList.keys, hempty]
    exact not_mem_nil
  have hdone : ∀ op ∈ (stopLoop config s.inFlight.entries.length s).ops, op.completed = true := by
    intro op hop
    cases hlive : op.completed with
    | true => rfl
    | false =>
      obtain ⟨o, ho⟩ := mem_iff_getElem?.1 hop
      have := (hinv.inFlight_iff op.key o).2 ⟨op, ho, hlive, rfl⟩
      rw [hnone] at this
      cases this
  have hno : ∀ (o : OpId) (Q : Operation → Prop),
      ¬ ∃ op, (stopOnOwner config s).ops[o]? = some op ∧ op.completed = false ∧ Q op := by
    rintro o Q ⟨op, hop, hlive, _⟩
    rw [hdone op (mem_of_getElem? hop)] at hlive
    cases hlive
  refine ⟨{ hinv with inFlight_iff := fun k o => ?_, requests_iff := fun id o => ?_ }, hdone⟩
  · simp only [hno o (fun op => op.key = k), iff_false]
    simp [stopOnOwner]
  · simp only [hno o (fun op => id ∈ op.waiters.map (·.id)), iff_false]
    simp [stopOnOwner]

def joinOrStart (s : State) (id : RequestId) (packet : DnsPacket) (upstream : List UInt8) (key : Key) : State :=
  match s.inFlight.lookup key with
  | some op =>
    match s.ops[op]? with
    | none => s
    | some operation =>
      { s with
        ops := s.ops.set op { operation with waiters := operation.waiters ++ [⟨id, packet.id⟩] },
        requests := s.requests.insert id op }
  | none =>
    { s with
      ops := s.ops ++ [{ key, packet, upstream, waiters := [⟨id, packet.id⟩] }],
      inFlight := s.inFlight.insert key s.ops.length,
      requests := s.requests.insert id s.ops.length }

variable {id : RequestId}

theorem lookupOrStart_inv {rid : UInt16} (packet : DnsPacket) (hid : packet.id = rid)
    (h : Inv ((id, rid) :: hand) s) (upstream : List UInt8) (key : Key) :
    Inv hand (lookupOrStart s id packet upstream key) := by
  subst hid
  unfold lookupOrStart
  -- the state after the lookup: a stale entry has been dropped
  have hrest : ∀ s', Inv ((id, packet.id) :: hand) s' → Inv hand (joinOrStart s' id packet upstream key) := by
    intro s' h'
    unfold joinOrStart
    cases hkey : s'.inFlight.lookup key with
    | none => exact h'.start packet upstream hkey
    | some o =>
      obtain ⟨op, hop, _⟩ := (h'.inFlight_iff _ _).1 hkey
      dsimp only
      rw [hop]
      exact h'.join hkey hop
  cases hcache : s.cache.lookup key with
  | none => exact hrest s h
  | some entry =>
    dsimp only
    by_cases hexp : entry.expires > s.now
    · rw [if_pos hexp]
      exact (h.cache_irrelevant s.cache _ s.nextNode).post (packetFor_carries entry.packet packet.id)
    · rw [if_neg hexp]
      exact hrest (dropEntry s key entry) (h.cache_irrelevant _ _ s.nextNode)

variable {packet : DnsPacket}

theorem queryOnOwner_inv (h : Inv ((id, packet.id) :: hand) s) :
    Inv hand (queryOnOwner config s id packet) := by
  have herr : ∀ e, Inv hand (postCompletion s id (.error e)) := fun e => h.post (fun p hp => by cases hp)
  unfold queryOnOwner
  split
  · exact herr _
  · split
    · split
      · exact herr _
      · dsimp only
        split
        · exact herr _
        · refine lookupOrStart_inv _ ?_ h _ _
          rfl
    · exact herr _

/-! ## Tasks and events -/

variable {t : Task}

theorem Inv.push (h : Inv hand s) (ht : ∀ id, t.holds id = false) :
    Inv hand { s with tasks := s.tasks ++ [t] } := by
  refine { h with ledger := fun i => ?_, task_query := fun i p hm => ?_, task_deliver := fun i r hm => ?_ }
  · have hi := h.ledger i
    simpa only [held, countP_append, countP_cons, countP_nil, ht i, Bool.false_eq_true, if_false,
      Nat.add_zero] using hi
  · rcases mem_append.1 hm with hm | hm
    · exact h.task_query i p hm
    · have := ht i
      rw [← mem_singleton.1 hm] at this
      simp [Task.holds] at this
  · rcases mem_append.1 hm with hm | hm
    · exact h.task_deliver i r hm
    · have := ht i
      rw [← mem_singleton.1 hm] at this
      simp [Task.holds] at this

variable {i : Nat}

theorem Inv.pop (h : Inv hand s) (hi : s.tasks[i]? = some t) (ht : ∀ id, t.holds id = false) :
    Inv hand { s with tasks := s.tasks.eraseIdx i } := by
  refine ⟨fun id => ?_, h.fresh, h.submitted_nodup, h.hand_own, h.waiter_own,
    fun id p hm => h.task_query id p (mem_of_mem_eraseIdx hm),
    fun id r hm => h.task_deliver id r (mem_of_mem_eraseIdx hm),
    h.delivered_own, h.inFlight_iff, h.requests_iff, h.completed_empty⟩
  have hid := h.ledger id
  have hcount := Tally.countP_eraseIdx (Task.holds id) hi
  simp only [ht id, Bool.false_eq_true, if_false, Nat.add_zero] at hcount
  simpa only [held, hcount] using hid

theorem Inv.popQuery (h : Inv hand s)
    (hi : s.tasks[i]? = some (.query id packet)) :
    Inv ((id, packet.id) :: hand) { s with tasks := s.tasks.eraseIdx i } := by
  refine ⟨fun j => ?_, h.fresh, h.submitted_nodup, ?_, h.waiter_own,
    fun j p hm => h.task_query j p (mem_of_mem_eraseIdx hm),
    fun j r hm => h.task_deliver j r (mem_of_mem_eraseIdx hm),
    h.delivered_own, h.inFlight_iff, h.requests_iff, h.completed_empty⟩
  · have hj := h.ledger j
    have hcount := Tally.countP_eraseIdx (Task.holds j) hi
    simp only [Task.holds] at hcount
    simp only [held, map_cons, count_cons] at hj ⊢
    by_cases hij : (id == j) = true
    · simp only [hij, if_true] at hcount ⊢
      omega
    · simp only [hij, Bool.false_eq_true, if_false] at hcount ⊢
      omega
  · intro x hx
    rcases mem_cons.1 hx with rfl | hx
    · exact ⟨packet, h.task_query id packet (mem_of_getElem? hi), rfl⟩
    · exact h.hand_own x hx

theorem Inv.popDeliver (h : Inv hand s) {result : Result}
    (hi : s.tasks[i]? = some (.deliver id result)) :
    Inv hand { s with tasks := s.tasks.eraseIdx i, delivered := s.delivered ++ [(id, result)] } := by
  refine ⟨fun j => ?_, h.fresh, h.submitted_nodup, h.hand_own, h.waiter_own,
    fun j p hm => h.task_query j p (mem_of_mem_eraseIdx hm),
    fun j r hm => h.task_deliver j r (mem_of_mem_eraseIdx hm), ?_, h.inFlight_iff, h.requests_iff,
    h.completed_empty⟩
  · have hj := h.ledger j
    have hcount := Tally.countP_eraseIdx (Task.holds j) hi
    simp only [Task.holds] at hcount
    simp only [held, map_append, map_cons, map_nil, count_append, count_cons,
      count_nil] at hj ⊢
    by_cases hij : (id == j) = true
    · simp only [hij, if_true] at hcount ⊢
      omega
    · simp only [hij, Bool.false_eq_true, if_false] at hcount ⊢
      omega
  · intro d hd
    rcases mem_append.1 hd with hd | hd
    · exact h.delivered_own d hd
    · rw [mem_singleton.1 hd]
      exact h.task_deliver id result (mem_of_getElem? hi)

theorem Inv.submit (h : Inv hand s) (packet : DnsPacket) :
    Inv ((s.nextRequestId, packet.id) :: hand)
      { s with nextRequestId := s.nextRequestId + 1, submitted := s.submitted ++
        [(s.nextRequestId, packet)] } := by
  have hown : ∀ {i rid}, Own s i rid → Own { s with
      nextRequestId := s.nextRequestId + 1, submitted := s.submitted ++ [(s.nextRequestId, packet)] } i rid :=
    fun ⟨p, hp, hid⟩ => ⟨p, mem_append_left _ hp, hid⟩
  refine ⟨fun i => ?_, ?_, ?_, ?_, fun op hop w hw => hown (h.waiter_own op hop w hw),
    fun i p hm => mem_append_left _ (h.task_query i p hm), fun i r hm p hp => ?_, fun d hd p hp => ?_,
    h.inFlight_iff, h.requests_iff, h.completed_empty⟩
  · have hi := h.ledger i
    simp only [held, map_append, map_cons, map_nil, count_append, count_cons,
      count_nil] at hi ⊢
    omega
  · intro q hq
    rcases mem_append.1 hq with hq | hq
    · exact Nat.lt_succ_of_lt (h.fresh q hq)
    · rw [mem_singleton.1 hq]
      exact Nat.lt_succ_self _
  · rw [map_append, nodup_append]
    refine ⟨h.submitted_nodup, nodup_singleton _, ?_⟩
    intro i hi j hj
    obtain ⟨q, hq, rfl⟩ := mem_map.1 hi
    simp only [map_cons, map_nil, mem_singleton] at hj
    exact hj ▸ Nat.ne_of_lt (h.fresh q hq)
  · intro x hx
    rcases mem_cons.1 hx with rfl | hx
    · exact ⟨packet, mem_append_right _ mem_cons_self, rfl⟩
    · exact hown (h.hand_own x hx)
  · obtain ⟨rid, ho, hc⟩ := h.task_deliver i r hm p hp
    exact ⟨rid, hown ho, hc⟩
  · obtain ⟨rid, ho, hc⟩ := h.delivered_own d hd p hp
    exact ⟨rid, hown ho, hc⟩

theorem Inv.pushQuery (h : Inv ((id, packet.id) :: hand) s)
    (hsub : (id, packet) ∈ s.submitted) : Inv hand { s with tasks := s.tasks ++ [.query id packet] } := by
  refine ⟨fun i => ?_, h.fresh, h.submitted_nodup, fun x hx => h.hand_own x (mem_cons_of_mem _ hx), h.waiter_own,
    fun i p hm => ?_, fun i r hm => ?_, h.delivered_own, h.inFlight_iff, h.requests_iff, h.completed_empty⟩
  · have hi := h.ledger i
    simp only [held, countP_append, countP_cons, countP_nil, Task.holds, map_cons,
      count_cons] at hi ⊢
    by_cases hid : (id == i) = true
    · simp only [hid, if_true] at hi ⊢
      omega
    · simp only [hid, Bool.false_eq_true, if_false] at hi ⊢
      omega
  · simp only [mem_append, mem_singleton, Task.query.injEq] at hm
    rcases hm with hm | ⟨rfl, rfl⟩
    · exact h.task_query i p hm
    · exact hsub
  · simp only [mem_append, mem_singleton, reduceCtorEq, or_false] at hm
    exact h.task_deliver i r hm

theorem Inv.ended (h : Inv hand s) (hop : s.ops[o]? = some op) :
    Inv hand { s with ops := s.ops.set o { op with running := false } } := by
  refine ⟨fun i => ?_, h.fresh, h.submitted_nodup, h.hand_own, ?_, h.task_query, h.task_deliver, h.delivered_own,
    fun k o' => ?_, fun i o' => ?_, ?_⟩
  · have hi := h.ledger i
    have hset := Tally.sum_map_set (Operation.waits i) (b := { op with running := false }) hop
    simp only [held, Operation.waits] at hi hset ⊢
    omega
  · intro op' hop' w hw
    rcases mem_or_eq_of_mem_set hop' with hop' | rfl
    · exact h.waiter_own op' hop' w hw
    · exact h.waiter_own op (mem_of_getElem? hop) w hw
  · rw [h.inFlight_iff]
    refine (Tally.exists_getElem?_set_iff hop (fun op => op.completed = false ∧ op.key = k) ?_ o').symm
    exact Iff.rfl
  · rw [h.requests_iff]
    refine (Tally.exists_getElem?_set_iff hop
        (fun op => op.completed = false ∧ i ∈ op.waiters.map (·.id)) ?_ o').symm
    exact Iff.rfl
  · intro op' hop' hc
    rcases mem_or_eq_of_mem_set hop' with hop' | rfl
    · exact h.completed_empty op' hop' hc
    · exact h.completed_empty op (mem_of_getElem? hop) hc

theorem Inv.flags_irrelevant (h : Inv hand s) (stopCall : StopCall) (now : Nat) :
    Inv hand { s with stopCall := stopCall, now := now } :=
  { h with }

theorem step_inv (s : State) (e : Event) (h : Inv [] s) : Inv [] (step config s e) := by
  cases e with
  | query packet running =>
    have hsub := h.submit packet
    unfold step
    dsimp only
    split
    · exact hsub.pushQuery (mem_append_right _ mem_cons_self)
    · exact queryOnOwner_inv config hsub
  | cancel id running =>
    unfold step
    dsimp only
    split
    · exact h.push fun _ => rfl
    · exact cancelOnOwner_inv config h id
  | stop =>
    unfold step
    dsimp only
    split
    · exact h
    · exact h.flags_irrelevant .marked s.now
  | closeGate running =>
    have hflag := h.flags_irrelevant .dispatched s.now
    unfold step
    dsimp only
    split
    · split
      · exact hflag.push fun _ => rfl
      · exact (stopOnOwner_inv config hflag).1
    · exact h
  | clearCache running =>
    unfold step
    dsimp only
    split
    · exact h.push fun _ => rfl
    · exact h.cache_irrelevant _ _ s.nextNode
  | exchangeDone o result =>
    unfold step
    dsimp only
    cases hop : s.ops[o]? with
    | none => exact h
    | some op =>
      dsimp only
      split
      · exact (h.ended hop).push fun _ => rfl
      · exact h
  | runTask i =>
    unfold step
    dsimp only
    cases hi : s.tasks[i]? with
    | none => exact h
    | some t =>
      cases t with
      | query id packet =>
        have hq := h.popQuery hi
        unfold runTask
        dsimp only
        split
        · exact queryOnOwner_inv config hq
        · exact hq.post (fun p hp => by cases hp)
      | cancel id =>
        have hp := h.pop hi fun _ => rfl
        unfold runTask
        dsimp only
        split
        · exact cancelOnOwner_inv config hp id
        · exact hp
      | finish o result => exact finish_inv config (h.pop hi fun _ => rfl) o result
      | deliver id result => exact h.popDeliver hi
      | stopOnOwner => exact (stopOnOwner_inv config (h.pop hi fun _ => rfl)).1
      | clearCache =>
        have hp := h.pop hi fun _ => rfl
        unfold runTask
        dsimp only
        split
        · exact hp.cache_irrelevant _ _ s.nextNode
        · exact hp
  | tick elapsed => exact h.flags_irrelevant s.stopCall _

end ClashNative.Dns.QueryService
