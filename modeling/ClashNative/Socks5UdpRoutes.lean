import ClashNative.Socks5Udp
import ClashNative.Tally
/-!
# Socks5UdpRoutes — one route task for each pending key, and every datagram handed once

What holds on every run is `Inv`: a key is pending or has a path, a path has been handed what was accepted
for it, and before `stop()` a route task that runs has its pending entry.  The converse, that a pending
key has its route task, is lost when a task ends and leaves the entry behind (`Settles` says when not).
-/
namespace ClashNative.Socks5Udp

open Runs List

variable {κ : Type} [DecidableEq κ]

def dataOf (log : List (RouteId × Payload)) (id : RouteId) : List Payload :=
  (log.filter (fun x => x.1 == id)).map (fun x => x.2)

def outstanding (s : State κ) (key : κ) : Nat :=
  s.routes.countP (fun route => route.key == key && route.phase == .opening)

/-- **What the relay promises**: no key is pending and has a path, a pending key has one route task, and a
path has been handed what was accepted for it, in that order. -/
structure Consistent (s : State κ) : Prop where
  disjoint : ∀ key ∈ s.pending.keys, key ∉ s.paths.keys
  one_route : ∀ key ∈ s.pending.keys, outstanding s key = 1
  delivered : ∀ (id : RouteId) (route : Route κ), s.routes[id]? = some route → route.phase = .opened →
    dataOf s.handed id = dataOf s.accepted id

/-! ## Records -/

theorem dataOf_append (log log' : List (RouteId × Payload)) (id : RouteId) :
    dataOf (log ++ log') id = dataOf log id ++ dataOf log' id := by
  rw [dataOf, filter_append, map_append]
  rfl

theorem dataOf_self (id : RouteId) (payloads : List Payload) :
    dataOf (payloads.map (fun payload => (id, payload))) id = payloads := by
  induction payloads with
  | nil => rfl
  | cons payload payloads ih =>
    rw [dataOf] at ih ⊢
    simpa using ih

variable {id : RouteId} {other : RouteId}

theorem dataOf_other (h : other ≠ id) (payloads : List Payload) :
    dataOf (payloads.map (fun payload => (other, payload))) id = [] := by
  rw [dataOf, map_eq_nil_iff, filter_eq_nil_iff]
  intro x hx
  obtain ⟨payload, -, rfl⟩ := mem_map.1 hx
  simpa using h

theorem dataOf_none {log : List (RouteId × Payload)} (h : ∀ x ∈ log, x.1 ≠ id) : dataOf log id = [] := by
  rw [dataOf, map_eq_nil_iff, filter_eq_nil_iff]
  intro x hx
  simpa using h x hx

theorem dataOf_snoc_self (log : List (RouteId × Payload)) (id : RouteId) (payload : Payload) :
    dataOf (log ++ [(id, payload)]) id = dataOf log id ++ [payload] := by
  have hself := dataOf_self id [payload]
  rw [dataOf_append]
  exact congrArg (dataOf log id ++ ·) hself

theorem dataOf_snoc_other (h : other ≠ id) (log : List (RouteId × Payload)) (payload : Payload) :
    dataOf (log ++ [(other, payload)]) id = dataOf log id := by
  have hother := dataOf_other h [payload]
  rw [dataOf_append]
  exact (congrArg (dataOf log id ++ ·) hother).trans (append_nil _)

/-! ## The invariant -/

structure Inv (s : State κ) : Prop where
  path_opened : ∀ {key : κ} {id : RouteId}, s.paths.lookup key = some id → s.routes[id]? = some ⟨key, .opened⟩
  disjoint : ∀ {key : κ} {entry : Pending}, s.pending.lookup key = some entry → s.paths.lookup key = none
  queued : ∀ {key : κ} {entry : Pending}, s.pending.lookup key = some entry →
    (∃ phase, s.routes[entry.route]? = some ⟨key, phase⟩ ∧ phase ≠ .opened) ∧
      dataOf s.accepted entry.route = entry.payloads
  opened : ∀ {key : κ} {id : RouteId}, s.routes[id]? = some ⟨key, .opened⟩ →
    dataOf s.handed id = dataOf s.accepted id
  unopened : ∀ {key : κ} {id : RouteId} {phase : Phase}, s.routes[id]? = some ⟨key, phase⟩ → phase ≠ .opened →
    dataOf s.handed id = []
  opening : ∀ {key : κ} {id : RouteId}, s.stopped = false → s.routes[id]? = some ⟨key, .opening⟩ →
    ∃ payloads, s.pending.lookup key = some ⟨id, payloads⟩
  accepted_lt : ∀ x ∈ s.accepted, x.1 < s.routes.length
  handed_lt : ∀ x ∈ s.handed, x.1 < s.routes.length

theorem inv_init : Inv ({} : State κ) := by
  constructor <;> simp

namespace Inv

variable {s : State κ}

theorem stop (h : Inv s) : Inv (stop s) := by
  unfold Socks5Udp.stop
  split
  · exact h
  · refine ⟨fun hx => ?_, fun hx => ?_, fun hx => ?_, h.opened, h.unopened,
      fun hs => ?_, h.accepted_lt, h.handed_lt⟩
    · simp at hx
    · simp at hx
    · simp at hx
    · cases hs

variable {id : RouteId} {key : κ}

theorem send (h : Inv s) (hpath : s.paths.lookup key = some id) (payload : Payload) :
    Inv { s with accepted := s.accepted ++ [(id, payload)], handed := s.handed ++ [(id, payload)] } := by
  have hroute := h.path_opened hpath
  have hlt := (List.getElem?_eq_some_iff.1 hroute).1
  have hother : ∀ {other : RouteId} {key' : κ} {phase : Phase}, s.routes[other]? = some ⟨key', phase⟩ →
    phase ≠ .opened →
      id ≠ other := by
    rintro other key' phase ho hne rfl
    rw [hroute] at ho
    cases ho
    exact hne rfl
  have hlog : ∀ {log : List (RouteId × Payload)}, (∀ x ∈ log, x.1 < s.routes.length) →
      ∀ x ∈ log ++ [(id, payload)], x.1 < s.routes.length := by
    intro log hl x hx
    rcases mem_append.1 hx with hx | hx
    · exact hl x hx
    · rw [mem_singleton.1 hx]
      exact hlt
  refine ⟨h.path_opened, h.disjoint, fun hx => ?_, fun hx => ?_, fun hx hne => ?_, h.opening, hlog h.accepted_lt,
    hlog h.handed_lt⟩
  · obtain ⟨⟨phase, hr, hne⟩, hdata⟩ := h.queued hx
    exact ⟨⟨phase, hr, hne⟩, (dataOf_snoc_other (hother hr hne) _ _).trans hdata⟩
  · rw [dataOf_append, dataOf_append, h.opened hx]
  · exact (dataOf_snoc_other (hother hx hne) _ _).trans (h.unopened hx hne)

theorem queue (h : Inv s) {entry : Pending} (hentry : s.pending.lookup key = some entry) (payload : Payload) :
    Inv { s with
      pending := s.pending.insert key { entry with payloads := entry.payloads ++ [payload] },
      accepted := s.accepted ++ [(entry.route, payload)] } := by
  obtain ⟨⟨phase, hroute, hne⟩, hdata⟩ := h.queued hentry
  refine ⟨h.path_opened, fun {k x} hx => ?_, fun {k x} hx => ?_, fun {k id} hx => ?_, h.unopened,
    fun {k id} hs hx => ?_,
    fun x hx => ?_, h.handed_lt⟩
  · by_cases hk : k = key
    · rw [hk]
      exact h.disjoint hentry
    · dsimp only at hx
      rw [AList.lookup_insert_ne hk] at hx
      exact h.disjoint hx
  · dsimp only at hx ⊢
    by_cases hk : k = key
    · subst hk
      rw [AList.lookup_insert, Option.some.injEq] at hx
      subst hx
      exact ⟨⟨phase, hroute, hne⟩, by rw [dataOf_snoc_self, hdata]⟩
    · rw [AList.lookup_insert_ne hk] at hx
      obtain ⟨⟨phase', hr, hne'⟩, hd⟩ := h.queued hx
      refine ⟨⟨phase', hr, hne'⟩, (dataOf_snoc_other (fun heq => ?_) _ _).trans hd⟩
      rw [← heq, hroute] at hr
      cases hr
      exact hk rfl
  · refine (h.opened hx).trans (dataOf_snoc_other (fun heq => ?_) _ _).symm
    rw [← heq, hroute] at hx
    cases hx
    exact hne rfl
  · obtain ⟨payloads, hp⟩ := h.opening hs hx
    by_cases hk : k = key
    · subst hk
      rw [hentry, Option.some.injEq] at hp
      rw [AList.lookup_insert]
      exact ⟨payloads ++ [payload], by rw [hp]⟩
    · rw [AList.lookup_insert_ne hk]
      exact ⟨payloads, hp⟩
  · rcases mem_append.1 hx with hx | hx
    · exact h.accepted_lt x hx
    · rw [mem_singleton.1 hx]
      exact (List.getElem?_eq_some_iff.1 hroute).1

theorem start (h : Inv s) (hpath : s.paths.lookup key = none) (hpending : s.pending.lookup key = none)
    (payload : Payload) : Inv { s with
      pending := s.pending.insert key ⟨s.routes.length, [payload]⟩,
      routes := s.routes ++ [{ key }],
      accepted := s.accepted ++ [(s.routes.length, payload)] } := by
  have hnew : (s.routes ++ [({ key } : Route κ)])[s.routes.length]? = some { key } := by simp
  have hold : ∀ {id : RouteId} {route : Route κ}, s.routes[id]? = some route →
      (s.routes ++ [({ key } : Route κ)])[id]? = some route :=
    fun ho => by rw [getElem?_append_left (List.getElem?_eq_some_iff.1 ho).1, ho]
  have hself : dataOf (s.accepted ++ [(s.routes.length, payload)]) s.routes.length = [payload] := by
    rw [dataOf_snoc_self, dataOf_none fun x hx => Nat.ne_of_lt (h.accepted_lt x hx)]
    rfl
  have hkeep : ∀ {id : RouteId} {route : Route κ}, s.routes[id]? = some route →
      dataOf (s.accepted ++ [(s.routes.length, payload)]) id = dataOf s.accepted id :=
    fun ho => dataOf_snoc_other (Nat.ne_of_gt (List.getElem?_eq_some_iff.1 ho).1) _ _
  refine ⟨fun hx => hold (h.path_opened hx), fun {k x} hx => ?_, fun {k x} hx => ?_, fun {k id} hx => ?_,
    fun {k id phase} hx hne => ?_, fun {k id} hs hx => ?_, fun x hx => ?_, fun x hx => ?_⟩
  · by_cases hk : k = key
    · rw [hk]
      exact hpath
    · dsimp only at hx
      rw [AList.lookup_insert_ne hk] at hx
      exact h.disjoint hx
  · dsimp only at hx ⊢
    by_cases hk : k = key
    · subst hk
      rw [AList.lookup_insert, Option.some.injEq] at hx
      subst hx
      exact ⟨⟨.opening, hnew, by decide⟩, hself⟩
    · rw [AList.lookup_insert_ne hk] at hx
      obtain ⟨⟨phase, hr, hne⟩, hd⟩ := h.queued hx
      exact ⟨⟨phase, hold hr, hne⟩, (hkeep hr).trans hd⟩
  · rcases Tally.getElem?_concat_cases hx with hx | ⟨-, heq⟩
    · exact (h.opened hx).trans (hkeep hx).symm
    · cases heq
  · rcases Tally.getElem?_concat_cases hx with hx | ⟨hid, heq⟩
    · exact h.unopened hx hne
    · refine dataOf_none fun x hx' => ?_
      rw [hid]
      exact Nat.ne_of_lt (h.handed_lt x hx')
  · rcases Tally.getElem?_concat_cases hx with hx | ⟨hid, heq⟩
    · obtain ⟨payloads, hp⟩ := h.opening hs hx
      have hk : k ≠ key := by
        rintro rfl
        rw [hpending] at hp
        cases hp
      rw [AList.lookup_insert_ne hk]
      exact ⟨payloads, hp⟩
    · cases heq
      subst hid
      rw [AList.lookup_insert]
      exact ⟨[payload], rfl⟩
  · rw [length_append, length_singleton]
    rcases mem_append.1 hx with hx | hx
    · exact Nat.lt_succ_of_lt (h.accepted_lt x hx)
    · rw [mem_singleton.1 hx]
      exact Nat.lt_succ_self _
  · rw [length_append, length_singleton]
    exact Nat.lt_succ_of_lt (h.handed_lt x hx)

theorem drop (h : Inv s) (hroute : s.routes[id]? = some ⟨key, .opening⟩) (result : RouteResult) :
    Inv (dropRoute s id key result) := by
  have hset : ∀ {other : RouteId} {key' : κ} {phase : Phase}, (s.routes.set id ⟨key, .ended⟩)[other]? =
    some ⟨key', phase⟩ →
      (other = id ∧ key' = key ∧ phase = .ended) ∨ s.routes[other]? = some ⟨key', phase⟩ ∧ other ≠ id := by
    intro other key' phase hx
    rcases Tally.getElem?_set_cases hx with ⟨rfl, heq⟩ | ⟨hne, hx⟩
    · cases heq
      exact .inl ⟨rfl, rfl, rfl⟩
    · exact .inr ⟨hx, Ne.symm hne⟩
  have hkeep : ∀ {other : RouteId} {route : Route κ}, s.routes[other]? = some route → other ≠ id →
      (s.routes.set id ⟨key, .ended⟩)[other]? = some route :=
    fun ho hne => by rw [getElem?_set_ne (Ne.symm hne), ho]
  refine ⟨fun {k x} hx => ?_, h.disjoint, fun {k x} hx => ?_, fun {k x} hx => ?_, fun {k x phase} hx hne => ?_,
    fun {k x} hs hx => ?_, fun x hx => ?_, fun x hx => ?_⟩
  · have ho := h.path_opened hx
    refine hkeep ho ?_
    rintro rfl
    rw [hroute] at ho
    cases ho
  · obtain ⟨⟨phase, hr, hne⟩, hd⟩ := h.queued hx
    by_cases hid : x.route = id
    · rw [hid, hroute] at hr
      cases hr
      refine ⟨⟨.ended, ?_, by decide⟩, hd⟩
      rw [hid]
      exact getElem?_set_self (List.getElem?_eq_some_iff.1 hroute).1
    · exact ⟨⟨phase, hkeep hr hid, hne⟩, hd⟩
  · rcases hset hx with ⟨-, -, hphase⟩ | ⟨hx, -⟩
    · cases hphase
    · exact h.opened hx
  · rcases hset hx with ⟨rfl, -, -⟩ | ⟨hx, -⟩
    · exact h.unopened hroute (by decide)
    · exact h.unopened hx hne
  · rcases hset hx with ⟨-, -, hphase⟩ | ⟨hx, -⟩
    · cases hphase
    · exact h.opening hs hx
  · rw [dropRoute, length_set]
    exact h.accepted_lt x hx
  · rw [dropRoute, length_set]
    exact h.handed_lt x hx

theorem retire (h : Inv s) (id : RouteId) (close : Bool) : Inv (retirePath s id close) := by
  unfold retirePath
  split
  · exact h
  · rename_i route _
    split
    · refine { h with path_opened := fun {k x} hx => ?_, disjoint := fun {k x} hx => ?_ }
      · by_cases hk : k = route.key
        · rw [hk] at hx
          simp at hx
        · rw [AList.lookup_erase_ne hk] at hx
          exact h.path_opened hx
      · by_cases hk : k = route.key
        · rw [hk]
          exact AList.lookup_erase _ _
        · rw [AList.lookup_erase_ne hk]
          exact h.disjoint hx
    · exact h

theorem forget (h : Inv s) (hno : ∀ id : RouteId, s.stopped = false →
    s.routes[id]? = some (⟨key, .opening⟩ : Route κ) → s.pending.lookup key = none) :
    Inv { s with pending := s.pending.erase key } := by
  have hold : ∀ {k : κ} {entry : Pending}, (s.pending.erase key).lookup k = some entry →
    s.pending.lookup k = some entry := by
    intro k entry hx
    by_cases hk : k = key
    · rw [hk, AList.lookup_erase] at hx
      cases hx
    · rwa [AList.lookup_erase_ne hk] at hx
  refine ⟨h.path_opened, fun hx => h.disjoint (hold hx), fun hx => h.queued (hold hx), h.opened, h.unopened,
    fun {k id} hs hx => ?_, h.accepted_lt, h.handed_lt⟩
  obtain ⟨payloads, hp⟩ := h.opening hs hx
  have hk : k ≠ key := by
    rintro rfl
    rw [hno id hs hx] at hp
    cases hp
  refine ⟨payloads, ?_⟩
  rw [AList.lookup_erase_ne hk, hp]

theorem makePath (h : Inv s) {s' : State κ} {payloads : List Payload}
    (hroute : s.routes[id]? = some ⟨key, .opening⟩) (hentry : s.pending.lookup key = some ⟨id, payloads⟩)
    (hroutes : s'.routes = s.routes) (haccepted : s'.accepted = s.accepted) (hhanded : s'.handed = s.handed)
    (hpaths : ∀ {k : κ} {x : RouteId}, s'.paths.lookup k = some x → s.paths.lookup k = some x)
    (hpending : ∀ {k : κ} {e : Pending}, s'.pending.lookup k = some e → k ≠ key ∧ s.pending.lookup k = some e)
    (hstopped : s'.stopped = false → s.stopped = false ∧ ∀ {k : κ}, k ≠ key →
      s'.pending.lookup k = s.pending.lookup k) :
    Inv (openPath s' id key payloads) := by
  have hlt := (List.getElem?_eq_some_iff.1 hroute).1
  have hnone : s'.paths.lookup key = none := by
    cases hx : s'.paths.lookup key with
    | none => rfl
    | some x =>
      have hdis := h.disjoint hentry
      rw [hpaths hx] at hdis
      cases hdis
  have hself : (s.routes.set id ⟨key, .opened⟩)[id]? = some ⟨key, .opened⟩ := getElem?_set_self hlt
  have hkeep : ∀ {other : RouteId} {route : Route κ}, s.routes[other]? = some route → other ≠ id →
      (s.routes.set id ⟨key, .opened⟩)[other]? = some route :=
    fun ho hne => by rw [getElem?_set_ne (Ne.symm hne), ho]
  have hlog : ∀ {other : RouteId}, other ≠ id →
      dataOf (s.handed ++ payloads.map (fun payload => (id, payload))) other = dataOf s.handed other := by
    intro other hne
    rw [dataOf_append, dataOf_other (Ne.symm hne), append_nil]
  unfold openPath
  rw [hnone, hroutes, haccepted, hhanded]
  refine ⟨fun {k x} hx => ?_, fun {k e} hx => ?_, fun {k e} hx => ?_, fun {k x} hx => ?_,
    fun {k x phase} hx hne => ?_,
    fun {k x} hs hx => ?_, fun x hx => ?_, fun x hx => ?_⟩
  · by_cases hk : k = key
    · subst hk
      rw [Option.isSome_none, if_neg Bool.false_ne_true, AList.lookup_insert, Option.some.injEq] at hx
      subst hx
      exact hself
    · rw [Option.isSome_none, if_neg Bool.false_ne_true, AList.lookup_insert_ne hk] at hx
      have ho := h.path_opened (hpaths hx)
      refine hkeep ho ?_
      rintro rfl
      rw [hroute] at ho
      cases ho
  · obtain ⟨hk, hx⟩ := hpending hx
    rw [Option.isSome_none, if_neg Bool.false_ne_true, AList.lookup_insert_ne hk]
    cases hp : s'.paths.lookup k with
    | none => rfl
    | some x =>
      have hdis := h.disjoint hx
      rw [hpaths hp] at hdis
      cases hdis
  · obtain ⟨hk, hx⟩ := hpending hx
    obtain ⟨⟨phase, hr, hne⟩, hd⟩ := h.queued hx
    refine ⟨⟨phase, hkeep hr ?_, hne⟩, hd⟩
    intro hid
    rw [hid, hroute] at hr
    cases hr
    exact hk rfl
  · rcases Tally.getElem?_set_cases hx with ⟨rfl, heq⟩ | ⟨hne, hx⟩
    · rw [dataOf_append, h.unopened hroute (by decide), dataOf_self, (h.queued hentry).2]
      rfl
    · rw [hlog (Ne.symm hne)]
      exact h.opened hx
  · rcases Tally.getElem?_set_cases hx with ⟨rfl, heq⟩ | ⟨hid, hx⟩
    · cases heq
      exact absurd rfl hne
    · rw [hlog (Ne.symm hid)]
      exact h.unopened hx hne
  · rcases Tally.getElem?_set_cases hx with ⟨rfl, heq⟩ | ⟨hid, hx⟩
    · cases heq
    · obtain ⟨hstop, hsame⟩ := hstopped hs
      obtain ⟨waiting, hp⟩ := h.opening hstop hx
      have hk : k ≠ key := by
        rintro rfl
        rw [hentry, Option.some.injEq] at hp
        cases hp
        exact hid rfl
      exact ⟨waiting, (hsame hk).trans hp⟩
  · rw [length_set]
    exact h.accepted_lt x hx
  · rw [length_set]
    rcases mem_append.1 hx with hx | hx
    · exact h.handed_lt x hx
    · obtain ⟨payload, -, rfl⟩ := mem_map.1 hx
      exact hlt

theorem finish (h : Inv s) (hroute : s.routes[id]? = some ⟨key, .opening⟩) (result : RouteResult)
    (race : Bool) : Inv (finishRoute s id key result race) := by
  unfold finishRoute
  split
  · exact h.drop hroute result
  · split
    · exact h.drop hroute result
    · rename_i hrun
      have hrun : s.stopped = false := by simpa using hrun
      obtain ⟨payloads, hentry⟩ := h.opening hrun hroute
      rw [hentry]
      dsimp only
      split
      · -- the entry goes with the last route task of its key
        refine (h.drop hroute result).forget fun other _ ho => ?_
        rcases Tally.getElem?_set_cases ho with ⟨-, heq⟩ | ⟨hne, ho⟩
        · cases heq
        · obtain ⟨waiting, hp⟩ := h.opening hrun ho
          rw [hentry, Option.some.injEq] at hp
          cases hp
          exact absurd rfl hne
      · have hsame : ∀ {k : κ}, k ≠ key → (s.pending.erase key).lookup k = s.pending.lookup k :=
          fun hk => AList.lookup_erase_ne hk
        cases race with
        | false =>
          refine h.makePath hroute hentry rfl rfl rfl (fun hx => hx) (fun {k e} hx => ?_)
            (fun _ => ⟨hrun, hsame⟩)
          have hk : k ≠ key := by
            rintro rfl
            simp at hx
          exact ⟨hk, (hsame hk).symm.trans hx⟩
        | true =>
          have hstop : Socks5Udp.stop { s with pending := s.pending.erase key } = { s with
              stopped := true, paths := ∅, pending := ∅,
              closed := s.closed ++ s.paths.entries.map (fun path => path.2) } := by
            unfold Socks5Udp.stop
            rw [if_neg (by simp [hrun])]
          rw [if_pos rfl, hstop]
          refine h.makePath hroute hentry rfl rfl rfl (fun {k x} hx => ?_) (fun {k e} hx => ?_) (fun hs => ?_)
          · simp at hx
          · simp at hx
          · cases hs

theorem relay (relay : Relay κ) (h : Inv s) (key : κ) (payload : Payload) (snapshot : Bool) :
    Inv (relayPayload relay s key payload snapshot) := by
  unfold relayPayload
  cases hpath : s.paths.lookup key with
  | some path => exact h.send hpath payload
  | none =>
    cases hentry : s.pending.lookup key with
    | some entry => exact h.queue hentry payload
    | none =>
      dsimp only
      split
      · exact h
      · split
        · exact h.forget fun _ _ _ => hentry
        · exact h.start hpath hentry payload

end Inv

variable (relay : Relay κ) {s : State κ}

theorem process_inv (h : Inv s) (client : Endpoint) (packet : List UInt8) (snapshot : Bool) :
    Inv (process relay s client packet snapshot) := by
  unfold process
  split
  · exact h
  · exact h.relay relay _ _ _

theorem step_inv (s : State κ) (e : Event) (h : Inv s) : Inv (step relay s e) := by
  cases e with
  | datagram client packet snapshot race =>
    unfold step
    dsimp only
    split
    · exact h
    · cases race with
      | true => exact process_inv relay h.stop client packet snapshot
      | false => exact process_inv relay h client packet snapshot
  | routeDone id result race =>
    unfold step
    dsimp only
    split
    · rename_i route hroute
      split
      · rename_i hphase
        refine h.finish ?_ result race
        rw [hroute, ← hphase]
      · exact h
    · exact h
  | sendFailed path =>
    unfold step
    dsimp only
    split
    · exact h
    · exact h.retire path true
  | receiveFailed path aborted =>
    unfold step
    dsimp only
    split
    · exact h
    · exact h.retire path relay.closesOnReceive
  | stop => exact h.stop

/-! ## Route tasks -/

theorem outstanding_start (s : State κ) (key k : κ) : (s.routes ++ [({ key } : Route κ)]).countP
    (fun route => route.key == k && route.phase == .opening) = outstanding s k + if key = k then 1 else 0 := by
  rw [countP_append, outstanding]
  by_cases hk : key = k
  · simp [hk]
  · simp [hk]

variable {key : κ}

theorem outstanding_end (hroute : s.routes[id]? = some ⟨key, .opening⟩)
    {phase : Phase} (hphase : phase ≠ .opening) (k : κ) :
    (s.routes.set id ⟨key, phase⟩).countP (fun route => route.key == k && route.phase == .opening) +
      (if key = k then 1 else 0) = outstanding s k := by
  obtain ⟨hlt, heq⟩ := List.getElem?_eq_some_iff.1 hroute
  have hpos : key = k → 0 < outstanding s k := fun hk =>
    countP_pos_iff.2 ⟨⟨key, .opening⟩, mem_of_getElem? hroute, by simp [hk]⟩
  rw [countP_set hlt, heq, outstanding] at *
  by_cases hk : key = k
  · have hpos := hpos hk
    simp only [hk, beq_self_eq_true, Bool.and_self, if_true] at hpos ⊢
    simp [hphase]
    omega
  · simp [hk]

def OneRoute (s : State κ) : Prop := ∀ key ∈ s.pending.keys, outstanding s key = 1

def Starts (s : State κ) (key : κ) (snapshot : Bool) : Prop :=
  s.paths.lookup key = none ∧ s.pending.lookup key = none ∧ full relay s = false ∧
    (relay.loadsSnapshot = true → snapshot = true)

/-- **The condition on a step**: no route task ends by an exception, or after `stop()`, while its key is
pending, and none is started for a key that has one. -/
def Settles (s : State κ) : Event → Prop
  | .datagram client packet snapshot race => s.stopped = false → ∀ key payload,
      keyed relay client packet = some (key, payload) → Starts relay (if race then stop s else s) key snapshot →
      outstanding s key = 0
  | .routeDone id result _ => ∀ route, s.routes[id]? = some route → route.phase = .opening →
      result = .threw ∨ s.stopped = true → route.key ∉ s.pending.keys
  | _ => True

theorem stop_oneRoute (h : OneRoute s) : OneRoute (stop s) := by
  unfold stop
  split
  · exact h
  · intro key hkey
    cases hkey

theorem outstanding_stop (s : State κ) (key : κ) : outstanding (stop s) key = outstanding s key := by
  unfold stop
  split <;> rfl

variable {α : Type}

theorem mem_keys_insert (m : AList (fun _ : κ => α)) (key k : κ) (a : α) :
    k ∈ (m.insert key a).keys ↔ k = key ∨ k ∈ m.keys := by
  rw [← AList.mem_keys, AList.mem_insert, AList.mem_keys]

theorem mem_keys_erase (m : AList (fun _ : κ => α)) (key k : κ) :
    k ∈ (m.erase key).keys ↔ k ≠ key ∧ k ∈ m.keys := by
  rw [← AList.mem_keys, AList.mem_erase, AList.mem_keys]

theorem mem_keys_of_lookup {m : AList (fun _ : κ => α)} {a : α} (h : m.lookup key = some a) :
    key ∈ m.keys := by
  rw [← AList.mem_keys, ← AList.lookup_isSome, h]
  rfl

theorem relayPayload_oneRoute (h : OneRoute s) (key : κ) (payload : Payload) (snapshot : Bool) :
    OneRoute (relayPayload relay s key payload snapshot) ↔
    (Starts relay s key snapshot → outstanding s key = 0) := by
  unfold relayPayload Starts
  cases hpath : s.paths.lookup key with
  | some path => exact ⟨fun _ hs => absurd hs.1 (Option.some_ne_none _), fun _ => h⟩
  | none =>
    cases hentry : s.pending.lookup key with
    | some entry =>
      refine ⟨fun _ hs => absurd hs.2.1 (Option.some_ne_none _), fun _ k hk => ?_⟩
      rcases (mem_keys_insert _ _ _ _).1 hk with rfl | hk
      · exact h k (mem_keys_of_lookup hentry)
      · exact h k hk
    | none =>
      dsimp only
      cases hfull : full relay s with
      | true =>
        exact ⟨fun _ hs => absurd hs.2.2.1.symm Bool.false_ne_true, fun _ => h⟩
      | false =>
        rw [if_neg Bool.false_ne_true]
        split
        · rename_i hno
          refine ⟨fun _ hs => absurd (hs.2.2.2 hno.1) hno.2, fun _ k hk => ?_⟩
          exact h k ((mem_keys_erase _ _ _).1 hk).2
        · rename_i hno
          have hsnap : relay.loadsSnapshot = true → snapshot = true := by
            intro hload
            by_contra hnot
            exact hno ⟨hload, hnot⟩
          constructor
          · intro hone _
            have hkey := hone key ((mem_keys_insert _ _ _ _).2 (.inl rfl))
            rw [outstanding, outstanding_start, if_pos rfl] at hkey
            omega
          · intro hzero k hk
            rw [outstanding, outstanding_start]
            rcases (mem_keys_insert _ _ _ _).1 hk with rfl | hk
            · rw [if_pos rfl, hzero ⟨rfl, rfl, rfl, hsnap⟩]
            · have hne : key ≠ k := by
                rintro rfl
                rw [← AList.mem_keys, ← AList.lookup_isSome, hentry] at hk
                cases hk
              rw [if_neg hne]
              exact h k hk

theorem dropRoute_oneRoute (h : OneRoute s)
    (hroute : s.routes[id]? = some ⟨key, .opening⟩) (result : RouteResult) :
    OneRoute (dropRoute s id key result) ↔ key ∉ s.pending.keys := by
  have hcount := outstanding_end hroute (show Phase.ended ≠ .opening by decide)
  constructor
  · intro hone hmem
    have hafter : (s.routes.set id ⟨key, .ended⟩).countP
      (fun route => route.key == key && route.phase == .opening) = 1 :=
      hone key hmem
    have hbefore := h key hmem
    have hkey := hcount key
    rw [if_pos rfl] at hkey
    omega
  · intro hnot k hk
    have hne : key ≠ k := fun heq => hnot (heq ▸ hk)
    have hkey := hcount k
    rw [if_neg hne] at hkey
    have hbefore := h k hk
    change (s.routes.set id ⟨key, .ended⟩).countP (fun route => route.key == k && route.phase == .opening) = 1
    omega

/-- **A route task that ends keeps one route task** for each pending key exactly when it does not end by
an exception, or after `stop()`, with its key pending. -/
theorem finishRoute_oneRoute (h : OneRoute s)
    (hroute : s.routes[id]? = some ⟨key, .opening⟩) (result : RouteResult) (race : Bool) :
    OneRoute (finishRoute s id key result race) ↔
    (result = .threw ∨ s.stopped = true → key ∉ s.pending.keys) := by
  have hgone : ∀ {phase : Phase}, phase ≠ .opening → ∀ k ∈ (s.pending.erase key).keys,
      (s.routes.set id ⟨key, phase⟩).countP (fun route => route.key == k && route.phase == .opening) = 1 := by
    intro phase hphase k hk
    rw [mem_keys_erase] at hk
    have hcount := outstanding_end hroute hphase k
    rw [if_neg (Ne.symm hk.1)] at hcount
    have hbefore := h k hk.2
    omega
  unfold finishRoute
  split
  · rename_i hthrew
    rw [dropRoute_oneRoute h hroute]
    exact ⟨fun hnot _ => hnot, fun himp => himp (.inl hthrew)⟩
  · rename_i hthrew
    split
    · rename_i hstop
      rw [dropRoute_oneRoute h hroute]
      exact ⟨fun hnot _ => hnot, fun himp => himp (.inr hstop)⟩
    · rename_i hstop
      have hno : ¬ (result = .threw ∨ s.stopped = true) := by
        rintro (hr | hs)
        · exact hthrew hr
        · exact hstop hs
      refine ⟨fun _ hor => absurd hor hno, fun _ => ?_⟩
      split
      · rename_i hnone
        rw [dropRoute_oneRoute h hroute, ← AList.mem_keys, ← AList.lookup_isSome, hnone]
        exact Bool.false_ne_true
      · dsimp only
        split
        · exact hgone (by decide)
        · cases race with
          | false => exact hgone (by decide)
          | true =>
            have hempty : (openPath (stop { s with pending := s.pending.erase key }) id key
              ‹Pending›.payloads).pending = ∅ := by
              unfold openPath stop
              rw [if_neg hstop]
            intro k hk
            rw [if_pos rfl, hempty] at hk
            cases hk

theorem process_oneRoute (h : OneRoute s) (client : Endpoint) (packet : List UInt8) (snapshot : Bool) :
    OneRoute (process relay s client packet snapshot) ↔
    ∀ key payload, keyed relay client packet = some (key, payload) →
      Starts relay s key snapshot → outstanding s key = 0 := by
  unfold process
  cases hkeyed : keyed relay client packet with
  | none => exact ⟨fun _ _ _ heq => absurd heq.symm (Option.some_ne_none _), fun _ => h⟩
  | some found =>
    obtain ⟨key, payload⟩ := found
    rw [relayPayload_oneRoute relay h]
    constructor
    · intro hone key' payload' heq
      cases heq
      exact hone
    · exact fun hall => hall key payload rfl

theorem retirePath_oneRoute (h : OneRoute s) (id : RouteId) (close : Bool) :
    OneRoute (retirePath s id close) := by
  unfold retirePath
  split
  · exact h
  · split
    · exact h
    · exact h

theorem step_oneRoute (h : OneRoute s) (e : Event) : OneRoute (step relay s e) ↔ Settles relay s e := by
  cases e with
  | datagram client packet snapshot race =>
    unfold step Settles
    cases hstop : s.stopped with
    | true => exact ⟨fun _ hs => absurd hs.symm Bool.false_ne_true, fun _ => h⟩
    | false =>
      have hsettle : ∀ s' : State κ, OneRoute s' → (∀ key, outstanding s' key = outstanding s key) →
          (OneRoute (process relay s' client packet snapshot) ↔ (false = false → ∀ key payload,
            keyed relay client packet = some (key, payload) → Starts relay s' key snapshot →
            outstanding s key = 0)) := by
        intro s' h' hsame
        rw [process_oneRoute relay h']
        constructor
        · exact fun hall _ key payload hk hs => (hsame key).symm.trans (hall key payload hk hs)
        · exact fun hall key payload hk hs => (hsame key).trans (hall rfl key payload hk hs)
      cases race with
      | true => exact hsettle (stop s) (stop_oneRoute h) (outstanding_stop s)
      | false => exact hsettle s h fun _ => rfl
  | routeDone id result race =>
    unfold step Settles
    dsimp only
    cases hroute : s.routes[id]? with
    | none => exact ⟨fun _ _ heq => absurd heq.symm (Option.some_ne_none _), fun _ => h⟩
    | some route =>
      obtain ⟨key, phase⟩ := route
      dsimp only
      split
      · rename_i hphase
        subst hphase
        rw [finishRoute_oneRoute h hroute]
        constructor
        · intro hone route heq _
          cases heq
          exact hone
        · exact fun hall => hall _ rfl rfl
      · rename_i hphase
        refine ⟨fun _ route heq hopen => ?_, fun _ => h⟩
        cases heq
        exact absurd hopen hphase
  | sendFailed path =>
    refine ⟨fun _ => trivial, fun _ => ?_⟩
    unfold step
    dsimp only
    split
    · exact h
    · exact retirePath_oneRoute h path true
  | receiveFailed path aborted =>
    refine ⟨fun _ => trivial, fun _ => ?_⟩
    unfold step
    dsimp only
    split
    · exact h
    · exact retirePath_oneRoute h path relay.closesOnReceive
  | stop => exact ⟨fun _ => trivial, fun _ => stop_oneRoute h⟩

/-! ## Runs -/

theorem Inv.consistent (h : Inv s) (hone : OneRoute s) : Consistent s where
  disjoint key hkey hpath := by
    rw [← AList.mem_keys, ← AList.lookup_isSome, Option.isSome_iff_exists] at hkey hpath
    obtain ⟨entry, hentry⟩ := hkey
    obtain ⟨path, hpath⟩ := hpath
    rw [h.disjoint hentry] at hpath
    cases hpath
  one_route := hone
  delivered id route hroute hphase := by
    obtain ⟨key, phase⟩ := route
    subst hphase
    exact h.opened hroute

/-- **The relay is consistent all along a run exactly when every step settles.** -/
theorem run_consistent_iff (l : List Event) :
    (∀ pre, pre <+: l → Consistent (run (step relay) ({} : State κ) pre)) ↔
      Along (step relay) (Settles relay) ({} : State κ) l := by
  refine forall_prefix_iff_along (P := fun s => Inv s ∧ OneRoute s) (fun s h => h.1.consistent h.2)
    (fun s e h hsettles => ⟨step_inv relay s e h.1, (step_oneRoute relay h.2 e).2 hsettles⟩)
    (fun s e h hnot hcons => hnot ((step_oneRoute relay h.2 e).1 hcons.one_route)) ⟨inv_init,
      fun key hkey => ?_⟩ l
  cases hkey

/-- A DNS query to a resolver named `a`, with two bytes of payload. -/
def examplePacket : List UInt8 := [0, 0, 0, 3, 1, 97, 0, 53, 7, 8]

def exampleClient : Endpoint := ⟨.v4 #v[127, 0, 0, 1], 5000⟩

/-- A route whose `open_datagram` throws leaves its key pending, in the session and in the listener: the
next datagram waits for a route that no task opens. -/
theorem thrown_route_blackholes :
    (¬ Consistent (run (step proxySession) {} [.datagram exampleClient examplePacket true false,
        .routeDone 0 .threw false, .datagram exampleClient examplePacket true false]) ∧
      ((run (step proxySession) {} [.datagram exampleClient examplePacket true false,
        .routeDone 0 .threw false, .datagram exampleClient examplePacket true false]).pending.lookup
          [3, 1, 97, 0, 53]).map (·.payloads) = some [[7, 8], [7, 8]]) ∧
    ¬ Consistent (run (step socks5UdpListener) {} [.datagram exampleClient examplePacket true false,
        .routeDone 0 .threw false, .datagram exampleClient examplePacket true false]) := by
  refine ⟨⟨fun h => ?_, by decide⟩, fun h => ?_⟩
  · exact absurd (h.one_route [3, 1, 97, 0, 53] (by decide)) (by decide)
  · exact absurd (h.one_route (exampleClient, [3, 1, 97, 0, 53]) (by decide)) (by decide)

end ClashNative.Socks5Udp
