import ClashNative.Runs
/-!
# DnsTcpSession — requests that share a connection by their identifiers

`TcpSession` of `dns_transport.cpp`.  A step is a call of the session, the end of a write, or the firing
of a deadline task, which is never cancelled; the server answers what it has been sent, at any time.
Requests are numbered; the session itself only knows their identifiers.
-/
namespace ClashNative.Dns.TcpReuse

open List

structure Request where
  number : Nat
  id : UInt16
  deriving DecidableEq, Repr

/-- What a handler is called for: an event of a request, or nothing of any. -/
inductive Cause
  | response (r : Request)
  | deadline (r : Request)
  | cancelled (r : Request)
  | refused
  | lost
  deriving DecidableEq, Repr

def Cause.owner : Cause → Option Request
  | response r | deadline r | cancelled r => some r
  | refused | lost => none

structure Completed where
  request : Request
  cause : Cause
  deriving DecidableEq, Repr

/-- `writing` is the request whose frame the write that is out holds; `armed` are the requests whose
deadline has not fired.  `writeQueue` is of identifiers, and whose they are is kept for the statements, as
`accepted`, `sent` (on this connection) and `completed` are. -/
structure Session where
  pending : List Request := []
  writeQueue : List Request := []
  connecting : Bool := false
  connected : Bool := false
  stopped : Bool := false
  writing : Option Request := none
  armed : List Request := []
  started : Nat := 0
  accepted : List Request := []
  sent : List Request := []
  completed : List Completed := []
  deriving DecidableEq

namespace Session

def find (s : Session) (id : UInt16) : Option Request := s.pending.find? (·.id = id)

def complete (s : Session) (request : Request) (cause : Cause) : Session :=
  { s with completed := s.completed ++ [⟨request, cause⟩] }

def flushWrites (s : Session) : Session :=
  if s.stopped || !s.connected || s.writing.isSome then s
  else
    let queue := s.writeQueue.dropWhile fun entry => (s.find entry.id).isNone
    match queue.head?.bind fun front => s.find front.id with
    | none => { s with writeQueue := queue }
    | some r => { s with writeQueue := queue, writing := some r, sent := s.sent ++ [r] }

/-- `exchange`; `valid` is the check of the length of the query. -/
def exchange (s : Session) (id : UInt16) (valid : Bool) : Session :=
  let r : Request := ⟨s.started, id⟩
  let s := { s with started := s.started + 1 }
  if s.stopped || !valid || (s.find id).isSome then s.complete r .refused
  else
    { s with
      pending := s.pending ++ [r], writeQueue := s.writeQueue ++ [r], connecting := s.connecting || !s.connected
      armed := s.armed ++ [r], accepted := s.accepted ++ [r] }.flushWrites

def failRequest (s : Session) (id : UInt16) (cause : Cause) : Session :=
  match s.find id with
  | none => s
  | some m => { s with
      pending := s.pending.filter (·.id ≠ id),
      writeQueue := s.writeQueue.filter (·.id ≠ id) }.complete m cause

def dispatchResponse (s : Session) (r : Request) : Session :=
  match s.find r.id with
  | none => s
  | some m => { s with pending := s.pending.filter (·.id ≠ r.id) }.complete m (.response r)

def popFront (id : UInt16) : List Request → List Request
  | [] => []
  | front :: rest => if front.id = id then rest else front :: rest

def onWrite (s : Session) (r : Request) : Session :=
  { s with writing := none, writeQueue := popFront r.id s.writeQueue }.flushWrites

def failAll (s : Session) : Session :=
  { s with
    pending := [], writeQueue := [], connecting := false, connected := false, writing := none, sent := []
    completed := s.completed ++ s.pending.map fun r => ⟨r, .lost⟩ }

end Session

/-- `lost`: the connection is not made, or a read or write of it fails. -/
inductive Event
  | exchange (id : UInt16) (valid : Bool)
  | connected
  | writeEnded
  | response (r : Request)
  | deadline (r : Request)
  | cancel (r : Request)
  | lost
  | stop
  deriving DecidableEq, Repr

def step (s : Session) : Event → Session
  | .exchange id valid => s.exchange id valid
  | .connected => if s.connecting then { s with connecting := false, connected := true }.flushWrites else s
  | .writeEnded =>
    match s.writing with
    | none => s
    | some r => s.onWrite r
  | .response r => if r ∈ s.sent then s.dispatchResponse r else s
  | .deadline r => if r ∈ s.armed then { s with armed := s.armed.erase r }.failRequest r.id (.deadline r) else s
  | .cancel r => if r ∈ s.accepted then s.failRequest r.id (.cancelled r) else s
  | .lost => if s.stopped then s else s.failAll
  | .stop => if s.stopped then s else { s.failAll with stopped := true }

/-- **A request is changed by its own events only**: it is completed by one of them, or with the
connection, and until then its frame is still to be sent or has been. -/
structure Sound (s : Session) : Prop where
  owned : ∀ c ∈ s.completed, ∀ r, c.cause.owner = some r → r = c.request
  held : ∀ r ∈ s.accepted, r ∈ s.pending ∨ ∃ c ∈ s.completed, c.request = r
  due : ∀ r ∈ s.pending, r ∈ s.writeQueue ∨ r ∈ s.sent

/-- **No other request has the identifier**, of the request whose event it is. -/
def Unshared (s : Session) (r : Request) : Prop := ∀ m ∈ s.pending, m.id = r.id → m = r

def Clear (s : Session) : Event → Prop
  | .response r => r ∈ s.sent → Unshared s r
  | .deadline r => r ∈ s.armed → Unshared s r
  | .cancel r => r ∈ s.accepted → Unshared s r
  | .writeEnded => ∀ r, s.writing = some r → ∀ front ∈ s.writeQueue.head?, front.id = r.id → front = r
  | _ => True

structure Inv (s : Session) : Prop extends Sound s where
  one : ∀ m ∈ s.pending, ∀ m' ∈ s.pending, m.id = m'.id → m = m'
  fresh : ∀ r, r ∈ s.accepted → r.number < s.started
  known : ∀ r, r ∈ s.pending ∨ r ∈ s.writeQueue ∨ r ∈ s.sent ∨ r ∈ s.armed → r ∈ s.accepted
  nodup : s.writeQueue.Nodup
  queued : ∀ r ∈ s.writeQueue, r ∈ s.pending ∨ s.writing = some r
  unsent : ∀ r ∈ s.writeQueue, r ∈ s.sent → s.writing = some r
  front : ∀ r, s.writing = some r → r ∈ s.sent ∧ (r ∈ s.writeQueue → s.writeQueue.head? = some r)

variable {s : Session} {m : Request} {id : UInt16}

theorem find_some (h : s.find id = some m) : m ∈ s.pending ∧ m.id = id :=
  ⟨mem_of_find?_eq_some h, by simpa using find?_some h⟩

theorem Inv.find (h : Inv s) (hm : m ∈ s.pending) : s.find m.id = some m := by
  cases hfind : s.find m.id with
  | none => exact absurd (find?_eq_none.1 hfind m hm) (by simp)
  | some m' =>
    obtain ⟨hm', hid⟩ := find_some hfind
    rw [h.one m' hm' m hm hid]

theorem flushWrites_spec (hfind : s.writing = none → ∀ r ∈ s.writeQueue, s.find r.id = some r) :
    s.flushWrites = s ∨
    ∃ front, s.writeQueue.head? = some front ∧ s.writing = none ∧
      s.flushWrites = { s with writing := some front, sent := s.sent ++ [front] } := by
  unfold Session.flushWrites
  split_ifs with hidle
  · exact .inl rfl
  · have hnone : s.writing = none := by
      cases hwriting : s.writing with
      | none => rfl
      | some r => rw [hwriting] at hidle; simp at hidle
    have hqueue : (s.writeQueue.dropWhile fun entry => (s.find entry.id).isNone) = s.writeQueue := by
      cases hcase : s.writeQueue with
      | nil => rfl
      | cons front rest =>
        have hfront := hfind hnone front (by rw [hcase]; exact mem_cons_self)
        rw [dropWhile_cons_of_neg (by rw [hfront]; simp)]
    dsimp only
    rw [hqueue]
    cases hhead : s.writeQueue.head? with
    | none => exact .inl rfl
    | some front =>
      rw [Option.bind_some, hfind hnone front (mem_of_head? hhead)]
      exact .inr ⟨front, rfl, hnone, rfl⟩

theorem Inv.flushWrites (h : Inv s) : Inv s.flushWrites := by
  have hfind (hnone : s.writing = none) (r : Request) (hr : r ∈ s.writeQueue) : s.find r.id = some r :=
    h.find ((h.queued r hr).resolve_right fun hwriting => by rw [hnone] at hwriting; cases hwriting)
  rcases flushWrites_spec hfind with hflush | ⟨front, hhead, hnone, hflush⟩
  · rw [hflush]
    exact h
  · have hmem : front ∈ s.writeQueue := mem_of_head? hhead
    rw [hflush]
    refine { h with
      due := fun r hr => (h.due r hr).imp_right fun hsent => mem_append_left _ hsent
      known := fun r hr => ?_
      queued := fun r hr => ?_
      unsent := fun r hr hsent => ?_
      front := fun r hwriting => ?_ }
    · rcases hr with hr | hr | hr | hr
      · exact h.known r (.inl hr)
      · exact h.known r (.inr (.inl hr))
      · rcases mem_append.1 hr with hr | hr
        · exact h.known r (.inr (.inr (.inl hr)))
        · rw [mem_singleton.1 hr]
          exact h.known front (.inr (.inl hmem))
      · exact h.known r (.inr (.inr (.inr hr)))
    · exact .inl ((h.queued r hr).resolve_right fun hwriting => by rw [hnone] at hwriting; cases hwriting)
    · rcases mem_append.1 hsent with hsent | hsent
      · have hwriting := h.unsent r hr hsent
        rw [hnone] at hwriting
        cases hwriting
      · rw [mem_singleton.1 hsent]
    · cases hwriting
      exact ⟨mem_append_right _ (mem_singleton_self _), fun _ => hhead⟩

theorem Inv.refuse (h : Inv s) (r : Request) : Inv ({ s with started := s.started + 1 }.complete r .refused) :=
  { h with
    owned := fun c hc => by
      rcases mem_append.1 hc with hc | hc
      · exact h.owned c hc
      · rw [mem_singleton.1 hc]
        exact fun _ hnone => by cases hnone
    held := fun r' hr' => (h.held r' hr').imp_right fun ⟨c, hc, heq⟩ => ⟨c, mem_append_left _ hc, heq⟩
    fresh := fun r' hr' => Nat.lt_succ_of_lt (h.fresh r' hr') }

theorem Inv.exchange (h : Inv s) (id : UInt16) (valid : Bool) : Inv (s.exchange id valid) := by
  unfold Session.exchange
  dsimp only
  split_ifs with hrefused
  · exact h.refuse _
  · have hfree : s.find id = none := by
      cases hfind : s.find id with
      | none => rfl
      | some m => rw [show Session.find { s with started := s.started + 1 } id =
        some m from hfind] at hrefused; simp at hrefused
    have hnew (m : Request) (hm : m ∈ s.pending) : m.id ≠ id := by
      have := find?_eq_none.1 hfree m hm
      simpa using this
    have hfresh : (⟨s.started, id⟩ : Request) ∉ s.accepted := fun hmem => Nat.lt_irrefl _ (h.fresh _ hmem)
    refine Inv.flushWrites { h with
      held := ?_, due := ?_, one := ?_, fresh := ?_, known := ?_, nodup := ?_, queued := ?_,
      unsent := ?_, front := ?_ }
    · intro r hr
      rcases mem_append.1 hr with hr | hr
      · exact (h.held r hr).imp_left fun hr => mem_append_left _ hr
      · exact .inl (mem_append_right _ hr)
    · intro r hr
      rcases mem_append.1 hr with hr | hr
      · exact (h.due r hr).imp_left fun hr => mem_append_left _ hr
      · exact .inl (mem_append_right _ hr)
    · intro m hm m' hm' hid
      rcases mem_append.1 hm with hm | hm <;> rcases mem_append.1 hm' with hm' | hm'
      · exact h.one m hm m' hm' hid
      · rw [mem_singleton.1 hm'] at hid
        exact absurd hid (hnew m hm)
      · rw [mem_singleton.1 hm] at hid
        exact absurd hid.symm (hnew m' hm')
      · rw [mem_singleton.1 hm, mem_singleton.1 hm']
    · intro r hr
      rcases mem_append.1 hr with hr | hr
      · exact Nat.lt_succ_of_lt (h.fresh r hr)
      · rw [mem_singleton.1 hr]
        exact Nat.lt_succ_self _
    · intro r hr
      simp only [mem_append, mem_singleton] at hr ⊢
      have hknown := h.known r
      tauto
    · refine nodup_append.2 ⟨h.nodup, by simp, fun r hr r' hr' => ?_⟩
      rw [mem_singleton.1 hr']
      exact fun heq => hfresh (heq ▸ h.known r (.inr (.inl hr)))
    · intro r hr
      rcases mem_append.1 hr with hr | hr
      · exact (h.queued r hr).imp_left fun hr => mem_append_left _ hr
      · exact .inl (mem_append_right _ hr)
    · intro r hr hsent
      rcases mem_append.1 hr with hr | hr
      · exact h.unsent r hr hsent
      · rw [mem_singleton.1 hr] at hsent
        exact absurd (h.known _ (.inr (.inr (.inl hsent)))) hfresh
    · intro r hwriting
      obtain ⟨hsent, hhead⟩ := h.front r hwriting
      refine ⟨hsent, fun hr => ?_⟩
      rcases mem_append.1 hr with hr | hr
      · exact head?_append_of_ne_nil _ (ne_nil_of_mem hr) ▸ hhead hr
      · rw [mem_singleton.1 hr] at hsent
        exact absurd (h.known _ (.inr (.inr (.inl hsent)))) hfresh

theorem mem_kept {requests : List Request} {r : Request} :
    r ∈ requests.filter (·.id ≠ id) ↔ r ∈ requests ∧ r.id ≠ id := by simp

theorem Inv.completed (h : Inv s) {r : Request} (hr : r ∈ s.pending) {cause : Cause}
    (howner : cause.owner = some r) :
    (∀ c ∈ s.completed ++ [⟨r, cause⟩], ∀ r', c.cause.owner = some r' → r' = c.request) ∧
      ∀ r' ∈ s.accepted, r' ∈ s.pending.filter (·.id ≠ r.id) ∨
      ∃ c ∈ s.completed ++ [⟨r, cause⟩], c.request = r' := by
  constructor
  · intro c hc r' hr'
    rcases mem_append.1 hc with hc | hc
    · exact h.owned c hc r' hr'
    · rw [mem_singleton.1 hc] at hr' ⊢
      exact Option.some.inj (hr'.symm.trans howner)
  · intro r' hr'
    rcases h.held r' hr' with hpending | ⟨c, hc, heq⟩
    · by_cases hid : r'.id = r.id
      · rw [h.one r' hpending r hr hid]
        exact .inr ⟨_, mem_append_right _ (mem_singleton_self _), rfl⟩
      · exact .inl (mem_kept.2 ⟨hpending, hid⟩)
    · exact .inr ⟨c, mem_append_left _ hc, heq⟩

theorem Inv.failRequest (h : Inv s) {r : Request} (hunshared : Unshared s r) {cause : Cause}
    (howner : cause.owner = some r) :
    Inv (s.failRequest r.id cause) := by
  unfold Session.failRequest
  split
  · exact h
  · rename_i m hfind
    obtain ⟨hm, hid⟩ := find_some hfind
    obtain rfl := hunshared m hm hid
    obtain ⟨howned, hheld⟩ := h.completed hm howner
    have hsub {requests : List Request} {r : Request} (hr : r ∈ requests.filter (·.id ≠ m.id)) :
      r ∈ requests := (mem_kept.1 hr).1
    refine { h with
      owned := howned, held := hheld
      due := fun r hr => ?_
      one := fun r hr r' hr' => h.one r (hsub hr) r' (hsub hr')
      known := fun r hr => h.known r (hr.imp hsub (Or.imp_left hsub))
      nodup := h.nodup.filter _
      queued := fun r hr => ?_
      unsent := fun r hr => h.unsent r (hsub hr)
      front := fun r hwriting => ?_ }
    · obtain ⟨hr, hne⟩ := mem_kept.1 hr
      exact (h.due r hr).imp_left fun hqueue => mem_kept.2 ⟨hqueue, hne⟩
    · obtain ⟨hr, hne⟩ := mem_kept.1 hr
      exact (h.queued r hr).imp_left fun hpending => mem_kept.2 ⟨hpending, hne⟩
    · obtain ⟨hsent, hhead⟩ := h.front r hwriting
      refine ⟨hsent, fun hr => ?_⟩
      obtain ⟨hr, hne⟩ := mem_kept.1 hr
      have hfirst := hhead hr
      change (s.writeQueue.filter (·.id ≠ m.id)).head? = some r
      cases hcase : s.writeQueue with
      | nil => rw [hcase] at hr; cases hr
      | cons front rest =>
        rw [hcase, head?_cons] at hfirst
        cases hfirst
        rw [filter_cons_of_pos (by simpa using hne), head?_cons]

theorem Inv.dispatchResponse (h : Inv s) {r : Request} (hsent : r ∈ s.sent) (hunshared : Unshared s r) :
    Inv (s.dispatchResponse r) := by
  unfold Session.dispatchResponse
  split
  · exact h
  · rename_i m hfind
    obtain ⟨hm, hid⟩ := find_some hfind
    obtain rfl := hunshared m hm hid
    obtain ⟨howned, hheld⟩ := @Inv.completed _ h _ hm (.response m) rfl
    refine { h with
      owned := howned, held := hheld
      due := fun r hr => h.due r (mem_kept.1 hr).1
      one := fun r hr r' hr' => h.one r (mem_kept.1 hr).1 r' (mem_kept.1 hr').1
      known := fun r hr => h.known r (hr.imp_left fun hr => (mem_kept.1 hr).1)
      queued := fun r hr => ?_ }
    by_cases hid : r.id = m.id
    · rcases h.queued r hr with hpending | hwriting
      · obtain rfl := h.one r hpending m hm hid
        exact .inr (h.unsent r hr hsent)
      · exact .inr hwriting
    · exact (h.queued r hr).imp_left fun hpending => mem_kept.2 ⟨hpending, hid⟩

theorem Inv.onWrite (h : Inv s) {r : Request} (hwriting : s.writing = some r)
    (hclear : ∀ front ∈ s.writeQueue.head?, front.id = r.id → front = r) : Inv (s.onWrite r) := by
  have hpop : (∀ x, x ∈ Session.popFront r.id s.writeQueue ↔ x ∈ s.writeQueue ∧ x ≠ r) ∧
    (Session.popFront r.id s.writeQueue).Nodup := by
    have hnodup := h.nodup
    have hfront := (h.front r hwriting).2
    cases hcase : s.writeQueue with
    | nil => simp [Session.popFront]
    | cons front rest =>
      rw [hcase] at hnodup hclear hfront
      obtain ⟨hnot, hrest⟩ := nodup_cons.1 hnodup
      by_cases hid : front.id = r.id
      · obtain rfl := hclear front rfl hid
        rw [Session.popFront, if_pos rfl]
        refine ⟨fun x => ⟨fun hx => ⟨mem_cons_of_mem _ hx, fun heq => hnot (heq ▸ hx)⟩, fun hx => ?_⟩, hrest⟩
        exact (mem_cons.1 hx.1).resolve_left hx.2
      · rw [Session.popFront, if_neg hid]
        refine ⟨fun x => ⟨fun hx => ⟨hx, ?_⟩, And.left⟩, hnodup⟩
        rintro rfl
        have hfirst := hfront hx
        rw [head?_cons] at hfirst
        cases hfirst
        exact hid rfl
  obtain ⟨hmem, hnodup⟩ := hpop
  obtain ⟨hsent, -⟩ := h.front r hwriting
  have hother {x : Request} (hx : x ≠ r) : s.writing ≠ some x := by
    rw [hwriting]
    exact fun heq => hx (Option.some.inj heq).symm
  refine Inv.flushWrites { h with
    due := fun m hm => ?_
    known := fun m hm => h.known m (hm.imp_right (Or.imp_left fun hm => ((hmem m).1 hm).1))
    nodup := hnodup
    queued := fun x hx => ?_
    unsent := fun x hx hxsent => ?_
    front := fun x hx => by cases hx }
  · by_cases hmr : m = r
    · exact .inr (hmr ▸ hsent)
    · exact (h.due m hm).imp_left fun hqueue => (hmem m).2 ⟨hqueue, hmr⟩
  · obtain ⟨hx, hne⟩ := (hmem x).1 hx
    exact .inl ((h.queued x hx).resolve_right (hother hne))
  · obtain ⟨hx, hne⟩ := (hmem x).1 hx
    exact absurd (h.unsent x hx hxsent) (hother hne)

theorem Inv.failAll (h : Inv s) : Inv s.failAll where
  owned c hc r hr := by
    rcases mem_append.1 hc with hc | hc
    · exact h.owned c hc r hr
    · obtain ⟨m, -, rfl⟩ := mem_map.1 hc
      cases hr
  held r hr := by
    rcases h.held r hr with hpending | ⟨c, hc, heq⟩
    · exact .inr ⟨⟨r, .lost⟩, mem_append_right _ (mem_map_of_mem hpending), rfl⟩
    · exact .inr ⟨c, mem_append_left _ hc, heq⟩
  due r hr := absurd hr not_mem_nil
  one m hm := absurd hm not_mem_nil
  fresh := h.fresh
  known r hr := by
    rcases hr with hr | hr | hr | hr
    iterate 3 exact absurd hr not_mem_nil
    exact h.known r (.inr (.inr (.inr hr)))
  nodup := nodup_nil
  queued r hr := absurd hr not_mem_nil
  unsent r hr := absurd hr not_mem_nil
  front r hr := by cases hr

theorem Inv.step (h : Inv s) (event : Event) (hclear : Clear s event) : Inv (step s event) := by
  cases event with
  | exchange id valid => exact h.exchange id valid
  | connected =>
    unfold TcpReuse.step
    dsimp only
    split
    · exact Inv.flushWrites { h with }
    · exact h
  | writeEnded =>
    unfold TcpReuse.step
    dsimp only
    split
    · exact h
    · rename_i r hwriting
      exact h.onWrite hwriting (hclear r hwriting)
  | response r =>
    unfold TcpReuse.step
    dsimp only
    split
    · rename_i hsent
      exact h.dispatchResponse hsent (hclear hsent)
    · exact h
  | deadline r =>
    unfold TcpReuse.step
    dsimp only
    split
    · rename_i harmed
      have hfired : Inv { s with armed := s.armed.erase r } :=
        { h with known := fun m hm => h.known m (hm.imp_right (Or.imp_right (Or.imp_right mem_of_mem_erase))) }
      exact hfired.failRequest (hclear harmed) rfl
    · exact h
  | cancel r =>
    unfold TcpReuse.step
    dsimp only
    split
    · rename_i haccepted
      exact h.failRequest (hclear haccepted) rfl
    · exact h
  | lost =>
    unfold TcpReuse.step
    dsimp only
    split
    · exact h
    · exact h.failAll
  | stop =>
    unfold TcpReuse.step
    dsimp only
    split
    · exact h
    · exact { h.failAll with }

theorem start_inv : Inv {} where
  owned _ hc := absurd hc not_mem_nil
  held _ hr := absurd hr not_mem_nil
  due _ hr := absurd hr not_mem_nil
  one _ hm := absurd hm not_mem_nil
  fresh _ hr := absurd hr not_mem_nil
  known r hr := by simp at hr
  nodup := nodup_nil
  queued _ hr := absurd hr not_mem_nil
  unsent _ hr := absurd hr not_mem_nil
  front _ hr := by cases hr

theorem Inv.misdirected (h : Inv s) {r : Request} (hshared : ¬ Unshared s r) : ∃ m, s.find r.id =
    some m ∧ r ≠ m := by
  unfold Unshared at hshared
  push Not at hshared
  obtain ⟨m, hm, hid, hne⟩ := hshared
  exact ⟨m, hid ▸ h.find hm, hne.symm⟩

theorem not_sound_of_completed {r : Request} {cause : Cause} (howner : cause.owner = some r) (hne : r ≠ m) :
    ⟨m, cause⟩ ∈ s.completed → ¬ Sound s := fun hmem h => hne (h.owned _ hmem r howner)

theorem Inv.back (h : Inv s) (event : Event) (hnot : ¬ Clear s event) : ¬ Sound (TcpReuse.step s event) := by
  have hlast {completed : List Completed} {c : Completed} : c ∈ completed ++ [c] :=
    mem_append_right _ (mem_singleton_self c)
  cases event with
  | response r =>
    obtain ⟨hsent, hshared⟩ := Classical.not_imp.1 hnot
    obtain ⟨m, hfind, hne⟩ := h.misdirected hshared
    rw [TcpReuse.step, if_pos hsent, Session.dispatchResponse, hfind]
    exact not_sound_of_completed rfl hne hlast
  | deadline r =>
    obtain ⟨harmed, hshared⟩ := Classical.not_imp.1 hnot
    obtain ⟨m, hfind, hne⟩ := h.misdirected hshared
    rw [TcpReuse.step, if_pos harmed, Session.failRequest, show Session.find
      { s with armed := s.armed.erase r } r.id = some m from hfind]
    exact @not_sound_of_completed _ m r (.deadline r) rfl hne hlast
  | cancel r =>
    obtain ⟨haccepted, hshared⟩ := Classical.not_imp.1 hnot
    obtain ⟨m, hfind, hne⟩ := h.misdirected hshared
    rw [TcpReuse.step, if_pos haccepted, Session.failRequest, hfind]
    exact @not_sound_of_completed _ m r (.cancelled r) rfl hne hlast
  | writeEnded =>
    unfold Clear at hnot
    push Not at hnot
    obtain ⟨r, hwriting, front, hhead, hid, hne⟩ := hnot
    obtain ⟨rest, hqueue⟩ := head?_eq_some_iff.1 hhead
    have hmem : front ∈ s.writeQueue := mem_of_head? hhead
    have hnodup := h.nodup
    rw [hqueue] at hnodup
    obtain ⟨hfront, -⟩ := nodup_cons.1 hnodup
    have hother : s.writing ≠ some front := by
      rw [hwriting]
      exact fun heq => hne (Option.some.inj heq).symm
    have hpending : front ∈ s.pending := (h.queued front hmem).resolve_right hother
    have hrest (x : Request) (hx : x ∈ rest) : x ∈ s.pending := by
      have hxqueue : x ∈ s.writeQueue := by rw [hqueue]; exact mem_cons_of_mem front hx
      refine (h.queued x hxqueue).resolve_right fun heq => hne ?_
      exact Option.some.inj (hhead.symm.trans ((h.front x heq).2 hxqueue)) |>.trans
        (Option.some.inj (heq.symm.trans hwriting))
    rw [TcpReuse.step, hwriting]
    dsimp only
    rw [Session.onWrite, hqueue, Session.popFront, if_pos hid]
    -- Behind the write the entry is gone, and the frame is not sent: what the next write takes stands behind it.
    have hunsent (requests : List Request) (hsent : ∀ x ∈ requests, x ∈ s.sent ∨
      x ∈ rest) : ¬ (front ∈ rest ∨ front ∈ requests) := by
      rintro (hin | hin)
      · exact hfront hin
      · rcases hsent front hin with hsent | hin
        · exact hother (h.unsent front hmem hsent)
        · exact hfront hin
    rcases @flushWrites_spec { s with writing := none, writeQueue := rest }
      (fun _ x hx => h.find (hrest x hx)) with
      hflush | ⟨next, hnext, -, hflush⟩ <;> rw [hflush] <;> intro hsound
    · exact hunsent s.sent (fun x hx => .inl hx) (hsound.due front hpending)
    · refine hunsent (s.sent ++ [next]) (fun x hx => ?_) (hsound.due front hpending)
      rcases mem_append.1 hx with hx | hx
      · exact .inl hx
      · rw [mem_singleton.1 hx]
        exact .inr (mem_of_head? hnext)
  | exchange _ _ => exact absurd trivial hnot
  | connected => exact absurd trivial hnot
  | lost => exact absurd trivial hnot
  | stop => exact absurd trivial hnot

/-- **Every request is changed by its own events only, exactly as long as no step meets another one that
has its identifier.** -/
theorem sound_iff_clear (events : List Event) :
    (∀ pre, pre <+: events → Sound (Runs.run step {} pre)) ↔ Runs.Along step Clear {} events :=
  Runs.forall_prefix_iff_along (fun _ h => h.toSound) (fun _ event h => h.step event)
  (fun _ event h => h.back event) start_inv events

def first : Request := ⟨0, 7⟩

def timedOut : List Event := [.exchange 7 true, .connected, .writeEnded, .cancel first, .exchange 7 true,
    .deadline first]

def neverWritten : List Event := [.exchange 7 true, .connected, .cancel first, .exchange 7 true, .writeEnded]

/-- **The deadline of a request that is over fails the next one**, a late response is given to it, and the
end of a write takes its place in the queue. -/
theorem reused_id : ¬ Sound (Runs.run step {}
    timedOut) ∧ ¬ Sound (Runs.run step {} (timedOut.dropLast ++ [.response first])) ∧
    ¬ Sound (Runs.run step {} neverWritten) := by
  refine ⟨fun h => ?_, fun h => ?_, fun h => ?_⟩
  · exact absurd (h.owned ⟨⟨1, 7⟩, .deadline first⟩ (by decide) first rfl) (by decide)
  · exact absurd (h.owned ⟨⟨1, 7⟩, .response first⟩ (by decide) first rfl) (by decide)
  · exact absurd (h.due ⟨1, 7⟩ (by decide)) (by decide)

end ClashNative.Dns.TcpReuse
