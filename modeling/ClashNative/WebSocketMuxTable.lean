import ClashNative.Runs
import ClashNative.Tally
import Mathlib.Data.List.Nodup
/-!
# WebSocketMuxTable — the streams of a WebSocket mux session

`WebSocketMuxSession` (`websocket_mux.cpp`) keeps its streams by their wire id and its opens by their
operation.
-/
namespace ClashNative.WebSocketMuxTable

open List

inductive WebSocketMuxProtocol
  | v2ray | smux
  deriving DecidableEq, Repr

/-- `WebSocketMuxOptions`, as far as the table reads them. -/
structure Limits where
  protocol : WebSocketMuxProtocol
  maxConcurrentStreams : Nat

def kV2rayMaximumStreamId : Nat := 0xffff

def Limits.maximum (o : Limits) : Nat :=
  match o.protocol with
  | .v2ray => kV2rayMaximumStreamId
  | .smux => 2 ^ 32 - 1 - 1

/-- A stream that was opened; `pending`: it is in `pending_opens_`. -/
structure StreamEntry where
  wireId : Nat
  closed : Bool := false
  pending : Bool := true
  deriving DecidableEq, Repr

/-- `opened`: every stream so far, in the order of their operations; `streams`: `streams_`, a wire id and
the place of its stream among them. -/
structure Session where
  opened : List StreamEntry := []
  streams : List (Nat × Nat) := []
  nextWireId : Nat := 1
  closed : Bool := false

namespace Session

def findStream (s : Session) (wireId : Nat) : Option Nat := s.streams.lookup wireId

def contains (s : Session) (wireId : Nat) : Bool := (s.findStream wireId).isSome

def erase (s : Session) (wireId : Nat) : Session :=
  { s with streams := s.streams.filter (fun x => x.1 != wireId) }

def emplace (s : Session) (wireId k : Nat) : Session :=
  if s.contains wireId then s else { s with streams := s.streams ++ [(wireId, k)] }

/-- What `allocate_wire_id` makes of `next_wire_id_` in an attempt. -/
def advance (o : Limits) (wireId : Nat) : Nat :=
  match o.protocol with
  | .v2ray => if o.maximum - 1 ≤ wireId then 1 else wireId + 1
  | .smux => if o.maximum - 1 ≤ wireId then 1 else wireId + 2

/-- `allocate_wire_id`, with the attempts that are left. -/
def allocateWireId (o : Limits) : Nat → Session → Option Nat × Session
  | 0, s => (none, s)
  | attempts + 1, s =>
    let candidate := s.nextWireId
    let s := { s with nextWireId := advance o candidate }
    if candidate ≠ 0 ∧ s.contains candidate = false then (some candidate, s) else allocateWireId o attempts s

def openStream (o : Limits) (s : Session) (bidirectional expired : Bool) : Session :=
  if bidirectional = false ∨ s.closed ∨ expired ∨ o.maxConcurrentStreams ≤ s.streams.length then s
  else
    match s.allocateWireId o o.maximum with
    | (none, s) => s
    | (some wireId, s) => { s.emplace wireId s.opened.length with opened := s.opened ++ [{ wireId := wireId }] }

/-- A stream is closed, out of `streams_` and out of `pending_opens_`. -/
def retire (s : Session) (k : Nat) (e : StreamEntry) : Session :=
  { s.erase e.wireId with opened := s.opened.set k { e with closed := true, pending := false } }

def openWritten (s : Session) (k : Nat) : Session :=
  match s.opened[k]? with
  | none => s
  | some e => if e.pending then { s with opened := s.opened.set k { e with pending := false } } else s

/-- The open frame was not written: `on_open_error`. -/
def openFailed (s : Session) (k : Nat) : Session :=
  match s.opened[k]? with
  | none => s
  | some e => if e.pending then s.retire k e else s

def close (s : Session) (k : Nat) : Session :=
  match s.opened[k]? with
  | none => s
  | some e => if e.closed then s else s.retire k e

def cancel (s : Session) (k : Nat) : Session :=
  match s.opened[k]? with
  | none => s
  | some e =>
    if e.pending then s.retire k e
    else if s.streams.any (fun x => x.2 == k) then s.close k
    else s

/-- A v2ray frame with the status `kV2rayError`: `on_session_error` of its stream. -/
def remoteError (o : Limits) (s : Session) (wireId : Nat) : Session :=
  if s.closed ∨ o.protocol ≠ .v2ray then s
  else
    match s.findStream wireId with
    | none => s
    | some k =>
      match s.opened[k]? with
      | none => s
      | some e => { s with opened := s.opened.set k { e with closed := true } }

def fail (s : Session) : Session :=
  if s.closed then s
  else
    { s with
      closed := true
      opened := s.opened.mapIdx fun k e =>
        if e.pending ∨ s.streams.any (fun x => x.2 == k) then { e with closed := true, pending := false } else e
      streams := [] }

end Session

inductive Event
  | openStream (bidirectional expired : Bool)
  | openWritten (k : Nat)
  | openFailed (k : Nat)
  | cancel (k : Nat)
  | close (k : Nat)
  | remoteEnd (wireId : Nat)
  | remoteError (wireId : Nat)
  | fail
  deriving DecidableEq, Repr

def Session.step (o : Limits) (s : Session) : Event → Session
  | .openStream bidirectional expired => s.openStream o bidirectional expired
  | .openWritten k => s.openWritten k
  | .openFailed k => s.openFailed k
  | .cancel k => s.cancel k
  | .close k => s.close k
  | .remoteEnd _ => s
  | .remoteError wireId => s.remoteError o wireId
  | .fail => s.fail

def run (o : Limits) (events : List Event) : Session := Runs.run (Session.step o) {} events

namespace Session

def Lives (s : Session) (k : Nat) (e : StreamEntry) : Prop :=
  s.opened[k]? = some e ∧ (e.closed = false ∨ ∃ wireId, (wireId, k) ∈ s.streams)

/-- **What is promised of the table**: what is closed is gone from it, and no two streams that live have
the same wire id. -/
structure Tidy (s : Session) : Prop where
  gone : ∀ wireId k e, (wireId, k) ∈ s.streams → s.opened[k]? = some e → e.closed = false
  distinct : ∀ (k k' : Nat) (e e' : StreamEntry), s.Lives k e → s.Lives k' e' → e.wireId = e'.wireId → k = k'

/-- **The condition**: no v2ray error frame names a stream that the session has. -/
def Meets (o : Limits) (s : Session) : Event → Prop
  | .remoteError wireId => s.closed = false → o.protocol = .v2ray → s.findStream wireId = none
  | _ => True

structure Inv (s : Session) : Prop where
  keys : (s.streams.map Prod.fst).Nodup
  owns : ∀ wireId k, (wireId, k) ∈ s.streams → ∃ e, s.opened[k]? = some e ∧ e.wireId = wireId
  has : ∀ k e, s.opened[k]? = some e → e.closed = false ∨ e.pending = true → (e.wireId, k) ∈ s.streams
  reused : ∀ (k k' : Nat) (e e' : StreamEntry), k < k' → s.opened[k]? = some e → s.opened[k']? = some e' →
    e.wireId = e'.wireId → e.closed = true

def Gone (s : Session) : Prop := ∀ wireId k e, (wireId, k) ∈ s.streams → s.opened[k]? = some e → e.closed = false

variable {o : Limits} {s : Session} {wireId k : Nat}

theorem Inv.unique (h : s.Inv) {k' : Nat} (hk : (wireId, k) ∈ s.streams)
    (hk' : (wireId, k') ∈ s.streams) : k = k' :=
  congrArg Prod.snd (inj_on_of_nodup_map h.keys hk hk' rfl)

variable {e : StreamEntry}

theorem Inv.lives (h : s.Inv) (hlives : s.Lives k e) : (e.wireId, k) ∈ s.streams := by
  obtain ⟨hk, hopen | ⟨wireId, hmem⟩⟩ := hlives
  · exact h.has k e hk (.inl hopen)
  · obtain ⟨e', hk', rfl⟩ := h.owns wireId k hmem
    rw [hk] at hk'
    cases hk'
    exact hmem

theorem Inv.tidy (h : s.Inv) (hgone : s.Gone) : s.Tidy where
  gone := hgone
  distinct _ _ _ _ hlives hlives' hsame := h.unique (h.lives hlives) (hsame ▸ h.lives hlives')

theorem findStream_none (hnone : s.findStream wireId = none) (k : Nat) : (wireId, k) ∉ s.streams := by
  intro hmem
  have hall := lookup_eq_none_iff.1 hnone
  exact absurd (hall _ hmem) (by simp)

theorem mem_of_findStream (hsome : s.findStream wireId = some k) : (wireId, k) ∈ s.streams := by
  obtain ⟨before, after, heq, -⟩ := lookup_eq_some_iff.1 hsome
  rw [heq]
  exact mem_append_right _ mem_cons_self

/-! ## The moves -/

theorem allocateWireId_spec (o : Limits) : ∀ (attempts : Nat) (s : Session),
    ∃ next, (s.allocateWireId o attempts).2 = { s with nextWireId := next } ∧
      ∀ wireId, (s.allocateWireId o attempts).1 = some wireId → s.contains wireId = false
  | 0, s => ⟨s.nextWireId, rfl, nofun⟩
  | attempts + 1, s => by
    rw [allocateWireId]
    split
    · rename_i hfree
      refine ⟨_, rfl, fun wireId hsome => ?_⟩
      rw [← Option.some.inj hsome]
      exact hfree.2
    · obtain ⟨next, hnext, hfree⟩ := allocateWireId_spec o attempts _
      exact ⟨next, hnext, hfree⟩

theorem openStream_cases (o : Limits) (s : Session) (bidirectional expired : Bool) :
    (∃ next, s.openStream o bidirectional expired = { s with nextWireId := next }) ∨
      ∃ next wireId, s.findStream wireId = none ∧ s.openStream o bidirectional expired =
        { s with
          nextWireId := next
          streams := s.streams ++ [(wireId, s.opened.length)]
          opened := s.opened ++ [{ wireId := wireId }] } := by
  unfold openStream
  split
  · exact .inl ⟨s.nextWireId, rfl⟩
  · obtain ⟨next, hnext, hfree⟩ := allocateWireId_spec o o.maximum s
    generalize s.allocateWireId o o.maximum = allocated at hnext hfree
    obtain ⟨wireId, s'⟩ := allocated
    cases hnext
    cases wireId with
    | none => exact .inl ⟨next, rfl⟩
    | some wireId =>
      right
      have hfree : s.contains wireId = false := hfree wireId rfl
      have hnone : s.findStream wireId = none := by simpa [contains] using hfree
      refine ⟨next, wireId, hnone, ?_⟩
      dsimp only
      unfold emplace
      rw [if_neg (by simp [show ({ s with nextWireId := next } : Session).contains wireId = false from hfree])]

theorem openStream_inv (h : s.Inv) (bidirectional expired : Bool) :
    (s.openStream o bidirectional expired).Inv := by
  obtain ⟨next, heq⟩ | ⟨next, wireId, hfree, heq⟩ := openStream_cases o s bidirectional expired <;> rw [heq]
  · exact { h with }
  · have habsent := findStream_none hfree
    refine ⟨?_, fun id k hmem => ?_, fun k e hk hlive => ?_, fun k k' e e' hlt hk hk' hsame => ?_⟩
    · rw [map_append, map_singleton, ← concat_eq_append]
      refine List.Nodup.concat (fun hmem => ?_) h.keys
      obtain ⟨⟨id, k⟩, hin, rfl⟩ := mem_map.1 hmem
      exact habsent k hin
    · rcases mem_append.1 hmem with hold | hnew
      · obtain ⟨e, hk, hid⟩ := h.owns id k hold
        exact ⟨e, (getElem?_append_left (List.getElem?_eq_some_iff.1 hk).1).trans hk, hid⟩
      · cases mem_singleton.1 hnew
        exact ⟨_, getElem?_concat_length, rfl⟩
    · rcases Tally.getElem?_concat_cases hk with hold | ⟨rfl, rfl⟩
      · exact mem_append_left _ (h.has k e hold hlive)
      · exact mem_append_right _ mem_cons_self
    · rcases Tally.getElem?_concat_cases hk' with hold' | ⟨rfl, rfl⟩
      · rcases Tally.getElem?_concat_cases hk with hold | ⟨rfl, rfl⟩
        · exact h.reused k k' e e' hlt hold hold' hsame
        · have := (List.getElem?_eq_some_iff.1 hold').1
          omega
      · rcases Tally.getElem?_concat_cases hk with hold | ⟨rfl, rfl⟩
        · by_contra hopen
          have hmem := h.has k e hold (.inl (by simpa using hopen))
          rw [show e.wireId = wireId from hsame] at hmem
          exact habsent k hmem
        · omega

theorem retire_inv (h : s.Inv) (hk : s.opened[k]? = some e) (hmem : (e.wireId, k) ∈ s.streams) :
    (s.retire k e).Inv := by
  have hkept : ∀ {id j}, (id, j) ∈ s.streams.filter (fun x => x.1 != e.wireId) ↔
    (id, j) ∈ s.streams ∧ id ≠ e.wireId := by
    intro id j
    simp [mem_filter]
  refine ⟨(h.keys.sublist (List.Sublist.map _ filter_sublist)), fun id j hin => ?_, fun j e' hj hlive => ?_,
    fun j j' e₁ e₂ hlt' hj hj' hsame => ?_⟩
  · obtain ⟨hold, hne⟩ := hkept.1 hin
    obtain ⟨e', hj, hid⟩ := h.owns id j hold
    refine ⟨e', ?_, hid⟩
    show (s.opened.set k _)[j]? = some e'
    rw [getElem?_set_ne (fun heq => hne ?_), hj]
    subst heq
    rw [hk] at hj
    cases hj
    exact hid.symm
  · rcases Tally.getElem?_set_cases hj with ⟨rfl, rfl⟩ | ⟨hjk, hj⟩
    · rcases hlive with hopen | hpending
      · cases hopen
      · cases hpending
    · refine hkept.2 ⟨h.has j e' hj hlive, fun hsame => hjk ?_⟩
      exact h.unique hmem (hsame ▸ h.has j e' hj hlive)
  · rcases Tally.getElem?_set_cases hj with ⟨rfl, rfl⟩ | ⟨hjk, hj⟩
    · rfl
    · rcases Tally.getElem?_set_cases hj' with ⟨rfl, rfl⟩ | ⟨hjk', hj'⟩
      · exact h.reused j k e₁ e hlt' hj hk hsame
      · exact h.reused j j' e₁ e₂ hlt' hj hj' hsame

def Retires (s s' : Session) (k : Nat) : Prop :=
  s' = s ∨ ∃ e, s.opened[k]? = some e ∧ (e.wireId, k) ∈ s.streams ∧ s' = s.retire k e

theorem retire_gone (hgone : s.Gone) (h : s.Inv) (hk : s.opened[k]? = some e) : (s.retire k e).Gone := by
  intro id j e' hin hj
  have hin : (id, j) ∈ s.streams ∧ id ≠ e.wireId := by
    have hin : (id, j) ∈ s.streams.filter (fun x => x.1 != e.wireId) := hin
    simpa [mem_filter] using hin
  rcases Tally.getElem?_set_cases hj with ⟨rfl, rfl⟩ | ⟨hjk, hj⟩
  · obtain ⟨e'', hk', hid⟩ := h.owns id k hin.1
    rw [hk] at hk'
    cases hk'
    exact absurd hid.symm hin.2
  · exact hgone id j e' hin.1 hj

theorem set_inv (h : s.Inv) {e' : StreamEntry} (hk : s.opened[k]? = some e) (hid : e'.wireId = e.wireId)
    (hlive : e'.closed = false ∨ e'.pending = true → e.closed = false ∨ e.pending = true)
    (hclosed : e.closed = true → e'.closed = true) :
    ({ s with opened := s.opened.set k e' } : Session).Inv := by
  have hlt := (List.getElem?_eq_some_iff.1 hk).1
  refine ⟨h.keys, fun id j hin => ?_, fun j e₁ hj hneeds => ?_, fun j j' e₁ e₂ hlt' hj hj' hsame => ?_⟩
  · obtain ⟨e₁, hj, hid₁⟩ := h.owns id j hin
    by_cases hjk : k = j
    · subst hjk
      rw [hk] at hj
      cases hj
      exact ⟨e', getElem?_set_self hlt, hid.trans hid₁⟩
    · exact ⟨e₁, (getElem?_set_ne hjk).trans hj, hid₁⟩
  · rcases Tally.getElem?_set_cases hj with ⟨rfl, rfl⟩ | ⟨-, hj⟩
    · rw [hid]
      exact h.has k e hk (hlive hneeds)
    · exact h.has j e₁ hj hneeds
  · rcases Tally.getElem?_set_cases hj with ⟨rfl, rfl⟩ | ⟨-, hold⟩
    · rcases Tally.getElem?_set_cases hj' with ⟨rfl, -⟩ | ⟨-, hold'⟩
      · omega
      · exact hclosed (h.reused k j' e e₂ hlt' hk hold' (hid.symm.trans hsame))
    · rcases Tally.getElem?_set_cases hj' with ⟨rfl, rfl⟩ | ⟨-, hold'⟩
      · exact h.reused j k e₁ e hlt' hold hk (hsame.trans hid)
      · exact h.reused j j' e₁ e₂ hlt' hold hold' hsame

theorem openWritten_cases (s : Session) (k : Nat) : s.openWritten k = s ∨
    ∃ e, s.opened[k]? = some e ∧ s.openWritten k =
    { s with opened := s.opened.set k { e with pending := false } } := by
  unfold openWritten
  split
  · exact .inl rfl
  · rename_i e hk
    split
    · exact .inr ⟨e, hk, rfl⟩
    · exact .inl rfl

theorem openFailed_retires (h : s.Inv) (k : Nat) : s.Retires (s.openFailed k) k := by
  unfold openFailed
  split
  · exact .inl rfl
  · rename_i e hk
    split
    · rename_i hpending
      exact .inr ⟨e, hk, h.has k e hk (.inr hpending), rfl⟩
    · exact .inl rfl

theorem close_retires (h : s.Inv) (k : Nat) : s.Retires (s.close k) k := by
  unfold close
  split
  · exact .inl rfl
  · rename_i e hk
    split
    · exact .inl rfl
    · rename_i hopen
      exact .inr ⟨e, hk, h.has k e hk (.inl (by simpa using hopen)), rfl⟩

theorem cancel_retires (h : s.Inv) (k : Nat) : s.Retires (s.cancel k) k := by
  unfold cancel
  split
  · exact .inl rfl
  · rename_i e hk
    split
    · rename_i hpending
      exact .inr ⟨e, hk, h.has k e hk (.inr hpending), rfl⟩
    · split
      · exact close_retires h k
      · exact .inl rfl

variable {s' : Session}

theorem Retires.inv (hretires : s.Retires s' k) (h : s.Inv) : s'.Inv := by
  rcases hretires with rfl | ⟨e, hk, hmem, rfl⟩
  · exact h
  · exact retire_inv h hk hmem

theorem Retires.gone (hretires : s.Retires s' k) (h : s.Inv) (hgone : s.Gone) : s'.Gone := by
  rcases hretires with rfl | ⟨e, hk, -, rfl⟩
  · exact hgone
  · exact retire_gone hgone h hk

theorem openWritten_inv (h : s.Inv) (k : Nat) : (s.openWritten k).Inv := by
  obtain hsame | ⟨e, hk, heq⟩ := openWritten_cases s k
  · rw [hsame]
    exact h
  · rw [heq]
    exact set_inv h hk rfl (fun hlive => hlive.imp id nofun) id

theorem openWritten_gone (hgone : s.Gone) (k : Nat) : (s.openWritten k).Gone := by
  obtain hsame | ⟨e, hk, heq⟩ := openWritten_cases s k
  · rw [hsame]
    exact hgone
  · rw [heq]
    intro id j e' hmem hj
    rcases Tally.getElem?_set_cases hj with ⟨rfl, rfl⟩ | ⟨-, hj⟩
    · exact hgone id k e hmem hk
    · exact hgone id j e' hmem hj

theorem openStream_gone (hgone : s.Gone) (bidirectional expired : Bool) :
    (s.openStream o bidirectional expired).Gone := by
  obtain ⟨next, heq⟩ | ⟨next, wireId, -, heq⟩ := openStream_cases o s bidirectional expired
  · rw [heq]
    exact hgone
  · rw [heq]
    intro id k e hmem hk
    rcases Tally.getElem?_concat_cases hk with hold | ⟨rfl, rfl⟩
    · rcases mem_append.1 hmem with hin | hnew
      · exact hgone id k e hin hold
      · cases mem_singleton.1 hnew
        exact absurd (List.getElem?_eq_some_iff.1 hold).1 (Nat.lt_irrefl _)
    · rfl

theorem remoteError_cases (o : Limits) (s : Session) (wireId : Nat) : s.remoteError o wireId = s ∨
    ∃ k e, s.closed = false ∧ o.protocol = .v2ray ∧ s.findStream wireId = some k ∧ s.opened[k]? = some e ∧
      s.remoteError o wireId = { s with opened := s.opened.set k { e with closed := true } } := by
  unfold remoteError
  split
  · exact .inl rfl
  · rename_i hopen
    rw [not_or, not_not] at hopen
    split
    · exact .inl rfl
    · rename_i k hfound
      split
      · exact .inl rfl
      · rename_i e hk
        exact .inr ⟨k, e, by simpa using hopen.1, hopen.2, hfound, hk, rfl⟩

theorem remoteError_inv (h : s.Inv) (wireId : Nat) : (s.remoteError o wireId).Inv := by
  obtain hsame | ⟨k, e, -, -, -, hk, heq⟩ := remoteError_cases o s wireId
  · rw [hsame]
    exact h
  · rw [heq]
    exact set_inv h hk rfl (fun hlive => hlive.elim (nofun) .inr) fun _ => rfl

theorem fail_inv (h : s.Inv) : s.fail.Inv := by
  unfold fail
  split
  · exact h
  · have hmapped : ∀ (k : Nat) (e' : StreamEntry), (s.opened.mapIdx fun k e =>
        if e.pending ∨ s.streams.any (fun x => x.2 == k) then
          { e with closed := true, pending := false } else e)[k]? = some e' →
        ∃ e, s.opened[k]? = some e ∧ e'.wireId = e.wireId ∧ e'.closed = true ∧ e'.pending = false := by
      intro k e' hk
      rw [getElem?_mapIdx] at hk
      obtain ⟨e, he, rfl⟩ := Option.map_eq_some_iff.1 hk
      refine ⟨e, he, ?_⟩
      by_cases htaken : e.pending = true ∨ s.streams.any (fun x => x.2 == k) = true
      · rw [if_pos htaken]
        exact ⟨rfl, rfl, rfl⟩
      · rw [if_neg htaken]
        rw [not_or] at htaken
        refine ⟨rfl, ?_, by simpa using htaken.1⟩
        by_contra hopen
        exact htaken.2 (any_eq_true.2 ⟨_, h.has k e he (.inl (by simpa using hopen)), by simp⟩)
    refine ⟨nodup_nil, fun id k hmem => absurd hmem not_mem_nil, fun k e' hk hlive => ?_,
      fun k k' e' e'' _ hk _ _ => ?_⟩
    · obtain ⟨e, -, -, hclosed, hpending⟩ := hmapped k e' hk
      rw [hclosed, hpending] at hlive
      rcases hlive with hlive | hlive <;> cases hlive
    · obtain ⟨e, -, -, hclosed, -⟩ := hmapped k e' hk
      exact hclosed

/-! ## A step -/

theorem step_inv (h : s.Inv) (e : Event) : (s.step o e).Inv := by
  cases e with
  | openStream bidirectional expired => exact openStream_inv h bidirectional expired
  | openWritten k => exact openWritten_inv h k
  | openFailed k => exact (openFailed_retires h k).inv h
  | cancel k => exact (cancel_retires h k).inv h
  | close k => exact (close_retires h k).inv h
  | remoteEnd wireId => exact h
  | remoteError wireId => exact remoteError_inv h wireId
  | fail => exact fail_inv h

theorem step_gone (h : s.Inv) (hgone : s.Gone) (e : Event) (hmeets : s.Meets o e) : (s.step o e).Gone := by
  cases e with
  | openStream bidirectional expired => exact openStream_gone hgone bidirectional expired
  | openWritten k => exact openWritten_gone hgone k
  | openFailed k => exact (openFailed_retires h k).gone h hgone
  | cancel k => exact (cancel_retires h k).gone h hgone
  | close k => exact (close_retires h k).gone h hgone
  | remoteEnd wireId => exact hgone
  | remoteError wireId =>
    show (s.remoteError o wireId).Gone
    obtain hsame | ⟨k, e, hopen, hv2ray, hfound, -, -⟩ := remoteError_cases o s wireId
    · rw [hsame]
      exact hgone
    · exact nomatch (hmeets hopen hv2ray).symm.trans hfound
  | fail =>
    show s.fail.Gone
    unfold fail
    split
    · exact hgone
    · exact fun _ _ _ hmem => absurd hmem not_mem_nil

theorem not_tidy_step (h : s.Inv) (e : Event) (hmeets : ¬ s.Meets o e) : ¬ (s.step o e).Tidy := by
  cases e with
  | remoteError wireId =>
    obtain ⟨hopen, hmeets⟩ := Classical.not_imp.1 hmeets
    obtain ⟨hv2ray, hfound⟩ := Classical.not_imp.1 hmeets
    obtain ⟨k, hfound⟩ := Option.ne_none_iff_exists'.1 hfound
    obtain ⟨e, hk, -⟩ := h.owns wireId k (mem_of_findStream hfound)
    have hstep : s.step o (.remoteError wireId) =
      { s with opened := s.opened.set k { e with closed := true } } := by
      show s.remoteError o wireId = _
      unfold remoteError
      rw [if_neg (by rw [hopen, hv2ray]; simp), hfound]
      dsimp only
      rw [hk]
    intro htidy
    rw [hstep] at htidy
    exact Bool.noConfusion (htidy.gone wireId k { e with closed := true } (mem_of_findStream hfound)
      (getElem?_set_self (List.getElem?_eq_some_iff.1 hk).1))
  | openStream bidirectional expired => exact absurd trivial hmeets
  | openWritten k => exact absurd trivial hmeets
  | openFailed k => exact absurd trivial hmeets
  | cancel k => exact absurd trivial hmeets
  | close k => exact absurd trivial hmeets
  | remoteEnd wireId => exact absurd trivial hmeets
  | fail => exact absurd trivial hmeets

theorem inv_start : ({} : Session).Inv where
  keys := nodup_nil
  owns _ _ hmem := absurd hmem not_mem_nil
  has _ _ hk := nomatch hk
  reused _ _ _ _ _ hk := nomatch hk

end Session

/-- An error frame closes a stream: closing it does not take it out of the table any more. -/
theorem error_leaves_stream :
    let o : Limits := ⟨.v2ray, 8⟩
    let s := run o [.openStream true false, .openWritten 0, .remoteError 1, .close 0]
    s.streams = [(1, 0)] ∧ s.opened = [⟨1, true, false⟩] ∧ ¬ s.Tidy := by
  refine ⟨by decide, by decide, fun h => ?_⟩
  exact absurd (h.gone 1 0 ⟨1, true, false⟩ (by decide) (by decide)) (by decide)

/-- **In every state of a run what is closed is gone from the table and the wire ids of the streams that
live are distinct, if and only if** no v2ray error frame of the run names a stream that the session has.
-/
theorem tidy_iff_meets (o : Limits) (events : List Event) :
    (∀ before, before <+: events → (run o before).Tidy) ↔
    Runs.Along (Session.step o) (Session.Meets o) {} events :=
  Runs.forall_prefix_iff_along (P := fun s : Session => s.Inv ∧ s.Gone) (fun _ h => h.1.tidy h.2)
    (fun _ e h hmeets => ⟨Session.step_inv h.1 e, Session.step_gone h.1 h.2 e hmeets⟩)
    (fun _ e h hmeets => Session.not_tidy_step h.1 e hmeets)
    ⟨Session.inv_start, fun _ _ _ hmem => absurd hmem not_mem_nil⟩ events

end ClashNative.WebSocketMuxTable
