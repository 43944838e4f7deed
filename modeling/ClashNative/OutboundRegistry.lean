import ClashNative.CoreTypes
import Mathlib.Data.List.Rotate
import Mathlib.Logic.Function.Iterate
/-!
# OutboundRegistry — outbounds, groups of them, and what a group promises

`src/outbound/outbound_registry.cpp`: registration, `validate`, `capabilities` and `select`.  The three
walks recurse through the groups under one `visiting` list, which is what bounds them: each group is
entered at most once on a path.
-/
namespace ClashNative.OutboundRegistry

open List

inductive DatagramSemantics
  | unsupported | fixedDestination | multiDestination
  deriving DecidableEq, Repr

inductive TargetRequirement
  | domainOrIp | ipRequired
  deriving DecidableEq, Repr

/-- `core::OutboundCapabilities`, with its defaults. -/
structure OutboundCapabilities where
  stream : Bool := false
  datagram : DatagramSemantics := .unsupported
  streamTarget : TargetRequirement := .domainOrIp
  datagramTarget : TargetRequirement := .domainOrIp
  deriving DecidableEq, Repr

/-- The body of the loop in `capabilities_entry`: one member's capabilities taken into `combined`. -/
def OutboundCapabilities.combine (combined capabilities : OutboundCapabilities) : OutboundCapabilities where
  stream := combined.stream && capabilities.stream
  datagram :=
    if capabilities.datagram = .unsupported then .unsupported
    else if capabilities.datagram = .fixedDestination ∧ combined.datagram ≠ .unsupported then .fixedDestination
    else combined.datagram
  streamTarget := if capabilities.streamTarget = .ipRequired then .ipRequired else combined.streamTarget
  datagramTarget := if capabilities.datagramTarget = .ipRequired then .ipRequired else combined.datagramTarget

def OutboundCapabilities.everything : OutboundCapabilities where
  stream := true
  datagram := .multiDestination

/-- `OutboundRegistry::Group`, without its counter.  `add_group` refuses an empty list. -/
structure Group where
  members : List String
  members_ne : members ≠ []

/-- `OutboundRegistry`: `outbounds_` and `groups_`, each in its order of iteration.  `add_outbound` and
`add_group` refuse an identifier that is taken. -/
structure Registry (Outbound : Type) where
  outbounds : List (String × Outbound) := []
  groups : List (String × Group) := []
  nodup : (outbounds.map Prod.fst ++ groups.map Prod.fst).Nodup := by simp

/-- The groups' `next_member`, `std::size_t` each. -/
abbrev Counters := String → UInt64

/-- `fetch_add(1)` on one group's counter; what it returns is the counter before. -/
def Counters.bump (cs : Counters) (id : String) : Counters :=
  fun other => if other = id then cs id + 1 else cs other

def configurationError (context : String) : Error := ⟨.configuration, context⟩

def unknownTarget (id : String) : Error := configurationError ("unknown outbound target: " ++ id)

def dependencyCycle (id : String) : Error := configurationError ("outbound group dependency cycle at: " ++ id)

def noUsableMember (id : String) : Error := configurationError ("outbound group has no usable member: " ++ id)

def duplicateEntry (id : String) : Error := configurationError ("duplicate outbound entry: " ++ id)

variable {Outbound : Type}

namespace Registry

def ids (r : Registry Outbound) : List String := r.outbounds.map Prod.fst ++ r.groups.map Prod.fst

variable {id : String}

theorem nodup_add_outbound (r : Registry Outbound) (outbound : Outbound) (h : id ∉ r.ids) :
    ((r.outbounds ++ [(id, outbound)]).map Prod.fst ++ r.groups.map Prod.fst).Nodup := by
  have hp : (r.outbounds.map Prod.fst ++ id :: r.groups.map Prod.fst).Perm (id :: r.ids) := perm_middle
  rw [map_append, append_assoc]
  exact hp.nodup_iff.2 (nodup_cons.2 ⟨h, r.nodup⟩)

theorem nodup_add_group (r : Registry Outbound) (group : Group) (h : id ∉ r.ids) :
    (r.outbounds.map Prod.fst ++ (r.groups ++ [(id, group)]).map Prod.fst).Nodup := by
  rw [map_append, ← append_assoc]
  exact nodup_append.2 ⟨r.nodup, by simp, fun a ha b hb hab => by
    simp only [map_cons, map_nil, mem_singleton] at hb
    exact h (hb ▸ hab ▸ ha)⟩

def addOutbound (r : Registry Outbound) (id : String) (outbound : Option Outbound) :
    Except Error (Registry Outbound) :=
  match outbound with
  | none => .error (configurationError "outbound ID and instance are required")
  | some outbound =>
    if id = "" then .error (configurationError "outbound ID and instance are required")
    else if h : id ∈ r.ids then .error (duplicateEntry id)
    else .ok { r with outbounds := r.outbounds ++ [(id, outbound)], nodup := r.nodup_add_outbound outbound h }

def addGroup (r : Registry Outbound) (id : String) (members : List String) : Except Error (Registry Outbound) :=
  if id = "" then .error (configurationError "outbound group ID and members are required")
  else if hm : members = [] then .error (configurationError "outbound group ID and members are required")
  else if h : id ∈ r.ids then .error (duplicateEntry id)
  else if "" ∈ members then .error (configurationError "outbound group members cannot be empty")
  else .ok { r with groups := r.groups ++ [(id, ⟨members, hm⟩)], nodup := r.nodup_add_group ⟨members, hm⟩ h }

def unvisited (r : Registry Outbound) (visiting : List String) : Nat :=
  r.groups.countP fun entry => entry.1 ∉ visiting

variable {visiting : List String}

theorem countP_visit (hv : id ∉ visiting) :
    ∀ (groups : List (String × Group)), (∃ g, groups.lookup id = some g) →
      groups.countP (fun entry => entry.1 ∉ visiting ++ [id]) < groups.countP fun entry => entry.1 ∉ visiting
  | [], h => by simp at h
  | (other, g) :: groups, h => by
    have hle : groups.countP (fun entry => entry.1 ∉ visiting ++ [id]) ≤
        groups.countP fun entry => entry.1 ∉ visiting :=
      countP_mono_left fun entry _ he => by
        simp only [mem_append, not_or, decide_eq_true_eq] at he
        exact decide_eq_true he.1
    rw [countP_cons, countP_cons]
    by_cases ho : other = id
    · subst ho
      rw [if_neg (by simp), if_pos (by simpa using hv)]
      omega
    · have ht : ∃ g, groups.lookup id = some g := by
        simpa [lookup_cons, beq_false_of_ne (Ne.symm ho)] using h
      have hlt := countP_visit hv groups ht
      by_cases hm : other ∈ visiting
      · rw [if_neg (by simp [hm]), if_neg (by simp [hm])]
        omega
      · rw [if_pos (by simp [hm, ho]), if_pos (by simp [hm])]
        omega

theorem unvisited_lt (r : Registry Outbound) {g : Group}
    (hg : r.groups.lookup id = some g) (hv : id ∉ visiting) :
    r.unvisited (visiting ++ [id]) < r.unvisited visiting :=
  countP_visit hv r.groups ⟨g, hg⟩

mutual

def validateGroup (r : Registry Outbound) (id : String) (visiting : List String) : Except Error Unit :=
  match r.outbounds.lookup id with
  | some _ => .ok ()
  | none =>
    match hg : r.groups.lookup id with
    | none => .error (unknownTarget id)
    | some group =>
      if hv : id ∈ visiting then .error (dependencyCycle id)
      else
        have := r.unvisited_lt hg hv
        validateMembers r group.members (visiting ++ [id])
termination_by (r.unvisited visiting, 0)

/-- The loop of `validate_group`: the first member that fails ends it. -/
def validateMembers (r : Registry Outbound) (members : List String)
    (visiting : List String) : Except Error Unit :=
  match members with
  | [] => .ok ()
  | member :: rest =>
    match validateGroup r member visiting with
    | .error e => .error e
    | .ok () => validateMembers r rest visiting
termination_by (r.unvisited visiting, members.length + 1)

end

def validate (r : Registry Outbound) : Except Error Unit := validateMembers r (r.groups.map Prod.fst) []

section Capabilities
variable (capabilitiesOf : Outbound → OutboundCapabilities)

mutual

/-- `capabilities_entry`, where `capabilitiesOf` is the outbounds' own `capabilities`. -/
def capabilitiesEntry (r : Registry Outbound) (id : String) (visiting : List String) :
    Except Error OutboundCapabilities :=
  match r.outbounds.lookup id with
  | some outbound => .ok (capabilitiesOf outbound)
  | none =>
    match hg : r.groups.lookup id with
    | none => .error (unknownTarget id)
    | some group =>
      if hv : id ∈ visiting then .error (dependencyCycle id)
      else
        have := r.unvisited_lt hg hv
        capabilitiesMembers r .everything group.members (visiting ++ [id])
termination_by (r.unvisited visiting, 0)

/-- The loop of `capabilities_entry` over the members still to come. -/
def capabilitiesMembers (r : Registry Outbound) (combined : OutboundCapabilities)
    (members visiting : List String) :
    Except Error OutboundCapabilities :=
  match members with
  | [] => .ok combined
  | member :: rest =>
    match capabilitiesEntry r member visiting with
    | .error e => .error e
    | .ok capabilities => capabilitiesMembers r (combined.combine capabilities) rest visiting
termination_by (r.unvisited visiting, members.length + 1)

end

def capabilities (r : Registry Outbound) (id : String) : Except Error OutboundCapabilities :=
  capabilitiesEntry capabilitiesOf r id []

end Capabilities

end Registry

theorem Group.size_pos (g : Group) : 0 < g.members.length := length_pos_iff.2 g.members_ne

/-- The order in which `select_entry` tries the members: `members[(begin + offset) % size]`. -/
def Group.rotation (g : Group) (start : Nat) : List String :=
  (List.range g.members.length).map fun offset =>
    g.members.get ⟨(start + offset) % g.members.length, Nat.mod_lt _ g.size_pos⟩

namespace Registry

mutual

/-- `select_entry`.  The group's counter moves on before the first member is tried. -/
def selectEntry (r : Registry Outbound) (id : String) (visiting : List String) (cs : Counters) :
    Except Error Outbound × Counters :=
  match r.outbounds.lookup id with
  | some outbound => (.ok outbound, cs)
  | none =>
    match hg : r.groups.lookup id with
    | none => (.error (unknownTarget id), cs)
    | some group =>
      if hv : id ∈ visiting then (.error (dependencyCycle id), cs)
      else
        have := r.unvisited_lt hg hv
        selectMembers r (group.rotation ((cs id).toNat % group.members.length)) (visiting ++ [id])
          (.error (noUsableMember id)) (cs.bump id)
termination_by (r.unvisited visiting, 0)

/-- The loop of `select_entry`: the first member that succeeds ends it. -/
def selectMembers (r : Registry Outbound) (members visiting : List String) (lastError : Except Error Outbound)
    (cs : Counters) : Except Error Outbound × Counters :=
  match members with
  | [] => (lastError, cs)
  | member :: rest =>
    match selectEntry r member visiting cs with
    | (.ok outbound, cs') => (.ok outbound, cs')
    | (.error e, cs') => selectMembers r rest visiting (.error e) cs'
termination_by (r.unvisited visiting, members.length + 1)

end

def select (r : Registry Outbound) (cs : Counters) (id : String) : Except Error Outbound × Counters :=
  selectEntry r id [] cs

/-- An outbound that an identifier can resolve to: its own, or one that a member of its group can. -/
inductive Reaches (r : Registry Outbound) : String → Outbound → Prop
  | outbound {id : String} {o : Outbound} (h : r.outbounds.lookup id = some o) : Reaches r id o
  | member {id m : String} {g : Group} {o : Outbound} (hn : r.outbounds.lookup id = none)
      (hg : r.groups.lookup id = some g) (hm : m ∈ g.members) (h : Reaches r m o) : Reaches r id o

variable {r : Registry Outbound} {id : String} {visiting : List String} {o : Outbound}

theorem reaches_outbound {p : Outbound} (ho : r.outbounds.lookup id = some o) : Reaches r id p ↔ p = o := by
  constructor
  · rintro (h | ⟨hn, -, -, -⟩)
    · exact Option.some.inj (h.symm.trans ho)
    · rw [ho] at hn; cases hn
  · rintro rfl
    exact .outbound ho

variable {g : Group}

theorem reaches_group (hn : r.outbounds.lookup id = none)
    (hg : r.groups.lookup id = some g) : Reaches r id o ↔ ∃ m ∈ g.members, Reaches r m o := by
  constructor
  · rintro (h | ⟨-, hg', hm, h⟩)
    · rw [hn] at h; cases h
    · obtain rfl := Option.some.inj (hg'.symm.trans hg)
      exact ⟨_, hm, h⟩
  · rintro ⟨m, hm, h⟩
    exact .member hn hg hm h

/-! ### What `validate` checked -/

theorem validateMembers_ok : ∀ (members : List String), validateMembers r members visiting = .ok () →
    ∀ m ∈ members, validateGroup r m visiting = .ok ()
  | [], _, m, hm => by cases hm
  | member :: rest, h, m, hm => by
    unfold validateMembers at h
    cases hv : validateGroup r member visiting with
    | error e => rw [hv] at h; cases h
    | ok u =>
      rw [hv] at h
      rcases mem_cons.1 hm with rfl | hm
      · exact hv
      · exact validateMembers_ok rest h m hm

theorem validateGroup_ok (h : validateGroup r id visiting = .ok ()) :
    (∃ o, r.outbounds.lookup id = some o) ∨
    ∃ g, r.outbounds.lookup id = none ∧ r.groups.lookup id = some g ∧ id ∉ visiting ∧
      ∀ m ∈ g.members, validateGroup r m (visiting ++ [id]) = .ok () := by
  unfold validateGroup at h
  cases ho : r.outbounds.lookup id with
  | some o => exact .inl ⟨o, rfl⟩
  | none =>
    rw [ho] at h
    dsimp only at h
    split at h
    · cases h
    · rename_i g hg
      split at h
      · cases h
      · rename_i hv
        exact .inr ⟨g, rfl, hg, hv, validateMembers_ok g.members h⟩

/-- **Induction along a successful `validate_group`**: a property of every outbound, and of every group
whose members have it one group deeper, is a property of what was validated. -/
@[elab_as_elim]
theorem validated_induction {P : String → List String → Prop}
    (outbound : ∀ (id : String) (visiting : List String) (o : Outbound), r.outbounds.lookup id =
      some o → P id visiting)
    (group : ∀ (id : String) (visiting : List String) (g : Group), r.outbounds.lookup id = none →
      r.groups.lookup id = some g → id ∉ visiting → (∀ m ∈ g.members, P m (visiting ++ [id])) → P id visiting)
    (id : String) (visiting : List String) (h : validateGroup r id visiting = .ok ()) : P id visiting := by
  obtain ⟨o, ho⟩ | ⟨g, hn, hg, hv, hm⟩ := validateGroup_ok h
  · exact outbound id visiting o ho
  · have := r.unvisited_lt hg hv
    exact group id visiting g hn hg hv fun m hmem =>
      validated_induction outbound group m (visiting ++ [id]) (hm m hmem)
termination_by r.unvisited visiting

theorem lookup_of_mem_ids (h : id ∈ r.ids) :
    (∃ o, r.outbounds.lookup id = some o) ∨ id ∈ r.groups.map Prod.fst := by
  rcases mem_append.1 h with h | h
  · refine .inl (Option.isSome_iff_exists.1 ?_)
    obtain ⟨entry, he, rfl⟩ := mem_map.1 h
    exact lookup_isSome_iff.2 ⟨entry, he, by simp⟩
  · exact .inr h

theorem validate_ok (hv : r.validate = .ok ()) (hid : id ∈ r.ids) : validateGroup r id [] = .ok () := by
  rcases lookup_of_mem_ids hid with ⟨o, ho⟩ | hid
  · unfold validateGroup
    rw [ho]
  · exact validateMembers_ok _ hv id hid

/-! ### The other two walks, one equation for each kind of entry -/

theorem selectEntry_outbound (cs : Counters) (ho : r.outbounds.lookup id = some o) :
    selectEntry r id visiting cs = (.ok o, cs) := by
  unfold selectEntry
  rw [ho]

theorem selectEntry_group (cs : Counters) (hn : r.outbounds.lookup id = none)
    (hg : r.groups.lookup id = some g) (hv : id ∉ visiting) :
    selectEntry r id visiting cs =
      selectMembers r (g.rotation ((cs id).toNat % g.members.length)) (visiting ++ [id])
      (.error (noUsableMember id))
        (cs.bump id) := by
  rw [selectEntry.eq_def, hn]
  dsimp only
  split
  · rename_i hg'
    rw [hg] at hg'; cases hg'
  · rename_i g' hg'
    obtain rfl := Option.some.inj (hg.symm.trans hg')
    rw [dif_neg hv]

variable {capabilitiesOf : Outbound → OutboundCapabilities}

theorem capabilitiesEntry_outbound (ho : r.outbounds.lookup id = some o) :
    capabilitiesEntry capabilitiesOf r id visiting = .ok (capabilitiesOf o) := by
  unfold capabilitiesEntry
  rw [ho]

theorem capabilitiesEntry_group (hn : r.outbounds.lookup id = none) (hg : r.groups.lookup id = some g)
    (hv : id ∉ visiting) :
    capabilitiesEntry capabilitiesOf r id visiting =
      capabilitiesMembers capabilitiesOf r .everything g.members (visiting ++ [id]) := by
  rw [capabilitiesEntry.eq_def, hn]
  dsimp only
  split
  · rename_i hg'
    rw [hg] at hg'; cases hg'
  · rename_i g' hg'
    obtain rfl := Option.some.inj (hg.symm.trans hg')
    rw [dif_neg hv]

end Registry

/-! ### What one outbound offers against what another promises -/

/-- The order of `DatagramSemantics`: how much an association can do. -/
def DatagramSemantics.rank : DatagramSemantics → Nat
  | unsupported => 0
  | fixedDestination => 1
  | multiDestination => 2

/-- The order of `TargetRequirement`: how many kinds of target are taken. -/
def TargetRequirement.rank : TargetRequirement → Nat
  | ipRequired => 0
  | domainOrIp => 1

/-- An outbound of capabilities `offered` satisfies the capabilities `promised`. -/
structure OutboundCapabilities.Serves (offered promised : OutboundCapabilities) : Prop where
  stream : promised.stream = true → offered.stream = true
  datagram : promised.datagram.rank ≤ offered.datagram.rank
  streamTarget : promised.streamTarget.rank ≤ offered.streamTarget.rank
  datagramTarget : promised.datagramTarget.rank ≤ offered.datagramTarget.rank

theorem OutboundCapabilities.Serves.refl (c : OutboundCapabilities) : c.Serves c :=
  ⟨id, Nat.le_refl _, Nat.le_refl _, Nat.le_refl _⟩

theorem OutboundCapabilities.everything_serves (c : OutboundCapabilities) : everything.Serves c where
  stream _ := rfl
  datagram := by cases c.datagram <;> decide
  streamTarget := by cases c.streamTarget <;> decide
  datagramTarget := by cases c.datagramTarget <;> decide

theorem OutboundCapabilities.rank_combine_datagram (a b : OutboundCapabilities) :
    (a.combine b).datagram.rank = min a.datagram.rank b.datagram.rank := by
  unfold combine
  cases a.datagram <;> cases b.datagram <;> rfl

theorem OutboundCapabilities.rank_combine_streamTarget (a b : OutboundCapabilities) :
    (a.combine b).streamTarget.rank = min a.streamTarget.rank b.streamTarget.rank := by
  unfold combine
  cases a.streamTarget <;> cases b.streamTarget <;> rfl

theorem OutboundCapabilities.rank_combine_datagramTarget (a b : OutboundCapabilities) :
    (a.combine b).datagramTarget.rank = min a.datagramTarget.rank b.datagramTarget.rank := by
  unfold combine
  cases a.datagramTarget <;> cases b.datagramTarget <;> rfl

theorem OutboundCapabilities.combine_serves_iff (a b c : OutboundCapabilities) :
    (a.combine b).Serves c ↔ a.Serves c ∧ b.Serves c := by
  have hs : (a.combine b).stream = (a.stream && b.stream) := rfl
  constructor
  · rintro ⟨h1, h2, h3, h4⟩
    rw [rank_combine_datagram, Nat.le_min] at h2
    rw [rank_combine_streamTarget, Nat.le_min] at h3
    rw [rank_combine_datagramTarget, Nat.le_min] at h4
    rw [hs, Bool.and_eq_true] at h1
    exact ⟨⟨fun h => (h1 h).1, h2.1, h3.1, h4.1⟩, ⟨fun h => (h1 h).2, h2.2, h3.2, h4.2⟩⟩
  · rintro ⟨ha, hb⟩
    refine ⟨fun h => ?_, ?_, ?_, ?_⟩
    · rw [hs, ha.stream h, hb.stream h]; rfl
    · rw [rank_combine_datagram]
      exact Nat.le_min.2 ⟨ha.datagram, hb.datagram⟩
    · rw [rank_combine_streamTarget]
      exact Nat.le_min.2 ⟨ha.streamTarget, hb.streamTarget⟩
    · rw [rank_combine_datagramTarget]
      exact Nat.le_min.2 ⟨ha.datagramTarget, hb.datagramTarget⟩

theorem Group.mem_of_mem_rotation {g : Group} {start : Nat} {m : String} (h : m ∈ g.rotation start) :
    m ∈ g.members := by
  obtain ⟨offset, -, rfl⟩ := mem_map.1 h
  exact get_mem _ _

theorem Group.rotation_ne (g : Group) (start : Nat) : g.rotation start ≠ [] := by
  intro h
  have hl := congrArg List.length h
  rw [rotation, length_map, length_range] at hl
  exact absurd hl (Nat.ne_of_gt g.size_pos)

namespace Registry

variable {r : Registry Outbound} {capabilitiesOf : Outbound → OutboundCapabilities}

theorem capabilitiesMembers_ok {visiting : List String} :
    ∀ (members : List String) (combined : OutboundCapabilities),
      (∀ m ∈ members, ∃ c, capabilitiesEntry capabilitiesOf r m visiting = .ok c ∧
        ∀ need, c.Serves need ↔ ∀ o, Reaches r m o → (capabilitiesOf o).Serves need) →
      ∃ c, capabilitiesMembers capabilitiesOf r combined members visiting = .ok c ∧
        ∀ need, c.Serves need ↔
          combined.Serves need ∧ ∀ m ∈ members, ∀ o, Reaches r m o → (capabilitiesOf o).Serves need
  | [], combined, _ => ⟨combined, by unfold capabilitiesMembers; rfl, by simp⟩
  | member :: rest, combined, h => by
    obtain ⟨c, hc, hs⟩ := h member (mem_cons_self ..)
    obtain ⟨d, hd, ht⟩ := capabilitiesMembers_ok rest (combined.combine c) fun m hm => h m (mem_cons_of_mem _ hm)
    refine ⟨d, ?_, fun need => ?_⟩
    · rw [capabilitiesMembers, hc]
      exact hd
    · rw [ht, OutboundCapabilities.combine_serves_iff, hs, forall_mem_cons, and_assoc]

theorem capabilitiesEntry_ok (id : String) (visiting : List String) (h : validateGroup r id visiting = .ok ()) :
    ∃ c, capabilitiesEntry capabilitiesOf r id visiting = .ok c ∧
      ∀ need, c.Serves need ↔ ∀ o, Reaches r id o → (capabilitiesOf o).Serves need := by
  refine validated_induction ?_ ?_ id visiting h
  · intro id visiting o ho
    refine ⟨capabilitiesOf o, capabilitiesEntry_outbound ho, fun need => ?_⟩
    simp only [reaches_outbound ho, forall_eq]
  · intro id visiting g hn hg hv hm
    obtain ⟨c, hc, hs⟩ := capabilitiesMembers_ok g.members .everything hm
    refine ⟨c, (capabilitiesEntry_group hn hg hv).trans hc, fun need => ?_⟩
    rw [hs]
    constructor
    · rintro ⟨-, hall⟩ o ho
      obtain ⟨m, hmem, hr⟩ := (reaches_group hn hg).1 ho
      exact hall m hmem o hr
    · intro hall
      exact ⟨OutboundCapabilities.everything_serves need,
        fun m hmem o hr => hall o ((reaches_group hn hg).2 ⟨m, hmem, hr⟩)⟩

theorem selectMembers_ok {visiting : List String} {m : String} {rest : List String} {o : Outbound}
    {last : Except Error Outbound} {cs : Counters} (h : (selectEntry r m visiting cs).1 = .ok o) :
    (selectMembers r (m :: rest) visiting last cs).1 = .ok o := by
  rw [selectMembers]
  cases he : selectEntry r m visiting cs with
  | mk result cs' =>
    rw [he] at h
    subst h
    rfl

theorem selectEntry_ok (id : String) (visiting : List String) (h : validateGroup r id visiting = .ok ()) :
    ∀ cs : Counters, ∃ o, (selectEntry r id visiting cs).1 = .ok o ∧ Reaches r id o := by
  refine validated_induction ?_ ?_ id visiting h
  · intro id visiting o ho cs
    exact ⟨o, by rw [selectEntry_outbound cs ho], .outbound ho⟩
  · intro id visiting g hn hg hv hm cs
    rw [selectEntry_group cs hn hg hv]
    -- the member that the counter points at is tried first, and it resolves
    cases hrot : g.rotation ((cs id).toNat % g.members.length) with
    | nil => exact absurd hrot (g.rotation_ne _)
    | cons m rest =>
      have hmem : m ∈ g.members := Group.mem_of_mem_rotation (hrot ▸ mem_cons_self ..)
      obtain ⟨o, ho, hr⟩ := hm m hmem (cs.bump id)
      exact ⟨o, selectMembers_ok ho, .member hn hg hmem hr⟩

/-- **A registry that validates serves every identifier it lists**: `select` returns an outbound, and the
outbound satisfies the capabilities that the registry advertises for the identifier. -/
theorem select_serves_capabilities (r : Registry Outbound) (capabilitiesOf : Outbound → OutboundCapabilities)
    (hv : r.validate = .ok ()) (cs : Counters) (id : String) (hid : id ∈ r.ids) :
    ∃ o c, (r.select cs id).1 = .ok o ∧ r.capabilities capabilitiesOf id = .ok c ∧
      (capabilitiesOf o).Serves c := by
  have h := validate_ok hv hid
  obtain ⟨o, ho, hr⟩ := selectEntry_ok id [] h cs
  obtain ⟨c, hc, hs⟩ := @capabilitiesEntry_ok _ r capabilitiesOf id [] h
  exact ⟨o, c, ho, hc, (hs c).1 (.refl c) o hr⟩

/-- A TCP-only outbound and a datagram one, a group of both, and a group of that group. -/
def nested : Registry OutboundCapabilities where
  outbounds := [("tcp", { stream := true }), ("udp", { stream := true, datagram := .multiDestination })]
  groups := [("pair", ⟨["tcp", "udp"], by decide⟩), ("all", ⟨["udp", "pair"], by decide⟩)]
  nodup := by decide

theorem nested_validate : nested.validate = .ok () := by
  simp [validate, validateMembers, validateGroup, nested, lookup_cons]

/-- The nested groups, with a counter at its last value. -/
theorem nested_serves : ∃ o c, (nested.select (fun _ => 18446744073709551615) "all").1 = .ok o ∧
    nested.capabilities id "all" = .ok c ∧ (id o).Serves c :=
  select_serves_capabilities nested id nested_validate (fun _ => 18446744073709551615) "all" (by decide)

/-- **What a group advertises is exactly what it can do**: a need is met by the answer of `capabilities`
if and only if all outbounds that the identifier can resolve to meet it. -/
theorem capabilities_exact (hv : r.validate = .ok ()) {id : String} (hid : id ∈ r.ids) :
    ∃ c, r.capabilities capabilitiesOf id = .ok c ∧ ∀ need, c.Serves need ↔ ∀ o, Reaches r id o →
    (capabilitiesOf o).Serves need :=
  capabilitiesEntry_ok id [] (validate_ok hv hid)

theorem nested_exact : ∃ c, nested.capabilities id "all" = .ok c ∧ ∀ need, c.Serves need ↔
    ∀ o, Reaches nested "all" o → (id o).Serves need :=
  capabilities_exact nested_validate (by decide)

/-! ### Turns -/

/-- The member whose turn it is at `count`. -/
def turn (g : Group) (count : UInt64) : String :=
  g.members.get ⟨count.toNat % g.members.length, Nat.mod_lt _ g.size_pos⟩

theorem selectEntry_turn {id : String} {visiting : List String} {g : Group}
    (hn : r.outbounds.lookup id = none) (hg : r.groups.lookup id = some g)
    (hv : id ∉ visiting) (hm : ∀ m ∈ g.members, validateGroup r m (visiting ++ [id]) = .ok ()) (cs : Counters) :
    selectEntry r id visiting cs = selectEntry r (turn g (cs id)) (visiting ++ [id]) (cs.bump id) := by
  obtain ⟨o, ho, -⟩ := selectEntry_ok (turn g (cs id)) _ (hm _ (get_mem _ _)) (cs.bump id)
  obtain ⟨rest, hrest⟩ : ∃ rest, g.rotation ((cs id).toNat % g.members.length) = turn g (cs id) :: rest := by
    obtain ⟨size, hsize⟩ := Nat.exists_eq_add_one.2 g.size_pos
    simp [Group.rotation, turn, hsize, range_succ_eq_map]
  rw [selectEntry_group cs hn hg hv, hrest, selectMembers]
  cases he : selectEntry r (turn g (cs id)) (visiting ++ [id]) (cs.bump id) with
  | mk result cs' =>
    rw [he] at ho
    subst ho
    rfl

theorem selectEntry_counters {id : String} {visiting : List String}
    (h : validateGroup r id visiting = .ok ()) (cs : Counters) {other : String}
    (hother : other ∈ visiting) : (selectEntry r id visiting cs).2 other = cs other := by
  obtain ⟨o, ho⟩ | ⟨g, hn, hg, hv, hm⟩ := validateGroup_ok h
  · rw [selectEntry_outbound cs ho]
  · have := r.unvisited_lt hg hv
    rw [selectEntry_turn hn hg hv hm, selectEntry_counters (hm (turn g (cs id)) (get_mem _ _)) _
      (mem_append_left _ hother)]
    exact if_neg fun heq : other = id => hv (heq ▸ hother)
termination_by r.unvisited visiting

/-- **A group takes its members in turn**, one each call of `select`, from where its counter stands; the
counter wraps. -/
theorem takes_turns (hv : r.validate = .ok ()) {id : String} {g : Group} (hg : r.groups.lookup id = some g)
    (n : Nat) (cs : Counters) :
    ∃ o, (r.select ((fun cs => (r.select cs id).2)^[n] cs) id).1 = .ok o ∧
    Reaches r (turn g (cs id + UInt64.ofNat n)) o := by
  have hmem : ∀ {β : Type} {entries : List (String × β)} {b : β}, entries.lookup id = some b →
    id ∈ entries.map Prod.fst := fun h => by
    obtain ⟨front, back, rfl, -⟩ := lookup_eq_some_iff.1 h
    simp
  obtain ⟨o, ho⟩ | ⟨g', hn, hg', hfree, hm⟩ := validateGroup_ok (validate_ok hv (mem_append_right _ (hmem hg)))
  · exact absurd rfl ((nodup_append.1 r.nodup).2.2 id (hmem ho) id (hmem hg))
  obtain rfl := Option.some.inj (hg.symm.trans hg')
  have hcount : (fun cs => (r.select cs id).2)^[n] cs id = cs id + UInt64.ofNat n := by
    induction n with
    | zero => simp
    | succ n ih =>
      rw [Function.iterate_succ_apply', select, selectEntry_turn hn hg hfree hm,
        selectEntry_counters (hm (turn g _) (get_mem _ _)) _ mem_cons_self, Counters.bump, if_pos rfl, ih,
        UInt64.ofNat_add]
      exact UInt64.add_assoc _ _ _
  rw [← hcount, select, selectEntry_turn hn hg hfree hm]
  exact selectEntry_ok _ _ (hm _ (get_mem _ _)) _

theorem nested_turns : ∃ o, (nested.select
    ((fun cs => (nested.select cs "all").2)^[3] fun _ => 0) "all").1 = .ok o ∧ Reaches nested "pair" o :=
  takes_turns nested_validate (g := ⟨["udp", "pair"], by decide⟩) rfl 3 fun _ => 0

end Registry
end ClashNative.OutboundRegistry
