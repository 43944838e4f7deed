import ClashNative.CoreTypes
import Mathlib.Data.Finset.Card
import Mathlib.Data.Finset.Dedup
import Mathlib.Logic.Relation
/-!
# ResolverGraph — which resolver depends on what, and that bootstrapping needs no resolver

`ResolverDependencyGraph` of `resolver_graph.cpp`.  `validate` walks the graph depth first with `visiting`
and `visited`, then searches from the bootstrap resolver with a stack of its own.
-/
namespace ClashNative.Dns

open List

open Relation (TransGen ReflTransGen)

inductive ResolverRole
  | bootstrap | defaultResolver | proxyEndpoint | direct
  deriving DecidableEq, Repr

inductive DependencyNodeKind
  | resolver | dnsUpstream | outbound | outboundGroup | proxyEndpoint
  deriving DecidableEq, Repr

structure ResolverNode where
  kind : DependencyNodeKind
  role : Option ResolverRole := none
  dependencies : List String := []

/-- `ResolverDependencyGraph`: `nodes_`, in its order of iteration, whichever that is.  An identifier is
taken once, and a dependency is a node. -/
structure ResolverDependencyGraph where
  nodes : List (String × ResolverNode) := []
  nodup : (nodes.map Prod.fst).Nodup := by simp
  closed : ∀ entry ∈ nodes, ∀ id ∈ entry.2.dependencies, id ∈ nodes.map Prod.fst := by simp

namespace ResolverDependencyGraph

def configurationError (context : String) : Error := ⟨.configuration, context⟩

def ids (g : ResolverDependencyGraph) : List String := g.nodes.map Prod.fst

/-! ### Building a graph -/

def emplace (g : ResolverDependencyGraph) (id : String) (kind : DependencyNodeKind)
    (role : Option ResolverRole) (h : id ∉ g.ids) :
    ResolverDependencyGraph where
  nodes := g.nodes ++ [(id, ⟨kind, role, []⟩)]
  nodup := by
    rw [List.map_append, List.map_singleton]
    exact List.nodup_append.2 ⟨g.nodup, List.nodup_singleton _, fun a ha b hb hab => by
      rw [hab, List.mem_singleton.1 hb] at ha
      exact h ha⟩
  closed := by
    intro entry hentry other hother
    rw [List.map_append]
    rcases List.mem_append.1 hentry with hold | hnew
    · exact List.mem_append_left _ (g.closed entry hold other hother)
    · rw [List.mem_singleton.1 hnew] at hother
      cases hother

def addNode (g : ResolverDependencyGraph) (id : String) (kind : DependencyNodeKind) :
    Except Error ResolverDependencyGraph :=
  if id = "" then .error (configurationError "dependency node ID is required")
  else if h : id ∈ g.ids then .error (configurationError ("duplicate dependency node ID: " ++ id))
  else .ok (g.emplace id kind none h)

def addResolver (g : ResolverDependencyGraph) (id : String) (role : ResolverRole) :
    Except Error ResolverDependencyGraph :=
  if id = "" then .error (configurationError "resolver ID is required")
  else if h : id ∈ g.ids then .error (configurationError ("duplicate resolver ID: " ++ id))
  else
    match g.nodes.find? (·.2.role = some role) with
    | some existing => .error (configurationError ("duplicate resolver role for: " ++ existing.1))
    | none => .ok (g.emplace id .resolver (some role) h)

def addDnsUpstream (g : ResolverDependencyGraph) (id : String) : Except Error ResolverDependencyGraph :=
  g.addNode id .dnsUpstream
def addOutbound (g : ResolverDependencyGraph) (id : String) : Except Error ResolverDependencyGraph :=
  g.addNode id .outbound
def addOutboundGroup (g : ResolverDependencyGraph) (id : String) : Except Error ResolverDependencyGraph :=
  g.addNode id .outboundGroup
def addProxyEndpoint (g : ResolverDependencyGraph) (id : String) : Except Error ResolverDependencyGraph :=
  g.addNode id .proxyEndpoint

def depend (resolverId dependencyId : String) (entry : String × ResolverNode) : String × ResolverNode :=
  if entry.1 = resolverId then (entry.1,
    { entry.2 with dependencies := entry.2.dependencies ++ [dependencyId] }) else entry

theorem map_depend (resolverId dependencyId : String) (nodes : List (String × ResolverNode)) :
    (nodes.map (depend resolverId dependencyId)).map Prod.fst = nodes.map Prod.fst := by
  rw [map_map]
  refine map_congr_left fun entry _ => ?_
  simp only [Function.comp, depend]
  split <;> rfl

def addDependency (g : ResolverDependencyGraph) (resolverId dependencyId : String) :
    Except Error ResolverDependencyGraph :=
  match g.nodes.lookup resolverId with
  | none => .error (configurationError ("unknown resolver: " ++ resolverId))
  | some resolver =>
    if h : dependencyId ∈ g.ids then
      if dependencyId ∈ resolver.dependencies then .ok g
      else .ok {
        nodes := g.nodes.map (depend resolverId dependencyId)
        nodup := by rw [map_depend]; exact g.nodup
        closed := by
          intro entry hentry id hid
          obtain ⟨old, hold, rfl⟩ := List.mem_map.1 hentry
          rw [map_depend]
          unfold depend at hid
          split at hid
          · rcases List.mem_append.1 hid with hid | hid
            · exact g.closed old hold id hid
            · exact List.mem_singleton.1 hid ▸ h
          · exact g.closed old hold id hid }
    else .error (configurationError ("unknown resolver dependency: " ++ dependencyId))

/-! ### Walking it -/

def unvisited (g : ResolverDependencyGraph) (visited : List String) : Nat :=
  (g.ids.toFinset \ visited.toFinset).card

variable {visited : List String} {id : String}

theorem unvisited_lt (g : ResolverDependencyGraph) (hid : id ∈ g.ids) (hv : id ∉ visited) :
    g.unvisited (visited ++ [id]) < g.unvisited visited := by
  refine Finset.card_lt_card (Finset.ssubset_iff_subset_ne.2 ⟨fun other => ?_, fun heq => ?_⟩)
  · simp only [Finset.mem_sdiff, mem_toFinset, mem_append, not_or]
    exact fun h => ⟨h.1, h.2.1⟩
  · have hmem : id ∈ g.ids.toFinset \ visited.toFinset := by simp [hid, hv]
    rw [← heq] at hmem
    simp at hmem

variable {node : ResolverNode}

theorem mem_of_lookup (g : ResolverDependencyGraph) (h : g.nodes.lookup id = some node) :
    (id, node) ∈ g.nodes := by
  obtain ⟨front, back, heq, -⟩ := lookup_eq_some_iff.1 h
  rw [heq]
  exact mem_append_right _ mem_cons_self

theorem mem_ids_of_lookup (g : ResolverDependencyGraph) (h : g.nodes.lookup id = some node) : id ∈ g.ids :=
  mem_map.2 ⟨_, g.mem_of_lookup h, rfl⟩

mutual

def visit (g : ResolverDependencyGraph) (id : String) (visiting visited : List String) : Except Error
    (List String) :=
  if id ∈ visited then .ok visited
  else if hv : id ∈ visiting then .error (configurationError ("dependency cycle at: " ++ id))
  else
    match hn : g.nodes.lookup id with
    | none => .error (configurationError ("unknown resolver dependency: " ++ id))
    | some node =>
      have := g.unvisited_lt (g.mem_ids_of_lookup hn) hv
      match visitAll g node.dependencies (visiting ++ [id]) visited with
      | .error e => .error e
      | .ok visited => .ok (visited ++ [id])
termination_by (g.unvisited visiting, 0)

/-- The loops of `visit` and of `validate`: the first identifier that fails ends them. -/
def visitAll (g : ResolverDependencyGraph) (ids visiting visited : List String) : Except Error (List String) :=
  match ids with
  | [] => .ok visited
  | id :: rest =>
    match visit g id visiting visited with
    | .error e => .error e
    | .ok visited => visitAll g rest visiting visited
termination_by (g.unvisited visiting, ids.length + 1)

end

/-- The search from the bootstrap resolver; the back of `pending` stands first. -/
def search (g : ResolverDependencyGraph) (pending visited : List String) : Except Error Unit :=
  match pending with
  | [] => .ok ()
  | current :: pending =>
    if hv : current ∈ visited then search g pending visited
    else
      match hn : g.nodes.lookup current with
      | none => .error (configurationError ("unknown bootstrap dependency: " ++ current))
      | some node =>
        if node.role.isSome then .error (configurationError
          ("bootstrap resolver transitively depends on resolver: " ++ current))
        else
          have := g.unvisited_lt (g.mem_ids_of_lookup hn) hv
          search g (node.dependencies.reverse ++ pending) (visited ++ [current])
termination_by (g.unvisited visited, pending.length)

def searchAll (g : ResolverDependencyGraph) : List (String × ResolverNode) → Except Error Unit
  | [] => .ok ()
  | (_, node) :: nodes =>
    if node.role ≠ some .bootstrap then searchAll g nodes
    else
      match g.search node.dependencies.reverse [] with
      | .error e => .error e
      | .ok () => searchAll g nodes

def validate (g : ResolverDependencyGraph) : Except Error Unit :=
  match g.visitAll g.ids [] [] with
  | .error e => .error e
  | .ok _ => g.searchAll g.nodes

def role (g : ResolverDependencyGraph) (id : String) : Option ResolverRole := (g.nodes.lookup id).bind (·.role)

/-! ### What it finds -/

def Dep (g : ResolverDependencyGraph) (id dependency : String) : Prop :=
  ∃ node, g.nodes.lookup id = some node ∧ dependency ∈ node.dependencies

variable {g : ResolverDependencyGraph}

theorem Dep.mem {dependency : String} (h : g.Dep id dependency) : dependency ∈ g.ids := by
  obtain ⟨node, hnode, hmem⟩ := h
  exact g.closed _ (g.mem_of_lookup hnode) dependency hmem

theorem exists_lookup (h : id ∈ g.ids) : ∃ node, g.nodes.lookup id = some node := by
  obtain ⟨entry, hentry, rfl⟩ := mem_map.1 h
  exact Option.isSome_iff_exists.1 (lookup_isSome_iff.2 ⟨entry, hentry, beq_self_eq_true _⟩)

/-- **What `visited` holds** is done with: it leads nowhere else, and it is on no cycle. -/
structure Done (g : ResolverDependencyGraph) (visited : List String) : Prop where
  closed : ∀ v ∈ visited, ∀ d, g.Dep v d → d ∈ visited
  acyclic : ∀ v ∈ visited, ¬ TransGen g.Dep v v

theorem Done.reach (h : g.Done visited) {v w : String} (hv : v ∈ visited) (hreach : ReflTransGen g.Dep v w) :
    w ∈ visited := by
  induction hreach with
  | refl => exact hv
  | tail _ hdep ih => exact h.closed _ ih _ hdep

theorem Done.push (h : g.Done visited) (hn : g.nodes.lookup id = some node)
    (hdeps : ∀ d ∈ node.dependencies, d ∈ visited) :
    g.Done (visited ++ [id]) := by
  have hnext : ∀ d, g.Dep id d → d ∈ visited := by
    rintro d ⟨node', hn', hd⟩
    obtain rfl := Option.some.inj (hn'.symm.trans hn)
    exact hdeps d hd
  refine ⟨fun v hv d hd => mem_append_left _ ?_, fun v hv hcycle => ?_⟩
  · rcases mem_append.1 hv with hv | hv
    · exact h.closed v hv d hd
    · exact hnext d (mem_singleton.1 hv ▸ hd)
  · rcases mem_append.1 hv with hv | hv
    · exact h.acyclic v hv hcycle
    · obtain rfl := mem_singleton.1 hv
      obtain ⟨d, hd, hback⟩ := TransGen.head'_iff.1 hcycle
      exact h.acyclic v (h.reach (hnext d hd) hback) hcycle

mutual

theorem visit_done {id : String} {visiting visited visited' : List String}
    (h : g.visit id visiting visited = .ok visited') (hd : g.Done visited) :
    g.Done visited' ∧ visited ⊆ visited' ∧ id ∈ visited' := by
  unfold visit at h
  split at h
  · rename_i hmem
    cases h
    exact ⟨hd, List.Subset.refl _, hmem⟩
  · split at h
    · cases h
    · rename_i hv
      split at h
      · cases h
      · rename_i node hn
        have := g.unvisited_lt (g.mem_ids_of_lookup hn) hv
        cases hall : g.visitAll node.dependencies (visiting ++ [id]) visited with
        | error e => rw [hall] at h; cases h
        | ok done =>
          rw [hall] at h
          cases h
          obtain ⟨hdone, hsub, hmem⟩ := visitAll_done hall hd
          exact ⟨hdone.push hn hmem, fun v hv => mem_append_left _ (hsub hv),
            mem_append_right _ (mem_singleton_self _)⟩
termination_by (g.unvisited visiting, 0)

theorem visitAll_done {ids visiting visited visited' : List String}
    (h : g.visitAll ids visiting visited = .ok visited') (hd : g.Done visited) :
    g.Done visited' ∧ visited ⊆ visited' ∧ ∀ i ∈ ids, i ∈ visited' := by
  match ids with
  | [] =>
    unfold visitAll at h
    cases h
    exact ⟨hd, List.Subset.refl _, fun i hi => absurd hi not_mem_nil⟩
  | i :: rest =>
    unfold visitAll at h
    cases hone : g.visit i visiting visited with
    | error e => rw [hone] at h; cases h
    | ok done =>
      rw [hone] at h
      obtain ⟨hdone, hsub, hmem⟩ := visit_done hone hd
      obtain ⟨hdone', hsub', hmem'⟩ := visitAll_done h hdone
      refine ⟨hdone', fun v hv => hsub' (hsub hv), fun j hj => ?_⟩
      rcases mem_cons.1 hj with rfl | hj
      · exact hsub' hmem
      · exact hmem' j hj
termination_by (g.unvisited visiting, ids.length + 1)

end

mutual

theorem visit_ok {id : String} {visiting : List String} (visited : List String)
    (hacyclic : ∀ v, ¬ TransGen g.Dep v v) (hid : id ∈ g.ids)
    (hpath : ∀ v ∈ visiting, TransGen g.Dep v id) :
    ∃ visited', g.visit id visiting visited = .ok visited' := by
  unfold visit
  split
  · exact ⟨_, rfl⟩
  · split
    · rename_i hv
      exact absurd (hpath id hv) (hacyclic id)
    · rename_i hv
      split
      · rename_i hn
        obtain ⟨node, hnode⟩ := exists_lookup hid
        rw [hnode] at hn
        cases hn
      · rename_i node hn
        have := g.unvisited_lt (g.mem_ids_of_lookup hn) hv
        have hall : ∃ done, g.visitAll node.dependencies (visiting ++ [id]) visited = .ok done := by
          refine visitAll_ok visited hacyclic fun d hd => ⟨Dep.mem ⟨node, hn, hd⟩, fun v hvis => ?_⟩
          rcases mem_append.1 hvis with hvis | hvis
          · exact (hpath v hvis).tail ⟨node, hn, hd⟩
          · exact .single (mem_singleton.1 hvis ▸ ⟨node, hn, hd⟩)
        obtain ⟨done, hdone⟩ := hall
        rw [hdone]
        exact ⟨_, rfl⟩
termination_by (g.unvisited visiting, 0)

theorem visitAll_ok {ids visiting : List String} (visited : List String) (hacyclic : ∀ v, ¬ TransGen g.Dep v v)
    (hids : ∀ i ∈ ids, i ∈ g.ids ∧ ∀ v ∈ visiting, TransGen g.Dep v i) :
    ∃ visited', g.visitAll ids visiting visited = .ok visited' := by
  match ids with
  | [] =>
    unfold visitAll
    exact ⟨_, rfl⟩
  | i :: rest =>
    obtain ⟨done, hdone⟩ := visit_ok visited hacyclic (hids i mem_cons_self).1 (hids i mem_cons_self).2
    unfold visitAll
    rw [hdone]
    exact visitAll_ok done hacyclic fun j hj => hids j (mem_cons_of_mem i hj)
termination_by (g.unvisited visiting, ids.length + 1)

end

theorem visitAll_ok_iff : (∃ visited', g.visitAll g.ids [] [] = .ok visited') ↔ ∀ v, ¬ TransGen g.Dep v v := by
  constructor
  · rintro ⟨visited', h⟩ v hcycle
    obtain ⟨hdone, -, hmem⟩ := visitAll_done h ⟨fun v hv => absurd hv not_mem_nil,
      fun v hv => absurd hv not_mem_nil⟩
    obtain ⟨d, ⟨node, hn, -⟩, -⟩ := TransGen.head'_iff.1 hcycle
    exact hdone.acyclic v (hmem v (g.mem_ids_of_lookup hn)) hcycle
  · exact fun hacyclic => visitAll_ok [] hacyclic fun i hi => ⟨hi, fun v hv => absurd hv not_mem_nil⟩

/-! ### The search -/

def Free (g : ResolverDependencyGraph) (pending : List String) : Prop :=
  ∀ p ∈ pending, ∀ q, ReflTransGen g.Dep p q → g.role q = none

/-- **What was visited** has no role and leads to what was visited or is pending. -/
structure Searched (g : ResolverDependencyGraph) (pending visited : List String) : Prop where
  plain : ∀ v ∈ visited, g.role v = none
  next : ∀ v ∈ visited, ∀ d, g.Dep v d → d ∈ visited ∨ d ∈ pending

theorem Searched.free {pending : List String} (h : g.Searched pending visited)
    (hfree : g.Free pending) : g.Free visited := by
  intro v hv q hreach
  have hq : q ∈ visited ∨ g.role q = none := by
    induction hreach using ReflTransGen.head_induction_on with
    | refl => exact .inl hv
    | @head a b hdep hrest ih =>
      rcases h.next a hv b hdep with hb | hb
      · exact ih hb
      · exact .inr (hfree b hb q hrest)
  rcases hq with hq | hq
  · exact h.plain q hq
  · exact hq

theorem search_ok_iff (pending visited : List String) (hp : ∀ p ∈ pending, p ∈ g.ids)
    (h : g.Searched pending visited) :
    g.search pending visited = .ok () ↔ g.Free pending := by
  match pending with
  | [] =>
    unfold search
    exact iff_of_true rfl fun p hmem => absurd hmem not_mem_nil
  | current :: pending =>
    have hrest : ∀ p ∈ pending, p ∈ g.ids := fun p hmem => hp p (mem_cons_of_mem _ hmem)
    unfold search
    split
    · rename_i hv
      have h' : g.Searched pending visited := ⟨h.plain, fun v hmem d hd => by
        rcases h.next v hmem d hd with hd | hd
        · exact .inl hd
        · rcases mem_cons.1 hd with rfl | hd
          · exact .inl hv
          · exact .inr hd⟩
      rw [search_ok_iff pending visited hrest h']
      refine ⟨fun hfree p hmem => ?_, fun hfree p hmem => hfree p (mem_cons_of_mem _ hmem)⟩
      rcases mem_cons.1 hmem with rfl | hmem
      · exact h'.free hfree p hv
      · exact hfree p hmem
    · rename_i hv
      split
      · rename_i hn
        obtain ⟨node, hnode⟩ := exists_lookup (hp current mem_cons_self)
        rw [hnode] at hn
        cases hn
      · rename_i node hn
        have hrole : g.role current = node.role := by rw [role, hn]; rfl
        have hdeps : ∀ d ∈ node.dependencies, g.Dep current d := fun d hd => ⟨node, hn, hd⟩
        split
        · rename_i hsome
          refine iff_of_false (by intro heq; cases heq) fun hfree => ?_
          have hnone := hfree current mem_cons_self current .refl
          rw [hrole] at hnone
          rw [hnone] at hsome
          cases hsome
        · rename_i hsome
          have hnone : g.role current = none := by rw [hrole]; exact Option.not_isSome_iff_eq_none.1 hsome
          have := g.unvisited_lt (g.mem_ids_of_lookup hn) hv
          have h' : g.Searched (node.dependencies.reverse ++ pending) (visited ++ [current]) := by
            refine ⟨fun v hmem => ?_, fun v hmem d hd => ?_⟩
            · rcases mem_append.1 hmem with hmem | hmem
              · exact h.plain v hmem
              · exact mem_singleton.1 hmem ▸ hnone
            · rcases mem_append.1 hmem with hmem | hmem
              · rcases h.next v hmem d hd with hd | hd
                · exact .inl (mem_append_left _ hd)
                · rcases mem_cons.1 hd with rfl | hd
                  · exact .inl (mem_append_right _ (mem_singleton_self _))
                  · exact .inr (mem_append_right _ hd)
              · obtain rfl := mem_singleton.1 hmem
                obtain ⟨node', hn', hd⟩ := hd
                obtain rfl := Option.some.inj (hn'.symm.trans hn)
                exact .inr (mem_append_left _ (mem_reverse.2 hd))
          rw [search_ok_iff (node.dependencies.reverse ++ pending) (visited ++ [current]) ?_ h']
          · refine ⟨fun hfree p hmem q hreach => ?_, fun hfree p hmem => ?_⟩
            · rcases mem_cons.1 hmem with rfl | hmem
              · rcases ReflTransGen.cases_head hreach with rfl | ⟨d, ⟨node', hn', hd⟩, hreach⟩
                · exact hnone
                · obtain rfl := Option.some.inj (hn'.symm.trans hn)
                  exact hfree d (mem_append_left _ (mem_reverse.2 hd)) q hreach
              · exact hfree p (mem_append_right _ hmem) q hreach
            · rcases mem_append.1 hmem with hmem | hmem
              · exact fun q hreach => hfree current mem_cons_self q (.head (hdeps p (mem_reverse.1 hmem)) hreach)
              · exact hfree p (mem_cons_of_mem _ hmem)
          · intro p hmem
            rcases mem_append.1 hmem with hmem | hmem
            · exact (hdeps p (mem_reverse.1 hmem)).mem
            · exact hrest p hmem
termination_by (g.unvisited visited, pending.length)

theorem lookup_of_mem {nodes : List (String × ResolverNode)} (hnodup : (nodes.map Prod.fst).Nodup)
    (h : (id, node) ∈ nodes) :
    nodes.lookup id = some node := by
  obtain ⟨front, back, rfl⟩ := append_of_mem h
  refine lookup_eq_some_iff.2 ⟨front, back, rfl, fun entry hentry => bne_iff_ne.2 fun heq => ?_⟩
  rw [map_append, map_cons] at hnodup
  exact (nodup_append.1 hnodup).2.2 _ (mem_map_of_mem hentry) id mem_cons_self heq.symm

theorem searchAll_ok_iff : ∀ nodes : List (String × ResolverNode), nodes ⊆ g.nodes →
    (g.searchAll nodes = .ok () ↔ ∀ entry ∈ nodes, entry.2.role = some .bootstrap → g.Free entry.2.dependencies)
  | [], _ => iff_of_true rfl fun entry hentry => absurd hentry not_mem_nil
  | (id, node) :: nodes, hsub => by
    have ih := searchAll_ok_iff nodes fun entry hentry => hsub (mem_cons_of_mem _ hentry)
    unfold searchAll
    split
    · rename_i hrole
      rw [ih, forall_mem_cons]
      exact (and_iff_right fun h => absurd h hrole).symm
    · rename_i hrole
      have hone : g.search node.dependencies.reverse [] = .ok () ↔ g.Free node.dependencies := by
        rw [search_ok_iff _ _ (fun p hp => g.closed _ (hsub mem_cons_self) p (mem_reverse.1 hp))
          ⟨fun v hv => absurd hv not_mem_nil, fun v hv => absurd hv not_mem_nil⟩]
        simp only [Free, mem_reverse]
      rw [forall_mem_cons, ← ih, ← hone]
      have hboot : node.role = some .bootstrap := not_not.1 hrole
      cases hs : g.search node.dependencies.reverse [] with
      | error e => simp [hboot]
      | ok u => simp [hboot]

/-- **A graph is valid** exactly if it has no cycle and no way, of any length, from the bootstrap resolver
to a resolver. -/
theorem validate_ok_iff (g : ResolverDependencyGraph) : g.validate = .ok () ↔ (∀ id, ¬ TransGen g.Dep id id) ∧
    ∀ id other, g.role id = some .bootstrap → (g.role other).isSome → ¬ TransGen g.Dep id other := by
  have hsearch : g.searchAll g.nodes = .ok () ↔
      ∀ id other, g.role id = some .bootstrap → (g.role other).isSome → ¬ TransGen g.Dep id other := by
    rw [searchAll_ok_iff g.nodes (List.Subset.refl _)]
    constructor
    · intro h id other hrole hother hreach
      obtain ⟨d, ⟨node, hn, hd⟩, hreach⟩ := TransGen.head'_iff.1 hreach
      rw [role, hn] at hrole
      rw [h _ (g.mem_of_lookup hn) hrole d hd other hreach] at hother
      cases hother
    · intro h entry hentry hrole p hp q hreach
      have hn := lookup_of_mem g.nodup hentry
      have hid : g.role entry.1 = some .bootstrap := by rw [role, hn]; exact hrole
      refine Option.not_isSome_iff_eq_none.1 fun hsome =>
        h entry.1 q hid hsome (TransGen.head'_iff.2 ⟨p, ⟨_, hn, hp⟩, hreach⟩)
  rw [← hsearch, ← visitAll_ok_iff]
  unfold validate
  cases hall : g.visitAll g.ids [] [] with
  | error e => simp
  | ok visited => simp

end ResolverDependencyGraph
end ClashNative.Dns
