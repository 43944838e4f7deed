import ClashNative.DnsCache
/-!
# DnsCacheTtl — the lifetimes in what the cache serves

A hit rewrites the identifier and nothing else: the records of the stored response leave with the
lifetimes they came with, however long they have been in the cache.
-/
namespace ClashNative.Dns.QueryService

open Runs List

/-- **Each answer record lives at most as long as it did, less the whole seconds that have gone by.** -/
def Aged (stored served : DnsPacket) (elapsed : Nat) : Prop :=
  List.Forall₂ (fun r r' => (r'.ttlSeconds.toNat : Int) ≤ r.ttlSeconds.toNat - (elapsed / second : Nat))
    stored.answers served.answers

theorem packetFor_same {packet p : DnsPacket} {rid : UInt16} (h : packetFor packet rid = .ok p) :
    p.answers = packet.answers ∧ p.wire.drop 2 = packet.wire.drop 2 := by
  unfold packetFor rewriteId at h
  split at h
  · cases h
  · rename_i wire hwire
    cases h
    refine ⟨rfl, ?_⟩
    split at hwire
    · rename_i hpacket
      cases hwire
      rw [hpacket]
      rfl
    · cases hwire

theorem aged_self_iff {stored served : DnsPacket} (hsame : served.answers = stored.answers) (elapsed : Nat) :
    Aged stored served elapsed ↔ stored.answers = [] ∨ elapsed < second := by
  unfold Aged
  rw [hsame]
  constructor
  · intro h
    cases hans : stored.answers with
    | nil => exact .inl rfl
    | cons r rest =>
      rw [hans, List.forall₂_cons] at h
      have hle := h.1
      have hzero : elapsed / second = 0 := by
        generalize elapsed / second = n at hle
        omega
      have hpos : 0 < second := by decide
      exact .inr ((Nat.div_eq_zero_iff_lt hpos).1 hzero)
  · rintro (hnil | hlt)
    · rw [hnil]
      exact List.Forall₂.nil
    · rw [List.forall₂_same]
      intro r _
      rw [Nat.div_eq_of_lt hlt]
      omega

variable {config : DnsResolverConfig}

/-! ## The clock -/

theorem store_now (s : State) (key : Key) (packet : DnsPacket) : (store config s key packet).now = s.now := by
  obtain ⟨cache, lru, n, heq⟩ := store_frame config s key packet
  rw [heq]

theorem step_now_le (s : State) (e : Event) : s.now ≤ (step config s e).now := by
  cases ha : asks s e with
  | some asked =>
    rcases step_lookup_cases config ha with ⟨hquiet, -⟩ | ⟨upstream, entry, -, -, ⟨-, -, hquiet⟩ | ⟨-, hquiet⟩⟩
    · exact Nat.le_of_eq hquiet.now.symm
    · exact Nat.le_of_eq hquiet.now.symm
    · exact Nat.le_of_eq hquiet.now.symm
  | none =>
    cases hs : stores config s e with
    | some stored =>
      obtain ⟨s₁, ttl, h₁, -, -, -, -, hquiet⟩ := step_stores hs
      rw [hquiet.now, store_now, h₁.now]
    | none =>
      rcases step_quiet ha hs with hquiet | hquiet | ⟨elapsed, heq⟩
      · exact Nat.le_of_eq hquiet.now.symm
      · exact Nat.le_of_eq hquiet.now.symm
      · rw [heq]
        exact Nat.le_add_right _ _

theorem run_now_le : ∀ (l : List Event) (s : State), s.now ≤ (run (step config) s l).now
  | [], _ => Nat.le_refl _
  | e :: l, s => Nat.le_trans (step_now_le s e) (run_now_le l (step config s e))

theorem StoredAt.le_now {l : List Event} {key : Key} {entry : CacheEntry} {op : Operation} {t₀ : Nat}
    (h : StoredAt config l key entry op t₀) : t₀ ≤ (run (step config) {} l).now := by
  obtain ⟨before, e, after, rfl, -, -, -, rfl⟩ := h
  rw [run_append]
  exact run_now_le (e :: after) _

/-! ## The law -/

/-- **A served response has aged properly exactly when** it has no answer records, or less than a second
has gone by since it was stored. -/
theorem served_aged_iff (config : DnsResolverConfig) (l : List Event) (e : Event) (packet p : DnsPacket)
    (hserves : Serves config (run (step config) {} l) e packet p) :
    ∃ upstream entry op t₀, groupOf config (run (step config) {} l) packet = some upstream ∧
      (run (step config) {} l).cache.lookup (cacheKey packet upstream config.cacheGeneration) = some entry ∧
      StoredAt config l (cacheKey packet upstream config.cacheGeneration) entry op t₀ ∧
      t₀ ≤ (run (step config) {} l).now ∧ (run (step config) {} l).now < entry.expires ∧
      p.wire.drop 2 = entry.packet.wire.drop 2 ∧
      (Aged entry.packet p ((run (step config) {} l).now - t₀) ↔
        entry.packet.answers = [] ∨ (run (step config) {} l).now - t₀ < second) := by
  obtain ⟨upstream, entry, hg, he, hexp, hp⟩ := serves_entry (run_inv config l) hserves
  obtain ⟨op, t₀, ttl, hstored, -, -, -⟩ := run_entry config l he
  obtain ⟨hans, hwire⟩ := packetFor_same hp
  exact ⟨upstream, entry, op, t₀, hg, he, hstored, hstored.le_now, hexp, hwire, aged_self_iff hans _⟩

/-- What the cache serves after half a minute still says sixty seconds. -/
theorem served_unaged : ∃ entry op t₀,
    StoredAt exampleConfig exampleRun (cacheKey (exampleQuery 7) [108, 97, 110] 0) entry op t₀ ∧
    (run (step exampleConfig) {} exampleRun).now < entry.expires ∧
    Serves exampleConfig (run (step exampleConfig) {} exampleRun) (.query (exampleQuery 7) false)
    (exampleQuery 7)
      { exampleAnswer with wire := [0, 7, 129, 128, 0, 1, 0, 1, 0, 0, 0, 0], id := 7 } ∧
    ¬ Aged entry.packet { exampleAnswer with wire := [0, 7, 129, 128, 0, 1, 0, 1, 0, 0, 0, 0], id := 7 }
      ((run (step exampleConfig) {} exampleRun).now - t₀) := by
  refine ⟨⟨exampleAnswer, 60 * second, 0⟩, _, 0,
    ⟨exampleRun.take 2, .runTask 0, [.tick (30 * second)], rfl, rfl, rfl, rfl,
    rfl⟩, by decide, ⟨2, rfl, mem_append_right _ (mem_singleton.2 rfl)⟩, ?_⟩
  intro haged
  rcases (aged_self_iff rfl _).1 haged with hnil | hlt
  · cases hnil
  · exact absurd hlt (by decide)

theorem served_aged_iff_half_minute : ∃ entry op t₀,
    StoredAt exampleConfig exampleRun (cacheKey (exampleQuery 7) [108, 97, 110] 0) entry op t₀ ∧
    (Aged entry.packet { exampleAnswer with wire := [0, 7, 129, 128, 0, 1, 0, 1, 0, 0, 0, 0], id := 7 }
        ((run (step exampleConfig) {} exampleRun).now - t₀) ↔
      entry.packet.answers = [] ∨ (run (step exampleConfig) {} exampleRun).now - t₀ < second) := by
  have hserves : Serves exampleConfig (run (step exampleConfig) {} exampleRun) (.query (exampleQuery 7) false)
      (exampleQuery 7) { exampleAnswer with wire := [0, 7, 129, 128, 0, 1, 0, 1, 0, 0, 0, 0], id := 7 } :=
    ⟨2, rfl, mem_append_right _ (mem_singleton.2 rfl)⟩
  obtain ⟨upstream, entry, op, t₀, hg, -, hstored, -, -, -, hiff⟩ :=
    served_aged_iff exampleConfig exampleRun _ _ _ hserves
  have hup : upstream = [108, 97, 110] := by
    exact (Option.some.inj hg).symm
  subst hup
  exact ⟨entry, op, t₀, hstored, hiff⟩

end ClashNative.Dns.QueryService
