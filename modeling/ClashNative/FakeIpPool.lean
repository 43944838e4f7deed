import ClashNative.FakeIpStore
import Mathlib.Data.Nat.ModEq
/-!
# FakeIpPool — the fake-IP maps and the pool behind them

After any calls at any times the two maps are inverse to each other and hold no more than the capacity,
every address lies inside the network that was configured last, and the probe loop finds a free one as
long as the capacity is not reached.
-/
namespace ClashNative.Dns

open PairedMaps Runs List

namespace FakeIpConfig

def networkAddress (c : FakeIpConfig) : Nat := c.network.toNat / c.total * c.total

def broadcastAddress (c : FakeIpConfig) : Nat := c.networkAddress + c.total - 1

/-- **Strictly between the network and the broadcast address.** -/
def Inside (c : FakeIpConfig) (address : UInt32) : Prop :=
  c.networkAddress < address.toNat ∧ address.toNat < c.broadcastAddress

variable {c : FakeIpConfig}

theorem of_check (h : c.check = .ok ()) :
    c.prefix_.toNat ≤ 30 ∧ 0 < c.capacity ∧ 0 ≤ c.entryTtl ∧ c.capacity ≤ c.total - 2 := by
  unfold check at h
  split at h
  · cases h
  · rename_i hargs
    rw [not_or, not_or, UInt8.not_lt, UInt8.le_iff_toNat_le] at hargs
    split at h
    · cases h
    · rename_i hcapacity
      exact ⟨hargs.1, Nat.pos_of_ne_zero hargs.2.1, Int.not_lt.1 hargs.2.2,
        Nat.not_lt.1 fun h => hcapacity (.inl h)⟩

theorem total_bounds (h : c.prefix_.toNat ≤ 30) : 4 ≤ c.total ∧ c.total ≤ 2 ^ 32 := by
  constructor
  · exact Nat.pow_le_pow_right (n := 2) (by decide) (show 2 ≤ 32 - c.prefix_.toNat by omega)
  · exact Nat.pow_le_pow_right (n := 2) (by decide) (Nat.sub_le 32 _)

theorem testBit_block (n k i : Nat) : (n / 2 ^ k * 2 ^ k).testBit i = (decide (k ≤ i) && n.testBit i) := by
  rw [Nat.mul_comm, Nat.testBit_two_pow_mul]
  by_cases hi : k ≤ i
  · rw [Nat.testBit_div_two_pow, Nat.sub_add_cancel hi]
  · simp [hi]

theorem mask_testBit (h : c.prefix_.toNat ≤ 30) (i : Nat) :
    c.mask.toNat.testBit i = (decide (32 - c.prefix_.toNat ≤ i) && decide (i < 32)) := by
  unfold mask
  split
  · rename_i hzero
    rw [hzero]
    simp
  · rename_i hpos
    have hne : c.prefix_.toNat ≠ 0 := fun h0 => hpos (UInt8.toNat_inj.1 h0)
    have hshift : (32 - c.prefix_.toUInt32).toNat % 32 = 32 - c.prefix_.toNat := by
      rw [UInt32.toNat_sub_of_le _ _ (by rw [UInt32.le_iff_toNat_le]; simp; omega)]
      simp
      omega
    rw [UInt32.toNat_shiftLeft, hshift, Nat.testBit_mod_two_pow, Nat.testBit_shiftLeft,
      show (0xffffffff : UInt32).toNat = 2 ^ 32 - 1 from rfl, Nat.testBit_two_pow_sub_one]
    by_cases hi : i < 32
    · by_cases hk : 32 - c.prefix_.toNat ≤ i
      · simp [hi, hk]
        omega
      · simp [hk]
    · simp [hi]

theorem toNat_network (h : c.prefix_.toNat ≤ 30) :
    (c.network &&& c.mask).toNat = c.networkAddress := by
  apply Nat.eq_of_testBit_eq
  intro i
  rw [UInt32.toNat_and, Nat.testBit_and, mask_testBit h, networkAddress, total, testBit_block]
  by_cases hi : i < 32
  · simp [hi, Bool.and_comm]
  · have hzero : c.network.toNat.testBit i = false :=
      Nat.testBit_lt_two_pow (Nat.lt_of_lt_of_le c.network.toNat_lt
        (Nat.pow_le_pow_right (by decide) (Nat.not_lt.1 hi)))
    simp [hzero]

theorem broadcastAddress_lt (h : c.prefix_.toNat ≤ 30) : c.networkAddress + c.total ≤ 2 ^ 32 := by
  have hsplit : (2 : Nat) ^ 32 = 2 ^ c.prefix_.toNat * c.total := by
    rw [total, ← Nat.pow_add]
    congr 1
    omega
  have hblock : c.network.toNat / c.total < 2 ^ c.prefix_.toNat := by
    apply Nat.div_lt_of_lt_mul
    rw [Nat.mul_comm, ← hsplit]
    exact c.network.toNat_lt
  rw [networkAddress, ← Nat.succ_mul, hsplit]
  exact Nat.mul_le_mul_right _ hblock

end FakeIpConfig

namespace FakeIpStore

variable {s s' : FakeIpStore} {c : FakeIpConfig} {c? : Option FakeIpConfig} {domain : List UInt8}

/-! ## What stays as it is -/

structure SamePool (s s' : FakeIpStore) : Prop where
  network : s'.network = s.network
  firstOffset : s'.firstOffset = s.firstOffset
  addressCount : s'.addressCount = s.addressCount
  nextOffset : s'.nextOffset = s.nextOffset
  capacity : s'.capacity = s.capacity
  entryTtl : s'.entryTtl = s.entryTtl

theorem SamePool.refl (s : FakeIpStore) : SamePool s s := ⟨rfl, rfl, rfl, rfl, rfl, rfl⟩

theorem SamePool.trans {s'' : FakeIpStore} (h : SamePool s s') (h' : SamePool s' s'') : SamePool s s'' :=
  ⟨h'.network.trans h.network, h'.firstOffset.trans h.firstOffset, h'.addressCount.trans h.addressCount,
    h'.nextOffset.trans h.nextOffset, h'.capacity.trans h.capacity, h'.entryTtl.trans h.entryTtl⟩

theorem purge_induction {P : FakeIpStore → Prop} {now : Int}
    (hdrop : ∀ s (x : (_ : List UInt8) × FakeIpEntry), s.byDomain.lookup x.1 = some x.2 →
      x.2.expires ≤ now → P s → P (s.drop x.1 x.2.address))
    (hpurge : P s → P { s with lastPurge := now }) (h : P s) : P (s.purgeExpired now) := by
  have hloop : ∀ (l : List ((_ : List UInt8) × FakeIpEntry)) (s : FakeIpStore),
      (∀ x ∈ l, s.byDomain.lookup x.1 = some x.2) → l.NodupKeys → P s →
      P (l.foldl (fun s x => if x.2.expires > now then s else s.drop x.1 x.2.address) s) := by
    intro l
    induction l with
    | nil => exact fun _ _ _ h => h
    | cons x l ih =>
      intro s hl hnodup h
      rw [nodupKeys_cons] at hnodup
      rw [foldl_cons]
      split
      · exact ih s (fun y hy => hl y (mem_cons_of_mem _ hy)) hnodup.2 h
      · rename_i hexpired
        refine ih _ (fun y hy => ?_) hnodup.2
          (hdrop s x (hl x mem_cons_self) (Int.not_lt.1 hexpired) h)
        have hne : y.1 ≠ x.1 := fun heq => hnodup.1 (heq ▸ mem_keys_of_mem hy)
        exact (AList.lookup_erase_ne hne).trans (hl y (mem_cons_of_mem _ hy))
  unfold purgeExpired
  split
  · exact h
  · split
    · exact h
    · exact hloop _ _ (fun x hx => AList.mem_lookup_iff.2 hx) s.byDomain.nodupKeys (hpurge h)

theorem purge_same (s : FakeIpStore) (now : Int) : SamePool s (s.purgeExpired now) :=
  purge_induction (P := SamePool s) (fun _ _ _ _ h => h.trans ⟨rfl, rfl, rfl, rfl, rfl, rfl⟩)
    (fun h => h.trans ⟨rfl, rfl, rfl, rfl, rfl, rfl⟩) (.refl s)

def Mapped (s : FakeIpStore) : Prop := Paired FakeIpEntry.address s.byDomain s.byAddress

variable {e : FakeIpEntry}

theorem Mapped.drop (h : s.Mapped) (he : s.byDomain.lookup domain = some e) :
    (s.drop domain e.address).Mapped := Paired.erase h he

theorem length_erase_le (m : AList fun _ : List UInt8 => FakeIpEntry) (domain : List UInt8) :
    (m.erase domain).entries.length ≤ m.entries.length := (kerase_sublist domain m.entries).length_le

/-! ## The probe loop -/

/-- **The pool of an accepted configuration**, with the cursor inside it. -/
structure Pool (c : FakeIpConfig) (s : FakeIpStore) : Prop where
  accepted : c.check = .ok ()
  network : s.network.toNat = c.networkAddress
  firstOffset : s.firstOffset = 1
  addressCount : s.addressCount.toNat = c.total - 2
  capacity : s.capacity = c.capacity
  cursor : 1 ≤ s.nextOffset.toNat ∧ s.nextOffset.toNat ≤ s.addressCount.toNat

theorem Pool.same (h : Pool c s) (hs : SamePool s s') : Pool c s' :=
  ⟨h.accepted, by rw [hs.network, h.network], by rw [hs.firstOffset, h.firstOffset],
    by rw [hs.addressCount, h.addressCount],
    by rw [hs.capacity, h.capacity], by rw [hs.nextOffset, hs.addressCount]; exact h.cursor⟩

theorem Pool.offset (h : Pool c s) :
    s.firstOffset + (s.nextOffset - s.firstOffset) % s.addressCount = s.nextOffset := by
  obtain ⟨hlow, hhigh⟩ := h.cursor
  have hone : (1 : UInt32).toNat = 1 := rfl
  have hlt := s.addressCount.toNat_lt
  apply UInt32.toNat_inj.1
  rw [h.firstOffset, UInt32.toNat_add, UInt32.toNat_mod,
    UInt32.toNat_sub_of_le _ _ (by rwa [UInt32.le_iff_toNat_le, hone]),
    hone, Nat.mod_eq_of_lt (by omega : s.nextOffset.toNat - 1 < s.addressCount.toNat)]
  omega

theorem Pool.next (h : Pool c s) :
    (s.firstOffset + (s.nextOffset - s.firstOffset + 1) % s.addressCount).toNat =
      1 + s.nextOffset.toNat % s.addressCount.toNat := by
  obtain ⟨hlow, hhigh⟩ := h.cursor
  have hone : (1 : UInt32).toNat = 1 := rfl
  have hlt := s.addressCount.toNat_lt
  have hmod := Nat.mod_lt s.nextOffset.toNat (show 0 < s.addressCount.toNat by omega)
  rw [h.firstOffset, UInt32.toNat_add, UInt32.toNat_mod, UInt32.toNat_add,
    UInt32.toNat_sub_of_le _ _ (by rwa [UInt32.le_iff_toNat_le, hone]), hone,
    show (s.nextOffset.toNat - 1 + 1) % 2 ^ 32 = s.nextOffset.toNat by omega]
  omega

theorem Pool.inside (h : Pool c s) {offset : UInt32} (hlow : 1 ≤ offset.toNat)
    (hhigh : offset.toNat ≤ s.addressCount.toNat) :
    (s.network + offset).toNat = c.networkAddress + offset.toNat ∧ c.Inside (s.network + offset) := by
  have hprefix := (FakeIpConfig.of_check h.accepted).1
  have hblock := FakeIpConfig.broadcastAddress_lt hprefix
  have hcount := h.addressCount
  have hvalue : (s.network + offset).toNat = c.networkAddress + offset.toNat := by
    rw [UInt32.toNat_add, h.network]
    omega
  refine ⟨hvalue, ?_, ?_⟩
  · omega
  · rw [FakeIpConfig.broadcastAddress]
    omega

def cursorAfter (s : FakeIpStore) (k : Nat) : Nat := 1 + (s.nextOffset.toNat - 1 + k) % s.addressCount.toNat

theorem allocate_spec (now : Int) : ∀ (attempts : Nat) {s : FakeIpStore}, Pool c s →
    s.byDomain.lookup domain = none →
    (∃ value expires, (s.allocate domain now attempts).2 = .ok value ∧ c.Inside value ∧
      s.byAddress.lookup value = none ∧
      (s.allocate domain now attempts).1.byDomain = s.byDomain.insert domain ⟨value, expires⟩ ∧
      (s.allocate domain now attempts).1.byAddress = s.byAddress.insert value domain ∧
      expires = expiry s.entryTtl now ∧
      Pool c (s.allocate domain now attempts).1 ∧ (s.allocate domain now attempts).1.entryTtl = s.entryTtl ∧
      (s.allocate domain now attempts).1.lastPurge = s.lastPurge) ∨
    ((s.allocate domain now attempts).2 = .error exhaustionError ∧
      ∀ k, k < attempts → ∃ address, s.byAddress.lookup address ≠ none ∧
        address.toNat = c.networkAddress + s.cursorAfter k)
  | 0, s, _, _ => .inr ⟨rfl, fun k hk => absurd hk (Nat.not_lt_zero k)⟩
  | attempts + 1, s, h, hdomain => by
    obtain ⟨hlow, hhigh⟩ := h.cursor
    have hoffset := h.offset
    have hnext := h.next
    have hinside := h.inside hlow hhigh
    have hmod := Nat.mod_lt s.nextOffset.toNat (show 0 < s.addressCount.toNat by omega)
    -- the store with the cursor moved on
    let s₁ : FakeIpStore :=
      { s with nextOffset := s.firstOffset + (s.nextOffset - s.firstOffset + 1) % s.addressCount }
    have hpool : Pool c s₁ := { h with
      cursor := by show 1 ≤ (_ : UInt32).toNat ∧ (_ : UInt32).toNat ≤ s.addressCount.toNat; rw [hnext]; omega }
    unfold allocate
    dsimp only
    rw [hoffset]
    split
    · rename_i hfree
      refine .inl ⟨s.network + s.nextOffset, _, rfl, hinside.2, AList.lookup_eq_none.2 hfree,
        rfl, rfl, rfl, ?_, rfl, rfl⟩
      exact { hpool with }
    · rename_i hused
      rcases allocate_spec now attempts hpool hdomain with hok | ⟨herror, htried⟩
      · exact .inl hok
      · refine .inr ⟨herror, fun k hk => ?_⟩
        cases k with
        | zero =>
          refine ⟨s.network + s.nextOffset, fun hnone => hused (AList.lookup_eq_none.1 hnone), ?_⟩
          rw [hinside.1, cursorAfter, Nat.add_zero, Nat.mod_eq_of_lt (by omega)]
          omega
        | succ k =>
          obtain ⟨address, haddress, hvalue⟩ := htried k (Nat.lt_of_succ_lt_succ hk)
          refine ⟨address, haddress, ?_⟩
          rw [hvalue]
          show c.networkAddress + (1 + ((s₁.nextOffset.toNat - 1 + k) % s.addressCount.toNat)) =
            c.networkAddress + (1 + (s.nextOffset.toNat - 1 + (k + 1)) % s.addressCount.toNat)
          rw [show s₁.nextOffset.toNat = 1 + s.nextOffset.toNat % s.addressCount.toNat from hnext,
            Nat.add_sub_cancel_left, Nat.mod_add_mod, show s.nextOffset.toNat - 1 + (k + 1) =
            s.nextOffset.toNat + k by omega]

theorem cursorAfter_inj {i j : Nat} (hi : i < s.addressCount.toNat) (hj : j < s.addressCount.toNat)
    (h : s.cursorAfter i = s.cursorAfter j) : i = j := by
  have hmod : Nat.ModEq s.addressCount.toNat (s.nextOffset.toNat - 1 + i) (s.nextOffset.toNat - 1 + j) :=
    Nat.add_left_cancel h
  have hij := Nat.ModEq.add_left_cancel' (s.nextOffset.toNat - 1) hmod
  rwa [Nat.ModEq, Nat.mod_eq_of_lt hi, Nat.mod_eq_of_lt hj] at hij

theorem Pool.exists_free (h : Pool c s) (hm : s.Mapped) (hroom : s.mappings < s.capacity) :
    ∃ k, k < s.addressCount.toNat ∧ ∀ address, s.byAddress.lookup address ≠ none →
      address.toNat ≠ c.networkAddress + s.cursorAfter k := by
  by_contra hall
  have hused : ∀ k, k < s.addressCount.toNat → ∃ address, s.byAddress.lookup address ≠ none ∧
      address.toNat = c.networkAddress + s.cursorAfter k := by
    intro k hk
    by_contra hnone
    exact hall ⟨k, hk, fun address haddress heq => hnone ⟨address, haddress, heq⟩⟩
  -- the addresses tried are distinct and all in use: as many mappings as addresses
  have hnodup : ((List.range s.addressCount.toNat).map fun k => c.networkAddress + s.cursorAfter k).Nodup := by
    refine List.Nodup.map_on (fun i hi j hj heq => ?_) nodup_range
    exact cursorAfter_inj (mem_range.1 hi) (mem_range.1 hj) (Nat.add_left_cancel heq)
  have hsubset : ((List.range s.addressCount.toNat).map fun k => c.networkAddress + s.cursorAfter k) ⊆
      s.byAddress.keys.map UInt32.toNat := by
    intro value hvalue
    obtain ⟨k, hk, rfl⟩ := mem_map.1 hvalue
    obtain ⟨address, haddress, heq⟩ := hused k (mem_range.1 hk)
    have hkey : address ∈ s.byAddress := AList.lookup_isSome.1 (Option.isSome_iff_ne_none.2 haddress)
    exact mem_map.2 ⟨address, AList.mem_keys.1 hkey, heq⟩
  have hle := (subperm_of_subset hnodup hsubset).length_le
  rw [length_map, length_range, length_map] at hle
  have hkeys : s.byAddress.keys.length ≤ s.mappings := hm.keys_length_le
  have hcapacity := (FakeIpConfig.of_check h.accepted).2.2.2
  rw [← h.capacity, ← h.addressCount] at hcapacity
  omega

/-! ## The invariant -/

/-- What holds between two calls; `c?` is the configuration that was accepted last. -/
structure Inv (c? : Option FakeIpConfig) (s : FakeIpStore) : Prop where
  mapped : s.Mapped
  bounded : s.mappings ≤ s.capacity
  empty : c? = none → s.addressCount = 0 ∧ s.capacity = 0
  pool : ∀ c, c? = some c → Pool c s
  inside : ∀ c, c? = some c → ∀ d e, s.byDomain.lookup d = some e → c.Inside e.address

theorem Inv.drop (h : Inv c? s) (he : s.byDomain.lookup domain = some e) :
    Inv c? (s.drop domain e.address) where
  mapped := h.mapped.drop he
  bounded := Nat.le_trans (length_erase_le s.byDomain domain) h.bounded
  empty := h.empty
  pool c hc := (h.pool c hc).same ⟨rfl, rfl, rfl, rfl, rfl, rfl⟩
  inside c hc d x hx := by
    by_cases hd : d = domain
    · have hgone : (s.byDomain.erase domain).lookup d = some x := hx
      rw [hd, AList.lookup_erase] at hgone
      cases hgone
    · exact h.inside c hc d x (by rwa [FakeIpStore.drop, AList.lookup_erase_ne hd] at hx)

theorem Inv.purge (h : Inv c? s) (now : Int) : Inv c? (s.purgeExpired now) :=
  purge_induction (P := Inv c?) (fun _ _ hx _ h => h.drop hx)
    (fun h => { h with pool := fun c hc => (h.pool c hc).same ⟨rfl, rfl, rfl, rfl, rfl, rfl⟩ }) h

theorem Inv.configured (h : Inv c? s) (hpos : 0 < s.capacity) : ∃ c, c? = some c := by
  cases c? with
  | none =>
    rw [(h.empty rfl).2] at hpos
    cases hpos
  | some c => exact ⟨c, rfl⟩

theorem mappings_pos (he : s.byDomain.lookup domain = some e) : 0 < s.mappings :=
  length_pos_of_mem (AList.mem_lookup_iff.1 he)

theorem Inv.resolve (h : Inv c? s) (domain : List UInt8) (now : Int) :
    Inv c? (s.resolve domain now).1 ∧
      (∀ a, (s.resolve domain now).2 = .ok a → ∃ c, c? = some c ∧ c.Inside a) ∧
      (normalizeName domain ≠ [] → (s.purgeExpired now).byDomain.lookup (normalizeName domain) = none →
        ((∃ e, (s.resolve domain now).2 = .error e) ↔ s.capacity ≤ (s.purgeExpired now).mappings)) := by
  have hp := h.purge now
  have hcapacity : (s.purgeExpired now).capacity = s.capacity := (purge_same s now).capacity
  rw [← hcapacity]
  unfold FakeIpStore.resolve
  dsimp only
  generalize s.purgeExpired now = p at hp
  split
  · rename_i hempty
    exact ⟨hp, nofun, fun hne => absurd hempty hne⟩
  · cases hlookup : p.byDomain.lookup (normalizeName domain) with
    | some e =>
      obtain ⟨c, hc⟩ := hp.configured (Nat.lt_of_lt_of_le (mappings_pos hlookup) hp.bounded)
      refine ⟨hp, fun a ha => ⟨c, hc, ?_⟩, fun _ hnone => by cases hnone⟩
      cases ha
      exact hp.inside c hc _ e hlookup
    | none =>
      dsimp only
      split
      · rename_i hfull
        refine ⟨hp, nofun, fun _ _ => ⟨fun _ => ?_, fun _ => ⟨_, rfl⟩⟩⟩
        rcases hfull with hfull | hzero
        · exact hfull
        · cases hc : c? with
          | none =>
            rw [(hp.empty hc).2]
            exact Nat.zero_le _
          | some c =>
            have hpool := hp.pool c hc
            have hcount := hpool.cursor
            rw [hzero] at hcount
            exact absurd (Nat.le_trans hcount.1 hcount.2) (by decide)
      · rename_i hroom
        rw [not_or] at hroom
        have hroom' := Nat.not_le.1 hroom.1
        obtain ⟨c, hc⟩ := hp.configured (Nat.lt_of_le_of_lt (Nat.zero_le _) hroom')
        have hpool := hp.pool c hc
        rcases allocate_spec now p.addressCount.toNat hpool hlookup with
          ⟨value, expires, hok, hinside, hfree, hdomain, haddress, -, hpool', -, -⟩ | ⟨-, htried⟩
        · refine ⟨⟨?_, ?_, ?_, ?_, ?_⟩, fun a ha => ⟨c, hc, ?_⟩,
            fun _ _ => ⟨?_, fun hle => absurd hle (Nat.not_le.2 hroom')⟩⟩
          · rw [Mapped, hdomain, haddress]
            exact Paired.insert (e := ⟨value, expires⟩) hp.mapped hlookup hfree
          · rw [hpool'.capacity, ← hpool.capacity, mappings, hdomain,
              AList.entries_insert_of_notMem (AList.lookup_eq_none.1 hlookup)]
            exact hroom'
          · intro hnone
            rw [hc] at hnone
            cases hnone
          · intro c' hc'
            rw [hc, Option.some.injEq] at hc'
            rwa [← hc']
          · intro c' hc' d e he
            rw [hc, Option.some.injEq] at hc'
            subst hc'
            rw [hdomain] at he
            by_cases hd : d = normalizeName domain
            · rw [hd, AList.lookup_insert, Option.some.injEq] at he
              rw [← he]
              exact hinside
            · rw [AList.lookup_insert_ne hd] at he
              exact hp.inside c hc d e he
          · rw [hok] at ha
            cases ha
            exact hinside
          · rintro ⟨e, he⟩
            rw [hok] at he
            cases he
        · obtain ⟨k, hk, hunused⟩ := hpool.exists_free hp.mapped hroom'
          obtain ⟨address, haddress, hvalue⟩ := htried k hk
          exact absurd hvalue (hunused address haddress)

theorem Inv.configure (h : Inv c? s) (c : FakeIpConfig) :
    Inv (match c.check with | .ok () => some c | .error _ => c?) (s.configure c).1 := by
  unfold FakeIpStore.configure
  cases hcheck : c.check with
  | error e => exact h
  | ok =>
    have hbounds := FakeIpConfig.of_check hcheck
    have htotal := FakeIpConfig.total_bounds hbounds.1
    have hcount : (UInt32.ofNat (c.total - 2)).toNat = c.total - 2 :=
      UInt32.toNat_ofNat_of_lt' (Nat.lt_of_lt_of_le (by omega) htotal.2)
    refine ⟨Paired.empty, Nat.zero_le _, nofun, fun c' hc' => ?_, fun _ _ d e he => ?_⟩
    · cases hc'
      refine ⟨hcheck, FakeIpConfig.toNat_network hbounds.1, rfl, hcount, rfl, Nat.le_refl 1, ?_⟩
      show 1 ≤ (UInt32.ofNat (c.total - 2)).toNat
      omega
    · have hnone : (∅ : AList fun _ : List UInt8 => FakeIpEntry).lookup d = some e := he
      cases hnone

/-! ## Runs -/

def accepted (c? : Option FakeIpConfig) : Op → Option FakeIpConfig
  | .configure c => match c.check with
    | .ok () => some c
    | .error _ => c?
  | _ => c?

theorem Inv.step (h : Inv c? s) (op : Op) : Inv (accepted c? op) (s.step op) := by
  cases op with
  | configure c => exact h.configure c
  | resolve domain now => exact (h.resolve domain now).1
  | reverse address now => exact h.purge now
  | release domain now =>
    have hp := h.purge now
    show Inv c? (s.release domain now).1
    unfold FakeIpStore.release
    dsimp only
    split
    · exact hp
    · rename_i found hfound
      exact hp.drop hfound
  | clear =>
    refine ⟨Paired.empty, Nat.zero_le _, h.empty, fun c hc => (h.pool c hc).same ⟨rfl, rfl, rfl, rfl, rfl, rfl⟩,
      fun _ _ d e he => ?_⟩
    have hnone : (∅ : AList fun _ : List UInt8 => FakeIpEntry).lookup d = some e := he
    cases hnone
  | size now => exact h.purge now

theorem construct_inv (c : FakeIpConfig) : Inv (accepted none (.configure c)) (construct c) := by
  have hempty : ∀ s : FakeIpStore, s.byDomain = ∅ → s.byAddress = ∅ → s.addressCount = 0 ∧ s.capacity = 0 →
    Inv none s := by
    intro s hdomain haddress hzero
    refine ⟨?_, ?_, fun _ => hzero, by simp, by simp⟩
    · rw [Mapped, hdomain, haddress]
      exact Paired.empty
    · rw [mappings, hdomain]
      exact Nat.zero_le _
  have hconfigured := (hempty {} rfl rfl ⟨rfl, rfl⟩).configure c
  unfold construct accepted
  cases hcheck : c.check with
  | ok =>
    simp only [FakeIpStore.configure, hcheck] at hconfigured ⊢
    exact hconfigured
  | error e =>
    simp only [FakeIpStore.configure, hcheck]
    exact hempty _ rfl rfl ⟨rfl, rfl⟩

theorem run_inv : ∀ (l : List Op) {c? : Option FakeIpConfig} {s : FakeIpStore}, Inv c? s →
    Inv (l.foldl accepted c?) (run FakeIpStore.step s l)
  | [], _, _, h => h
  | op :: l, _, _, h => run_inv l (h.step op)

structure Sound (c? : Option FakeIpConfig) (s : FakeIpStore) : Prop where
  inverse : Paired FakeIpEntry.address s.byDomain s.byAddress
  sizes : s.byAddress.entries.length = s.byDomain.entries.length
  bounded : s.mappings ≤ s.capacity
  cursor : c? ≠ none → 1 ≤ s.nextOffset.toNat ∧ s.nextOffset.toNat ≤ s.addressCount.toNat
  refused : ∀ c e, (s.configure c).2 = .error e → (s.configure c).1 = s
  inside : ∀ domain now a, (s.resolve domain now).2 = .ok a → ∃ c, c? = some c ∧ c.Inside a
  exhausted : ∀ domain now, normalizeName domain ≠ [] →
    (s.purgeExpired now).byDomain.lookup (normalizeName domain) = none →
    ((∃ e, (s.resolve domain now).2 = .error e) ↔ s.capacity ≤ (s.size now).2)

theorem configure_refused (s : FakeIpStore) (c : FakeIpConfig) {e : Error} (h : (s.configure c).2 = .error e) :
    (s.configure c).1 = s := by
  unfold FakeIpStore.configure at h ⊢
  cases hcheck : c.check with
  | ok =>
    rw [hcheck] at h
    cases h
  | error e => rfl

theorem Inv.sound (h : Inv c? s) : Sound c? s where
  inverse := h.mapped
  sizes := h.mapped.length_eq
  bounded := h.bounded
  cursor hne := by
    obtain ⟨c, hc⟩ := Option.ne_none_iff_exists'.1 hne
    exact (h.pool c hc).cursor
  refused c _ he := configure_refused s c he
  inside domain now := (h.resolve domain now).2.1
  exhausted domain now := (h.resolve domain now).2.2

/-- **The store after any calls at any times.** -/
theorem run_sound (c : FakeIpConfig) (l : List Op) :
    Sound (l.foldl accepted (accepted none (.configure c))) (run FakeIpStore.step (construct c) l) :=
  (run_inv l (construct_inv c)).sound

/-- A pool that no configuration was accepted for has its cursor outside, and the root name is refused
with room left. -/
theorem unconfigured_cursor_and_root_refused :
    ((construct ⟨0, 31, 1, 0⟩).nextOffset = 1 ∧ (construct ⟨0, 31, 1, 0⟩).addressCount = 0) ∧
      ((construct ⟨0, 30, 2, 0⟩).resolve [46] 0).2 = .error emptyDomainError ∧
      (construct ⟨0, 30, 2, 0⟩).mappings < (construct ⟨0, 30, 2, 0⟩).capacity := by
  decide

end FakeIpStore

end ClashNative.Dns
