import ClashNative.FakeIpPool
/-!
# FakeIpLifetime — a synthetic answer and the mapping behind it

`fake_ip_response` of `dns_server.cpp` promises an address for 60 seconds.  The store keeps that promise
exactly when the mapping it answers from still has as long to live (`Lasts`): a repeated lookup does not
renew it.
-/
namespace ClashNative.Dns

open Runs List

structure DnsAnswer where
  question : DnsQuestion
  addresses : List UInt32
  ttlSeconds : UInt32
  deriving DecidableEq, Repr

/-- What is encoded for a synthetic response: an answer, or an error response with its code. -/
inductive FakeIpReply
  | answer (a : DnsAnswer)
  | error (code : UInt16)
  deriving DecidableEq, Repr

namespace FakeIpStore

/-- `fake_ip_response`; `none` when the query goes upstream. -/
def fakeIpResponse (query : DnsPacket) (s : FakeIpStore) (filter : List UInt8 → Bool) (now : Int) :
    FakeIpStore × Option FakeIpReply :=
  match query.questions with
  | [question] =>
    if query.response || question.type != 1 || !filter question.name then (s, none)
    else
      match s.resolve question.name now with
      | (s, .error _) => (s, some (.error 2))
      | (s, .ok address) => (s, some (.answer ⟨question, [address], 60⟩))
  | _ => (s, none)

/-! ### Runs of the DNS server and the other users of the store -/

/-- A query of the DNS server, with what the filter says of its name, or a call of the store. -/
inductive Event
  | query (packet : DnsPacket) (wanted : Bool) (now : Int)
  | call (op : Op)

def Op.time : Op → Option Int
  | .configure _ => none
  | .resolve _ now => some now
  | .reverse _ now => some now
  | .release _ now => some now
  | .clear => none
  | .size now => some now

def Event.time : Event → Option Int
  | .query _ _ now => some now
  | .call op => op.time

def Event.Unmaps (domain : List UInt8) : Event → Prop
  | .call (.release d _) => normalizeName d = domain
  | .call (.configure _) => True
  | .call .clear => True
  | _ => False

def handle (s : FakeIpStore) : Event → FakeIpStore
  | .query packet wanted now => (fakeIpResponse packet s (fun _ => wanted) now).1
  | .call op => s.step op

/-- **The events happen one after another**, from `t` on and up to `t'`. -/
def Clock : Int → List Event → Int → Prop
  | t, [], t' => t ≤ t'
  | t, e :: l, t' => t ≤ e.time.getD t ∧ Clock (e.time.getD t) l t'

/-- **The address belongs to the domain**, both ways. -/
def Maps (s : FakeIpStore) (domain : List UInt8) (address : UInt32) : Prop :=
  (∃ e, s.byDomain.lookup domain = some e ∧ e.address = address) ∧ s.byAddress.lookup address = some domain

/-- **A mapping that is answered from at `t` has the answer's 60 seconds to live**: the one that is there,
or the one that the answer makes. -/
def Lasts (s : FakeIpStore) (domain : List UInt8) (t : Int) : Prop :=
  t + 60 * nanosecondsPerSecond ≤
    (((s.purgeExpired t).byDomain.lookup domain).map FakeIpEntry.expires).getD (expiry s.entryTtl t)

variable {s : FakeIpStore} {domain : List UInt8} {c? : Option FakeIpConfig}

/-! ## What a purge leaves -/

theorem lookup_purge (s : FakeIpStore) (domain : List UInt8) (now : Int) :
    (s.purgeExpired now).byDomain.lookup domain =
      if s.entryTtl ≠ 0 ∧ nanosecondsPerSecond ≤ now - s.lastPurge then
        (s.byDomain.lookup domain).filter (fun e => decide (now < e.expires))
      else s.byDomain.lookup domain := by
  unfold purgeExpired
  by_cases httl : s.entryTtl = 0
  · rw [if_pos httl, if_neg (fun h => h.1 httl)]
  · by_cases hearly : now - s.lastPurge < nanosecondsPerSecond
    · rw [if_neg httl, if_pos hearly, if_neg (fun h => absurd hearly (Int.not_lt.2 h.2))]
    · rw [if_neg httl, if_neg hearly, if_pos ⟨httl, Int.not_lt.1 hearly⟩]
      have hfold := PairedMaps.lookup_erase_foldl FakeIpStore.byDomain (fun e => decide (now < e.expires))
        (fun s x => if x.2.expires > now then s else s.drop x.1 x.2.address)
        (fun s x hkeep => by rw [if_pos (of_decide_eq_true hkeep)])
        (fun s x hkeep => by rw [if_neg (of_decide_eq_false hkeep)]; rfl)
        s.byDomain.entries { s with lastPurge := now } domain
          (fun x hx => AList.mem_lookup_iff.2 hx) s.byDomain.nodupKeys
      refine hfold.trans ?_
      split
      · rfl
      · rename_i hkey
        have hnone : s.byDomain.lookup domain = none := AList.lookup_eq_none.2 fun h => hkey (AList.mem_keys.1 h)
        rw [hnone]
        rfl

variable {now : Int} {e : FakeIpEntry}

theorem lookup_purge_live (he : s.byDomain.lookup domain = some e) (hlive : now < e.expires) :
    (s.purgeExpired now).byDomain.lookup domain = some e := by
  rw [lookup_purge, he, Option.filter_some, if_pos (decide_eq_true hlive), ite_self]

theorem lastPurge_purge (s : FakeIpStore) (now : Int) :
    (s.purgeExpired now).lastPurge =
      if s.entryTtl ≠ 0 ∧ nanosecondsPerSecond ≤ now - s.lastPurge then now else s.lastPurge := by
  have hloop : ∀ (l : List ((_ : List UInt8) × FakeIpEntry)) (s : FakeIpStore),
      (l.foldl (fun s x => if x.2.expires > now then s else s.drop x.1 x.2.address) s).lastPurge =
      s.lastPurge := by
    intro l
    induction l with
    | nil => exact fun _ => rfl
    | cons x l ih =>
      intro s
      rw [foldl_cons, ih]
      split <;> rfl
  unfold purgeExpired
  by_cases httl : s.entryTtl = 0
  · rw [if_pos httl, if_neg (fun h => h.1 httl)]
  · by_cases hearly : now - s.lastPurge < nanosecondsPerSecond
    · rw [if_neg httl, if_pos hearly, if_neg (fun h => absurd hearly (Int.not_lt.2 h.2))]
    · rw [if_neg httl, if_neg hearly, if_pos ⟨httl, Int.not_lt.1 hearly⟩, hloop]

/-! ## What a lookup leaves -/

theorem allocate_keeps (domain : List UInt8) (now : Int) : ∀ (attempts : Nat) (s : FakeIpStore),
    (∀ d, d ≠ domain → (s.allocate domain now attempts).1.byDomain.lookup d = s.byDomain.lookup d) ∧
      (s.allocate domain now attempts).1.lastPurge = s.lastPurge
  | 0, s => ⟨fun _ _ => rfl, rfl⟩
  | attempts + 1, s => by
    unfold allocate
    dsimp only
    split
    · exact ⟨fun d hd => AList.lookup_insert_ne hd, rfl⟩
    · exact allocate_keeps domain now attempts _

theorem resolve_keeps (s : FakeIpStore) (name : List UInt8) (now : Int) :
    (∀ d e, (s.purgeExpired now).byDomain.lookup d = some e →
      (s.resolve name now).1.byDomain.lookup d = some e) ∧
      (s.resolve name now).1.lastPurge = (s.purgeExpired now).lastPurge := by
  unfold resolve
  dsimp only
  split
  · exact ⟨fun _ _ h => h, rfl⟩
  · split
    · exact ⟨fun _ _ h => h, rfl⟩
    · rename_i hnone
      split
      · exact ⟨fun _ _ h => h, rfl⟩
      · have hkeeps := allocate_keeps (normalizeName name) now (s.purgeExpired now).addressCount.toNat
          (s.purgeExpired now)
        refine ⟨fun d e he => ?_, hkeeps.2⟩
        rw [hkeeps.1 d ?_, he]
        rintro rfl
        rw [hnone] at he
        cases he

theorem fakeIpResponse_store (packet : DnsPacket) (s : FakeIpStore) (filter : List UInt8 → Bool) (now : Int) :
    (fakeIpResponse packet s filter now).1 = s ∨ ∃ name, (fakeIpResponse packet s filter now).1 =
    (s.resolve name now).1 := by
  unfold fakeIpResponse
  split
  · rename_i question _
    split
    · exact .inl rfl
    · refine .inr ⟨question.name, ?_⟩
      cases s.resolve question.name now with
      | mk s' r => cases r <;> rfl
  · exact .inl rfl

theorem resolve_of_answer {packet : DnsPacket} {filter : List UInt8 → Bool} {a : DnsAnswer}
    (h : (fakeIpResponse packet s filter now).2 = some (.answer a)) :
    ∃ address, s.resolve a.question.name now = ((fakeIpResponse packet s filter now).1, .ok address) ∧
      a.addresses = [address] ∧ a.ttlSeconds = 60 := by
  unfold fakeIpResponse at h ⊢
  split at h
  · rename_i question _
    split at h
    · cases h
    · rename_i hguard
      cases hresolve : s.resolve question.name now with
      | mk s' r =>
        rw [hresolve] at h
        cases r with
        | error e => cases h
        | ok address =>
          cases h
          rw [if_neg hguard]
          exact ⟨address, hresolve, rfl, rfl⟩
  · cases h

/-! ## The mapping through a run -/

variable {t : Int}

theorem lastPurge_handle (s : FakeIpStore) (e : Event) (hlast : s.lastPurge ≤ t) (ht : t ≤ e.time.getD t) :
    (s.handle e).lastPurge ≤ e.time.getD t := by
  have hpurge : ∀ now : Int, t ≤ now → (s.purgeExpired now).lastPurge ≤ now := by
    intro now hnow
    rw [lastPurge_purge]
    split
    · exact Int.le_refl now
    · exact Int.le_trans hlast hnow
  have hresolve : ∀ (name : List UInt8) (now : Int), t ≤ now → (s.resolve name now).1.lastPurge ≤ now := by
    intro name now hnow
    rw [(resolve_keeps s name now).2]
    exact hpurge now hnow
  cases e with
  | query packet wanted now =>
    rcases fakeIpResponse_store packet s (fun _ => wanted) now with hsame | ⟨name, hname⟩
    · show (fakeIpResponse packet s (fun _ => wanted) now).1.lastPurge ≤ now
      rw [hsame]
      exact Int.le_trans hlast ht
    · show (fakeIpResponse packet s (fun _ => wanted) now).1.lastPurge ≤ now
      rw [hname]
      exact hresolve name now ht
  | call op =>
    cases op with
    | configure c =>
      show (s.configure c).1.lastPurge ≤ t
      unfold configure
      split <;> exact hlast
    | resolve name now => exact hresolve name now ht
    | reverse address now => exact hpurge now ht
    | release name now =>
      show (s.release name now).1.lastPurge ≤ now
      unfold release
      dsimp only
      split <;> exact hpurge now ht
    | clear => exact hlast
    | size now => exact hpurge now ht

theorem lastPurge_run : ∀ (l : List Event) {s : FakeIpStore} {t t' : Int}, s.lastPurge ≤ t → Clock t l t' →
    (run handle s l).lastPurge ≤ t' ∧ t ≤ t'
  | [], _, _, _, hlast, hclock => ⟨Int.le_trans hlast hclock, hclock⟩
  | e :: l, s, _, _, hlast, ⟨ht, hclock⟩ => by
    obtain ⟨hrun, hle⟩ := lastPurge_run l (lastPurge_handle s e hlast ht) hclock
    exact ⟨hrun, Int.le_trans ht hle⟩

theorem handle_keeps (he : s.byDomain.lookup domain = some e) {event : Event}
    (htime : event.time.getD t < e.expires) (hkeeps : ¬ event.Unmaps domain) :
    (s.handle event).byDomain.lookup domain = some e := by
  cases event with
  | query packet wanted now =>
    show (fakeIpResponse packet s (fun _ => wanted) now).1.byDomain.lookup domain = some e
    rcases fakeIpResponse_store packet s (fun _ => wanted) now with hsame | ⟨name, hname⟩
    · rw [hsame, he]
    · rw [hname]
      exact (resolve_keeps s name now).1 domain e (lookup_purge_live he htime)
  | call op =>
    cases op with
    | configure c => exact absurd trivial hkeeps
    | resolve name now => exact (resolve_keeps s name now).1 domain e (lookup_purge_live he htime)
    | reverse address now => exact lookup_purge_live he htime
    | release name now =>
      have hne : domain ≠ normalizeName name := fun heq => hkeeps heq.symm
      show (s.release name now).1.byDomain.lookup domain = some e
      unfold release
      dsimp only
      split
      · exact lookup_purge_live he htime
      · exact (AList.lookup_erase_ne hne).trans (lookup_purge_live he htime)
    | clear => exact absurd trivial hkeeps
    | size now => exact lookup_purge_live he htime

theorem run_keeps : ∀ (l : List Event) {s : FakeIpStore} {t t' : Int},
    s.byDomain.lookup domain = some e → Clock t l t' → t' < e.expires → (∀ event ∈ l, ¬ event.Unmaps domain) →
    (run handle s l).byDomain.lookup domain = some e
  | [], _, _, _, he, _, _, _ => he
  | event :: l, s, t, t', he, ⟨_, hclock⟩, hexpires, hkeeps => by
    have hle : event.time.getD t ≤ t' :=
    (lastPurge_run l (s := { s with lastPurge := event.time.getD t }) (Int.le_refl _) hclock).2
    exact run_keeps l (handle_keeps he (Int.lt_of_le_of_lt hle hexpires) (hkeeps event mem_cons_self))
      hclock hexpires
      fun event' hevent' => hkeeps event' (mem_cons_of_mem _ hevent')

theorem Inv.handle (h : Inv c? s) (e : Event) : ∃ c?', Inv c?' (s.handle e) := by
  cases e with
  | query packet wanted now =>
    refine ⟨c?, ?_⟩
    show Inv c? (fakeIpResponse packet s (fun _ => wanted) now).1
    rcases fakeIpResponse_store packet s (fun _ => wanted) now with hsame | ⟨name, hname⟩
    · rw [hsame]
      exact h
    · rw [hname]
      exact (h.resolve name now).1
  | call op => exact ⟨_, h.step op⟩

theorem run_handle_inv : ∀ (l : List Event) {c? : Option FakeIpConfig} {s : FakeIpStore}, Inv c? s →
    ∃ c?', Inv c?' (run FakeIpStore.handle s l)
  | [], c?, _, h => ⟨c?, h⟩
  | e :: l, _, _, h => by
    obtain ⟨_, h'⟩ := h.handle e
    exact run_handle_inv l h'

/-! ## Answers -/

theorem expiry_eq {entryTtl : Int} (ht : 0 ≤ t) (httl : 0 < entryTtl)
    (hfits : t + entryTtl * nanosecondsPerSecond ≤ timePointMax) :
    expiry entryTtl t = t + entryTtl * nanosecondsPerSecond := by
  unfold timePointMax nanosecondsPerSecond at *
  rw [expiry, if_neg (by omega), nanosecondsPerSecond, Int.bmod_eq_of_le (by omega) (by omega)]

/-- A new mapping lasts whenever its expiry fits. -/
theorem lasts_of_unmapped (ht : 0 ≤ t) (httl : 60 ≤ s.entryTtl)
    (hfits : t + s.entryTtl * nanosecondsPerSecond ≤ timePointMax)
    (hnone : (s.purgeExpired t).byDomain.lookup domain = none) : Lasts s domain t := by
  rw [Lasts, hnone, Option.map_none, Option.getD_none, expiry_eq ht (by omega) hfits]
  unfold nanosecondsPerSecond
  omega

theorem resolve_entry (h : Inv c? s) {name : List UInt8} {s' : FakeIpStore} {address : UInt32}
    (hresolve : s.resolve name now = (s', .ok address)) :
    ∃ e, s'.byDomain.lookup (normalizeName name) = some e ∧ e.address = address ∧
      ((s.purgeExpired now).byDomain.lookup (normalizeName name) = some e ∨
        (s.purgeExpired now).byDomain.lookup (normalizeName name) = none ∧ e.expires = expiry s.entryTtl now) ∧
      s'.lastPurge = (s.purgeExpired now).lastPurge ∧ s'.entryTtl = s.entryTtl := by
  have hp := h.purge now
  have hsame := (purge_same s now).entryTtl
  unfold FakeIpStore.resolve at hresolve
  dsimp only at hresolve
  rw [← hsame]
  generalize s.purgeExpired now = p at hp hresolve ⊢
  split at hresolve
  · cases hresolve
  · split at hresolve
    · rename_i existing hexisting
      cases hresolve
      exact ⟨existing, hexisting, rfl, .inl hexisting, rfl, rfl⟩
    · rename_i hnone
      split at hresolve
      · cases hresolve
      · rename_i hroom
        rw [not_or] at hroom
        obtain ⟨c, hc⟩ := hp.configured (Nat.lt_of_le_of_lt (Nat.zero_le _) (Nat.not_le.1 hroom.1))
        rcases allocate_spec now p.addressCount.toNat (hp.pool c hc) hnone with
          ⟨value, expires, hok, -, -, hdomain, -, hexpires, -, hentryTtl, hlast⟩ | ⟨herror, -⟩
        · rw [hresolve] at hok hdomain hentryTtl hlast
          cases hok
          refine ⟨⟨address, expires⟩, ?_, rfl, .inr ⟨hnone, hexpires⟩, hlast, hentryTtl⟩
          rw [hdomain, AList.lookup_insert]
        · rw [hresolve] at herror
          cases herror

/-- **An answer's mapping outlives the answer exactly when it lasts.**  `l` is the run up to the query at
`t`; its continuations are those in which nobody takes the mapping away. -/
theorem answer_kept_iff {c : FakeIpConfig} {l : List Event} {t : Int} (hclock : Clock 0 l t) {packet : DnsPacket}
    {filter : List UInt8 → Bool} {a : DnsAnswer} {address : UInt32}
    (httl : 60 ≤ (run handle (construct c) l).entryTtl)
    (hanswer : (fakeIpResponse packet (run handle (construct c) l) filter t).2 = some (.answer a))
    (haddress : address ∈ a.addresses) :
    (∀ (l' : List Event) (u : Int), Clock t l' u → u < t + a.ttlSeconds.toNat * nanosecondsPerSecond →
        (∀ e ∈ l', ¬ e.Unmaps (normalizeName a.question.name)) →
        (run handle (fakeIpResponse packet (run handle (construct c) l) filter t).1 l').Maps
          (normalizeName a.question.name) address) ↔
      Lasts (run handle (construct c) l) (normalizeName a.question.name) t := by
  obtain ⟨_, hinv⟩ := run_handle_inv l (construct_inv c)
  have hstart : (construct c).lastPurge ≤ 0 := by
    unfold construct configure
    cases c.check <;> exact Int.le_refl 0
  obtain ⟨hlast, hpos⟩ := lastPurge_run l hstart hclock
  generalize run handle (construct c) l = s at hinv hlast httl hanswer ⊢
  obtain ⟨address', hresolve, haddresses, hseconds⟩ := resolve_of_answer hanswer
  rw [haddresses, mem_singleton] at haddress
  subst haddress
  have hsixty : (a.ttlSeconds.toNat : Int) = 60 := by rw [hseconds]; rfl
  have hinv' := (hinv.resolve a.question.name t).1
  obtain ⟨e, he, hvalue, hentry, hpurged, hkeptTtl⟩ := resolve_entry hinv hresolve
  rw [hresolve] at hinv'
  generalize (fakeIpResponse packet s filter t).1 = s' at he hinv' hresolve hpurged hkeptTtl ⊢
  rw [hsixty]
  have hne : s.entryTtl ≠ 0 := by omega
  have hexpiry : (((s.purgeExpired t).byDomain.lookup (normalizeName a.question.name)).map
    FakeIpEntry.expires).getD
      (expiry s.entryTtl t) = e.expires := by
    rcases hentry with hold | ⟨hnone, hnew⟩
    · rw [hold]
      rfl
    · rw [hnone, hnew]
      rfl
  unfold Lasts
  rw [hexpiry]
  constructor
  · intro hkept
    by_contra hshort
    -- the next purge behind its expiry takes it
    have hlast' : s'.lastPurge ≤ t ∧ t < s'.lastPurge + nanosecondsPerSecond := by
      rw [hpurged, lastPurge_purge]
      unfold nanosecondsPerSecond
      split
      · omega
      · rename_i hthrottled
        omega
    have hmaps := hkept [.call (.size (max e.expires (s'.lastPurge + nanosecondsPerSecond)))]
      (max e.expires (s'.lastPurge + nanosecondsPerSecond)) ⟨by
        show t ≤ max e.expires (s'.lastPurge + nanosecondsPerSecond)
        omega, Int.le_refl _⟩ (by
        omega) (fun event hevent => by
        rw [mem_singleton.1 hevent]
        exact fun h => h)
    obtain ⟨⟨e', he', -⟩, -⟩ := hmaps
    have hgone : (s'.purgeExpired (max e.expires (s'.lastPurge + nanosecondsPerSecond))).byDomain.lookup
        (normalizeName a.question.name) = some e' := he'
    rw [lookup_purge, he, if_pos ⟨by rw [hkeptTtl]; exact hne, by omega⟩, Option.filter_some,
      if_neg (by rw [decide_eq_true_eq]; omega)] at hgone
    cases hgone
  · intro hexpires l' u hclock' hu hkeeps
    have hrun := run_keeps l' he hclock' (Int.lt_of_lt_of_le hu hexpires) hkeeps
    obtain ⟨_, hinv''⟩ := run_handle_inv l' hinv'
    refine ⟨⟨e, hrun, hvalue⟩, ?_⟩
    rw [← hvalue]
    exact hinv''.mapped.there hrun

def twoAddresses : FakeIpConfig := ⟨0xc6120000, 30, 2, 300⟩

def queryFor (name : List UInt8) : DnsPacket := { wire := [], questions := [⟨name, 1, 1⟩] }

theorem answer_kept_iff_first :
    (∀ (l' : List Event) (u : Int), Clock 0 l' u → u < 0 + (60 : UInt32).toNat * nanosecondsPerSecond →
        (∀ e ∈ l', ¬ e.Unmaps (normalizeName [100])) →
        (run handle (fakeIpResponse (queryFor [100]) (run handle (construct twoAddresses) [])
          (fun _ => true) 0).1 l').Maps
          (normalizeName [100]) 0xc6120001) ↔
      Lasts (run handle (construct twoAddresses) []) (normalizeName [100]) 0 := by
  have httl : 60 ≤ (run handle (construct twoAddresses) []).entryTtl := by decide
  have hanswer : (fakeIpResponse (queryFor [100]) (run handle (construct twoAddresses) []) (fun _ => true) 0).2 =
      some (.answer ⟨⟨[100], 1, 1⟩, [0xc6120001], 60⟩) := by decide
  have hkept := answer_kept_iff (l := []) (Int.le_refl 0) httl hanswer (mem_singleton_self _)
  exact hkept

/-- **An answer that is given again shortly before its mapping expires** is for another domain a few
seconds later. -/
theorem repeated_answer_remapped :
    (fakeIpResponse (queryFor [100]) (run handle (construct twoAddresses) [.query (queryFor [100]) true 0])
        (fun _ => true) (290 * nanosecondsPerSecond)).2 = some (.answer ⟨⟨[100], 1, 1⟩, [0xc6120001], 60⟩) ∧
      (run handle (construct twoAddresses) [.query (queryFor [100]) true 0,
        .query (queryFor [100]) true (290 * nanosecondsPerSecond),
        .query (queryFor [120]) true (301 * nanosecondsPerSecond),
        .query (queryFor [121]) true (301 * nanosecondsPerSecond)]).byAddress.lookup 0xc6120001 =
        some [121] := by
  decide

end FakeIpStore

end ClashNative.Dns
