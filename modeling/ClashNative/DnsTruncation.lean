import ClashNative.DnsServer
/-!
# DnsTruncation — responses cut down to a UDP payload

A response that is too long loses its record sets from the end, its EDNS data last: what is left is a
message of the same identifier that fits.  Its code stays too, unless it needs the EDNS data that went.
-/
namespace ClashNative.Dns.Server

open List

def wireCode (wire : Bytes) : UInt8 := wire.getD 3 0 &&& 0xf

structure Record.Sub (r r' : Record) : Prop where
  id : r'.id = r.id
  rcode : r'.rcode = r.rcode
  header : r'.header = r.header
  rrs : ∀ s, List.Sublist (r'.rrs s) (r.rrs s)

/-- **What c-ares promises**: what it parses is a message with the fields it says, whose code is SERVFAIL
where it has no name for it; a code of more than four bits needs an OPT record, what is left of a record
can be written, and messages of this codec are parsed. -/
structure CAres.Sound (c : CAres) : Prop where
  length : ∀ wire r, c.parse wire = .ok r → 12 ≤ wire.length
  id : ∀ wire r, c.parse wire = .ok r → wire.take 2 = u16 r.id
  code : ∀ wire r, c.parse wire = .ok r → r.rcode ≠ 2 → (wireCode wire).toNat = r.rcode % 16
  extended : ∀ wire r, c.parse wire = .ok r → 16 ≤ r.rcode → r.hasOpt = true
  write : ∀ wire r r', c.parse wire = .ok r → r.Sub r' → ∃ wire', c.write r' = .ok wire' ∧ 12 ≤ wire'.length ∧
    wire'.take 2 = u16 r.id ∧ (wireCode wire').toNat =
    (if 16 ≤ r.rcode ∧ r'.hasOpt = false then 2 else r.rcode % 16) ∧
    ((∀ s, r'.rrs s = []) → wire'.length ≤ 512)
  built : ∀ payload query wire, c.decodePacket payload none = .ok query →
    (encodeErrorResponse query 2 = .ok wire ∨ ∃ answer, encodeResponse query answer = .ok wire) →
    wire.length ≤ 0xffff →
      ∃ r, c.parse wire = .ok r ∧ r.rcode = (wireCode wire).toNat ∧ (c.packet r).isSome

theorem wireCode_lt (wire : Bytes) : (wireCode wire).toNat < 16 := Nat.lt_succ_of_le Nat.and_le_right

namespace CAres

variable {c : CAres} {r r' r'' : Record} {wire : Bytes} {maximumSize : Nat}

theorem Sub.refl (r : Record) : r.Sub r := ⟨rfl, rfl, rfl, fun _ => List.Sublist.refl _⟩

theorem Sub.trans (h : r.Sub r') (h' : r'.Sub r'') : r.Sub r'' :=
  ⟨h'.id.trans h.id, h'.rcode.trans h.rcode, h'.header.trans h.header, fun s => (h'.rrs s).trans (h.rrs s)⟩

variable {s : Section}

theorem sub_setRrs {rrs : List Rr} (h : List.Sublist rrs (r.rrs s)) : r.Sub (r.setRrs s rrs) := by
  refine ⟨rfl, rfl, rfl, fun t => ?_⟩
  unfold Record.setRrs
  dsimp only
  split
  · rename_i ht
    rw [ht]
    exact h
  · exact List.Sublist.refl _

variable {rr : Rr}

theorem lastRemovable_spec (h : lastRemovable s r = some rr) :
    rr ∈ r.rrs s ∧ (s = .additional → rr.type ≠ dnsRecordTypeOpt) := by
  refine ⟨mem_reverse.1 (mem_of_find?_eq_some h), fun hs hopt => ?_⟩
  have := find?_some h
  simp [hs, hopt] at this

theorem removeSet_sub (s : Section) (rr : Rr) (r : Record) : r.Sub (removeSet s rr r) :=
  sub_setRrs filter_sublist

theorem removeSet_hasOpt (h : s = .additional → rr.type ≠ dnsRecordTypeOpt) :
    (removeSet s rr r).hasOpt = r.hasOpt := by
  unfold Record.hasOpt removeSet Record.setRrs
  dsimp only
  split
  · rename_i hs
    rw [← hs] at h ⊢
    rw [any_filter]
    congr 1
    funext x
    by_cases hx : x.type = dnsRecordTypeOpt
    · have hne : x.type ≠ rr.type := fun he => h rfl (he ▸ hx)
      simp [hx, hx ▸ hne]
    · simp [hx]
  · rfl

theorem removeSet_length (h : rr ∈ r.rrs s) :
    ((removeSet s rr r).rrs s).length < (r.rrs s).length := by
  unfold removeSet Record.setRrs
  dsimp only
  rw [if_pos rfl]
  refine length_filter_lt_length_iff_exists.2 ⟨rr, h, ?_⟩
  simp

structure Cut (wire : Bytes) (r r' : Record) (maximumSize : Nat) (cut : Bytes) : Prop where
  fits : cut.length ≤ maximumSize
  truncated : cut.getD 2 0 &&& 0x02 = 0x02
  id : cut.take 2 = wire.take 2
  code : (wireCode cut).toNat = if 16 ≤ r.rcode ∧ r'.hasOpt = false then 2 else r.rcode % 16

theorem or_two_and_two (b : UInt8) : (b ||| 0x02) &&& 0x02 = 0x02 := by
  apply UInt8.toBitVec_inj.1
  ext i hi
  have hbit : i = 0 ∨ i = 1 ∨ i = 2 ∨ i = 3 ∨ i = 4 ∨ i = 5 ∨ i = 6 ∨ i = 7 := by omega
  rcases hbit with rfl | rfl | rfl | rfl | rfl | rfl | rfl | rfl <;> simp

theorem encodeTruncated_spec (maximumSize : Nat) (hc : c.Sound) (hparse : c.parse wire = .ok r)
    (hsub : r.Sub r') :
    (∃ cut, c.encodeTruncated maximumSize r' = .ok cut ∧ Cut wire r r' maximumSize cut) ∨
    c.encodeTruncated maximumSize r' = .error exceedsCapacity ∧
    ¬ ((∀ s, r'.rrs s = []) ∧ 512 ≤ maximumSize) := by
  obtain ⟨wire', hwrite, hlength, hid, hcode, hempty⟩ := hc.write wire r r' hparse hsub
  unfold encodeTruncated
  rw [hwrite]
  by_cases hlong : wire'.length > maximumSize
  · right
    refine ⟨if_pos hlong, fun hall => ?_⟩
    have := hempty hall.1
    omega
  · left
    refine ⟨_, if_neg hlong, ?_, ?_, ?_, ?_⟩
    · rw [length_set]
      exact Nat.not_lt.1 hlong
    · rw [getD_eq_getElem?_getD, getElem?_set_self (by omega)]
      exact or_two_and_two _
    · rw [take_set_of_le (Nat.le_refl 2), hid, hc.id wire r hparse]
    · unfold wireCode at hcode ⊢
      rw [getD_eq_getElem?_getD, getElem?_set_ne (by decide), ← getD_eq_getElem?_getD]
      exact hcode

structure Drops (wire : Bytes) (r : Record) (maximumSize : Nat)
    (dropped : Record × Option (Except Error Bytes)) : Prop where
  sub : r.Sub dropped.1
  hasOpt : dropped.1.hasOpt = r.hasOpt
  result : ∀ result, dropped.2 = some result → ∃ cut, result = .ok cut ∧ Cut wire r dropped.1 maximumSize cut

variable {t : Section}

theorem removeSet_rrs (rr : Rr) (r : Record) (h : t ≠ s) : (removeSet s rr r).rrs t = r.rrs t := if_neg h

theorem dropSets_spec (maximumSize : Nat) (hc : c.Sound) (hparse : c.parse wire = .ok r) (s : Section) :
    ∀ (n : Nat) (r' : Record), r.Sub r' →
    r'.hasOpt = r.hasOpt → (r'.rrs s).length ≤ n →
    Drops wire r maximumSize (c.dropSets maximumSize s n r') ∧
    ((c.dropSets maximumSize s n r').2 = none → lastRemovable s (c.dropSets maximumSize s n r').1 = none ∧
      ∀ t, t ≠ s → (c.dropSets maximumSize s n r').1.rrs t = r'.rrs t)
  | 0, r', hsub, hopt, hn => by
    refine ⟨⟨hsub, hopt, nofun⟩, fun _ => ⟨?_, fun _ _ => rfl⟩⟩
    unfold lastRemovable dropSets
    rw [length_eq_zero_iff.1 (Nat.le_zero.1 hn)]
    rfl
  | n + 1, r', hsub, hopt, hn => by
    unfold dropSets
    cases hlast : lastRemovable s r' with
    | none => exact ⟨⟨hsub, hopt, nofun⟩, fun _ => ⟨hlast, fun _ _ => rfl⟩⟩
    | some rr =>
      obtain ⟨hmem, htype⟩ := lastRemovable_spec hlast
      have hsub' : r.Sub (removeSet s rr r') := Sub.trans hsub (removeSet_sub s rr r')
      have hopt' : (removeSet s rr r').hasOpt = r.hasOpt := (removeSet_hasOpt htype).trans hopt
      rcases encodeTruncated_spec maximumSize hc hparse hsub' with ⟨cut, hcut, hspec⟩ | ⟨hlong, -⟩
      · dsimp only
        rw [hcut]
        refine ⟨⟨hsub', hopt', fun result h => ?_⟩, nofun⟩
        cases h
        exact ⟨cut, rfl, hspec⟩
      · dsimp only
        rw [hlong]
        dsimp only
        rw [if_neg (fun hne => hne rfl)]
        have hshorter := removeSet_length hmem
        obtain ⟨hdrops, hleft⟩ := dropSets_spec maximumSize hc hparse s n _ hsub' hopt' (by omega)
        refine ⟨hdrops, fun hnone => ⟨(hleft hnone).1, fun t ht => ?_⟩⟩
        rw [(hleft hnone).2 t ht, removeSet_rrs rr r' ht]

theorem dropSections_spec (maximumSize : Nat) (hc : c.Sound) (hparse : c.parse wire = .ok r) :
    ∀ (sections : List Section) (r' : Record),
    r.Sub r' → r'.hasOpt = r.hasOpt →
    Drops wire r maximumSize (c.dropSections maximumSize sections r') ∧
    ((c.dropSections maximumSize sections r').2 = none →
      (∀ s ∈ sections, lastRemovable s (c.dropSections maximumSize sections r').1 = none) ∧
      ∀ t, t ∉ sections → (c.dropSections maximumSize sections r').1.rrs t = r'.rrs t)
  | [], r', hsub, hopt => ⟨⟨hsub, hopt, nofun⟩, fun _ => ⟨fun s hs => (nomatch hs), fun _ _ => rfl⟩⟩
  | s :: rest, r', hsub, hopt => by
    obtain ⟨hdrops, hleft⟩ :=
      dropSets_spec maximumSize hc hparse s (r'.rrs s).length r' hsub hopt (Nat.le_refl _)
    unfold dropSections
    dsimp only
    split
    · rename_i hsome
      refine ⟨hdrops, fun hnone => ?_⟩
      rw [hnone] at hsome
      cases hsome
    · rename_i hnone
      have hnone : (c.dropSets maximumSize s (r'.rrs s).length r').2 = none := by simpa using hnone
      obtain ⟨hdrops', hleft'⟩ := dropSections_spec maximumSize hc hparse rest _ hdrops.sub hdrops.hasOpt
      refine ⟨hdrops', fun hdone => ⟨fun t ht => ?_, fun t ht => ?_⟩⟩
      · obtain ⟨hin, hout⟩ := hleft' hdone
        by_cases htr : t ∈ rest
        · exact hin t htr
        · obtain rfl : t = s := (mem_cons.1 ht).resolve_right htr
          have hlast := (hleft hnone).1
          unfold lastRemovable at hlast ⊢
          rw [hout t htr]
          exact hlast
      · rw [mem_cons, not_or] at ht
        rw [(hleft' hdone).2 t ht.2, (hleft hnone).2 t ht.1]

theorem lastRemovable_none (h : lastRemovable s r = none) (hs : s ≠ .additional) : r.rrs s = [] := by
  unfold lastRemovable at h
  rw [find?_eq_none] at h
  refine eq_nil_iff_forall_not_mem.2 fun rr hrr => ?_
  have := h rr (mem_reverse.2 hrr)
  simp [hs] at this

theorem dropOpt_empty (h : ∀ s ∈ [Section.additional, .authority, .answer], lastRemovable s r = none)
    (s : Section) :
    (dropOpt r).rrs s = [] := by
  unfold dropOpt Record.setRrs
  dsimp only
  split
  · refine filter_eq_nil_iff.2 fun rr hrr => ?_
    have hlast := h .additional (by decide)
    unfold lastRemovable at hlast
    rw [find?_eq_none] at hlast
    have := hlast rr (mem_reverse.2 hrr)
    simpa using this
  · rename_i hs
    refine lastRemovable_none (h s ?_) hs
    cases s <;> decide

/-- **The EDNS data stay** when a response is cut: it fits without other records. -/
def KeepsOpt (c : CAres) (r : Record) (maximumSize : Nat) : Prop :=
  (c.dropSections maximumSize [.additional, .authority, .answer] r).2.isSome = true

theorem truncateUdpResponse_spec (hc : c.Sound) (hparse : c.parse wire = .ok r) (hmax : 512 ≤ maximumSize)
    (hlong : maximumSize < wire.length) :
    ∃ cut, c.truncateUdpResponse wire maximumSize = .ok cut ∧ cut.length ≤ maximumSize ∧
      cut.getD 2 0 &&& 0x02 = 0x02 ∧ cut.take 2 = wire.take 2 ∧
      (wireCode cut = wireCode wire ↔
        (wireCode wire).toNat = r.rcode % 16 ∧
        (r.rcode < 16 ∨ r.rcode % 16 = 2 ∨ KeepsOpt c r maximumSize)) := by
  have hbyte : ∀ {cut : Bytes}, (wireCode cut).toNat = r.rcode % 16 →
      (wireCode cut = wireCode wire ↔ (wireCode wire).toNat = r.rcode % 16) := by
    intro cut hcut
    rw [← UInt8.toNat_inj, hcut, eq_comm]
  obtain ⟨hdrops, hleft⟩ := dropSections_spec maximumSize hc hparse [.additional, .authority, .answer] r
    (Sub.refl r) rfl
  unfold truncateUdpResponse KeepsOpt
  rw [if_neg (by omega), if_neg (Nat.not_le.2 hlong), hparse]
  dsimp only
  cases hresult : (c.dropSections maximumSize [.additional, .authority, .answer] r).2 with
  | some result =>
    obtain ⟨cut, rfl, hcut⟩ := hdrops.result result hresult
    refine ⟨cut, rfl, hcut.fits, hcut.truncated, hcut.id, (hbyte ?_).trans (and_iff_left (.inr (.inr rfl))).symm⟩
    rw [hcut.code, if_neg]
    rintro ⟨hext, hnone⟩
    rw [hdrops.hasOpt, hc.extended wire r hparse hext] at hnone
    cases hnone
  | none =>
    have hempty := dropOpt_empty (hleft hresult).1
    have hsub : r.Sub (dropOpt (c.dropSections maximumSize [.additional, .authority, .answer] r).1) :=
      Sub.trans hdrops.sub (sub_setRrs filter_sublist)
    rcases encodeTruncated_spec maximumSize hc hparse hsub with ⟨cut, hcut, hspec⟩ | ⟨-, hnot⟩
    · have hopt : (dropOpt (c.dropSections maximumSize [.additional, .authority, .answer] r).1).hasOpt =
        false := by
        unfold Record.hasOpt
        rw [hempty]
        rfl
      have hcutCode := hspec.code
      rw [hopt] at hcutCode
      refine ⟨cut, hcut, hspec.fits, hspec.truncated, hspec.id, ?_⟩
      by_cases hext : 16 ≤ r.rcode
      · rw [if_pos ⟨hext, rfl⟩] at hcutCode
        have hwire := hc.code wire r hparse (by omega)
        rw [← UInt8.toNat_inj, hcutCode, hwire]
        constructor
        · exact fun h => ⟨rfl, .inr (.inl h.symm)⟩
        · rintro ⟨-, h | h | h⟩
          · omega
          · exact h.symm
          · cases h
      · rw [if_neg (fun h => hext h.1)] at hcutCode
        exact (hbyte hcutCode).trans (and_iff_left (.inl (Nat.not_le.1 hext))).symm
    · exact absurd ⟨hempty, hmax⟩ hnot

/-! ### What is left -/

def earlier : Section → List Section
  | .additional => []
  | .authority => [.additional]
  | .answer => [.additional, .authority]

theorem not_mem_earlier (s : Section) : s ∉ earlier s := by
  cases s <;> decide

/-- **A response cut short**: whole record sets go, from the end of the additional section, then of the
authority and of the answer section; the EDNS data go when nothing else is left. -/
inductive Shortened (r : Record) : Record → Prop
  | whole : Shortened r r
  | set {r' : Record} {s : Section} {rr : Rr} : Shortened r r' → lastRemovable s r' = some rr →
      (∀ t ∈ earlier s, lastRemovable t r' = none) → Shortened r (removeSet s rr r')
  | opt {r' : Record} : Shortened r r' → (∀ s, lastRemovable s r' = none) → Shortened r (dropOpt r')

def sameSet (x y : Rr) : Prop := x.type = y.type ∧ x.classCode = y.classCode ∧ x.name = y.name

theorem mem_removeSet {x : Rr} : x ∈ (removeSet s rr r).rrs t ↔ x ∈ r.rrs t ∧ ¬ (t = s ∧ sameSet x rr) := by
  unfold removeSet Record.setRrs
  dsimp only
  split
  · rename_i ht
    simp only [mem_filter, Bool.not_eq_true', Bool.and_eq_false_iff, beq_eq_false_iff_ne, sameSet, ht, true_and]
    tauto
  · rename_i ht
    simp [ht]

theorem mem_dropOpt {x : Rr} : x ∈ (dropOpt r).rrs t ↔ x ∈ r.rrs t ∧
    ¬ (t = .additional ∧ x.type = dnsRecordTypeOpt) := by
  unfold dropOpt Record.setRrs
  dsimp only
  split
  · rename_i ht
    simp [ht]
  · rename_i ht
    simp [ht]

theorem Shortened.sets (h : Shortened r r') : r.Sub r' ∧
    ∀ s x y, sameSet x y → x ∈ r.rrs s → y ∈ r.rrs s → (x ∈ r'.rrs s ↔ y ∈ r'.rrs s) := by
  induction h with
  | whole => exact ⟨Sub.refl r, fun s x y _ hx hy => iff_of_true hx hy⟩
  | set _ _ _ ih =>
    refine ⟨Sub.trans ih.1 (removeSet_sub _ _ _), fun s x y hxy hx hy => ?_⟩
    have hsame : ∀ rr, sameSet x rr ↔ sameSet y rr := fun rr => by rw [sameSet, sameSet, hxy.1, hxy.2.1, hxy.2.2]
    rw [mem_removeSet, mem_removeSet, ih.2 s x y hxy hx hy, hsame]
  | opt _ _ ih =>
    refine ⟨Sub.trans ih.1 (sub_setRrs filter_sublist), fun s x y hxy hx hy => ?_⟩
    rw [mem_dropOpt, mem_dropOpt, ih.2 s x y hxy hx hy, hxy.1]

theorem dropSets_shortened (maximumSize : Nat) (s : Section) : ∀ (n : Nat) (r' : Record), Shortened r r' →
    (∀ t ∈ earlier s, lastRemovable t r' = none) → Shortened r (c.dropSets maximumSize s n r').1 ∧
      (∀ result, (c.dropSets maximumSize s n r').2 = some result →
        result = c.encodeTruncated maximumSize (c.dropSets maximumSize s n r').1)
  | 0, r', h, _ => ⟨h, fun _ heq => by cases heq⟩
  | n + 1, r', h, hearlier => by
    unfold dropSets
    cases hlast : lastRemovable s r' with
    | none => exact ⟨h, fun _ heq => by cases heq⟩
    | some rr =>
      have hset := h.set hlast hearlier
      dsimp only
      split
      · rename_i wire hwire
        exact ⟨hset, fun result heq => by rw [hwire]; exact (Option.some.inj heq).symm⟩
      · rename_i e he
        split
        · exact ⟨hset, fun result heq => by rw [he]; exact (Option.some.inj heq).symm⟩
        · refine dropSets_shortened maximumSize s n _ hset fun t ht => ?_
          have hne : t ≠ s := by
            rintro rfl
            exact not_mem_earlier t ht
          have hnone := hearlier t ht
          unfold lastRemovable at hnone ⊢
          rwa [removeSet_rrs rr r' hne]

theorem earlier_eq {done rest : List Section} (h : done ++ s :: rest = [.additional, .authority, .answer]) :
    earlier s = done := by
  match done, h with
  | [], h => cases h; rfl
  | [_], h => cases h; rfl
  | [_, _], h => cases h; rfl
  | _ :: _ :: _ :: _, h => simp at h

theorem dropSections_shortened (hc : c.Sound) (hparse : c.parse wire = .ok r) :
    ∀ (sections done : List Section) (r' : Record),
    done ++ sections = [.additional, .authority, .answer] → r.Sub r' → r'.hasOpt = r.hasOpt → Shortened r r' →
      (∀ t ∈ done, lastRemovable t r' = none) → Shortened r (c.dropSections maximumSize sections r').1 ∧
      ∀ result, (c.dropSections maximumSize sections r').2 = some result →
        result = c.encodeTruncated maximumSize (c.dropSections maximumSize sections r').1
  | [], _, r', _, _, _, h, _ => ⟨h, fun _ heq => by cases heq⟩
  | s :: rest, done, r', horder, hsub, hopt, h, hdone => by
    have hearlier := earlier_eq horder
    obtain ⟨hset, hresult⟩ := @dropSets_shortened c r maximumSize s (r'.rrs s).length r' h
      (by rw [hearlier]; exact hdone)
    obtain ⟨hdrops, hleft⟩ := dropSets_spec maximumSize hc hparse s (r'.rrs s).length r' hsub hopt
      (Nat.le_refl _)
    unfold dropSections
    dsimp only
    split
    · exact ⟨hset, hresult⟩
    · rename_i hnone
      have hnone : (c.dropSets maximumSize s (r'.rrs s).length r').2 = none := by simpa using hnone
      refine dropSections_shortened hc hparse rest (done ++ [s]) _ (by rw [append_assoc]; exact horder)
        hdrops.sub hdrops.hasOpt hset
        fun t ht => ?_
      rcases mem_append.1 ht with hold | hnew
      · have hne : t ≠ s := by
          rintro rfl
          exact not_mem_earlier t (by rw [hearlier]; exact hold)
        have hlast := hdone t hold
        unfold lastRemovable at hlast ⊢
        rwa [(hleft hnone).2 t hne]
      · exact mem_singleton.1 hnew ▸ (hleft hnone).1

theorem truncateUdpResponse_shortened (hc : c.Sound) (hparse : c.parse wire = .ok r) (hmin : 12 ≤ maximumSize)
    (hlong : maximumSize < wire.length) :
    ∃ r', Shortened r r' ∧ c.truncateUdpResponse wire maximumSize = c.encodeTruncated maximumSize r' := by
  obtain ⟨hset, hresult⟩ := @dropSections_shortened c r wire maximumSize hc hparse [.additional,
    .authority, .answer] [] r rfl (Sub.refl r) rfl
    .whole fun t ht => absurd ht not_mem_nil
  obtain ⟨-, hleft⟩ := dropSections_spec maximumSize hc hparse [.additional, .authority, .answer] r
    (Sub.refl r) rfl
  unfold truncateUdpResponse
  rw [if_neg (Nat.not_lt.2 hmin), if_neg (Nat.not_le.2 hlong), hparse]
  dsimp only
  cases hdropped : (c.dropSections maximumSize [.additional, .authority, .answer] r).2 with
  | some result => exact ⟨_, hset, hresult result hdropped⟩
  | none => exact ⟨_, hset.opt fun s => (hleft hdropped).1 s (by cases s <;> decide), rfl⟩

end CAres

end ClashNative.Dns.Server
