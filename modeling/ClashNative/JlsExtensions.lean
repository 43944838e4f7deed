import ClashNative.JlsHello
/-!
# JlsExtensions — the loops over the extensions and the binders

Each loop zeroes what is laid out as it should be, and refuses everything else without an access outside
of the message.
-/
namespace ClashNative.Jls

open List

open Wire (putU16 getU16)

/-! ### The binders -/

theorem vector8_cons (bytes rest : Bytes) :
    vector8 bytes ++ rest = UInt8.ofNat bytes.length :: (bytes ++ rest) := rfl

theorem toNat_ofNat_lt {n : Nat} (h : n < 256) : (UInt8.ofNat n).toNat = n := by
  rw [UInt8.toNat_ofNat']
  omega

theorem length_le_bindersWire : ∀ binders : List Bytes, binders.length ≤ (bindersWire binders).length
  | [] => Nat.le_refl _
  | binder :: binders => by
    have h := length_le_bindersWire binders
    show binders.length + 1 ≤ (vector8 binder ++ bindersWire binders).length
    rw [length_append, vector8, length_cons]
    omega

theorem length_vector8 (bytes : Bytes) : (vector8 bytes).length = bytes.length + 1 := rfl

theorem zeroBinders_cons (fuel : Nat) (before binder rest : Bytes) (n : Nat) (hbinder : binder.length < 256) :
    zeroBinders (fuel + 1) (before ++ (vector8 binder ++ rest)) before.length
    (before.length + (binder.length + 1 + n)) =
      zeroBinders fuel (before ++ vector8 (zeros binder) ++ rest) (before ++ vector8 (zeros binder)).length
        ((before ++ vector8 (zeros binder)).length + n) := by
  have hread := readU8_append (e := .pskBinder) before (binder ++ rest) (UInt8.ofNat binder.length)
  rw [toNat_ofNat_lt hbinder] at hread
  have hfill := zeroFill_append (before ++ [UInt8.ofNat binder.length]) binder rest
  rw [length_append, length_singleton, append_assoc] at hfill
  have hwire : before ++ vector8 (zeros binder) ++ rest = before ++ [UInt8.ofNat binder.length] ++
    (zeros binder ++ rest) := by
    simp [vector8, Extension.length_zeros]
  have hlength : (before ++ vector8 (zeros binder)).length = before.length + 1 + binder.length := by
    rw [length_append, length_vector8, Extension.length_zeros]
    omega
  have hend : before.length + (binder.length + 1 + n) = before.length + 1 + binder.length + n := by omega
  rw [hwire, hlength, hend]
  conv_lhs => unfold zeroBinders
  rw [if_pos (by omega), vector8_cons, hread]
  show (if sizeSub (before.length + 1 + binder.length + n) (before.length + 1) < binder.length then _
    else (zeroFill (before ++ ([UInt8.ofNat binder.length] ++ (binder ++ rest)))
      (before.length + 1) binder.length >>= _)) = _
  rw [sizeSub_of_le (by omega), if_neg (by omega), hfill]
  rfl

theorem zeroBinders_nil (fuel : Nat) (wire : Bytes) (cursor : Nat) :
    zeroBinders (fuel + 1) wire cursor cursor = .ok (wire, cursor) :=
  if_neg (Nat.lt_irrefl _)

theorem bindersWire_cons (binder : Bytes) (binders : List Bytes) :
    bindersWire (binder :: binders) = vector8 binder ++ bindersWire binders := rfl

theorem zeroBinders_wire : ∀ (binders : List Bytes) (fuel : Nat) (before rest : Bytes), binders.length < fuel →
    (∀ binder ∈ binders, binder.length < 256) →
    zeroBinders fuel (before ++ (bindersWire binders ++ rest)) before.length
    (before.length + (bindersWire binders).length) =
      .ok (before ++ (bindersWire (binders.map zeros) ++ rest), before.length + (bindersWire binders).length)
  | [], fuel + 1, before, rest, _, _ => zeroBinders_nil fuel _ _
  | binder :: binders, fuel + 1, before, rest, hfuel, hlengths => by
    have hrest := zeroBinders_wire binders fuel (before ++ vector8
      (zeros binder)) rest (Nat.lt_of_succ_lt_succ hfuel)
      fun b hb => hlengths b (mem_cons_of_mem _ hb)
    have hwhole : (bindersWire (binder :: binders)).length =
        binder.length + 1 + (bindersWire binders).length := by
      rw [bindersWire_cons, length_append, length_vector8]
    have hpast : (before ++ vector8 (zeros binder)).length + (bindersWire binders).length =
        before.length + (bindersWire (binder :: binders)).length := by
      rw [hwhole, length_append, length_vector8, Extension.length_zeros, Nat.add_assoc]
    have hone := zeroBinders_cons fuel before binder (bindersWire binders ++ rest) (bindersWire binders).length
      (hlengths binder mem_cons_self)
    rw [hrest, hpast, ← hwhole] at hone
    have hsplit : bindersWire (binder :: binders) ++ rest = vector8 binder ++
      (bindersWire binders ++ rest) := append_assoc ..
    rw [hsplit, hone, map_cons, bindersWire_cons (zeros binder)]
    simp only [append_assoc]

theorem zeroBinders_cases : ∀ (fuel : Nat) (before region rest : Bytes), region.length < fuel →
    (∃ binders, region = bindersWire binders ∧ ∀ binder ∈ binders, binder.length < 256) ∨
      Refused (zeroBinders fuel (before ++ (region ++ rest)) before.length (before.length + region.length))
  | 0, _, _, _, hfuel => absurd hfuel (Nat.not_lt_zero _)
  | fuel + 1, before, [], rest, _ => .inl ⟨[], rfl, fun _ hb => absurd hb not_mem_nil⟩
  | fuel + 1, before, byte :: region, rest, hfuel => by
    rw [length_cons] at hfuel
    by_cases hshort : region.length < byte.toNat
    · -- The binder is longer than what is left of the binders.
      refine .inr ⟨.pskBinder, ?_, by decide⟩
      unfold zeroBinders
      rw [length_cons, if_pos (by omega), cons_append, readU8_append]
      show (if sizeSub (before.length + (region.length + 1)) (before.length + 1) < byte.toNat then _ else _) = _
      rw [sizeSub_of_le (by omega), if_pos (by omega)]
    · have hbinder : (region.take byte.toNat).length = byte.toNat := by
        rw [length_take]
        omega
      have hvector : byte :: region = vector8 (region.take byte.toNat) ++ region.drop byte.toNat := by
        rw [vector8_cons, take_append_drop, hbinder]
        simp
      have hlt : (region.take byte.toNat).length < 256 := by
        rw [hbinder]
        exact byte.toNat_lt
      have hdrop : (region.drop byte.toNat).length < fuel := by
        rw [length_drop]
        omega
      rcases zeroBinders_cases fuel (before ++ vector8 (zeros (region.take byte.toNat)))
        (region.drop byte.toNat) rest hdrop with
        ⟨binders, hregion, hall⟩ | hrefused
      · refine .inl ⟨region.take byte.toNat :: binders,
          by rw [bindersWire_cons, ← hregion, hvector], fun b hb => ?_⟩
        rcases mem_cons.1 hb with rfl | hb
        · exact hlt
        · exact hall b hb
      · right
        have hone := zeroBinders_cons fuel before (region.take byte.toNat) (region.drop byte.toNat ++ rest)
          (region.drop byte.toNat).length hlt
        rw [hvector, append_assoc, length_append, length_vector8, hone]
        exact hrefused

/-! ### A pre-shared key -/

variable {e : JlsError}

theorem readU16_vector16 (before bytes rest : Bytes) (h : bytes.length < 65536) :
    readU16 (before ++ (vector16 bytes ++ rest)) before.length e = .ok (bytes.length, before.length + 2) := by
  exact readU16_putU16 before (bytes ++ rest) h

theorem zeroPresharedKey_wire (before rest identities : Bytes) (binders : List Bytes)
    (hbinder : ∀ binder ∈ binders, binder.length < 256)
    (hlength : 4 + identities.length + (bindersWire binders).length < 65536) :
    zeroPresharedKey (before ++ (vector16 identities ++ vector16 (bindersWire binders) ++ rest)) before.length
        (vector16 identities ++ vector16 (bindersWire binders)).length =
      .ok (before ++ (vector16 identities ++ vector16 (bindersWire (binders.map zeros)) ++ rest)) := by
  have hid : identities.length < 65536 := by omega
  have hbind : (bindersWire binders).length < 65536 := by omega
  have hdata : (vector16 identities ++ vector16 (bindersWire binders)).length = 4 + identities.length +
    (bindersWire binders).length := by
    simp only [vector16, length_append, Wire.length_putU16]
    omega
  generalize hwire : before ++ (vector16 identities ++ vector16 (bindersWire binders) ++ rest) = wire
  have hidentities : readU16 wire before.length .pskIdentities = .ok (identities.length, before.length + 2) := by
    rw [← hwire, append_assoc]
    exact readU16_vector16 before identities _ hid
  have hskip : skipBytes wire (before.length + 2) identities.length .pskIdentities =
    .ok (before.length + 2 + identities.length) := by
    have h := skipBytes_append (e := .pskIdentities) (before ++ putU16 identities.length) identities
      (vector16 (bindersWire binders) ++ rest)
    simpa [← hwire, vector16, Wire.length_putU16] using h
  have hbinders : readU16 wire (before.length + 2 + identities.length) .pskBinders =
      .ok ((bindersWire binders).length, before.length + 2 + identities.length + 2) := by
    have h := readU16_vector16 (e := .pskBinders) (before ++ vector16 identities)
      (bindersWire binders) rest hbind
    simpa [← hwire, vector16, Wire.length_putU16, Nat.add_assoc] using h
  have hloop : zeroBinders (wire.length + 1) wire (before.length + 2 + identities.length + 2)
      (before.length + 2 + identities.length + 2 + (bindersWire binders).length) =
      .ok (before ++ (vector16 identities ++ vector16 (bindersWire (binders.map zeros)) ++ rest),
        before.length + 2 + identities.length + 2 + (bindersWire binders).length) := by
    have h := zeroBinders_wire binders (wire.length + 1)
      (before ++ (vector16 identities ++ putU16 (bindersWire binders).length)) rest (by
      have hle := length_le_bindersWire binders
      simp only [← hwire, vector16, length_append]
      omega) hbinder
    simpa [← hwire, vector16, Wire.length_putU16, Nat.add_assoc, Extension.length_bindersWire_zeros] using h
  unfold zeroPresharedKey
  rw [hidentities]
  show (if sizeSub _ (before.length + 2) < identities.length then _ else
    (skipBytes wire (before.length + 2) identities.length _ >>= _)) = _
  rw [hdata, sizeSub_of_le (by omega), if_neg (by omega), hskip]
  show (readU16 wire (before.length + 2 + identities.length) .pskBinders >>= _) = _
  rw [hbinders]
  show (if (bindersWire binders).length ≠ sizeSub _ (before.length + 2 + identities.length + 2) then _ else
    (zeroBinders (wire.length + 1) wire
    (before.length + 2 + identities.length + 2)
    (before.length + 2 + identities.length + 2 + (bindersWire binders).length) >>= _)) = _
  rw [sizeSub_of_le (by omega), if_neg (by omega), hloop]
  exact if_neg (fun hne => hne rfl)

theorem sizeSub_of_lt {a b : Nat} (h : a < b) (hb : b < 2 ^ 32) : 65536 ≤ sizeSub a b := by
  unfold sizeSub
  rw [if_neg (by omega)]
  omega

theorem readU16_cases (he : e ≠ .outside ∧ e ≠ .unfinished) (before rest : Bytes) :
    Refused (readU16 (before ++ rest) before.length e) ∨ ∃ high low tail, rest = high :: low :: tail ∧
      readU16 (before ++ rest) before.length e = .ok (high.toNat * 256 + low.toNat, before.length + 2) := by
  match rest with
  | [] | [_] =>
    rw [readU16_short (by simp)]
    exact .inl (refused_error he)
  | high :: low :: tail => exact .inr ⟨high, low, tail, rfl, readU16_append before tail high low⟩

theorem skipBytes_cases (he : e ≠ .outside ∧ e ≠ .unfinished) (before rest : Bytes) (n : Nat) :
    Refused (skipBytes (before ++ rest) before.length n e) ∨ ∃ skipped tail, rest = skipped ++ tail ∧
    skipped.length = n ∧
      skipBytes (before ++ rest) before.length n e = .ok (before.length + n) := by
  by_cases hshort : rest.length < n
  · rw [skipBytes_short hshort]
    exact .inl (refused_error he)
  · have hlength : (rest.take n).length = n := by
      rw [length_take]
      omega
    have h := skipBytes_append (e := e) before (rest.take n) (rest.drop n)
    rw [take_append_drop, hlength] at h
    exact .inr ⟨rest.take n, rest.drop n, (take_append_drop n rest).symm, hlength, h⟩

theorem byte_pair_lt (high low : UInt8) : high.toNat * 256 + low.toNat < 65536 := by
  have hhigh := high.toNat_lt
  have hlow := low.toNat_lt
  omega

theorem putU16_pair (high low : UInt8) : putU16 (high.toNat * 256 + low.toNat) = [high, low] := by
  have hlow := low.toNat_lt
  have h1 : (high.toNat * 256 + low.toNat) / 256 = high.toNat := by omega
  have h2 : UInt8.ofNat (high.toNat * 256 + low.toNat) = low := by
    apply UInt8.toNat_inj.1
    rw [UInt8.toNat_ofNat']
    omega
  rw [Wire.putU16, h1, h2, UInt8.ofNat_toNat]

/-- **A pre-shared key whose vectors do not fit is refused**, also where a length is read behind the end
of the extension. -/
theorem zeroPresharedKey_cases (before data rest : Bytes)
    (hsmall : (before ++ (data ++ rest)).length < 2 ^ 32) (hdata : data.length < 65536) :
    (∃ identities binders, data = vector16 identities ++ vector16 (bindersWire binders) ∧
      (∀ binder ∈ binders, binder.length < 256) ∧
      4 + identities.length + (bindersWire binders).length < 65536) ∨
      Refused (zeroPresharedKey (before ++ (data ++ rest)) before.length data.length) := by
  have hlength : (before ++ (data ++ rest)).length = before.length + (data.length + rest.length) := by simp
  unfold zeroPresharedKey
  rcases readU16_cases (e := .pskIdentities) (by decide) before (data ++ rest) with hrefused | ⟨h1, l1,
    tail1, htail1, hread1⟩
  · exact .inr (hrefused.bind _)
  have hlen1 := congrArg List.length htail1
  simp only [length_append, length_cons] at hlen1
  rw [hread1]
  show _ ∨ Refused (if sizeSub (before.length + data.length) (before.length + 2) <
    h1.toNat * 256 + l1.toNat then _
    else (skipBytes (before ++ (data ++ rest)) (before.length + 2)
      (h1.toNat * 256 + l1.toNat) .pskIdentities >>= _))
  split
  · exact .inr (refused_error (by decide))
  rename_i hfits1
  have hsplit1 : before ++ (data ++ rest) = before ++ [h1, l1] ++ tail1 := by simp [htail1]
  have hskip := skipBytes_cases (e := .pskIdentities) (by decide) (before ++ [h1, l1]) tail1
    (h1.toNat * 256 + l1.toNat)
  rw [← hsplit1, length_append] at hskip
  rcases hskip with hrefused | ⟨identities, tail2, htail2, hidentities, hskip⟩
  · exact .inr (hrefused.bind _)
  have hlen2 := congrArg List.length htail2
  rw [length_append] at hlen2
  have hskip' : skipBytes (before ++ (data ++ rest)) (before.length + 2)
    (h1.toNat * 256 + l1.toNat) .pskIdentities =
      .ok (before.length + 2 + (h1.toNat * 256 + l1.toNat)) := hskip
  rw [hskip']
  show _ ∨ Refused (readU16 (before ++ (data ++ rest)) (before.length + 2 + (h1.toNat * 256 + l1.toNat))
    .pskBinders >>= _)
  have hsplit2 : before ++ (data ++ rest) = before ++ [h1, l1] ++ identities ++ tail2 :=
    by rw [hsplit1, htail2, append_assoc (before ++ _)]
  have hread2 := readU16_cases (e := .pskBinders) (by decide) (before ++ [h1, l1] ++ identities) tail2
  have hbefore2 : (before ++ [h1, l1] ++ identities).length = before.length + 2 +
    (h1.toNat * 256 + l1.toNat) := by
    rw [length_append, length_append, hidentities]
    rfl
  rw [← hsplit2, hbefore2] at hread2
  rcases hread2 with hrefused | ⟨h2, l2, region, hregion, hread2⟩
  · exact .inr (hrefused.bind _)
  have hlen3 := congrArg List.length hregion
  simp only [length_cons] at hlen3
  rw [hread2]
  show _ ∨ Refused (if h2.toNat * 256 + l2.toNat ≠ sizeSub (before.length + data.length)
    (before.length + 2 + (h1.toNat * 256 + l1.toNat) + 2) then _
    else (zeroBinders ((before ++ (data ++ rest)).length + 1) (before ++ (data ++ rest))
      (before.length + 2 + (h1.toNat * 256 + l1.toNat) + 2)
      (before.length + 2 + (h1.toNat * 256 + l1.toNat) + 2 + (h2.toNat * 256 + l2.toNat)) >>= _))
  have hlt2 := byte_pair_lt h2 l2
  split
  · exact .inr (refused_error (by decide))
  rename_i hfits2
  -- Both lengths are inside of the extension: a cursor behind its end leaves more than any length.
  have hinside : before.length + 2 + (h1.toNat * 256 + l1.toNat) + 2 ≤ before.length + data.length := by
    by_contra hnot
    have hunder := sizeSub_of_lt (a := before.length + data.length)
      (b := before.length + 2 + (h1.toNat * 256 + l1.toNat) + 2)
      (by omega) (by omega)
    omega
  rw [sizeSub_of_le hinside] at hfits2
  have htake : (region.take (h2.toNat * 256 + l2.toNat)).length = h2.toNat * 256 + l2.toNat := by
    rw [length_take]
    omega
  have hparts : data ++ rest = ([h1, l1] ++ identities ++ [h2, l2] ++ region.take (h2.toNat * 256 + l2.toNat)) ++
      region.drop (h2.toNat * 256 + l2.toNat) := by
    rw [htail1, htail2, hregion, append_assoc _ (region.take _), take_append_drop]
    simp
  obtain ⟨hdata', hrest'⟩ := append_inj hparts (by
    simp only [length_append, length_cons, length_nil, htake, hidentities]
    omega)
  have hbefore3 : (before ++ [h1, l1] ++ identities ++ [h2, l2]).length = before.length + 2 +
    (h1.toNat * 256 + l1.toNat) + 2 := by
    rw [length_append, hbefore2]
    rfl
  have hloop := zeroBinders_cases ((before ++ (data ++ rest)).length + 1)
    (before ++ [h1, l1] ++ identities ++ [h2, l2])
    (region.take (h2.toNat * 256 + l2.toNat)) rest (by omega)
  have hsplit3 : before ++ [h1, l1] ++ identities ++ [h2, l2] ++
    (region.take (h2.toNat * 256 + l2.toNat) ++ rest) =
      before ++ (data ++ rest) := by
    rw [hdata']
    simp
  rw [hsplit3, hbefore3, htake] at hloop
  rcases hloop with ⟨binders, hbinders, hall⟩ | hrefused
  · refine .inl ⟨identities, binders, ?_, hall, ?_⟩
    · rw [hdata', vector16, vector16, ← hbinders, htake, hidentities, putU16_pair, putU16_pair]
      simp
    · rw [← hbinders, htake, hidentities]
      omega
  · exact .inr (hrefused.bind _)

/-! ### The extensions -/

theorem extensionsWire_cons (extension : Extension) (extensions : List Extension) :
    extensionsWire (extension :: extensions) = extension.wire ++ extensionsWire extensions := rfl

theorem Extension.data_lt (extension : Extension) : extension.data.length < 65536 := by
  cases extension with
  | presharedKey identities binders hbinder hlength =>
    simp only [Extension.data, vector16, length_append, Wire.length_putU16]
    omega
  | other type data htype hnot hlength => exact hlength

theorem Extension.type_lt (extension : Extension) : extension.type < 65536 := by
  cases extension with
  | presharedKey => exact (by decide : kPresharedKeyExtension < 65536)
  | other type data htype hnot hlength => exact htype

theorem Extension.zeroed_type (extension : Extension) :
    extension.zeroed.type = extension.type := by cases extension <;> rfl

theorem Extension.length_zeroed (extension : Extension) :
    extension.zeroed.data.length = extension.data.length := by
  cases extension <;> simp [Extension.zeroed, Extension.data, vector16, Extension.length_bindersWire_zeros,
    Wire.length_putU16]

theorem Extension.length_wire (extension : Extension) : extension.wire.length = 4 + extension.data.length := by
  simp only [Extension.wire, vector16, length_append, Wire.length_putU16]
  omega

theorem Extension.length_wire_zeroed (extension : Extension) :
    extension.zeroed.wire.length = extension.wire.length := by
  rw [Extension.length_wire, Extension.length_wire, Extension.length_zeroed]

theorem zeroExtension_data (extension : Extension) (before rest : Bytes) :
    zeroExtension (before ++ (extension.data ++ rest)) extension.type before.length extension.data.length =
      .ok (before ++ (extension.zeroed.data ++ rest)) := by
  cases extension with
  | presharedKey identities binders hbinder hlength =>
    exact zeroPresharedKey_wire before rest identities binders hbinder hlength
  | other type data htype hnot hlength => exact if_neg hnot

theorem zeroExtensions_cons (fuel : Nat) (before rest : Bytes) (extension : Extension) (n : Nat) :
    zeroExtensions (fuel + 1) (before ++ (extension.wire ++ rest)) before.length
    (before.length + (extension.wire.length + n)) =
      zeroExtensions fuel (before ++ extension.zeroed.wire ++ rest) (before ++ extension.zeroed.wire).length
        ((before ++ extension.zeroed.wire).length + n) := by
  have hlength := extension.length_wire
  have htype : readU16 (before ++ (extension.wire ++ rest)) before.length .extension = .ok (extension.type,
    before.length + 2) := by
    exact readU16_putU16 before _ extension.type_lt
  have hsize : readU16 (before ++ (extension.wire ++ rest)) (before.length + 2) .extension =
      .ok (extension.data.length, before.length + 4) := by
    have h := readU16_vector16 (e := .extension)
      (before ++ putU16 extension.type) extension.data rest extension.data_lt
    simpa [Extension.wire, vector16, Wire.length_putU16] using h
  have hzero := zeroExtension_data extension
    (before ++ putU16 extension.type ++ putU16 extension.data.length) rest
  have hsplit : before ++ (extension.wire ++ rest) =
      before ++ putU16 extension.type ++ putU16 extension.data.length ++ (extension.data ++ rest) := by
    simp [Extension.wire, vector16]
  have hzeroed : before ++ extension.zeroed.wire ++ rest =
      before ++ putU16 extension.type ++ putU16 extension.data.length ++ (extension.zeroed.data ++ rest) := by
    simp [Extension.wire, vector16, Extension.zeroed_type, Extension.length_zeroed]
  have hbefore : (before ++ putU16 extension.type ++ putU16 extension.data.length).length =
    before.length + 4 := by
    simp [Wire.length_putU16]
  rw [← hsplit, ← hzeroed, hbefore] at hzero
  have hpast : (before ++ extension.zeroed.wire).length = before.length + 4 + extension.data.length := by
    rw [length_append, Extension.length_wire_zeroed, hlength, Nat.add_assoc]
  have hend : before.length + (extension.wire.length + n) =
    before.length + 4 + extension.data.length + n := by omega
  rw [hpast, hend]
  conv_lhs => unfold zeroExtensions
  rw [if_pos (by omega), htype]
  show (readU16 _ (before.length + 2) .extension >>= _) = _
  rw [hsize]
  show (if sizeSub (before.length + 4 + extension.data.length + n) (before.length + 4) <
    extension.data.length then _
    else (zeroExtension (before ++ (extension.wire ++ rest)) extension.type
      (before.length + 4) extension.data.length >>= _)) = _
  rw [sizeSub_of_le (by omega), if_neg (by omega), hzero]
  rfl

theorem zeroExtensions_nil (fuel : Nat) (wire : Bytes) (offset : Nat) :
    zeroExtensions (fuel + 1) wire offset offset = .ok (wire, offset) :=
  if_neg (Nat.lt_irrefl _)

theorem length_le_extensionsWire : ∀ extensions : List Extension, extensions.length ≤
    (extensionsWire extensions).length
  | [] => Nat.le_refl _
  | extension :: extensions => by
    have h := length_le_extensionsWire extensions
    rw [extensionsWire_cons, length_append, Extension.length_wire, length_cons]
    omega

theorem zeroExtensions_wire : ∀ (extensions : List Extension) (fuel : Nat) (before rest : Bytes),
    extensions.length < fuel →
    zeroExtensions fuel (before ++ (extensionsWire extensions ++ rest)) before.length
    (before.length + (extensionsWire extensions).length) =
      .ok (before ++ (extensionsWire (extensions.map Extension.zeroed) ++ rest), before.length
        + (extensionsWire extensions).length)
  | [], fuel + 1, before, rest, _ => zeroExtensions_nil fuel _ _
  | extension :: extensions, fuel + 1, before, rest, hfuel => by
    have hrest := zeroExtensions_wire extensions fuel (before ++
      extension.zeroed.wire) rest (Nat.lt_of_succ_lt_succ hfuel)
    have hwhole : (extensionsWire (extension :: extensions)).length = extension.wire.length +
      (extensionsWire extensions).length := by
      rw [extensionsWire_cons, length_append]
    have hpast : (before ++ extension.zeroed.wire).length + (extensionsWire extensions).length =
        before.length + (extensionsWire (extension :: extensions)).length := by
      rw [hwhole, length_append, Extension.length_wire_zeroed, Nat.add_assoc]
    have hone := zeroExtensions_cons fuel before (extensionsWire extensions ++ rest) extension
      (extensionsWire extensions).length
    rw [hrest, hpast, ← hwhole] at hone
    have hsplit : extensionsWire (extension :: extensions) ++ rest = extension.wire ++
      (extensionsWire extensions ++ rest) :=
      append_assoc ..
    rw [hsplit, hone, map_cons, extensionsWire_cons extension.zeroed]
    simp only [append_assoc]

theorem zeroExtensions_first (fuel : Nat) (before region : Bytes)
    (hsmall : (before ++ region).length < 2 ^ 32) (hregion : region ≠ []) :
    (∃ (extension : Extension) (region' : Bytes), region = extension.wire ++ region') ∨
      Refused (zeroExtensions (fuel + 1) (before ++ region) before.length (before.length + region.length)) := by
  have hpos : 0 < region.length := length_pos_iff.2 hregion
  unfold zeroExtensions
  rw [if_pos (by omega)]
  rcases readU16_cases (e := .extension) (by decide) before region with hrefused | ⟨h1, l1, tail1,
    htail1, hread1⟩
  · exact .inr (hrefused.bind _)
  rw [hread1]
  show _ ∨ Refused (readU16 (before ++ region) (before.length + 2) .extension >>= _)
  have hsplit1 : before ++ region = before ++ [h1, l1] ++ tail1 := by simp [htail1]
  have hread2 := readU16_cases (e := .extension) (by decide) (before ++ [h1, l1]) tail1
  rw [← hsplit1, length_append] at hread2
  rcases hread2 with hrefused | ⟨h2, l2, tail2, htail2, hread2⟩
  · exact .inr (hrefused.bind _)
  have hread2' : readU16 (before ++ region) (before.length + 2) .extension = .ok (h2.toNat * 256 + l2.toNat,
    before.length + 4) := hread2
  have hlen1 := congrArg List.length htail1
  have hlen2 := congrArg List.length htail2
  simp only [length_cons] at hlen1 hlen2
  have hlt1 := byte_pair_lt h1 l1
  have hlt2 := byte_pair_lt h2 l2
  rw [hread2']
  show _ ∨ Refused (if sizeSub (before.length + region.length) (before.length + 4) <
    h2.toNat * 256 + l2.toNat then _
    else (zeroExtension (before ++ region) (h1.toNat * 256 + l1.toNat) (before.length + 4)
      (h2.toNat * 256 + l2.toNat) >>= _))
  rw [sizeSub_of_le (by omega)]
  split
  · exact .inr (refused_error (by decide))
  rename_i hfits
  have hdata : (tail2.take (h2.toNat * 256 + l2.toNat)).length = h2.toNat * 256 + l2.toNat := by
    rw [length_take]
    omega
  have hparts : region = [h1, l1] ++ (vector16 (tail2.take (h2.toNat * 256 + l2.toNat)) ++ tail2.drop
    (h2.toNat * 256 + l2.toNat)) := by
    rw [vector16, hdata, putU16_pair, append_assoc, take_append_drop, htail1, htail2]
    rfl
  by_cases hpsk : h1.toNat * 256 + l1.toNat = kPresharedKeyExtension
  · rw [zeroExtension, if_pos hpsk]
    have hcases := zeroPresharedKey_cases (before ++ [h1, l1, h2, l2]) (tail2.take (h2.toNat * 256 + l2.toNat))
      (tail2.drop (h2.toNat * 256 + l2.toNat)) (by
        rw [take_append_drop, append_assoc, show [h1, l1, h2, l2] ++ tail2 = region by rw [htail1, htail2]; rfl]
        exact hsmall) (by omega)
    have hwire : before ++ [h1, l1, h2, l2] ++
      (tail2.take (h2.toNat * 256 + l2.toNat) ++ tail2.drop (h2.toNat * 256 + l2.toNat)) =
        before ++ region := by
      rw [take_append_drop, htail1, htail2]
      simp
    rw [hwire, hdata, length_append] at hcases
    rcases hcases with ⟨identities, binders, htake, hall, hlength⟩ | hrefused
    · refine .inl ⟨.presharedKey identities binders hall hlength, tail2.drop (h2.toNat * 256 + l2.toNat), ?_⟩
      rw [hparts, htake, Extension.wire, append_assoc, ← putU16_pair, hpsk]
      rfl
    · exact .inr (hrefused.bind _)
  · refine .inl ⟨.other (h1.toNat * 256 + l1.toNat) (tail2.take (h2.toNat * 256 + l2.toNat)) hlt1 hpsk
      (by omega),
      tail2.drop (h2.toNat * 256 + l2.toNat), ?_⟩
    show region = putU16 (h1.toNat * 256 + l1.toNat) ++ _
    rw [putU16_pair]
    exact hparts

theorem zeroExtensions_cases : ∀ (fuel : Nat) (before region : Bytes), region.length < fuel →
    (before ++ region).length < 2 ^ 32 →
    (∃ extensions, region = extensionsWire extensions) ∨
      Refused (zeroExtensions fuel (before ++ region) before.length (before.length + region.length))
  | 0, _, _, hfuel, _ => absurd hfuel (Nat.not_lt_zero _)
  | fuel + 1, before, region, hfuel, hsmall => by
    by_cases hnil : region = []
    · exact .inl ⟨[], hnil⟩
    · rcases zeroExtensions_first fuel before region hsmall hnil with ⟨extension, region', hregion⟩ | hrefused
      · have hlength : region.length = extension.wire.length + region'.length := by rw [hregion, length_append]
        have hone := zeroExtensions_cons fuel before region' extension region'.length
        rw [← hregion, ← hlength] at hone
        have hpos := extension.length_wire
        rcases zeroExtensions_cases fuel (before ++ extension.zeroed.wire) region' (by omega) (by
          rw [append_assoc, length_append, length_append, Extension.length_wire_zeroed, ← hlength]
          rwa [length_append] at hsmall) with ⟨extensions, hrest⟩ | hrefused
        · exact .inl ⟨extension :: extensions, by rw [extensionsWire_cons, ← hrest, hregion]⟩
        · rw [hone]
          exact .inr hrefused
      · exact .inr hrefused

end ClashNative.Jls
