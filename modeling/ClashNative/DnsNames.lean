import ClashNative.DnsServer
/-!
# DnsNames — names on the wire and as text

A name is a list of labels.  On the wire each label stands behind its length (`readLabels`); as text the
labels stand between dots, and an octet stands for itself or is escaped (`Presented`).
-/
namespace ClashNative.Dns.Names

open List

abbrev Bytes := List UInt8

/-! ### On the wire -/

/-- The labels up to the root, and what is behind them; a label has 1 to 63 octets. -/
def readLabels : Nat → Bytes → Option (List Bytes × Bytes)
  | 0, _ => none
  | _ + 1, [] => none
  | n + 1, size :: rest =>
    if size = 0 then some ([], rest)
    else if 63 < size.toNat ∨ rest.length < size.toNat then none
    else (readLabels n (rest.drop size.toNat)).map fun r => (rest.take size.toNat :: r.1, r.2)

structure Question where
  labels : List Bytes
  type : UInt16
  classCode : UInt16
  deriving DecidableEq, Repr

def joinU16 (high low : UInt8) : UInt16 := (high.toUInt16 <<< 8) ||| low.toUInt16

def readQuestion (message : Bytes) : Option Question :=
  match readLabels message.length (message.drop 12) with
  | some (labels, a :: b :: c :: d :: _) => some ⟨labels, joinU16 a b, joinU16 c d⟩
  | _ => none

def SameName (labels labels' : List Bytes) : Prop := labels.map (·.map toLower) = labels'.map (·.map toLower)

instance (labels labels' : List Bytes) : Decidable (SameName labels labels') :=
  inferInstanceAs (Decidable (_ = _))

def Fits (label : Bytes) : Prop := 1 ≤ label.length ∧ label.length ≤ 63

/-! ### As text -/

def digit (n : Nat) : UInt8 := UInt8.ofNat (48 + n)

/-- **What may stand for an octet**: itself, itself behind a backslash, its number behind a backslash. -/
inductive Presented (b : UInt8) : Bytes → Prop
  | plain (hdot : b ≠ 46) (hslash : b ≠ 92) : Presented b [b]
  | quoted (hdigit : ¬ (48 ≤ b ∧ b ≤ 57)) : Presented b [92, b]
  | decimal : Presented b [92, digit (b.toNat / 100), digit (b.toNat / 10 % 10), digit (b.toNat % 10)]

/-- The labels of a name, each octet as `octet` has it. -/
def present (octet : UInt8 → Bytes) (labels : List Bytes) : Bytes :=
  [46].intercalate (labels.map fun label => label.flatMap octet)

/-- **The text is the labels**: there is a label, nothing is escaped, and the text is no longer than a
name may be. -/
structure Plain (octet : UInt8 → Bytes) (labels : List Bytes) : Prop where
  nonempty : labels ≠ []
  octets : ∀ label ∈ labels, ∀ b ∈ label, octet b = [b]
  short : (present octet labels).length ≤ 253

/-! ### Reading what was written -/

theorem readLabels_written : ∀ (n : Nat) (labels : List Bytes) (rest : Bytes),
    (∀ label ∈ labels, Fits label) → labels.length < n →
    readLabels n (labels.flatMap (fun label => UInt8.ofNat label.length :: label) ++ 0 :: rest) =
    some (labels, rest)
  | 0, _, _, _, h => absurd h (Nat.not_lt_zero _)
  | n + 1, [], rest, _, _ => rfl
  | n + 1, label :: labels, rest, hfits, hn => by
    obtain ⟨hpos, hle⟩ := hfits label mem_cons_self
    have hsize : (UInt8.ofNat label.length).toNat = label.length := by
      rw [UInt8.toNat_ofNat']
      omega
    have hne : UInt8.ofNat label.length ≠ 0 := by
      intro hzero
      rw [hzero] at hsize
      change 0 = label.length at hsize
      omega
    rw [flatMap_cons, cons_append, cons_append, append_assoc, readLabels, if_neg hne, hsize, if_neg (by
      rw [length_append]
      omega), drop_left, take_left,
      readLabels_written n labels rest (fun l hl => hfits l (mem_cons_of_mem label hl))
      (Nat.lt_of_succ_lt_succ hn)]
    rfl

theorem readLabels_fits : ∀ (n : Nat) (bytes : Bytes) (labels : List Bytes) (rest : Bytes),
    readLabels n bytes = some (labels, rest) →
    ∀ label ∈ labels, Fits label
  | 0, _, _, _, h => by cases h
  | _ + 1, [], _, _, h => by cases h
  | n + 1, size :: bytes, labels, rest, h => by
    rw [readLabels] at h
    split at h
    · cases h
      exact fun _ hmem => absurd hmem not_mem_nil
    · rename_i hne
      split at h
      · cases h
      · rename_i hsize
        obtain ⟨⟨labels', rest'⟩, hread, heq⟩ := Option.map_eq_some_iff.1 h
        cases heq
        have hpos : 0 < size.toNat := Nat.pos_of_ne_zero fun hzero => hne (UInt8.toNat_inj.1 hzero)
        intro label hmem
        rcases mem_cons.1 hmem with rfl | hrest
        · unfold Fits
          rw [length_take]
          omega
        · exact readLabels_fits n _ labels' rest' hread label hrest

theorem joinU16_split (value : UInt16) : joinU16 (value >>> 8).toUInt8 value.toUInt8 = value := by
  have hvalue := value.toNat_lt
  have hhigh : value.toNat / 2 ^ 8 % 2 ^ 8 * 2 ^ 8 < 2 ^ 16 := by omega
  apply UInt16.toNat_inj.1
  unfold joinU16
  simp only [UInt16.toNat_or, UInt16.toNat_shiftLeft, UInt8.toNat_toUInt16, UInt16.toNat_toUInt8,
    UInt16.toNat_shiftRight]
  rw [show UInt16.toNat 8 % 16 = 8 from rfl, Nat.shiftRight_eq_div_pow, Nat.shiftLeft_eq,
    Nat.mod_eq_of_lt hhigh, Nat.mul_comm,
    ← Nat.two_pow_add_eq_or_of_lt (Nat.mod_lt _ (by decide))]
  omega

/-! ### The text of a name -/

variable {octet : UInt8 → Bytes} {labels : List Bytes}

theorem forall_octets {p : UInt8 → Prop} (h : ∀ n : Fin 256, p (UInt8.ofFin n)) (b : UInt8) : p b := h b.toFin

theorem toLower_dot_iff : ∀ b : UInt8, toLower b = 46 ↔ b = 46 := forall_octets (by decide +kernel)

variable {name : Bytes}

theorem normalizeName_of_last (h : name.getLast? ≠ some 46) : normalizeName name = name.map toLower := by
  unfold normalizeName
  rcases eq_nil_or_concat name with rfl | ⟨front, last, rfl⟩
  · rfl
  · have hne : last ≠ 46 := by
      intro heq
      rw [concat_eq_append, getLast?_concat, heq] at h
      exact h rfl
    rw [concat_eq_append, reverse_append, reverse_singleton, singleton_append,
      dropWhile_cons_of_neg (by simpa using hne),
      reverse_cons, reverse_reverse]

theorem map_intercalate (f : UInt8 → UInt8) (sep : Bytes) : ∀ lists : List Bytes,
    (sep.intercalate lists).map f = (sep.map f).intercalate (lists.map (·.map f))
  | [] => rfl
  | [l] => by simp
  | l :: l' :: lists => by
    have ih := map_intercalate f sep (l' :: lists)
    simp only [map_cons, intercalate_cons_cons, map_append] at ih ⊢
    rw [ih]

variable {text : Bytes} {b : UInt8}

theorem Presented.length_pos (h : Presented b text) : 1 ≤ text.length ∧ (text.length = 1 → text = [b]) := by
  cases h with
  | plain => exact ⟨Nat.le_refl 1, fun _ => rfl⟩
  | quoted => simp
  | decimal => simp

theorem length_flatMap_octet (hoctet : ∀ b, Presented b (octet b)) : ∀ label : Bytes,
    label.length ≤ (label.flatMap octet).length ∧
    ((label.flatMap octet).length = label.length → ∀ b ∈ label, octet b = [b])
  | [] => ⟨Nat.le_refl 0, fun _ _ hmem => absurd hmem not_mem_nil⟩
  | b :: label => by
    obtain ⟨hle, hplain⟩ := length_flatMap_octet hoctet label
    obtain ⟨hpos, hone⟩ := (hoctet b).length_pos
    rw [flatMap_cons, length_append, length_cons]
    refine ⟨by omega, fun heq c hc => ?_⟩
    rcases mem_cons.1 hc with rfl | hrest
    · exact hone (by omega)
    · exact hplain (by omega) c hrest

theorem length_present (hoctet : ∀ b, Presented b (octet b)) : ∀ labels : List Bytes,
    ([46].intercalate labels).length ≤ (present octet labels).length ∧
      ((present octet labels).length = ([46].intercalate labels).length →
        ∀ label ∈ labels, ∀ b ∈ label, octet b = [b])
  | [] => ⟨Nat.le_refl 0, fun _ _ hmem => absurd hmem not_mem_nil⟩
  | [label] => by
    obtain ⟨hle, hplain⟩ := length_flatMap_octet hoctet label
    unfold present
    rw [map_singleton, intercalate_singleton, intercalate_singleton]
    refine ⟨hle, fun heq l hl => ?_⟩
    rw [mem_singleton.1 hl]
    exact hplain heq
  | label :: label' :: labels => by
    obtain ⟨hle, hplain⟩ := length_flatMap_octet hoctet label
    obtain ⟨hle', hplain'⟩ := length_present hoctet (label' :: labels)
    unfold present at hle' hplain' ⊢
    rw [map_cons] at hle' hplain'
    rw [map_cons, map_cons, intercalate_cons_cons, intercalate_cons_cons]
    simp only [length_append, length_singleton]
    refine ⟨by omega, fun heq l hl => ?_⟩
    rcases mem_cons.1 hl with rfl | hrest
    · exact hplain (by omega)
    · exact hplain' (by omega) l hrest

theorem present_last : ∀ {labels : List Bytes}, (∀ label ∈ labels, Fits label) → labels ≠ [] → ∃ front front' b,
    present octet labels = front ++ octet b ∧ [46].intercalate labels = front' ++ [b] ∧
    ∃ label ∈ labels, b ∈ label
  | [], _, hne => absurd rfl hne
  | [label], hfits, _ => by
    rcases eq_nil_or_concat label with rfl | ⟨init, b, rfl⟩
    · exact absurd (hfits [] mem_cons_self).1 (by decide)
    · refine ⟨init.flatMap octet, init, b, ?_, ?_, _, mem_cons_self, by simp⟩
      · simp [present]
      · simp
  | label :: label' :: labels, hfits, _ => by
    obtain ⟨front, front', b, htext, hjoin, l, hl, hb⟩ :=
      present_last (fun l hl => hfits l (mem_cons_of_mem label hl)) (cons_ne_nil label' labels)
    refine ⟨label.flatMap octet ++ [46] ++ front, label ++ [46] ++ front', b, ?_, ?_, l,
      mem_cons_of_mem label hl, hb⟩
    · unfold present at htext ⊢
      rw [map_cons] at htext
      rw [map_cons, map_cons, intercalate_cons_cons, htext, append_assoc, append_assoc, append_assoc]
    · rw [intercalate_cons_cons, hjoin, append_assoc, append_assoc, append_assoc]

theorem present_plain (h : ∀ label ∈ labels, ∀ b ∈ label, octet b = [b]) :
    present octet labels = [46].intercalate labels := by
  have hlabel : ∀ label ∈ labels, label.flatMap octet = label := by
    intro label hl
    have hplain := h label hl
    clear hl
    induction label with
    | nil => rfl
    | cons b label ih =>
      rw [flatMap_cons, hplain b mem_cons_self, ih fun c hc => hplain c (mem_cons_of_mem b hc)]
      rfl
  unfold present
  rw [map_congr_left hlabel, map_id']

theorem Presented.ends_dot (h : Presented b text) (hlast : text.getLast? = some 46) : b = 46 ∧
    text = [92, 46] := by
  have hdigit : ∀ n : Fin 10, digit n ≠ 46 := by decide
  cases h with
  | plain hdot => exact absurd (Option.some.inj hlast) hdot
  | quoted =>
    have hb : b = 46 := Option.some.inj hlast
    exact ⟨hb, by rw [hb]⟩
  | decimal => exact absurd (Option.some.inj hlast) (hdigit ⟨b.toNat % 10, Nat.mod_lt _ (by decide)⟩)

theorem join_of_sameName (h : SameName (name.splitOn 46) labels) :
    name.map toLower = ([46].intercalate labels).map toLower := by
  have hsep : [(46 : UInt8)].map toLower = [46] := by decide
  have hjoin := map_intercalate toLower [46] (name.splitOn 46)
  rw [intercalate_splitOn, h, hsep] at hjoin
  rw [hjoin, map_intercalate, hsep]

end ClashNative.Dns.Names
