import ClashNative.HttpText
import Mathlib.Algebra.Group.Nat.Defs
/-!
# WebSocketEarlyData — the first bytes in the handshake

`split_early_data` of `websocket_client.cpp`: how much of the initial payload goes with the upgrade, and
the target that is then asked for.
-/
namespace ClashNative.WebSocketEarlyData

open List

open Http (Bytes Field ascii isDigit decimal)

structure Options where
  target : Bytes
  initialPayload : Bytes
  maxEarlyData : Nat := 0
  earlyDataHeaderName : Bytes := []

structure EarlyDataSplit where
  target : Bytes
  header : Option Field
  remainder : Bytes
  deriving DecidableEq

/-! ## Base64URL -/

def digit (n : Nat) : UInt8 :=
  UInt8.ofNat (
    if n < 26 then 65 + n
    else if n < 52 then 71 + n
    else if n < 62 then n - 4
    else if n = 62 then 45
    else 95)

def chunk (a b c : UInt8) : Nat := a.toNat * 65536 + b.toNat * 256 + c.toNat

def sextets : Bytes → List Nat
  | [] => []
  | [a] => [chunk a 0 0 / 262144 % 64, chunk a 0 0 / 4096 % 64]
  | [a, b] => [chunk a b 0 / 262144 % 64, chunk a b 0 / 4096 % 64, chunk a b 0 / 64 % 64]
  | a :: b :: c :: rest =>
    chunk a b c / 262144 % 64 :: chunk a b c / 4096 % 64 :: chunk a b c / 64 % 64 ::
      chunk a b c % 64 :: sextets rest

def base64urlEncode (input : Bytes) : Bytes := (sextets input).map digit

def digitValue (c : UInt8) : Option Nat :=
  if 65 ≤ c ∧ c ≤ 90 then some (c.toNat - 65)
  else if 97 ≤ c ∧ c ≤ 122 then some (c.toNat - 71)
  else if 48 ≤ c ∧ c ≤ 57 then some (c.toNat + 4)
  else if c = 45 then some 62
  else if c = 95 then some 63
  else none

def sextetBytes : List Nat → Option Bytes
  | [] => some []
  | [_] => none
  | [p, q] => some [UInt8.ofNat (p * 4 + q / 16)]
  | [p, q, r] => some [UInt8.ofNat (p * 4 + q / 16), UInt8.ofNat (q * 16 + r / 4)]
  | p :: q :: r :: s :: rest =>
    (sextetBytes rest).map ([UInt8.ofNat (p * 4 + q / 16), UInt8.ofNat (q * 16 + r / 4),
      UInt8.ofNat (r * 64 + s)] ++ ·)

def base64urlDecode (text : Bytes) : Option Bytes := (text.mapM digitValue).bind sextetBytes

theorem digit_spec (n : Nat) (h : n < 64) :
    digitValue (digit n) = some n ∧ digit n ≠ 38 ∧ digit n ≠ 61 ∧ digit n ≠ 63 := by
  have hall : ∀ n : Fin 64, digitValue (digit n.val) = some n.val ∧ digit n.val ≠ 38 ∧ digit n.val ≠ 61 ∧
    digit n.val ≠ 63 := by decide
  exact hall ⟨n, h⟩

theorem sextets_lt : ∀ (bytes : Bytes) (n : Nat), n ∈ sextets bytes → n < 64
  | [], _, h => absurd h not_mem_nil
  | [a], n, h => by
    simp only [sextets, mem_cons, not_mem_nil, or_false] at h
    omega
  | [a, b], n, h => by
    simp only [sextets, mem_cons, not_mem_nil, or_false] at h
    omega
  | a :: b :: c :: rest, n, h => by
    simp only [sextets, mem_cons] at h
    rcases h with h | h | h | h | h
    iterate 4 omega
    exact sextets_lt rest n h

theorem ofNat_eq {n : Nat} {a : UInt8} (h : n % 256 = a.toNat) : UInt8.ofNat n = a :=
  UInt8.toNat_inj.1 (by rw [UInt8.toNat_ofNat']; exact h)

theorem sextetBytes_sextets : ∀ bytes : Bytes, sextetBytes (sextets bytes) = some bytes
  | [] => rfl
  | [a] => by
    have ha := a.toNat_lt
    rw [sextets, sextetBytes, ofNat_eq (a := a) (by simp only [chunk, UInt8.toNat_zero]; omega)]
  | [a, b] => by
    have ha := a.toNat_lt
    have hb := b.toNat_lt
    rw [sextets, sextetBytes, ofNat_eq (a := a) (by simp only [chunk, UInt8.toNat_zero]; omega),
      ofNat_eq (a := b) (by simp only [chunk, UInt8.toNat_zero]; omega)]
  | a :: b :: c :: rest => by
    have ha := a.toNat_lt
    have hb := b.toNat_lt
    have hc := c.toNat_lt
    rw [sextets, sextetBytes, ofNat_eq (a := a) (by unfold chunk; omega),
      ofNat_eq (a := b) (by unfold chunk; omega),
      ofNat_eq (a := c) (by unfold chunk; omega), sextetBytes_sextets rest]
    rfl

theorem mapM_digitValue : ∀ values : List Nat, (∀ n ∈ values, n < 64) →
    (values.map digit).mapM digitValue = some values
  | [], _ => rfl
  | n :: values, h => by
    have ih := mapM_digitValue values fun m hm => h m (mem_cons_of_mem n hm)
    rw [map_cons, mapM_cons, (digit_spec n (h n mem_cons_self)).1, ih]
    rfl

theorem base64urlDecode_encode (bytes : Bytes) : base64urlDecode (base64urlEncode bytes) = some bytes := by
  unfold base64urlDecode base64urlEncode
  rw [mapM_digitValue (sextets bytes) (sextets_lt bytes), Option.bind_some]
  exact sextetBytes_sextets bytes

theorem base64urlEncode_free (bytes : Bytes) :
    38 ∉ base64urlEncode bytes ∧ 61 ∉ base64urlEncode bytes ∧ 63 ∉ base64urlEncode bytes := by
  have hdigit {c : UInt8} (hc : c ∈ base64urlEncode bytes) : c ≠ 38 ∧ c ≠ 61 ∧ c ≠ 63 := by
    obtain ⟨n, hn, rfl⟩ := mem_map.1 hc
    exact (digit_spec n (sextets_lt bytes n hn)).2
  exact ⟨fun h => (hdigit h).1 rfl, fun h => (hdigit h).2.1 rfl, fun h => (hdigit h).2.2 rfl⟩

/-! ## The target -/

def edValue (pair : Bytes) : Option Bytes :=
  if 61 ∈ pair ∧ pair.takeWhile (· != 61) = ascii "ed" then some (pair.dropWhile (· != 61)).tail else none

/-- `std::from_chars` to a `std::size_t`, of the whole text. -/
def fromChars (value : Bytes) : Option Nat :=
  if value ≠ [] ∧ value.all isDigit ∧ decimal value < 2 ^ 64 then some (decimal value) else none

/-- The loop over the pairs of the query: the value of the first `ed`, and the pairs behind it. -/
def findEd : List Bytes → Option (Bytes × List Bytes)
  | [] => none
  | pair :: rest =>
    match edValue pair with
    | some value => some (value, rest)
    | none => findEd rest

def parameters (target : Bytes) : List Bytes :=
  if 63 ∈ target then (target.dropWhile (· != 63)).tail.splitOn 38 else []

structure Configured where
  target : Bytes
  maxEarlyData : Nat
  headerName : Bytes

def configure (options : Options) : Configured :=
  if options.maxEarlyData = 0 then
    match findEd (parameters options.target) with
    | none => ⟨options.target, 0, options.earlyDataHeaderName⟩
    | some (value, rest) =>
      let stripped := options.target.takeWhile (· != 63) ++ if rest = [] then [] else 63 :: [38].intercalate rest
      let target := if stripped = [] then [47] else stripped
      match fromChars value with
      | none => ⟨target, 0, options.earlyDataHeaderName⟩
      | some parsed => ⟨target, parsed, ascii "Sec-WebSocket-Protocol"⟩
  else ⟨options.target, options.maxEarlyData, options.earlyDataHeaderName⟩

def splitEarlyData (options : Options) : EarlyDataSplit :=
  let configured := configure options
  let earlySize := min options.initialPayload.length configured.maxEarlyData
  let encoded := base64urlEncode (options.initialPayload.take earlySize)
  let remainder := options.initialPayload.drop earlySize
  if 0 < earlySize then
    if configured.headerName ≠ [] then ⟨configured.target, some ⟨configured.headerName, encoded⟩, remainder⟩
    else ⟨configured.target ++ encoded, none, remainder⟩
  else ⟨configured.target, none, remainder⟩

/-! ## What a split owes -/

def IsEd (pair : Bytes) : Prop := edValue pair ≠ none

def others (target : Bytes) : List Bytes := (parameters target).filter fun pair => edValue pair = none

/-- How much early data is asked for: what is configured, or else the value of `ed`. -/
def limit (options : Options) : Nat :=
  if options.maxEarlyData ≠ 0 then options.maxEarlyData
  else (((parameters options.target).findSome? edValue).bind fromChars).getD 0

/-- **The payload is split in two**, the first part is no longer than asked for and is what the text in
the header or behind the target decodes to, and the target keeps the other parameters. -/
structure Kept (options : Options) (split : EarlyDataSplit) : Prop where
  early : ∃ early text, early ++ split.remainder = options.initialPayload ∧ early.length ≤ limit options ∧
    base64urlDecode text = some early ∧ ((∃ name, split.header = some ⟨name, text⟩) ∨ split.header = none ∧
    text <:+ split.target)
  others : others split.target = others options.target

/-- **No parameter is in the way**: an `ed` to be removed is the first, and a text that goes behind the
target meets no other parameter. -/
def Clear (options : Options) : Prop :=
  if options.maxEarlyData = 0 then (∀ pair ∈ parameters options.target, ¬ IsEd pair) ∨
    ∃ first ∈ (parameters options.target).head?, IsEd first
  else options.earlyDataHeaderName ≠ [] ∨ options.initialPayload = [] ∨ parameters options.target = [] ∨
    ∃ last ∈ (parameters options.target).getLast?, IsEd last

/-! ## Texts in parts -/

variable {text : Bytes}

theorem splitOn_append {sep : UInt8} (hfree : sep ∉ text) : ∀ query : Bytes,
    ∃ init last, query.splitOn sep = init ++ [last] ∧ (query ++ text).splitOn sep = init ++ [last ++ text]
  | [] => ⟨[], [], splitOn_nil sep, splitOn_eq_singleton hfree⟩
  | b :: query => by
    obtain ⟨init, last, hquery, htext⟩ := splitOn_append hfree query
    by_cases hsep : (b == sep) = true
    · refine ⟨[] :: init, last, ?_, ?_⟩
      · rw [splitOn_cons_eq_if_modifyHead, if_pos hsep, hquery, cons_append]
      · rw [cons_append, splitOn_cons_eq_if_modifyHead, if_pos hsep, htext, cons_append]
    · have hcons (rest : Bytes) : (b :: rest).splitOn sep = (rest.splitOn sep).modifyHead (b :: ·) := by
        rw [splitOn_cons_eq_if_modifyHead, if_neg hsep]
      rw [cons_append, hcons, hcons, hquery, htext]
      cases init with
      | nil => exact ⟨[], b :: last, rfl, rfl⟩
      | cons first init => exact ⟨(b :: first) :: init, last, rfl, rfl⟩

variable {target : Bytes}

theorem split_at_mark (hquery : 63 ∈ target) : ∃ path query, 63 ∉ path ∧ target = path ++ 63 :: query := by
  obtain ⟨path, query, htarget, hpath⟩ := eq_append_cons_of_mem hquery
  exact ⟨path, query, hpath, htarget⟩

variable {path : Bytes}

theorem while_not_mark {b : UInt8} (hfree : b ∉ path) (query : Bytes) :
    (path ++ b :: query).takeWhile (· != b) = path ∧ (path ++ b :: query).dropWhile (· != b) = b :: query := by
  have hall : ∀ c ∈ path, (c != b) = true := fun c hc => bne_iff_ne.2 fun heq => hfree (heq ▸ hc)
  rw [takeWhile_append_of_pos hall, dropWhile_append_of_pos hall, takeWhile_cons_of_neg (by simp),
    dropWhile_cons_of_neg (by simp), append_nil]
  exact ⟨rfl, rfl⟩

theorem parameters_query (hpath : 63 ∉ path) (query : Bytes) :
    parameters (path ++ 63 :: query) = query.splitOn 38 := by
  unfold parameters
  rw [if_pos (mem_append_right path mem_cons_self), (while_not_mark hpath query).2, tail_cons]

theorem parameters_path (hpath : 63 ∉ path) : parameters path = [] := if_neg hpath

theorem parameters_append (hamp : 38 ∉ text) (hmark : 63 ∉ text) (target : Bytes) :
    (parameters target = [] ∧ parameters (target ++ text) = []) ∨
      ∃ init last, parameters target = init ++ [last] ∧
      parameters (target ++ text) = init ++ [last ++ text] := by
  by_cases hquery : 63 ∈ target
  · obtain ⟨path, query, hpath, rfl⟩ := split_at_mark hquery
    rw [append_assoc, cons_append, parameters_query hpath, parameters_query hpath]
    exact .inr (splitOn_append hamp query)
  · have hnone : 63 ∉ target ++ text := fun h => (mem_append.1 h).elim hquery hmark
    exact .inl ⟨parameters_path hquery, parameters_path hnone⟩

theorem edValue_append (hequals : 61 ∉ text) (pair : Bytes) :
    edValue (pair ++ text) = none ↔ edValue pair = none := by
  unfold edValue
  by_cases hmem : 61 ∈ pair
  · obtain ⟨name, value, hpair, hname⟩ := eq_append_cons_of_mem hmem
    subst hpair
    rw [append_assoc, cons_append, (while_not_mark hname _).1, (while_not_mark hname _).1]
    simp
  · have hnone : 61 ∉ pair ++ text := fun h => (mem_append.1 h).elim hmem hequals
    rw [if_neg fun h => hnone h.1, if_neg fun h => hmem h.1]

theorem others_append (hamp : 38 ∉ text) (hequals : 61 ∉ text) (hmark : 63 ∉ text) (hne : text ≠ [])
    (target : Bytes) :
    others (target ++ text) = others target ↔ parameters target = [] ∨
    ∃ last ∈ (parameters target).getLast?, IsEd last := by
  unfold others
  rcases parameters_append hamp hmark target with ⟨hnone, hnone'⟩ | ⟨init, last, hsplit, hsplit'⟩
  · rw [hnone, hnone']
    exact iff_of_true rfl (.inl rfl)
  · rw [hsplit, hsplit', getLast?_append, filter_append, filter_append, append_cancel_left_eq]
    unfold IsEd
    have hedvalue := edValue_append hequals last
    cases hed : edValue last with
    | none =>
      have hnone := hedvalue.2 hed
      simp [hed, hnone, hne]
    | some value =>
      have hsome : edValue (last ++ text) ≠ none :=
        fun h => Option.some_ne_none value (hed.symm.trans (hedvalue.1 h))
      simp [hed, hsome]

theorem findEd_spec : ∀ pairs : List Bytes, (findEd pairs = none ∧ ∀ pair ∈ pairs, edValue pair = none) ∨
    ∃ before ed value rest, pairs = before ++ ed :: rest ∧ (∀ pair ∈ before, edValue pair = none) ∧
    edValue ed = some value ∧
      findEd pairs = some (value, rest)
  | [] => .inl ⟨rfl, fun _ h => absurd h not_mem_nil⟩
  | pair :: rest => by
    unfold findEd
    cases hed : edValue pair with
    | some value => exact .inr ⟨[], pair, value, rest, rfl, fun _ h => absurd h not_mem_nil, hed, rfl⟩
    | none =>
      rcases findEd_spec rest with ⟨hnone, hall⟩ | ⟨before, ed, value, rest', rfl, hall, hvalue, hfound⟩
      · exact .inl ⟨hnone, forall_mem_cons.2 ⟨hed, hall⟩⟩
      · exact .inr ⟨pair :: before, ed, value, rest', rfl, forall_mem_cons.2 ⟨hed, hall⟩, hvalue, hfound⟩

theorem configure_limit (options : Options) : (configure options).maxEarlyData = limit options := by
  unfold configure limit
  by_cases hzero : options.maxEarlyData = 0
  · rw [if_pos hzero, if_neg (not_not_intro hzero)]
    rcases findEd_spec (parameters options.target) with ⟨hfound, hnone⟩ | ⟨before, ed, value, rest, hsplit,
      hbefore, hvalue, hfound⟩
    · rw [hfound, findSome?_eq_none_iff.2 hnone]
      rfl
    · rw [hfound, hsplit, findSome?_append, findSome?_eq_none_iff.2 hbefore, findSome?_cons, hvalue]
      dsimp only [Option.none_or, Option.bind_some]
      cases fromChars value <;> rfl
  · rw [if_neg hzero, if_pos hzero]

theorem others_stripped {before rest : List Bytes} {ed : Bytes}
    (hsplit : parameters target = before ++ ed :: rest) :
    others (if (target.takeWhile (· != 63) ++ if rest = [] then [] else
      63 :: [38].intercalate rest) = [] then [47]
      else target.takeWhile (· != 63) ++ if rest = [] then [] else 63 :: [38].intercalate rest) =
      rest.filter fun pair => edValue pair = none := by
  have hquery : 63 ∈ target := by
    by_contra hnot
    rw [parameters_path hnot] at hsplit
    cases before <;> cases hsplit
  obtain ⟨path, query, hpath, rfl⟩ := split_at_mark hquery
  rw [parameters_query hpath] at hsplit
  rw [(while_not_mark hpath query).1]
  unfold others
  by_cases hrest : rest = []
  · rw [if_pos hrest, hrest, append_nil]
    split
    · rfl
    · rw [parameters_path hpath]
  · have hfree : ∀ pair ∈ rest, (38 : UInt8) ∉ pair := fun pair hpair =>
      not_mem_splitOn 38 query pair (by rw [hsplit]; exact mem_append_right before (mem_cons_of_mem ed hpair))
    rw [if_neg hrest, if_neg (by simp), parameters_query hpath, splitOn_intercalate 38 hfree hrest]

theorem others_configure (options : Options) (hzero : options.maxEarlyData = 0) :
    others (configure options).target = others options.target ↔ Clear options := by
  unfold configure Clear
  rw [if_pos hzero, if_pos hzero]
  rcases findEd_spec (parameters options.target) with ⟨hfound, hnone⟩ | ⟨before, ed, value, rest, hsplit,
    hbefore, hvalue, hfound⟩
  · rw [hfound]
    exact iff_of_true rfl (.inl fun pair hpair hed => hed (hnone pair hpair))
  · have hed : IsEd ed := fun h => Option.some_ne_none value (hvalue.symm.trans h)
    have hkept : others options.target = before ++ rest.filter fun pair => edValue pair = none := by
      unfold others
      rw [hsplit, filter_append, filter_cons_of_neg (by simpa [IsEd] using hed),
        filter_eq_self.2 fun pair hpair => decide_eq_true (hbefore pair hpair)]
    rw [hfound, hkept]
    dsimp only
    have hstripped := others_stripped hsplit
    generalize options.target.takeWhile (· != 63) ++
      (if rest = [] then [] else 63 :: [38].intercalate rest) = stripped at hstripped ⊢
    have htarget : (match fromChars value with
        | none => (⟨if stripped = [] then [47] else stripped, 0, options.earlyDataHeaderName⟩ : Configured)
        | some parsed => ⟨if stripped = [] then [47] else stripped, parsed,
          ascii "Sec-WebSocket-Protocol"⟩).target =
          if stripped = [] then [47] else stripped := by
      cases fromChars value <;> rfl
    rw [htarget, hstripped, hsplit, self_eq_append_left]
    constructor
    · rintro rfl
      exact .inr ⟨ed, rfl, hed⟩
    · rintro (hnone | ⟨first, hfirst, hfirsted⟩)
      · exact absurd hed (hnone ed (mem_append_right before mem_cons_self))
      · cases before with
        | nil => rfl
        | cons pair before =>
          cases hfirst
          exact absurd (hbefore first mem_cons_self) hfirsted

theorem sextets_ne_nil : ∀ {bytes : Bytes}, bytes ≠ [] → sextets bytes ≠ []
  | [], h => absurd rfl h
  | [_], _ => cons_ne_nil _ _
  | [_, _], _ => cons_ne_nil _ _
  | _ :: _ :: _ :: _, _ => cons_ne_nil _ _

theorem configure_header (options : Options) (hzero : options.maxEarlyData = 0) :
    (configure options).maxEarlyData = 0 ∨ (configure options).headerName ≠ [] := by
  unfold configure
  rw [if_pos hzero]
  split
  · exact .inl rfl
  · dsimp only
    split
    · exact .inl rfl
    · exact .inr (show ascii "Sec-WebSocket-Protocol" ≠ [] by decide)

theorem split_early (options : Options) :
    ∃ early text, early ++ (splitEarlyData options).remainder = options.initialPayload ∧
    early.length ≤ limit options ∧ base64urlDecode text = some early ∧
    ((∃ name, (splitEarlyData options).header = some ⟨name, text⟩) ∨
      (splitEarlyData options).header = none ∧ text <:+ (splitEarlyData options).target) := by
  unfold splitEarlyData
  dsimp only
  have hsize : (options.initialPayload.take
    (min options.initialPayload.length (configure options).maxEarlyData)).length ≤ limit options := by
    rw [length_take, ← configure_limit]
    omega
  have hdecode := base64urlDecode_encode
    (options.initialPayload.take (min options.initialPayload.length (configure options).maxEarlyData))
  have hwhole := take_append_drop (min options.initialPayload.length (configure options).maxEarlyData)
    options.initialPayload
  split
  · split
    · exact ⟨_, _, hwhole, hsize, hdecode, .inl ⟨_, rfl⟩⟩
    · exact ⟨_, _, hwhole, hsize, hdecode, .inr ⟨rfl, suffix_append _ _⟩⟩
  · rename_i hnone
    rw [Nat.eq_zero_of_not_pos hnone]
    exact ⟨[], [], rfl, Nat.zero_le _, rfl, .inr ⟨rfl, nil_suffix⟩⟩

/-- **The split keeps what it was given exactly where no parameter is in the way.** -/
theorem split_kept_iff (options : Options) : Kept options (splitEarlyData options) ↔ Clear options := by
  have hothers : others (splitEarlyData options).target = others options.target ↔ Clear options := by
    by_cases hzero : options.maxEarlyData = 0
    · rw [← others_configure options hzero]
      have htarget : (splitEarlyData options).target = (configure options).target := by
        unfold splitEarlyData
        dsimp only
        split
        · rename_i hpos
          rw [if_pos ((configure_header options hzero).resolve_left (by omega))]
        · rfl
      rw [htarget]
    · have hconfigured : configure options =
        ⟨options.target, options.maxEarlyData, options.earlyDataHeaderName⟩ := if_neg hzero
      unfold splitEarlyData Clear
      rw [hconfigured, if_neg hzero]
      by_cases hpayload : options.initialPayload = []
      · rw [if_neg (by rw [hpayload]; simp)]
        exact iff_of_true rfl (.inr (.inl hpayload))
      · have hpos : 0 < min options.initialPayload.length options.maxEarlyData := by
          have := length_pos_iff.2 hpayload
          omega
        rw [if_pos hpos]
        by_cases hheader : options.earlyDataHeaderName ≠ []
        · rw [if_pos hheader]
          exact iff_of_true rfl (.inl hheader)
        · obtain ⟨hamp, hequals, hmark⟩ :=
            base64urlEncode_free (options.initialPayload.take
              (min options.initialPayload.length options.maxEarlyData))
          rw [if_neg hheader, or_iff_right hheader, or_iff_right hpayload]
          refine others_append hamp hequals hmark (fun hnil => ?_) options.target
          refine sextets_ne_nil (fun htake => ?_) (map_eq_nil_iff.1 hnil)
          rcases take_eq_nil_iff.1 htake with hzero | hempty
          · omega
          · exact hpayload hempty
  exact ⟨fun h => hothers.1 h.others, fun h => ⟨split_early options, hothers.2 h⟩⟩

def mixedTarget : Options := { target := ascii "/p?a=1&ed=5", initialPayload := ascii "hello, world" }

/-- **What stands before `ed` is lost**: of `a=1` and `ed=5` neither is left. -/
theorem before_ed_lost : ¬ Kept mixedTarget (splitEarlyData mixedTarget) := fun h => absurd h.others (by decide)

end ClashNative.WebSocketEarlyData
