import ClashNative.DnsNames
import Mathlib.Data.List.TakeWhile
/-!
# DnsEcho — the question of a response

`encode_response` and `encode_error_response` of `dns_codec.cpp` write the question again, from the text
that c-ares gives of its name.
-/
namespace ClashNative.Dns.Names

open List

open Server (QueryPacket Encodable encodeName encodeQueryPacket encodeErrorResponse appendOptRecord setFlags
    responseFlags codecError u16 u32
  dnsRecordTypeA dnsRecordTypeAaaa length_appendOptRecord_le)

/-! ### `encode_response` -/

inductive Address
  | v4 (bytes : Fin 4 → UInt8)
  | v6 (bytes : Fin 16 → UInt8)

def Address.bytes : Address → Bytes
  | .v4 bytes => List.ofFn bytes
  | .v6 bytes => List.ofFn bytes

structure Answer where
  question : DnsQuestion
  responseCode : UInt16 := 0
  authoritative : Bool := false
  ttlSeconds : UInt32 := 0
  addresses : List Address := []

structure DnsQuery where
  id : UInt16
  question : DnsQuestion
  recursionDesired : Bool

def answerRecord (question : DnsQuestion) (ttlSeconds : UInt32) (address : Address) : Bytes :=
  [0xc0, 0x0c] ++ (u16 question.type ++ (u16 question.classCode ++
    (u32 ttlSeconds ++ (u16 (UInt16.ofNat address.bytes.length) ++ address.bytes))))

def Address.mismatches (type : UInt16) : Address → Bool
  | .v4 _ => type == dnsRecordTypeAaaa
  | .v6 _ => type == dnsRecordTypeA

def answerCount (answer : Answer) : Nat := if answer.responseCode = 0 then answer.addresses.length else 0

def encodeQueryResponse (query : DnsQuery) (answer : Answer) : Except Error Bytes :=
  if normalizeName query.question.name ≠ normalizeName answer.question.name ∨
    query.question.type ≠ answer.question.type ∨
      query.question.classCode ≠ answer.question.classCode then
    .error (codecError "DNS response question does not match the query")
  else if 0xffff < answer.addresses.length then .error (codecError "DNS response contains too many answers")
  else
    match encodeQueryPacket query.question query.id with
    | .error e => .error e
    | .ok encoded =>
      let count := UInt16.ofNat (answerCount answer)
      let flags := (0x80 ||| (if query.recursionDesired then 0x01 else 0) |||
        (if answer.authoritative then 0x04 else 0) : UInt8)
      let response := ((((encoded.set 2 flags).set 3 (0x80 ||| (answer.responseCode &&& 0x0f).toUInt8)).set
        6 (count >>> 8).toUInt8).set 7
        (count &&& 0xff).toUInt8)
      if (answer.addresses.take (answerCount answer)).any (Address.mismatches answer.question.type) then
        .error (codecError "DNS answer address type does not match the query")
      else .ok (response ++ (answer.addresses.take (answerCount answer)).flatMap
        (answerRecord answer.question answer.ttlSeconds))

def encodeResponse (query : QueryPacket) (answer : Answer) : Except Error Bytes :=
  match query.questions with
  | [question] =>
    if query.response ∨ query.responseCode ≠ 0 ∨ 0x0fff < answer.responseCode then
      .error (codecError "DNS response requires one valid query question")
    else
      match encodeQueryResponse ⟨query.id, question, query.flags &&& 0x0100 != 0⟩ answer with
      | .error e => .error e
      | .ok wire => .ok (appendOptRecord (setFlags wire ((query.flags &&& 0x7910) ||| 0x8080 |||
          (if answer.authoritative then 0x0400 else 0) |||
          (answer.responseCode &&& 0x000f))) query answer.responseCode)
  | _ => .error (codecError "DNS response requires one valid query question")

/-! ### The question is echoed -/

/-- **The response has the question**, up to the case of its name. -/
def Echoes (question : Question) (response : Except Error Bytes) : Prop := ∃ wire labels, response = .ok wire ∧
  readQuestion wire = some ⟨labels, question.type, question.classCode⟩ ∧ SameName labels question.labels

variable {octet : UInt8 → Bytes} {labels : List Bytes}

def stored (octet : UInt8 → Bytes) (labels : List Bytes) : Bytes :=
  normalizeName (normalizeName (present octet labels))

theorem normalizeName_dot (name : Bytes) : normalizeName (name ++ [46]) = normalizeName name := by
  unfold normalizeName
  rw [reverse_append, reverse_singleton, singleton_append, dropWhile_cons_of_pos (by decide)]

theorem stored_of_last (h : (present octet labels).getLast? ≠ some 46) :
    stored octet labels = (present octet labels).map toLower := by
  have hlast : ((present octet labels).map toLower).getLast? ≠ some 46 := by
    rw [getLast?_map]
    intro hsome
    obtain ⟨b, hb, hlower⟩ := Option.map_eq_some_iff.1 hsome
    rw [toLower_dot_iff] at hlower
    rw [hlower] at hb
    exact h hb
  unfold stored
  rw [normalizeName_of_last h, normalizeName_of_last hlast, map_map]
  exact map_congr_left fun b _ => toLower_toLower b

theorem plain_of_same (hoctet : ∀ b, Presented b (octet b)) (hfits : ∀ label ∈ labels, Fits label)
    (hencodable : Encodable (stored octet labels))
    (hsame : SameName ((stored octet labels).splitOn 46) labels) : Plain octet labels := by
  have hne : labels ≠ [] := by
    rintro rfl
    exact hencodable.1 rfl
  obtain ⟨front, front', b, htext, hjoin, -⟩ := @present_last octet labels hfits hne
  have hlower := join_of_sameName hsame
  by_cases hlast : (present octet labels).getLast? = some 46
  · -- the dot of the last octet is taken for the end of the name
    exfalso
    have hoctets : (octet b).getLast? = some 46 := by
      have hpos := (hoctet b).length_pos.1
      rw [htext, getLast?_append_of_ne_nil _ (length_pos_iff.1 hpos)] at hlast
      exact hlast
    obtain ⟨rfl, hquoted⟩ := (hoctet b).ends_dot hoctets
    rw [hquoted] at htext
    have hlast' : (front ++ [92]).getLast? ≠ some 46 := by
      rw [getLast?_concat]
      decide
    have hstored : stored octet labels = (front ++ [92]).map toLower := by
      have hdot : present octet labels = front ++ [92] ++ [46] := by rw [htext, append_assoc]; rfl
      have hagain : ((front ++ [92]).map toLower).getLast? ≠ some 46 := by
        rw [map_append, map_singleton, getLast?_concat]
        decide
      unfold stored
      rw [hdot, normalizeName_dot, normalizeName_of_last hlast', normalizeName_of_last hagain, map_map]
      exact map_congr_left fun b _ => toLower_toLower b
    rw [hstored, hjoin] at hlower
    have hends := congrArg List.getLast? hlower
    rw [map_append, map_append, map_append, map_singleton, map_singleton, map_singleton, getLast?_concat,
      getLast?_concat] at hends
    exact absurd hends (by decide)
  · rw [stored_of_last hlast, map_map] at hlower
    have hlength := congrArg List.length hlower
    rw [length_map, length_map] at hlength
    refine ⟨hne, (length_present hoctet labels).2 hlength, ?_⟩
    have hshort := hencodable.2.1
    rwa [stored_of_last hlast, length_map] at hshort

theorem getLast?_join (hne : labels ≠ []) (hfits : ∀ label ∈ labels, Fits label)
    (hdot : ∀ label ∈ labels, (46 : UInt8) ∉ label) :
    ([46].intercalate labels).getLast? ≠ some 46 := by
  obtain ⟨front, front', b, -, hjoin, label, hl, hb⟩ := @present_last (fun b => [b]) labels hfits hne
  rw [hjoin, getLast?_concat]
  intro heq
  rw [Option.some.inj heq] at hb
  exact hdot label hl hb

theorem splitOn_join (hne : labels ≠ []) (hdot : ∀ label ∈ labels, (46 : UInt8) ∉ label) :
    (([46].intercalate labels).map toLower).splitOn 46 = labels.map (·.map toLower) := by
  have hsep : [(46 : UInt8)].map toLower = [46] := by decide
  rw [map_intercalate, hsep]
  refine splitOn_intercalate 46 (fun l hl => ?_) (fun hnil => hne (map_eq_nil_iff.1 hnil))
  obtain ⟨label, hlabel, rfl⟩ := mem_map.1 hl
  intro hmem
  obtain ⟨b, hb, hlower⟩ := mem_map.1 hmem
  rw [toLower_dot_iff] at hlower
  rw [hlower] at hb
  exact hdot label hlabel hb

theorem encodable_join (hne : labels ≠ []) (hfits : ∀ label ∈ labels, Fits label)
    (hdot : ∀ label ∈ labels, (46 : UInt8) ∉ label)
    (hshort : ([46].intercalate labels).length ≤ 253) : Encodable (([46].intercalate labels).map toLower) := by
  have hlabels : ∀ l ∈ (([46].intercalate labels).map toLower).splitOn 46, Fits l := by
    intro l hl
    rw [splitOn_join hne hdot] at hl
    obtain ⟨label, hlabel, rfl⟩ := mem_map.1 hl
    have hfit := hfits label hlabel
    unfold Fits at hfit ⊢
    rwa [length_map]
  refine ⟨?_, by rwa [length_map], ?_, ?_, fun l hl => ?_⟩
  · intro hnil
    have hone := hlabels [] (by rw [hnil]; exact mem_singleton_self _)
    exact absurd hone.1 (by decide)
  · intro hhead
    cases hname : ([46].intercalate labels).map toLower with
    | nil =>
      rw [hname] at hhead
      cases hhead
    | cons c rest =>
      rw [hname] at hhead
      have hone := hlabels [] (by rw [hname, Option.some.inj hhead,
        splitOn_cons_eq_if_modifyHead]; exact mem_cons_self)
      exact absurd hone.1 (by decide)
  · rw [getLast?_map]
    intro hsome
    obtain ⟨c, hc, hlower⟩ := Option.map_eq_some_iff.1 hsome
    rw [toLower_dot_iff] at hlower
    rw [hlower] at hc
    exact getLast?_join hne hfits hdot hc
  · have hfit := hlabels l hl
    exact ⟨length_pos_iff.1 hfit.1, hfit.2⟩

theorem same_of_plain (hoctet : ∀ b, Presented b (octet b)) (hfits : ∀ label ∈ labels, Fits label)
    (h : Plain octet labels) :
    Encodable (stored octet labels) ∧ (stored octet labels).splitOn 46 = labels.map (·.map toLower) := by
  have hdot : ∀ label ∈ labels, (46 : UInt8) ∉ label := by
    intro label hl hmem
    have hplain := h.octets label hl 46 hmem
    have hpresented := hoctet 46
    rw [hplain] at hpresented
    generalize htext : ([46] : Bytes) = text at hpresented
    cases hpresented with
    | plain hne => exact hne rfl
    | quoted => cases htext
    | decimal => cases htext
  have htext := present_plain h.octets
  have hshort := h.short
  have hstored : stored octet labels = ([46].intercalate labels).map toLower := by
    rw [stored_of_last (by rw [htext]; exact getLast?_join h.nonempty hfits hdot), htext]
  rw [htext] at hshort
  rw [hstored]
  exact ⟨encodable_join h.nonempty hfits hdot hshort, splitOn_join h.nonempty hdot⟩

theorem same_iff (hoctet : ∀ b, Presented b (octet b)) (hfits : ∀ label ∈ labels, Fits label) :
    Encodable (stored octet labels) ∧ SameName ((stored octet labels).splitOn 46) labels ↔
    Plain octet labels := by
  constructor
  · exact fun h => plain_of_same hoctet hfits h.1 h.2
  · intro h
    obtain ⟨hencodable, hsplit⟩ := same_of_plain hoctet hfits h
    refine ⟨hencodable, ?_⟩
    unfold SameName
    rw [hsplit, map_map]
    refine map_congr_left fun label _ => ?_
    rw [Function.comp, map_map]
    exact map_congr_left fun b _ => toLower_toLower b

/-! ### The messages -/

/-- A message that is written for a question: the question stands behind the header, where its name can be
encoded. -/
def Written (question : DnsQuestion) (response : Except Error Bytes) : Prop :=
  (Encodable (normalizeName question.name) → ∃ wire rest, response = .ok wire ∧ 12 ≤ wire.length ∧
    wire.drop 12 = encodeName (normalizeName question.name) ++
    (u16 question.type ++ (u16 question.classCode ++ rest))) ∧
  (¬ Encodable (normalizeName question.name) → ∃ e, response = .error e)

theorem drop_setFlags (wire : Bytes) (flags : UInt16) : (setFlags wire flags).drop 12 = wire.drop 12 := by
  unfold setFlags
  rw [drop_set_of_lt (by decide), drop_set_of_lt (by decide)]

variable {wire : Bytes}

theorem drop_appendOptRecord (hlong : 12 ≤ wire.length) (query : QueryPacket) (code : UInt16) :
    ∃ more, (appendOptRecord wire query code).drop 12 = wire.drop 12 ++ more := by
  unfold appendOptRecord
  split
  · exact ⟨[], (append_nil _).symm⟩
  · rw [drop_set_of_lt (by decide), drop_set_of_lt (by decide), drop_append_of_le_length hlong]
    exact ⟨_, rfl⟩

theorem encodeQueryPacket_written (question : DnsQuestion) (id : UInt16) :
    Written question (encodeQueryPacket question id) := by
  unfold encodeQueryPacket
  refine ⟨fun hname => ?_, fun hname => ?_⟩
  · rw [if_pos hname]
    refine ⟨_, [], rfl, ?_, ?_⟩
    · simp [u16]
    · rw [append_nil]
      rfl
  · rw [if_neg hname]
    exact ⟨_, rfl⟩

variable {question : DnsQuestion} {response : Except Error Bytes}

theorem Written.finished (h : Written question response) (flags code : UInt16)
    (query : QueryPacket) : Written question
    (response.map fun wire => appendOptRecord (setFlags wire flags) query code) := by
  refine ⟨fun hname => ?_, fun hname => ?_⟩
  · obtain ⟨wire, rest, rfl, hlong, hdrop⟩ := h.1 hname
    have hlong' : 12 ≤ (setFlags wire flags).length := by
      unfold setFlags
      rwa [length_set, length_set]
    obtain ⟨more, hmore⟩ := drop_appendOptRecord hlong' query code
    refine ⟨_, rest ++ more, rfl, Nat.le_trans hlong' (length_appendOptRecord_le _ query code), ?_⟩
    rw [hmore, drop_setFlags, hdrop]
    simp only [append_assoc]
  · obtain ⟨e, rfl⟩ := h.2 hname
    exact ⟨e, rfl⟩

variable {query : QueryPacket}

theorem encodeErrorResponse_written (h : query.questions = [question])
    (hquery : query.response = false) {code : UInt16} (hcode : code ≤ 0x0fff) :
    Written question (encodeErrorResponse query code) := by
  have heq : encodeErrorResponse query code =
      (encodeQueryPacket question query.id).map fun wire =>
      appendOptRecord (setFlags wire (responseFlags query code)) query code := by
    unfold encodeErrorResponse
    rw [h]
    dsimp only
    rw [hquery, if_neg Bool.false_ne_true, if_neg (UInt16.not_lt.2 hcode)]
  rw [heq]
  exact (encodeQueryPacket_written question query.id).finished _ _ query

/-- **An answer that `encode_response` takes**: to this question, with a code and as many addresses as
fit, of the family of its type. -/
structure Answers (query : QueryPacket) (question : DnsQuestion) (answer : Answer) : Prop where
  name : normalizeName question.name = normalizeName answer.question.name
  type : question.type = answer.question.type
  classCode : question.classCode = answer.question.classCode
  clear : query.responseCode = 0
  code : answer.responseCode ≤ 0x0fff
  count : answer.addresses.length ≤ 0xffff
  families : (answer.addresses.take (answerCount answer)).any (Address.mismatches answer.question.type) = false

variable {answer : Answer}

theorem encodeQueryResponse_written (h : Answers query question answer)
    (id : UInt16) (recursionDesired : Bool) :
    Written question (encodeQueryResponse ⟨id, question, recursionDesired⟩ answer) := by
  have hmatch : ¬ (normalizeName question.name ≠ normalizeName answer.question.name ∨
    question.type ≠ answer.question.type ∨
      question.classCode ≠ answer.question.classCode) := by
    rintro (hname | htype | hclass)
    · exact hname h.name
    · exact htype h.type
    · exact hclass h.classCode
  have hwritten := encodeQueryPacket_written question id
  unfold encodeQueryResponse
  rw [if_neg hmatch, if_neg (Nat.not_lt.2 h.count)]
  refine ⟨fun hname => ?_, fun hname => ?_⟩
  · obtain ⟨wire, rest, heq, hlong, hdrop⟩ := hwritten.1 hname
    rw [heq]
    dsimp only
    rw [if_neg (by simp [h.families])]
    refine ⟨_, rest ++ (answer.addresses.take (answerCount answer)).flatMap
      (answerRecord answer.question answer.ttlSeconds), rfl, ?_, ?_⟩
    · simp only [length_append, length_set]
      omega
    · rw [drop_append_of_le_length (by simpa using hlong), drop_set_of_lt (by decide),
        drop_set_of_lt (by decide),
        drop_set_of_lt (by decide), drop_set_of_lt (by decide), hdrop]
      simp only [append_assoc]
  · obtain ⟨e, heq⟩ := hwritten.2 hname
    rw [heq]
    exact ⟨e, rfl⟩

theorem encodeResponse_written (hone : query.questions = [question])
    (hquery : query.response = false) (h : Answers query question answer) :
    Written question (encodeResponse query answer) := by
  have heq : encodeResponse query answer =
    (encodeQueryResponse ⟨query.id, question, query.flags &&& 0x0100 != 0⟩ answer).map fun wire =>
      appendOptRecord (setFlags wire ((query.flags &&& 0x7910) ||| 0x8080 |||
        (if answer.authoritative then 0x0400 else 0) |||
        (answer.responseCode &&& 0x000f))) query answer.responseCode := by
    unfold encodeResponse
    rw [hone]
    dsimp only
    rw [if_neg]
    · cases encodeQueryResponse ⟨query.id, question, query.flags &&& 0x0100 != 0⟩ answer with
      | error e => rfl
      | ok wire => rfl
    · rintro (hresponse | hcode | hcode)
      · rw [hquery] at hresponse
        cases hresponse
      · exact hcode h.clear
      · exact UInt16.not_lt.2 h.code hcode
  rw [heq]
  exact (encodeQueryResponse_written h _ _).finished _ _ query

/-! ### The echo -/

variable {name : Bytes}

theorem readLabels_encoded (hname : Encodable name) {n : Nat} (hn : (encodeName name).length ≤ n)
    (rest : Bytes) :
    readLabels n (encodeName name ++ rest) = some (name.splitOn 46, rest) := by
  have hcount : ∀ labels : List Bytes, labels.length ≤
    (labels.flatMap fun label => UInt8.ofNat label.length :: label).length := by
    intro labels
    induction labels with
    | nil => exact Nat.le_refl 0
    | cons label labels ih =>
      rw [flatMap_cons, length_append, length_cons, length_cons]
      omega
  have hfits : ∀ label ∈ name.splitOn 46, Fits label := by
    intro label hl
    obtain ⟨hne, hle⟩ := hname.2.2.2.2 label hl
    exact ⟨length_pos_iff.2 hne, hle⟩
  rw [encodeName, length_append] at hn
  rw [encodeName, append_assoc]
  exact readLabels_written n _ rest hfits (Nat.lt_of_lt_of_le (Nat.lt_succ_of_le (hcount _)) hn)

theorem readQuestion_written {rest : Bytes} {type classCode : UInt16} (hname : Encodable name)
    (hlong : 12 ≤ wire.length)
    (hdrop : wire.drop 12 = encodeName name ++ (u16 type ++ (u16 classCode ++ rest))) :
    readQuestion wire = some ⟨name.splitOn 46, type, classCode⟩ := by
  have hlength := congrArg List.length hdrop
  rw [length_drop, length_append] at hlength
  unfold readQuestion
  rw [hdrop, readLabels_encoded hname (by omega)]
  show some (⟨name.splitOn 46, joinU16 _ _, joinU16 _ _⟩ : Question) = _
  rw [joinU16_split, joinU16_split]

/-! ### A query -/

/-- **A host name**: its labels, which hold no dot and are short enough together, and some dots behind
them. -/
structure HostName (name : Bytes) (labels : List Bytes) (dots : Nat) : Prop where
  labels_ne : labels ≠ []
  fits : ∀ label ∈ labels, Fits label ∧ (46 : UInt8) ∉ label
  short : (labels.map (·.length + 1)).sum + 1 ≤ 255
  text : name = [46].intercalate labels ++ List.replicate dots 46

/-- A message of one question and nothing else: its identifier and the question. -/
def readQuery (message : Bytes) : Option (UInt16 × Question) :=
  match message.take 12, readLabels message.length (message.drop 12) with
  | [high, low, _, _, 0, 1, 0, 0, 0, 0, 0, 0], some (labels, [a, b, c, d]) =>
    some (joinU16 high low, ⟨labels, joinU16 a b, joinU16 c d⟩)
  | _, _ => none

theorem length_join : ∀ {labels : List Bytes}, labels ≠ [] →
    ([46].intercalate labels).length + 1 = (labels.map (·.length + 1)).sum
  | [], hne => absurd rfl hne
  | [label], _ => by simp
  | label :: label' :: labels, _ => by
    have ih := @length_join (label' :: labels) (cons_ne_nil _ _)
    rw [intercalate_cons_cons, map_cons, sum_cons, ← ih]
    simp only [length_append, length_singleton]
    omega

theorem normalizeName_dots (name : Bytes) :
    ∀ dots : Nat, normalizeName (name ++ List.replicate dots 46) = normalizeName name
  | 0 => by rw [replicate_zero, append_nil]
  | dots + 1 => by rw [replicate_succ', ← append_assoc, normalizeName_dot, normalizeName_dots name dots]

theorem HostName.normalized {dots : Nat} (h : HostName name labels dots) :
    normalizeName name = ([46].intercalate labels).map toLower := by
  rw [h.text, normalizeName_dots,
    normalizeName_of_last (getLast?_join h.labels_ne (fun l hl => (h.fits l hl).1) fun l hl => (h.fits l hl).2)]

theorem exists_dots (name : Bytes) : ∃ stripped dots, name = stripped ++ List.replicate dots 46 ∧
    normalizeName name = stripped.map toLower := by
  refine ⟨(name.reverse.dropWhile (· == 46)).reverse, (name.reverse.takeWhile (· == 46)).length, ?_, rfl⟩
  have hdots : name.reverse.takeWhile (· == 46) = List.replicate (name.reverse.takeWhile (· == 46)).length 46 :=
    eq_replicate_of_mem fun b hb => beq_iff_eq.1 (@mem_takeWhile_imp _ (· == 46) _ b hb)
  rw [← reverse_replicate, ← hdots, ← reverse_append, takeWhile_append_dropWhile, reverse_reverse]

theorem encodable_iff (name : Bytes) : Encodable (normalizeName name) ↔
    ∃ labels dots, HostName name labels dots := by
  constructor
  · intro h
    obtain ⟨stripped, dots, htext, hlower⟩ := exists_dots name
    have hdot : ∀ label ∈ stripped.splitOn 46, (46 : UInt8) ∉ label := not_mem_splitOn 46 stripped
    have hjoin : [46].intercalate (stripped.splitOn 46) = stripped := intercalate_splitOn 46
    have hsplit := splitOn_join (splitOn_ne_nil 46 stripped) hdot
    rw [hjoin] at hsplit
    rw [hlower] at h
    refine ⟨stripped.splitOn 46, dots, splitOn_ne_nil 46 stripped, fun label hl => ⟨?_, hdot label hl⟩,
      ?_, by rw [hjoin, htext]⟩
    · obtain ⟨hne, hle⟩ := h.2.2.2.2 (label.map toLower) (by rw [hsplit]; exact mem_map_of_mem hl)
      rw [length_map] at hle
      exact ⟨length_pos_iff.2 fun hnil => hne (by rw [hnil]; rfl), hle⟩
    · have hlength := h.2.1
      rw [length_map] at hlength
      rw [← length_join (splitOn_ne_nil 46 stripped), hjoin]
      omega
  · rintro ⟨labels, dots, h⟩
    have hlength := length_join h.labels_ne
    have hshort := h.short
    rw [h.normalized]
    exact encodable_join h.labels_ne (fun l hl => (h.fits l hl).1) (fun l hl => (h.fits l hl).2) (by omega)

theorem readQuery_encoded (hname : Encodable name) (id type classCode : UInt16) :
    readQuery (u16 id ++ (u16 0x0100 ++ (u16 1 ++
      (u16 0 ++ (u16 0 ++ (u16 0 ++ (encodeName name ++ (u16 type ++ u16 classCode)))))))) =
      some (id, ⟨name.splitOn 46, type, classCode⟩) := by
  have hread := readLabels_encoded hname (Nat.le_add_left _ 16) (u16 type ++ u16 classCode)
  have hlength : (u16 id ++ (u16 0x0100 ++
    (u16 1 ++ (u16 0 ++ (u16 0 ++ (u16 0 ++ (encodeName name ++ (u16 type ++ u16 classCode)))))))).length =
      16 + (encodeName name).length := by
    simp only [length_append, u16, length_cons, length_nil]
    omega
  unfold readQuery
  rw [hlength]
  rw [show List.drop 12 (u16 id ++ (u16 0x0100 ++
    (u16 1 ++ (u16 0 ++ (u16 0 ++ (u16 0 ++ (encodeName name ++ (u16 type ++ u16 classCode)))))))) =
    encodeName name ++ (u16 type ++ u16 classCode) from rfl, hread]
  show some (joinU16 _ _, (⟨name.splitOn 46, joinU16 _ _, joinU16 _ _⟩ : Question)) = _
  rw [joinU16_split, joinU16_split, joinU16_split]

/-- **A query is encoded** exactly for a host name, and it is read back with the identifier, the labels,
the type and the class. -/
theorem query_encoded_iff (question : DnsQuestion) (id : UInt16) :
    ((∃ wire, encodeQueryPacket question id = .ok wire) ↔ ∃ labels dots, HostName question.name labels dots) ∧
      ∀ wire labels dots, encodeQueryPacket question id = .ok wire → HostName question.name labels dots →
      ∃ lower, SameName lower labels ∧
        readQuery wire = some (id, { question with labels := lower }) := by
  rw [← encodable_iff]
  unfold encodeQueryPacket
  by_cases hname : Encodable (normalizeName question.name)
  · rw [if_pos hname]
    refine ⟨iff_of_true ⟨_, rfl⟩ hname, fun wire labels dots hwire h => ?_⟩
    cases hwire
    have hsplit := splitOn_join h.labels_ne fun l hl => (h.fits l hl).2
    refine ⟨labels.map (·.map toLower), ?_, ?_⟩
    · unfold SameName
      rw [map_map]
      refine map_congr_left fun label _ => ?_
      rw [Function.comp, map_map]
      exact map_congr_left fun b _ => toLower_toLower b
    · rw [readQuery_encoded hname, h.normalized, hsplit]
  · rw [if_neg hname]
    exact ⟨iff_of_false (by rintro ⟨wire, hwire⟩; cases hwire) hname,
      fun wire labels dots hwire => by cases hwire⟩

/-- **Any number of dots may stand behind a name**: the two of `a..` are one too many for a host name. -/
theorem dots_encoded : (∃ wire, encodeQueryPacket ⟨[97, 46, 46], 1, 1⟩ 7 = .ok wire) ∧
    ¬ ∃ labels dots, dots ≤ 1 ∧ HostName [97, 46, 46] labels dots := by
  refine ⟨⟨_, rfl⟩, ?_⟩
  rintro ⟨labels, dots, hdots, h⟩
  have hlast := getLast?_join h.labels_ne (fun l hl => (h.fits l hl).1) fun l hl => (h.fits l hl).2
  have htext := h.text
  rcases Nat.le_one_iff_eq_zero_or_eq_one.1 hdots with rfl | rfl
  · rw [replicate_zero, append_nil] at htext
    rw [← htext] at hlast
    exact hlast rfl
  · have hjoin : [46].intercalate labels = [97, 46] :=
      append_cancel_right (show _ ++ [46] = [97, 46] ++ [46] from htext.symm)
    rw [hjoin] at hlast
    exact hlast rfl

theorem echoes_iff (h : Written question response)
    (hoctet : ∀ b, Presented b (octet b)) (hfits : ∀ label ∈ labels, Fits label)
    (hname : question.name = normalizeName (present octet labels)) :
    Echoes { question with labels := labels } response ↔ Plain octet labels := by
  have hstored : normalizeName question.name = stored octet labels := by rw [hname]; rfl
  rw [← same_iff hoctet hfits, ← hstored]
  constructor
  · rintro ⟨wire, labels', hresponse, hread, hsame⟩
    by_cases hencodable : Encodable (normalizeName question.name)
    · obtain ⟨wire', rest, hwire, hlong, hdrop⟩ := h.1 hencodable
      rw [hresponse] at hwire
      obtain rfl := Except.ok.inj hwire
      rw [readQuestion_written hencodable hlong hdrop] at hread
      have hlabels : (normalizeName question.name).splitOn 46 = labels' :=
        congrArg Question.labels (Option.some.inj hread)
      rw [← hlabels] at hsame
      exact ⟨hencodable, hsame⟩
    · obtain ⟨e, he⟩ := h.2 hencodable
      rw [hresponse] at he
      cases he
  · rintro ⟨hencodable, hsame⟩
    obtain ⟨wire, rest, hwire, hlong, hdrop⟩ := h.1 hencodable
    exact ⟨wire, _, hwire, readQuestion_written hencodable hlong hdrop, hsame⟩

/-- **c-ares gives the text of the name** of a question, with escapes, and `decode_packet` normalizes it.
-/
def Yields (c : Server.CAres) (octet : UInt8 → Bytes) : Prop :=
  ∀ message packet question, c.decodePacket message none = .ok packet → readQuestion message = some question →
    packet.questions.head? = some ⟨normalizeName (present octet question.labels), question.type,
      question.classCode⟩

/-- **A response has the question of its query** exactly where the text of the name is its labels. -/
theorem question_echoed_iff (c : Server.CAres) (hoctet : ∀ b, Presented b (octet b))
    (hyields : Yields c octet) {message : Bytes}
    {query : QueryPacket} {question : Question} {decoded : DnsQuestion}
    (hdecode : c.decodePacket message none = .ok query)
    (hread : readQuestion message = some question) (hone : query.questions = [decoded])
    (hquery : query.response = false) {code : UInt16}
    (hcode : code ≤ 0x0fff) {answer : Answer} (hanswer : Answers query decoded answer) :
    (Echoes question (encodeErrorResponse query code) ↔ Plain octet question.labels) ∧
      (Echoes question (encodeResponse query answer) ↔ Plain octet question.labels) := by
  have hgiven := hyields message query question hdecode hread
  rw [hone] at hgiven
  obtain rfl := Option.some.inj hgiven
  have hfits : ∀ label ∈ question.labels, Fits label := by
    unfold readQuestion at hread
    split at hread
    · rename_i labels a b d e rest hlabels
      cases hread
      exact readLabels_fits _ _ _ _ hlabels
    · cases hread
  exact ⟨echoes_iff (encodeErrorResponse_written hone hquery hcode) hoctet hfits rfl,
    echoes_iff (encodeResponse_written hone hquery hanswer) hoctet hfits rfl⟩

/-! ### c-ares, for examples -/

def isPrintable (b : UInt8) : Bool := 32 ≤ b && b ≤ 126

def reserved : Bytes := [34, 46, 59, 92, 40, 41, 64, 36]

def caresOctet (b : UInt8) : Bytes :=
  if isPrintable b = false then [92, digit (b.toNat / 100), digit (b.toNat / 10 % 10), digit (b.toNat % 10)]
  else if reserved.contains b then [92, b]
  else [b]

theorem caresOctet_presented (b : UInt8) : Presented b (caresOctet b) := by
  unfold caresOctet
  split
  · exact .decimal
  · split
    · rename_i hreserved
      refine .quoted fun hdigit => ?_
      have hnot : ∀ b : UInt8, reserved.contains b = true → ¬ (48 ≤ b ∧ b ≤ 57) :=
        forall_octets (by decide +kernel)
      exact hnot b hreserved hdigit
    · rename_i hplain
      have hdot : b ≠ 46 := by
        rintro rfl
        exact hplain (by decide)
      have hslash : b ≠ 92 := by
        rintro rfl
        exact hplain (by decide)
      exact .plain hdot hslash

def questionCares : Server.CAres where
  parse message :=
    match readQuestion message with
    | none => .error (codecError "parse the DNS message")
    | some _ => .ok ⟨joinU16 (message.getD 0 0) (message.getD 1 0), 0, message, fun _ => []⟩
  write r := .ok r.header
  packet r := (readQuestion r.header).map fun question =>
    { wire := r.header, flags := joinU16 (r.header.getD 2 0) (r.header.getD 3 0)
      questions := [⟨normalizeName (present caresOctet question.labels), question.type, question.classCode⟩] }

theorem questionCares_yields : Yields questionCares caresOctet := by
  intro message packet question hdecode hread
  unfold Server.CAres.decodePacket questionCares at hdecode
  dsimp only at hdecode
  rw [hread] at hdecode
  dsimp only at hdecode
  rw [if_neg (by simp), hread] at hdecode
  obtain rfl := Except.ok.inj hdecode
  rfl

def queryFor (labels : List Bytes) : Bytes :=
  [0x12, 0x34, 0x01, 0, 0, 1, 0, 0, 0, 0, 0, 0] ++
  (labels.flatMap (fun label => UInt8.ofNat label.length :: label) ++ [0, 0, 1, 0, 1])

def packetFor (labels : List Bytes) : QueryPacket where
  wire := queryFor labels
  id := 0x1234
  flags := 0x0100
  questions := [⟨normalizeName (present caresOctet labels), 1, 1⟩]

/-- `a.B` is asked for. -/
theorem question_echoed_iff_plain :
    (Echoes ⟨[[97], [66]], 1, 1⟩ (encodeErrorResponse (packetFor [[97], [66]]) 2) ↔
      Plain caresOctet [[97], [66]]) ∧
      (Echoes ⟨[[97], [66]], 1, 1⟩ (encodeResponse
        (packetFor [[97], [66]]) { question := ⟨[97, 46, 98], 1, 1⟩, addresses := [] }) ↔
        Plain caresOctet [[97], [66]]) :=
  question_echoed_iff questionCares caresOctet_presented questionCares_yields
    (by rfl : questionCares.decodePacket (queryFor [[97], [66]]) none = .ok (packetFor [[97], [66]]))
    (by decide) rfl
    (by decide) (by decide) ⟨by decide, rfl, rfl, by decide, by decide, by decide, rfl⟩

/-- **One label `a.b` comes back as two labels, `a\` and `b`**, and the root does not come back. -/
theorem escaped_name_split :
    questionCares.decodePacket (queryFor [[97, 46, 98]]) none = .ok (packetFor [[97, 46, 98]]) ∧
    ¬ Echoes ⟨[[97, 46, 98]], 1, 1⟩ (encodeErrorResponse (packetFor [[97, 46, 98]]) 2) ∧
    questionCares.decodePacket (queryFor []) none = .ok (packetFor []) ∧
    ¬ Echoes ⟨[], 1, 1⟩ (encodeErrorResponse (packetFor []) 2) := by
  refine ⟨rfl, ?_, rfl, ?_⟩
  · rintro ⟨wire, labels, hok, hread, hsame⟩
    have hsplit : (encodeErrorResponse (packetFor [[97, 46, 98]]) 2).toOption.bind readQuestion =
      some ⟨[[97, 92], [98]], 1, 1⟩ := by
      decide +kernel
    rw [hok] at hsplit
    have hlabels : labels = [[97, 92], [98]] :=
      congrArg Question.labels (Option.some.inj (hread.symm.trans hsplit))
    rw [hlabels] at hsame
    exact absurd hsame (by decide)
  · rintro ⟨wire, labels, hok, -⟩
    have hrefused : (encodeErrorResponse (packetFor []) 2).toOption = none := by decide +kernel
    rw [hok] at hrefused
    cases hrefused

end ClashNative.Dns.Names
