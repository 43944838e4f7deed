import Mathlib.Data.List.TakeWhile
import Mathlib.Tactic.Common
/-!
# HttpWire — HTTP/1.1 responses on the wire, as a recipient reads them

RFC 9112: a status line, field lines up to an empty one, and a body as long as the rules of section 6.3
say.  `decodeResponse` gives the message at the front of the bytes and what is behind it; it gives nothing
for a message that only the end of the connection ends.
-/
namespace Wire

open List
namespace Http

abbrev Bytes := List UInt8

abbrev FieldLine := Bytes × Bytes

def crlf : Bytes := [13, 10]

def text (s : String) : Bytes := s.toList.map (fun c => UInt8.ofNat c.toNat)

/-! ### Lines -/

def readLine : Bytes → Option (Bytes × Bytes)
  | [] => none
  | c :: rest =>
    if c = 13 then (if rest.head? = some 10 then some ([], rest.tail) else none)
    else (readLine rest).map (fun r => (c :: r.1, r.2))

theorem readLine_append {line : Bytes} (h : 13 ∉ line) (rest : Bytes) :
    readLine (line ++ (crlf ++ rest)) = some (line, rest) := by
  induction line with
  | nil => rfl
  | cons c line ih =>
    rw [mem_cons, not_or] at h
    rw [cons_append, readLine, if_neg (Ne.symm h.1), ih h.2]
    rfl

/-! ### Names and values -/

def isTokenChar (c : UInt8) : Bool :=
  (97 ≤ c && c ≤ 122) || (65 ≤ c && c ≤ 90) || (48 ≤ c && c ≤ 57) || (text "!#$%&'*+-.^_`|~").contains c

def isToken (name : Bytes) : Bool := name ≠ [] && name.all isTokenChar

def isValueChar (c : UInt8) : Bool := c == 9 || (32 ≤ c && c != 127)

def isBlank (c : UInt8) : Bool := c == 32 || c == 9

def trim (value : Bytes) : Bytes := ((value.dropWhile isBlank).reverse.dropWhile isBlank).reverse

def lower (c : UInt8) : UInt8 := if 65 ≤ c ∧ c ≤ 90 then c + 32 else c

def isNamed (expected : Bytes) (field : FieldLine) : Bool := field.1.map lower == expected

/-- **A field as a parser gives it**: the name is a token, the value has neither controls nor blanks
around it. -/
structure FieldLine.Ok (field : FieldLine) : Prop where
  name : isToken field.1 = true
  value : field.2.all isValueChar = true
  trimmed : trim field.2 = field.2

instance (field : FieldLine) : Decidable field.Ok :=
  decidable_of_iff (isToken field.1 = true ∧ field.2.all isValueChar = true ∧ trim field.2 = field.2)
    ⟨fun h => ⟨h.1, h.2.1, h.2.2⟩, fun h => ⟨h.name, h.value, h.trimmed⟩⟩

theorem not_tokenChar_colon : isTokenChar 58 = false := by decide

theorem not_tokenChar_cr : isTokenChar 13 = false := by decide

theorem not_valueChar_cr : isValueChar 13 = false := by decide

variable {bytes : Bytes} {c : UInt8}

theorem notMem_of_all {p : UInt8 → Bool} (hp : p c = false) (h : bytes.all p = true) :
    c ∉ bytes := by
  intro hmem
  rw [all_eq_true.1 h c hmem] at hp
  cases hp

theorem takeWhile_ne_append (h : c ∉ bytes) (rest : Bytes) :
    (bytes ++ c :: rest).takeWhile (· ≠ c) = bytes := by
  rw [takeWhile_append_of_pos, takeWhile_cons_of_neg (by simp), append_nil]
  intro b hb
  simp only [ne_eq, decide_not, Bool.not_eq_eq_eq_not, Bool.not_true, decide_eq_false_iff_not]
  rintro rfl
  exact h hb

theorem isToken_all {name : Bytes} (h : isToken name = true) : name.all isTokenChar = true := by
  rw [isToken, Bool.and_eq_true] at h
  exact h.2

theorem trim_blank (value : Bytes) : trim (32 :: value) = trim value := by
  rfl

/-! ### Field lines -/

/-- The field on a line; `none` when the name is no token or the value has a control in it. -/
def parseField (line : Bytes) : Option FieldLine :=
  let name := line.takeWhile (· ≠ 58)
  let value := trim (line.drop (name.length + 1))
  if name.length < line.length ∧ isToken name ∧ value.all isValueChar then some (name, value) else none

def writeField (field : FieldLine) : Bytes := field.1 ++ (58 :: 32 :: field.2) ++ crlf

theorem parseField_write {field : FieldLine} (h : field.Ok) :
    parseField (field.1 ++ (58 :: 32 :: field.2)) = some field := by
  have hname : (field.1 ++ (58 :: 32 :: field.2)).takeWhile (· ≠ 58) = field.1 :=
    takeWhile_ne_append (notMem_of_all not_tokenChar_colon (isToken_all h.name)) _
  have hvalue : (field.1 ++ (58 :: 32 :: field.2)).drop (field.1.length + 1) = 32 :: field.2 := by
    rw [drop_append, drop_eq_nil_of_le (by omega), Nat.add_sub_cancel_left]
    rfl
  have hlength : field.1.length < (field.1 ++ (58 :: 32 :: field.2)).length := by
    simp only [length_append, length_cons]
    omega
  simp only [parseField, hname, hvalue, trim_blank, h.trimmed, hlength, h.name, h.value, and_self, if_true]

/-- The fields up to the empty line, and what is behind it.  Every field takes a line of the fuel. -/
def readFields : Nat → Bytes → Option (List FieldLine × Bytes)
  | 0, _ => none
  | fuel + 1, bytes => do
    let (line, rest) ← readLine bytes
    if line = [] then return ([], rest)
    let field ← parseField line
    let (fields, rest) ← readFields fuel rest
    return (field :: fields, rest)

variable {fields : List FieldLine}

theorem readFields_write (h : ∀ field ∈ fields, field.Ok) (rest : Bytes) :
    ∀ {fuel : Nat}, fields.length < fuel →
      readFields fuel (fields.flatMap writeField ++ (crlf ++ rest)) = some (fields, rest) := by
  induction fields with
  | nil =>
    rintro (_ | fuel) hfuel
    · cases hfuel
    · rfl
  | cons field fields ih =>
    rintro (_ | fuel) hfuel
    · cases hfuel
    · have hok := h field mem_cons_self
      have hcr : 13 ∉ field.1 ++ (58 :: 32 :: field.2) := by
        simp only [mem_append, mem_cons, not_or]
        exact ⟨notMem_of_all not_tokenChar_cr
          (isToken_all hok.name), by decide, by decide, notMem_of_all not_valueChar_cr hok.value⟩
      have hline : readLine ((field :: fields).flatMap writeField ++ (crlf ++ rest)) =
          some (field.1 ++ (58 :: 32 :: field.2), fields.flatMap writeField ++ (crlf ++ rest)) := by
        rw [flatMap_cons, writeField, append_assoc, append_assoc, readLine_append hcr]
      have hne : field.1 ++ (58 :: 32 :: field.2) ≠ [] := by simp
      have hrest := ih (fun f hf => h f (mem_cons_of_mem _ hf)) (Nat.lt_of_succ_lt_succ hfuel)
      simp only [readFields, hline, Option.bind_eq_bind, Option.bind_some, if_neg hne,
        parseField_write hok, hrest]
      rfl

theorem length_le_flatMap_writeField (fields : List FieldLine) :
    fields.length ≤ (fields.flatMap writeField).length := by
  induction fields with
  | nil => exact Nat.le_refl _
  | cons field fields ih =>
    simp only [flatMap_cons, writeField, length_append, length_cons]
    omega

/-! ### Numerals -/

def digitValue (c : UInt8) : Option Nat :=
  if 48 ≤ c ∧ c ≤ 57 then some (c.toNat - 48)
  else if 97 ≤ c ∧ c ≤ 102 then some (c.toNat - 87)
  else if 65 ≤ c ∧ c ≤ 70 then some (c.toNat - 55)
  else none

def pushDigit (base n : Nat) (c : UInt8) : Option Nat := do
  let d ← digitValue c
  if d < base then some (n * base + d) else none

def readNumeral (base : Nat) (digits : Bytes) : Option Nat :=
  if digits = [] then none else digits.foldlM (pushDigit base) 0

def writeNumeral (base n : Nat) : Bytes := (Nat.toDigits base n).map (fun c => UInt8.ofNat c.toNat)

theorem digitValue_digitChar : ∀ d < 16, digitValue (UInt8.ofNat (Nat.digitChar d).toNat) = some d := by decide

variable {base : Nat} {n : Nat}

theorem writeNumeral_of_lt (h : n < base) :
    writeNumeral base n = [UInt8.ofNat (Nat.digitChar n).toNat] := by
  rw [writeNumeral, Nat.toDigits_of_lt_base h]
  rfl

theorem writeNumeral_of_le (hone : 1 < base) (h : base ≤ n) :
    writeNumeral base n = writeNumeral base (n / base) ++ [UInt8.ofNat (Nat.digitChar (n % base)).toNat] := by
  rw [writeNumeral, Nat.toDigits_of_base_le hone h, map_append]
  rfl

theorem foldlM_writeNumeral (hone : 1 < base) (hbase : base ≤ 16) (n : Nat) :
    (writeNumeral base n).foldlM (pushDigit base) 0 = some n := by
  have hdigit : ∀ m d, d < base → pushDigit base m (UInt8.ofNat (Nat.digitChar d).toNat) =
    some (m * base + d) := by
    intro m d hd
    rw [pushDigit, digitValue_digitChar d (by omega)]
    exact if_pos hd
  induction n using Nat.strongRecOn with
  | _ n ih =>
    by_cases hn : n < base
    · rw [writeNumeral_of_lt hn, foldlM_cons, hdigit 0 n hn]
      simp
    · have hlt : n / base < n := Nat.div_lt_self (by omega) hone
      rw [writeNumeral_of_le hone (by omega), foldlM_append, ih _ hlt]
      simp only [Option.bind_eq_bind, Option.bind_some, foldlM_cons, foldlM_nil,
        hdigit _ _ (Nat.mod_lt n (by omega)), Nat.div_add_mod' n base]
      rfl

theorem writeNumeral_all (hone : 1 < base) (hbase : base ≤ 16) (n : Nat) :
    (writeNumeral base n).all isTokenChar = true := by
  have hdigit : ∀ d < 16, isTokenChar (UInt8.ofNat (Nat.digitChar d).toNat) = true := by decide
  induction n using Nat.strongRecOn with
  | _ n ih =>
    by_cases hn : n < base
    · rw [writeNumeral_of_lt hn, all_cons, hdigit n (by omega)]
      rfl
    · have hmod := Nat.mod_lt n (show 0 < base by omega)
      rw [writeNumeral_of_le hone (by omega), all_append, ih _ (Nat.div_lt_self (by omega) hone), all_cons,
        hdigit _ (by omega)]
      rfl

theorem writeNumeral_ne_nil (base n : Nat) : writeNumeral base n ≠ [] := by
  simp [writeNumeral, Nat.toDigits_ne_nil]

theorem readNumeral_write (hone : 1 < base) (hbase : base ≤ 16) (n : Nat) :
    readNumeral base (writeNumeral base n) = some n := by
  rw [readNumeral, if_neg (writeNumeral_ne_nil base n), foldlM_writeNumeral hone hbase]

/-! ### Chunks -/

/-- The chunks up to the last one, of size zero; their data, and what is behind.  Extensions are skipped,
and every chunk takes one of the fuel. -/
def readChunks : Nat → Bytes → Option (Bytes × Bytes)
  | 0, _ => none
  | fuel + 1, bytes => do
    let (line, rest) ← readLine bytes
    let size ← readNumeral 16 (line.takeWhile (· ≠ 59))
    if size = 0 then return ([], rest)
    if (rest.drop size).take 2 ≠ crlf then none
    let (body, behind) ← readChunks fuel (rest.drop (size + 2))
    return (rest.take size ++ body, behind)

def writeChunk (data : Bytes) : Bytes := writeNumeral 16 data.length ++ (crlf ++ (data ++ crlf))

theorem takeWhile_writeNumeral (n : Nat) : (writeNumeral 16 n).takeWhile (· ≠ 59) = writeNumeral 16 n := by
  have hmem : 59 ∉ writeNumeral 16 n :=
    notMem_of_all (show isTokenChar 59 = false by decide) (writeNumeral_all (by decide) (Nat.le_refl _) n)
  rw [takeWhile_eq_self_iff]
  intro c hc
  simp only [ne_eq, decide_not, Bool.not_eq_eq_eq_not, Bool.not_true, decide_eq_false_iff_not]
  rintro rfl
  exact hmem hc

theorem readLine_writeNumeral (n : Nat) (rest : Bytes) :
    readLine (writeNumeral 16 n ++ (crlf ++ rest)) = some (writeNumeral 16 n, rest) :=
  readLine_append (notMem_of_all not_tokenChar_cr (writeNumeral_all (by decide) (Nat.le_refl _) n)) rest

theorem readChunks_last (fuel : Nat) (rest : Bytes) :
    readChunks (fuel + 1) (writeNumeral 16 0 ++ (crlf ++ rest)) = some ([], rest) := by
  rfl

theorem readChunks_cons {data : Bytes} (h : data ≠ []) (fuel : Nat) (rest : Bytes) :
    readChunks (fuel + 1) (writeChunk data ++ rest) =
      (readChunks fuel rest).map (fun r => (data ++ r.1, r.2)) := by
  have hline : readLine (writeChunk data ++ rest) = some (writeNumeral 16 data.length,
    data ++ (crlf ++ rest)) := by
    rw [writeChunk, append_assoc, append_assoc, append_assoc, readLine_writeNumeral]
  have hsize : ¬ data.length = 0 := fun h0 => h (eq_nil_of_length_eq_zero h0)
  have hbreak : ((data ++ (crlf ++ rest)).drop data.length).take 2 = crlf := by
    rw [drop_left]
    rfl
  have hbehind : (data ++ (crlf ++ rest)).drop (data.length + 2) = rest := by
    rw [← drop_drop, drop_left]
    rfl
  simp only [readChunks, hline, Option.bind_eq_bind, Option.bind_some, takeWhile_writeNumeral,
    readNumeral_write (show 1 < 16 by decide) (Nat.le_refl _), if_neg hsize, hbreak, ne_eq, not_true, if_false,
    hbehind, take_left]
  cases readChunks fuel rest <;> rfl

variable {chunks : List Bytes}

theorem readChunks_write (h : ∀ data ∈ chunks, data ≠ []) (rest : Bytes) :
    ∀ {fuel : Nat}, chunks.length < fuel →
      readChunks fuel (chunks.flatMap writeChunk ++ (writeNumeral 16 0 ++ (crlf ++ rest))) =
        some (chunks.flatten, rest) := by
  induction chunks with
  | nil =>
    rintro (_ | fuel) hfuel
    · cases hfuel
    · exact readChunks_last fuel rest
  | cons data chunks ih =>
    rintro (_ | fuel) hfuel
    · cases hfuel
    · rw [flatMap_cons, append_assoc, readChunks_cons (h data mem_cons_self),
        ih (fun d hd => h d (mem_cons_of_mem _ hd)) (Nat.lt_of_succ_lt_succ hfuel)]
      rfl

theorem length_le_flatMap_writeChunk (chunks : List Bytes) :
    chunks.length ≤ (chunks.flatMap writeChunk).length := by
  induction chunks with
  | nil => exact Nat.le_refl _
  | cons data chunks ih =>
    simp only [flatMap_cons, writeChunk, crlf, length_append, length_cons]
    omega

/-! ### Responses -/

def elements (expected : Bytes) (fields : List FieldLine) : List Bytes :=
  (fields.filter (isNamed expected)).flatMap (fun f => (f.2.splitOn 44).map trim)

inductive BodyLength
  | empty
  | chunked
  | sized (size : Nat)
  | untilClose
  | invalid
  deriving DecidableEq, Repr

/-- **How long a response's body is** (RFC 9112, 6.3), to a request of this method. -/
def bodyLength (method : Bytes) (status : Nat) (fields : List FieldLine) : BodyLength :=
  if method = text "HEAD" ∨ status / 100 = 1 ∨ status = 204 ∨ status = 304 then .empty
  -- what follows is the tunnel's
  else if method = text "CONNECT" ∧ status / 100 = 2 then .untilClose
  else if fields.any (isNamed (text "transfer-encoding")) then
    if (elements (text "transfer-encoding") fields).getLast?.map (·.map lower) =
      some (text "chunked") then .chunked
    else .untilClose
  else if fields.any (isNamed (text "content-length")) then
    match (elements (text "content-length") fields).mapM (readNumeral 10) with
    | some (size :: sizes) => if sizes.all (· == size) then .sized size else .invalid
    | _ => .invalid
  else .untilClose

structure Response where
  status : Nat
  fields : List FieldLine
  body : Bytes
  trailers : List FieldLine
  deriving DecidableEq, Repr

def parseStatusLine (line : Bytes) : Option Nat :=
  if line.take 9 = text "HTTP/1.1 " ∧ (line.drop 12).head? = some 32 then
    readNumeral 10 ((line.drop 9).take 3) else none

/-- The message whose head was read, and what is behind it; `none` when only the end of the connection
ends it. -/
def decodeBody (method : Bytes) (status : Nat) (fields : List FieldLine) (rest : Bytes) : Option
    (Response × Bytes) :=
  match bodyLength method status fields with
  | .empty => some (⟨status, fields, [], []⟩, rest)
  | .chunked => do
    let (body, rest) ← readChunks (rest.length + 1) rest
    let (trailers, rest) ← readFields (rest.length + 1) rest
    return (⟨status, fields, body, trailers⟩, rest)
  | .sized size => if rest.length < size then none else some (⟨status, fields, rest.take size, []⟩,
    rest.drop size)
  | .untilClose => none
  | .invalid => none

/-- **The message at the front of the bytes**, and what is behind it. -/
def decodeResponse (method : Bytes) (bytes : Bytes) : Option (Response × Bytes) := do
  let (line, rest) ← readLine bytes
  let status ← parseStatusLine line
  let (fields, rest) ← readFields (rest.length + 1) rest
  decodeBody method status fields rest

def writeStatusLine (status : Nat) (reason : Bytes) : Bytes :=
  text "HTTP/1.1 " ++ (writeNumeral 10 status ++ (32 :: reason))

def writeHead (status : Nat) (reason : Bytes) (fields : List FieldLine) : Bytes :=
  writeStatusLine status reason ++ crlf ++ (fields.flatMap writeField ++ crlf)

variable {status : Nat}

theorem length_writeNumeral_status (hlow : 100 ≤ status) (hhigh : status < 1000) :
    (writeNumeral 10 status).length = 3 := by
  have hle : (Nat.toDigits 10 status).length ≤ 3 := (Nat.length_toDigits_le_iff (by decide) (by decide)).2 hhigh
  have hlt : ¬ (Nat.toDigits 10 status).length ≤ 2 := by
    rw [Nat.length_toDigits_le_iff (by decide) (by decide)]
    omega
  rw [writeNumeral, length_map]
  omega

theorem parseStatusLine_write (hlow : 100 ≤ status) (hhigh : status < 1000) (reason : Bytes) :
    parseStatusLine (writeStatusLine status reason) = some status := by
  have hlength := length_writeNumeral_status hlow hhigh
  have hversion : (text "HTTP/1.1 ").length = 9 := by decide
  have htake : (writeStatusLine status reason).take 9 = text "HTTP/1.1 " := by
    rw [writeStatusLine, ← hversion, take_left]
  have hdrop : (writeStatusLine status reason).drop 9 = writeNumeral 10 status ++ (32 :: reason) := by
    rw [writeStatusLine, ← hversion, drop_left]
  have hdigits : ((writeStatusLine status reason).drop 9).take 3 = writeNumeral 10 status := by
    rw [hdrop, ← hlength, take_left]
  have hbehind : (writeStatusLine status reason).drop 12 = 32 :: reason := by
    rw [show 12 = 9 + 3 from rfl, ← drop_drop, hdrop, ← hlength, drop_left]
  rw [parseStatusLine, htake, hdigits, hbehind, if_pos ⟨rfl, rfl⟩, readNumeral_write (by decide) (by decide)]

theorem decodeResponse_writeHead (method : Bytes) (hlow : 100 ≤ status) (hhigh : status < 1000)
    {reason : Bytes} (hreason : 13 ∉ reason) (h : ∀ field ∈ fields, field.Ok) (rest : Bytes) :
    decodeResponse method (writeHead status reason fields ++ rest) = decodeBody method status fields rest := by
  have hline : readLine (writeHead status reason fields ++ rest) =
      some (writeStatusLine status reason, fields.flatMap writeField ++ (crlf ++ rest)) := by
    rw [writeHead, append_assoc, append_assoc, append_assoc]
    refine readLine_append ?_ _
    have hnumeral := notMem_of_all not_tokenChar_cr
      (writeNumeral_all (by decide) (show 10 ≤ 16 by decide) status)
    simp only [writeStatusLine, mem_append, mem_cons, not_or]
    exact ⟨by decide, hnumeral, by decide, hreason⟩
  have hfuel : fields.length < (fields.flatMap writeField ++ (crlf ++ rest)).length + 1 := by
    have := length_le_flatMap_writeField fields
    rw [length_append]
    omega
  simp only [decodeResponse, hline, Option.bind_eq_bind, Option.bind_some, parseStatusLine_write hlow hhigh,
    readFields_write h rest hfuel]

variable {method : Bytes}

theorem decodeBody_empty
    (h : bodyLength method status fields = .empty) (rest : Bytes) :
    decodeBody method status fields rest = some (⟨status, fields, [], []⟩, rest) := by
  simp only [decodeBody, h]

theorem decodeBody_untilClose
    (h : bodyLength method status fields = .untilClose) (rest : Bytes) :
    decodeBody method status fields rest = none := by
  simp only [decodeBody, h]

theorem decodeBody_chunked
    (h : bodyLength method status fields = .chunked) (hchunks : ∀ data ∈ chunks, data ≠ [])
    {trailers : List FieldLine} (htrailers : ∀ field ∈ trailers, field.Ok) (rest : Bytes) :
    decodeBody method status fields
        (chunks.flatMap writeChunk ++ (writeNumeral 16 0 ++
          (crlf ++ (trailers.flatMap writeField ++ (crlf ++ rest))))) =
      some (⟨status, fields, chunks.flatten, trailers⟩, rest) := by
  have hfuel : chunks.length <
      (chunks.flatMap writeChunk ++
        (writeNumeral 16 0 ++ (crlf ++ (trailers.flatMap writeField ++ (crlf ++ rest))))).length + 1 := by
    have := length_le_flatMap_writeChunk chunks
    rw [length_append]
    omega
  have htrailerFuel : trailers.length < (trailers.flatMap writeField ++ (crlf ++ rest)).length + 1 := by
    have := length_le_flatMap_writeField trailers
    rw [length_append]
    omega
  simp only [decodeBody, h, readChunks_write hchunks _ hfuel, Option.bind_eq_bind, Option.bind_some,
    readFields_write htrailers rest htrailerFuel]
  rfl

end Http
end Wire
