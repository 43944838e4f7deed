import ClashNative.Http1Reads
/-!
# Http1Interims — what interim responses do to the two exchanges

The streaming loop keeps the parser it has, whose header is done: one interim response and it reads
nothing ever again. A buffered exchange takes the first response for the final one.
-/
namespace ClashNative.Http1

open List

open Http (Bytes ascii)

section Reads

variable {lib : Library}

/-! ## One header -/

theorem streamingHeader_stuck {p : lib.Parser} (hdone : lib.isHeaderDone p = true)
    (hinterim : isInterim (lib.get p).status = true) (fuel : Nat) (bytes : Bytes) :
    streamingHeader lib fuel p bytes = .running := by
  induction fuel with
  | zero => rfl
  | succ fuel ih =>
    simp only [streamingHeader, lib.readHeader_done p bytes hdone, hinterim, if_true]
    exact ih

variable {m : Message}

theorem streamingHeader_interim (hreads : lib.Reads m) (hinterim : isInterim m.stated.status = true)
    (skip : Bool) (fuel : Nat) (rest : Bytes) :
    streamingHeader lib fuel (lib.fresh skip none) (m.head ++ rest) = .running := by
  obtain ⟨p, hdone, hget, hheader, -⟩ := hreads.header skip none nofun
  cases fuel with
  | zero => rfl
  | succ fuel =>
    have hstatus : isInterim (lib.get p).status = true := by rw [hget, hinterim]
    simp only [streamingHeader, hheader rest, hstatus, if_true]
    exact streamingHeader_stuck hdone hstatus fuel rest

theorem runStreaming_interim (hreads : lib.Reads m) (hinterim : isInterim m.stated.status = true)
    (method : Bytes) (queued : Nat → Fin receiveCapacity) (fuel : Nat) (rest : Bytes) :
    runStreaming lib method queued fuel (m.head ++ rest) = .running := by
  simp only [runStreaming, streamingHeader_interim hreads hinterim]

/-! ## The download -/

theorem capacity_pos (queued : Fin receiveCapacity) : 0 < min bufferSize (receiveCapacity - queued) := by
  have hbuffer : 0 < bufferSize := by decide
  omega

theorem download_done (queued : Nat → Fin receiveCapacity) :
    ∀ {fuel i : Nat} {p : lib.Parser} {bytes content left : Bytes}, lib.isDone p = false →
      lib.remaining p bytes = some (content, left) → bytes.length < fuel →
      download lib queued fuel i p bytes = .done content
  | 0, _, _, _, _, _, _, _, hfuel => by cases hfuel
  | fuel + 1, i, p, bytes, content, left, hdone, hremaining, hfuel => by
    obtain ⟨p', produced, rest, content', hread, rfl, hremaining', hprogress⟩ :=
      lib.readSome_step p _ bytes content left hdone (capacity_pos (queued i)) hremaining
    simp only [download, hread]
    cases hdone' : lib.isDone p' with
    | true =>
      -- nothing is left of the body
      rw [lib.remaining_done p' rest hdone', Option.some.injEq, Prod.mk.injEq] at hremaining'
      rw [← hremaining'.1, append_nil]
      rfl
    | false =>
      have hless : rest.length < bytes.length := hprogress.resolve_left (by simp [hdone'])
      rw [download_done queued hdone' hremaining' (by omega)]
      rfl

/-! ## The exchanges, response by response -/

variable {limit : Nat}

theorem asyncRead_fresh (hreads : lib.Reads m) (hfits : m.content.length ≤ limit)
    (rest : Bytes) :
    asyncRead lib (lib.fresh false (some limit)) (m.head ++ (m.tail ++ rest)) =
    some (m.stated, m.content, rest) := by
  obtain ⟨p, -, hget, hheader, -, hbody⟩ := hreads.header false (some limit) fun n hn =>
    Option.some.inj hn ▸ hfits
  have hremaining := (hbody rfl).1 rest
  simp only [asyncRead, hheader, Option.bind_eq_bind, Option.bind_some, hremaining, hget]
  rfl

theorem asyncRead_cut (hreads : lib.Reads m) (hfits : m.content.length ≤ limit) (htail : m.tail ≠ []) :
    asyncRead lib (lib.fresh false (some limit)) m.head = none := by
  obtain ⟨p, -, -, hheader, -, hbody⟩ := hreads.header false (some limit) fun n hn => Option.some.inj hn ▸ hfits
  have hremaining := (hbody rfl).2 [] nil_prefix (Ne.symm htail)
  have hhead := hheader []
  rw [append_nil] at hhead
  simp only [asyncRead, hhead, Option.bind_eq_bind, Option.bind_some, hremaining]
  rfl

theorem runStreaming_final (hreads : lib.Reads m) (hfinal : isInterim m.stated.status = false)
    (method : Bytes) (queued : Nat → Fin receiveCapacity) {fuel : Nat}
    (hfuel : m.tail.length < fuel) :
    runStreaming lib method queued fuel (m.head ++ if method = ascii "HEAD" then [] else m.tail) =
      .done (m.stated, if method = ascii "HEAD" then [] else m.content) := by
  obtain ⟨p, -, hget, hheader, hskip, hbody⟩ := hreads.header (decide (method = ascii "HEAD")) none nofun
  have hremaining : lib.remaining p (if method = ascii "HEAD" then [] else m.tail) =
      some (if method = ascii "HEAD" then [] else m.content, []) := by
    by_cases hmethod : method = ascii "HEAD"
    · rw [if_pos hmethod, if_pos hmethod]
      exact hskip (decide_eq_true hmethod) []
    · rw [if_neg hmethod, if_neg hmethod]
      have hwhole := (hbody (decide_eq_false hmethod)).1 []
      rwa [append_nil] at hwhole
  have hlength : (if method = ascii "HEAD" then [] else m.tail).length < fuel := by
    split
    · exact Nat.lt_of_le_of_lt (Nat.zero_le _) hfuel
    · exact hfuel
  obtain ⟨fuel, rfl⟩ : ∃ n, fuel = n + 1 := ⟨fuel - 1, by omega⟩
  have hstatus : isInterim (lib.get p).status = false := by rw [hget, hfinal]
  have hfirst : streamingHeader lib (fuel + 1) (lib.fresh (decide (method = ascii "HEAD")) none)
      (m.head ++ if method = ascii "HEAD" then [] else m.tail) =
        .done (p, if method = ascii "HEAD" then [] else m.tail) := by
    simp only [streamingHeader, hheader, hstatus, Bool.false_eq_true, if_false]
  simp only [runStreaming, hfirst]
  cases hdone : lib.isDone p with
  | true =>
    rw [lib.remaining_done p _ hdone, Option.some.injEq, Prod.mk.injEq] at hremaining
    rw [← hremaining.1, hget]
    rfl
  | false =>
    rw [download_done queued hdone hremaining hlength, hget]
    rfl

end Reads

/-! ## What is delivered -/

namespace Served

variable {lib : Library}

theorem streamingDelivers_iff (s : Served lib) (queued : Nat → Fin receiveCapacity) :
    s.StreamingDelivers queued ↔ s.interims = [] := by
  cases hinterims : s.interims with
  | nil =>
    refine iff_of_true ⟨s.final.tail.length + 1, fun fuel hfuel => ?_⟩ rfl
    rw [bytes, hinterims, flatMap_nil, nil_append]
    exact runStreaming_final s.reads_final s.final_status s.method queued hfuel
  | cons m interims =>
    have hmem : m ∈ s.interims := by rw [hinterims]; exact mem_cons_self
    refine iff_of_false ?_ (cons_ne_nil _ _)
    rintro ⟨enough, hdone⟩
    have hrun := hdone enough (Nat.le_refl _)
    rw [bytes, hinterims, flatMap_cons, append_assoc,
      runStreaming_interim (s.reads_interims m hmem) (s.interims_status m hmem)] at hrun
    cases hrun

theorem bufferedDelivers_iff (s : Served lib) :
    s.BufferedDelivers ↔ s.interims = [] ∧ (s.method = ascii "HEAD" → s.final.tail = []) := by
  rw [BufferedDelivers, runBuffered, response, bytes]
  cases hinterims : s.interims with
  | nil =>
    rw [flatMap_nil, nil_append]
    by_cases hcut : s.method = ascii "HEAD" ∧ s.final.tail ≠ []
    · -- the parser was not told that no body comes
      rw [if_pos hcut.1, append_nil, asyncRead_cut s.reads_final s.fits hcut.2]
      exact iff_of_false nofun fun h => hcut.2 (h.2 hcut.1)
    · refine iff_of_true ?_ ⟨rfl, fun hmethod => ?_⟩
      · have hread := asyncRead_fresh s.reads_final s.fits []
        rw [append_nil] at hread
        by_cases hmethod : s.method = ascii "HEAD"
        · have htail : s.final.tail = [] := by
            by_contra htail
            exact hcut ⟨hmethod, htail⟩
          rw [htail] at hread
          rw [if_pos hmethod, if_pos hmethod, hread, s.final.bare htail]
        · rw [if_neg hmethod, if_neg hmethod, hread]
      · by_contra htail
        exact hcut ⟨hmethod, htail⟩
  | cons m interims =>
    have hmem : m ∈ s.interims := by rw [hinterims]; exact mem_cons_self
    have htail := s.interims_bare m hmem
    have hfits : m.content.length ≤ s.responseBodyLimit := by
      rw [m.bare htail]
      exact Nat.zero_le _
    have hread := asyncRead_fresh (s.reads_interims m hmem) hfits
      (interims.flatMap (·.head) ++ (s.final.head ++ if s.method = ascii "HEAD" then [] else s.final.tail))
    rw [htail, nil_append] at hread
    rw [flatMap_cons, append_assoc, hread]
    refine iff_of_false ?_ fun h => absurd h.1 (cons_ne_nil _ _)
    intro hdone
    simp only [Progress.done.injEq, Prod.mk.injEq] at hdone
    have hstatus := s.interims_status m hmem
    rw [hdone.1, s.final_status] at hstatus
    cases hstatus

/-- **The final response is delivered** by a streaming exchange if and only if no interim response comes
before it, and by a buffered one if and only if besides it is no answer to HEAD that announces a body. -/
theorem delivers_iff (s : Served lib) (queued : Nat → Fin receiveCapacity) :
    (s.StreamingDelivers queued ↔ s.interims = []) ∧
      (s.BufferedDelivers ↔ s.interims = [] ∧ (s.method = ascii "HEAD" → s.final.tail = [])) :=
  ⟨s.streamingDelivers_iff queued, s.bufferedDelivers_iff⟩

end Served

/-! ## A library of sized bodies -/

inductive SizedParser
  | fresh (skip : Bool)
  | body (head : Head) (need : Nat)

def announced (head : Head) : Nat :=
  match head.headers.find? (fun f => Http.isHttpHeader f.name (ascii "content-length")) with
  | none => 0
  | some field => Http.decimal field.value

namespace SizedParser

def readSome : SizedParser → Nat → Bytes → Option (SizedParser × Bytes × Bytes)
  | fresh _, _, _ => none
  | body head need, capacity, bytes =>
    let size := min capacity (min need bytes.length)
    if size = 0 then none else some (body head (need - size), bytes.take size, bytes.drop size)

def isDone : SizedParser → Bool
  | fresh _ => false
  | body _ need => need == 0

def remaining : SizedParser → Bytes → Option (Bytes × Bytes)
  | fresh _, _ => none
  | body _ need, bytes => if need ≤ bytes.length then some (bytes.take need, bytes.drop need) else none

theorem readSome_step (p : SizedParser) (capacity : Nat) (bytes content left : Bytes) (hdone : p.isDone = false)
    (hcapacity : 0 < capacity) (hremaining : p.remaining bytes = some (content, left)) :
    ∃ p' produced rest content', p.readSome capacity bytes = some (p', produced, rest) ∧
      content = produced ++ content' ∧ p'.remaining rest = some (content', left) ∧
      (p'.isDone = true ∨ rest.length < bytes.length) := by
  cases p with
  | fresh => cases hremaining
  | body head need =>
    have hneed : need ≠ 0 := by simpa [isDone] using hdone
    rw [remaining] at hremaining
    split at hremaining
    · rename_i hle
      obtain ⟨rfl, rfl⟩ := hremaining
      have hsize : min capacity (min need bytes.length) = min capacity need := by omega
      refine ⟨body head (need - min capacity need), bytes.take (min capacity need),
        bytes.drop (min capacity need),
        (bytes.drop (min capacity need)).take (need - min capacity need), ?_, ?_, ?_, .inr ?_⟩
      · simp only [readSome, hsize]
        exact if_neg (by omega)
      · rw [← take_add]
        congr 1
        omega
      · have hsum : min capacity need + (need - min capacity need) = need := by omega
        rw [remaining, length_drop, if_pos (by omega), drop_drop, hsum]
      · rw [length_drop]
        omega
    · cases hremaining

end SizedParser

/-- **A library that knows some heads**, and bodies of the length that they announce. -/
def sizedLibrary (heads : List (Bytes × Head)) : Library where
  Parser := SizedParser
  fresh skip _ := .fresh skip
  readHeader
    | .fresh skip, bytes => (heads.find? (fun h => h.1.isPrefixOf bytes)).map (fun h =>
        (.body h.2 (if skip then 0 else announced h.2), bytes.drop h.1.length))
    | .body head need, bytes => some (.body head need, bytes)
  readSome := SizedParser.readSome
  isHeaderDone
    | .fresh _ => false
    | .body _ _ => true
  isDone := SizedParser.isDone
  get
    | .fresh _ => ⟨0, [], false⟩
    | .body head _ => head
  remaining := SizedParser.remaining
  readHeader_done p bytes h := by
    cases p with
    | fresh => cases h
    | body head need => rfl
  remaining_done p bytes h := by
    cases p with
    | fresh => cases h
    | body head need =>
      obtain rfl : need = 0 := by simpa [SizedParser.isDone] using h
      simp [SizedParser.remaining]
  readSome_step := SizedParser.readSome_step

theorem sizedLibrary_reads {heads : List (Bytes × Head)} {m : Message}
    (hfind : ∀ rest, heads.find? (fun h => h.1.isPrefixOf (m.head ++ rest)) = some (m.head, m.stated))
    (htail : m.tail = m.content) (hlength : announced m.stated = m.tail.length) :
    (sizedLibrary heads).Reads m where
  header skip limit _ := by
    refine ⟨.body m.stated (if skip then 0 else announced m.stated), rfl, rfl, fun rest => ?_,
      fun hskip rest => ?_,
      fun hskip => ⟨fun rest => ?_, fun cut hcut hne => ?_⟩⟩
    · simp only [sizedLibrary, hfind, Option.map_some, drop_left]
    · subst hskip
      simp [sizedLibrary, SizedParser.remaining]
    · subst hskip
      simp only [sizedLibrary, SizedParser.remaining, Bool.false_eq_true, if_false, hlength]
      rw [if_pos (by simp), take_left, drop_left, htail]
    · subst hskip
      have hshort : cut.length < m.tail.length := by
        rcases Nat.lt_or_ge cut.length m.tail.length with h | h
        · exact h
        · exact absurd (hcut.eq_of_length_le h) hne
      simp only [sizedLibrary, SizedParser.remaining, Bool.false_eq_true, if_false, hlength]
      exact if_neg (by omega)

def continueMessage : Message where
  stated := ⟨100, [], true⟩
  head := ascii "HTTP/1.1 100 Continue\r\n\r\n"
  tail := []
  content := []
  bare _ := rfl

def okMessage : Message where
  stated := ⟨200, [⟨ascii "Content-Length", ascii "2"⟩], true⟩
  head := ascii "HTTP/1.1 200 OK\r\nContent-Length: 2\r\n\r\n"
  tail := ascii "hi"
  content := ascii "hi"
  bare h := h

def twoHeads : Library :=
  sizedLibrary [(continueMessage.head, continueMessage.stated), (okMessage.head, okMessage.stated)]

/-- A server that says `100 Continue` before it answers. -/
def continueFirst : Served twoHeads where
  method := ascii "GET"
  responseBodyLimit := 1024
  interims := [continueMessage]
  final := okMessage
  reads_interims m hm := by
    obtain rfl : m = continueMessage := by simpa using hm
    exact sizedLibrary_reads (fun _ => rfl) rfl (by decide)
  interims_status m hm := by
    obtain rfl : m = continueMessage := by simpa using hm
    rfl
  interims_bare m hm := by
    obtain rfl : m = continueMessage := by simpa using hm
    rfl
  reads_final := sizedLibrary_reads (fun _ => rfl) rfl (by decide)
  final_status := rfl
  fits := by decide

/-- **`100 Continue`** keeps the streaming exchange in its loop, and is what the buffered one delivers. -/
theorem continue_undelivered :
    let queued : Nat → Fin receiveCapacity := fun _ => ⟨0, by decide⟩
    (∀ fuel, runStreaming twoHeads continueFirst.method queued fuel continueFirst.bytes = .running) ∧
      ¬ continueFirst.StreamingDelivers queued ∧
      runBuffered twoHeads continueFirst.responseBodyLimit continueFirst.bytes =
      .done (continueMessage.stated, []) ∧
      ¬ continueFirst.BufferedDelivers := by
  intro queued
  have hmem : continueMessage ∈ continueFirst.interims := mem_cons_self
  have hbytes : continueFirst.bytes = continueMessage.head ++ (okMessage.head ++ okMessage.tail) := by decide
  refine ⟨fun fuel => ?_, fun h => ?_, by decide +kernel, fun h => ?_⟩
  · rw [hbytes]
    exact runStreaming_interim (continueFirst.reads_interims _ hmem) rfl _ queued fuel _
  · exact absurd ((continueFirst.streamingDelivers_iff queued).1 h) (cons_ne_nil _ _)
  · exact absurd (continueFirst.bufferedDelivers_iff.1 h).1 (cons_ne_nil _ _)

end ClashNative.Http1
