import ClashNative.HttpText
import ClashNative.Segments
import Mathlib.Data.Nat.Find
/-!
# HttpUpgrade — the v2ray HTTP upgrade client

`run_raw_upgrade` and `FastOpenUpgradeStream` of `websocket_client.cpp`, from the answer of the server on.
The request and the early data are writes; they have no part in what the stream gives.
-/
namespace ClashNative.HttpUpgrade

open List

open Http (ascii breakOn breakOn_append lowercaseAscii)
open Wire (Segments)

abbrev Bytes := List UInt8

def crlf : Bytes := [13, 10]

def blankLine : Bytes := [13, 10, 13, 10]

def kChunk : Nat := 1024

/-- The reads that `run_raw_upgrade` makes for the head. -/
def kGuard : Nat := 64

/-- The longest `head` of `run_validation`, with what was read behind it. -/
def kFastOpenHead : Nat := 64 * 1024

inductive Failure
  | eof | messageSize | fault
  deriving DecidableEq, Repr

def contains (text bytes : Bytes) : Bool := (breakOn text bytes).isSome

def statusLine (head : Bytes) : Bytes :=
  match breakOn crlf head with
  | some (line, _) => line
  | none => head

def accepted (head : Bytes) : Bool :=
  decide (12 ≤ (statusLine head).length) && ((statusLine head).drop 9).take 3 == ascii "101" &&
    contains (ascii "\nconnection:") (lowercaseAscii head) && contains (ascii "upgrade") (lowercaseAscii head) &&
    contains (ascii "\nupgrade:") (lowercaseAscii head) && contains (ascii "websocket") (lowercaseAscii head)

/-! ### The normal path -/

/-- The loop of `run_raw_upgrade`, with so many reads left. -/
def readHead : Nat → Bytes → Segments UInt8 → Except Failure (Bytes × Segments UInt8)
  | 0, _, _ => .error .messageSize
  | guard + 1, head, inner =>
    match inner.readSome kChunk with
    | none => .error .eof
    | some (got, inner) =>
      if contains blankLine (head ++ got) then .ok (head ++ got, inner) else readHead guard (head ++ got) inner

/-- `run_raw_upgrade`: the connection itself is what it gives. -/
def runRawUpgrade (server : Segments UInt8) : Except Failure (Segments UInt8) :=
  match readHead kGuard [] server with
  | .error failure => .error failure
  | .ok (head, inner) => if accepted head then .ok inner else .error .fault

/-! ### The fast-open path -/

structure FastOpen where
  inner : Segments UInt8
  validated : Bool := false
  failed : Option Failure := none
  remainder : Bytes := []

/-- The loop of `run_validation`.  The fuel is never used up. -/
def validationHead : Nat → Bytes → Segments UInt8 → Except Failure (Bytes × Segments UInt8)
  | 0, _, _ => .error .eof
  | fuel + 1, head, inner =>
    if contains blankLine head then .ok (head, inner)
    else
      match inner.readSome kChunk with
      | none => .error .eof
      | some (got, inner) =>
        if kFastOpenHead < (head ++ got).length then .error .messageSize else
        validationHead fuel (head ++ got) inner

def bodyOf (head : Bytes) : Bytes :=
  match breakOn blankLine head with
  | some (_, body) => body
  | none => []

namespace FastOpen

def serve (s : FastOpen) (size : Nat) : Option Bytes × FastOpen :=
  if s.remainder ≠ [] then (some (s.remainder.take size), { s with remainder := s.remainder.drop size })
  else
    match s.inner.readSome size with
    | none => (none, s)
    | some (got, inner) => (some got, { s with inner := inner })

/-- `run_validation`, for a read of `size`.  A failure stays. -/
def runValidation (s : FastOpen) (size : Nat) : Except Failure (Option Bytes) × FastOpen :=
  match validationHead (s.inner.bytes.length + 1) [] s.inner with
  | .error failure => (.error failure, { s with failed := some failure })
  | .ok (head, inner) =>
    if accepted head then
      let r := serve { s with inner := inner, validated := true, remainder := bodyOf head } size
      (.ok r.1, r.2)
    else (.error .fault, { s with failed := some .fault })

def asyncReadSome (s : FastOpen) (size : Nat) : Except Failure (Option Bytes) × FastOpen :=
  match s.failed with
  | some failure => (.error failure, s)
  | none =>
    if s.validated then (.ok (s.serve size).1, (s.serve size).2)
    else s.runValidation size

end FastOpen

/-! ### What is given -/

inductive Path
  | raw | fastOpen
  deriving DecidableEq, Repr

inductive Handle
  | raw (inner : Segments UInt8)
  | fastOpen (s : FastOpen)

namespace Handle

def asyncReadSome : Handle → Nat → Except Failure (Option Bytes) × Handle
  | .raw inner, size =>
    match inner.readSome size with
    | none => (.ok none, .raw inner)
    | some (got, inner) => (.ok (some got), .raw inner)
  | .fastOpen s, size => ((s.asyncReadSome size).1, .fastOpen (s.asyncReadSome size).2)

/-- What reads of these sizes get, one behind the other.  The end of the stream brings nothing. -/
def reads : List Nat → Handle → Except Failure Bytes
  | [], _ => .ok []
  | size :: sizes, h =>
    match h.asyncReadSome size with
    | (.error failure, _) => .error failure
    | (.ok got, h') => (h'.reads sizes).map (fun later => got.getD [] ++ later)

end Handle

def establish (path : Path) (server : Segments UInt8) : Except Failure Handle :=
  match path with
  | .raw => (runRawUpgrade server).map .raw
  | .fastOpen => .ok (.fastOpen { inner := server })

/-- **Every application byte once and in order**: no read fails, what the reads get is a front of the
bytes, and reads enough get all. -/
def Delivers (path : Path) (server : Segments UInt8) (application : Bytes) : Prop :=
  ∃ h, establish path server = .ok h ∧ ∀ sizes, ∃ got, h.reads sizes = .ok got ∧ got <+: application ∧
    ((∀ size ∈ sizes, 0 < size) → application.length ≤ sizes.length → got = application)

/-- What `n` reads of the head take, and what they leave. -/
def pulls : Nat → Segments UInt8 → Bytes × Segments UInt8
  | 0, s => ([], s)
  | n + 1, s =>
    match s.readSome kChunk with
    | none => ([], s)
    | some (got, s') => (got ++ (pulls n s').1, (pulls n s').2)

def Completes (head : Bytes) (server : Segments UInt8) (n : Nat) : Prop :=
  head <+: (pulls n server).1 ∧ ∀ m < n, ¬ head <+: (pulls m server).1

/-- **When the bytes are delivered.**  The normal path gives up what was read behind the head, so a read
has to end with it; the fast-open path keeps it. -/
def HoldsWhen (path : Path) (head : Bytes) (server : Segments UInt8) : Prop :=
  match path with
  | .raw => accepted head = true ∧ ∃ n ≤ kGuard, (pulls n server).1 = head
  | .fastOpen => ∃ n, Completes head server n ∧ (pulls n server).1.length ≤ kFastOpenHead ∧
    accepted (pulls n server).1 = true

structure ResponseHead where
  bytes : Bytes
  ended : ∃ lines, breakOn blankLine bytes = some (lines, [])

variable {head : Bytes}

theorem contains_iff {bytes stream : Bytes} (hhead : ∃ lines, breakOn blankLine head = some (lines, []))
    (hbytes : bytes <+: stream) (hstream : head <+: stream) : contains blankLine bytes = true ↔ head <+: bytes :=
  Http.breakOn_isSome_iff (by decide) hhead hbytes hstream

theorem bodyOf_append (hhead : ∃ lines, breakOn blankLine head = some (lines, [])) (more : Bytes) :
    bodyOf (head ++ more) = more := by
  obtain ⟨lines, hlines⟩ := hhead
  rw [bodyOf, breakOn_append (by decide) more hlines]
  rfl

/-! ### The reads of the head -/

theorem pulls_bytes : ∀ (n : Nat) (s : Segments UInt8), s.bytes = (pulls n s).1 ++ (pulls n s).2.bytes
  | 0, s => rfl
  | n + 1, s => by
    rw [pulls]
    split
    · rfl
    · rename_i got s' hread
      rw [Segments.readSome_bytes _ _ _ _ hread, pulls_bytes n s', append_assoc]

theorem pulls_mono : ∀ {m n : Nat} (s : Segments UInt8), m ≤ n → (pulls m s).1 <+: (pulls n s).1
  | 0, _, s, _ => nil_prefix
  | m + 1, 0, s, h => absurd h (Nat.not_succ_le_zero m)
  | m + 1, n + 1, s, h => by
    rw [pulls, pulls]
    cases hread : s.readSome kChunk with
    | none => exact prefix_refl _
    | some r => exact (prefix_append_right_inj r.1).2 (pulls_mono r.2 (Nat.le_of_succ_le_succ h))

variable {got : Bytes} {s s' : Segments UInt8} {n : Nat}

theorem pulls_succ (hread : s.readSome kChunk = some (got, s')) :
    pulls (n + 1) s = (got ++ (pulls n s').1, (pulls n s').2) := by rw [pulls, hread]

theorem completes_one (hne : head ≠ []) (hread : s.readSome kChunk = some (got, s'))
    (hhead : head <+: got) : Completes head s n ↔ n = 1 := by
  have hone : (pulls 1 s).1 = got := by
    rw [pulls_succ hread]
    exact append_nil got
  constructor
  · rintro ⟨hn, hleast⟩
    by_contra hcontra
    cases n with
    | zero => exact hne (prefix_nil.1 hn)
    | succ n => exact hleast 1 (by omega) (by rwa [hone])
  · rintro rfl
    refine ⟨by rwa [hone], fun m hm => ?_⟩
    rw [Nat.lt_one_iff.1 hm]
    exact fun hnil => hne (prefix_nil.1 hnil)

variable {rest : Bytes}

theorem completes_succ (hread : s.readSome kChunk = some (got, s')) (hne : rest ≠ [])
    : Completes (got ++ rest) s (n + 1) ↔ Completes rest s' n := by
  have hsucc : ∀ m, got ++ rest <+: (pulls (m + 1) s).1 ↔ rest <+: (pulls m s').1 := by
    intro m
    rw [pulls_succ hread]
    exact prefix_append_right_inj got
  constructor
  · rintro ⟨hn, hleast⟩
    exact ⟨(hsucc n).1 hn, fun m hm hrest => hleast (m + 1) (by omega) ((hsucc m).2 hrest)⟩
  · rintro ⟨hn, hleast⟩
    refine ⟨(hsucc n).2 hn, fun m hm => ?_⟩
    cases m with
    | zero => exact fun hnil => hne (append_eq_nil_iff.1 (prefix_nil.1 hnil)).2
    | succ m => exact fun hrest => hleast m (by omega) ((hsucc m).1 hrest)

theorem not_completes_zero (hne : head ≠ []) (s : Segments UInt8) : ¬ Completes head s 0 :=
  fun h => hne (prefix_nil.1 h.1)

variable {P : Nat → Prop}

theorem exists_completes_one (hne : head ≠ []) (hread : s.readSome kChunk = some (got, s'))
    (hhead : head <+: got) : (∃ n, Completes head s n ∧ P n) ↔ P 1 := by
  constructor
  · rintro ⟨n, hcompletes, h⟩
    rwa [(completes_one hne hread hhead).1 hcompletes] at h
  · exact fun h => ⟨1, (completes_one hne hread hhead).2 rfl, h⟩

theorem exists_completes_succ (hread : s.readSome kChunk = some (got, s')) (hne : rest ≠ [])
    : (∃ n, Completes (got ++ rest) s n ∧ P n) ↔ ∃ n, Completes rest s' n ∧ P (n + 1) := by
  constructor
  · rintro ⟨n, hcompletes, h⟩
    cases n with
    | zero => exact absurd hcompletes (not_completes_zero (append_ne_nil_of_right_ne_nil got hne) s)
    | succ n => exact ⟨n, (completes_succ hread hne).1 hcompletes, h⟩
  · rintro ⟨n, hcompletes, h⟩
    exact ⟨n + 1, (completes_succ hread hne).2 hcompletes, h⟩

variable {application : Bytes}

theorem rest_of_short (hs : s.bytes = rest ++ application)
    (hread : s.readSome kChunk = some (got, s')) (hshort : ¬ rest <+: got) :
    ∃ later, later ≠ [] ∧ rest = got ++ later ∧ s'.bytes = later ++ application := by
  have hbytes := Segments.readSome_bytes _ _ _ _ hread
  rw [hs] at hbytes
  rcases append_eq_append_iff.1 hbytes with ⟨mid, hgot, -⟩ | ⟨mid, hrest, hlater⟩
  · exact absurd ⟨mid, hgot.symm⟩ hshort
  · refine ⟨mid, fun hnil => hshort ?_, hrest, hlater⟩
    have hall : rest = got := by rw [hrest, hnil, append_nil]
    exact hall ▸ prefix_refl rest

theorem readHead_eq_ok : ∀ (guard : Nat) {front rest application : Bytes} {s : Segments UInt8}
    {r : Bytes × Segments UInt8},
    (∃ lines, breakOn blankLine (front ++ rest) = some (lines, [])) → rest ≠ [] → s.bytes = rest ++ application →
    (readHead guard front s = .ok r ↔ ∃ n, Completes rest s n ∧ n ≤ guard ∧
      r = (front ++ (pulls n s).1, (pulls n s).2))
  | 0, front, rest, application, s, r, _, hne, _ => by
    constructor
    · intro h
      cases h
    · rintro ⟨n, hcompletes, hn, -⟩
      rw [Nat.le_zero.1 hn] at hcompletes
      exact absurd hcompletes (not_completes_zero hne s)
  | guard + 1, front, rest, application, s, r, hhead, hne, hs => by
    rw [readHead]
    cases hread : s.readSome kChunk with
    | none =>
      have hnil := Segments.readSome_eq_none hread
      rw [hs] at hnil
      exact absurd (append_eq_nil_iff.1 hnil).1 hne
    | some r' =>
      obtain ⟨got, s'⟩ := r'
      have hbytes := Segments.readSome_bytes _ _ _ _ hread
      have hcontains : contains blankLine (front ++ got) = true ↔ rest <+: got := by
        have hfront : front ++ got <+: front ++ s.bytes := by
          rw [hbytes]
          exact ⟨s'.bytes, append_assoc ..⟩
        rw [contains_iff hhead hfront (by rw [hs]; exact ⟨application, append_assoc ..⟩)]
        exact prefix_append_right_inj front
      by_cases hshort : rest <+: got
      · simp only [hcontains.2 hshort, if_true]
        rw [exists_completes_one hne hread hshort, pulls_succ hread, pulls, append_nil, Except.ok.injEq]
        exact ⟨fun h => ⟨Nat.succ_le_succ (Nat.zero_le _), h.symm⟩, fun h => h.2.symm⟩
      · simp only [mt hcontains.1 hshort, Bool.false_eq_true, if_false]
        obtain ⟨later, hlater, rfl, hs'⟩ := rest_of_short hs hread hshort
        rw [← append_assoc] at hhead
        rw [readHead_eq_ok guard hhead hlater hs', exists_completes_succ hread hlater]
        simp only [pulls_succ hread, append_assoc, Nat.add_le_add_iff_right]

theorem validationHead_eq_ok : ∀ (fuel : Nat) {front rest application : Bytes} {s : Segments UInt8}
    {r : Bytes × Segments UInt8},
    (∃ lines, breakOn blankLine (front ++ rest) = some (lines, [])) → rest ≠ [] →
    s.bytes = rest ++ application → s.bytes.length < fuel →
    (validationHead fuel front s = .ok r ↔
      ∃ n, Completes rest s n ∧ (front ++ (pulls n s).1).length ≤ kFastOpenHead ∧
      r = (front ++ (pulls n s).1, (pulls n s).2))
  | 0, _, _, _, _, _, _, _, _, hfuel => absurd hfuel (Nat.not_lt_zero _)
  | fuel + 1, front, rest, application, s, r, hhead, hne, hs, hfuel => by
    have hstream : front ++ rest <+: front ++ s.bytes := by
      rw [hs]
      exact ⟨application, append_assoc ..⟩
    have hopen : contains blankLine front ≠ true := by
      rw [Ne, contains_iff hhead (prefix_append front s.bytes) hstream]
      intro h
      have hlength := h.length_le
      rw [length_append] at hlength
      exact hne (length_eq_zero_iff.1 (by omega))
    rw [validationHead, if_neg hopen]
    cases hread : s.readSome kChunk with
    | none =>
      have hnil := Segments.readSome_eq_none hread
      rw [hs] at hnil
      exact absurd (append_eq_nil_iff.1 hnil).1 hne
    | some r' =>
      obtain ⟨got, s'⟩ := r'
      have hbytes := Segments.readSome_bytes _ _ _ _ hread
      have hlength := congrArg List.length hbytes
      have hgot := Segments.readSome_pos (by decide) hread
      rw [length_append] at hlength
      by_cases hshort : rest <+: got
      · -- the head is there: the next turn of the loop finds it
        have hone : pulls 1 s = (got, s') := by
          rw [pulls_succ hread]
          exact Prod.ext (append_nil got) rfl
        have hdone : validationHead fuel (front ++ got) s' = .ok (front ++ got, s') := by
          obtain ⟨fuel, rfl⟩ : ∃ k, fuel = k + 1 := ⟨fuel - 1, by omega⟩
          rw [validationHead, if_pos]
          have hfront : front ++ got <+: front ++ s.bytes := by
            rw [hbytes]
            exact ⟨s'.bytes, append_assoc ..⟩
          exact (contains_iff hhead hfront hstream).2 ((prefix_append_right_inj front).2 hshort)
        dsimp only
        rw [hdone, exists_completes_one hne hread hshort, hone]
        by_cases hlong : kFastOpenHead < (front ++ got).length
        · rw [if_pos hlong]
          constructor
          · intro h
            cases h
          · exact fun h => absurd h.1 (Nat.not_le.2 hlong)
        · rw [if_neg hlong, Except.ok.injEq]
          exact ⟨fun h => ⟨Nat.not_lt.1 hlong, h.symm⟩, fun h => h.2.symm⟩
      · obtain ⟨later, hlater, rfl, hs'⟩ := rest_of_short hs hread hshort
        rw [← append_assoc] at hhead
        have hnext := validationHead_eq_ok fuel (r := r) hhead hlater hs' (by omega)
        rw [exists_completes_succ hread hlater]
        simp only [pulls_succ hread, ← append_assoc]
        by_cases hlong : kFastOpenHead < (front ++ got).length
        · rw [if_pos hlong]
          constructor
          · intro h
            cases h
          · rintro ⟨n, -, hfits, -⟩
            rw [length_append] at hfits
            omega
        · rw [if_neg hlong]
          exact hnext

/-! ### The reads of the application -/

def Ready : Handle → Bytes → Prop
  | .raw inner, rest => inner.bytes = rest
  | .fastOpen s, rest => s.failed = none ∧ s.validated = true ∧ s.remainder ++ s.inner.bytes = rest

variable {h : Handle}

theorem Ready.read (hready : Ready h rest) (size : Nat) :
    ∃ got h' later, h.asyncReadSome size = (.ok got, h') ∧ rest = got.getD [] ++ later ∧ Ready h' later ∧
      (0 < size → rest ≠ [] → got.getD [] ≠ []) := by
  have hinner : ∀ inner : Segments UInt8, match inner.readSome size with
      | none => inner.bytes = []
      | some (got, inner') => inner.bytes = got ++ inner'.bytes ∧ (0 < size → got ≠ []) := by
    intro inner
    cases hread : inner.readSome size with
    | none => exact Segments.readSome_eq_none hread
    | some r =>
      exact ⟨Segments.readSome_bytes _ _ _ _ hread,
        fun hpos => length_pos_iff.1 (Segments.readSome_pos hpos hread)⟩
  cases h with
  | raw inner =>
    have hread := hinner inner
    subst hready
    rw [Handle.asyncReadSome]
    cases hsome : inner.readSome size with
    | none =>
      rw [hsome] at hread
      exact ⟨none, .raw inner, inner.bytes, rfl, rfl, rfl, fun _ hne => absurd hread hne⟩
    | some r =>
      rw [hsome] at hread
      exact ⟨some r.1, .raw r.2, r.2.bytes, rfl, hread.1, rfl, fun hpos _ => hread.2 hpos⟩
  | fastOpen s =>
    obtain ⟨hfailed, hvalidated, rfl⟩ := hready
    have hserve : s.asyncReadSome size = (.ok (s.serve size).1, (s.serve size).2) := by
      rw [FastOpen.asyncReadSome, hfailed]
      exact if_pos hvalidated
    rw [Handle.asyncReadSome, hserve, FastOpen.serve]
    by_cases hremainder : s.remainder ≠ []
    · rw [if_pos hremainder]
      refine ⟨_, _, s.remainder.drop size ++ s.inner.bytes, rfl, ?_, ⟨hfailed, hvalidated, rfl⟩,
        fun hpos _ => ?_⟩
      · rw [Option.getD_some, ← append_assoc, take_append_drop]
      · rw [Option.getD_some, Ne, take_eq_nil_iff, not_or]
        exact ⟨by omega, hremainder⟩
    · rw [if_neg hremainder]
      rw [not_not] at hremainder
      have hread := hinner s.inner
      cases hsome : s.inner.readSome size with
      | none =>
        rw [hsome] at hread
        refine ⟨none, _, s.remainder ++ s.inner.bytes, rfl, rfl, ⟨hfailed, hvalidated, rfl⟩, fun _ hne => ?_⟩
        rw [hremainder] at hne
        exact absurd hread hne
      | some r =>
        rw [hsome] at hread
        refine ⟨some r.1, _, r.2.bytes, rfl, ?_, ⟨hfailed, hvalidated, ?_⟩, fun hpos _ => hread.2 hpos⟩
        · rw [hremainder]
          exact hread.1
        · rw [hremainder, nil_append]

theorem Ready.reads : ∀ (sizes : List Nat) {h : Handle} {rest : Bytes}, Ready h rest →
    ∃ got, h.reads sizes = .ok got ∧ got <+: rest ∧
    ((∀ size ∈ sizes, 0 < size) → rest.length ≤ sizes.length → got = rest)
  | [], h, rest, _ => ⟨[], rfl, nil_prefix, fun _ hlength => (length_eq_zero_iff.1 (Nat.le_zero.1 hlength)).symm⟩
  | size :: sizes, h, rest, hready => by
    obtain ⟨got, h', later, hread, rfl, hready', hsome⟩ := hready.read size
    obtain ⟨gots, hgots, hprefix, hall⟩ := Ready.reads sizes hready'
    refine ⟨got.getD [] ++ gots, ?_, (prefix_append_right_inj _).2 hprefix, fun hpos hlength => ?_⟩
    · rw [Handle.reads, hread]
      show (h'.reads sizes).map _ = _
      rw [hgots]
      rfl
    · congr 1
      apply hall (fun n hn => hpos n (mem_cons_of_mem _ hn))
      rw [length_append, length_cons] at hlength
      by_cases hnil : got.getD [] ++ later = []
      · rw [(append_eq_nil_iff.1 hnil).2]
        exact Nat.zero_le _
      · have := length_pos_iff.2 (hsome (hpos size mem_cons_self) hnil)
        omega

theorem Ready.gives_iff (hready : Ready h rest) :
    (∀ sizes, ∃ got, h.reads sizes = .ok got ∧ got <+: application ∧
      ((∀ size ∈ sizes, 0 < size) → application.length ≤ sizes.length → got = application)) ↔
      rest = application := by
  constructor
  · intro hdelivers
    -- reads enough for both
    let sizes := List.replicate (rest.length + application.length) 1
    have hpos : ∀ size ∈ sizes, 0 < size := fun size hsize => by
      rw [eq_of_mem_replicate hsize]
      exact Nat.one_pos
    have hlength : sizes.length = rest.length + application.length := length_replicate
    obtain ⟨got, hgot, -, hall⟩ := Ready.reads sizes hready
    obtain ⟨got', hgot', -, hall'⟩ := hdelivers sizes
    rw [hgot'] at hgot
    cases hgot
    rw [← hall hpos (by omega), ← hall' hpos (by omega)]
  · rintro rfl
    exact fun sizes => Ready.reads sizes hready

/-! ### The two paths -/

theorem ResponseHead.ne_nil (head : ResponseHead) : head.bytes ≠ [] := by
  obtain ⟨lines, hlines⟩ := head.ended
  intro hnil
  rw [hnil] at hlines
  cases hlines

theorem exists_completes (h : head <+: (pulls n s).1) :
    ∃ m ≤ n, Completes head s m := by
  classical
  have hex : ∃ m, head <+: (pulls m s).1 := ⟨n, h⟩
  exact ⟨Nat.find hex, Nat.find_le h, Nat.find_spec hex, fun m hm => Nat.find_min hex hm⟩

theorem raw_delivers_iff (head : ResponseHead) (application : Bytes) (server : Segments UInt8)
    (hs : server.bytes = head.bytes ++ application) :
    Delivers .raw server application ↔ HoldsWhen .raw head.bytes server := by
  have hended : ∃ lines, breakOn blankLine ([] ++ head.bytes) = some (lines, []) := head.ended
  have hloop := fun r => readHead_eq_ok kGuard (r := r) hended head.ne_nil hs
  simp only [nil_append] at hloop
  constructor
  · rintro ⟨h, hestablish, hdelivers⟩
    rw [establish, runRawUpgrade] at hestablish
    cases hread : readHead kGuard [] server with
    | error failure =>
      rw [hread] at hestablish
      cases hestablish
    | ok r =>
      obtain ⟨n, ⟨hcomplete, -⟩, hn, rfl⟩ := (hloop r).1 hread
      rw [hread] at hestablish
      by_cases haccepted : accepted (pulls n server).1 = true
      · dsimp only at hestablish
        rw [if_pos haccepted] at hestablish
        cases hestablish
        have hrest := (Ready.gives_iff (h := .raw (pulls n server).2) rfl).1 hdelivers
        have hhead : (pulls n server).1 = head.bytes := by
          have hbytes := pulls_bytes n server
          rw [hs, hrest] at hbytes
          exact (append_cancel_right hbytes).symm
        rw [hhead] at haccepted
        exact ⟨haccepted, n, hn, hhead⟩
      · dsimp only at hestablish
        rw [if_neg haccepted] at hestablish
        cases hestablish
  · rintro ⟨haccepted, n, hn, hhead⟩
    have hwhole : head.bytes <+: (pulls n server).1 := hhead ▸ prefix_refl _
    obtain ⟨m, hm, hcompletes⟩ := exists_completes hwhole
    have hsame : (pulls m server).1 = head.bytes := by
      have hle := (pulls_mono server hm).length_le
      rw [hhead] at hle
      exact (hcompletes.1.eq_of_length_le hle).symm
    have hread := (hloop _).2 ⟨m, hcompletes, by omega, rfl⟩
    refine ⟨.raw (pulls m server).2, ?_, (Ready.gives_iff (h := .raw (pulls m server).2) rfl).2 ?_⟩
    · rw [establish, runRawUpgrade, hread]
      dsimp only
      rw [hsame, if_pos haccepted]
      rfl
    · have hbytes := pulls_bytes m server
      rw [hs, hsame] at hbytes
      exact (append_cancel_left hbytes).symm

theorem fastOpen_first {head : ResponseHead} {server : Segments UInt8}
    (hs : server.bytes = head.bytes ++ application) :
    (∃ s : FastOpen, Ready (.fastOpen s) application ∧
      ∀ size, FastOpen.asyncReadSome { inner := server } size = (.ok (s.serve size).1, (s.serve size).2)) ∧
        HoldsWhen .fastOpen head.bytes server ∨
    (∀ size, ∃ failure s, FastOpen.asyncReadSome { inner := server } size = (.error failure, s)) ∧
    ¬ HoldsWhen .fastOpen head.bytes server := by
  have hended : ∃ lines, breakOn blankLine ([] ++ head.bytes) = some (lines, []) := head.ended
  have hloop := fun r => validationHead_eq_ok (server.bytes.length + 1) (r := r) hended head.ne_nil hs
    (Nat.lt_succ_self _)
  simp only [nil_append] at hloop
  have hopen : ∀ size, FastOpen.asyncReadSome { inner := server } size =
    FastOpen.runValidation { inner := server } size := fun _ => rfl
  simp only [hopen, FastOpen.runValidation]
  cases hread : validationHead (server.bytes.length + 1) [] server with
  | error failure =>
    right
    refine ⟨fun size => ⟨failure, _, rfl⟩, fun ⟨n, hcompletes, hfits, _⟩ => ?_⟩
    rw [(hloop _).2 ⟨n, hcompletes, hfits, rfl⟩] at hread
    cases hread
  | ok r =>
    obtain ⟨n, hcompletes, hfits, rfl⟩ := (hloop r).1 hread
    by_cases haccepted : accepted (pulls n server).1 = true
    · left
      refine ⟨⟨{ inner := (pulls n server).2, validated := true, remainder := bodyOf (pulls n server).1 },
        ⟨rfl, rfl, ?_⟩, fun size => ?_⟩,
        n, hcompletes, hfits, haccepted⟩
      · obtain ⟨more, hmore⟩ := hcompletes.1
        have hbytes := pulls_bytes n server
        rw [hs, ← hmore, append_assoc] at hbytes
        rw [← hmore, bodyOf_append head.ended]
        exact (append_cancel_left hbytes).symm
      · dsimp only
        rw [if_pos haccepted]
    · right
      refine ⟨fun size => ⟨.fault, { inner := server, failed := some .fault }, ?_⟩,
        fun ⟨m, hcompletes', _, haccepted'⟩ => haccepted ?_⟩
      · dsimp only
        rw [if_neg haccepted]
      · have hsame : m = n := by
          rcases Nat.lt_trichotomy m n with hlt | heq | hgt
          · exact absurd hcompletes'.1 (hcompletes.2 m hlt)
          · exact heq
          · exact absurd hcompletes.1 (hcompletes'.2 n hgt)
        rwa [hsame] at haccepted'

theorem fastOpen_delivers_iff (head : ResponseHead) (application : Bytes) (server : Segments UInt8)
    (hs : server.bytes = head.bytes ++ application) :
    Delivers .fastOpen server application ↔ HoldsWhen .fastOpen head.bytes server := by
  have hestablish : ∀ h, establish .fastOpen server = .ok h ↔ h = .fastOpen { inner := server } := by
    intro h
    rw [establish, Except.ok.injEq, eq_comm]
  simp only [Delivers, hestablish, exists_eq_left]
  rcases fastOpen_first hs with ⟨⟨s, hready, hfirst⟩, hholds⟩ | ⟨hfails, hnot⟩
  · -- from its first read on it is the validated stream
    have hreads : ∀ size sizes, (Handle.fastOpen { inner := server }).reads (size :: sizes) =
      (Handle.fastOpen s).reads (size :: sizes) := by
      intro size sizes
      have hvalidated : s.asyncReadSome size = (.ok (s.serve size).1, (s.serve size).2) := by
        rw [FastOpen.asyncReadSome, hready.1]
        exact if_pos hready.2.1
      rw [Handle.reads, Handle.reads, Handle.asyncReadSome, Handle.asyncReadSome, hfirst, hvalidated]
    refine iff_of_true (fun sizes => ?_) hholds
    cases sizes with
    | nil =>
      obtain ⟨got, hgot, hgets⟩ := Ready.reads [] hready
      exact ⟨got, hgot, hgets⟩
    | cons size sizes =>
      rw [hreads]
      exact Ready.reads (size :: sizes) hready
  · refine iff_of_false (fun hdelivers => ?_) hnot
    obtain ⟨got, hgot, -⟩ := hdelivers [1]
    obtain ⟨failure, s, hfirst⟩ := hfails 1
    rw [Handle.reads, Handle.asyncReadSome, hfirst] at hgot
    cases hgot

/-- **Every application byte is delivered** on a path if and only if the path's condition holds. -/
theorem upgrade_delivers_iff (path : Path) (head : ResponseHead) (application : Bytes) (server : Segments UInt8)
    (hs : server.bytes = head.bytes ++ application) :
    Delivers path server application ↔ HoldsWhen path head.bytes server := by
  cases path with
  | raw => exact raw_delivers_iff head application server hs
  | fastOpen => exact fastOpen_delivers_iff head application server hs

def switching : ResponseHead where
  bytes := ascii "HTTP/1.1 101 Switching Protocols\r\nConnection: Upgrade\r\nUpgrade: websocket\r\n\r\n"
  ended := ⟨ascii "HTTP/1.1 101 Switching Protocols\r\nConnection: Upgrade\r\nUpgrade: websocket",
    by decide +kernel⟩

def inTwo : Segments UInt8 := ⟨[switching.bytes, [65]], by decide +kernel⟩

def inOne : Segments UInt8 := ⟨[switching.bytes ++ [65]], by decide +kernel⟩

theorem upgrade_delivers_iff_inTwo : Delivers .raw inTwo [65] :=
  (upgrade_delivers_iff .raw switching [65] inTwo (by decide +kernel)).2
  ⟨by decide +kernel, 1, by decide, by decide +kernel⟩

/-- **The byte is lost** when it comes with the head. -/
theorem byte_with_head_lost : inOne.bytes = switching.bytes ++ [65] ∧ accepted switching.bytes = true ∧
    ¬ Delivers .raw inOne [65] := by
  refine ⟨by decide +kernel, by decide +kernel, ?_⟩
  rintro ⟨h, hestablish, hdelivers⟩
  cases hestablish
  obtain ⟨got, hgot, -, hall⟩ := hdelivers [1]
  cases hgot
  exact absurd (hall (by decide) (by decide)) (by decide)

end ClashNative.HttpUpgrade
