import Mathlib.Data.List.Basic
import Mathlib.Tactic.Common
/-!
# Segments — a stream as its reads see it

The bytes of a stream reach a reader in pieces.  `Segments` holds the pieces that no read has returned
yet, none of them empty.  A read of up to `n` elements takes from the first piece only (`readSome`), or
from as many as that takes (`readUpTo`); a read of exactly `n` goes on through the pieces (`readExact`);
`gather n` is what a reader holds that stops at the first piece end at or after `n`.  The reads keep the
stream and where its pieces end.
-/
namespace Wire

open List

variable {α : Type}

/-- **The unread part of a stream**, cut where its pieces arrived.  No piece is empty: an empty read is
the end of the stream. -/
structure Segments (α : Type) where
  pieces : List (List α)
  nonempty : ∀ p ∈ pieces, p ≠ []

namespace Segments

def empty : Segments α := ⟨[], nofun⟩

@[simp] theorem pieces_empty : (empty : Segments α).pieces = [] := rfl

def bytes (s : Segments α) : List α := s.pieces.flatten

/-- Where a list of pieces ends, one after the other, and where it starts. -/
def pieceEnds : List (List α) → List Nat
  | [] => [0]
  | p :: ps => 0 :: (pieceEnds ps).map (p.length + ·)

/-- **The boundaries**: the offsets at which a piece starts or ends. -/
def boundaries (s : Segments α) : List Nat := pieceEnds s.pieces

/-- The rest of a piece goes back in front, unless the read took all of it. -/
def push (p : List α) (s : Segments α) : Segments α :=
  if h : p = [] then s
  else ⟨p :: s.pieces, by simpa [h] using s.nonempty⟩

/-- One read of up to `n`: `none` at the end of the stream. -/
def readSome (n : Nat) : Segments α → Option (List α × Segments α)
  | ⟨[], _⟩ => none
  | ⟨p :: ps, h⟩ => some (p.take n, push (p.drop n) ⟨ps, fun q hq => h q (List.mem_cons_of_mem p hq)⟩)

/-- Reads until exactly `n` are there: `none` when the stream ends first. -/
def takeExact : Nat → List (List α) → Option (List α × List (List α))
  | 0, ps => some ([], ps)
  | _ + 1, [] => none
  | n + 1, p :: ps =>
    if p.length ≤ n + 1 then (takeExact (n + 1 - p.length) ps).map (fun r => (p ++ r.1, r.2))
    else some (p.take (n + 1), p.drop (n + 1) :: ps)

/-- Up to `n`, through as many pieces as that takes. -/
def takeUpTo : Nat → List (List α) → List α × List (List α)
  | 0, ps => ([], ps)
  | _ + 1, [] => ([], [])
  | n + 1, p :: ps =>
    if p.length ≤ n + 1 then (p ++ (takeUpTo (n + 1 - p.length) ps).1, (takeUpTo (n + 1 - p.length) ps).2)
    else (p.take (n + 1), p.drop (n + 1) :: ps)

def takePieces : Nat → List (List α) → List α × List (List α)
  | 0, ps => ([], ps)
  | _ + 1, [] => ([], [])
  | n + 1, p :: ps => (p ++ (takePieces (n + 1 - p.length) ps).1, (takePieces (n + 1 - p.length) ps).2)

theorem takeExact_nonempty : ∀ (n : Nat) (ps : List (List α)) (r : List α × List (List α)),
    (∀ p ∈ ps, p ≠ []) → takeExact n ps = some r → ∀ p ∈ r.2, p ≠ []
  | 0, ps, r, h, hr => by
    simp only [takeExact, Option.some.injEq] at hr
    subst hr
    exact h
  | _ + 1, [], r, _, hr => by simp [takeExact] at hr
  | n + 1, p :: ps, r, h, hr => by
    rw [takeExact] at hr
    split at hr
    · obtain ⟨r', hr', rfl⟩ := Option.map_eq_some_iff.1 hr
      exact takeExact_nonempty _ ps r' (fun q hq => h q (mem_cons_of_mem p hq)) hr'
    · rename_i hlt
      simp only [Option.some.injEq] at hr
      subst hr
      intro q hq
      rcases mem_cons.1 hq with rfl | hq
      · intro hnil
        have := drop_eq_nil_iff.1 hnil
        omega
      · exact h q (mem_cons_of_mem p hq)

theorem takePieces_nonempty : ∀ (n : Nat) (ps : List (List α)),
    (∀ p ∈ ps, p ≠ []) → ∀ p ∈ (takePieces n ps).2, p ≠ []
  | 0, ps, h => by rw [takePieces]; exact h
  | _ + 1, [], _ => by simp [takePieces]
  | n + 1, p :: ps, h => by
    exact takePieces_nonempty _ ps (fun q hq => h q (mem_cons_of_mem p hq))

theorem takeUpTo_nonempty : ∀ (n : Nat) (ps : List (List α)), (∀ p ∈ ps, p ≠ []) →
    ∀ p ∈ (takeUpTo n ps).2, p ≠ []
  | 0, ps, h => by rw [takeUpTo]; exact h
  | _ + 1, [], _ => by simp [takeUpTo]
  | n + 1, p :: ps, h => by
    rw [takeUpTo]
    split
    · exact takeUpTo_nonempty _ ps (fun q hq => h q (mem_cons_of_mem p hq))
    · rename_i hlt
      intro q hq
      rcases mem_cons.1 hq with rfl | hq
      · intro hnil
        have := drop_eq_nil_iff.1 hnil
        omega
      · exact h q (mem_cons_of_mem p hq)

/-- **A read of up to `n`** that does not stop where a piece ends. -/
def readUpTo (n : Nat) (s : Segments α) : List α × Segments α :=
  ((takeUpTo n s.pieces).1, ⟨(takeUpTo n s.pieces).2, takeUpTo_nonempty n s.pieces s.nonempty⟩)

/-- A piece arrives behind the others; an empty one is none. -/
def snoc (s : Segments α) (p : List α) : Segments α :=
  if h : p = [] then s
  else ⟨s.pieces ++ [p], fun q hq => by
    rcases List.mem_append.1 hq with hq | hq
    · exact s.nonempty q hq
    · rw [List.mem_singleton.1 hq]; exact h⟩

def readExact (n : Nat) (s : Segments α) : Option (List α × Segments α) :=
  match h : takeExact n s.pieces with
  | none => none
  | some r => some (r.1, ⟨r.2, takeExact_nonempty n s.pieces r s.nonempty h⟩)

/-- **What a reader of whole pieces holds** once it has `n`, and what is left. -/
def gather (n : Nat) (s : Segments α) : List α × Segments α :=
  ((takePieces n s.pieces).1, ⟨(takePieces n s.pieces).2, takePieces_nonempty n s.pieces s.nonempty⟩)

/-! ## The stream is kept -/

@[simp] theorem push_bytes (p : List α) (s : Segments α) : (push p s).bytes = p ++ s.bytes := by
  unfold push
  split
  · rename_i h; simp [h]
  · simp [bytes]

theorem readSome_bytes (n : Nat) (s s' : Segments α) (chunk : List α) (h : s.readSome n = some (chunk, s')) :
    s.bytes = chunk ++ s'.bytes := by
  obtain ⟨ps, hps⟩ := s
  cases ps with
  | nil => simp [readSome] at h
  | cons p ps =>
    obtain ⟨rfl, rfl⟩ := h
    rw [push_bytes, ← append_assoc, take_append_drop]
    simp [bytes]

variable {s : Segments α} {n : Nat}

theorem readSome_eq_none (h : s.readSome n = none) : s.bytes = [] := by
  obtain ⟨ps, hps⟩ := s
  cases ps with
  | nil => rfl
  | cons p ps => cases h

variable {chunk : List α} {s' : Segments α}

theorem readSome_le (h : s.readSome n = some (chunk, s')) :
    chunk.length ≤ n := by
  obtain ⟨ps, hps⟩ := s
  cases ps with
  | nil => cases h
  | cons p ps =>
    simp only [readSome, Option.some.injEq, Prod.mk.injEq] at h
    rw [← h.1]
    exact length_take_le n p

theorem readSome_pos (hn : 0 < n) (h : s.readSome n = some (chunk, s')) :
    0 < chunk.length := by
  obtain ⟨ps, hps⟩ := s
  cases ps with
  | nil => cases h
  | cons p ps =>
    cases h
    have hp := length_pos_iff.2 (hps p mem_cons_self)
    rw [length_take]
    omega

theorem readSome_length_le {b : Nat} (hb : ∀ p ∈ s.pieces, p.length ≤ b)
    (h : s.readSome n = some (chunk, s')) : chunk.length ≤ b ∧ ∀ p ∈ s'.pieces, p.length ≤ b := by
  obtain ⟨ps, hps⟩ := s
  cases ps with
  | nil => cases h
  | cons p ps =>
    obtain ⟨rfl, rfl⟩ := h
    have hp := hb p mem_cons_self
    refine ⟨Nat.le_trans (length_take_le' n p) hp, fun q hq => ?_⟩
    unfold push at hq
    split at hq
    · exact hb q (mem_cons_of_mem p hq)
    · rcases mem_cons.1 hq with rfl | hq
      · rw [length_drop]
        omega
      · exact hb q (mem_cons_of_mem p hq)

theorem takeExact_flatten : ∀ (n : Nat) (ps : List (List α)), n ≤ ps.flatten.length →
    ∃ r, takeExact n ps = some r ∧ r.1 = ps.flatten.take n ∧ r.2.flatten = ps.flatten.drop n
  | 0, ps, _ => ⟨([], ps), by rw [takeExact], by simp, by simp⟩
  | n + 1, [], h => by simp at h
  | n + 1, p :: ps, h => by
    rw [takeExact]
    simp only [flatten_cons, length_append] at h
    by_cases hp : p.length ≤ n + 1
    · obtain ⟨r, hr, h1, h2⟩ := takeExact_flatten (n + 1 - p.length) ps (by omega)
      refine ⟨(p ++ r.1, r.2), by rw [if_pos hp, hr]; rfl, ?_, ?_⟩
      · rw [h1, flatten_cons, take_append, take_of_length_le hp]
      · rw [h2, flatten_cons, drop_append, drop_eq_nil_iff.2 hp, nil_append]
    · refine ⟨_, if_neg hp, ?_, ?_⟩
      · rw [flatten_cons, take_append_of_le_length (by omega)]
      · rw [flatten_cons, flatten_cons, drop_append_of_le_length (by omega)]

theorem readExact_bytes (n : Nat) (s : Segments α) (h : n ≤ s.bytes.length) :
    ∃ s', s.readExact n = some (s.bytes.take n, s') ∧ s'.bytes = s.bytes.drop n := by
  obtain ⟨r, hr, h1, h2⟩ := takeExact_flatten n s.pieces h
  refine ⟨⟨r.2, takeExact_nonempty n s.pieces r s.nonempty hr⟩, ?_, h2⟩
  unfold readExact
  split
  · rename_i hnone; rw [hr] at hnone; cases hnone
  · rename_i r' hr'
    rw [hr] at hr'
    cases hr'
    rw [h1]
    rfl

theorem takeUpTo_flatten : ∀ (n : Nat) (ps : List (List α)),
    (takeUpTo n ps).1 = ps.flatten.take n ∧ (takeUpTo n ps).2.flatten = ps.flatten.drop n
  | 0, ps => by simp [takeUpTo]
  | _ + 1, [] => by simp [takeUpTo]
  | n + 1, p :: ps => by
    rw [takeUpTo, flatten_cons, take_append, drop_append]
    split
    · rename_i hp
      rw [take_of_length_le hp, drop_eq_nil_iff.2 hp, nil_append]
      exact ⟨congrArg (p ++ ·) (takeUpTo_flatten (n + 1 - p.length) ps).1,
        (takeUpTo_flatten (n + 1 - p.length) ps).2⟩
    · have hzero : n + 1 - p.length = 0 := by omega
      rw [hzero, take_zero, append_nil, drop_zero]
      exact ⟨rfl, flatten_cons⟩

theorem readUpTo_bytes (n : Nat) (s : Segments α) :
    (s.readUpTo n).1 = s.bytes.take n ∧ (s.readUpTo n).2.bytes = s.bytes.drop n :=
  takeUpTo_flatten n s.pieces

@[simp] theorem snoc_bytes (s : Segments α) (p : List α) : (s.snoc p).bytes = s.bytes ++ p := by
  unfold snoc
  split
  · rename_i h
    rw [h, append_nil]
  · simp [bytes]

theorem pieces_eq_nil (s : Segments α) : s.pieces = [] ↔ s.bytes = [] := by
  refine ⟨fun h => by rw [bytes, h]; rfl, fun h => ?_⟩
  cases hp : s.pieces with
  | nil => rfl
  | cons p ps =>
    have hbytes : p ++ ps.flatten = [] := by rw [← flatten_cons, ← hp]; exact h
    exact absurd (append_eq_nil_iff.1 hbytes).1 (s.nonempty p (by rw [hp]; exact mem_cons_self))

theorem takePieces_flatten : ∀ (n : Nat) (ps : List (List α)),
    (takePieces n ps).1 ++ (takePieces n ps).2.flatten = ps.flatten
  | 0, ps => by simp [takePieces]
  | _ + 1, [] => by simp [takePieces]
  | n + 1, p :: ps => by
    simp only [takePieces, append_assoc, flatten_cons, takePieces_flatten (n + 1 - p.length) ps]

theorem gather_bytes (n : Nat) (s : Segments α) : (s.gather n).1 ++ (s.gather n).2.bytes = s.bytes :=
  takePieces_flatten n s.pieces

theorem gather_zero (s : Segments α) : s.gather 0 = ([], s) := by
  obtain ⟨ps, hps⟩ := s
  simp [gather, takePieces]

theorem gather_cons (n : Nat) (p : List α) (ps : List (List α)) (h : ∀ q ∈ p :: ps, q ≠ [])
    (h' : ∀ q ∈ ps, q ≠ []) :
    gather (n + 1) ⟨p :: ps, h⟩ = (p ++ (gather (n + 1 - p.length) ⟨ps, h'⟩).1,
      (gather (n + 1 - p.length) ⟨ps, h'⟩).2) := by
  simp [gather, takePieces]

theorem bytes_cons (p : List α) (ps : List (List α)) (h : ∀ q ∈ p :: ps, q ≠ []) (h' : ∀ q ∈ ps, q ≠ []) :
    bytes ⟨p :: ps, h⟩ = p ++ bytes ⟨ps, h'⟩ := by
  simp [bytes]

/-! ## Where the pieces end -/

theorem pos_mem_pieceEnds_cons {p : List α} {ps : List (List α)} {k : Nat} (hk : 0 < k) :
    k ∈ pieceEnds (p :: ps) ↔ ∃ j ∈ pieceEnds ps, k = p.length + j := by
  simp only [pieceEnds, mem_cons, mem_map]
  constructor
  · rintro (rfl | ⟨j, hj, rfl⟩)
    · omega
    · exact ⟨j, hj, rfl⟩
  · rintro ⟨j, hj, rfl⟩
    exact .inr ⟨j, hj, rfl⟩

theorem zero_mem_pieceEnds (ps : List (List α)) : 0 ∈ pieceEnds ps := by
  cases ps <;> simp [pieceEnds]

theorem takeExact_pieceEnds : ∀ (n : Nat) (ps : List (List α)) (r : List α × List (List α)) (k : Nat), 0 < k →
    takeExact n ps = some r → (k ∈ pieceEnds r.2 ↔ n + k ∈ pieceEnds ps)
  | 0, ps, r, k, _, hr => by
    simp only [takeExact, Option.some.injEq] at hr
    simp [← hr]
  | _ + 1, [], r, k, _, hr => by simp [takeExact] at hr
  | n + 1, p :: ps, r, k, hk, hr => by
    rw [takeExact] at hr
    split at hr
    · rename_i hp
      obtain ⟨r', hr', rfl⟩ := Option.map_eq_some_iff.1 hr
      rw [takeExact_pieceEnds _ ps r' k hk hr', pos_mem_pieceEnds_cons (by omega)]
      have hsum : n + 1 + k = p.length + (n + 1 - p.length + k) := by omega
      constructor
      · exact fun h => ⟨_, h, hsum⟩
      · rintro ⟨j, hj, hjk⟩
        have : n + 1 - p.length + k = j := by omega
        exact this ▸ hj
    · rename_i hp
      simp only [Option.some.injEq] at hr
      subst hr
      rw [pos_mem_pieceEnds_cons hk, pos_mem_pieceEnds_cons (by omega)]
      simp only [length_drop]
      constructor
      · rintro ⟨j, hj, rfl⟩
        exact ⟨j, hj, by omega⟩
      · rintro ⟨j, hj, hjk⟩
        exact ⟨j, hj, by omega⟩

theorem readExact_boundaries (n : Nat) (s s' : Segments α) (l : List α) (k : Nat) (hk : 0 < k)
    (h : s.readExact n = some (l, s')) : k ∈ s'.boundaries ↔ n + k ∈ s.boundaries := by
  unfold readExact at h
  split at h
  · cases h
  · rename_i r hr
    obtain ⟨_, rfl⟩ := h
    exact takeExact_pieceEnds n s.pieces r k hk hr

theorem takePieces_least : ∀ (n : Nat) (ps : List (List α)), n ≤ ps.flatten.length →
    n ≤ (takePieces n ps).1.length ∧ (takePieces n ps).1.length ∈ pieceEnds ps ∧
      ∀ b ∈ pieceEnds ps, n ≤ b → (takePieces n ps).1.length ≤ b
  | 0, ps, _ => by
    rw [takePieces]
    exact ⟨Nat.le_refl 0, zero_mem_pieceEnds ps, fun _ _ _ => Nat.zero_le _⟩
  | n + 1, [], h => by simp at h
  | n + 1, p :: ps, h => by
    simp only [flatten_cons, length_append] at h
    obtain ⟨h1, h2, h3⟩ := takePieces_least (n + 1 - p.length) ps (by omega)
    simp only [takePieces, length_append]
    refine ⟨by omega, (pos_mem_pieceEnds_cons (by omega)).2 ⟨_, h2, rfl⟩, ?_⟩
    intro b hb hnb
    obtain ⟨j, hj, rfl⟩ := (pos_mem_pieceEnds_cons (by omega)).1 hb
    have := h3 j hj (by omega)
    omega

theorem takePieces_pieceEnds : ∀ (n : Nat) (ps : List (List α)) (k : Nat), 0 < k →
    (k ∈ pieceEnds (takePieces n ps).2 ↔ (takePieces n ps).1.length + k ∈ pieceEnds ps)
  | 0, ps, k, _ => by simp [takePieces]
  | _ + 1, [], k, _ => by simp [takePieces]
  | n + 1, p :: ps, k, hk => by
    simp only [takePieces, length_append]
    rw [takePieces_pieceEnds (n + 1 - p.length) ps k hk, pos_mem_pieceEnds_cons (by omega)]
    constructor
    · exact fun h => ⟨_, h, by omega⟩
    · rintro ⟨j, hj, hjk⟩
      have : (takePieces (n + 1 - p.length) ps).1.length + k = j := by omega
      exact this ▸ hj

theorem gather_length_le_iff (n m : Nat) (s : Segments α) (h : n ≤ s.bytes.length) :
    (s.gather n).1.length ≤ m ↔ ∃ b ∈ s.boundaries, n ≤ b ∧ b ≤ m := by
  obtain ⟨h1, h2, h3⟩ := takePieces_least n s.pieces h
  constructor
  · exact fun hm => ⟨_, h2, h1, hm⟩
  · rintro ⟨b, hb, hnb, hbm⟩
    exact Nat.le_trans (h3 b hb hnb) hbm

theorem gather_length_eq_iff (n : Nat) (s : Segments α) (h : n ≤ s.bytes.length) :
    (s.gather n).1.length = n ↔ n ∈ s.boundaries := by
  obtain ⟨h1, h2, h3⟩ := takePieces_least n s.pieces h
  constructor
  · exact fun he => he ▸ h2
  · exact fun hn => Nat.le_antisymm (h3 n hn (Nat.le_refl n)) h1

theorem le_gather_length (n : Nat) (s : Segments α) (h : n ≤ s.bytes.length) : n ≤ (s.gather n).1.length :=
  (takePieces_least n s.pieces h).1

theorem gather_boundaries (n k : Nat) (s : Segments α) (hk : 0 < k) :
    k ∈ (s.gather n).2.boundaries ↔ (s.gather n).1.length + k ∈ s.boundaries :=
  takePieces_pieceEnds n s.pieces k hk

end Segments
end Wire
