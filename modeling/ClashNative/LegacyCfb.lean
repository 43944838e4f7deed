import ClashNative.LegacyStream
/-!
# LegacyCfb — the legacy stream cipher in its CFB modes

`LegacyStreamCipher::update` (`crypto.cpp`) turns one byte after the other, with the feedback and the
place in its key stream kept from one call to the next.  AES is a function of the key and the block.
-/
namespace ClashNative.LegacyCfb

open Wire (StreamCipher)
open LegacyStream (intMax)

abbrev Bytes := List UInt8
abbrev Block := Vector UInt8 16

/-- `LegacyStreamCipher::Impl`; of the 64 bytes of the key stream a CFB mode uses the first 16. -/
structure Impl where
  encrypt : Bool
  feedback : Block
  keystream : Block
  feedbackOffset : Fin 16
  deriving DecidableEq

def create (encrypt : Bool) (iv : Block) : Impl := ⟨encrypt, iv, Vector.replicate 16 0, 0⟩

section Cipher

variable (aes : Block → Block)

def turn (s : Impl) (byte : UInt8) : Impl × UInt8 :=
  let keystream := if s.feedbackOffset = 0 then aes s.feedback else s.keystream
  let output := byte ^^^ keystream.get s.feedbackOffset
  ({ s with
      keystream
      feedback := s.feedback.set s.feedbackOffset (if s.encrypt then output else byte)
      feedbackOffset := s.feedbackOffset + 1 }, output)

def cfb (encrypt : Bool) : StreamCipher Impl where
  ivSize := 16
  init iv := create encrypt (Vector.ofFn fun i => iv.getD i 0)
  step := turn aes

/-- `update`; a call with more than `INT_MAX` bytes is refused. -/
def update (s : Impl) (data : Bytes) : Option (Impl × Bytes) :=
  if intMax < data.length then none else some ((cfb aes s.encrypt).update s data)

/-- One call after the other, with what each of them gives. -/
def updates (s : Impl) : List Bytes → Option (Impl × List Bytes)
  | [] => some (s, [])
  | data :: rest =>
    match update aes s data with
    | none => none
    | some (s, output) => (updates s rest).map fun done => (done.1, output :: done.2)

variable {aes}

theorem update_step_eq (encrypt encrypt' : Bool) (s : Impl) (data : Bytes) :
    (cfb aes encrypt).update s data = (cfb aes encrypt').update s data := by
  induction data generalizing s with
  | nil => rfl
  | cons b data ih => rw [StreamCipher.update, StreamCipher.update, ih]; rfl

variable (aes) in
theorem updates_flatten (encrypt : Bool) :
    ∀ (pieces : List Bytes) (s : Impl), (∀ data ∈ pieces, data.length ≤ intMax) →
    ∃ outputs, updates aes s pieces = some (((cfb aes encrypt).update s pieces.flatten).1, outputs) ∧
      outputs.flatten = ((cfb aes encrypt).update s pieces.flatten).2
  | [], s, _ => ⟨[], rfl, rfl⟩
  | data :: rest, s, h => by
    have hdata := h data List.mem_cons_self
    obtain ⟨outputs, hrest, hflatten⟩ := updates_flatten encrypt rest ((cfb aes encrypt).update s data).1
      fun other hother => h other (List.mem_cons_of_mem _ hother)
    refine ⟨((cfb aes encrypt).update s data).2 :: outputs, ?_, ?_⟩
    · rw [updates, update, if_neg (Nat.not_lt.2 hdata), update_step_eq s.encrypt encrypt]
      dsimp only
      rw [hrest, List.flatten_cons, StreamCipher.update_append]
      rfl
    · rw [List.flatten_cons, hflatten, List.flatten_cons, StreamCipher.update_append]

variable (aes) in
theorem turn_turn (s : Impl) (byte : UInt8) :
    turn aes { s with encrypt := false } (turn aes { s with encrypt := true } byte).2 =
      ({ (turn aes { s with encrypt := true } byte).1 with encrypt := false }, byte) := by
  unfold turn
  dsimp only
  rw [if_pos rfl, if_neg Bool.false_ne_true, UInt8.xor_assoc, UInt8.xor_self, UInt8.xor_zero]

theorem update_update (encrypt : Bool) : ∀ (data : Bytes) (s : Impl),
    ((cfb aes encrypt).update { s with encrypt := false }
      ((cfb aes encrypt).update { s with encrypt := true } data).2).2 = data
  | [], _ => rfl
  | byte :: data, s => by
    have hturn := turn_turn aes s byte
    have hrest := update_update encrypt data
      { (turn aes { s with encrypt := true } byte).1 with encrypt := false }
    rw [StreamCipher.update, StreamCipher.update]
    change (turn aes { s with encrypt := false } (turn aes { s with encrypt := true } byte).2).2 ::
      ((cfb aes encrypt).update (turn aes { s with encrypt := false }
        (turn aes { s with encrypt := true } byte).2).1
        ((cfb aes encrypt).update (turn aes { s with encrypt := true } byte).1 data).2).2 = byte :: data
    rw [hturn]
    exact congrArg (List.cons byte) hrest

end Cipher

/-- **CFB does not depend on how its input is cut**: calls that are accepted give together what one call
over the whole gives, and what was encrypted is decrypted to the same bytes, however either side is cut.
-/
theorem cfb_cut_anywhere (aes : Bytes → Block → Block) (key : Bytes) (iv : Block) (pieces : List Bytes)
    (h : ∀ data ∈ pieces, data.length ≤ intMax) :
    (∀ encrypt, ∃ s outputs, updates (aes key) (create encrypt iv) pieces = some (s, outputs) ∧
      (pieces.flatten.length ≤ intMax → update (aes key) (create encrypt iv) pieces.flatten =
        some (s, outputs.flatten)) ∧
      ∀ pieces', (∀ data ∈ pieces', data.length ≤ intMax) → pieces'.flatten = pieces.flatten →
        ∃ outputs', updates (aes key) (create encrypt iv) pieces' = some (s, outputs') ∧
        outputs'.flatten = outputs.flatten) ∧
    ∃ s outputs, updates (aes key) (create true iv) pieces = some (s, outputs) ∧
      ∀ pieces', (∀ data ∈ pieces', data.length ≤ intMax) → pieces'.flatten = outputs.flatten →
        ∃ s' outputs', updates (aes key) (create false iv) pieces' = some (s', outputs') ∧
        outputs'.flatten = pieces.flatten := by
  constructor
  · intro encrypt
    obtain ⟨outputs, hupdates, hflatten⟩ := updates_flatten (aes key) encrypt pieces (create encrypt iv) h
    refine ⟨_, outputs, hupdates, fun hwhole => ?_, fun pieces' h' heq => ?_⟩
    · rw [update, if_neg (Nat.not_lt.2 hwhole), hflatten]
      rfl
    · obtain ⟨outputs', hupdates', hflatten'⟩ := updates_flatten (aes key) encrypt pieces' (create encrypt iv) h'
      rw [heq] at hupdates' hflatten'
      exact ⟨outputs', hupdates', hflatten'.trans hflatten.symm⟩
  · obtain ⟨outputs, hupdates, hflatten⟩ := updates_flatten (aes key) true pieces (create true iv) h
    refine ⟨_, outputs, hupdates, fun pieces' h' heq => ?_⟩
    obtain ⟨outputs', hupdates', hflatten'⟩ := updates_flatten (aes key) true pieces' (create false iv) h'
    refine ⟨_, outputs', hupdates', ?_⟩
    rw [hflatten', heq, hflatten]
    exact update_update true pieces.flatten (create true iv)

/-- Three bytes and two, then two and three the other way. -/
theorem cfb_cut_twice :
    let aes : Bytes → Block → Block := fun key block => block.map (· + key.getD 0 1)
    ∃ s outputs, updates (aes [7]) (create true (Vector.replicate 16 5)) [[1, 2, 3], [4, 5]] =
    some (s, outputs) ∧
      ∀ pieces', (∀ data ∈ pieces', data.length ≤ intMax) → pieces'.flatten = outputs.flatten →
        ∃ s' outputs', updates (aes [7]) (create false (Vector.replicate 16 5)) pieces' = some (s', outputs') ∧
          outputs'.flatten = [1, 2, 3, 4, 5] :=
  (cfb_cut_anywhere (fun key block => block.map (· + key.getD 0 1)) [7] (Vector.replicate 16 5) [[1, 2, 3],
    [4, 5]] (by decide)).2

end ClashNative.LegacyCfb
