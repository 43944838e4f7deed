import ClashNative.TruncatedReads
/-!
# StreamTruncation — the end of each Shadowsocks stream

What each of the three streams needs for an end of file to be told only where a record ends.
-/
namespace ClashNative.Shadowsocks

open List

variable {κ : Type}

def Server.first {method : CipherMethod κ} (server : Server method) (n : Nat) : Server method where
  salt := server.salt
  key := server.key
  payloads := server.payloads.take n
  salt_length := server.salt_length
  derive_salt := server.derive_salt
  payload_size payload hpayload := server.payload_size payload (List.mem_of_mem_take hpayload)

variable {s : State κ} {fits : State κ → Op → Prop}

theorem Settles.nonce {s' : State κ} (h : Settles fits s.incrementReadNonce s') : Settles fits s s' :=
  h.from rfl rfl (fun h => h) rfl rfl rfl rfl

variable {e : StreamError}

theorem finishNonce_settles (s : State κ) (he : e ≠ .eof) :
    Settles fits s (s.incrementReadNonce.finishRead (.error e)) :=
  (finishRead_settles s.incrementReadNonce fun heq => he (Except.error.inj heq)).nonce

theorem failRead_settles (s : State κ) (he : e ≠ .eof) :
    Settles fits s (s.finishRead (.error e)) := finishRead_settles s fun heq => he (Except.error.inj heq)

theorem isSome_of_not_isNone {α : Type} {o : Option α} (h : ¬ o.isNone = true) : o.isSome = true := by
  rwa [Option.isNone_iff_eq_none, ← Ne, ← Option.isSome_iff_ne_none] at h

theorem idle_settles (h : s.readHandler = none) : Settles fits s s :=
  ⟨rfl, rfl, fun h => h, fun _ hid => hid, .inl ⟨rfl, h⟩, fun h => h⟩

def Plainly : Stage → Prop
  | .responseFixed | .responseVariable _ => False
  | _ => True

/-! ## The 2022 stream -/

namespace Ss2022

variable {c : Config κ}

def Server.first (server : Server c) (n : Nat) : Server c where
  toServer := server.toServer.first n
  timestamp := server.timestamp
  head := server.head
  timestamp_length := server.timestamp_length
  head_length := server.head_length

/-- **A record ends there**: the header or a record behind it. -/
def Boundary (server : Server c) (position : Nat) : Prop :=
  ∃ n ∈ List.range (server.payloads.length + 1), position = (server.first n).wire.length

instance (server : Server c) (position : Nat) : Decidable (Boundary server position) :=
  inferInstanceAs (Decidable (∃ n ∈ _, _))

abbrev Whole : State κ → Op → Prop := Fits fun _ => True

theorem receiveSalt_settles (s : State κ) : Settles Whole s (receiveSalt c s) :=
  readExact_settles s c.mode trivial (Or.inl rfl)

theorem receiveResponseFixed_settles (s : State κ) : Settles Whole s (receiveResponseFixed c s) := by
  cases hkey : s.readKey with
  | none =>
    unfold receiveResponseFixed
    rw [hkey]
    exact failRead_settles s StreamError.noConfusion
  | some key =>
    rw [readExact_fixed hkey]
    exact readExact_settles s c.mode trivial (.inr (by rw [hkey]; rfl))

theorem receiveRecord_settles (s : State κ) : Settles Whole s (receiveRecord c s) := by
  cases hkey : s.readKey with
  | none =>
    unfold receiveRecord
    rw [hkey]
    exact failRead_settles s StreamError.noConfusion
  | some key =>
    rw [readExact_record hkey]
    exact readExact_settles s c.mode trivial (.inr (by rw [hkey]; rfl))

theorem receive_settles (s : State κ) : Settles Whole s (receive c s) := by
  unfold receive
  split
  · exact receiveSalt_settles s
  · split
    · exact receiveResponseFixed_settles s
    · exact receiveRecord_settles s

theorem copyPending_settles (s : State κ) : Settles Whole s (copyPending s) := by
  unfold copyPending
  split
  · exact copy_settles s
  · exact idle_settles (by simpa using ‹¬ s.readHandler.isSome = true›)

theorem finishPendingOrReceive_settles (s : State κ) : Settles Whole s (finishPendingOrReceive c s) := by
  unfold finishPendingOrReceive
  split
  · split
    · exact copyPending_settles s
    · exact receiveRecord_settles s
  · exact idle_settles (by simpa using ‹¬ s.readHandler.isSome = true›)

theorem saltReceived_settles (s : State κ) (salt : Bytes) : Settles Whole s (saltReceived c s salt) := by
  unfold saltReceived
  split
  · exact failRead_settles s StreamError.noConfusion
  · rename_i key hkey
    exact (receiveResponseFixed_settles { s with readKey := some key }).from rfl rfl
      (fun _ => rfl) rfl rfl rfl rfl

variable {s : State κ} {key : κ}

theorem fixedReceived_settles (hkey : s.readKey = some key) (encrypted : Bytes) :
    Settles Whole s (fixedReceived c s key encrypted) := by
  unfold fixedReceived
  split
  · exact finishNonce_settles s StreamError.noConfusion
  · split
    · exact finishNonce_settles s StreamError.noConfusion
    · dsimp only
      split
      · exact finishNonce_settles s StreamError.noConfusion
      · split
        · exact (finishPendingOrReceive_settles
            { s.incrementReadNonce with responseHeaderReady := true }).from rfl rfl (fun h => h)
            rfl rfl rfl rfl
        · exact (readExact_settles s.incrementReadNonce c.mode trivial
            (.inr (by rw [State.incrementReadNonce, hkey]; rfl))).nonce

theorem variableReceived_settles (variableSize : Nat) (encrypted : Bytes) :
    Settles Whole s (variableReceived c s key variableSize encrypted) := by
  unfold variableReceived
  split
  · exact finishNonce_settles s StreamError.noConfusion
  · split
    · exact finishNonce_settles s StreamError.noConfusion
    · rename_i plaintext _ _
      exact (finishPendingOrReceive_settles
        { s.incrementReadNonce with pendingPlaintext := plaintext, responseHeaderReady := true }).from rfl rfl
        (fun h => h) rfl rfl rfl rfl

theorem lengthReceived_settles (hkey : s.readKey = some key) (encrypted : Bytes) :
    Settles Whole s (lengthReceived c s key encrypted) := by
  unfold lengthReceived
  split
  · exact finishNonce_settles s StreamError.noConfusion
  · split
    · exact finishNonce_settles s StreamError.noConfusion
    · split
      · exact finishNonce_settles s StreamError.noConfusion
      · exact (readExact_settles s.incrementReadNonce c.mode trivial
          (.inr (by rw [State.incrementReadNonce, hkey]; rfl))).nonce

theorem payloadReceived_settles (encrypted : Bytes) : Settles Whole s (payloadReceived c s key encrypted) := by
  unfold payloadReceived
  split
  · exact finishNonce_settles s StreamError.noConfusion
  · rename_i plaintext _
    exact (copyPending_settles { s.incrementReadNonce with pendingPlaintext := plaintext }).from rfl rfl
      (fun h => h) rfl rfl rfl rfl

theorem reader_settling (c : Config κ) : (reader c).Settling fun _ => True where
  receive := receive_settles
  receiveSalt := receiveSalt_settles
  failure := StreamError.noConfusion
  received s stage bytes _ hkey _ := by
    show Settles Whole s (received c s stage bytes)
    cases hsome : s.readKey with
    | none =>
      rw [hsome] at hkey
      rcases hkey with rfl | hf
      · exact saltReceived_settles s bytes
      · cases hf
    | some key =>
      unfold received
      rw [hsome]
      cases stage with
      | salt => exact saltReceived_settles s bytes
      | responseFixed => exact fixedReceived_settles hsome bytes
      | responseVariable n => exact variableReceived_settles n bytes
      | length => exact lengthReceived_settles hsome bytes
      | payload n => exact payloadReceived_settles bytes

end Ss2022

/-! ## The classic stream -/

namespace Classic

variable {c : Config κ}

/-- **A record ends there**: the salt or a record behind it. -/
def Boundary (server : Server c.method) (position : Nat) : Prop :=
  ∃ n ∈ List.range (server.payloads.length + 1), position = (wire (server.first n)).length

instance (server : Server c.method) (position : Nat) : Decidable (Boundary server position) :=
  inferInstanceAs (Decidable (∃ n ∈ _, _))

abbrev Whole : State κ → Op → Prop := Fits Plainly

theorem receiveSalt_settles (s : State κ) : Settles Whole s (receiveSalt c s) :=
  readExact_settles s c.mode trivial (Or.inl rfl)

variable {s : State κ}

theorem receiveLength_settles (hkey : s.readKey.isSome = true) : Settles Whole s (receiveLength c s) :=
  readExact_settles s c.mode trivial (.inr hkey)

theorem saltReceived_settles (s : State κ) (salt : Bytes) : Settles Whole s (saltReceived c s salt) := by
  unfold saltReceived
  split
  · exact failRead_settles s StreamError.noConfusion
  · rename_i key hkey
    exact (receiveLength_settles (s := { s with readKey := some key }) rfl).from rfl rfl
      (fun _ => rfl) rfl rfl rfl rfl

variable {key : κ}

theorem lengthReceived_settles (hkey : s.readKey = some key) (encrypted : Bytes) :
    Settles Whole s (lengthReceived c s key encrypted) := by
  unfold lengthReceived
  split
  · exact failRead_settles s StreamError.noConfusion
  · split
    · exact failRead_settles s StreamError.noConfusion
    · split
      · exact finishNonce_settles s StreamError.noConfusion
      · exact (readExact_settles s.incrementReadNonce c.mode trivial
          (.inr (by rw [State.incrementReadNonce, hkey]; rfl))).nonce

theorem payloadReceived_settles (hparked : s.readHandler.isSome = s.readInProgress) (encrypted : Bytes) :
    Settles Whole s (payloadReceived c s key encrypted) := by
  unfold payloadReceived
  split
  · exact failRead_settles s StreamError.noConfusion
  · split
    · exact failRead_settles s StreamError.noConfusion
    · rename_i plaintext _ _
      have hcopy : Settles Whole { s.incrementReadNonce with pendingPlaintext := plaintext }
          (copyPending { s.incrementReadNonce with pendingPlaintext := plaintext }) := by
        unfold copyPending
        split
        · exact copy_settles _
        · rename_i hgone
          have hgone : ¬ s.readHandler.isSome = true := fun hsome => hgone (hparked.symm.trans hsome)
          exact idle_settles (Option.not_isSome_iff_eq_none.1 hgone)
      exact hcopy.from rfl rfl (fun h => h) rfl rfl rfl rfl

theorem reader_settling (c : Config κ) : (reader c).Settling Plainly where
  receive s := by
    show Settles Whole s (if s.readKey.isNone then receiveSalt c s else receiveLength c s)
    split
    · exact receiveSalt_settles s
    · exact receiveLength_settles (isSome_of_not_isNone ‹_›)
  receiveSalt := receiveSalt_settles
  failure := StreamError.noConfusion
  received s stage bytes hstage hkey hparked := by
    show Settles Whole s (received c s stage bytes)
    cases hsome : s.readKey with
    | none =>
      rw [hsome] at hkey
      rcases hkey with rfl | hf
      · exact saltReceived_settles s bytes
      · cases hf
    | some key =>
      unfold received
      rw [hsome]
      cases stage with
      | salt => exact saltReceived_settles s bytes
      | responseFixed | responseVariable n => exact hstage.elim
      | length => exact lengthReceived_settles hsome bytes
      | payload n => exact payloadReceived_settles hparked bytes

end Classic

/-! ## The stream inside of Trojan -/

namespace TrojanSs

variable {method : CipherMethod κ} {s s' : State κ}

/-- **A record ends there**: the salt or a record behind it. -/
def Boundary (server : Server method) (position : Nat) : Prop :=
  ∃ n ∈ List.range (server.payloads.length + 1), position = (wire (server.first n)).length

instance (server : Server method) (position : Nat) : Decidable (Boundary server position) :=
  inferInstanceAs (Decidable (∃ n ∈ _, _))

def Inside (stage : Stage) : Prop := ∃ size, stage = .payload size

def Carries (s : State κ) (op : Op) : Prop := Fits Plainly s op ∧ ∃ stage size got, op = .carrier stage size got

theorem carries_keyed : Keyed (Carries (κ := κ)) := fun s s' op hkey h =>
    ⟨fits_keyed Plainly s s' op hkey h.1, h.2⟩

variable {size : Nat} {stage : Stage}

theorem read_settles (hstage : Plainly stage) (hkey : stage = .salt ∨ s.readKey.isSome = true) (got : Bytes) :
    Settles Carries s (s.start (.carrier stage size got)) :=
    start_settles carries_keyed s ⟨⟨hstage, hkey⟩, stage, size, got, rfl⟩

theorem saltReceived_settles (s : State κ) (salt : Bytes) : Settles Carries s (saltReceived method s salt) := by
  unfold saltReceived
  split
  · exact failRead_settles s StreamError.noConfusion
  · rename_i key hkey
    exact (read_settles (s := { s with readKey := some key }) (show Plainly .length from trivial)
      (.inr rfl) []).from rfl rfl (fun _ => rfl) rfl
      rfl rfl rfl

variable {key : κ}

theorem lengthReceived_settles (hkey : s.readKey = some key) (encrypted : Bytes) :
    Settles Carries s (lengthReceived method s key encrypted) := by
  unfold lengthReceived
  split
  · exact failRead_settles s StreamError.noConfusion
  · split
    · exact failRead_settles s StreamError.noConfusion
    · split
      · exact finishNonce_settles s StreamError.noConfusion
      · exact (read_settles (s := s.incrementReadNonce) (show Plainly (.payload _) from trivial)
          (.inr (by rw [State.incrementReadNonce, hkey]; rfl)) []).nonce

theorem payloadReceived_settles (encrypted : Bytes) :
    Settles Carries s (payloadReceived method s key encrypted) := by
  unfold payloadReceived
  split
  · exact failRead_settles s StreamError.noConfusion
  · split
    · exact failRead_settles s StreamError.noConfusion
    · rename_i plaintext _ _
      exact (copy_settles { s.incrementReadNonce with pendingPlaintext := plaintext }).from rfl rfl
        (fun h => h) rfl rfl rfl rfl

variable {got : Bytes}

theorem received_settles (hfits : Fits Plainly s (.carrier stage size got)) (bytes : Bytes) :
    Settles Carries s (received method s stage bytes) := by
  obtain ⟨hstage, hkey⟩ := hfits
  cases hsome : s.readKey with
  | none =>
    rw [hsome] at hkey
    rcases hkey with rfl | hf
    · exact saltReceived_settles s bytes
    · cases hf
  | some key =>
    unfold received
    rw [hsome]
    cases stage with
    | salt => exact saltReceived_settles s bytes
    | responseFixed | responseVariable n => exact hstage.elim
    | length => exact lengthReceived_settles hsome bytes
    | payload n => exact payloadReceived_settles bytes

/-! ### Runs -/

variable {boundary : Nat → Prop} {total : Nat}

def toldOf : Stage → StreamError → StreamError
  | .payload _, _ => .protocolError
  | _, e => e

theorem failed_eq (s : State κ) (stage : Stage) (e : StreamError) :
    failed s stage e = s.finishRead (.error (toldOf stage e)) := by
  cases stage <;> rfl

variable {n : Nat}

theorem readExact_of_ends {e : StreamError} (hparked : s.readHandler.isSome = true)
    (hends : s.lowerEnds (size - got.length) n = some e) :
    readExactGuarded method s stage size got n =
    ({ s with ended := some e } : State κ).finishRead (.error (toldOf stage e)) := by
  unfold readExactGuarded
  rw [lowerRead_of_ends hends]
  dsimp only
  rw [if_neg (by simp [Option.isNone_eq_false_iff.2 hparked]), failed_eq]

theorem failed_of_ends {i id : Nat} {op : Op} (hop : s.ops[i]? = some op) (hcarries : Carries s op)
    (hparked : s.readHandler = some id)
    (hends : s.meetsEnd n op) : ∃ e, (step method s (.complete i n)).results =
    s.results ++ [(id, .error e)] := by
  obtain ⟨-, stage, size, got, rfl⟩ := hcarries
  obtain ⟨e, he⟩ := Option.isSome_iff_exists.1 hends
  refine ⟨toldOf stage e, ?_⟩
  rw [step_complete hop]
  show (readExactGuarded method { s with ops := s.ops.eraseIdx i } stage size got n).results = _
  rw [readExact_of_ends (s := { s with ops := s.ops.eraseIdx i }) (by rw [hparked]; rfl) he]
  exact finishRead_of_parked hparked _

theorem truthful_of_settled (h : Settled Carries boundary total s) : Truthful (step method) boundary total s :=
  ⟨fun id hid => (h.told id hid).2,
    fun _ _ _ op hop hparked hends => failed_of_ends hop (h.fits op (mem_of_getElem? hop)) hparked
    hends, h.answered⟩

theorem serve_settled (h : Settled Carries boundary total s) (size : Nat) :
    Settled Carries boundary total (serve s size) := by
  refine h.results carries_keyed rfl rfl rfl (fun h => h) h.parked (fun h => h) fun id hid => ?_
  rcases mem_append.1 hid with hold | hnew
  · exact hold
  · cases (Prod.ext_iff.1 (mem_singleton.1 hnew)).2

theorem receive_settled (h : Settled Carries boundary total s) (size : Nat) :
    Settled Carries boundary total (receive method s size) := by
  unfold receive
  split
  · exact answer_settled carries_keyed h nofun
  · split
    · exact answer_settled carries_keyed h nofun
    · split
      · exact serve_settled h size
      · have hparked : Owing Carries boundary total (s.park size) :=
          ⟨rfl, fun op hop => carries_keyed s _ op (fun h => h) (h.fits op hop), h.told⟩
        split
        · exact (finishRead_settles (s.park size) (ok_ne_eof [])).settled carries_keyed hparked
        · split
          · exact (read_settles (s := s.park size) (show Plainly .salt from trivial) (.inl rfl) []).settled
              carries_keyed hparked
          · have hkey : s.readKey.isSome = true := isSome_of_not_isNone ‹_›
            exact (read_settles (s := s.park size) (show Plainly .length from trivial)
              (.inr hkey) []).settled carries_keyed hparked

theorem close_settled (h : Settled Carries boundary total s) : Settled Carries boundary total (close s) := by
  have hclosed : Settled Carries boundary total { s with closed := true } :=
    h.results carries_keyed rfl rfl rfl (fun h => h) h.parked (fun h => h) fun _ hid => hid
  unfold close
  split
  · exact h
  · split
    · exact aborted_settled carries_keyed (lowerFails_settled carries_keyed hclosed .operationAborted)
    · exact lowerFails_settled carries_keyed hclosed .operationAborted

theorem carrier_settled (h : Owing Carries boundary total s)
    (hfits : Fits Plainly s (.carrier stage size got))
    (hends : s.readHandler.isSome = true → s.lowerEnds (size - got.length) n = some .eof → Inside stage ∨
      boundary (total - s.wire.length)) :
    Settled Carries boundary total (readExactGuarded method s stage size got n) := by
  cases hlower : s.lowerEnds (size - got.length) n with
  | some e =>
    by_cases hparked : s.readHandler.isSome = true
    · rw [readExact_of_ends hparked hlower]
      refine ended_settled carries_keyed h fun _ heq => ?_
      cases stage with
      | payload size => cases heq
      | salt | responseFixed | responseVariable size | length =>
        refine (hends hparked (heq ▸ hlower)).resolve_left fun hin => ?_
        obtain ⟨size, hsize⟩ := hin
        cases hsize
    · have hgone : s.readHandler = none := by simpa using hparked
      unfold readExactGuarded
      rw [lowerRead_of_ends hlower]
      dsimp only
      rw [if_pos (by rw [hgone]; rfl)]
      refine ⟨⟨by rw [hgone]; rfl, fun op hop => carries_keyed s _ op (fun h => h) (h.fits op hop),
        fun id hid => ?_⟩, fun _ => hgone⟩
      exact ⟨rfl, (h.told id hid).2⟩
  | none =>
    obtain ⟨wire, chunk, hopen, hread⟩ : ∃ wire chunk, s.ended = none ∧ s.lowerRead (size - got.length) n =
      (.ok chunk, { s with wire := wire }) := by
      unfold State.lowerEnds at hlower
      unfold State.lowerRead
      split at hlower
      · cases hlower
      · rename_i hopen
        split at hlower
        · cases hlower
        · exact ⟨_, _, hopen, by rw [hopen]; exact if_neg ‹_›⟩
    have hbrought : Owing Carries boundary total
      { s with wire := wire } := h.brought carries_keyed hopen rfl rfl h.parked rfl
    unfold readExactGuarded
    rw [hread]
    dsimp only
    split
    · rename_i hgone
      have hgone : s.readHandler = none := by simpa using hgone
      refine ⟨h.brought carries_keyed hopen rfl rfl ?_ rfl, fun _ => hgone⟩
      rw [hgone]
      rfl
    · split
      · have hfits : Fits Plainly { s with wire := wire } (.carrier stage size got) := hfits
        exact (received_settles hfits _).settled carries_keyed hbrought
      · exact (read_settles (s := { s with wire := wire }) hfits.1 hfits.2 _).settled carries_keyed hbrought

theorem step_settled (s : State κ) (e : Event) (h : Settled Carries boundary total s)
    (hends : EndsWhole Inside boundary total s e) :
    Settled Carries boundary total (step method s e) := by
  cases e with
  | read size => exact receive_settled h size
  | cancelRead =>
    show Settled Carries boundary total (cancelReceive s)
    unfold cancelReceive
    split
    · exact aborted_settled carries_keyed h
    · exact h
  | close => exact close_settled h
  | lowerFails => exact lowerFails_settled carries_keyed h .transport
  | complete i n =>
    cases hop : s.ops[i]? with
    | none =>
      rw [step_complete_none hop]
      exact h
    | some op =>
      rw [step_complete hop]
      obtain ⟨hfits, stage, size, got, rfl⟩ := h.fits op (mem_of_getElem? hop)
      exact carrier_settled (h.toOwing.erase carries_keyed i) hfits (hends stage size got hop)

theorem step_truncated (s : State κ) (e : Event) (hends : ¬ EndsWhole Inside boundary total s e) :
    ¬ Truthful (step method) boundary total (step method s e) := by
  cases e with
  | complete i n =>
    unfold EndsWhole at hends
    push Not at hends
    obtain ⟨stage, size, got, hop, hparked, heof, hout, hnot⟩ := hends
    obtain ⟨id, hid⟩ := Option.isSome_iff_exists.1 hparked
    have htold : toldOf stage .eof = .eof := by
      cases stage with
      | payload size => exact absurd ⟨size, rfl⟩ hout
      | salt | responseFixed | responseVariable size | length => rfl
    have hstep : step method s (.complete i n) =
        ({ s with ops := s.ops.eraseIdx i, ended := some .eof } : State κ).finishRead (.error .eof) := by
      rw [step_complete hop]
      show readExactGuarded method { s with ops := s.ops.eraseIdx i } stage size got n = _
      rw [readExact_of_ends (s := { s with ops := s.ops.eraseIdx i }) hparked heof, htold]
    intro htruthful
    rw [hstep] at htruthful
    refine hnot (htruthful.clean id ?_)
    rw [finishRead_of_parked (s := { s with ops := s.ops.eraseIdx i, ended := some .eof }) hid]
    exact mem_append_right _ mem_cons_self
  | read size => exact absurd trivial hends
  | cancelRead => exact absurd trivial hends
  | close => exact absurd trivial hends
  | lowerFails => exact absurd trivial hends

theorem truthful_iff (h : Settled Carries boundary total s) (events : List Event) :
    (∀ pre, pre <+: events → Truthful (step method) boundary total (Runs.run (step method) s pre)) ↔
      Runs.Along (step method) (EndsWhole Inside boundary total) s events :=
  Runs.forall_prefix_iff_along (P := Settled Carries boundary total)
    (fun _ hs => truthful_of_settled hs) step_settled
    (fun s e _ hends => step_truncated s e hends) h events

end TrojanSs

/-! ## The three streams -/

theorem new_settled {boundary : Nat → Prop} {total : Nat} (hops : s.ops = [])
    (hhandler : s.readHandler = none) (hprogress : s.readInProgress = false)
    (hresults : s.results = []) : Settled fits boundary total s := by
  refine ⟨⟨by rw [hhandler, hprogress]; rfl, fun op hop => ?_, fun id hid => ?_⟩, fun _ => hhandler⟩
  · rw [hops] at hop
    cases hop
  · rw [hresults] at hid
    cases hid

/-- The length record behind the salt or the header is cut, and each of the streams reports a clean end.
-/
theorem truncation_told_as_end :
    ¬ Truthful (Ss2022.reader (exampleConfig .none)).step (Ss2022.Boundary (exampleServer2022 .none))
    (exampleServer2022 .none).wire.length
      (Ss2022.run (exampleConfig .none) (exampleServer2022 .none) 0 [.read 1, .complete 0 16,
        .complete 0 27, .complete 0 5, .complete 0 0]) ∧
    ¬ Truthful (Classic.reader ⟨.none, tagMethod⟩).step
    (Classic.Boundary (c := ⟨.none, tagMethod⟩) exampleServer)
      (Classic.wire (c := ⟨.none, tagMethod⟩) exampleServer).length
      (Classic.run (c := ⟨.none, tagMethod⟩) exampleServer 0 [.read 1, .complete 0 16, .complete 0 5,
        .complete 0 0]) ∧
    ¬ Truthful (TrojanSs.step tagMethod) (TrojanSs.Boundary exampleServer) (TrojanSs.wire exampleServer).length
      (TrojanSs.run exampleServer [.read 1, .complete 0 16, .complete 0 5, .complete 0 0]) := by
  refine ⟨fun h => ?_, fun h => ?_, fun h => ?_⟩
  · exact absurd (h.clean 0 (by decide +kernel)) (by decide +kernel)
  · exact absurd (h.clean 0 (by decide +kernel)) (by decide +kernel)
  · exact absurd (h.clean 0 (by decide +kernel)) (by decide +kernel)

/-- **Truncation is not told as an end** in exactly the runs in which every lower read that ends a parked
read with the end of file ends with a record; inside of Trojan, in which it does so or is one of a payload
record. -/
theorem truthful_ends_iff (c : Ss2022.Config κ) (server2022 : Ss2022.Server c) (classic : Classic.Config κ)
    (server : Server classic.method)
    {method : CipherMethod κ} (inside : Server method) (initial : Nat) (events : List Event) :
    ((∀ pre, pre <+: events →
        Truthful (Ss2022.reader c).step (Ss2022.Boundary server2022) server2022.wire.length
        (Ss2022.run c server2022 initial pre)) ↔
      Runs.Along (Ss2022.reader c).step (EndsWhole
        (fun _ => False) (Ss2022.Boundary server2022) server2022.wire.length)
        (Ss2022.start c server2022 initial) events) ∧
    ((∀ pre, pre <+: events →
        Truthful (Classic.reader classic).step (Classic.Boundary server) (Classic.wire server).length
        (Classic.run server initial pre)) ↔
      Runs.Along (Classic.reader classic).step
      (EndsWhole (fun _ => False) (Classic.Boundary server) (Classic.wire server).length)
        (Classic.start server initial) events) ∧
    ((∀ pre, pre <+: events →
        Truthful (TrojanSs.step method) (TrojanSs.Boundary inside) (TrojanSs.wire inside).length
        (TrojanSs.run inside pre)) ↔
      Runs.Along (TrojanSs.step method) (EndsWhole TrojanSs.Inside (TrojanSs.Boundary inside)
        (TrojanSs.wire inside).length)
        (TrojanSs.start inside) events) := by
  refine ⟨?_, ?_, ?_⟩
  · exact Reader.truthful_iff (Ss2022.reader_settling c) (new_settled rfl rfl rfl rfl) events
  · exact Reader.truthful_iff (Classic.reader_settling classic) (new_settled rfl rfl rfl rfl) events
  · exact TrojanSs.truthful_iff (new_settled rfl rfl rfl rfl) events

end ClashNative.Shadowsocks
