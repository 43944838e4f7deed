import ClashNative.SimpleObfs
import ClashNative.StreamWrites
/-!
# ObfsWrites — writes over simple-obfs, by each family of ciphers

`ShadowsocksStreamHandle::State::write` (`shadowsocks_outbound.cpp`), `LegacyStreamState::write`
(`legacy_stream.cpp`) and `Shadowsocks2022StreamState::write` (`ss2022_stream.cpp`): each of them decides
by itself whether the bytes of a write are wrapped in records of the obfs layer.
-/
namespace ClashNative.ObfsWrites

open LegacyStream (ObfsMode)
open Shadowsocks (kMaxChunkPayload)
open Shadowsocks.Writes (Sealer appendRecord appendRecords appendRecords_ne_nil length_appendRecord)
open Shadowsocks.Writes.Ss2022 (encryptRecord)
open SimpleObfs (TlsFramed makeTlsRecords makeTlsRecords_framed not_framed_self)

abbrev Bytes := List UInt8

inductive WriteError
  | transport | fault | operationAborted | alreadyStarted | operationNotSupported | protocolError | messageSize
  deriving DecidableEq, Repr

/-- `LegacyStreamCipher` under the key of the writes: `update` may fail. -/
structure LegacyCipher (κ : Type) where
  update : κ → Bytes → Option Bytes × κ

inductive Family (κ : Type)
  | classic (sealer : Sealer)
  | legacy (cipher : LegacyCipher κ)
  | ss2022 (sealer : Sealer)

/-- `writeNonce` of the AEAD families, `writeCipher` of the legacy one.  `outstanding` is the write on its
way, by its size; `socket` are the bytes that the socket was given behind the hello, `stream` the bytes of
the cipher. -/
structure State (κ : Type) where
  writeNonce : Bytes
  writeCipher : κ
  writeInProgress : Bool := false
  outstanding : Option Nat := none
  socket : Bytes := []
  stream : Bytes := []
  results : List (Except WriteError Nat) := []

inductive Event
  | write (data : Bytes)
  | complete (error : Option WriteError)
  deriving DecidableEq, Repr

variable {κ : Type}

namespace State

def post (s : State κ) (result : Except WriteError Nat) : State κ := { s with results := s.results ++ [result] }

/-- The carrier of a stream over obfs is the socket: the bytes go as they are. -/
def carrierWrite (s : State κ) (size : Nat) (wire : Bytes) : State κ :=
  { s with writeInProgress := true, outstanding := some size, socket := s.socket ++ wire, stream :=
    s.stream ++ wire }

def asyncWriteTlsObfsRecords (s : State κ) (size : Nat) (wire : Bytes) : State κ :=
  { s with writeInProgress := true, outstanding := some size, socket := s.socket ++
    makeTlsRecords wire, stream := s.stream ++ wire }

end State

/-- `ShadowsocksStreamHandle::State::write`, which does not look at the obfs mode. -/
def writeClassic (sealer : Sealer) (s : State κ) (data : Bytes) : State κ :=
  if s.writeInProgress then s.post (.error .alreadyStarted)
  else if data = [] then s.post (.ok 0)
  else
    match appendRecords (appendRecord sealer) data.length s.writeNonce data with
    | (none, nonce) => { s with writeNonce := nonce }.post (.error .protocolError)
    | (some wire, nonce) => { s with writeNonce := nonce }.carrierWrite data.length wire

def writeLegacy (mode : ObfsMode) (cipher : LegacyCipher κ) (s : State κ) (data : Bytes) : State κ :=
  if s.writeInProgress then s.post (.error .alreadyStarted)
  else if data = [] then s.post (.ok 0)
  else if LegacyStream.intMax < data.length then s.post (.error .messageSize)
  else
    match cipher.update s.writeCipher data with
    | (none, k) => { s with writeCipher := k }.post (.error .operationAborted)
    | (some wire, k) =>
      if mode = .tls then { s with writeCipher := k }.asyncWriteTlsObfsRecords data.length wire
      else { s with writeCipher := k }.carrierWrite data.length wire

def writeSs2022 (mode : ObfsMode) (sealer : Sealer) (s : State κ) (data : Bytes) : State κ :=
  if s.writeInProgress then s.post (.error .alreadyStarted)
  else if data = [] then s.post (.ok 0)
  else
    match appendRecords (encryptRecord sealer) data.length s.writeNonce data with
    | (none, nonce) => { s with writeNonce := nonce }.post (.error .operationNotSupported)
    | (some wire, nonce) =>
      if mode = .tls then { s with writeNonce := nonce }.asyncWriteTlsObfsRecords data.length wire
      else { s with writeNonce := nonce }.carrierWrite data.length wire

/-- The completion of the write on its way; the obfs writers tell of no error but one. -/
def finishWrite (mode : ObfsMode) (family : Family κ) (s : State κ) (error : Option WriteError) : State κ :=
  match s.outstanding with
  | none => s
  | some size =>
    let failure (e : WriteError) : WriteError :=
      match family with
      | .classic _ => e
      | .legacy _ | .ss2022 _ => if mode = .tls then .fault else e
    { s with
      writeInProgress := false
      outstanding := none
      results := s.results ++ [match error with
        | none => .ok size
        | some e => .error (failure e)] }

def step (mode : ObfsMode) (family : Family κ) (s : State κ) : Event → State κ
  | .write data =>
    match family with
    | .classic sealer => writeClassic sealer s data
    | .legacy cipher => writeLegacy mode cipher s data
    | .ss2022 sealer => writeSs2022 mode sealer s data
  | .complete error => finishWrite mode family s error

/-- What the stream has been given to the open: a nonce or a cipher that the request has moved on. -/
def start (nonce : Bytes) (cipher : κ) : State κ := { writeNonce := nonce, writeCipher := cipher }

def run (mode : ObfsMode) (family : Family κ) (s : State κ) (events : List Event) : State κ :=
  Runs.run (step mode family) s events

/-! ### What goes to the socket -/

/-- **A write that the classic stream sends**: no other is in progress, it has bytes, and they can be
sealed. -/
def Sends (family : Family κ) (s : State κ) : Event → Prop
  | .write data =>
    match family with
    | .classic sealer => s.writeInProgress = false ∧ data ≠ [] ∧
        (appendRecords (appendRecord sealer) data.length s.writeNonce data).1.isSome = true
    | .legacy _ | .ss2022 _ => False
  | .complete _ => False

section Steps

variable {s : State κ}

/-- **The two ways in which the bytes of the connection change**, or do not. -/
inductive Puts (s s' : State κ) : Prop
  | nothing (socket : s'.socket = s.socket) (stream : s'.stream = s.stream)
  | framed (wire : Bytes) (socket : s'.socket = s.socket ++
    makeTlsRecords wire) (stream : s'.stream = s.stream ++ wire)

theorem Puts.keeps {s' : State κ} (h : Puts s s') (hframed :
    TlsFramed s.socket s.stream) : TlsFramed s'.socket s'.stream := by
  cases h with
  | nothing hsocket hstream =>
    rw [hsocket, hstream]
    exact hframed
  | framed wire hsocket hstream =>
    rw [hsocket, hstream]
    exact hframed.append (makeTlsRecords_framed wire)

theorem writeLegacy_puts (cipher : LegacyCipher κ) (data : Bytes) : Puts s (writeLegacy .tls cipher s data) := by
  unfold writeLegacy
  by_cases hbusy : s.writeInProgress = true
  · rw [if_pos hbusy]
    exact .nothing rfl rfl
  · rw [if_neg hbusy]
    by_cases hdata : data = []
    · rw [if_pos hdata]
      exact .nothing rfl rfl
    · rw [if_neg hdata]
      by_cases hsize : LegacyStream.intMax < data.length
      · rw [if_pos hsize]
        exact .nothing rfl rfl
      · rw [if_neg hsize]
        rcases cipher.update s.writeCipher data with ⟨_ | wire, k⟩
        · exact .nothing rfl rfl
        · exact .framed wire rfl rfl

theorem writeSs2022_puts (sealer : Sealer) (data : Bytes) : Puts s (writeSs2022 .tls sealer s data) := by
  unfold writeSs2022
  by_cases hbusy : s.writeInProgress = true
  · rw [if_pos hbusy]
    exact .nothing rfl rfl
  · rw [if_neg hbusy]
    by_cases hdata : data = []
    · rw [if_pos hdata]
      exact .nothing rfl rfl
    · rw [if_neg hdata]
      rcases appendRecords (encryptRecord sealer) data.length s.writeNonce data with ⟨_ | wire, nonce⟩
      · exact .nothing rfl rfl
      · exact .framed wire rfl rfl

def Same (s s' : State κ) : Prop := s'.socket = s.socket ∧ s'.stream = s.stream

theorem finishWrite_same (mode : ObfsMode) (family : Family κ) (error : Option WriteError) :
    Same s (finishWrite mode family s error) := by
  unfold finishWrite
  cases s.outstanding <;> exact ⟨rfl, rfl⟩

theorem writeClassic_same (sealer : Sealer) (data : Bytes) (hnot : ¬ Sends (.classic sealer) s (.write data)) :
    Same s (writeClassic sealer s data) := by
  unfold writeClassic
  by_cases hbusy : s.writeInProgress = true
  · rw [if_pos hbusy]
    exact ⟨rfl, rfl⟩
  · rw [if_neg hbusy]
    by_cases hdata : data = []
    · rw [if_pos hdata]
      exact ⟨rfl, rfl⟩
    · rw [if_neg hdata]
      rcases hsealed : appendRecords (appendRecord sealer) data.length s.writeNonce data with ⟨_ | wire, nonce⟩
      · exact ⟨rfl, rfl⟩
      · exact absurd ⟨by simpa using hbusy, hdata, by rw [hsealed]; rfl⟩ hnot

theorem writeClassic_raw (sealer : Sealer) (data : Bytes) (hsends : Sends (.classic sealer) s (.write data)) :
    ∃ wire, wire ≠ [] ∧ (writeClassic sealer s data).socket = s.socket ++ wire ∧
    (writeClassic sealer s data).stream = s.stream ++ wire := by
  obtain ⟨hfree, hdata, hsome⟩ := hsends
  obtain ⟨wire, hwire⟩ := Option.isSome_iff_exists.1 hsome
  have hne : wire ≠ [] := by
    obtain ⟨n, hn⟩ := Nat.exists_eq_succ_of_ne_zero fun hzero => hdata (List.length_eq_zero_iff.1 hzero)
    rw [hn] at hwire
    exact appendRecords_ne_nil (fun _ _ _ _ h => length_appendRecord h) hdata hwire
  refine ⟨wire, hne, ?_⟩
  unfold writeClassic
  rw [if_neg (by simp [hfree]), if_neg hdata]
  rcases hsealed : appendRecords (appendRecord sealer) data.length s.writeNonce data with ⟨sealed, nonce⟩
  rw [hsealed] at hwire
  obtain rfl : sealed = some wire := hwire
  exact ⟨rfl, rfl⟩

end Steps

structure Inv (family : Family κ) (s : State κ) : Prop where
  framed : TlsFramed s.socket s.stream
  classic : ∀ sealer, family = .classic sealer → s.socket = [] ∧ s.stream = []

section Runs

variable {family : Family κ}

theorem step_inv (s : State κ) (e : Event) (h : Inv family s) (hnot : ¬ Sends family s e) : Inv family
    (step .tls family s e) := by
  have hputs : Puts s (step .tls family s e) := by
    cases e with
    | write data =>
      cases family with
      | classic sealer => exact .nothing (writeClassic_same sealer data hnot).1 (writeClassic_same
        sealer data hnot).2
      | legacy cipher => exact writeLegacy_puts cipher data
      | ss2022 sealer => exact writeSs2022_puts sealer data
    | complete error => exact .nothing (finishWrite_same .tls family error).1 (finishWrite_same
      .tls family error).2
  refine ⟨hputs.keeps h.framed, fun sealer hclassic => ?_⟩
  subst hclassic
  obtain ⟨hsocket, hstream⟩ := h.classic sealer rfl
  have hsame : Same s (step .tls (.classic sealer) s e) := by
    cases e with
    | write data => exact writeClassic_same sealer data hnot
    | complete error => exact finishWrite_same .tls (.classic sealer) error
  rw [hsame.1, hsame.2]
  exact ⟨hsocket, hstream⟩

theorem step_unframed (s : State κ) (e : Event) (h : Inv family s) (hsends : ¬ ¬ Sends family s e) :
    ¬ TlsFramed (step .tls family s e).socket (step .tls family s e).stream := by
  have hsends := not_not.1 hsends
  cases e with
  | write data =>
    cases family with
    | classic sealer =>
      obtain ⟨wire, hne, hsocket, hstream⟩ := writeClassic_raw sealer data hsends
      obtain ⟨hsocket₀, hstream₀⟩ := h.classic sealer rfl
      show ¬ TlsFramed (writeClassic sealer s data).socket (writeClassic sealer s data).stream
      rw [hsocket, hstream, hsocket₀, hstream₀]
      exact not_framed_self hne
    | legacy cipher => exact hsends.elim
    | ss2022 sealer => exact hsends.elim
  | complete error => exact hsends.elim

/-- **Behind the hello there are records of the obfs layer, with the cipher's bytes in them, exactly as
long as the classic stream sends nothing**: the legacy stream and the 2022 stream wrap every write. -/
theorem tls_framed_iff (family : Family κ) (nonce : Bytes) (cipher : κ) (events : List Event) :
    (∀ pre, pre <+: events → TlsFramed (run .tls family (start nonce cipher) pre).socket
      (run .tls family (start nonce cipher) pre).stream) ↔
      Runs.Along (step .tls family) (fun s e => ¬ Sends family s e) (start nonce cipher) events :=
  Runs.forall_prefix_iff_along (P := Inv family) (Q := fun s => TlsFramed s.socket s.stream)
    (fun _ h => h.framed) step_inv step_unframed
    ⟨SimpleObfs.TlsFramed.nil, fun _ _ => ⟨rfl, rfl⟩⟩ events

end Runs

theorem length_of_zeros {plaintext encrypted : Bytes} (h : some (plaintext ++
    List.replicate 16 0) = some encrypted) :
    encrypted.length = plaintext.length + 16 := by
  rw [← Option.some.inj h, List.length_append, List.length_replicate]

def exampleSealer : Sealer where
  overhead := 16
  encrypt _ plaintext := some (plaintext ++ List.replicate 16 0)
  encrypt_length _ _ _ h := length_of_zeros h

/-- **One byte over a classic stream**: 35 bytes that are no record. -/
theorem classic_write_unframed :
    (run .tls (.classic exampleSealer) (start (List.replicate 12 0) ()) [.write [5]]).socket.length = 35 ∧
      ¬ TlsFramed (run .tls (.classic exampleSealer) (start (List.replicate 12 0) ()) [.write [5]]).socket
        (run .tls (.classic exampleSealer) (start (List.replicate 12 0) ()) [.write [5]]).stream :=
  ⟨by decide +kernel, not_framed_self (by decide +kernel)⟩

end ClashNative.ObfsWrites
