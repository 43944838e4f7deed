import ClashNative.RecordStreamReads
/-!
# ShadowsocksStream — reads of a classic AEAD stream

`ShadowsocksStreamHandle::State` of `shadowsocks_outbound.cpp`: the salt, then the records.
-/
namespace ClashNative.Shadowsocks.Classic

open LegacyStream (ObfsMode)

structure Config (κ : Type) where
  mode : ObfsMode
  method : CipherMethod κ

variable {κ : Type} (c : Config κ)

def receiveSalt (s : State κ) : State κ := s.readExact c.mode .salt c.method.keySize

def receiveLength (s : State κ) : State κ := s.readExact c.mode .length (2 + c.method.overhead)

def receivePayload (s : State κ) (payloadSize : Nat) : State κ :=
  s.readExact c.mode (.payload payloadSize) (payloadSize + c.method.overhead)

def copyPending (s : State κ) : State κ := if s.readInProgress then s.copy else s

/-! ### What `read_exact` goes on to -/

def saltReceived (s : State κ) (salt : Bytes) : State κ :=
  match c.method.deriveKey salt with
  | none => s.finishRead (.error .authenticationError)
  | some key => receiveLength c { s with readKey := some key }

def lengthReceived (s : State κ) (key : κ) (encrypted : Bytes) : State κ :=
  match c.method.decrypt key s.readNonce encrypted with
  | none => s.finishRead (.error .authenticationError)
  | some length =>
    if length.length ≠ 2 then s.finishRead (.error .authenticationError)
    else if Wire.getU16 length = 0 ∨ kMaxChunkPayload < Wire.getU16 length then
      s.incrementReadNonce.finishRead (.error .protocolError)
    else receivePayload c s.incrementReadNonce (Wire.getU16 length)

def payloadReceived (s : State κ) (key : κ) (encrypted : Bytes) : State κ :=
  match c.method.decrypt key s.readNonce encrypted with
  | none => s.finishRead (.error .authenticationError)
  | some plaintext =>
    if plaintext = [] then s.finishRead (.error .authenticationError)
    else copyPending { s.incrementReadNonce with pendingPlaintext := plaintext }

def received (s : State κ) (stage : Stage) (bytes : Bytes) : State κ :=
  match stage, s.readKey with
  | .salt, _ => saltReceived c s bytes
  | .length, some key => lengthReceived c s key bytes
  | .payload _, some key => payloadReceived c s key bytes
  | _, _ => s

def reader : Reader κ where
  mode := c.mode
  obfsFailure := .protocolError
  receiveSalt := receiveSalt c
  receive s := if s.readKey.isNone then receiveSalt c s else receiveLength c s
  received := received c

variable {c} (server : Server c.method)

def zeroNonce (c : Config κ) : Bytes := List.replicate c.method.nonceSize 0

def wire : Bytes := server.salt ++ c.method.records incrementNonce server.key (zeroNonce c) server.payloads

/-- A new stream; without an obfs layer `initial` bytes are there already. -/
def start (server : Server c.method) (initial : Nat) : State κ where
  initialWire := if c.mode = .none then (wire server).take initial else []
  obfsResponseReady := c.mode == .none
  readNonce := zeroNonce c
  wire := if c.mode = .none then (wire server).drop initial else wire server

def run (server : Server c.method) (initial : Nat) (events : List Event) : State κ :=
  Runs.run (reader c).step (start server initial) events

/-! ## What comes is what the server sends -/

def Ahead : Next κ := fun s stage size rest left =>
  match stage with
  | .salt => s.readKey = none ∧ s.readNonce = zeroNonce c ∧ size = c.method.keySize ∧ rest = wire server ∧
    left = server.payloads.flatten
  | stage => RecordsAhead c.method server.key s size rest left stage

def entry (c : Config κ) (s : State κ) : Stage × Nat :=
  if s.readKey.isNone then (.salt, c.method.keySize) else (.length, 2 + c.method.overhead)

variable {server} {rest left : Bytes} {stage : Stage} {s : State κ} {size : Nat}

theorem ahead_frame {s' : State κ} (hkey : s'.readKey = s.readKey)
    (hnonce : s'.readNonce = s.readNonce) (h : Ahead server s stage size rest left) :
    Ahead server s' stage size rest left := by
  cases stage with
  | salt =>
    unfold Ahead at h ⊢
    rw [hkey, hnonce]
    exact h
  | responseFixed | responseVariable n => exact h
  | length =>
    have hrecords : RecordsAhead c.method server.key s size rest left .length := h
    exact recordsAhead_frame hkey hnonce hrecords
  | payload n =>
    have hrecords : RecordsAhead c.method server.key s size rest left (.payload n) := h
    exact recordsAhead_frame hkey hnonce hrecords

theorem ahead_short (h : Ahead server s stage size rest left)
    (hshort : rest.length < size) : rest = [] ∧ left = [] := by
  cases stage with
  | salt =>
    obtain ⟨-, -, rfl, rfl, -⟩ := h
    rw [wire, List.length_append, server.salt_length] at hshort
    omega
  | responseFixed | responseVariable n => exact h.elim
  | length =>
    have hrecords : RecordsAhead c.method server.key s size rest left .length := h
    exact recordsAhead_short hrecords hshort
  | payload n =>
    have hrecords : RecordsAhead c.method server.key s size rest left (.payload n) := h
    exact recordsAhead_short hrecords hshort

variable {bytes : Bytes}

theorem salt_continues (h : Ahead server s .salt bytes.length (bytes ++ rest) left) :
    Continues c.mode (Ahead server) s rest left (saltReceived c s bytes) := by
  obtain ⟨-, hnonce, hsize, hrest, hleft⟩ := h
  obtain ⟨rfl, htail⟩ := List.append_inj hrest (hsize.trans server.salt_length.symm)
  refine ⟨some server.key, s.readNonce, s.responseHeaderReady, .length, 2 + c.method.overhead, by omega, ?_, ?_⟩
  · refine ⟨rfl, rfl, server.payloads, server.payload_size, ?_, hleft⟩
    rw [htail]
    show _ = c.method.records incrementNonce server.key s.readNonce server.payloads
    rw [hnonce]
  · unfold saltReceived
    rw [server.derive_salt]
    rfl

theorem length_continues (h : Ahead server s .length bytes.length (bytes ++ rest) left) :
    Continues c.mode (Ahead server) s rest left (lengthReceived c s server.key bytes) := by
  obtain ⟨n, hdecrypt, hget, hpos, hle, hahead⟩ := length_whole h
  unfold lengthReceived
  rw [hdecrypt]
  dsimp only
  rw [if_neg (not_not.2 (Wire.length_putU16 n)), hget, if_neg (by omega)]
  exact ⟨s.readKey, incrementNonce s.readNonce, s.responseHeaderReady, .payload n,
    n + c.method.overhead, by omega, hahead, rfl⟩

theorem payload_feeds {n : Nat} (h : Ahead server s (.payload n) bytes.length (bytes ++ rest) left)
    (hparked : s.readHandler.isSome = s.readInProgress) :
    Feeds (Ahead server) (entry c) s rest left (payloadReceived c s server.key bytes) := by
  obtain ⟨payload, left', hdecrypt, hne, hleft, hahead⟩ := payload_whole h
  refine ⟨s.readKey, incrementNonce s.readNonce, s.responseHeaderReady, payload, left', hne, hleft, ?_, ?_⟩
  · have hentry : entry c (s.turned s.readKey (incrementNonce s.readNonce) s.responseHeaderReady) =
      (.length, 2 + c.method.overhead) := by
      rw [h.1]
      rfl
    rw [hentry]
    exact hahead
  · unfold payloadReceived
    rw [hdecrypt]
    dsimp only
    rw [if_neg hne, hparked]
    rfl

theorem received_onward (h : Ahead server s stage bytes.length (bytes ++ rest) left)
    (hparked : s.readHandler.isSome = s.readInProgress) :
    Continues c.mode (Ahead server) s rest left (received c s stage bytes) ∨
      Feeds (Ahead server) (entry c) s rest left (received c s stage bytes) := by
  cases stage with
  | salt => exact .inl (salt_continues h)
  | responseFixed => exact h.elim
  | responseVariable n => exact h.elim
  | length =>
    unfold received
    rw [h.1]
    exact .inl (length_continues h)
  | payload n =>
    unfold received
    rw [h.1]
    exact .inr (payload_feeds h hparked)

theorem reader_lawful : (reader c).Lawful (Ahead server) (entry c) where
  frame hkey hnonce _ := ahead_frame hkey hnonce
  entry_frame {s s'} hkey _ := by
    unfold entry
    rw [hkey]
  entry_pos s := by
    have hpos := c.method.keySize_pos
    unfold entry
    split
    · exact hpos
    · omega
  short := ahead_short
  receive s := by
    show (if s.readKey.isNone then receiveSalt c s else receiveLength c s) = _
    unfold entry
    split <;> rfl
  receiveSalt s hkey := by
    show receiveSalt c s = _
    unfold receiveSalt entry
    rw [hkey]
    rfl
  received {s stage bytes rest left} h _ hparked := by
    rcases received_onward h hparked with ⟨key, nonce, ready, hnext⟩ | ⟨key, nonce, ready, p, left', -, hfed⟩
    · exact ⟨key, nonce, ready, .inl hnext⟩
    · exact ⟨key, nonce, ready, .inr ⟨p, left', hfed⟩⟩

theorem reader_prompt : (reader c).Prompt (Ahead server) (entry c) where
  toLawful := reader_lawful
  prompt h _ hhandler hprogress := received_onward h (hhandler.trans hprogress.symm)

theorem start_inv (server : Server c.method) (initial : Nat) :
    Inv (Ahead server) (entry c) server.payloads.flatten (start server initial) :=
  opened_inv rfl ⟨rfl, rfl, rfl, rfl, rfl⟩

end ClashNative.Shadowsocks.Classic
