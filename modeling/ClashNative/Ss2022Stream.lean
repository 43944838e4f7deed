import ClashNative.RecordStreamReads
/-!
# Ss2022Stream — reads of a Shadowsocks 2022 client stream

`Shadowsocks2022StreamState` of `ss2022_stream.cpp`: the salt, the response header with its first payload,
then the records.
-/
namespace ClashNative.Shadowsocks.Ss2022

open List

open LegacyStream (ObfsMode)

def kServerHeader : UInt8 := 1

structure Config (κ : Type) where
  mode : ObfsMode
  method : CipherMethod κ
  requestSalt : Bytes

section Model

variable {κ : Type} (c : Config κ)

def receiveSalt (s : State κ) : State κ := s.readExact c.mode .salt c.method.keySize

def fixedSize : Nat := 1 + 8 + c.requestSalt.length + 2

def receiveResponseFixed (s : State κ) : State κ :=
  match s.readKey with
  | none => s.finishRead (.error .protocolError)
  | some _ => s.readExact c.mode .responseFixed (fixedSize c + c.method.overhead)

def receiveResponseVariable (s : State κ) (variableSize : Nat) : State κ :=
  s.readExact c.mode (.responseVariable variableSize) (variableSize + c.method.overhead)

def receiveRecord (s : State κ) : State κ :=
  match s.readKey with
  | none => s.finishRead (.error .protocolError)
  | some _ => s.readExact c.mode .length (2 + c.method.overhead)

def copyPending (s : State κ) : State κ := if s.readHandler.isSome then s.copy else s

def finishPendingOrReceive (s : State κ) : State κ :=
  if s.readHandler.isSome then if s.pendingPlaintext ≠ [] then copyPending s else receiveRecord c s else s

/-! ### What `read_exact` goes on to -/

def saltReceived (s : State κ) (salt : Bytes) : State κ :=
  match c.method.deriveKey salt with
  | none => s.finishRead (.error .authenticationError)
  | some key => receiveResponseFixed c { s with readKey := some key }

def fixedMatches (fixed : Bytes) : Prop :=
  fixed.length = fixedSize c ∧ fixed.getD 0 0 = kServerHeader ∧
  (fixed.drop (1 + 8)).take c.requestSalt.length = c.requestSalt

instance (fixed : Bytes) : Decidable (fixedMatches c fixed) := inferInstanceAs (Decidable (_ ∧ _ ∧ _))

def fixedReceived (s : State κ) (key : κ) (encrypted : Bytes) : State κ :=
  match c.method.decrypt key s.readNonce encrypted with
  | none => s.incrementReadNonce.finishRead (.error .authenticationError)
  | some fixed =>
    if ¬ fixedMatches c fixed then s.incrementReadNonce.finishRead (.error .authenticationError)
    else
      let variableSize := Wire.getU16 (fixed.drop (fixedSize c - 2))
      if kMaxChunkPayload < variableSize then s.incrementReadNonce.finishRead (.error .protocolError)
      else if variableSize = 0 then finishPendingOrReceive c
        { s.incrementReadNonce with responseHeaderReady := true }
      else receiveResponseVariable c s.incrementReadNonce variableSize

def variableReceived (s : State κ) (key : κ) (variableSize : Nat) (encrypted : Bytes) : State κ :=
  match c.method.decrypt key s.readNonce encrypted with
  | none => s.incrementReadNonce.finishRead (.error .authenticationError)
  | some plaintext =>
    if plaintext.length ≠ variableSize then s.incrementReadNonce.finishRead (.error .authenticationError)
    else finishPendingOrReceive c { s.incrementReadNonce
      with pendingPlaintext := plaintext, responseHeaderReady := true }

def lengthReceived (s : State κ) (key : κ) (encrypted : Bytes) : State κ :=
  match c.method.decrypt key s.readNonce encrypted with
  | none => s.incrementReadNonce.finishRead (.error .authenticationError)
  | some length =>
    if length.length ≠ 2 then s.incrementReadNonce.finishRead (.error .authenticationError)
    else if Wire.getU16 length = 0 ∨ kMaxChunkPayload < Wire.getU16 length then
      s.incrementReadNonce.finishRead (.error .protocolError)
    else s.incrementReadNonce.readExact c.mode (.payload (Wire.getU16 length))
      (Wire.getU16 length + c.method.overhead)

def payloadReceived (s : State κ) (key : κ) (encrypted : Bytes) : State κ :=
  match c.method.decrypt key s.readNonce encrypted with
  | none => s.incrementReadNonce.finishRead (.error .authenticationError)
  | some plaintext => copyPending { s.incrementReadNonce with pendingPlaintext := plaintext }

def received (s : State κ) (stage : Stage) (bytes : Bytes) : State κ :=
  match stage, s.readKey with
  | .salt, _ => saltReceived c s bytes
  | .responseFixed, some key => fixedReceived c s key bytes
  | .responseVariable variableSize, some key => variableReceived c s key variableSize bytes
  | .length, some key => lengthReceived c s key bytes
  | .payload _, some key => payloadReceived c s key bytes
  | _, none => s

/-- What `read` starts when the obfs response is there. -/
def receive (s : State κ) : State κ :=
  if s.readKey.isNone then receiveSalt c s
  else if !s.responseHeaderReady then receiveResponseFixed c s
  else receiveRecord c s

def reader : Reader κ where
  mode := c.mode
  obfsFailure := .fault
  receiveSalt := receiveSalt c
  receive := receive c
  received := received c

/-! ### The server -/

/-- The response header says when it was made, and how long the first payload is. -/
structure Server extends Shadowsocks.Server c.method where
  timestamp : Bytes
  head : Bytes
  timestamp_length : timestamp.length = 8
  head_length : head.length ≤ kMaxChunkPayload

def zeroNonce : Bytes := List.replicate 12 0

namespace Server

variable {c} (server : Server c)

def fixed : Bytes := kServerHeader :: (server.timestamp ++ (c.requestSalt ++ Wire.putU16 server.head.length))

def afterFixed (nonce : Bytes) : Bytes :=
  if server.head = [] then c.method.records incrementNonce server.key nonce server.payloads
  else c.method.encrypt server.key nonce server.head ++ c.method.records incrementNonce server.key
    (incrementNonce nonce) server.payloads

def wire : Bytes :=
  server.salt ++ (c.method.encrypt server.key zeroNonce server.fixed ++ server.afterFixed
    (incrementNonce zeroNonce))

def plaintext : Bytes := server.head ++ server.payloads.flatten

end Server

/-- A new stream; without an obfs layer `initial` bytes are there already. -/
def start (server : Server c) (initial : Nat) : State κ where
  initialWire := if c.mode = .none then server.wire.take initial else []
  obfsResponseReady := c.mode == .none
  readNonce := zeroNonce
  wire := if c.mode = .none then server.wire.drop initial else server.wire

def run (server : Server c) (initial : Nat) (events : List Event) : State κ :=
  Runs.run (reader c).step (start c server initial) events

end Model

/-! ## What comes is what the server sends -/

section Reads

variable {κ : Type} {c : Config κ} (server : Server c)

def Ahead : Next κ := fun s stage size rest left =>
  match stage with
  | .salt => s.readKey = none ∧ s.readNonce = zeroNonce ∧ s.responseHeaderReady = false ∧
    size = c.method.keySize ∧ rest = server.wire ∧
    left = server.plaintext
  | .responseFixed => s.readKey = some server.key ∧ s.readNonce = zeroNonce ∧ s.responseHeaderReady = false ∧
    size = fixedSize c + c.method.overhead ∧
    rest = c.method.encrypt server.key zeroNonce server.fixed ++ server.afterFixed
    (incrementNonce zeroNonce) ∧ left = server.plaintext
  | .responseVariable n => s.readKey = some server.key ∧ s.responseHeaderReady = false ∧
    size = n + c.method.overhead ∧ server.head.length = n ∧
    0 < n ∧ left = server.plaintext ∧ rest = c.method.encrypt server.key s.readNonce server.head ++
      c.method.records incrementNonce server.key (incrementNonce s.readNonce) server.payloads
  | stage => s.responseHeaderReady = true ∧ RecordsAhead c.method server.key s size rest left stage

def entry (c : Config κ) (s : State κ) : Stage × Nat :=
  if s.readKey.isNone then (.salt, c.method.keySize)
  else if !s.responseHeaderReady then (.responseFixed, fixedSize c + c.method.overhead)
  else (.length, 2 + c.method.overhead)

variable {server} {rest left : Bytes} {s : State κ} {size : Nat} {stage : Stage} {s' : State κ}

theorem ahead_frame (hkey : s'.readKey = s.readKey)
    (hnonce : s'.readNonce = s.readNonce) (hheader : s'.responseHeaderReady = s.responseHeaderReady)
    (h : Ahead server s stage size rest left) : Ahead server s' stage size rest left := by
  cases stage with
  | salt | responseFixed | responseVariable n =>
    unfold Ahead at h ⊢
    rw [hkey, hnonce, hheader]
    exact h
  | length | payload n => exact ⟨hheader.trans h.1, recordsAhead_frame hkey hnonce h.2⟩

theorem length_fixed : server.fixed.length = fixedSize c := by
  unfold Server.fixed fixedSize
  rw [length_cons, length_append, length_append, server.timestamp_length, Wire.length_putU16]
  omega

theorem ahead_short (h : Ahead server s stage size rest left)
    (hshort : rest.length < size) : rest = [] ∧ left = [] := by
  cases stage with
  | salt =>
    obtain ⟨-, -, -, rfl, rfl, -⟩ := h
    rw [Server.wire, length_append, server.salt_length] at hshort
    omega
  | responseFixed =>
    obtain ⟨-, -, -, rfl, rfl, -⟩ := h
    rw [length_append, c.method.encrypt_length, length_fixed] at hshort
    omega
  | responseVariable n =>
    obtain ⟨-, -, rfl, hn, -, -, rfl⟩ := h
    rw [length_append, c.method.encrypt_length, hn] at hshort
    omega
  | length | payload n => exact recordsAhead_short h.2 hshort

variable {key : κ}

theorem readExact_fixed (hkey : s.readKey = some key) :
    receiveResponseFixed c s = s.readExact c.mode .responseFixed (fixedSize c + c.method.overhead) := by
  unfold receiveResponseFixed
  rw [hkey]

theorem readExact_record (hkey : s.readKey = some key) :
    receiveRecord c s = s.readExact c.mode .length (2 + c.method.overhead) := by
  unfold receiveRecord
  rw [hkey]

theorem fixed_matches : fixedMatches c server.fixed := by
  refine ⟨length_fixed, rfl, ?_⟩
  show ((server.timestamp ++ (c.requestSalt ++ Wire.putU16 server.head.length)).drop 8).take
    c.requestSalt.length = c.requestSalt
  rw [← server.timestamp_length, drop_left, take_left]

theorem fixed_size : Wire.getU16 (server.fixed.drop (fixedSize c - 2)) = server.head.length := by
  have hlt : server.head.length < 65536 := by
    have hmax : kMaxChunkPayload < 65536 := by decide
    have := server.head_length
    omega
  have hfixed : server.fixed = (kServerHeader :: (server.timestamp ++ c.requestSalt)) ++
    Wire.putU16 server.head.length := by
    unfold Server.fixed
    rw [cons_append, append_assoc]
  have hlength : (kServerHeader :: (server.timestamp ++ c.requestSalt)).length = fixedSize c - 2 := by
    rw [length_cons, length_append, server.timestamp_length]
    unfold fixedSize
    omega
  rw [hfixed, ← hlength, drop_left]
  exact Wire.getU16_putU16 hlt

def Goes (server : Server c) (s : State κ) (rest left : Bytes) (s' : State κ) : Prop := ∃ key nonce ready,
  (∃ stage' size', 0 < size' ∧ Ahead server (s.turned key nonce ready) stage' size' rest left ∧
    s' = (s.turned key nonce ready).readExact c.mode stage' size') ∨
  (∃ p left', left = p ++ left' ∧
    Ahead server (s.turned key nonce ready) (entry c (s.turned key nonce ready)).1
    (entry c (s.turned key nonce ready)).2 rest left' ∧
    s' = if s.readHandler.isSome then ({ s.turned key nonce ready with pendingPlaintext := p }).copy
      else { s.turned key nonce ready with pendingPlaintext := p })

variable {bytes : Bytes}

theorem salt_continues (h : Ahead server s .salt bytes.length (bytes ++ rest) left) :
    Continues c.mode (Ahead server) s rest left (saltReceived c s bytes) := by
  obtain ⟨-, hnonce, hheader, hsize, hrest, hleft⟩ := h
  obtain ⟨rfl, htail⟩ := append_inj hrest (hsize.trans server.salt_length.symm)
  refine ⟨some server.key, s.readNonce, s.responseHeaderReady, .responseFixed,
    fixedSize c + c.method.overhead, ?_, ?_, ?_⟩
  · unfold fixedSize
    omega
  · exact ⟨rfl, hnonce, hheader, rfl, htail, hleft⟩
  · unfold saltReceived
    rw [server.derive_salt]
    exact readExact_fixed rfl

theorem Goes.of_continues (h : Continues c.mode (Ahead server) s rest left s') : Goes server s rest left s' := by
  obtain ⟨key, nonce, ready, hnext⟩ := h
  exact ⟨key, nonce, ready, .inl hnext⟩

theorem finish_goes {nonce : Bytes} (payload : Bytes) (hkey : s.readKey = some server.key)
    (hrest : rest = c.method.records incrementNonce server.key nonce server.payloads)
    (hpending : s.pendingPlaintext = [] ∨ payload ≠ []) :
    Goes server s rest (payload ++ server.payloads.flatten)
      (finishPendingOrReceive c { s.turned s.readKey nonce true with pendingPlaintext := payload }) := by
  have hahead : Ahead server (s.turned s.readKey nonce true) .length
    (2 + c.method.overhead) rest server.payloads.flatten :=
    ⟨rfl, hkey, rfl, server.payloads, server.payload_size, hrest, rfl⟩
  have hentry : entry c (s.turned s.readKey nonce true) = (.length, 2 + c.method.overhead) := by
    rw [hkey]
    rfl
  refine ⟨s.readKey, nonce, true, ?_⟩
  by_cases hparked : s.readHandler.isSome = true
  · have hfinish : finishPendingOrReceive c { s.turned s.readKey nonce true with pendingPlaintext := payload } =
        if payload ≠ [] then copyPending { s.turned s.readKey nonce true with pendingPlaintext := payload }
        else receiveRecord c { s.turned s.readKey nonce true with pendingPlaintext := payload } := if_pos hparked
    rw [hfinish]
    split
    · refine .inr ⟨payload, _, rfl, ?_, ?_⟩
      · rw [hentry]
        exact hahead
      · exact if_pos hparked
    · rename_i hnil
      have hnil : payload = [] := not_not.1 hnil
      subst hnil
      have hsame : ({ s.turned s.readKey nonce true with pendingPlaintext := [] } : State κ) =
        s.turned s.readKey nonce true := by
        rw [← hpending.resolve_right (not_not.2 rfl)]
        rfl
      refine .inl ⟨.length, 2 + c.method.overhead, by omega, hahead, ?_⟩
      rw [hsame]
      exact readExact_record hkey
  · refine .inr ⟨payload, _, rfl, ?_, ?_⟩
    · rw [hentry]
      exact hahead
    · rw [if_neg hparked]
      exact if_neg hparked

theorem fixedReceived_eq (h : Ahead server s .responseFixed bytes.length (bytes ++ rest) left) :
    rest = server.afterFixed (incrementNonce s.readNonce) ∧ fixedReceived c s server.key bytes =
      if server.head.length = 0 then finishPendingOrReceive c
      { s.incrementReadNonce with responseHeaderReady := true }
      else receiveResponseVariable c s.incrementReadNonce server.head.length := by
  obtain ⟨-, hnonce, -, hsize, hrest, -⟩ := h
  obtain ⟨rfl, htail⟩ := append_inj hrest (by rw [hsize, c.method.encrypt_length, length_fixed])
  have hdecrypt : c.method.decrypt server.key s.readNonce
      (c.method.encrypt server.key zeroNonce server.fixed) = some server.fixed := by
    rw [hnonce]
    exact c.method.decrypt_encrypt _ _ _
  have hbound := server.head_length
  refine ⟨by rw [htail, hnonce], ?_⟩
  unfold fixedReceived
  rw [hdecrypt]
  dsimp only
  rw [if_neg (not_not.2 fixed_matches), fixed_size, if_neg (by omega)]

theorem variable_continues (h : Ahead server s .responseFixed bytes.length (bytes ++ rest) left)
    (hpos : ¬ server.head.length = 0) :
    Continues c.mode (Ahead server) s rest left
    (receiveResponseVariable c s.incrementReadNonce server.head.length) := by
  have htail := (fixedReceived_eq h).1
  have hne : server.head ≠ [] := fun hnil => hpos (by rw [hnil]; rfl)
  rw [Server.afterFixed, if_neg hne] at htail
  exact ⟨s.readKey, incrementNonce s.readNonce, s.responseHeaderReady, .responseVariable server.head.length,
    server.head.length + c.method.overhead,
    by omega, ⟨h.1, h.2.2.1, rfl, rfl, by omega, h.2.2.2.2.2, htail⟩, rfl⟩

theorem fixed_goes (h : Ahead server s .responseFixed bytes.length (bytes ++ rest) left)
    (hpending : s.pendingPlaintext = []) : Goes server s rest left (fixedReceived c s server.key bytes) := by
  obtain ⟨htail, heq⟩ := fixedReceived_eq h
  rw [heq]
  split
  · rename_i hzero
    have hnil : server.head = [] := length_eq_zero_iff.1 hzero
    have hall : left = [] ++ server.payloads.flatten := by rw [h.2.2.2.2.2, Server.plaintext, hnil]
    rw [Server.afterFixed, if_pos hnil] at htail
    rw [hall]
    have hgoes := finish_goes [] h.1 htail (.inl hpending)
    have hsame :
        ({ s.turned s.readKey (incrementNonce s.readNonce) true with pendingPlaintext := [] } : State κ) =
        { s.incrementReadNonce with responseHeaderReady := true } := by
      rw [← hpending]
      rfl
    rwa [hsame] at hgoes
  · exact Goes.of_continues (variable_continues h ‹_›)

theorem fixed_continues (h : Ahead server s .responseFixed bytes.length (bytes ++ rest) left)
    (hpending : s.pendingPlaintext = []) (hhandler : s.readHandler.isSome = true) :
    Continues c.mode (Ahead server) s rest left (fixedReceived c s server.key bytes) := by
  obtain ⟨htail, heq⟩ := fixedReceived_eq h
  rw [heq]
  split
  · rename_i hzero
    have hnil : server.head = [] := length_eq_zero_iff.1 hzero
    have hall : left = server.payloads.flatten := by rw [h.2.2.2.2.2, Server.plaintext, hnil, nil_append]
    rw [Server.afterFixed, if_pos hnil] at htail
    have hfinish : finishPendingOrReceive c { s.incrementReadNonce with responseHeaderReady := true } =
        receiveRecord c { s.incrementReadNonce with responseHeaderReady := true } :=
      (if_pos hhandler).trans (if_neg (not_not.2 hpending))
    rw [hfinish]
    exact ⟨s.readKey, incrementNonce s.readNonce, true, .length, 2 + c.method.overhead, by omega,
      ⟨rfl, h.1, rfl, server.payloads, server.payload_size, htail, hall⟩, readExact_record h.1⟩
  · exact variable_continues h ‹_›

variable {n : Nat}

theorem variable_goes
    (h : Ahead server s (.responseVariable n) bytes.length (bytes ++ rest) left) :
    Goes server s rest left (variableReceived c s server.key n bytes) := by
  obtain ⟨hkey, -, hsize, hn, hpos, hleft, hrest⟩ := h
  obtain ⟨rfl, htail⟩ := append_inj hrest (by rw [hsize, c.method.encrypt_length, hn])
  unfold variableReceived
  rw [c.method.decrypt_encrypt]
  dsimp only
  rw [if_neg (not_not.2 hn), hleft]
  refine finish_goes server.head hkey htail (.inr ?_)
  intro hnil
  rw [hnil, length_nil] at hn
  omega

theorem length_continues (h : Ahead server s .length bytes.length (bytes ++ rest) left) :
    Continues c.mode (Ahead server) s rest left (lengthReceived c s server.key bytes) := by
  obtain ⟨n, hdecrypt, hget, hpos, hle, hahead⟩ := length_whole h.2
  unfold lengthReceived
  rw [hdecrypt]
  dsimp only
  rw [if_neg (not_not.2 (Wire.length_putU16 n)), hget, if_neg (by omega)]
  exact ⟨s.readKey, incrementNonce s.readNonce, s.responseHeaderReady, .payload n,
    n + c.method.overhead, by omega, ⟨h.1, hahead⟩, rfl⟩

theorem payload_feeds (h : Ahead server s (.payload n) bytes.length (bytes ++ rest) left) :
    Feeds (Ahead server) (entry c) s rest left (payloadReceived c s server.key bytes) := by
  obtain ⟨payload, left', hdecrypt, hne, hleft, hahead⟩ := payload_whole h.2
  have hkey : s.readKey = some server.key := hahead.1
  unfold payloadReceived
  rw [hdecrypt]
  refine ⟨s.readKey, incrementNonce s.readNonce, s.responseHeaderReady, payload, left', hne, hleft, ?_, rfl⟩
  have hentry : entry c (s.turned s.readKey (incrementNonce s.readNonce) s.responseHeaderReady) =
    (.length, 2 + c.method.overhead) := by
    rw [hkey, h.1]
    rfl
  rw [hentry]
  exact ⟨h.1, hahead⟩

theorem payload_goes (h : Ahead server s (.payload n) bytes.length (bytes ++ rest) left) :
    Goes server s rest left (payloadReceived c s server.key bytes) := by
  obtain ⟨key, nonce, ready, p, left', -, hfed⟩ := payload_feeds h
  exact ⟨key, nonce, ready, .inr ⟨p, left', hfed⟩⟩

theorem variable_feeds
    (h : Ahead server s (.responseVariable n) bytes.length (bytes ++ rest) left)
    (hhandler : s.readHandler.isSome = true) :
    Feeds (Ahead server) (entry c) s rest left (variableReceived c s server.key n bytes) := by
  obtain ⟨hkey, -, hsize, hn, hpos, hleft, hrest⟩ := h
  obtain ⟨rfl, htail⟩ := append_inj hrest (by rw [hsize, c.method.encrypt_length, hn])
  have hne : server.head ≠ [] := length_pos_iff.1 (by omega)
  refine ⟨s.readKey, incrementNonce s.readNonce, true, server.head, server.payloads.flatten, hne, hleft, ?_, ?_⟩
  · have hentry : entry c (s.turned s.readKey
      (incrementNonce s.readNonce) true) = (.length, 2 + c.method.overhead) := by
      rw [hkey]
      rfl
    rw [hentry]
    exact ⟨rfl, hkey, rfl, server.payloads, server.payload_size, htail, rfl⟩
  · unfold variableReceived
    rw [c.method.decrypt_encrypt]
    dsimp only
    rw [if_neg (not_not.2 hn), if_pos hhandler]
    exact (if_pos hhandler).trans ((if_pos hne).trans (if_pos hhandler))

theorem reader_lawful : (reader c).Lawful (Ahead server) (entry c) where
  frame := ahead_frame
  entry_frame {s s'} hkey hheader := by
    unfold entry
    rw [hkey, hheader]
  entry_pos s := by
    have hpos := c.method.keySize_pos
    unfold entry fixedSize
    split
    · exact hpos
    · split
      · omega
      · omega
  short := ahead_short
  receive s := by
    show receive c s = _
    unfold receive entry
    cases hkey : s.readKey with
    | none => rfl
    | some key =>
      rw [readExact_fixed hkey, readExact_record hkey]
      cases s.responseHeaderReady <;> rfl
  receiveSalt s hkey := by
    show receiveSalt c s = _
    unfold receiveSalt entry
    rw [hkey]
    rfl
  received {s stage bytes rest left} h hpending _ := by
    show Goes server s rest left (received c s stage bytes)
    cases stage with
    | salt => exact Goes.of_continues (salt_continues h)
    | responseFixed =>
      unfold received
      rw [h.1]
      exact fixed_goes h hpending
    | responseVariable n =>
      unfold received
      rw [h.1]
      exact variable_goes h
    | length =>
      unfold received
      rw [h.2.1]
      exact Goes.of_continues (length_continues h)
    | payload n =>
      unfold received
      rw [h.2.1]
      exact payload_goes h

theorem reader_prompt : (reader c).Prompt (Ahead server) (entry c) where
  toLawful := reader_lawful
  prompt {s stage bytes rest left} h hpending hhandler _ := by
    show Continues c.mode (Ahead server) s rest left (received c s stage bytes) ∨
      Feeds (Ahead server) (entry c) s rest left (received c s stage bytes)
    cases stage with
    | salt => exact .inl (salt_continues h)
    | responseFixed =>
      unfold received
      rw [h.1]
      exact .inl (fixed_continues h hpending hhandler)
    | responseVariable n =>
      unfold received
      rw [h.1]
      exact .inr (variable_feeds h hhandler)
    | length =>
      unfold received
      rw [h.2.1]
      exact .inl (length_continues h)
    | payload n =>
      unfold received
      rw [h.2.1]
      exact .inr (payload_feeds h)

theorem start_inv (server : Server c) (initial : Nat) :
    Inv (Ahead server) (entry c) server.plaintext (start c server initial) :=
  opened_inv rfl ⟨rfl, rfl, rfl, rfl, rfl, rfl⟩

end Reads

end ClashNative.Shadowsocks.Ss2022
