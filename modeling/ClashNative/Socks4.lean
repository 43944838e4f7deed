import ClashNative.CoreTypes
import ClashNative.Segments
/-!
# Socks4 — the SOCKS4/4a inbound handshake

`ProxySession::run_handshake` from the protocol byte on, `run_socks4_request`, `read_socks4_cstring`,
`open_socks4_target` and the start of the relay.  The client socket is its unread input, cut as it
arrives.
-/
namespace ClashNative.Socks4

open Wire

def kSocks4Version : UInt8 := 0x04
def kSocks4Connect : UInt8 := 0x01
def kSocks4Rejected : UInt8 := 0x5b
def kSocks4IdentdMismatched : UInt8 := 0x5d
def kSocks4MaximumStringLength : Nat := 256

/-- `Socks5User`; a SOCKS4 user is one whose password is empty. -/
structure Socks5User where
  username : List UInt8
  password : List UInt8
  deriving DecidableEq, Repr

inductive ProxyInboundMode
  | mixed | http | socks
  deriving DecidableEq, Repr

/-- The fields of `ProxyServer` the handshake reads. -/
structure ProxyServer where
  inboundMode : ProxyInboundMode
  socks5Users : List Socks5User

/-- The fields of `ProxySession` the handshake reads and writes.  A read past the last piece of `client`
fails when `readFails` and meets the end of the stream otherwise. -/
structure ProxySession where
  client : Segments UInt8
  readFails : Bool
  socks4Request : Fin 8 → UInt8 := fun _ => 0
  socks4Payload : List UInt8 := []
  socks4UserId : List UInt8 := []
  socks4Domain : List UInt8 := []
  authenticatedUser : Option (List UInt8) := none
  httpInitialData : List UInt8 := []

/-- What a handshake ends in: the session closed, a refusing reply after which it closes, or
`open_target`. `otherProtocol`: the protocol byte was not SOCKS4's. -/
inductive Verdict
  | closed
  | reply (status : UInt8)
  | openTarget (target : Destination)
  | otherProtocol

def isSocks4aAddress (request : Fin 8 → UInt8) : Bool :=
  request 4 == 0 && request 5 == 0 && request 6 == 0 && request 7 != 0

def socks4Port (request : Fin 8 → UInt8) : UInt16 := ((request 2).toUInt16 <<< 8) ||| (request 3).toUInt16

def nullPosition (payload : List UInt8) : Option Nat := payload.findIdx? (· == 0)

def stringTooLong : Error := ⟨.protocolFraming, "SOCKS4 string too long"⟩
def handshakeReadFailed : Error := ⟨.transportIo, "SOCKS4 handshake read failed"⟩

/-- The loop of `read_socks4_cstring`.  Every turn adds a byte to a payload of at most 257, so `fuel` 258
is enough (`readSocks4CstringLoop_eq` holds of every fuel from there on). -/
def readSocks4CstringLoop : Nat → ProxySession → Except Error (List UInt8 × ProxySession)
  | 0, _ => .error stringTooLong
  | fuel + 1, self =>
    match nullPosition self.socks4Payload with
    | some position =>
      .ok (self.socks4Payload.take position,
        { self with socks4Payload := self.socks4Payload.drop (position + 1) })
    | none =>
      if self.socks4Payload.length > kSocks4MaximumStringLength then .error stringTooLong
      else match self.client.readSome 1024 with
        -- the end of the stream reads as no bytes, which the length check below refuses
        | none => .error (if self.readFails then handshakeReadFailed else stringTooLong)
        | some (chunk, client) =>
          if self.socks4Payload.length + chunk.length > kSocks4MaximumStringLength + 1 then .error stringTooLong
          else readSocks4CstringLoop fuel { self with client, socks4Payload := self.socks4Payload ++ chunk }

/-- `read_socks4_cstring`: the shared payload buffer is emptied on entry. -/
def readSocks4Cstring (self : ProxySession) : Except Error (List UInt8 × ProxySession) :=
  readSocks4CstringLoop (kSocks4MaximumStringLength + 2) { self with socks4Payload := [] }

/-- The SOCKS4 user: anyone when no users are configured, else the configured user of that name without a
password. -/
def authenticate (users : List Socks5User) (userId : List UInt8) : Option (List UInt8) :=
  if users.isEmpty then some userId
  else
    (users.find? fun candidate => candidate.password.isEmpty && candidate.username == userId).map (·.username)

def openSocks4Target (request : Fin 8 → UInt8) (domain : List UInt8) : Destination :=
  if isSocks4aAddress request then .domain domain (socks4Port request)
  else .address (fun i => request ⟨i + 4, by omega⟩) (socks4Port request)

def headerOf (bytes : List UInt8) : Fin 8 → UInt8 := fun i => bytes.getD i 0

/-- `run_socks4_request` from its SOCKS4a test on: the domain, when one follows, and `open_socks4_target`.
-/
def readTarget (self : ProxySession) : ProxySession × Verdict :=
  if isSocks4aAddress self.socks4Request then
    match readSocks4Cstring self with
    | .error _ => (self, .closed)
    | .ok (domain, self) =>
      let self := { self with socks4Domain := domain }
      if domain = [] ∨ domain.length > kSocks4MaximumStringLength then (self, .reply kSocks4Rejected)
      else (self, .openTarget (openSocks4Target self.socks4Request self.socks4Domain))
  else (self, .openTarget (openSocks4Target self.socks4Request self.socks4Domain))

/-- `run_socks4_request` from its first `read_socks4_cstring` on. -/
def readUser (owner : ProxyServer) (self : ProxySession) : ProxySession × Verdict :=
  match readSocks4Cstring self with
  | .error _ => (self, .closed)
  | .ok (userId, self) =>
    let self := { self with socks4UserId := userId }
    if userId.length > kSocks4MaximumStringLength then (self, .closed)
    else match authenticate owner.socks5Users userId with
      | none => (self, .reply kSocks4IdentdMismatched)
      | some user => readTarget { self with authenticatedUser := some user }

/-- `run_socks4_request`, after `socks4_request_[0]` has been set to the protocol byte. -/
def runSocks4Request (owner : ProxyServer) (self : ProxySession) (protocolByte : UInt8) :
    ProxySession × Verdict :=
  match self.client.readExact 7 with
  | none => (self, .closed)
  | some (bytes, client) =>
    let self := { self with client, socks4Request := headerOf (protocolByte :: bytes) }
    if self.socks4Request 0 ≠ kSocks4Version ∨ self.socks4Request 1 ≠ kSocks4Connect then (self, .closed)
    else readUser owner self

/-- `run_handshake` once TLS is done: the protocol byte selects the handshake. -/
def runHandshake (owner : ProxyServer) (self : ProxySession) : ProxySession × Verdict :=
  match self.client.readExact 1 with
  | none => (self, .closed)
  | some (bytes, client) =>
    if bytes.getD 0 0 = kSocks4Version then
      if owner.inboundMode = .http then ({ self with client }, .closed)
      else runSocks4Request owner { self with client } (bytes.getD 0 0)
    else ({ self with client }, .otherProtocol)

/-- **What the relay delivers to the opened target**: `start_relay` hands it `http_initial_data_`, and
from there on it copies what the client socket still returns. -/
def startRelay (self : ProxySession) : List UInt8 := self.httpInitialData ++ self.client.bytes

/-! ### A request, read whole -/

def cstring (bytes : List UInt8) : Option (List UInt8 × List UInt8) :=
  (nullPosition bytes).map (fun p => (bytes.take p, bytes.drop (p + 1)))

/-- **A SOCKS4/4a request**; the domain is empty for SOCKS4. -/
structure Request where
  header : Fin 8 → UInt8
  userId : List UInt8
  domain : List UInt8

/-- **The request at the head of a byte string**, and the bytes after it: eight header bytes, the user id,
and for SOCKS4a the domain, which is not empty. -/
def parseRequest (bytes : List UInt8) : Option (Request × List UInt8) :=
  if bytes.length < 8 ∨ headerOf bytes 0 ≠ kSocks4Version ∨ headerOf bytes 1 ≠ kSocks4Connect then none
  else match cstring (bytes.drop 8) with
    | none => none
    | some (userId, rest) =>
      if userId.length > kSocks4MaximumStringLength then none
      else if isSocks4aAddress (headerOf bytes) then
        match cstring rest with
        | none => none
        | some (domain, tail) =>
          if domain = [] ∨ domain.length > kSocks4MaximumStringLength then none
          else some (⟨headerOf bytes, userId, domain⟩, tail)
      else some (⟨headerOf bytes, userId, []⟩, rest)

end ClashNative.Socks4
