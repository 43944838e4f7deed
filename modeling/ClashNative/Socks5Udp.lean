import ClashNative.CoreTypes
import ClashNative.Runs
import Mathlib.Data.List.AList
/-!
# Socks5Udp — relaying SOCKS5 UDP datagrams

`process_socks_udp_packet`, `run_udp_route`, `run_udp_send` and `run_udp_response_loop` of the session,
and their counterparts of `socks5_udp_listener.cpp`: one relay with the session's or the listener's
values.  Everything runs on the serialized executor except `stop()`, which an owner's thread may call at
any time: an event that lets it in between a check and the lock says so (`race`).  A path is named by the
route that opened it.
-/
namespace ClashNative.Socks5Udp

/-! ## Proxy addresses -/

inductive Host
  | v4 (bytes : Vector UInt8 4)
  | v6 (bytes : Vector UInt8 16)
  | domain (name : List UInt8)
  deriving DecidableEq

/-- `core::Destination`, with its three kinds of hosts. -/
structure Destination where
  host : Host
  port : UInt16
  deriving DecidableEq

structure DecodedProxyAddress where
  destination : Destination
  size : Nat

def framingError (context : String) : Error := ⟨.protocolFraming, context⟩

def encodeProxyAddress (destination : Destination) : Except Error (List UInt8) :=
  let port := [(destination.port >>> 8).toUInt8, (destination.port &&& 0xff).toUInt8]
  match destination.host with
  | .v4 bytes => .ok (0x01 :: bytes.toList ++ port)
  | .v6 bytes => .ok (0x04 :: bytes.toList ++ port)
  | .domain name =>
    if name = [] ∨ name.length > 255 then .error (framingError "proxy protocol domain name length is invalid")
    else .ok (0x03 :: UInt8.ofNat name.length :: name ++ port)

def portAt (bytes : List UInt8) : UInt16 := ((bytes.getD 0 0).toUInt16 <<< 8) ||| (bytes.getD 1 0).toUInt16

def decodeProxyAddress (bytes : List UInt8) (offset : Nat) : Except Error DecodedProxyAddress :=
  match bytes.drop offset with
  | [] => .error (framingError "proxy protocol address is truncated")
  | type :: rest =>
    if type = 0x01 then
      if rest.length < 4 + 2 then .error (framingError "IPv4 proxy protocol address is truncated")
      else .ok ⟨⟨.v4 (Vector.ofFn fun i => rest.getD i 0), portAt (rest.drop 4)⟩, 1 + 4 + 2⟩
    else if type = 0x04 then
      if rest.length < 16 + 2 then .error (framingError "IPv6 proxy protocol address is truncated")
      else .ok ⟨⟨.v6 (Vector.ofFn fun i => rest.getD i 0), portAt (rest.drop 16)⟩, 1 + 16 + 2⟩
    else if type = 0x03 then
      match rest with
      | [] => .error (framingError "domain proxy protocol address is truncated")
      | size :: rest =>
        if size = 0 ∨ rest.length < size.toNat + 2 then
          .error (framingError "domain proxy protocol address has an invalid length")
        else .ok ⟨⟨.domain (rest.take size.toNat), portAt (rest.drop size.toNat)⟩, 1 + 1 + size.toNat + 2⟩
    else .error (framingError "unsupported proxy protocol address type")

/-! ## The relay -/

abbrev Payload := List UInt8
abbrev RouteId := Nat

structure Endpoint where
  address : Host
  port : UInt16
  deriving DecidableEq

/-- What the session and the listener do differently.  `key` is made of the client and the encoded
destination. -/
structure Relay (κ : Type) where
  key : Endpoint → List UInt8 → κ
  /-- `kMaxUdpPathsPerAssociation`, where it is checked. -/
  maxPaths : Option Nat
  /-- The decoded size is checked against the packet's. -/
  checksSize : Bool
  /-- The snapshot is loaded for each route. -/
  loadsSnapshot : Bool
  /-- A path that fails to receive is closed. -/
  closesOnReceive : Bool

/-- The session's association: `kMaxUdpPathsPerAssociation` is 128. -/
def proxySession : Relay (List UInt8) where
  key _ destination := destination
  maxPaths := some 128
  checksSize := false
  loadsSnapshot := false
  closesOnReceive := false

/-- The shared listener; its `path_key` writes the client's endpoint as text before a NUL byte. -/
def socks5UdpListener : Relay (Endpoint × List UInt8) where
  key client destination := (client, destination)
  maxPaths := none
  checksSize := true
  loadsSnapshot := true
  closesOnReceive := true

/-- How far a route task is.  `opened`: its path was made. -/
inductive Phase
  | opening | opened | ended
  deriving DecidableEq, Repr

structure Route (κ : Type) where
  key : κ
  phase : Phase := .opening

/-- An entry of `pending_`; `route` records the task started for it. -/
structure Pending where
  route : RouteId
  payloads : List Payload

inductive RouteResult
  | succeeded | failed | threw
  deriving DecidableEq, Repr

/-- The relay.  `accepted` and `handed` record the datagrams taken for each route and those given to its
handle, `closed` the handles closed. -/
structure State (κ : Type) [DecidableEq κ] where
  stopped : Bool := false
  paths : AList (fun _ : κ => RouteId) := ∅
  pending : AList (fun _ : κ => Pending) := ∅
  routes : List (Route κ) := []
  accepted : List (RouteId × Payload) := []
  handed : List (RouteId × Payload) := []
  closed : List RouteId := []

variable {κ : Type} [DecidableEq κ]

/-- The destination and payload of a packet, behind its reserved bytes and fragment number. -/
def parse (relay : Relay κ) (packet : List UInt8) : Option (Destination × Payload) :=
  if packet.length < 4 ∨ packet.take 3 ≠ [0, 0, 0] then none
  else match decodeProxyAddress packet 3 with
    | .error _ => none
    | .ok decoded =>
      if decoded.destination.port = 0 then none
      else if relay.checksSize ∧ 3 + decoded.size > packet.length then none
      else some (decoded.destination, packet.drop (3 + decoded.size))

def keyed (relay : Relay κ) (client : Endpoint) (packet : List UInt8) : Option (κ × Payload) :=
  match parse relay packet with
  | none => none
  | some (destination, payload) =>
    match encodeProxyAddress destination with
    | .error _ => none
    | .ok encoded => some (relay.key client encoded, payload)

/-- A new route would go beyond `kMaxUdpPathsPerAssociation`. -/
def full (relay : Relay κ) (s : State κ) : Bool :=
  match relay.maxPaths with
  | none => false
  | some limit => decide (s.paths.keys.length + s.pending.keys.length ≥ limit)

/-- `close()` of the session, `stop()` of the listener. -/
def stop (s : State κ) : State κ :=
  if s.stopped then s
  else { s with
    stopped := true, paths := ∅, pending := ∅, closed := s.closed ++ s.paths.entries.map (fun path => path.2) }

/-- What `process` does with a key and a payload: the path takes it, the route that opens does, or a route
starts. -/
def relayPayload (relay : Relay κ) (s : State κ) (key : κ) (payload : Payload) (snapshot : Bool) : State κ :=
  match s.paths.lookup key with
  | some path => { s with accepted := s.accepted ++ [(path, payload)], handed := s.handed ++ [(path, payload)] }
  | none =>
    match s.pending.lookup key with
    | some entry =>
      { s with
        pending := s.pending.insert key { entry with payloads := entry.payloads ++ [payload] },
        accepted := s.accepted ++ [(entry.route, payload)] }
    | none =>
      if full relay s then s
      else if relay.loadsSnapshot ∧ ¬ snapshot then { s with pending := s.pending.erase key }
      else { s with
        pending := s.pending.insert key ⟨s.routes.length, [payload]⟩,
        routes := s.routes ++ [{ key }],
        accepted := s.accepted ++ [(s.routes.length, payload)] }

/-- `process_socks_udp_packet`, `Socks5UdpListener::process`. -/
def process (relay : Relay κ) (s : State κ) (client : Endpoint) (packet : List UInt8)
    (snapshot : Bool) : State κ :=
  match keyed relay client packet with
  | none => s
  | some (key, payload) => relayPayload relay s key payload snapshot

def dropRoute (s : State κ) (id : RouteId) (key : κ) (result : RouteResult) : State κ :=
  { s with
    routes := s.routes.set id ⟨key, .ended⟩,
    closed := if result = .succeeded then s.closed ++ [id] else s.closed }

def openPath (s : State κ) (id : RouteId) (key : κ) (payloads : List Payload) : State κ :=
  { s with
    paths := if (s.paths.lookup key).isSome then s.paths else s.paths.insert key id,
    routes := s.routes.set id ⟨key, .opened⟩,
    handed := s.handed ++ payloads.map (fun payload => (id, payload)) }

/-- `run_udp_route`, `run_route`, once `open_datagram` has ended.  `race`: `stop()` comes between the two
locks. -/
def finishRoute (s : State κ) (id : RouteId) (key : κ) (result : RouteResult) (race : Bool) : State κ :=
  if result = .threw then dropRoute s id key result
  else if s.stopped then dropRoute s id key result
  else match s.pending.lookup key with
    | none => dropRoute s id key result
    | some entry =>
      let s := { s with pending := s.pending.erase key }
      if result = .failed then dropRoute s id key result
      else openPath (if race then stop s else s) id key entry.payloads

/-- `retire_path`: a path that failed leaves the map, if it is still there. -/
def retirePath (s : State κ) (id : RouteId) (close : Bool) : State κ :=
  match s.routes[id]? with
  | none => s
  | some route =>
    if s.paths.lookup route.key = some id then
      { s with paths := s.paths.erase route.key, closed := if close then s.closed ++ [id] else s.closed }
    else s

/-- What can happen: a datagram (one `accept_udp_sender` lets through; `race`: `stop()` comes after the
check), the end of an `open_datagram`, a send or a receive of a path that fails, `stop()`. -/
inductive Event
  | datagram (client : Endpoint) (packet : List UInt8) (snapshot race : Bool)
  | routeDone (id : RouteId) (result : RouteResult) (race : Bool)
  | sendFailed (path : RouteId)
  | receiveFailed (path : RouteId) (aborted : Bool)
  | stop

def step (relay : Relay κ) (s : State κ) : Event → State κ
  | .datagram client packet snapshot race =>
    if s.stopped then s else process relay (if race then stop s else s) client packet snapshot
  | .routeDone id result race =>
    match s.routes[id]? with
    | some route => if route.phase = .opening then finishRoute s id route.key result race else s
    | none => s
  | .sendFailed path => if s.stopped then s else retirePath s path true
  | .receiveFailed path aborted => if s.stopped ∨ aborted then s else retirePath s path relay.closesOnReceive
  | .stop => stop s

end ClashNative.Socks5Udp
