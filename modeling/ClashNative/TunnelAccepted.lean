import ClashNative.HttpText
/-!
# TunnelAccepted — the answer to an upgrade request

`find_header`, `contains_header_token` and `tunnel_accepted` of `http1_client.cpp`.  The names and the
items of the response are folded to lower case before they are compared; what they are compared with is
taken as it is.
-/
namespace ClashNative.Http

open List

inductive StreamUpgradeMode
  | connect | upgrade
  deriving DecidableEq, Repr

/-- `StreamUpgradeRequest`: what `tunnel_accepted` reads of it. -/
structure StreamUpgradeRequest where
  mode : StreamUpgradeMode
  protocol : Bytes
  deriving DecidableEq, Repr

/-- `ExchangeResponse`: what `tunnel_accepted` reads of it. -/
structure TunnelResponse where
  status : Nat
  headers : List Field
  deriving DecidableEq, Repr

def findHeader (response : TunnelResponse) (name : Bytes) : Option Bytes :=
  (response.headers.find? fun header => isHttpHeader header.name name).map (·.value)

def containsHeaderToken (value token : Bytes) : Bool :=
  (listElements value).any fun item => item ≠ [] && lowercaseAscii item == token

def tunnelAccepted (request : StreamUpgradeRequest) (response : TunnelResponse) : Bool :=
  match request.mode with
  | .connect => 200 ≤ response.status && response.status < 300
  | .upgrade =>
    match findHeader response (ascii "upgrade"), findHeader response (ascii "connection") with
    | some upgrade, some connection =>
      response.status == 101 && containsHeaderToken upgrade request.protocol &&
      containsHeaderToken connection (ascii "upgrade")
    | _, _ => false

/-! ### What an answer is owed -/

def NamesToken (value token : Bytes) : Prop := ∃ item ∈ listElements value, item ≠ [] ∧
    lowercaseAscii item = lowercaseAscii token

def SomeLine (headers : List Field) (name token : Bytes) : Prop :=
  ∃ header ∈ headers, lowercaseAscii header.name = name ∧ NamesToken header.value token

def FirstLine (headers : List Field) (name token : Bytes) : Prop :=
  ∃ front header back, headers = front ++ header :: back ∧
  (∀ before ∈ front, lowercaseAscii before.name ≠ name) ∧
    lowercaseAscii header.name = name ∧ NamesToken header.value token

def Switches (protocol : Bytes) (response : TunnelResponse) : Prop :=
  response.status = 101 ∧ SomeLine response.headers (ascii "connection") (ascii "upgrade") ∧
    SomeLine response.headers (ascii "upgrade") protocol

/-- **The condition**: of a response that switches, the first lines say so, and the protocol was asked for
in lower case. -/
def SaidAtOnce (protocol : Bytes) (response : TunnelResponse) : Prop :=
  Switches protocol response → lowercaseAscii protocol = protocol ∧
    FirstLine response.headers (ascii "connection") (ascii "upgrade") ∧
    FirstLine response.headers (ascii "upgrade") protocol

/-! ### Lines and tokens -/

theorem lowercaseAscii_idem (value : Bytes) : lowercaseAscii (lowercaseAscii value) = lowercaseAscii value := by
  unfold lowercaseAscii
  rw [map_map]
  exact map_congr_left fun c _ => toLower_toLower c

theorem containsHeaderToken_iff (value token : Bytes) :
    containsHeaderToken value token = true ↔ lowercaseAscii token = token ∧ NamesToken value token := by
  unfold containsHeaderToken NamesToken
  simp only [any_eq_true, Bool.and_eq_true, decide_eq_true_eq, beq_iff_eq]
  constructor
  · rintro ⟨item, hitem, hne, heq⟩
    have hlower : lowercaseAscii token = token := by rw [← heq, lowercaseAscii_idem]
    exact ⟨hlower, item, hitem, hne, by rw [heq, hlower]⟩
  · rintro ⟨hlower, item, hitem, hne, heq⟩
    exact ⟨item, hitem, hne, by rw [heq, hlower]⟩

theorem FirstLine.someLine {headers : List Field} {name token : Bytes} (h : FirstLine headers name token) :
    SomeLine headers name token := by
  obtain ⟨front, header, back, rfl, -, hname, htoken⟩ := h
  exact ⟨header, mem_append_right _ mem_cons_self, hname, htoken⟩

theorem firstLine_iff (response : TunnelResponse) (name token : Bytes) :
    FirstLine response.headers name token ↔ ∃ value, findHeader response name = some value ∧
    NamesToken value token := by
  unfold FirstLine findHeader
  constructor
  · rintro ⟨front, header, back, hheaders, hfront, hname, htoken⟩
    refine ⟨header.value, ?_, htoken⟩
    rw [Option.map_eq_some_iff]
    refine ⟨header, ?_, rfl⟩
    rw [find?_eq_some_iff_append]
    refine ⟨by simpa [isHttpHeader] using hname, front, back, hheaders, fun before hbefore => ?_⟩
    simpa [isHttpHeader] using hfront before hbefore
  · rintro ⟨value, hvalue, htoken⟩
    obtain ⟨header, hfound, rfl⟩ := Option.map_eq_some_iff.1 hvalue
    obtain ⟨hname, front, back, hheaders, hfront⟩ := find?_eq_some_iff_append.1 hfound
    refine ⟨front, header, back, hheaders, fun before hbefore => ?_, by simpa [isHttpHeader] using hname, htoken⟩
    simpa [isHttpHeader] using hfront before hbefore

theorem tunnelAccepted_iff (protocol : Bytes) (response : TunnelResponse) :
    tunnelAccepted ⟨.upgrade, protocol⟩ response = true ↔ response.status = 101 ∧
    lowercaseAscii protocol = protocol ∧
      FirstLine response.headers (ascii "connection") (ascii "upgrade") ∧
      FirstLine response.headers (ascii "upgrade") protocol := by
  have hupgrade : lowercaseAscii (ascii "upgrade") = ascii "upgrade" := by decide
  rw [firstLine_iff, firstLine_iff]
  unfold tunnelAccepted
  dsimp only
  split
  · rename_i upgrade connection hfirst hsecond
    simp only [Bool.and_eq_true, beq_iff_eq, containsHeaderToken_iff, hfirst, hsecond, Option.some.injEq,
      exists_eq_left',
      hupgrade, true_and]
    tauto
  · rename_i hnone
    refine ⟨nofun, ?_⟩
    rintro ⟨-, -, ⟨connection, hsecond, -⟩, upgrade, hfirst, -⟩
    exact absurd hsecond (hnone upgrade connection hfirst)

/-- **An upgrade is accepted as it is owed** exactly for the responses that meet the condition. -/
theorem upgrade_accepted_iff (protocol : Bytes) (response : TunnelResponse) :
    (tunnelAccepted ⟨.upgrade, protocol⟩ response = true ↔ Switches protocol response) ↔
    SaidAtOnce protocol response := by
  rw [tunnelAccepted_iff]
  constructor
  · intro h hswitches
    exact (h.2 hswitches).2
  · intro h
    constructor
    · rintro ⟨hstatus, -, hconnection, hupgrade⟩
      exact ⟨hstatus, hconnection.someLine, hupgrade.someLine⟩
    · intro hswitches
      exact ⟨hswitches.1, h hswitches⟩

/-- A client that asks for `WebSocket` is told `websocket`; a server names `upgrade` in its second
Connection line. -/
theorem upgrade_turned_away :
    let asked := collectUpgradeProtocol [⟨ascii "Connection", ascii "Upgrade"⟩,
      ⟨ascii "Upgrade", ascii "WebSocket"⟩]
    let plain : TunnelResponse := ⟨101, [⟨ascii "Connection", ascii "Upgrade"⟩,
      ⟨ascii "Upgrade", ascii "websocket"⟩]⟩
    let twice : TunnelResponse := ⟨101, [⟨ascii "Connection", ascii "keep-alive"⟩,
      ⟨ascii "Connection", ascii "Upgrade"⟩,
      ⟨ascii "Upgrade", ascii "websocket"⟩]⟩
    asked = some (ascii "WebSocket") ∧
      (Switches (ascii "WebSocket") plain ∧ tunnelAccepted ⟨.upgrade, ascii "WebSocket"⟩ plain = false) ∧
      Switches (ascii "websocket") twice ∧ tunnelAccepted ⟨.upgrade, ascii "websocket"⟩ twice = false := by
  refine ⟨by decide,
    ⟨⟨rfl, ⟨⟨ascii "Connection", ascii "Upgrade"⟩, by decide, by decide, ascii "Upgrade", by decide,
        by decide⟩,
      ⟨ascii "Upgrade", ascii "websocket"⟩,
      by decide, by decide, ascii "websocket", by decide, by decide⟩, by decide⟩,
    ⟨rfl, ⟨⟨ascii "Connection", ascii "Upgrade"⟩, by decide, by decide, ascii "Upgrade", by decide,
        by decide⟩,
      ⟨ascii "Upgrade", ascii "websocket"⟩,
      by decide, by decide, ascii "websocket", by decide, by decide⟩, by decide⟩

end ClashNative.Http
