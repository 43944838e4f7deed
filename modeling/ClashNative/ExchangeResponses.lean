import ClashNative.HttpText
import ClashNative.Runs
import Mathlib.Algebra.Group.Nat.Defs
/-!
# ExchangeResponses — a response put together from its blocks

The callbacks of `http2_client.cpp` and `http3_client.cpp` for the header blocks of one stream: interim
blocks, the final one, trailers. All of them write into one record; only a streaming exchange starts it
anew behind an interim block, and keeps trailers apart.
-/
namespace ClashNative.Http.Responses

open List

/-! ## What a server sends -/

def isRegular (name : Bytes) : Bool := name ≠ [] && name.head? != some 58

/-- `std::from_chars` to an `unsigned`, of the whole text. -/
def parseStatus (value : Bytes) : Option Nat :=
  if value ≠ [] ∧ value.all isDigit ∧ decimal value < 2 ^ 32 then some (decimal value) else none

def statusText (status : Nat) : Bytes :=
  [UInt8.ofNat (48 + status / 100), UInt8.ofNat (48 + status / 10 % 10), UInt8.ofNat (48 + status % 10)]

structure RegularFields where
  fields : List Field := []
  regular : ∀ f, f ∈ fields → isRegular f.name = true := by decide

structure Block extends RegularFields where
  status : Nat
  bounds : 100 ≤ status ∧ status < 1000 := by decide

/-- **A response on the wire**: interim blocks, the final block, and perhaps trailers. -/
structure Sent where
  interims : List Block
  interim : ∀ b, b ∈ interims → b.status < 200 := by decide
  final : Block
  isFinal : 200 ≤ final.status := by decide
  trailers : Option RegularFields := none

/-- What the library calls back for: the block of a header section, one of trailers, the end of the
stream. -/
inductive Event
  | headers (block : Block)
  | trailers (trailers : RegularFields)
  | endStream

def Sent.events (sent : Sent) : List Event :=
  sent.interims.map .headers ++ .headers sent.final :: (sent.trailers.toList.map .trailers ++ [.endStream])

def Sent.trailerFields (sent : Sent) : List Field := sent.trailers.toList.flatMap RegularFields.fields

/-! ## The record of a stream -/

inductive Client
  | http2 | http3
  deriving DecidableEq, Repr

inductive Delivery
  | buffered | streaming | tunnel
  deriving DecidableEq, Repr

structure Response where
  status : Nat := 0
  headers : List Field := []
  deriving DecidableEq, Repr

/-- `Pending`; `registered`: it is in `pending_`.  `answer` is what the handler was called with,
`reported` the trailers of the body. -/
structure Pending where
  delivery : Delivery
  response : Response := {}
  responseTrailers : List Field := []
  streamingResponseDelivered : Bool := false
  tunnelEstablished : Bool := false
  completed : Bool := false
  registered : Bool := true
  answer : Option Response := none
  reported : Option (List Field) := none
  deriving DecidableEq, Repr

namespace Pending

def collect (p : Pending) (f : Field) : Pending :=
  if f.name = ascii ":status" then
    match parseStatus f.value with
    | some status => { p with response := { p.response with status := status } }
    | none => p
  else if isRegular f.name then { p with response := { p.response with headers := p.response.headers ++ [f] } }
  else p

def post (p : Pending) : Pending := { p with answer := some p.response, response := {
    p.response with headers := [] } }

def acceptTunnel (p : Pending) : Pending :=
  { p with completed := true, tunnelEstablished := true, registered := false }.post

def finishPending (p : Pending) : Pending :=
  if !p.registered || p.completed then p else { p with completed := true, registered := false }.post

def fail (p : Pending) : Pending := { p with completed := true, registered := false }

def report (p : Pending) : Pending := { p with reported := some p.responseTrailers, responseTrailers := [] }

namespace Http2

def onHeader (p : Pending) (f : Field) : Pending :=
  if p.tunnelEstablished then p
  else if p.streamingResponseDelivered then
    if isRegular f.name then { p with responseTrailers := p.responseTrailers ++ [f] } else p
  else p.collect f

def handleResponseHeaders (p : Pending) : Pending :=
  if !p.registered then p
  else
    match p.delivery with
    | .tunnel =>
      if p.tunnelEstablished || p.response.status < 200 then p
      else if p.response.status < 300 then p.acceptTunnel
      else p
    | .buffered => p
    | .streaming =>
      if p.streamingResponseDelivered then p
      -- the check for 101 comes behind this one
      else if p.response.status < 200 then { p with response := {} }
      else { p with streamingResponseDelivered := true }.post

def finishStreamingResponse (p : Pending) : Pending :=
  if p.completed then p
  else if !p.streamingResponseDelivered then p.fail
  else { p with completed := true, registered := false }.report

def endStream (p : Pending) : Pending :=
  if p.tunnelEstablished then p
  else if p.delivery = .streaming then finishStreamingResponse p
  else p.finishPending

end Http2

namespace Http3

def onHeader (p : Pending) (f : Field) : Pending :=
  if (p.completed && p.delivery != .tunnel) || p.tunnelEstablished then p else p.collect f

def acceptTunnelIfReady (p : Pending) : Pending :=
  if p.registered && p.delivery == .tunnel && !p.tunnelEstablished && 200 ≤
    p.response.status && p.response.status < 300 then p.acceptTunnel
  else p

def onEndHeaders (p : Pending) : Pending :=
  if p.delivery = .streaming ∧ p.streamingResponseDelivered = false then
    if 200 ≤ p.response.status then acceptTunnelIfReady { p with streamingResponseDelivered := true }.post
    else if 100 ≤ p.response.status then acceptTunnelIfReady { p with response := {} }
    else acceptTunnelIfReady p
  else acceptTunnelIfReady p

def onBeginTrailers (p : Pending) : Pending :=
  if p.delivery = .streaming then { p with responseTrailers := [] } else p

def onTrailer (p : Pending) (f : Field) : Pending :=
  if p.delivery = .streaming then { p with responseTrailers := p.responseTrailers ++ [f] } else p

/-- The end is reported once: `reported` is set as `streaming_response_finished` is. -/
def finishStreamingResponse (p : Pending) : Pending :=
  if p.reported.isSome then p else if p.streamingResponseDelivered then p.report else p.fail

def onEndStream (p : Pending) : Pending :=
  if p.tunnelEstablished then p
  else if p.delivery = .streaming then finishStreamingResponse p
  else p.finishPending

end Http3

def step (client : Client) (p : Pending) : Event → Pending
  | .headers block =>
    let lines := ⟨ascii ":status", statusText block.status⟩ :: block.fields
    match client with
    | .http2 => Http2.handleResponseHeaders (lines.foldl Http2.onHeader p)
    | .http3 => Http3.onEndHeaders (lines.foldl Http3.onHeader p)
  | .trailers trailers =>
    match client with
    | .http2 => Http2.handleResponseHeaders (trailers.fields.foldl Http2.onHeader p)
    | .http3 => trailers.fields.foldl Http3.onTrailer (Http3.onBeginTrailers p)
  | .endStream =>
    match client with
    | .http2 => Http2.endStream p
    | .http3 => Http3.onEndStream p

end Pending

def receive (client : Client) (delivery : Delivery) (sent : Sent) : Pending :=
  Runs.run (Pending.step client) { delivery := delivery } sent.events

/-- **What is promised of a response**: the status and the fields of the final block and nothing else, and
the trailers where they are asked for. -/
structure Assembled (delivery : Delivery) (sent : Sent) (p : Pending) : Prop where
  answer : p.answer = some ⟨sent.final.status, sent.final.fields⟩
  trailers : delivery = .streaming → p.reported = some sent.trailerFields

/-- **The condition**: the exchange is a streaming one; or no interim block has a field, and over HTTP/2
no trailer block has one, but for a tunnel that is accepted. -/
def FinalOnly (client : Client) (delivery : Delivery) (sent : Sent) : Prop :=
  delivery = .streaming ∨
    (∀ b, b ∈ sent.interims → b.fields = []) ∧
      (client = .http2 → ¬ (delivery = .tunnel ∧ sent.final.status < 300) → sent.trailerFields = [])

/-! ## Fields -/

theorem parseStatus_statusText {status : Nat} (h : 100 ≤ status ∧ status < 1000) :
    parseStatus (statusText status) = some status := by
  have hdigit : ∀ d : Nat, d < 10 → isDigit (UInt8.ofNat (48 + d)) = true ∧
    (UInt8.ofNat (48 + d)).toNat - 48 = d := fun d hd => by
    have hnat : (UInt8.ofNat (48 + d)).toNat = 48 + d := by
      exact Nat.mod_eq_of_lt (by omega)
    refine ⟨?_, by omega⟩
    unfold isDigit
    rw [Bool.and_eq_true, decide_eq_true_eq, decide_eq_true_eq, UInt8.le_iff_toNat_le,
      UInt8.le_iff_toNat_le, hnat]
    exact ⟨Nat.le_add_right _ _, by show 48 + d ≤ 57; omega⟩
  obtain ⟨hfirst, hfirst'⟩ := hdigit (status / 100) (by omega)
  obtain ⟨hsecond, hsecond'⟩ := hdigit (status / 10 % 10) (by omega)
  obtain ⟨hthird, hthird'⟩ := hdigit (status % 10) (by omega)
  have hvalue : decimal (statusText status) = status := by
    unfold decimal statusText
    rw [foldl_cons, foldl_cons, foldl_cons, foldl_nil, hfirst', hsecond', hthird']
    omega
  have hdigits : (statusText status).all isDigit = true := by
    unfold statusText
    rw [all_cons, all_cons, all_cons, hfirst, hsecond, hthird]
    rfl
  unfold parseStatus
  rw [hvalue, if_pos ⟨cons_ne_nil _ _, hdigits, by omega⟩]

namespace Pending

theorem collect_status (p : Pending) {status : Nat} (h : 100 ≤ status ∧ status < 1000) :
    p.collect ⟨ascii ":status", statusText status⟩ =
    { p with response := { p.response with status := status } } := by
  unfold collect
  rw [if_pos rfl, parseStatus_statusText h]

theorem collect_regular (p : Pending) {f : Field} (h : isRegular f.name = true) :
    p.collect f = { p with response := { p.response with headers := p.response.headers ++ [f] } } := by
  unfold collect
  rw [if_neg (fun hname => by rw [hname] at h; exact absurd h (by decide)), if_pos h]

theorem foldl_collect : ∀ (fields : List Field) (p : Pending), (∀ f, f ∈ fields → isRegular f.name = true) →
    fields.foldl collect p = { p with response := { p.response with headers := p.response.headers ++ fields } }
  | [], p, _ => by
    rw [foldl_nil, append_nil]
  | f :: fields, p, h => by
    rw [foldl_cons, collect_regular p (h f mem_cons_self),
      foldl_collect fields _ fun f' hf => h f' (mem_cons_of_mem f hf)]
    rw [append_assoc]
    rfl

def Open (p : Pending) : Prop := p.tunnelEstablished = false ∧ p.streamingResponseDelivered = false ∧
    p.completed = false

variable {p : Pending}

theorem collect_open (h : p.Open) (f : Field) : (p.collect f).Open := by
  unfold collect
  split
  · split
    · exact h
    · exact h
  · split
    · exact h
    · exact h

theorem foldl_of_open {onHeader : Pending → Field → Pending} (hcollect : ∀ p f, p.Open →
    onHeader p f = p.collect f) :
    ∀ (lines : List Field) (p : Pending), p.Open → lines.foldl onHeader p = lines.foldl collect p
  | [], _, _ => rfl
  | f :: lines, p, h => by
    rw [foldl_cons, foldl_cons, hcollect p f h]
    exact foldl_of_open hcollect lines _ (collect_open h f)

theorem http2_onHeader (h : p.Open) (f : Field) : Http2.onHeader p f = p.collect f := by
  unfold Http2.onHeader
  rw [h.1, h.2.1, if_neg Bool.false_ne_true, if_neg Bool.false_ne_true]

theorem http3_onHeader (h : p.Open) (f : Field) : Http3.onHeader p f = p.collect f := by
  unfold Http3.onHeader
  rw [h.1, h.2.2, Bool.false_and, Bool.or_false, if_neg Bool.false_ne_true]

theorem foldl_block (block : Block) :
    (⟨ascii ":status", statusText block.status⟩ :: block.fields).foldl collect p =
      { p with response := ⟨block.status, p.response.headers ++ block.fields⟩ } := by
  rw [foldl_cons, collect_status p block.bounds, foldl_collect block.fields _ block.regular]

/-! ## Blocks -/

def waiting (delivery : Delivery) (response : Response) : Pending :=
  { delivery := delivery, response := response }

def endBlock (client : Client) (p : Pending) : Pending :=
  match client with
  | .http2 => Http2.handleResponseHeaders p
  | .http3 => Http3.onEndHeaders p

theorem step_block (client : Client) (h : p.Open) (block : Block) :
    p.step client (.headers block) = endBlock client
    { p with response := ⟨block.status, p.response.headers ++ block.fields⟩ } := by
  unfold step endBlock
  cases client with
  | http2 =>
    dsimp only
    rw [foldl_of_open (fun _ f hp => http2_onHeader hp f) _ _ h, foldl_block]
  | http3 =>
    dsimp only
    rw [foldl_of_open (fun _ f hp => http3_onHeader hp f) _ _ h, foldl_block]

theorem waiting_open (delivery : Delivery) (response : Response) : (waiting delivery response).Open :=
  ⟨rfl, rfl, rfl⟩

theorem step_waiting (client : Client) (delivery : Delivery) (response : Response) (block : Block) :
    (waiting delivery response).step client (.headers block) =
      endBlock client (waiting delivery ⟨block.status, response.headers ++ block.fields⟩) :=
  step_block client (waiting_open delivery response) block

theorem acceptTunnelIfReady_of_not (h : ¬ (p.delivery = .tunnel ∧ 200 ≤ p.response.status ∧
    p.response.status < 300)) :
    Http3.acceptTunnelIfReady p = p := by
  refine if_neg fun hready => h ?_
  simp only [Bool.and_eq_true, beq_iff_eq, decide_eq_true_eq] at hready
  exact ⟨hready.1.1.1.2, hready.1.2, hready.2⟩

theorem endBlock_interim (client : Client) (delivery : Delivery) (response : Response)
    (hinterim : 100 ≤ response.status ∧ response.status < 200) :
    endBlock client (waiting delivery response) =
    waiting delivery (if delivery = .streaming then {} else response) := by
  have hnot : ¬ 200 ≤ response.status := Nat.not_le.2 hinterim.2
  cases client with
  | http2 =>
    cases delivery with
    | buffered => rfl
    | streaming =>
      show (if response.status < 200 then _ else _) = _
      rw [if_pos hinterim.2]
      rfl
    | tunnel =>
      show (if false || decide (response.status < 200) then _ else _) = _
      rw [decide_eq_true hinterim.2]
      rfl
  | http3 =>
    cases delivery with
    | buffered => exact acceptTunnelIfReady_of_not (p := waiting .buffered response) fun h => hnot h.2.1
    | streaming =>
      show (if 200 ≤ response.status then _ else if 100 ≤ response.status then _ else _) = _
      rw [if_neg hnot, if_pos hinterim.1]
      exact acceptTunnelIfReady_of_not (p := waiting .streaming {}) fun h => absurd h.1 (by decide)
    | tunnel => exact acceptTunnelIfReady_of_not (p := waiting .tunnel response) fun h => hnot h.2.1

def carried (delivery : Delivery) (interims : List Block) : List Field :=
  if delivery = .streaming then [] else interims.flatMap fun b => b.fields

theorem run_interims (client : Client) (delivery : Delivery) : ∀ (interims : List Block) (response : Response),
    (∀ b, b ∈ interims → b.status < 200) → (delivery = .streaming → response.headers = []) →
    ∃ status, Runs.run (step client) (waiting delivery response) (interims.map .headers) =
      waiting delivery ⟨status, response.headers ++ carried delivery interims⟩
  | [], response, _, _ => by
    refine ⟨response.status, ?_⟩
    unfold carried
    rw [flatMap_nil, ite_self, append_nil]
    rfl
  | block :: interims, response, h, hempty => by
    obtain ⟨status, hrun⟩ := run_interims client delivery interims
      (if delivery = .streaming then {} else ⟨block.status, response.headers ++ block.fields⟩)
      (fun b hb => h b (mem_cons_of_mem block hb)) (fun hstreaming => by rw [if_pos hstreaming])
    refine ⟨status, ?_⟩
    rw [map_cons, Runs.run_cons, step_waiting,
      endBlock_interim client delivery _ ⟨block.bounds.1, h block mem_cons_self⟩, hrun]
    unfold carried
    by_cases hstreaming : delivery = .streaming
    · rw [if_pos hstreaming, if_pos hstreaming, if_pos hstreaming, hempty hstreaming]
    · rw [if_neg hstreaming, if_neg hstreaming, if_neg hstreaming, flatMap_cons, ← append_assoc]

/-! ## The end -/

def late (client : Client) (delivery : Delivery) (sent : Sent) : List Field :=
  if client = .http2 ∧ delivery ≠ .streaming ∧ ¬ (delivery = .tunnel ∧ sent.final.status < 300) then
    sent.trailerFields else []

theorem step_late (hopen : p.Open) (hrejected : p.delivery = .buffered ∨ p.delivery = .tunnel ∧
    ¬ p.response.status < 300)
    (trailers : RegularFields) :
    p.step .http2 (.trailers trailers) =
    { p with response := { p.response with headers := p.response.headers ++ trailers.fields } } := by
  unfold step
  dsimp only
  rw [foldl_of_open (fun _ f hp => http2_onHeader hp f) _ _ hopen,
    foldl_collect trailers.fields p trailers.regular]
  unfold Http2.handleResponseHeaders
  split
  · rfl
  · rcases hrejected with hdelivery | ⟨hdelivery, hstatus⟩
    · rw [hdelivery]
    · rw [hdelivery]
      rw [if_neg hstatus, ite_self]

theorem step_trailers_ignored (hdelivery : p.delivery ≠ .streaming) (trailers : RegularFields) :
    p.step .http3 (.trailers trailers) = p := by
  unfold step Http3.onBeginTrailers
  rw [if_neg hdelivery]
  refine foldl_fixed' (fun f => ?_) trailers.fields
  unfold Http3.onTrailer
  rw [if_neg hdelivery]

def finish (client : Client) (trailers : Option RegularFields) (p : Pending) : Pending :=
  Runs.run (step client) p (trailers.toList.map .trailers ++ [.endStream])

theorem finish_waiting (client : Client)
    (delivery : Delivery) (response : Response) (trailers : Option RegularFields)
    (hdelivery : delivery = .buffered ∨ delivery = .tunnel ∧ ¬ response.status < 300) :
    (finish client trailers (waiting delivery response)).answer =
      some ⟨response.status, response.headers ++ if client = .http2 then
        trailers.toList.flatMap RegularFields.fields else []⟩ := by
  have hstream : delivery ≠ .streaming := by
    rcases hdelivery with rfl | ⟨rfl, _⟩ <;> decide
  have hend : ∀ response', ((waiting delivery response').step client .endStream).answer = some response' :=
    fun response' => by
    have hfinish : (waiting delivery response').step client .endStream =
      (waiting delivery response').finishPending := by
      cases client with
      | http2 => exact if_neg hstream
      | http3 => exact if_neg hstream
    rw [hfinish]
    rfl
  cases trailers with
  | none =>
    rw [Option.toList_none, flatMap_nil, ite_self, append_nil]
    exact hend response
  | some trailers =>
    have hfields : (some trailers).toList.flatMap RegularFields.fields = trailers.fields := append_nil _
    rw [hfields]
    show (((waiting delivery response).step client (.trailers trailers)).step client .endStream).answer = _
    cases client with
    | http2 =>
      rw [step_late (waiting_open delivery response) hdelivery, if_pos rfl]
      exact hend ⟨response.status, response.headers ++ trailers.fields⟩
    | http3 =>
      rw [step_trailers_ignored hstream, if_neg (by decide), append_nil]
      exact hend response

theorem endBlock_waits (client : Client) {delivery : Delivery} {response : Response}
    (hdelivery : delivery = .buffered ∨ delivery = .tunnel ∧ ¬ response.status < 300) :
    endBlock client (waiting delivery response) = waiting delivery response := by
  rcases hdelivery with rfl | ⟨rfl, hstatus⟩
  · cases client with
    | http2 => rfl
    | http3 =>
      have hnot : Delivery.buffered ≠ .tunnel := by decide
      exact acceptTunnelIfReady_of_not (p := waiting .buffered response) fun h => hnot h.1
  · cases client with
    | http2 =>
      show (if false || decide (response.status < 200) then _ else if response.status < 300 then _ else _) = _
      rw [if_neg hstatus, ite_self]
    | http3 => exact acceptTunnelIfReady_of_not (p := waiting .tunnel response) fun h => hstatus h.2.2

def streamed (response : Response) : Pending :=
  { delivery := .streaming, response := { response with headers := [] }, streamingResponseDelivered := true,
    answer := some response }

theorem endBlock_streaming (client : Client) (response : Response) (hfinal : 200 ≤ response.status) :
    endBlock client (waiting .streaming response) = streamed response := by
  have hnot : ¬ response.status < 200 := Nat.not_lt.2 hfinal
  cases client with
  | http2 =>
    show (if response.status < 200 then _ else _) = _
    rw [if_neg hnot]
    rfl
  | http3 =>
    show (if 200 ≤ response.status then _ else if 100 ≤ response.status then _ else _) = _
    rw [if_pos hfinal]
    exact acceptTunnelIfReady_of_not (p := streamed response) fun h =>
      absurd (show Delivery.streaming = .tunnel from h.1) (by decide)

theorem foldl_streamed_http2 (response : Response) :
    ∀ (fields before : List Field), (∀ f, f ∈ fields → isRegular f.name = true) →
    fields.foldl Http2.onHeader { streamed response with responseTrailers := before } =
      { streamed response with responseTrailers := before ++ fields }
  | [], before, _ => by
    rw [foldl_nil, append_nil]
  | f :: fields, before, h => by
    have hpush : Http2.onHeader { streamed response with responseTrailers := before } f =
        { streamed response with responseTrailers := before ++ [f] } := if_pos (h f mem_cons_self)
    rw [foldl_cons, hpush, foldl_streamed_http2 response fields _ fun f' hf => h f'
      (mem_cons_of_mem f hf), append_assoc]
    rfl

theorem foldl_streamed_http3 (response : Response) : ∀ fields before : List Field,
    fields.foldl Http3.onTrailer { streamed response with responseTrailers := before } =
      { streamed response with responseTrailers := before ++ fields }
  | [], before => by
    rw [foldl_nil, append_nil]
  | f :: fields, before => by
    have hpush : Http3.onTrailer { streamed response with responseTrailers := before } f =
        { streamed response with responseTrailers := before ++ [f] } := rfl
    rw [foldl_cons, hpush, foldl_streamed_http3 response fields, append_assoc]
    rfl

theorem finish_streamed (client : Client) (response : Response) (trailers : Option RegularFields) :
    (finish client trailers (streamed response)).answer = some response ∧
      (finish client trailers (streamed response)).reported = some
      (trailers.toList.flatMap RegularFields.fields) := by
  have hend : ∀ fields, ({ streamed response with responseTrailers := fields }.step
    client .endStream).answer = some response ∧
      ({ streamed response with responseTrailers := fields }.step client .endStream).reported =
      some fields := fun fields => by
    cases client with
    | http2 => exact ⟨rfl, rfl⟩
    | http3 => exact ⟨rfl, rfl⟩
  cases trailers with
  | none => exact hend []
  | some trailers =>
    have htrailers : (streamed response).step client (.trailers trailers) =
      { streamed response with responseTrailers := trailers.fields } := by
      cases client with
      | http2 =>
        show Http2.handleResponseHeaders
          (trailers.fields.foldl Http2.onHeader { streamed response with responseTrailers := [] }) = _
        rw [foldl_streamed_http2 response trailers.fields [] trailers.regular]
        rfl
      | http3 =>
        show trailers.fields.foldl Http3.onTrailer { streamed response with responseTrailers := [] } = _
        rw [foldl_streamed_http3 response trailers.fields []]
        rfl
    have hfields : (some trailers).toList.flatMap RegularFields.fields = trailers.fields := append_nil _
    show (((streamed response).step client (.trailers trailers)).step client .endStream).answer = _ ∧
      (((streamed response).step client (.trailers trailers)).step client .endStream).reported = _
    rw [htrailers, hfields]
    exact hend trailers.fields

def accepted (response : Response) : Pending := (waiting .tunnel response).acceptTunnel

theorem endBlock_accepted (client : Client) (response : Response) (hfinal : 200 ≤ response.status)
    (hstatus : response.status < 300) :
    endBlock client (waiting .tunnel response) = accepted response := by
  cases client with
  | http2 =>
    show (if false || decide (response.status < 200) then _ else if response.status < 300 then _ else _) = _
    rw [decide_eq_false (Nat.not_lt.2 hfinal), if_neg (by decide), if_pos hstatus]
    rfl
  | http3 =>
    exact if_pos (by simp [waiting, hfinal, hstatus])

theorem finish_accepted (client : Client) (response : Response) (trailers : Option RegularFields) :
    (finish client trailers (accepted response)).answer = some response := by
  have hend : ((accepted response).step client .endStream).answer = some response := by
    cases client with
    | http2 => rfl
    | http3 => rfl
  cases trailers with
  | none => exact hend
  | some trailers =>
    have htrailers : (accepted response).step client (.trailers trailers) = accepted response := by
      cases client with
      | http2 =>
        show Http2.handleResponseHeaders (trailers.fields.foldl Http2.onHeader (accepted response)) = _
        rw [foldl_fixed' (fun _ => rfl) trailers.fields]
        rfl
      | http3 => exact step_trailers_ignored (by decide : Delivery.tunnel ≠ .streaming) trailers
    show (((accepted response).step client (.trailers trailers)).step client .endStream).answer = _
    rw [htrailers]
    exact hend

end Pending

open Pending in
/-- **What comes out**: the fields of the final block, between those of interim blocks that stay and
trailers that are late. -/
theorem receive_eq (client : Client) (delivery : Delivery) (sent : Sent) :
    (receive client delivery sent).answer =
      some ⟨sent.final.status, carried delivery sent.interims ++ sent.final.fields ++
        late client delivery sent⟩ ∧
    (delivery = .streaming → (receive client delivery sent).reported = some sent.trailerFields) := by
  obtain ⟨status, hinterims⟩ := run_interims client delivery sent.interims {} sent.interim fun _ => rfl
  have hrun : receive client delivery sent = finish client sent.trailers
      (endBlock client (waiting delivery ⟨sent.final.status,
        carried delivery sent.interims ++ sent.final.fields⟩)) := by
    unfold receive Sent.events finish
    rw [Runs.run_append, Runs.run_cons]
    show Runs.run _ (step client (Runs.run (step client) (waiting delivery {})
      (sent.interims.map .headers)) _) _ = _
    rw [hinterims, step_waiting]
    rfl
  generalize carried delivery sent.interims = before at hrun ⊢
  rw [hrun]
  by_cases hstreaming : delivery = .streaming
  · subst hstreaming
    have hlate : late client .streaming sent = [] := if_neg fun h => h.2.1 rfl
    rw [endBlock_streaming client ⟨_, _⟩ sent.isFinal, hlate, append_nil]
    obtain ⟨hanswer, hreported⟩ := finish_streamed client ⟨sent.final.status,
        before ++ sent.final.fields⟩ sent.trailers
    exact ⟨hanswer, fun _ => hreported⟩
  · refine ⟨?_, fun h => absurd h hstreaming⟩
    by_cases haccepted : delivery = .tunnel ∧ sent.final.status < 300
    · obtain ⟨rfl, hstatus⟩ := haccepted
      have hlate : late client .tunnel sent = [] := if_neg fun h => h.2.2 ⟨rfl, hstatus⟩
      rw [endBlock_accepted client ⟨_, _⟩ sent.isFinal hstatus, hlate, append_nil]
      exact finish_accepted client _ sent.trailers
    · have hdelivery : delivery = .buffered ∨ delivery = .tunnel ∧ ¬ sent.final.status < 300 := by
        cases delivery with
        | buffered => exact .inl rfl
        | streaming => exact absurd rfl hstreaming
        | tunnel => exact .inr ⟨rfl, fun hstatus => haccepted ⟨rfl, hstatus⟩⟩
      have hlate : late client delivery sent = if client = .http2 then
        sent.trailers.toList.flatMap RegularFields.fields else [] := by
        unfold late Sent.trailerFields
        simp only [ne_eq, hstreaming, haccepted, not_false_eq_true, and_true]
      have hsame : endBlock client (waiting delivery ⟨sent.final.status, before ++ sent.final.fields⟩) =
          waiting delivery ⟨sent.final.status, before ++ sent.final.fields⟩ := endBlock_waits client hdelivery
      rw [hsame, hlate]
      exact finish_waiting client delivery ⟨_, _⟩ sent.trailers hdelivery

/-- **A response is put together from its final block** exactly if nothing else stays in the record. -/
theorem assembled_iff (client : Client) (delivery : Delivery) (sent : Sent) :
    Assembled delivery sent (receive client delivery sent) ↔ FinalOnly client delivery sent := by
  obtain ⟨hanswer, hreported⟩ := receive_eq client delivery sent
  have hexact : Assembled delivery sent (receive client delivery sent) ↔
      Pending.carried delivery sent.interims = [] ∧ Pending.late client delivery sent = [] := by
    constructor
    · intro h
      have hfields := congrArg (fun r : Option Response => (r.map Response.headers).map List.length)
        (hanswer.symm.trans h.answer)
      simp only [Option.map_some, Option.some.injEq, length_append] at hfields
      exact ⟨eq_nil_of_length_eq_zero (by omega), eq_nil_of_length_eq_zero (by omega)⟩
    · rintro ⟨hcarried, hlate⟩
      rw [hcarried, hlate, nil_append, append_nil] at hanswer
      exact ⟨hanswer, hreported⟩
  rw [hexact]
  unfold FinalOnly Pending.carried Pending.late
  by_cases hstreaming : delivery = .streaming
  · simp [hstreaming]
  · simp [hstreaming]

def earlyHints : Sent where
  interims := [{ status := 103, fields := [⟨ascii "link", ascii "a"⟩] }]
  final := { status := 200, fields := [⟨ascii "x", ascii "1"⟩] }

def trailing : Sent where
  interims := []
  final := { status := 200, fields := [⟨ascii "x", ascii "1"⟩] }
  trailers := some { fields := [⟨ascii "sum", ascii "7"⟩] }

/-- The Link field is one of the 200, in both clients; over HTTP/2 the trailer is one, too. -/
theorem early_hints_and_trailers_mixed :
    ¬ Assembled .buffered earlyHints (receive .http2 .buffered earlyHints) ∧
      ¬ Assembled .tunnel earlyHints (receive .http3 .tunnel earlyHints) ∧
      ¬ Assembled .buffered trailing (receive .http2 .buffered trailing) :=
  ⟨fun h => absurd h.answer (by decide +kernel), fun h => absurd h.answer (by decide +kernel),
    fun h => absurd h.answer (by decide +kernel)⟩

end ClashNative.Http.Responses
