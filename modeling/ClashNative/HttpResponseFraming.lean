import ClashNative.HttpForwardResponse
/-!
# HttpResponseFraming — forwarded responses end where the client thinks they do

The head that the session builds reads back as the status and the fields it was built from, and the body
as the chunks.
-/
namespace ClashNative.Http.Forward

open List

open Wire.Http (FieldLine decodeResponse decodeBody bodyLength writeHead writeField writeChunk writeNumeral crlf)

/-! ## The head as fields -/

def toLine (field : Field) : FieldLine := (field.name, field.value)

theorem map_ofLine_toLine (fields : List Field) : (fields.map toLine).map ofLine = fields := by
  rw [map_map]
  exact map_id fields

theorem headerLine_eq (field : Field) : headerLine field = writeField (toLine field) := by
  rw [headerLine, writeField, append_assoc, append_assoc, append_assoc]
  rfl

theorem flatMap_headerLine (fields : List Field) :
    fields.flatMap headerLine = (fields.map toLine).flatMap writeField := by
  rw [flatMap_map]
  exact congrArg (fields.flatMap ·) (funext headerLine_eq)

def connectionFields (keepAlive : Bool) : List Field :=
  if keepAlive then
    [⟨ascii "Connection", ascii "keep-alive"⟩, ⟨ascii "Proxy-Connection", ascii "keep-alive"⟩,
      ⟨ascii "Keep-Alive", ascii "timeout=4"⟩]
  else [⟨ascii "Connection", ascii "close"⟩]

def codingFields (chunked : Bool) : List Field :=
  if chunked then [⟨ascii "Transfer-Encoding", ascii "chunked"⟩] else []

def agentFields : List Field := [⟨ascii "Proxy-Agent", ascii "clash-native"⟩]

def ownFields (chunked keepAlive : Bool) : List Field :=
  codingFields chunked ++ (connectionFields keepAlive ++ agentFields)

def headFields (x : Exchange) (response : UpstreamResponse) (chunked : Bool) : List Field :=
  (forwardedHeaders x response).map (·.toField) ++ ownFields chunked (exchangeKeepAlive x response)

theorem flatMap_connectionFields (keepAlive : Bool) :
    (connectionFields keepAlive).flatMap headerLine = connectionHeaders keepAlive := by
  cases keepAlive <;> decide

theorem flatMap_codingFields (chunked : Bool) :
    (codingFields chunked).flatMap headerLine = if chunked then
    ascii "Transfer-Encoding: chunked\r\n" else [] := by
  cases chunked <;> decide

theorem buildHttpForwardResponseHeaders_eq (texts : ReasonTexts) (x : Exchange) (response : UpstreamResponse)
    (chunked : Bool) :
    buildHttpForwardResponseHeaders texts x response chunked =
      writeHead response.status (texts.obsoleteReason response.status)
      ((headFields x response chunked).map toLine) := by
  have hagent : ascii "Proxy-Agent: clash-native\r\n\r\n" = agentFields.flatMap headerLine ++ crlf := by decide
  rw [buildHttpForwardResponseHeaders, hagent, ← flatMap_connectionFields, ← flatMap_codingFields, writeHead,
    ← flatMap_headerLine, headFields, ownFields, flatMap_append, flatMap_append, flatMap_append, flatMap_map]
  simp only [Wire.Http.writeStatusLine, append_assoc]
  rfl

theorem ownFields_ok : ∀ chunked keepAlive, ∀ field ∈ ownFields chunked keepAlive, (toLine field).Ok := by decide

theorem headFields_ok (x : Exchange) (response : UpstreamResponse) (chunked : Bool) :
    ∀ line ∈ (headFields x response chunked).map toLine, line.Ok := by
  intro line hline
  obtain ⟨field, hfield, rfl⟩ := mem_map.1 hline
  rw [headFields, mem_append, mem_map] at hfield
  rcases hfield with ⟨parsed, -, rfl⟩ | hfield
  · exact parsed.ok
  · exact ownFields_ok _ _ field hfield

/-! ## What the fields say of the body -/

variable {response : UpstreamResponse} {x : Exchange}

theorem mem_forwardedHeaders {h : ParsedField}
    (hmem : h ∈ forwardedHeaders x response) :
    isHopByHopOrProxyHeader h.name (connectionOptions (response.headers.map (·.toField))) = false ∧
      (isHttpHeader h.name (ascii "content-length") = true → x.method = ascii "HEAD" ∨
        response.status = 304) := by
  rw [forwardedHeaders, mem_filter] at hmem
  have hkept := hmem.2
  simp only [Bool.not_eq_true', Bool.or_eq_false_iff, Bool.and_eq_false_imp, Bool.not_eq_false',
    decide_eq_true_eq]
    at hkept
  exact hkept

variable {expected : Bytes} {options : List Bytes} {name : Bytes}

theorem not_named_of_not_hopByHop (hhop : expected ∈ hopByHopNames)
    (h : isHopByHopOrProxyHeader name options = false) : isHttpHeader name expected = false := by
  rw [isHopByHopOrProxyHeader, Bool.or_eq_false_iff, any_eq_false] at h
  exact Bool.eq_false_iff.2 (h.2 expected hhop)

theorem filter_forwardedHeaders (hhop : expected ∈ hopByHopNames) (x : Exchange)
    (response : UpstreamResponse) :
    ((forwardedHeaders x response).map (·.toField)).filter (fun f => isHttpHeader f.name expected) = [] := by
  rw [filter_eq_nil_iff]
  intro f hf
  obtain ⟨h, hmem, rfl⟩ := mem_map.1 hf
  rw [not_named_of_not_hopByHop hhop (mem_forwardedHeaders hmem).1]
  exact Bool.false_ne_true

theorem filter_headFields (hhop : expected ∈ hopByHopNames) (x : Exchange)
    (response : UpstreamResponse) (chunked : Bool) :
    (headFields x response chunked).filter (fun f => isHttpHeader f.name expected) =
      (ownFields chunked (exchangeKeepAlive x response)).filter (fun f => isHttpHeader f.name expected) := by
  rw [headFields, filter_append, filter_forwardedHeaders hhop, nil_append]

theorem filter_map_toLine (expected : Bytes) (fields : List Field) :
    (fields.map toLine).filter (Wire.Http.isNamed expected) =
      (fields.filter (fun f => isHttpHeader f.name expected)).map toLine := by
  rw [filter_map]
  rfl

theorem any_isNamed (expected : Bytes) (fields : List Field) :
    (fields.map toLine).any (Wire.Http.isNamed expected) = fields.any
    (fun f => isHttpHeader f.name expected) := by
  rw [any_map]
  rfl

theorem any_eq_filter {fields : List Field} {p : Field → Bool} : fields.any p = !(fields.filter p).isEmpty := by
  induction fields with
  | nil => rfl
  | cons f fields ih =>
    rw [any_cons, filter_cons, ih]
    cases p f <;> rfl

theorem bodyLength_empty (h : WithoutContent x response)
    (fields : List FieldLine) : bodyLength x.method response.status fields = .empty := by
  rw [bodyLength, if_pos]
  rcases h with h | h | h
  · exact .inl h
  · exact .inr (.inr (.inl h))
  · exact .inr (.inr (.inr h))

section Content

variable {x : Exchange} {response : UpstreamResponse}

theorem bodyLength_content (hcontent : ¬ WithoutContent x response) (hstatus : 200 ≤ response.status)
    (chunked : Bool) :
    bodyLength x.method response.status ((headFields x response chunked).map toLine) =
      if chunked then .chunked else .untilClose := by
  unfold WithoutContent at hcontent
  push Not at hcontent
  have hempty : ¬ (x.method = Wire.Http.text "HEAD" ∨ response.status / 100 = 1 ∨ response.status = 204 ∨
      response.status = 304) := by
    rintro (h | h | h | h)
    · exact hcontent.1 h
    · omega
    · exact hcontent.2.1 h
    · exact hcontent.2.2 h
  have htunnel : ¬ (x.method = Wire.Http.text "CONNECT" ∧ response.status / 100 = 2) := fun h => x.notConnect h.1
  have hcoding := filter_headFields (show ascii "transfer-encoding" ∈ hopByHopNames by decide) x response chunked
  have hany : ((headFields x response chunked).map toLine).any
    (Wire.Http.isNamed (Wire.Http.text "transfer-encoding")) =
      chunked := by
    show ((headFields x response chunked).map toLine).any
      (Wire.Http.isNamed (ascii "transfer-encoding")) = chunked
    rw [any_isNamed, any_eq_filter, hcoding]
    cases chunked <;> cases exchangeKeepAlive x response <;> decide
  rw [bodyLength, if_neg hempty, if_neg htunnel, hany]
  cases chunked with
  | true =>
    have helements : Wire.Http.elements (Wire.Http.text "transfer-encoding")
      ((headFields x response true).map toLine) =
        [ascii "chunked"] := by
      show Wire.Http.elements (ascii "transfer-encoding") ((headFields x response true).map toLine) = _
      rw [Wire.Http.elements, filter_map_toLine, hcoding]
      cases exchangeKeepAlive x response <;> decide
    rw [helements]
    rfl
  | false =>
    have hlength : ((headFields x response false).map toLine).any
      (Wire.Http.isNamed (Wire.Http.text "content-length")) =
        false := by
      rw [any_isNamed, headFields, any_append, Bool.or_eq_false_iff]
      constructor
      · rw [any_eq_false]
        intro f hf hnamed
        obtain ⟨h, hmem, rfl⟩ := mem_map.1 hf
        rcases (mem_forwardedHeaders hmem).2 hnamed with hhead | hstatus
        · exact hcontent.1 hhead
        · exact hcontent.2.2 hstatus
      · cases exchangeKeepAlive x response <;> decide
    rw [hlength]
    rfl

end Content

/-! ## End-to-end headers -/

theorem connectionOptions_headFields
    (hkeep : exchangeKeepAlive x response = true) (chunked : Bool) :
    connectionOptions (headFields x response chunked) = [ascii "keep-alive"] := by
  rw [connectionOptions, fieldElements, filter_headFields (by decide), hkeep]
  cases chunked <;> decide

theorem not_hopByHop_keepAlive (h : isHopByHopOrProxyHeader name options = false) :
    isHopByHopOrProxyHeader name [ascii "keep-alive"] = false := by
  have hname : (lowercaseAscii name == ascii "keep-alive") = false := not_named_of_not_hopByHop (by decide) h
  rw [isHopByHopOrProxyHeader, Bool.or_eq_false_iff] at h ⊢
  refine ⟨?_, h.2⟩
  rw [contains_cons, hname]
  rfl

theorem endToEnd_headFields (hkeep : exchangeKeepAlive x response = true)
    (chunked : Bool) :
    endToEnd (headFields x response chunked) = endToEnd (response.headers.map (·.toField)) ++ agentFields := by
  have hown : (ownFields chunked true).filter (fun f =>
      !isHopByHopOrProxyHeader f.name [ascii "keep-alive"] && !isHttpHeader f.name (ascii "content-length")) =
        agentFields := by
    cases chunked <;> decide
  rw [endToEnd, connectionOptions_headFields hkeep, headFields, hkeep, filter_append, hown, endToEnd]
  refine congrArg (· ++ agentFields) ?_
  rw [forwardedHeaders, filter_map, filter_map, filter_filter]
  refine congrArg (List.map _) (filter_congr fun h _ => ?_)
  simp only [Function.comp]
  cases hhop : isHopByHopOrProxyHeader h.name (connectionOptions (response.headers.map (·.toField))) with
  | true => simp
  | false =>
    rw [not_hopByHop_keepAlive hhop]
    cases isHttpHeader h.name (ascii "content-length") <;> simp

/-! ## The body as chunks -/

theorem chunk_eq (data : Bytes) : chunk data = writeChunk data := by
  rw [chunk, writeChunk, append_assoc, append_assoc]
  rfl

theorem finalChunk_eq (trailers : List ParsedField) :
    finalChunk trailers = writeNumeral 16 0 ++
      (crlf ++ (((forwardedTrailers trailers).map (toLine ·.toField)).flatMap writeField ++ crlf)) := by
  have hlast : ascii "0\r\n" = writeNumeral 16 0 ++ crlf := by decide
  have hlines : (forwardedTrailers trailers).flatMap (headerLine ·.toField) =
      ((forwardedTrailers trailers).map (toLine ·.toField)).flatMap writeField := by
    rw [flatMap_map]
    exact congrArg ((forwardedTrailers trailers).flatMap ·) (funext fun t => headerLine_eq t.toField)
  rw [finalChunk, hlast, hlines, append_assoc, append_assoc]
  rfl

theorem runHttpForwardBody_kept {keepAlive : Bool} {trailers : List ParsedField} :
    ∀ {pulls : List Pull} {writes : Nat}, (runHttpForwardBody keepAlive trailers pulls writes).kept = true →
      keepAlive = true ∧ ∃ chunks : List Bytes, (∀ data ∈ chunks, data ≠ []) ∧
        chunks.flatten = pulls.flatMap Pull.bytes ∧
        (runHttpForwardBody keepAlive trailers pulls writes).bytes = chunks.flatMap writeChunk ++
        finalChunk trailers
  | [], 0, h => by cases h
  | [], _ + 1, h => ⟨h, [], nofun, rfl, rfl⟩
  | .failed :: _, _, h => by
    cases h
  | .data [] :: pulls, writes, h => by
    rw [runHttpForwardBody] at h ⊢
    obtain ⟨hkeep, chunks, hne, hflat, hbytes⟩ := runHttpForwardBody_kept h
    exact ⟨hkeep, chunks, hne, hflat, hbytes⟩
  | .data (_ :: _) :: _, 0, h => by
    cases h
  | .data (b :: bytes) :: pulls, writes + 1, h => by
    rw [runHttpForwardBody] at h ⊢
    obtain ⟨hkeep, chunks, hne, hflat, hbytes⟩ := runHttpForwardBody_kept h
    refine ⟨hkeep, (b :: bytes) :: chunks, ?_, ?_, ?_⟩
    · intro data hdata
      rcases mem_cons.1 hdata with rfl | hdata
      · exact cons_ne_nil _ _
      · exact hne data hdata
    · rw [flatten_cons, hflat]
      rfl
    · rw [hbytes, flatMap_cons, chunk_eq, append_assoc]

/-! ## The message -/

section Message

variable {texts : ReasonTexts} {x : Exchange} {response : UpstreamResponse} {writes : Nat}

theorem sendHttpForwardResponse_kept (status : Nat) (reason extraHeaders : Bytes) (keepAlive : Bool)
    (writes : Nat)
    (h : (sendHttpForwardResponse status reason extraHeaders keepAlive writes).kept = true) :
    keepAlive = true := by
  cases writes with
  | zero => cases h
  | succ => exact h

theorem sent_of_kept (hkept : (runHttpForwardResponse texts x (.ok response) writes).kept = true) :
    200 ≤ response.status ∧ response.status < 1000 ∧ exchangeKeepAlive x response = true ∧
      ((hasBody x response = false ∧ (runHttpForwardResponse texts x (.ok response) writes).bytes =
          buildHttpForwardResponseHeaders texts x response false) ∨
        (hasBody x response = true ∧ ∃ (body : BodyStream) (chunks : List Bytes), response.body = some body ∧
          (∀ data ∈ chunks, data ≠ []) ∧
          chunks.flatten = body.pulls.flatMap Pull.bytes ∧
          (runHttpForwardResponse texts x (.ok response) writes).bytes =
            buildHttpForwardResponseHeaders texts x response true ++
              (chunks.flatMap writeChunk ++ finalChunk body.trailers))) := by
  simp only [runHttpForwardResponse] at hkept ⊢
  split at hkept
  · exact absurd (sendHttpForwardResponse_kept _ _ _ _ _ hkept) Bool.false_ne_true
  · rename_i hstatus
    rw [if_neg hstatus]
    refine ⟨by omega, by omega, ?_⟩
    cases writes with
    | zero => cases hkept
    | succ writes =>
      cases hbody : hasBody x response with
      | false =>
        simp only [hbody] at hkept ⊢
        exact ⟨(Bool.and_eq_true_iff.1 hkept).2, .inl ⟨trivial, rfl⟩⟩
      | true =>
        have hsome : response.body.isSome = true := (Bool.and_eq_true_iff.1 hbody).2
        obtain ⟨body, hstream⟩ := Option.isSome_iff_exists.1 hsome
        simp only [hbody, if_true, hstream] at hkept ⊢
        obtain ⟨hkeep, chunks, hne, hflat, hbytes⟩ := runHttpForwardBody_kept hkept
        exact ⟨(Bool.and_eq_true_iff.1 hkeep).2, .inr ⟨trivial, body, chunks, rfl, hne, hflat, by rw [hbytes]⟩⟩

theorem hasBody_iff : hasBody x response = true ↔ ¬ WithoutContent x response ∧ response.status ≠ 205 ∧
    response.body.isSome = true := by
  simp only [hasBody, WithoutContent, Bool.and_eq_true, decide_eq_true_eq, not_or]
  tauto

theorem decodeResponse_head (hlow : 200 ≤ response.status) (hhigh : response.status < 1000) (chunked : Bool)
    (rest : Bytes) :
    decodeResponse x.method (buildHttpForwardResponseHeaders texts x response chunked ++ rest) =
      decodeBody x.method response.status ((headFields x response chunked).map toLine) rest := by
  rw [buildHttpForwardResponseHeaders_eq]
  exact Wire.Http.decodeResponse_writeHead x.method (by omega) hhigh (texts.noBreak _)
    (headFields_ok x response chunked) rest

theorem delivered_of_selfDelimiting (hkept : (runHttpForwardResponse texts x (.ok response) writes).kept = true)
    (h : SelfDelimiting x response) :
    Delivered x response (runHttpForwardResponse texts x (.ok response) writes).bytes := by
  obtain ⟨hlow, hhigh, hkeep, ⟨hbody, hbytes⟩ | ⟨hbody, body, chunks, hstream, hne, hflat, hbytes⟩⟩ :=
    sent_of_kept hkept
  · have hcontent : WithoutContent x response := by
      by_contra hcontent
      have hhas := hasBody_iff.2 ⟨hcontent, h.resolve_left hcontent⟩
      rw [hbody] at hhas
      cases hhas
    rw [hbytes]
    refine ⟨⟨response.status, (headFields x response false).map toLine, [], []⟩, fun rest => ?_, rfl, ?_, ?_,
      nil_sublist _⟩
    · rw [decodeResponse_head hlow hhigh, Wire.Http.decodeBody_empty (bodyLength_empty hcontent _)]
    · rw [upstreamBody, if_pos hcontent]
    · rw [map_ofLine_toLine, endToEnd_headFields hkeep]
      rfl
  · have hcontent : ¬ WithoutContent x response := (hasBody_iff.1 hbody).1
    have hlines : ∀ line ∈ (forwardedTrailers body.trailers).map (toLine ·.toField), line.Ok := by
      intro line hline
      obtain ⟨t, -, rfl⟩ := mem_map.1 hline
      exact t.ok
    rw [hbytes]
    refine ⟨⟨response.status, (headFields x response true).map toLine, chunks.flatten,
      (forwardedTrailers body.trailers).map (toLine ·.toField)⟩, fun rest => ?_, rfl, ?_, ?_, ?_⟩
    · rw [append_assoc, decodeResponse_head hlow hhigh, finalChunk_eq]
      simp only [append_assoc]
      exact Wire.Http.decodeBody_chunked (bodyLength_content hcontent hlow true) hne hlines rest
    · rw [upstreamBody, if_neg hcontent, hstream]
      exact hflat
    · rw [map_ofLine_toLine, endToEnd_headFields hkeep]
      rfl
    · rw [UpstreamResponse.trailers, hstream, map_map]
      exact List.Sublist.map _ filter_sublist

theorem not_delivered (hkept : (runHttpForwardResponse texts x (.ok response) writes).kept = true)
    (h : ¬ SelfDelimiting x response) :
    ¬ Delivered x response (runHttpForwardResponse texts x (.ok response) writes).bytes := by
  rintro ⟨message, hdecode, -⟩
  obtain ⟨hlow, hhigh, -, ⟨hbody, hbytes⟩ | ⟨hbody, -⟩⟩ := sent_of_kept hkept
  · have hcontent : ¬ WithoutContent x response := fun hcontent => h (.inl hcontent)
    have hnone := hdecode []
    rw [hbytes, decodeResponse_head hlow hhigh,
      Wire.Http.decodeBody_untilClose (bodyLength_content hcontent hlow false)] at hnone
    cases hnone
  · exact h (.inr (hasBody_iff.1 hbody).2)

/-- **The framing of forwarded responses.**  For every request and every upstream response after which the
connection is kept: the client finds one message that ends by itself, with the upstream's status, body and
headers, if and only if no content is possible or a body is sent in chunks. -/
theorem delivered_iff (texts : ReasonTexts) (x : Exchange) (response : UpstreamResponse) (writes : Nat)
    (hkept : (runHttpForwardResponse texts x (.ok response) writes).kept = true) :
    Delivered x response (runHttpForwardResponse texts x (.ok response) writes).bytes ↔
    SelfDelimiting x response := by
  constructor
  · intro h
    by_contra hcond
    exact not_delivered hkept hcond h
  · exact delivered_of_selfDelimiting hkept

end Message

def someTexts : ReasonTexts where
  obsoleteReason status := if status = 200 then ascii "OK" else ascii "Reset Content"
  noBreak status := by split <;> decide

def keptGet : Exchange := ⟨ascii "GET", true, by decide⟩

/-- A body in two reads, with a trailer. -/
theorem delivered_chunked :
    let body : BodyStream := ⟨[.data (ascii "abc"), .data [], .data (ascii "de")],
      [⟨⟨ascii "X-Sum", ascii "1"⟩, by decide⟩]⟩
    let response : UpstreamResponse := ⟨200, [⟨⟨ascii "Content-Length", ascii "5"⟩, by decide⟩], true, some body⟩
    Delivered keptGet response (runHttpForwardResponse someTexts keptGet (.ok response) 4).bytes := by
  intro body response
  exact (delivered_iff someTexts keptGet response 4 (by decide +kernel)).2 (by decide)

/-- **A 205** keeps the connection and does not say where it ends. -/
theorem reset_content_undelimited :
    let response : UpstreamResponse :=
      ⟨205, [⟨⟨ascii "Content-Length", ascii "0"⟩, by decide⟩], true, some ⟨[], []⟩⟩
    (runHttpForwardResponse someTexts keptGet (.ok response) 1).kept = true ∧
      ¬ Delivered keptGet response (runHttpForwardResponse someTexts keptGet (.ok response) 1).bytes := by
  intro response
  have hkept : (runHttpForwardResponse someTexts keptGet (.ok response) 1).kept = true := by decide +kernel
  exact ⟨hkept, not_delivered hkept (by decide)⟩

end ClashNative.Http.Forward
