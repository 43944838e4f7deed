import ClashNative.HttpInbound
/-!
# HttpFraming — where the header parses of a connection start

A client sends whole messages, one after the other.  The `n`-th header parse starts at the `n`-th message
in every run in which no `OPTIONS *` request with a body is answered with the connection kept: every other
answer that keeps it has seen the end of the message.
-/
namespace ClashNative.Http.Inbound

open List

/-- **A message on the wire**: the bytes of its header, the bytes behind it that belong to it, and what
the header says. -/
structure Message where
  head : Bytes
  body : Bytes
  request : Request
  head_ne : head ≠ []

def Message.bytes (m : Message) : Bytes := m.head ++ m.body

def wire (messages : List Message) : Bytes := messages.flatMap Message.bytes

/-- **The parser reads a message**: its header from the header's bytes and no fewer, and its body
likewise. -/
structure Parser.Reads (parser : Parser) (m : Message) : Prop where
  header : ∀ rest, parser.header (m.head ++ rest) = some ⟨m.request, m.head.length, m.body = []⟩
  header_cut : ∀ p, p <+: m.head → p ≠ m.head → parser.header p = none
  body : ∀ rest, parser.bodySize m.request (m.body ++ rest) = some m.body.length
  body_cut : ∀ p, p <+: m.body → p ≠ m.body → parser.bodySize m.request p = none

def messageStarts (messages : List Message) (n : Nat) : List Nat :=
  (List.range (n + 1)).map (fun k => (wire (messages.take k)).length)

/-- **What is owed**: the header parses so far started at the starts of the first messages, one each. -/
def Framed (messages : List Message) (s : State) : Prop :=
  ∃ n ≤ messages.length, s.starts = messageStarts messages n

/-- The request is answered as `OPTIONS *` and the connection kept. -/
def keepsOptions (owner : Owner) (request : Request) : Bool :=
  authenticateHttpRequest owner request == .accepted && request.method == ascii "OPTIONS" &&
    request.target == ascii "*" && request.version == 11 && httpRequestKeepAlive request

/-- **No kept `OPTIONS *` with a body**: the step does not answer one. -/
def Drained (owner : Owner) (parser : Parser) (s : State) (w : World) : Prop :=
  s.phase = .reading → w.written = true →
    ∀ header ∈ parser.header s.unread, keepsOptions owner header.request = true → header.done = true

instance (owner : Owner) (parser : Parser) (s : State) (w : World) : Decidable (Drained owner parser s w) := by
  unfold Drained
  infer_instance

/-! ## Answers that keep the connection -/

inductive Begun (request : Request) (done keepAlive : Bool) : Answer → Prop
  | options : request.version = 11 → request.target = ascii "*" → request.method = ascii "OPTIONS" →
      Begun request done keepAlive (.respond 200 (ascii "OK") (ascii "Allow: CONNECT, OPTIONS\r\n") keepAlive)
  | refused (status : Nat) (reason : Bytes) : Begun request done keepAlive (.respond status reason [] false)
  | upgrade (u : UpgradeRequest) : Begun request done keepAlive (.upgrade u)
  | forward (f : ForwardRequest) (expects : Bool) : f.hasBody = (!done) → f.method = request.method →
      Begun request done keepAlive (.forward f expects)

theorem beginUpgrade_begun (request : Request) (done keepAlive : Bool) (target : ParsedHttpTarget)
    (options : List Bytes) :
    Begun request done keepAlive (beginUpgrade request done target options) := by
  unfold beginUpgrade
  split
  · exact .refused _ _
  · split
    · exact .refused _ _
    · split
      · exact .refused _ _
      · exact .upgrade _

theorem beginHttpForward_begun (request : Request) (done keepAlive : Bool) :
    Begun request done keepAlive (beginHttpForward request done keepAlive) := by
  unfold beginHttpForward
  split
  · exact .refused _ _
  · rename_i hversion
    split
    · rename_i hoptions
      exact .options (by simpa using hversion) hoptions.1 hoptions.2
    · split
      · split
        · split
          · exact .refused _ _
          · exact .refused _ _
        · exact .refused _ _
      · split
        · exact .refused _ _
        · split
          · exact .refused _ _
          · split
            · exact beginUpgrade_begun _ _ _ _ _
            · split
              · exact .refused _ _
              · split
                · exact .refused _ _
                · exact .forward _ _ rfl rfl

variable {done : Bool} {request : Request} {owner : Owner}

theorem respond_keepAlive {status : Nat} {reason extra : Bytes}
    (h : handleHttpHeaders owner request done = .respond status reason extra true) :
    keepsOptions owner request = true := by
  unfold handleHttpHeaders at h
  split at h
  · cases h
  · cases h
  · rename_i hauth
    split at h
    · have hbegun := beginHttpForward_begun request done (httpRequestKeepAlive request)
      rw [h] at hbegun
      generalize hkeep : true = keep at hbegun
      generalize hclient : httpRequestKeepAlive request = client at hbegun
      cases hbegun with
      | options hversion htarget hmethod =>
        simp [keepsOptions, hauth, hversion, htarget, hmethod, hclient, ← hkeep]
      | refused => cases hkeep
    · split at h
      · cases h
      · split at h <;> cases h

theorem authenticate_keepAlive {missing : Bool}
    (h : handleHttpHeaders owner request done = .authenticate missing true) : done = true := by
  unfold handleHttpHeaders at h
  split at h
  · simp only [Answer.authenticate.injEq, Bool.and_eq_true] at h
    exact h.2.2
  · simp only [Answer.authenticate.injEq, Bool.and_eq_true] at h
    exact h.2.2
  · split at h
    · have hbegun := beginHttpForward_begun request done (httpRequestKeepAlive request)
      rw [h] at hbegun
      cases hbegun
    · split at h
      · cases h
      · split at h <;> cases h

theorem forward_begun {expects : Bool} {forward : ForwardRequest}
    (h : handleHttpHeaders owner request done = .forward forward expects) :
    request.method ≠ ascii "CONNECT" ∧ forward.hasBody = (!done) ∧ forward.method = request.method := by
  unfold handleHttpHeaders at h
  split at h
  · cases h
  · cases h
  · split at h
    · rename_i hconnect
      have hbegun := beginHttpForward_begun request done (httpRequestKeepAlive request)
      rw [h] at hbegun
      cases hbegun with
      | forward f expects hbody hmethod => exact ⟨hconnect, hbody, hmethod⟩
    · split at h
      · cases h
      · split at h <;> cases h

theorem handle_of_keepsOptions (done : Bool)
    (h : keepsOptions owner request = true) :
    handleHttpHeaders owner request done =
      .respond 200 (ascii "OK") (ascii "Allow: CONNECT, OPTIONS\r\n") true := by
  simp only [keepsOptions, Bool.and_eq_true, beq_iff_eq] at h
  obtain ⟨⟨⟨⟨hauth, hmethod⟩, htarget⟩, hversion⟩, hkeep⟩ := h
  unfold handleHttpHeaders beginHttpForward
  simp only [hauth, hmethod, htarget, hversion, hkeep]
  rfl

theorem upload_taken {contentLength : Option Nat} {total : Nat} {trailersFail : Bool} :
    ∀ {pulls : List Pull} {taken written : Nat},
    (upload contentLength total trailersFail pulls taken written).2 = true →
      (upload contentLength total trailersFail pulls taken written).1 = total
  | [], _, _, h => by cases h
  | pull :: pulls, taken, written, h => by
    rw [upload] at h ⊢
    split
    · rename_i hfails
      rw [if_pos hfails] at h
      cases h
    · rename_i hfails
      rw [if_neg hfails] at h
      split
      · rename_i hsize
        rw [if_pos hsize] at h
        split
        · rename_i hover
          rw [if_pos hover] at h
          cases h
        · rename_i hover
          rw [if_neg hover] at h
          exact upload_taken h
      · rename_i hsize
        rw [if_neg hsize] at h
        split
        · rename_i hdone
          split
          · exact hdone
          · exact hdone
        · rename_i hdone
          rw [if_neg hdone] at h
          exact upload_taken h

/-! ## The invariant -/

section Invariant

variable {owner : Owner} {parser : Parser} {messages : List Message}

/-- The parses so far started where they should, and the next one will: what is left to read are the
messages from the `n`-th on, perhaps cut off. -/
def Aligned (messages : List Message) (s : State) : Prop :=
  ∃ n ≤ messages.length, s.starts = messageStarts messages n ∧
    (s.phase = .reading → s.offset = (wire (messages.take n)).length ∧ s.unread <+: wire (messages.drop n))

theorem messageStarts_succ (messages : List Message) (n : Nat) :
    messageStarts messages (n + 1) = messageStarts messages n ++ [(wire (messages.take (n + 1))).length] := by
  rw [messageStarts, range_succ, map_append]
  rfl

theorem wire_cons (m : Message) (ms : List Message) : wire (m :: ms) = m.head ++ (m.body ++ wire ms) := by
  rw [wire, flatMap_cons, Message.bytes, append_assoc]
  rfl

variable {n : Nat}

theorem length_wire_take_succ (hn : n < messages.length) :
    (wire (messages.take (n + 1))).length =
      (wire (messages.take n)).length + (messages[n].head.length + messages[n].body.length) := by
  rw [take_succ_eq_append_getElem hn, wire, flatMap_append, length_append, ← wire]
  simp [Message.bytes]

theorem prefix_append_cases {a b p : Bytes} (h : p <+: a ++ b) :
    (p <+: a ∧ p ≠ a) ∨ ∃ rest, p = a ++ rest ∧ rest <+: b := by
  rcases prefix_or_prefix_of_prefix h (prefix_append a b) with hp | ⟨rest, rfl⟩
  · by_cases heq : p = a
    · exact .inr ⟨[], by simp [heq], nil_prefix⟩
    · exact .inl ⟨hp, heq⟩
  · exact .inr ⟨rest, rfl, (prefix_append_right_inj a).1 h⟩

variable {header : Header}

theorem header_of_aligned (hreads : ∀ m ∈ messages, parser.Reads m) (hnil : parser.header [] = none)
    {unread : Bytes} (hunread : unread <+: wire (messages.drop n))
    (h : parser.header unread = some header) :
    ∃ hn : n < messages.length, ∃ rest, unread = messages[n].head ++ rest ∧
      rest <+: messages[n].body ++ wire (messages.drop (n + 1)) ∧
      header = ⟨messages[n].request, messages[n].head.length, messages[n].body = []⟩ := by
  by_cases hn : n < messages.length
  · have hm := hreads messages[n] (getElem_mem hn)
    rw [drop_eq_getElem_cons hn, wire_cons] at hunread
    rcases prefix_append_cases hunread with ⟨hcut, hne⟩ | ⟨rest, rfl, hrest⟩
    · rw [hm.header_cut unread hcut hne] at h
      cases h
    · rw [hm.header, Option.some.injEq] at h
      exact ⟨hn, rest, rfl, hrest, h.symm⟩
  · rw [drop_eq_nil_of_le (by omega)] at hunread
    rw [prefix_nil.1 hunread, hnil] at h
    cases h

variable {s : State}

theorem aligned_close (hn : n ≤ messages.length) (hstarts : s.starts = messageStarts messages n) :
    Aligned messages s.close := ⟨n, hn, hstarts, nofun⟩

theorem aligned_finish (hn : n < messages.length) (hstarts : s.starts = messageStarts messages n)
    (hoffset : s.offset = (wire (messages.take (n + 1))).length)
    (hunread : s.unread <+: wire (messages.drop (n + 1)))
    (client exchange : Bool) : Aligned messages (s.finishHttpForward client exchange) := by
  unfold State.finishHttpForward
  split
  · refine ⟨n + 1, hn, ?_, fun _ => ⟨hoffset, hunread⟩⟩
    rw [messageStarts_succ, ← hstarts, ← hoffset]
    rfl
  · exact aligned_close (Nat.le_of_lt hn) hstarts

/-- A forwarded request of which `taken` bytes went upstream. -/
def State.forwardSent (s : State) (request : ForwardRequest) (clientKeepAlive : Bool) (w : World) (taken : Nat)
    (whole : Bool) : State :=
  if !whole then (s.take taken).close
  else match w.outcome with
    | .failed => (s.take taken).close
    | .response status keepAlive =>
      if status < 200 ∨ 599 < status then (s.take taken).close
      else
        (if request.hasBody then { s.take taken with unread := (s.take taken).unread.take w.readable }
          else s.take taken).finishHttpForward clientKeepAlive (clientKeepAlive && keepAlive)

theorem aligned_forward {hn : n < messages.length} (hm : parser.Reads messages[n])
    (hstarts : s.starts = messageStarts messages n)
    (hoffset : s.offset = (wire (messages.take n)).length + messages[n].head.length)
    (hunread : s.unread <+: messages[n].body ++ wire (messages.drop (n + 1)))
    (hheader : header = ⟨messages[n].request, messages[n].head.length, messages[n].body = []⟩)
    {request : ForwardRequest}
    (hbody : request.hasBody = !header.done) (w : World) :
    Aligned messages (s.forward parser header request w) := by
  have hend := length_wire_take_succ hn
  subst hheader
  unfold State.forward
  split
  · exact aligned_close (Nat.le_of_lt hn) hstarts
  · -- the session behind the part of the body that went upstream
    have hsent : ∀ (taken : Nat) (whole : Bool), (whole = true → taken = messages[n].body.length ∧
        messages[n].body <+: s.unread) →
        Aligned messages (s.forwardSent request (httpRequestKeepAlive messages[n].request) w taken whole) := by
      intro taken whole hwhole
      unfold State.forwardSent
      split
      · exact aligned_close (Nat.le_of_lt hn) hstarts
      · rename_i hw
        obtain ⟨rfl, hpre⟩ := hwhole (by simpa using hw)
        split
        · exact aligned_close (Nat.le_of_lt hn) hstarts
        · split
          · exact aligned_close (Nat.le_of_lt hn) hstarts
          · obtain ⟨rest, hrest⟩ := hpre
            have hbehind : s.unread.drop messages[n].body.length <+: wire (messages.drop (n + 1)) := by
              rw [← hrest] at hunread ⊢
              rw [drop_left]
              exact (prefix_append_right_inj _).1 hunread
            refine aligned_finish hn ?_ ?_ ?_ _ _
            · split <;> exact hstarts
            · split <;> (show s.offset + _ = _; omega)
            · split
              · exact (List.take_prefix _ _).trans hbehind
              · exact hbehind
    cases hb : request.hasBody with
    | false =>
      have hnil : messages[n].body = [] := by simpa [hb] using hbody
      have h0 := hsent 0 true fun _ => ⟨by rw [hnil]; rfl, by rw [hnil]; exact nil_prefix⟩
      rw [State.forwardSent, hb] at h0
      exact h0
    | true =>
      rcases prefix_append_cases hunread with ⟨hcut, hne⟩ | ⟨rest, hrest, -⟩
      · have h0 := hsent 0 false fun hwhole => absurd hwhole Bool.false_ne_true
        rw [hm.body_cut _ hcut hne]
        exact h0
      · have hsize : parser.bodySize messages[n].request s.unread = some messages[n].body.length := by
          rw [hrest]
          exact hm.body rest
        rw [hsize]
        have h0 := hsent _ _ fun hwhole =>
          ⟨show (upload request.contentLength _ w.trailersFail w.pulls 0 0).1 = _ from upload_taken hwhole,
            by rw [hrest]; exact prefix_append _ _⟩
        rw [State.forwardSent, hb] at h0
        exact h0

variable {w : World}

theorem serve_aligned (hreads : ∀ m ∈ messages, parser.Reads m) (hnil : parser.header [] = none)
    (h : Aligned messages s) (hdrained : Drained owner parser s w) :
    Aligned messages (s.serve owner parser w) := by
  obtain ⟨n, hle, hstarts, hreading⟩ := h
  unfold State.serve
  split
  · exact ⟨n, hle, hstarts, hreading⟩
  · rename_i hphase
    have hphase : s.phase = .reading := by simpa using hphase
    obtain ⟨hoffset, hunread⟩ := hreading hphase
    cases hparse : parser.header s.unread with
    | none => exact aligned_close hle hstarts
    | some header =>
      obtain ⟨hn, rest, hsplit, hrest, hheader⟩ := header_of_aligned hreads hnil hunread hparse
      have hbehind : (s.take header.size).unread = rest := by
        show s.unread.drop header.size = rest
        rw [hsplit, hheader]
        exact drop_left
      have hat : (s.take header.size).offset = (wire (messages.take n)).length + messages[n].head.length := by
        show s.offset + header.size = _
        rw [hoffset, hheader]
      -- a message that ends with its header
      have hfinish : header.done = true → ∀ client exchange,
          Aligned messages ((s.take header.size).finishHttpForward client exchange) := by
        intro hdone
        have hnil : messages[n].body = [] := by simpa [hheader] using hdone
        rw [hnil, nil_append] at hrest
        refine aligned_finish hn hstarts ?_ ?_
        · rw [hat, length_wire_take_succ hn, hnil]
          rfl
        · rw [hbehind]
          exact hrest
      dsimp only
      split
      · rename_i status reason extra keep hanswer
        split
        · rename_i hkeep
          rw [Bool.and_eq_true] at hkeep
          rw [hkeep.2] at hanswer
          exact hfinish (hdrained hphase hkeep.1 header hparse (respond_keepAlive hanswer)) _ _
        · exact aligned_close hle hstarts
      · rename_i missing keep hanswer
        split
        · rename_i hkeep
          rw [Bool.and_eq_true] at hkeep
          rw [hkeep.2] at hanswer
          exact hfinish (authenticate_keepAlive hanswer) _ _
        · exact aligned_close hle hstarts
      · exact ⟨n, hle, hstarts, nofun⟩
      · exact ⟨n, hle, hstarts, nofun⟩
      · rename_i request expects hanswer
        refine aligned_forward (s := s.take header.size) (hreads _ (getElem_mem hn)) hstarts hat ?_ hheader
          (forward_begun hanswer).2.1 w
        rw [hbehind]
        exact hrest

theorem messageStarts_length (messages : List Message) (n : Nat) :
    (messageStarts messages n).length = n + 1 := by
  simp [messageStarts]

theorem serve_unframed (hreads : ∀ m ∈ messages, parser.Reads m) (hnil : parser.header [] = none)
    (h : Aligned messages s) (hdrained : ¬ Drained owner parser s w) :
    ¬ Framed messages (s.serve owner parser w) := by
  obtain ⟨n, -, hstarts, hreading⟩ := h
  unfold Drained at hdrained
  push Not at hdrained
  obtain ⟨hphase, hwritten, header, hparse, hoptions, hdone⟩ := hdrained
  obtain ⟨hoffset, hunread⟩ := hreading hphase
  obtain ⟨hn, -, -, -, hheader⟩ := header_of_aligned hreads hnil hunread hparse
  have hkeep : httpRequestKeepAlive header.request = true := by
    simp only [keepsOptions, Bool.and_eq_true] at hoptions
    exact hoptions.2
  have hserve : (s.serve owner parser w).starts = s.starts ++ [s.offset + header.size] := by
    have hparse : parser.header s.unread = some header := hparse
    simp only [State.serve, hphase, hparse, handle_of_keepsOptions _ hoptions, hwritten, hkeep,
      State.finishHttpForward]
    rfl
  rintro ⟨k, hk, hframed⟩
  rw [hserve, hstarts] at hframed
  have hlength := congrArg List.length hframed
  simp only [length_append, messageStarts_length, length_singleton] at hlength
  obtain rfl : k = n + 1 := by omega
  rw [messageStarts_succ] at hframed
  have hlast := append_cancel_left hframed
  simp only [List.cons.injEq, and_true] at hlast
  have hbody : messages[n].body ≠ [] := by simpa [hheader] using hdone
  have hpos := length_pos_of_ne_nil hbody
  have hend := length_wire_take_succ hn
  have hsize : header.size = messages[n].head.length := by rw [hheader]
  omega

end Invariant

/-- **The framing of a kept connection.**  For every list of messages that the parser reads, and every run
of the session over them: each header parse starts at the first byte behind the message before it if and
only if no kept `OPTIONS *` with a body is answered on the way. -/
theorem serve_starts_iff (owner : Owner) (parser : Parser) (messages : List Message)
    (hreads : ∀ m ∈ messages, parser.Reads m) (hnil : parser.header [] = none) (worlds : List World) :
    (∀ pre, pre <+: worlds →
      Framed messages (Runs.run (State.serve owner parser) (start (wire messages)) pre)) ↔
    Runs.Along (State.serve owner parser) (Drained owner parser) (start (wire messages)) worlds :=
  Runs.forall_prefix_iff_along (P := Aligned messages) (fun _ ⟨n, hn, hstarts, _⟩ => ⟨n, hn, hstarts⟩)
    (fun _ _ h hdrained => serve_aligned hreads hnil h hdrained)
    (fun _ _ h hdrained => serve_unframed hreads hnil h hdrained)
    ⟨0, Nat.zero_le _, rfl, fun _ => ⟨rfl, by simp [start]⟩⟩ worlds

def Parser.only (m : Message) : Parser where
  header bytes := if m.head.isPrefixOf bytes then some ⟨m.request, m.head.length, m.body = []⟩ else none
  bodySize _ bytes := if m.body.isPrefixOf bytes then some m.body.length else none

theorem not_isPrefixOf_of_cut {a p : Bytes} (h : p <+: a) (hne : p ≠ a) : a.isPrefixOf p = false := by
  rw [Bool.eq_false_iff]
  intro hp
  exact hne (h.eq_of_length_le (List.isPrefixOf_iff_prefix.1 hp).length_le)

theorem Parser.only_reads (m : Message) : (Parser.only m).Reads m where
  header rest := if_pos (List.isPrefixOf_iff_prefix.2 (prefix_append _ _))
  header_cut p h hne := if_neg (by simp [not_isPrefixOf_of_cut h hne])
  body rest := if_pos (List.isPrefixOf_iff_prefix.2 (prefix_append _ _))
  body_cut p h hne := if_neg (by simp [not_isPrefixOf_of_cut h hne])

theorem Parser.only_nil (m : Message) : (Parser.only m).header [] = none := by
  cases hm : m.head with
  | nil => exact absurd hm m.head_ne
  | cons a as => simp [Parser.only, hm]

/-- A message `method target HTTP/1.1` with a body of known length. -/
def lengthMessage (method target body : String) : Message where
  head := ascii (method ++ " " ++ target ++ " HTTP/1.1\r\nContent-Length: " ++
    toString body.length ++ "\r\n\r\n")
  body := ascii body
  request := { method := ascii method, target := ascii target, version := 11
               fields := [⟨ascii "Content-Length", ascii (toString body.length)⟩], keepAlive := true
               contentLength := some body.length }
  head_ne := by
    simp [ascii]

/-- Two posts, forwarded with their bodies. -/
theorem serve_starts_posts :
    let post := lengthMessage "POST" "http://a/" "abc"
    let answered : World := ⟨true, true, [⟨2, 2, false⟩, ⟨1, 1, false⟩, ⟨0, 0, false⟩], false,
      .response 200 true, 4096⟩
    ∀ pre, pre <+: [answered, answered] →
      Framed [post, post] (Runs.run (State.serve ⟨[], [], some⟩ (.only post))
        (start (wire [post, post])) pre) := by
  intro post answered
  exact (serve_starts_iff ⟨[], [], some⟩ (.only post) [post, post]
    (fun m hm => by
      obtain rfl : m = post := by simpa using hm
      exact Parser.only_reads post) (Parser.only_nil post) [answered, answered]).2 (by decide +kernel)

/-- **The body of an `OPTIONS *`** is parsed as the next request. -/
theorem options_body_parsed :
    let options := lengthMessage "OPTIONS" "*" "GET / HTTP/1.1"
    ¬ ∀ pre, pre <+: [(⟨true, true, [], false, .failed, 0⟩ : World)] →
      Framed [options] (Runs.run (State.serve ⟨[], [], some⟩ (.only options)) (start (wire [options])) pre) := by
  intro options h
  obtain ⟨n, hn, hstarts⟩ := h _ (prefix_refl _)
  have hserved : (Runs.run (State.serve ⟨[], [], some⟩ (.only options)) (start (wire [options]))
      [(⟨true, true, [], false, .failed, 0⟩ : World)]).starts = [0, options.head.length] := by decide +kernel
  rw [hserved] at hstarts
  obtain rfl : n = 1 := by
    have := congrArg List.length hstarts
    simpa [messageStarts_length] using this.symm
  exact absurd hstarts (by decide +kernel)

end ClashNative.Http.Inbound
