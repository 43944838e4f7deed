import ClashNative.HttpInbound
/-!
# HttpForwardedFields — the fields that go upstream

`begin_http_forward` filters the fields of a request twice: a plain forward drops what is nominated, hop
by hop or about the proxy; an upgrade drops the names of a list, whatever the client's Connection fields
nominate.
-/
namespace ClashNative.Http.Inbound

open List

def nominated (fields : List Field) (name : Bytes) : Bool :=
  (fieldElements fields (ascii "connection")).any fun option => lowercaseAscii option == lowercaseAscii name

def staysHere (fields : List Field) (name : Bytes) : Bool :=
  nominated fields name || (hopByHopNames ++ [ascii "trailer"]).any (isHttpHeader name)

def passes (fields : List Field) (f : Field) : Bool :=
  !(staysHere fields f.name || [ascii "host", ascii "content-length", ascii "expect"].any (isHttpHeader f.name))

namespace Answer

def headers : Answer → Option (List Field)
  | .forward request _ => some request.headers
  | .upgrade request => some request.headers
  | _ => none

def generated : Answer → List Field
  | .forward request _ =>
    if request.hasBody ∧ request.declaredTrailers ≠ [] then
    [⟨ascii "Trailer", joinNames request.declaredTrailers⟩] else []
  | _ => []

end Answer

/-- **What is promised of a request that goes upstream**: but for the proxy's own Trailer field nothing is
sent that stays here, and what goes through is sent as it is, in order. -/
def Forwards (request : Request) (answer : Answer) : Prop :=
  ∀ headers, answer.headers = some headers → ∃ own, headers = own ++ answer.generated ∧
    (∀ f, f ∈ own → staysHere request.fields f.name = false) ∧
    own.filter (passes request.fields) = request.fields.filter (passes request.fields)

def upgrades (owner : Owner) (request : Request) (done : Bool) : Bool :=
  authenticateHttpRequest owner request == .accepted && request.version == 11 && request.method == ascii
  "GET" && done &&
    (parseHttpAbsoluteTarget request.target).isSome && (collectUpgradeProtocol request.fields).isSome &&
    (collectConnectionOptions request.fields).any fun options => options.contains (ascii "upgrade") &&
      !options.any fun o => o == ascii "content-length" || o == ascii "host" || o == ascii "transfer-encoding"

/-- **The condition**: an upgrade nominates no field but those of the list, and has no Proxy-Authenticate
field. -/
def NominatesListed (owner : Owner) (request : Request) (done : Bool) : Prop :=
  upgrades owner request done = true → ∀ f, f ∈ request.fields →
  upgradeDropped.any (isHttpHeader f.name) = false →
    nominated request.fields f.name = false ∧ isHttpHeader f.name (ascii "proxy-authenticate") = false

/-! ## Names -/

variable {options : List Bytes} {fields : List Field}

theorem contains_options (h : collectConnectionOptions fields = some options) (name : Bytes) :
    options.contains (lowercaseAscii name) = nominated fields name := by
  unfold collectConnectionOptions at h
  dsimp only at h
  split at h
  · cases h
    unfold nominated
    rw [Bool.eq_iff_iff, contains_iff_mem, mem_map, any_eq_true]
    exact exists_congr fun option => and_congr_right fun _ => beq_iff_eq.symm
  · cases h

theorem staysHere_eq (h : collectConnectionOptions fields = some options) (name : Bytes) :
    staysHere fields name = (isHopByHopOrProxyHeader name options || isHttpHeader name (ascii "trailer")) := by
  unfold staysHere isHopByHopOrProxyHeader
  rw [contains_options h, any_append, any_cons, any_nil, Bool.or_false, Bool.or_assoc]

/-! ## A plain forward -/

variable {request : Request} {done : Bool}

theorem forwardRequest_forwards {target : ParsedHttpTarget}
    (hoptions : collectConnectionOptions request.fields = some options)
    (hhost : options.contains (ascii "host") = false)
    (trailers : List Bytes) (expects : Bool) :
    Forwards request (.forward (forwardRequest request done target options trailers) expects) := by
  intro headers hheaders
  cases hheaders
  have hown : staysHere request.fields (ascii "Host") = false := by
    rw [staysHere_eq hoptions]
    unfold isHopByHopOrProxyHeader
    have hlower : lowercaseAscii (ascii "Host") = ascii "host" := by decide
    rw [hlower, hhost]
    decide
  refine ⟨request.fields.filter (fun f =>
    !(isHttpHeader f.name (ascii "host") || isHttpHeader f.name (ascii "content-length") ||
      isHttpHeader f.name (ascii "expect") || isHttpHeader f.name (ascii "trailer") ||
      isHopByHopOrProxyHeader f.name options)) ++ [⟨ascii "Host", target.authority⟩], rfl, fun f hf => ?_, ?_⟩
  · rcases mem_append.1 hf with hkept | hnew
    · have hkept := (mem_filter.1 hkept).2
      rw [staysHere_eq hoptions]
      simp only [Bool.not_eq_true', Bool.or_eq_false_iff] at hkept
      rw [hkept.2, hkept.1.2]
      rfl
    · rw [mem_singleton.1 hnew]
      exact hown
  · have hlisted : [ascii "host", ascii "content-length", ascii "expect"].any
      (isHttpHeader (ascii "Host")) = true := by decide
    have hdropped : passes request.fields ⟨ascii "Host", target.authority⟩ = false := by
      unfold passes
      rw [hlisted, Bool.or_true]
      rfl
    rw [filter_append, filter_singleton, hdropped, filter_filter]
    refine (append_nil _).trans (filter_congr fun f _ => ?_)
    unfold passes
    rw [staysHere_eq hoptions]
    simp only [any_cons, any_nil]
    cases isHttpHeader f.name (ascii "host") <;> cases isHttpHeader f.name (ascii "content-length") <;>
      cases isHttpHeader f.name (ascii "expect") <;> cases isHttpHeader f.name (ascii "trailer") <;>
      cases isHopByHopOrProxyHeader f.name options <;> rfl

/-! ## An upgrade -/

def upgradeRequest (request : Request) (target : ParsedHttpTarget) (protocol : Bytes) : UpgradeRequest :=
  ⟨target.authority, target.originTarget, protocol,
    request.fields.filter (fun f => !upgradeDropped.any (isHttpHeader f.name)), target.host,
    target.port⟩

theorem staysHere_of_kept {name : Bytes} (hkept : upgradeDropped.any (isHttpHeader name) = false) :
    staysHere fields name = (nominated fields name || isHttpHeader name (ascii "proxy-authenticate")) := by
  unfold upgradeDropped at hkept
  unfold staysHere hopByHopNames
  simp only [any_cons, any_nil, Bool.or_eq_false_iff, cons_append, nil_append, Bool.or_false] at hkept ⊢
  obtain ⟨-, hconnection, hupgrade, hproxy, hauthorization, halive, hte, htrailer, htransfer, -⟩ := hkept
  rw [hconnection, hupgrade, hproxy, hauthorization, halive, hte, htrailer, htransfer]
  simp only [Bool.false_or, Bool.or_false]

theorem kept_of_passes {f : Field} (h : passes fields f = true) :
    upgradeDropped.any (isHttpHeader f.name) = false := by
  unfold passes staysHere hopByHopNames at h
  unfold upgradeDropped
  simp only [any_cons, any_nil, Bool.not_eq_true', Bool.or_eq_false_iff, cons_append, nil_append] at h ⊢
  obtain ⟨⟨-, hconnection, halive, hproxy, -, hauthorization, hte, htransfer, hupgrade, htrailer, -⟩, hhost,
    hlength, -, -⟩ := h
  exact ⟨hhost, hconnection, hupgrade, hproxy, hauthorization, halive, hte, htrailer, htransfer,
    hlength, trivial⟩

theorem upgrade_forwards_iff (request : Request) (target : ParsedHttpTarget) (protocol : Bytes) :
    Forwards request (.upgrade (upgradeRequest request target protocol)) ↔
      ∀ f, f ∈ request.fields → upgradeDropped.any (isHttpHeader f.name) = false →
        nominated request.fields f.name = false ∧ isHttpHeader f.name (ascii "proxy-authenticate") = false := by
  constructor
  · intro h f hf hkept
    obtain ⟨own, hown, hclean, -⟩ := h _ rfl
    have hmem : f ∈ own := by
      rw [show own = _ from (append_nil own).symm.trans hown.symm]
      exact mem_filter.2 ⟨hf, by rw [hkept]; rfl⟩
    have hstays := hclean f hmem
    rw [staysHere_of_kept hkept] at hstays
    exact Bool.or_eq_false_iff.1 hstays
  · intro h headers hheaders
    cases hheaders
    refine ⟨_, (append_nil _).symm, fun f hf => ?_, ?_⟩
    · obtain ⟨hmem, hkept⟩ := mem_filter.1 hf
      have hkept : upgradeDropped.any (isHttpHeader f.name) = false := by simpa using hkept
      rw [staysHere_of_kept hkept]
      exact Bool.or_eq_false_iff.2 (h f hmem hkept)
    · unfold upgradeRequest
      rw [filter_filter]
      refine filter_congr fun f _ => ?_
      cases hpasses : passes request.fields f with
      | false => rfl
      | true =>
        rw [kept_of_passes hpasses]
        rfl

/-! ## What becomes of a request -/

/-- **A request goes upstream** as a forward, with the fields nominated as collected, or as an upgrade. -/
inductive GoesUp (owner : Owner) (request : Request) (done : Bool) : Answer → Prop
  | stays (answer : Answer) : answer.headers = none → GoesUp owner request done answer
  | forward (target : ParsedHttpTarget) (options trailers : List Bytes) (expects : Bool) :
      collectConnectionOptions request.fields = some options → options.contains (ascii "host") = false →
      GoesUp owner request done (.forward (forwardRequest request done target options trailers) expects)
  | upgrade (target : ParsedHttpTarget) (protocol : Bytes) : upgrades owner request done = true →
      GoesUp owner request done (.upgrade (upgradeRequest request target protocol))

variable {owner : Owner}

theorem beginHttpForward_goesUp (hauth : authenticateHttpRequest owner request = .accepted)
    (done keepAlive : Bool) : GoesUp owner request done (beginHttpForward request done keepAlive) := by
  unfold beginHttpForward
  split
  · exact .stays _ rfl
  · rename_i hversion
    split
    · exact .stays _ rfl
    · split
      · split
        · split <;> exact .stays _ rfl
        · exact .stays _ rfl
      · rename_i target htarget
        split
        · exact .stays _ rfl
        · rename_i options hoptions
          split
          · exact .stays _ rfl
          · rename_i hallowed
            have hallowed := Bool.not_eq_true _ ▸ hallowed
            split
            · unfold beginUpgrade
              split
              · exact .stays _ rfl
              · rename_i protocol hprotocol
                split
                · exact .stays _ rfl
                · rename_i hoption
                  split
                  · exact .stays _ rfl
                  · rename_i hget
                    refine .upgrade target protocol ?_
                    rw [not_or, not_not] at hget
                    have hversion : request.version = 11 := not_not.1 hversion
                    unfold upgrades
                    have hdone : done = true := by simpa using hget.2
                    have hoption : options.contains (ascii "upgrade") = true := by simpa using hoption
                    rw [hauth, hversion, hget.1, hdone, htarget, hprotocol, hoptions, Option.any_some,
                      hallowed, hoption]
                    rfl
            · split
              · exact .stays _ rfl
              · split
                · exact .stays _ rfl
                · refine .forward target options _ _ hoptions ?_
                  rw [any_eq_false] at hallowed
                  rw [Bool.eq_false_iff]
                  intro hhost
                  exact hallowed _ (contains_iff_mem.1 hhost) (by decide)

theorem handleHttpHeaders_goesUp (owner : Owner) (request : Request) (done : Bool) :
    GoesUp owner request done (handleHttpHeaders owner request done) := by
  unfold handleHttpHeaders
  split
  · exact .stays _ rfl
  · exact .stays _ rfl
  · rename_i hauth
    split
    · exact beginHttpForward_goesUp hauth done _
    · split
      · exact .stays _ rfl
      · split <;> exact .stays _ rfl

theorem upgrade_of_upgrades (h : upgrades owner request done = true) :
    ∃ upgrade, handleHttpHeaders owner request done = .upgrade upgrade := by
  unfold upgrades at h
  simp only [Bool.and_eq_true, beq_iff_eq, Option.isSome_iff_exists, Option.any_eq_true] at h
  obtain ⟨⟨⟨⟨⟨⟨hauth, hversion⟩, hmethod⟩, hdone⟩, target, htarget⟩, protocol, hprotocol⟩, options,
    hoptions, hupgrade, hallowed⟩ := h
  have hget : request.method ≠ ascii "CONNECT" := by
    rw [hmethod]
    decide
  have hother : ¬ (request.target = ascii "*" ∧ request.method = ascii "OPTIONS") := fun hstar => by
    rw [hmethod] at hstar
    exact absurd hstar.2 (by decide)
  refine ⟨upgradeRequest request target protocol, ?_⟩
  unfold handleHttpHeaders beginHttpForward
  rw [hauth]
  dsimp only
  rw [if_pos hget, if_neg (not_not.2 hversion), if_neg hother, htarget, hoptions]
  dsimp only
  rw [if_neg (by simpa using hallowed), hupgrade, Bool.or_true, if_pos rfl]
  unfold beginUpgrade
  rw [hprotocol]
  dsimp only
  rw [hupgrade, if_neg (by decide), if_neg (by rw [hdone]; simp [hmethod])]
  rfl

/-- **The fields of a request that goes upstream** are as promised exactly if it is no upgrade that
nominates a field that is handed on. -/
theorem forwards_iff (owner : Owner) (request : Request) (done : Bool) :
    Forwards request (handleHttpHeaders owner request done) ↔ NominatesListed owner request done := by
  have hup := handleHttpHeaders_goesUp owner request done
  have hno : (∀ upgrade, handleHttpHeaders owner request done ≠ .upgrade upgrade) →
    NominatesListed owner request done := fun hne hupgrades => by
    obtain ⟨upgrade, heq⟩ := upgrade_of_upgrades hupgrades
    exact absurd heq (hne upgrade)
  generalize handleHttpHeaders owner request done = answer at hup hno ⊢
  cases hup with
  | stays _ hnone =>
    refine iff_of_true (fun headers hheaders => ?_) (hno fun upgrade heq => ?_)
    · rw [hnone] at hheaders
      cases hheaders
    · rw [heq] at hnone
      cases hnone
  | forward target options trailers expects hoptions hhost =>
    exact iff_of_true (forwardRequest_forwards hoptions hhost trailers expects)
      (hno fun upgrade heq => by cases heq)
  | upgrade target protocol hupgrades =>
    rw [upgrade_forwards_iff]
    exact ⟨fun h _ => h, fun h => h hupgrades⟩

def openOwner : Owner := ⟨[], [], fun _ => none⟩

def nominatingRequest : Request where
  method := ascii "GET"
  target := ascii "http://h/"
  version := 11
  fields := [⟨ascii "Host", ascii "h"⟩, ⟨ascii "Connection", ascii "upgrade, x-secret"⟩,
    ⟨ascii "Upgrade", ascii "t"⟩,
    ⟨ascii "X-Secret", ascii "1"⟩]
  keepAlive := true
  contentLength := none

/-- X-Secret goes upstream. -/
theorem nominated_field_goes_upstream : ¬ Forwards nominatingRequest
    (handleHttpHeaders openOwner nominatingRequest true) := by
  intro h
  obtain ⟨own, hown, hclean, -⟩ := h [⟨ascii "X-Secret", ascii "1"⟩] (by decide +kernel)
  have hgenerated : (handleHttpHeaders openOwner nominatingRequest true).generated = [] := by decide +kernel
  rw [hgenerated, append_nil] at hown
  have hstays := hclean ⟨ascii "X-Secret", ascii "1"⟩ (hown ▸ mem_cons_self)
  exact absurd hstays (by decide +kernel)

end ClashNative.Http.Inbound
