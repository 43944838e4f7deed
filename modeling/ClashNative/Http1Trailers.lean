import ClashNative.GroupedLists
import ClashNative.HttpText
/-!
# Http1Trailers — the trailers of an HTTP/1.1 message

`run_streaming` of `http1_client.cpp` and `ProxyRequestBodyStream::trailers` of `proxy_stream.cpp`.  The
parser puts the fields of the trailer section into the container of the header section; both sides pass
over as many fields as the header section had.
-/
namespace ClashNative.Http

open List

/-- The field container of the parser, which keeps the fields of one name together: a field of a new name
is put at the end, another one right behind the last of its name. -/
structure FieldContainer where
  insert : List Field → Field → List Field
  insert_new : ∀ fields field, (∀ other ∈ fields, lowercaseAscii other.name ≠ lowercaseAscii field.name) →
    insert fields field = fields ++ [field]
  insert_beside : ∀ front last back field, lowercaseAscii last.name = lowercaseAscii field.name →
    (∀ other ∈ back, lowercaseAscii other.name ≠ lowercaseAscii field.name) →
      insert (front ++ last :: back) field = front ++ last :: field :: back

def FieldContainer.parse (container : FieldContainer) (fields : List Field) : List Field :=
  fields.foldl container.insert []

/-- `streaming_header_field_count`, and `initial_header_count_` of the proxy: the fields when the header
section has been read. -/
def headerFieldCount (container : FieldContainer) (header : List Field) : Nat := (container.parse header).length

/-- The trailers of a response, when the parser is done (`run_streaming`). -/
def responseTrailers (container : FieldContainer) (header trailer : List Field) : List Field :=
  (container.parse (header ++ trailer)).drop (headerFieldCount container header)

def passesTrailer (declaredTrailers : List Bytes) (field : Field) : Bool :=
  let normalized := lowercaseAscii field.name
  declaredTrailers.contains normalized && !isForbiddenTrailerField normalized

def ProxyRequestBodyStream.trailers (container : FieldContainer) (isDone : Bool) (declaredTrailers : List Bytes)
    (header trailer : List Field) : List Field :=
  if isDone then ((container.parse (header ++ trailer)).drop (headerFieldCount container header)).filter
    (passesTrailer declaredTrailers)
  else []

/-! ### What is owed -/

/-- **The trailers are told as they came**: what is passed over are the fields of the header section, and
what is told are those of the trailer section, in order. -/
structure TrailersTold (container : FieldContainer) (declaredTrailers : List Bytes)
    (header trailer : List Field) : Prop where
  skipped : (container.parse (header ++ trailer)).take (headerFieldCount container header) =
    container.parse header
  response : responseTrailers container header trailer = trailer
  request : ProxyRequestBodyStream.trailers container true declaredTrailers header trailer =
    trailer.filter (passesTrailer declaredTrailers)

/-- **The condition**: each trailer has a name that is new to the message, or the name that came up last.
-/
def NamesInTurn (header trailer : List Field) : Prop :=
  Grouped.InTurn (fun field : Field => lowercaseAscii field.name) header trailer

/-! ### The container is the fields, name after name -/

theorem parse_eq_grouped (container : FieldContainer) (fields : List Field) :
    container.parse fields = Grouped.grouped (fun field : Field => lowercaseAscii field.name) fields := by
  induction fields using List.reverseRecOn with
  | nil => rfl
  | append_singleton fields field ih =>
    unfold FieldContainer.parse at ih ⊢
    rw [foldl_append, foldl_cons, foldl_nil, ih]
    by_cases hname : lowercaseAscii field.name ∈ Grouped.keys
      (fun field : Field => lowercaseAscii field.name) fields
    · obtain ⟨before, behind, hkeys⟩ := append_of_mem hname
      obtain ⟨front, last, hlast, hfirst, hsecond⟩ := Grouped.grouped_beside hkeys
      have hapart := Grouped.nodup_keys (fun field : Field => lowercaseAscii field.name) fields
      rw [hkeys] at hapart
      rw [hfirst, hsecond]
      refine container.insert_beside front last _ field hlast fun other hother heq => ?_
      have hkey := (Grouped.mem_flatMap_group hother).2
      rw [heq] at hkey
      exact (nodup_cons.1 (nodup_append.1 hapart).2.1).1 hkey
    · rw [Grouped.grouped_new hname]
      refine container.insert_new _ field fun other hother heq => hname ?_
      exact (Grouped.mem_keys fields).2 ⟨other, Grouped.mem_grouped.1 hother, heq⟩

theorem headerFieldCount_eq (container : FieldContainer) (header : List Field) :
    headerFieldCount container header = header.length := by
  unfold headerFieldCount
  rw [parse_eq_grouped, Grouped.length_grouped]

/-- **The trailers are told as they came** exactly for the messages whose trailers come in turn. -/
theorem trailers_told_iff (container : FieldContainer) (declaredTrailers : List Bytes)
    (header trailer : List Field) :
    TrailersTold container declaredTrailers header trailer ↔ NamesInTurn header trailer := by
  constructor
  · intro h
    have hresponse := h.response
    unfold responseTrailers at hresponse
    rw [headerFieldCount_eq, parse_eq_grouped] at hresponse
    exact Grouped.inTurn_of_drop hresponse
  · intro h
    have hparse : container.parse (header ++ trailer) = container.parse header ++ trailer := by
      rw [parse_eq_grouped, parse_eq_grouped]
      exact Grouped.InTurn.grouped_append h
    refine ⟨?_, ?_, ?_⟩
    · rw [hparse, headerFieldCount, take_left]
    · rw [responseTrailers, hparse, headerFieldCount, drop_left]
    · rw [ProxyRequestBodyStream.trailers, if_pos rfl, hparse, headerFieldCount, drop_left]

/-! ### A container -/

def insertElement : List Field → Field → List Field
  | [], field => [field]
  | other :: fields, field =>
    if lowercaseAscii other.name = lowercaseAscii field.name ∧
    fields.all (fun f => lowercaseAscii f.name ≠ lowercaseAscii field.name) then
      other :: field :: fields
    else other :: insertElement fields field

theorem insertElement_new : ∀ (fields : List Field) (field : Field),
    (∀ other ∈ fields, lowercaseAscii other.name ≠ lowercaseAscii field.name) →
    insertElement fields field = fields ++ [field]
  | [], _, _ => rfl
  | other :: fields, field, h => by
    rw [insertElement, if_neg fun hboth => h other mem_cons_self hboth.1,
      insertElement_new fields field fun f hf => h f (mem_cons_of_mem _ hf), cons_append]

theorem insertElement_beside (last : Field) (back : List Field) (field : Field)
    (hlast : lowercaseAscii last.name = lowercaseAscii field.name)
    (hback : ∀ other ∈ back, lowercaseAscii other.name ≠ lowercaseAscii field.name) : ∀ front : List Field,
      insertElement (front ++ last :: back) field = front ++ last :: field :: back
  | [] => by
    rw [nil_append, insertElement, if_pos ⟨hlast,
      all_eq_true.2 fun f hf => by simpa using hback f hf⟩, nil_append]
  | other :: front => by
    have hmore : ¬ (front ++ last :: back).all (fun f =>
      lowercaseAscii f.name ≠ lowercaseAscii field.name) = true := by
      intro hall
      exact absurd hlast (by simpa using all_eq_true.1 hall last (mem_append_right front mem_cons_self))
    rw [cons_append, insertElement, if_neg fun hboth => hmore hboth.2,
      insertElement_beside last back field hlast hback front, cons_append]

def fieldContainer : FieldContainer where
  insert := insertElement
  insert_new := insertElement_new
  insert_beside := fun front last back field hlast hback =>
    insertElement_beside last back field hlast hback front

/-- A message with an ETag and a Server field ends with another ETag: the Server field is told as its
trailer. -/
theorem header_told_as_trailer :
    let header : List Field := [⟨ascii "ETag", ascii "1"⟩, ⟨ascii "Server", ascii "s"⟩]
    let trailer : List Field := [⟨ascii "ETag", ascii "2"⟩]
    responseTrailers fieldContainer header trailer = [⟨ascii "Server", ascii "s"⟩] ∧
      ProxyRequestBodyStream.trailers fieldContainer true [ascii "etag", ascii "server"] header trailer =
      [⟨ascii "Server", ascii "s"⟩] ∧
      ¬ TrailersTold fieldContainer [ascii "etag", ascii "server"] header trailer := by
  refine ⟨by decide, by decide, fun h => ?_⟩
  exact absurd h.response (by decide)

end ClashNative.Http
