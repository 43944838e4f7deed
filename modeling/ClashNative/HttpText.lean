import ClashNative.CoreTypes
import Mathlib.Data.List.Basic
/-!
# HttpText — header names, lists and targets

`http_proxy_utils.cpp`, on byte strings.  `make_address` only decides how a host is stored, so a parsed
target keeps the host and the port.
-/
namespace ClashNative.Http

open List

abbrev Bytes := List UInt8

def ascii (s : String) : Bytes := s.toList.map (fun c => UInt8.ofNat c.toNat)

structure Field where
  name : Bytes
  value : Bytes
  deriving DecidableEq, Repr

/-! ### Tokens and names -/

def isHttpTokenCharacter (c : UInt8) : Bool :=
  (97 ≤ c && c ≤ 122) || (65 ≤ c && c ≤ 90) || (48 ≤ c && c ≤ 57) || (ascii "!#$%&'*+-.^_`|~").contains c

def isHttpToken (value : Bytes) : Bool := value ≠ [] && value.all isHttpTokenCharacter

def lowercaseAscii (value : Bytes) : Bytes := value.map toLower

def isHttpHeader (name expected : Bytes) : Bool := lowercaseAscii name == expected

def isBlank (c : UInt8) : Bool := c == 32 || c == 9

def trimHttpWhitespace (value : Bytes) : Bytes := ((value.dropWhile isBlank).reverse.dropWhile isBlank).reverse

/-- The trimmed elements of a comma-separated value: one, the whole value, when there is no comma. -/
def listElements (value : Bytes) : List Bytes := (value.splitOn 44).map trimHttpWhitespace

def fieldElements (fields : List Field) (expected : Bytes) : List Bytes :=
  (fields.filter (fun f => isHttpHeader f.name expected)).flatMap (fun f => listElements f.value)

/-- `collect_connection_options`: `none` when an element is no token. -/
def collectConnectionOptions (fields : List Field) : Option (List Bytes) :=
  let elements := fieldElements fields (ascii "connection")
  if elements.all isHttpToken then some (elements.map lowercaseAscii) else none

def hasUpgradeHeader (fields : List Field) : Bool := fields.any (fun f => isHttpHeader f.name (ascii "upgrade"))

/-- `collect_upgrade_protocol`: the one element of the Upgrade fields, if it is a token; a second one is
refused. -/
def collectUpgradeProtocol (fields : List Field) : Option Bytes :=
  match fieldElements fields (ascii "upgrade") with
  | [token] => if isHttpToken token then some token else none
  | _ => none

def hopByHopNames : List Bytes :=
  [ascii "connection", ascii "keep-alive", ascii "proxy-connection", ascii "proxy-authenticate",
    ascii "proxy-authorization", ascii "te", ascii "transfer-encoding", ascii "upgrade"]

def isHopByHopOrProxyHeader (name : Bytes) (connectionOptions : List Bytes) : Bool :=
  connectionOptions.contains (lowercaseAscii name) || hopByHopNames.any (isHttpHeader name)

def forbiddenTrailerNames : List Bytes :=
  [ascii "authorization", ascii "connection", ascii "content-encoding", ascii "content-length",
    ascii "content-range",
    ascii "content-type", ascii "host", ascii "keep-alive", ascii "proxy-authenticate",
    ascii "proxy-authorization",
    ascii "te", ascii "trailer", ascii "transfer-encoding", ascii "upgrade", ascii "www-authenticate",
    ascii "cache-control", ascii "expect"]

def isForbiddenTrailerField (name : Bytes) : Bool := forbiddenTrailerNames.any (isHttpHeader name)

/-- `collect_declared_trailers`: the declared names in lower case, each once; `none` when one of them may
not be a trailer. -/
def collectDeclaredTrailers (fields : List Field) (connectionOptions : List Bytes) : Option (List Bytes) :=
  let elements := fieldElements fields (ascii "trailer")
  let names := elements.map lowercaseAscii
  if elements.all isHttpToken && !names.any
    (fun n => isForbiddenTrailerField n || connectionOptions.contains n) then
    some (names.foldl (fun seen n => if seen.contains n then seen else seen ++ [n]) [])
  else none

/-! ### Authorities and targets -/

def isDigit (c : UInt8) : Bool := 48 ≤ c && c ≤ 57

def decimal (digits : Bytes) : Nat := digits.foldl (fun n c => n * 10 + (c.toNat - 48)) 0

def parsePort (value : Bytes) : Option Nat :=
  if value ≠ [] ∧ value.all isDigit ∧ decimal value ≠ 0 ∧
    decimal value ≤ 65535 then some (decimal value) else none

/-- What stands before the first occurrence of `sub`, and what behind it. -/
def breakOn (sub : Bytes) : Bytes → Option (Bytes × Bytes)
  | [] => if sub = [] then some ([], []) else none
  | c :: cs =>
    if sub.isPrefixOf (c :: cs) then some ([], (c :: cs).drop sub.length)
    else (breakOn sub cs).map (fun r => (c :: r.1, r.2))

variable {text : Bytes}

theorem breakOn_eq : ∀ {bytes front back : Bytes}, breakOn text bytes = some (front, back) →
    bytes = front ++ text ++ back
  | [], front, back, h => by
    rw [breakOn] at h
    split at h
    · rename_i hnil
      cases h
      rw [hnil]
      rfl
    · cases h
  | c :: cs, front, back, h => by
    rw [breakOn] at h
    split at h
    · rename_i hfront
      cases h
      obtain ⟨rest, hrest⟩ := isPrefixOf_iff_prefix.1 hfront
      rw [← hrest, drop_left, nil_append]
    · cases hcs : breakOn text cs with
      | none =>
        rw [hcs] at h
        cases h
      | some r =>
        rw [hcs] at h
        cases h
        rw [breakOn_eq hcs]
        rfl

theorem breakOn_append (hne : text ≠ []) (more : Bytes) : ∀ {bytes front back : Bytes},
    breakOn text bytes = some (front, back) → breakOn text (bytes ++ more) = some (front, back ++ more)
  | [], front, back, h => by
    rw [breakOn, if_neg hne] at h
    cases h
  | c :: cs, front, back, h => by
    rw [cons_append, breakOn]
    rw [breakOn] at h
    by_cases hfront : text.isPrefixOf (c :: cs) = true
    · rw [if_pos hfront] at h
      cases h
      have hstarts := isPrefixOf_iff_prefix.1 hfront
      rw [← cons_append, if_pos (List.isPrefixOf_iff_prefix.2 (hstarts.trans (prefix_append _ _))),
        drop_append_of_le_length hstarts.length_le]
    · rw [if_neg hfront] at h
      cases hcs : breakOn text cs with
      | none =>
        rw [hcs] at h
        cases h
      | some r =>
        rw [hcs] at h
        cases h
        have hlater := breakOn_append hne more hcs
        have hnot : ¬ text.isPrefixOf (c :: (cs ++ more)) = true := by
          intro hnow
          have hlength : text.length ≤ (c :: cs).length := by
            have heq := congrArg List.length (breakOn_eq hcs)
            simp only [length_append] at heq
            rw [length_cons]
            omega
          have hshort : text <+: c :: cs := prefix_of_prefix_length_le
            (List.isPrefixOf_iff_prefix.1 hnow) (prefix_append (c :: cs) more) hlength
          exact hfront (List.isPrefixOf_iff_prefix.2 hshort)
        rw [if_neg hnot, hlater]
        rfl

theorem breakOn_isSome_iff {head bytes stream : Bytes} (hne : text ≠ [])
    (hhead : ∃ lines, breakOn text head = some (lines, []))
    (hbytes : bytes <+: stream) (hstream : head <+: stream) :
    (breakOn text bytes).isSome = true ↔ head <+: bytes := by
  obtain ⟨lines, hlines⟩ := hhead
  constructor
  · intro hcontains
    obtain ⟨⟨front, back⟩, hfound⟩ := Option.isSome_iff_exists.1 hcontains
    by_cases hlength : head.length ≤ bytes.length
    · exact prefix_of_prefix_length_le hstream hbytes hlength
    · exfalso
      obtain ⟨more, hmore⟩ := prefix_of_prefix_length_le hbytes hstream (by omega)
      have hboth := breakOn_append hne more hfound
      rw [hmore, hlines, Option.some.injEq, Prod.mk.injEq] at hboth
      have hnil := (append_eq_nil_iff.1 hboth.2.symm).2
      rw [hnil, append_nil] at hmore
      exact hlength (Nat.le_of_eq (congrArg List.length hmore.symm))
  · rintro ⟨more, hmore⟩
    rw [← hmore, breakOn_append hne more hlines]
    rfl

def parseHttpAuthority (authority : Bytes) : Option (Bytes × Nat) := do
  let (host, portText) ←
    match authority with
    | 91 :: inside =>
      match breakOn [93] inside with
      | some (host, 58 :: portText) => some (host, portText)
      | _ => none
    | _ =>
      match breakOn [58] authority with
      | some (host, portText) => if portText.contains 58 then none else some (host, portText)
      | none => none
  let port ← parsePort portText
  if host = [] then none else some (host, port)

structure ParsedHttpTarget where
  host : Bytes
  port : Nat
  authority : Bytes
  originTarget : Bytes
  emptyPathAndQuery : Bool
  deriving DecidableEq, Repr

def splitAuthority (authority : Bytes) : Option (Bytes × Option Bytes) :=
  match authority with
  | 91 :: inside =>
    match breakOn [93] inside with
    | some ([], _) => none
    | some (host, []) => some (host, none)
    | some (host, 58 :: portText) => some (host, some portText)
    | _ => none
  | _ =>
    match breakOn [58] authority with
    | some (host, portText) => if portText.contains 58 then none else some (host, some portText)
    | none => some (authority, none)

def isHexDigit (c : UInt8) : Bool := isDigit c || (65 ≤ c && c ≤ 70) || (97 ≤ c && c ≤ 102)

def percentsValid : Bytes → Bool
  | [] => true
  | c :: cs => (c != 37 || (match cs with | a :: b :: _ => isHexDigit a && isHexDigit b | _ => false)) &&
      percentsValid cs

def isForbiddenInTarget (c : UInt8) : Bool := [92, 13, 10, 9, 32].contains c

def originTarget (suffix : Bytes) : Bytes :=
  match suffix with
  | [] => [47]
  | 63 :: _ => 47 :: suffix
  | _ => suffix

def parseHttpAbsoluteTarget (target : Bytes) : Option ParsedHttpTarget := do
  if target.length < 7 ∨ target.any isForbiddenInTarget ∨ target.contains 35 then none
  let (scheme, rest) ← breakOn (ascii "://") target
  if lowercaseAscii scheme ≠ ascii "http" then none
  let (authority, suffix) := rest.span (fun c => c != 47 && c != 63)
  if authority = [] ∨ authority.contains 64 then none
  let (host, portText) ← splitAuthority authority
  if host = [] ∨ host.any (fun c => [91, 93, 64, 37].contains c) then none
  let port ← match portText with
    | none => some 80
    | some text => parsePort text
  if !percentsValid (originTarget suffix) then none
  return ⟨host, port, authority, originTarget suffix, suffix = []⟩

/-! ### Credentials -/

/-- `basic_authorization_matches`; `base64Decode` is the library's. -/
def basicAuthorizationMatches (base64Decode : Bytes → Option Bytes) (header username password : Bytes) : Bool :=
  let header := trimHttpWhitespace header
  let scheme := header.takeWhile (!isBlank ·)
  if scheme = header ∨ lowercaseAscii scheme ≠ ascii "basic" then false
  else base64Decode (trimHttpWhitespace (header.drop scheme.length)) == some (username ++ [58] ++ password)

end ClashNative.Http
