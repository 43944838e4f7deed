import ClashNative.CoreTypes
import Mathlib.Data.List.Infix
/-!
# DnsTypes — DNS packets and the policy router

`dns_types.hpp`, `normalize_name`, `DnsMessageCodec::rewrite_id` and `dns_policy_router.cpp`.  Strings and
wire messages are lists of bytes.
-/
namespace ClashNative.Dns

structure DnsQuestion where
  name : List UInt8
  type : UInt16 := 1
  classCode : UInt16 := 1
  deriving DecidableEq, Repr

structure DnsSoaData where
  minimumTtl : UInt32
  deriving DecidableEq, Repr

/-- `DnsResourceRecord`: the fields the cache reads. -/
structure DnsResourceRecord where
  type : UInt16
  ttlSeconds : UInt32
  rdata : List UInt8 := []
  soa : Option DnsSoaData := none
  deriving DecidableEq, Repr

def dnsRecordTypeSoa : UInt16 := 6

structure DnsPacket where
  wire : List UInt8
  id : UInt16 := 0
  flags : UInt16 := 0
  extendedResponseCode : UInt8 := 0
  questions : List DnsQuestion := []
  answers : List DnsResourceRecord := []
  authorities : List DnsResourceRecord := []
  deriving DecidableEq, Repr

namespace DnsPacket

def response (p : DnsPacket) : Bool := p.flags &&& 0x8000 != 0

def responseCode (p : DnsPacket) : UInt16 := (p.extendedResponseCode.toUInt16 <<< 4) ||| (p.flags &&& 0x000f)

end DnsPacket

/-- `normalize_name`: trailing dots go, letters become lower case. -/
def normalizeName (name : List UInt8) : List UInt8 := (name.reverse.dropWhile (· == 46)).reverse.map toLower

def missingTransactionId : Error := ⟨.protocolFraming, "DNS packet wire message is missing a transaction ID"⟩

/-- `DnsMessageCodec::rewrite_id`: the first two bytes of the wire message become the identifier. -/
def rewriteId (packet : DnsPacket) (id : UInt16) : Except Error (List UInt8) :=
  match packet.wire with
  | _ :: _ :: rest => .ok ((id >>> 8).toUInt8 :: (id &&& 0xff).toUInt8 :: rest)
  | _ => .error missingTransactionId

/-! ## The policy router -/

inductive DnsPolicyRuleKind
  | exact | suffix | keyword
  deriving DecidableEq, Repr

structure DnsPolicyRule where
  kind : DnsPolicyRuleKind
  value : List UInt8
  upstreamGroup : List UInt8
  deriving DecidableEq, Repr

structure DnsPolicyRouter where
  defaultUpstream : List UInt8
  rules : List DnsPolicyRule
  deriving DecidableEq, Repr

/-- `matches`, of a normalized value and a normalized name. -/
def DnsPolicyRule.matchesName (rule : DnsPolicyRule) (normalizedValue name : List UInt8) : Bool :=
  match rule.kind with
  | .exact => name == normalizedValue
  | .suffix => name == normalizedValue || (46 :: normalizedValue).isSuffixOf name
  | .keyword => decide (normalizedValue <:+: name)

/-- `DnsPolicyRouter::select`: the group of the first rule that matches, else the default. -/
def DnsPolicyRouter.select (router : DnsPolicyRouter) (name : List UInt8) : List UInt8 :=
  match router.rules.find? (fun rule => rule.matchesName (normalizeName rule.value) (normalizeName name)) with
  | some rule => rule.upstreamGroup
  | none => router.defaultUpstream

end ClashNative.Dns
