import ClashNative.DnsTypes
import ClashNative.PairedMaps
import ClashNative.Runs
import Mathlib.Algebra.GroupWithZero.Nat
/-!
# FakeIpStore — synthetic addresses for domains

`fake_ip_store.cpp`.  Times are whole nanoseconds of the steady clock; an operation happens at one time.
The sum of a time and a lifetime is 64 bits wide and wraps around.
-/
namespace ClashNative.Dns

def nanosecondsPerSecond : Int := 1000000000

/-- `time_point::max()`. -/
def timePointMax : Int := 9223372036854775807

/-- `now + entry_ttl_`, or the last time there is when the entries of the store do not expire. -/
def expiry (entryTtl now : Int) : Int :=
  if entryTtl = 0 then timePointMax else (now + entryTtl * nanosecondsPerSecond).bmod (2 ^ 64)

structure FakeIpEntry where
  address : UInt32
  expires : Int
  deriving DecidableEq, Repr

/-- The arguments of `configure`; the lifetime is in seconds. -/
structure FakeIpConfig where
  network : UInt32
  prefix_ : UInt8
  capacity : Nat
  entryTtl : Int
  deriving DecidableEq, Repr

structure FakeIpStore where
  network : UInt32 := 0
  prefix_ : UInt8 := 0
  firstOffset : UInt32 := 1
  addressCount : UInt32 := 0
  nextOffset : UInt32 := 1
  capacity : Nat := 0
  entryTtl : Int := 300
  byDomain : AList (fun _ : List UInt8 => FakeIpEntry) := ∅
  byAddress : AList (fun _ : UInt32 => List UInt8) := ∅
  lastPurge : Int := 0

def emptyPoolError : Error := ⟨.configuration, "FakeIP requires a non-empty IPv4 pool"⟩

def poolCapacityError : Error := ⟨.configuration, "FakeIP pool capacity exceeds the network"⟩

def emptyDomainError : Error := ⟨.configuration, "FakeIP requires a non-empty domain"⟩

def exhaustionError : Error := ⟨.unsupported, "FakeIP address pool is exhausted"⟩

namespace FakeIpConfig

def total (c : FakeIpConfig) : Nat := 2 ^ (32 - c.prefix_.toNat)

def check (c : FakeIpConfig) : Except Error Unit :=
  if c.prefix_ > 30 ∨ c.capacity = 0 ∨ c.entryTtl < 0 then .error emptyPoolError
  else if c.capacity > c.total - 2 ∨ c.capacity > 2 ^ 32 - 1 then .error poolCapacityError
  else .ok ()

def mask (c : FakeIpConfig) : UInt32 := if c.prefix_ = 0 then 0 else 0xffffffff <<< (32 - c.prefix_.toUInt32)

end FakeIpConfig

namespace FakeIpStore

def mappings (s : FakeIpStore) : Nat := s.byDomain.entries.length

def clear (s : FakeIpStore) : FakeIpStore := { s with byDomain := ∅, byAddress := ∅ }

def configure (s : FakeIpStore) (c : FakeIpConfig) : FakeIpStore × Except Error Unit :=
  match c.check with
  | .error e => (s, .error e)
  | .ok () =>
    ({ s.clear with
        network := c.network &&& c.mask
        prefix_ := c.prefix_
        firstOffset := 1
        addressCount := UInt32.ofNat (c.total - 2)
        nextOffset := 1
        capacity := c.capacity
        entryTtl := c.entryTtl }, .ok ())

def construct (c : FakeIpConfig) : FakeIpStore :=
  match configure {} c with
  | (s, .ok ()) => s
  | (s, .error _) =>
    { s with network := 0, prefix_ := 32, firstOffset := 0, addressCount := 0, capacity := 0, entryTtl := 0 }

def drop (s : FakeIpStore) (domain : List UInt8) (address : UInt32) : FakeIpStore :=
  { s with byAddress := s.byAddress.erase address, byDomain := s.byDomain.erase domain }

def purgeExpired (s : FakeIpStore) (now : Int) : FakeIpStore :=
  if s.entryTtl = 0 then s
  else if now - s.lastPurge < nanosecondsPerSecond then s
  else
    s.byDomain.entries.foldl (fun s x => if x.2.expires > now then s else s.drop x.1 x.2.address)
      { s with lastPurge := now }

/-- The loop of `resolve`, with the attempts that are left. -/
def allocate (s : FakeIpStore) (domain : List UInt8) (now : Int) : Nat → FakeIpStore × Except Error UInt32
  | 0 => (s, .error exhaustionError)
  | attempts + 1 =>
    let offset := s.firstOffset + (s.nextOffset - s.firstOffset) % s.addressCount
    let s := { s with nextOffset := s.firstOffset + (offset - s.firstOffset + 1) % s.addressCount }
    let value := s.network + offset
    if value ∉ s.byAddress then
      ({ s with
          byDomain := s.byDomain.insert domain ⟨value, expiry s.entryTtl now⟩
          byAddress := s.byAddress.insert value domain }, .ok value)
    else s.allocate domain now attempts

def resolve (s : FakeIpStore) (domain : List UInt8) (now : Int) : FakeIpStore × Except Error UInt32 :=
  let s := s.purgeExpired now
  let normalized := normalizeName domain
  if normalized = [] then (s, .error emptyDomainError)
  else
    match s.byDomain.lookup normalized with
    | some existing => (s, .ok existing.address)
    | none =>
      if s.mappings ≥ s.capacity ∨ s.addressCount = 0 then (s, .error exhaustionError)
      else s.allocate normalized now s.addressCount.toNat

def reverse (s : FakeIpStore) (address : UInt32) (now : Int) : FakeIpStore × Option (List UInt8) :=
  let s := s.purgeExpired now
  (s, s.byAddress.lookup address)

def release (s : FakeIpStore) (domain : List UInt8) (now : Int) : FakeIpStore × Bool :=
  let s := s.purgeExpired now
  match s.byDomain.lookup (normalizeName domain) with
  | none => (s, false)
  | some found => (s.drop (normalizeName domain) found.address, true)

def size (s : FakeIpStore) (now : Int) : FakeIpStore × Nat :=
  let s := s.purgeExpired now
  (s, s.mappings)

/-! ### Runs -/

inductive Op
  | configure (c : FakeIpConfig)
  | resolve (domain : List UInt8) (now : Int)
  | reverse (address : UInt32) (now : Int)
  | release (domain : List UInt8) (now : Int)
  | clear
  | size (now : Int)
  deriving DecidableEq, Repr

def step (s : FakeIpStore) : Op → FakeIpStore
  | .configure c => (s.configure c).1
  | .resolve domain now => (s.resolve domain now).1
  | .reverse address now => (s.reverse address now).1
  | .release domain now => (s.release domain now).1
  | .clear => s.clear
  | .size now => (s.size now).1

end FakeIpStore

end ClashNative.Dns
