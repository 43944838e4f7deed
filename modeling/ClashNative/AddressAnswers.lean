import ClashNative.DnsServer
import Mathlib.Data.List.Nodup
/-!
# AddressAnswers — the addresses of a DNS response

`DnsMessageCodec::to_address_answer` of `dns_codec.cpp`: it follows the CNAME records of a response from
the name of its question and takes the addresses of the name it comes to.
-/
namespace ClashNative.Dns

namespace AsioTransport

inductive IpAddress
  | v4 (bytes : Vector UInt8 4)
  | v6 (bytes : Vector UInt8 16) (scopeId : UInt32)
  deriving DecidableEq

structure Endpoint where
  address : IpAddress
  port : UInt16
  deriving DecidableEq

def messageId (message : List UInt8) : UInt16 :=
  ((message.getD 0 0).toUInt16 <<< 8) ||| (message.getD 1 0).toUInt16

end AsioTransport

open List

namespace Resolver

open AsioTransport (IpAddress)
open Server (codecError dnsRecordTypeA dnsRecordTypeAaaa)

def dnsRecordTypeCname : UInt16 := 5

abbrev Name := List UInt8

structure Record where
  name : Name
  type : UInt16
  classCode : UInt16 := 1
  ttlSeconds : UInt32
  targetName : Option Name := none
  parsedAddress : Option IpAddress := none
  deriving DecidableEq

/-- `DnsPacket`: the fields of a response that are read. -/
structure Packet where
  flags : UInt16
  extendedResponseCode : UInt8 := 0
  questions : List DnsQuestion
  answers : List Record
  deriving DecidableEq

namespace Packet

def response (p : Packet) : Bool := p.flags &&& 0x8000 != 0

def truncated (p : Packet) : Bool := p.flags &&& 0x0200 != 0

def authoritative (p : Packet) : Bool := p.flags &&& 0x0400 != 0

def responseCode (p : Packet) : UInt16 := (p.extendedResponseCode.toUInt16 <<< 4) ||| (p.flags &&& 0x000f)

end Packet

structure DnsAnswer where
  question : DnsQuestion
  addresses : List IpAddress := []
  ttlSeconds : UInt32 := 0
  responseCode : UInt16 := 0
  truncated : Bool := false
  authoritative : Bool := false
  deriving DecidableEq

def ttlLimit : UInt32 := 0xffffffff

def findCname (records : List Record) (classCode : UInt16) (currentName : Name) : Option Record :=
  records.find? fun record =>
    record.classCode == classCode && record.type == dnsRecordTypeCname && normalizeName record.name ==
    currentName && record.targetName.isSome

def Record.target (record : Record) : Name := normalizeName (record.targetName.getD [])

/-- The loop over the CNAME records, `depth` times at most: the name it comes to and the least TTL. -/
def followCnames (records : List Record) (classCode : UInt16) : Nat → Name → List Name → UInt32 → Name × UInt32
  | 0, currentName, _, minimumTtl => (currentName, minimumTtl)
  | depth + 1, currentName, visitedNames, minimumTtl =>
    match findCname records classCode currentName with
    | none => (currentName, minimumTtl)
    | some cname =>
      if cname.target = [] ∨ cname.target ∈ visitedNames then (currentName, minimumTtl)
      else followCnames records classCode depth cname.target (visitedNames ++ [cname.target])
      (min minimumTtl cname.ttlSeconds)

def IpAddress.isV4 : IpAddress → Bool
  | .v4 _ => true
  | .v6 _ _ => false

def ownsAddress (question : DnsQuestion) (currentName : Name) (record : Record) : Bool :=
  record.classCode == question.classCode && record.type == question.type &&
    normalizeName record.name == currentName &&
    match record.parsedAddress with
    | none => false
    | some address => !((question.type == dnsRecordTypeA && !IpAddress.isV4 address) ||
      (question.type == dnsRecordTypeAaaa && IpAddress.isV4 address))

def toAddressAnswer (packet : Packet) : Except Error DnsAnswer :=
  match packet.questions with
  | [question] =>
    if packet.response then
      let (currentName, cnameTtl) := followCnames packet.answers question.classCode 8
        (normalizeName question.name)
        [normalizeName question.name] ttlLimit
      let owned := packet.answers.filter (ownsAddress question currentName)
      let addresses := owned.filterMap (·.parsedAddress)
      let minimumTtl := owned.foldl (fun ttl record => min ttl record.ttlSeconds) cnameTtl
      .ok { question, addresses, ttlSeconds := if addresses ≠ [] then
        minimumTtl else 0, responseCode := packet.responseCode,
            truncated := packet.truncated, authoritative := packet.authoritative }
    else .error (codecError "DNS packet is not a single-question response")
  | _ => .error (codecError "DNS packet is not a single-question response")

/-! ### Chains of CNAME records -/

/-- **A chain of CNAME records** of one class among the records, from a name to another. -/
inductive Chain (records : List Record) (classCode : UInt16) : Name → List Record → Name → Prop
  | nil (name : Name) : Chain records classCode name [] name
  | cons {cname : Record} {target : Name} {cnames : List Record} {last : Name} :
    cname ∈ records → cname.classCode = classCode →
      cname.type = dnsRecordTypeCname → cname.targetName = some target →
      Chain records classCode (normalizeName target) cnames last →
        Chain records classCode (normalizeName cname.name) (cname :: cnames) last

variable {cnames records : List Record} {first last : Name} {classCode : UInt16} {more : List Record}

theorem Chain.mono (hsub : records ⊆ more)
    (h : Chain records classCode first cnames last) : Chain more classCode first cnames last := by
  induction h with
  | nil name => exact .nil name
  | cons hmem hclass htype htarget _ ih => exact .cons (hsub hmem) hclass htype htarget ih

theorem Chain.append {middle : Name}
    (h : Chain records classCode first cnames middle) (hmore : Chain records classCode middle more last) :
    Chain records classCode first (cnames ++ more) last := by
  induction h with
  | nil _ => exact hmore
  | cons hmem hclass htype htarget _ ih => exact .cons hmem hclass htype htarget (ih hmore)

variable {cname : Record}

theorem findCname_chain {currentName : Name}
    (h : findCname records classCode currentName = some cname) :
    Chain records classCode currentName [cname] cname.target := by
  have hmem := mem_of_find?_eq_some h
  have hall := find?_some h
  simp only [Bool.and_eq_true, beq_iff_eq] at hall
  obtain ⟨⟨⟨hclass, htype⟩, rfl⟩, htarget⟩ := hall
  obtain ⟨target, htarget⟩ := Option.isSome_iff_exists.1 htarget
  have hlast : cname.target = normalizeName target := by rw [Record.target, htarget, Option.getD_some]
  rw [hlast]
  exact .cons hmem hclass htype htarget (.nil _)

theorem zero_ttl_le (ttl : UInt32) : 0 ≤ ttl := by
  exact Nat.zero_le _

/-- **The records that are followed**: of each owner the first CNAME record. -/
inductive Walk (records : List Record) (classCode : UInt16) : Name → List Record → Name → Prop
  | nil (name : Name) : Walk records classCode name [] name
  | cons {name last : Name} {cname : Record} {cnames : List Record} :
    findCname records classCode name = some cname →
      Walk records classCode cname.target cnames last → Walk records classCode name (cname :: cnames) last

theorem Walk.chain
    (h : Walk records classCode first cnames last) : Chain records classCode first cnames last := by
  induction h with
  | nil name => exact .nil name
  | cons hfound _ ih => exact (findCname_chain hfound).append ih

/-- **Where the loop stops**: no name is come to twice, nor the root, and another record would be one too
many or lead to such a name. -/
structure Followed (records : List Record) (classCode : UInt16) (depth : Nat) (first : Name)
    (visitedNames : List Name) (cnames : List Record)
    (last : Name) : Prop where
  walk : Walk records classCode first cnames last
  hops : cnames.length ≤ depth
  named : ∀ cname ∈ cnames, cname.target ≠ []
  distinct : (visitedNames ++ cnames.map Record.target).Nodup
  ends : cnames.length = depth ∨
    ∀ cname, findCname records classCode last = some cname → cname.target = [] ∨
    cname.target ∈ visitedNames ++ cnames.map Record.target

def leastTtl (records : List Record) (ttl : UInt32) : UInt32 :=
  records.foldl (fun ttl record => min ttl record.ttlSeconds) ttl

theorem followCnames_followed (records : List Record) (classCode : UInt16) :
    ∀ (depth : Nat) (first : Name) (visitedNames : List Name)
    (ttl : UInt32), visitedNames.Nodup → ∃ cnames,
      Followed records classCode depth first visitedNames cnames
      (followCnames records classCode depth first visitedNames ttl).1 ∧
      (followCnames records classCode depth first visitedNames ttl).2 = leastTtl cnames ttl
  | 0, first, visitedNames, ttl, hvisited =>
      ⟨[], ⟨.nil _, Nat.le_refl 0, by simp, by simpa using hvisited, .inl rfl⟩, rfl⟩
  | depth + 1, first, visitedNames, ttl, hvisited => by
    rw [followCnames]
    cases hfound : findCname records classCode first with
    | none => exact ⟨[], ⟨.nil _, Nat.zero_le _, by simp, by simpa using hvisited, .inr (by simp [hfound])⟩, rfl⟩
    | some cname =>
      dsimp only
      by_cases hstop : cname.target = [] ∨ cname.target ∈ visitedNames
      · rw [if_pos hstop]
        refine ⟨[], ⟨.nil _, Nat.zero_le _, by simp, by simpa using hvisited, .inr fun other hother => ?_⟩, rfl⟩
        obtain rfl := Option.some.inj (hfound.symm.trans hother)
        simpa using hstop
      · rw [if_neg hstop]
        push Not at hstop
        have hmore : (visitedNames ++ [cname.target]).Nodup := by
          rw [← concat_eq_append]
          exact hvisited.concat hstop.2
        obtain ⟨cnames, h, hleast⟩ := followCnames_followed records classCode depth cname.target
          (visitedNames ++ [cname.target])
          (min ttl cname.ttlSeconds) hmore
        have hnames : visitedNames ++ [cname.target] ++ cnames.map Record.target = visitedNames ++
          (cname :: cnames).map Record.target := by simp
        refine ⟨cname :: cnames, ⟨.cons hfound h.walk, Nat.succ_le_succ h.hops, ?_,
          hnames ▸ h.distinct, ?_⟩, hleast⟩
        · exact forall_mem_cons.2 ⟨hstop.1, h.named⟩
        · exact hnames ▸ h.ends.imp_left (congrArg (· + 1))

theorem foldl_ttl_le : ∀ (records : List Record) (ttl : UInt32),
    records.foldl (fun ttl record => min ttl record.ttlSeconds) ttl ≤ ttl ∧
      ∀ record ∈ records, records.foldl (fun ttl record => min ttl record.ttlSeconds) ttl ≤ record.ttlSeconds
  | [], ttl => ⟨Std.le_refl _, by simp⟩
  | record :: records, ttl => by
    obtain ⟨hleast, hall⟩ := foldl_ttl_le records (min ttl record.ttlSeconds)
    refine ⟨Std.le_trans hleast Std.min_le_left, fun other hother => ?_⟩
    rcases mem_cons.1 hother with rfl | hother
    · exact Std.le_trans hleast Std.min_le_right
    · exact hall other hother

def AddressesOf (answer : DnsAnswer) (owned : List Record) : Prop :=
  owned.map (·.parsedAddress) = answer.addresses.map some ∧
  ∀ record ∈ owned, answer.ttlSeconds ≤ record.ttlSeconds

theorem map_parsedAddress_filter (question : DnsQuestion) (currentName : Name) (records : List Record) :
    (records.filter (ownsAddress question currentName)).map (·.parsedAddress) =
      ((records.filter (ownsAddress question currentName)).filterMap (·.parsedAddress)).map some := by
  induction records with
  | nil => rfl
  | cons record records ih =>
    by_cases howns : ownsAddress question currentName record = true
    · obtain ⟨address, haddress⟩ : ∃ address, record.parsedAddress = some address := by
        cases haddress : record.parsedAddress with
        | none => simp [ownsAddress, haddress] at howns
        | some address => exact ⟨address, rfl⟩
      rw [filter_cons_of_pos howns, map_cons, filterMap_cons_some haddress, map_cons, ih, haddress]
    · rw [filter_cons_of_neg howns, ih]

def Least (records : List Record) (ttl : UInt32) : Prop :=
  (∃ record ∈ records, record.ttlSeconds = ttl) ∧ ∀ record ∈ records, ttl ≤ record.ttlSeconds

theorem leastTtl_eq (records : List Record) (ttl : UInt32) :
    leastTtl records ttl = ttl ∨ ∃ record ∈ records, record.ttlSeconds = leastTtl records ttl := by
  induction records generalizing ttl with
  | nil => exact .inl rfl
  | cons record records ih =>
    rcases ih (min ttl record.ttlSeconds) with hfirst | ⟨other, hother, heq⟩
    · change leastTtl (record :: records) ttl = min ttl record.ttlSeconds at hfirst
      rw [hfirst]
      rcases @Std.min_eq_or _ _ _ ttl record.ttlSeconds with hmin | hmin
      · exact .inl hmin
      · exact .inr ⟨record, mem_cons_self, hmin.symm⟩
    · exact .inr ⟨other, mem_cons_of_mem _ hother, heq⟩

theorem least_leastTtl (h : records ≠ []) : Least records (leastTtl records ttlLimit) := by
  refine ⟨?_, (foldl_ttl_le records ttlLimit).2⟩
  rcases leastTtl_eq records ttlLimit with hlimit | hsome
  · obtain ⟨record, hrecord⟩ := exists_mem_of_ne_nil records h
    have hle : leastTtl records ttlLimit ≤ record.ttlSeconds := (foldl_ttl_le records ttlLimit).2 record hrecord
    refine ⟨record, hrecord, Std.le_antisymm ?_ hle⟩
    rw [hlimit]
    exact Nat.le_of_lt_succ record.ttlSeconds.toNat_lt
  · exact hsome

/-- **The answer to a question**: the addresses of the name that the followed records lead to, with the
least TTL of all of these records. -/
structure Answered (packet : Packet) (question : DnsQuestion) (answer : DnsAnswer)
    (cnames owned : List Record) (owner : Name) : Prop where
  followed : Followed packet.answers question.classCode 8
    (normalizeName question.name) [normalizeName question.name] cnames owner
  own : owned = packet.answers.filter (ownsAddress question owner)
  addresses : owned.map (·.parsedAddress) = answer.addresses.map some
  none : answer.addresses = [] → answer.ttlSeconds = 0
  least : answer.addresses ≠ [] → Least (cnames ++ owned) answer.ttlSeconds

/-- The answer, from where the loop over the CNAME records came to. -/
def Packet.answerAt (packet : Packet) (question : DnsQuestion) (reached : Name × UInt32) : DnsAnswer :=
  let owned := packet.answers.filter (ownsAddress question reached.1)
  let addresses := owned.filterMap (·.parsedAddress)
  { question, addresses, ttlSeconds := if addresses ≠ [] then leastTtl owned reached.2 else 0,
    responseCode := packet.responseCode,
    truncated := packet.truncated, authoritative := packet.authoritative }

variable {packet : Packet}

theorem toAddressAnswer_eq {question : DnsQuestion} (hresponse : packet.response = true)
    (hquestion : packet.questions = [question]) : toAddressAnswer packet = .ok (packet.answerAt question
      (followCnames packet.answers question.classCode 8
        (normalizeName question.name) [normalizeName question.name] ttlLimit)) := by
  unfold toAddressAnswer
  rw [hquestion]
  exact if_pos hresponse

theorem answerAt_answered (packet : Packet) (question : DnsQuestion) :
    ∃ cnames owned owner, Answered packet question (packet.answerAt question
    (followCnames packet.answers question.classCode 8
      (normalizeName question.name) [normalizeName question.name] ttlLimit)) cnames owned owner := by
  obtain ⟨cnames, hfollowed, hleast⟩ := followCnames_followed packet.answers question.classCode 8
    (normalizeName question.name)
    [normalizeName question.name] ttlLimit (nodup_singleton _)
  generalize followCnames packet.answers question.classCode 8
    (normalizeName question.name) [normalizeName question.name] ttlLimit = reached
    at hfollowed hleast
  refine ⟨cnames, _, reached.1, hfollowed, rfl, map_parsedAddress_filter question reached.1 packet.answers,
    fun hnone => if_neg (not_not.2 hnone),
    fun hsome => ?_⟩
  dsimp only [Packet.answerAt] at hsome ⊢
  have hne : cnames ++ packet.answers.filter (ownsAddress question reached.1) ≠ [] := by
    intro hnil
    rw [(append_eq_nil_iff.1 hnil).2] at hsome
    exact hsome rfl
  have hall := least_leastTtl hne
  rw [if_pos hsome, hleast]
  rwa [leastTtl, foldl_append] at hall

variable {answer : DnsAnswer}

theorem toAddressAnswer_answered (h : toAddressAnswer packet = .ok answer) :
    ∃ question, packet.questions = [question] ∧ ∃ cnames owned owner, Answered packet question answer cnames
    owned owner := by
  unfold toAddressAnswer at h
  split at h
  · rename_i question hquestion
    split at h
    · cases h
      exact ⟨question, hquestion, answerAt_answered packet question⟩
    · cases h
  · cases h

/-- **An answer is the addresses at the end of a chain** that starts at the name of the response's
question; its TTL is no more than that of any record of the chain and of any address. -/
theorem toAddressAnswer_ok (h : toAddressAnswer packet = .ok answer) :
    ∃ question cnames owner owned, packet.questions = [question] ∧
      Chain packet.answers question.classCode (normalizeName question.name) cnames owner ∧
      (∀ cname ∈ cnames, answer.ttlSeconds ≤ cname.ttlSeconds) ∧ AddressesOf answer owned ∧
      (answer.addresses = [] → answer.ttlSeconds = 0) ∧
      ∀ record ∈ owned, record ∈ packet.answers ∧ normalizeName record.name = owner ∧
      record.type = question.type ∧
        record.classCode = question.classCode := by
  obtain ⟨question, hquestion, cnames, owned, owner, hanswer⟩ := toAddressAnswer_answered h
  have hle : ∀ record ∈ cnames ++ owned, answer.ttlSeconds ≤ record.ttlSeconds := by
    intro record hrecord
    by_cases hnone : answer.addresses = []
    · rw [hanswer.none hnone]
      exact zero_ttl_le _
    · exact (hanswer.least hnone).2 record hrecord
  refine ⟨question, cnames, owner, owned, hquestion, hanswer.followed.walk.chain,
    fun cname hcname => hle cname (mem_append_left _ hcname),
    ⟨hanswer.addresses, fun record hrecord => hle record (mem_append_right _ hrecord)⟩, hanswer.none,
    fun record hrecord => ?_⟩
  rw [hanswer.own] at hrecord
  obtain ⟨hmem, howns⟩ := mem_filter.1 hrecord
  simp only [ownsAddress, Bool.and_eq_true, beq_iff_eq] at howns
  exact ⟨hmem, howns.1.2, howns.1.1.2, howns.1.1.1⟩

/-! ### The order of the records -/

def isCname (classCode : UInt16) (record : Record) : Prop :=
  record.classCode = classCode ∧ record.type = dnsRecordTypeCname ∧ record.targetName.isSome

/-- **No owner has two CNAME records** of the class. -/
def OneCname (records : List Record) (classCode : UInt16) : Prop :=
  ∀ record ∈ records, ∀ other ∈ records, isCname classCode record →
  isCname classCode other → normalizeName record.name = normalizeName other.name → record = other

theorem findCname_eq_some {name : Name}
    (h : findCname records classCode name = some cname) :
    cname ∈ records ∧ isCname classCode cname ∧ normalizeName cname.name = name := by
  have hall := find?_some h
  simp only [Bool.and_eq_true, beq_iff_eq] at hall
  exact ⟨mem_of_find?_eq_some h, ⟨hall.1.1.1, hall.1.1.2, hall.2⟩, hall.1.2⟩

variable {others : List Record}

theorem findCname_perm (hone : OneCname records classCode) (hperm : others.Perm records)
    (name : Name) : findCname others classCode name = findCname records classCode name := by
  cases hother : findCname others classCode name with
  | none =>
    symm
    unfold findCname at hother ⊢
    rw [find?_eq_none] at hother ⊢
    exact fun record hrecord => hother record (hperm.mem_iff.2 hrecord)
  | some other =>
    obtain ⟨hmem, hcname, hname⟩ := findCname_eq_some hother
    cases hfound : findCname records classCode name with
    | none =>
      have hnot := find?_eq_none.1 hfound other (hperm.mem_iff.1 hmem)
      have hall := find?_some hother
      exact absurd hall hnot
    | some record =>
      obtain ⟨hmem', hcname', hname'⟩ := findCname_eq_some hfound
      rw [hone record hmem' other (hperm.mem_iff.1 hmem) hcname' hcname (hname'.trans hname.symm)]

theorem followCnames_perm (hone : OneCname records classCode) (hperm : others.Perm records) :
    ∀ (depth : Nat) (name : Name) (visitedNames : List Name) (ttl : UInt32),
      followCnames others classCode depth name visitedNames ttl =
      followCnames records classCode depth name visitedNames ttl
  | 0, _, _, _ => rfl
  | depth + 1, name, visitedNames, ttl => by
    rw [followCnames, followCnames, findCname_perm hone hperm]
    cases findCname records classCode name with
    | none => rfl
    | some cname =>
      dsimp only
      rw [followCnames_perm hone hperm depth]

theorem leastTtl_perm (hperm : others.Perm records) (ttl : UInt32) :
    leastTtl others ttl = leastTtl records ttl := by
  refine hperm.foldl_eq' (fun _ _ _ _ _ => ?_) ttl
  ac_rfl

theorem answerAt_perm (packet : Packet) (question : DnsQuestion) (reached : Name × UInt32)
    (hperm : records.Perm packet.answers) :
    ∃ addresses, addresses.Perm (packet.answerAt question reached).addresses ∧
      Packet.answerAt { packet with answers := records } question reached =
      { packet.answerAt question reached with addresses } := by
  have howned := hperm.filter (ownsAddress question reached.1)
  have haddresses := howned.filterMap (·.parsedAddress)
  refine ⟨_, haddresses, ?_⟩
  have hempty : ((records.filter (ownsAddress question reached.1)).filterMap (·.parsedAddress) ≠ []) =
      ((packet.answers.filter (ownsAddress question reached.1)).filterMap (·.parsedAddress) ≠ []) :=
    propext (not_congr (by rw [← length_eq_zero_iff, haddresses.length_eq, length_eq_zero_iff]))
  dsimp only [Packet.answerAt]
  simp only [leastTtl_perm howned, hempty]
  rfl

/-- **`to_address_answer` is exact**: the addresses that the name at the end of the CNAME records owns,
and the least TTL on the way to them; where no owner has two CNAME records, the order of the records is
that of the addresses and decides nothing else. -/
theorem address_answer_exact {packet : Packet} {question : DnsQuestion} (hresponse : packet.response = true)
    (hquestion : packet.questions = [question]) :
    ∃ answer cnames owned owner, toAddressAnswer packet = .ok answer ∧
      Answered packet question answer cnames owned owner ∧
      (OneCname packet.answers question.classCode → ∀ records, records.Perm packet.answers →
        ∃ addresses, addresses.Perm answer.addresses ∧
        toAddressAnswer { packet with answers := records } = .ok { answer with addresses }) := by
  obtain ⟨cnames, owned, owner, hanswered⟩ := answerAt_answered packet question
  refine ⟨_, cnames, owned, owner, toAddressAnswer_eq hresponse hquestion, hanswered,
    fun hone records hperm => ?_⟩
  obtain ⟨addresses, haddresses, heq⟩ := answerAt_perm packet question
    (followCnames packet.answers question.classCode 8
      (normalizeName question.name) [normalizeName question.name] ttlLimit) hperm
  refine ⟨addresses, haddresses, ?_⟩
  rw [@toAddressAnswer_eq { packet with answers := records } question hresponse hquestion, ← heq]
  rw [followCnames_perm hone hperm]

def aliased : Record := { name := [97], type := dnsRecordTypeCname, ttlSeconds := 300, targetName := some [98] }

def hosted (host : UInt8) : Record :=
  { name := [98], type := 1, ttlSeconds := 60, parsedAddress := some (.v4 #v[192, 0, 2, host]) }

def aliasResponse (answers : List Record) : Packet := { flags := 0x8180, questions := [⟨[97], 1, 1⟩], answers }

theorem alias_answer_exact : ∃ answer cnames owned owner, toAddressAnswer
    (aliasResponse [hosted 1, aliased, hosted 2]) = .ok answer ∧
    Answered (aliasResponse [hosted 1, aliased, hosted 2]) ⟨[97], 1, 1⟩ answer cnames owned owner ∧
    (OneCname [hosted 1, aliased, hosted 2] 1 → ∀ records, records.Perm [hosted 1, aliased, hosted 2] →
      ∃ addresses, addresses.Perm answer.addresses ∧
        toAddressAnswer (aliasResponse records) = .ok { answer with addresses }) :=
  @address_answer_exact (aliasResponse [hosted 1, aliased, hosted 2]) ⟨[97], 1, 1⟩ rfl rfl

/-- **The addresses stand in the order of their records**, and without an address the TTL is zero, not
that of the CNAME record. -/
theorem alias_order_and_ttl :
    toAddressAnswer (aliasResponse [aliased, hosted 1, hosted 2]) ≠
        toAddressAnswer (aliasResponse [aliased, hosted 2, hosted 1]) ∧
    ∃ answer, toAddressAnswer (aliasResponse [aliased]) = .ok answer ∧ ¬ Least [aliased] answer.ttlSeconds := by
  refine ⟨by decide, _, rfl, fun h => ?_⟩
  obtain ⟨⟨record, hrecord, httl⟩, -⟩ := h
  rw [mem_singleton.1 hrecord] at httl
  exact absurd httl (by decide)

end Resolver
end ClashNative.Dns
