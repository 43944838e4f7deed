import ClashNative.JlsExtensions
import Mathlib.Data.Vector.Defs
/-!
# JlsFakeRandom — the random that authenticates a JLS hello

`build_jls_fake_random` and `check_jls_fake_random` of `jls.cpp` over the authentication data of a hello:
what the builder took, the checker takes again from the hello that has the random and binders of its own
in it.
-/
namespace ClashNative.Jls

open List hiding Vector

open Wire (putU16 getU16)

/-! ### The vectors in front of the extensions -/

section Vectors

variable {e : JlsError}

theorem skipVector8_append (before bytes rest : Bytes) (h : bytes.length < 256) :
    skipVector8 (before ++ (vector8 bytes ++ rest)) before.length e = .ok (before ++ vector8 bytes).length := by
  have hread := readU8_append (e := e) before (bytes ++ rest) (UInt8.ofNat bytes.length)
  rw [toNat_ofNat_lt h] at hread
  have hskip := skipBytes_append (e := e) (before ++ [UInt8.ofNat bytes.length]) bytes rest
  unfold skipVector8
  rw [vector8_cons, hread]
  show skipBytes (before ++ ([UInt8.ofNat bytes.length] ++ (bytes ++ rest)))
    (before.length + 1) bytes.length e = _
  rw [length_append, length_singleton, append_assoc] at hskip
  rw [hskip, length_append, length_vector8, Nat.add_assoc, Nat.add_comm 1]

theorem skipVector8_cases (he : e ≠ .outside ∧ e ≠ .unfinished) (before rest : Bytes) :
    (∃ bytes tail, bytes.length < 256 ∧ rest = vector8 bytes ++ tail) ∨
    Refused (skipVector8 (before ++ rest) before.length e) := by
  unfold skipVector8
  cases rest with
  | nil =>
    rw [append_nil, readU8_end]
    exact .inr (refused_error he)
  | cons byte rest =>
    rw [readU8_append]
    have hsplit : before ++ byte :: rest = before ++ [byte] ++ rest := by simp
    have hskip := skipBytes_cases he (before ++ [byte]) rest byte.toNat
    rw [← hsplit, length_append] at hskip
    rcases hskip with hrefused | ⟨bytes, tail, htail, hbytes, -⟩
    · exact .inr hrefused
    · refine .inl ⟨bytes, tail, by rw [hbytes]; exact byte.toNat_lt, ?_⟩
      rw [vector8_cons, hbytes, UInt8.ofNat_toNat, htail]

theorem skipCipherSuites_append (before bytes rest : Bytes) (h : bytes.length < 65536)
    (heven : bytes.length % 2 = 0) :
    skipCipherSuites (before ++ (vector16 bytes ++ rest)) before.length =
    .ok (before ++ vector16 bytes).length := by
  have hskip := skipBytes_append (e := .cipherSuites) (before ++ putU16 bytes.length) bytes rest
  unfold skipCipherSuites
  rw [readU16_vector16 before bytes rest h]
  show (if bytes.length % 2 ≠ 0 then _ else skipBytes _ (before.length + 2) bytes.length _) = _
  rw [if_neg (not_not.2 heven)]
  simpa [vector16, Wire.length_putU16, Nat.add_assoc] using hskip

theorem skipCipherSuites_cases (before rest : Bytes) :
    (∃ bytes tail, bytes.length < 65536 ∧ bytes.length % 2 = 0 ∧ rest = vector16 bytes ++ tail) ∨
      Refused (skipCipherSuites (before ++ rest) before.length) := by
  unfold skipCipherSuites
  rcases readU16_cases (e := .cipherSuites) (by decide) before rest with
    hrefused | ⟨high, low, tail, htail, hread⟩
  · exact .inr (hrefused.bind _)
  rw [hread]
  show _ ∨ Refused (if (high.toNat * 256 + low.toNat) % 2 ≠ 0 then _ else
    skipBytes _ (before.length + 2) (high.toNat * 256 + low.toNat) _)
  split
  · exact .inr (refused_error (by decide))
  · rename_i heven
    have hsplit : before ++ rest = before ++ [high, low] ++ tail := by simp [htail]
    have hskip := skipBytes_cases (e := .cipherSuites) (by decide) (before ++ [high, low]) tail
      (high.toNat * 256 + low.toNat)
    rw [← hsplit, length_append] at hskip
    rcases hskip with hrefused | ⟨bytes, tail', htail', hbytes, -⟩
    · exact .inr hrefused
    · refine .inl ⟨bytes, tail', ?_, ?_, ?_⟩
      · rw [hbytes]
        exact byte_pair_lt high low
      · rw [hbytes]
        exact not_not.1 heven
      · rw [vector16, hbytes, putU16_pair, htail, htail']
        rfl

end Vectors

/-! ### The handshake message -/

theorem length_handshake (type : UInt8) (body : Bytes) : (handshake type body).length = body.length + 4 := rfl

variable {type : UInt8}

theorem helloWireIsValid_iff {wire : Bytes} : helloWireIsValid wire type = true ↔
    ∃ version random rest, version.length = 2 ∧ random.length = 32 ∧
    (version ++ (random ++ rest)).length < 2 ^ 24 ∧
      wire = handshake type (version ++ (random ++ rest)) := by
  unfold helloWireIsValid
  simp only [Bool.and_eq_true, decide_eq_true_eq, beq_iff_eq]
  constructor
  · rintro ⟨⟨⟨hlength, htype⟩, hsize⟩, -⟩
    rcases wire with _ | ⟨b0, _ | ⟨b1, _ | ⟨b2, _ | ⟨b3, body⟩⟩⟩⟩
    iterate 4 exact absurd hlength (by simp [kHandshakeHeaderLength, kHelloRandomLength])
    simp only [getD_cons_zero, getD_cons_succ, length_cons] at htype hsize hlength
    have h1 := b1.toNat_lt
    have h2 := b2.toNat_lt
    have h3 := b3.toNat_lt
    have hsize : b1.toNat * 65536 + b2.toNat * 256 + b3.toNat = body.length := by
      rw [hsize]
      rfl
    have hmin : 34 ≤ body.length := by
      have h : 4 + 2 + 32 ≤ body.length + 1 + 1 + 1 + 1 := hlength
      omega
    have hbody : body.take 2 ++ ((body.drop 2).take 32 ++ (body.drop 2).drop 32) = body := by
      rw [take_append_drop, take_append_drop]
    refine ⟨body.take 2, (body.drop 2).take 32, (body.drop 2).drop 32, ?_, ?_, ?_, ?_⟩
    · rw [length_take]
      omega
    · rw [length_take, length_drop]
      omega
    · rw [hbody]
      omega
    · rw [hbody, handshake, ← htype, ← hsize]
      have e1 : (b1.toNat * 65536 + b2.toNat * 256 + b3.toNat) / 65536 = b1.toNat := by omega
      have e2 : UInt8.ofNat ((b1.toNat * 65536 + b2.toNat * 256 + b3.toNat) / 256) = b2 := by
        apply UInt8.toNat_inj.1
        rw [UInt8.toNat_ofNat']
        omega
      have e3 : UInt8.ofNat (b1.toNat * 65536 + b2.toNat * 256 + b3.toNat) = b3 := by
        apply UInt8.toNat_inj.1
        rw [UInt8.toNat_ofNat']
        omega
      rw [e1, e2, e3, UInt8.ofNat_toNat]
      rfl
  · rintro ⟨version, random, rest, hversion, hrandom, hlt, rfl⟩
    have hlength : (version ++ (random ++ rest)).length = 34 + rest.length := by
      rw [length_append, length_append, hversion, hrandom, ← Nat.add_assoc]
    generalize version ++ (random ++ rest) = body at hlt hlength
    have hvalue : (UInt8.ofNat (body.length / 65536)).toNat * 65536 +
      (UInt8.ofNat (body.length / 256)).toNat * 256 +
        (UInt8.ofNat body.length).toNat = body.length := by
      rw [UInt8.toNat_ofNat', UInt8.toNat_ofNat', UInt8.toNat_ofNat']
      omega
    refine ⟨⟨⟨?_, rfl⟩, ?_⟩, ?_⟩
    · show 4 + 2 + 32 ≤ body.length + 4
      omega
    · exact hvalue
    · show 2 + 32 ≤ _
      simp only [handshake, cons_append, nil_append, getD_cons_zero, getD_cons_succ]
      omega

variable {version : Bytes}

theorem zeroRandom_handshake {random : Bytes} (rest : Bytes) (hversion : version.length = 2)
    (hrandom : random.length = 32) :
    zeroRandom (handshake type (version ++ (random ++ rest))) =
    .ok (handshake type (version ++ (zeros random ++ rest))) := by
  have hlength : (version ++ (zeros random ++ rest)).length =
    (version ++ (random ++ rest)).length := by simp [Extension.length_zeros]
  unfold handshake
  rw [hlength]
  generalize hn : (version ++ (random ++ rest)).length = n
  have h := zeroFill_append ([type, UInt8.ofNat (n / 65536), UInt8.ofNat (n / 256),
    UInt8.ofNat n] ++ version) random rest
  rw [length_append, hversion, hrandom, append_assoc, append_assoc] at h
  exact h

theorem handshake_split (type : UInt8) (random rest : Bytes) (hversion : version.length = 2)
    (hrandom : random.length = 32) :
    ∃ before : Bytes, before.length = kHandshakeHeaderLength + 2 + kHelloRandomLength ∧
      ∀ rest' : Bytes, rest'.length = rest.length →
      handshake type (version ++ (random ++ rest')) = before ++ rest' := by
  refine ⟨[type, UInt8.ofNat ((34 + rest.length) / 65536), UInt8.ofNat ((34 + rest.length) / 256),
    UInt8.ofNat (34 + rest.length)] ++
    (version ++ random), ?_, fun rest' hrest' => ?_⟩
  · simp only [length_append, hversion, hrandom]
    rfl
  · have hlength : (version ++ (random ++ rest')).length = 34 + rest.length := by
      simp only [length_append, hversion, hrandom, hrest']
      omega
    rw [handshake, hlength]
    simp only [append_assoc]

theorem zeroExtensionBlock_wire (before : Bytes) (extensions : List Extension)
    (hlength : (extensionsWire extensions).length < 65536) :
    zeroExtensionBlock (before ++ vector16 (extensionsWire extensions)) before.length =
      .ok (before ++ vector16 (extensionsWire (extensions.map Extension.zeroed))) := by
  have hle := length_le_extensionsWire extensions
  generalize hwire : before ++ vector16 (extensionsWire extensions) = wire
  have hwhole : wire.length = before.length + 2 + (extensionsWire extensions).length := by
    simp [← hwire, vector16, Wire.length_putU16, Nat.add_assoc]
  have hread : readU16 wire before.length .extensions = .ok ((extensionsWire extensions).length,
    before.length + 2) := by
    have h := readU16_vector16 (e := .extensions) before (extensionsWire extensions) [] hlength
    rwa [append_nil, hwire] at h
  have hloop : zeroExtensions (wire.length + 1) wire (before.length + 2)
    (before.length + 2 + (extensionsWire extensions).length) =
      .ok (before ++ vector16 (extensionsWire (extensions.map Extension.zeroed)),
        before.length + 2 + (extensionsWire extensions).length) := by
    have h := zeroExtensions_wire extensions (wire.length + 1)
      (before ++ putU16 (extensionsWire extensions).length) [] (by omega)
    simpa [← hwire, vector16, Wire.length_putU16, ClientHello.length_extensionsWire_zeroed] using h
  unfold zeroExtensionBlock
  rw [hread]
  show (if (extensionsWire extensions).length ≠ sizeSub wire.length (before.length + 2) then _ else
    (zeroExtensions (wire.length + 1) wire (before.length + 2)
      (before.length + 2 + (extensionsWire extensions).length) >>= _)) = _
  have hsub : sizeSub wire.length (before.length + 2) = (extensionsWire extensions).length := by
    rw [hwhole, sizeSub_of_le (by omega)]
    omega
  rw [hsub, if_neg (not_not.2 rfl), hloop]
  exact if_neg (not_not.2 rfl)

theorem zeroExtensionBlock_cases (before rest : Bytes) (hsmall : (before ++ rest).length < 2 ^ 32) :
    (∃ extensions, (extensionsWire extensions).length < 65536 ∧ rest = vector16 (extensionsWire extensions)) ∨
      Refused (zeroExtensionBlock (before ++ rest) before.length) := by
  unfold zeroExtensionBlock
  rcases readU16_cases (e := .extensions) (by decide) before rest with hrefused | ⟨high, low, region,
    hregion, hread⟩
  · exact .inr (hrefused.bind _)
  have hlt := byte_pair_lt high low
  have hwhole : (before ++ rest).length = before.length + 2 + region.length := by
    rw [hregion, length_append, length_cons, length_cons]
    omega
  rw [hread]
  show _ ∨ Refused (if high.toNat * 256 + low.toNat ≠ sizeSub (before ++ rest).length
    (before.length + 2) then _ else
    (zeroExtensions ((before ++ rest).length + 1) (before ++ rest) (before.length + 2)
      (before.length + 2 + (high.toNat * 256 + low.toNat)) >>= _))
  rw [hwhole, sizeSub_of_le (by omega)]
  split
  · exact .inr (refused_error (by decide))
  · rename_i hexact
    have hexact : high.toNat * 256 + low.toNat = region.length := by omega
    have hloop := zeroExtensions_cases (before.length + 2 + region.length + 1)
      (before ++ [high, low]) region (by omega) (by
      rw [append_assoc, show [high, low] ++ region = rest from hregion.symm]
      exact hsmall)
    rw [append_assoc, show [high, low] ++ region = rest from hregion.symm, length_append] at hloop
    rcases hloop with ⟨extensions, hextensions⟩ | hrefused
    · refine .inl ⟨extensions, by rw [← hextensions, ← hexact]; exact hlt, ?_⟩
      rw [vector16, ← hextensions, ← hexact, putU16_pair, hregion]
      rfl
    · rw [hexact]
      exact .inr (hrefused.bind _)

theorem clientHello_authData (hello : ClientHello) :
    jlsClientHelloAuthData hello.wire = .ok hello.zeroed.wire := by
  have hvalid : helloWireIsValid hello.wire kClientHelloType = true := by
    refine helloWireIsValid_iff.2 ⟨hello.version, hello.random, hello.rest, hello.version_length,
      hello.random_length, ?_, rfl⟩
    have h1 := hello.sessionId_length
    have h2 := hello.cipherSuites_length
    have h3 := hello.compressionMethods_length
    have h4 := hello.extensions_length
    simp only [ClientHello.rest, vector8, vector16, length_append, length_cons, Wire.length_putU16,
      hello.version_length,
      hello.random_length]
    omega
  obtain ⟨before, hbefore, hsplit⟩ := handshake_split kClientHelloType
    (zeros hello.random) hello.rest hello.version_length
    (by rw [Extension.length_zeros, hello.random_length])
  have hsession := skipVector8_append (e := .sessionId) before hello.sessionId (vector16 hello.cipherSuites ++
    (vector8 hello.compressionMethods ++ vector16 (extensionsWire hello.extensions))) hello.sessionId_length
  have hsuites := skipCipherSuites_append (before ++ vector8 hello.sessionId) hello.cipherSuites
    (vector8 hello.compressionMethods ++ vector16 (extensionsWire hello.extensions))
    hello.cipherSuites_length hello.cipherSuites_even
  have hmethods := skipVector8_append (e := .compressionMethods)
    (before ++ vector8 hello.sessionId ++ vector16 hello.cipherSuites)
    hello.compressionMethods (vector16 (extensionsWire hello.extensions)) hello.compressionMethods_length
  have hblock := zeroExtensionBlock_wire
    (before ++ vector8 hello.sessionId ++ vector16 hello.cipherSuites ++ vector8 hello.compressionMethods)
    hello.extensions hello.extensions_length
  have hzeroed : hello.zeroed.wire = before ++ hello.zeroed.rest := hsplit hello.zeroed.rest (by
    simp [ClientHello.rest, ClientHello.zeroed, vector16, ClientHello.length_extensionsWire_zeroed])
  simp only [append_assoc] at hsession hsuites hmethods hblock
  unfold jlsClientHelloAuthData zeroClientHelloBinders
  rw [if_neg (by simp [hvalid]), ClientHello.wire,
    zeroRandom_handshake hello.rest hello.version_length hello.random_length]
  show (skipVector8 (handshake kClientHelloType (hello.version ++ (zeros hello.random ++ hello.rest)))
    (kHandshakeHeaderLength + 2 + kHelloRandomLength) .sessionId >>= _) = _
  rw [hsplit hello.rest rfl, ← hbefore, ClientHello.rest, hsession]
  show (skipCipherSuites _ (before ++ vector8 hello.sessionId).length >>= _) = _
  rw [hsuites]
  show (skipVector8 _ _ .compressionMethods >>= _) = _
  rw [hmethods]
  show zeroExtensionBlock _ _ = _
  rw [hblock, hzeroed]
  rfl

theorem clientHello_cases (wire : Bytes) :
    (∃ hello : ClientHello, wire = hello.wire) ∨ Refused (jlsClientHelloAuthData wire) := by
  unfold jlsClientHelloAuthData zeroClientHelloBinders
  cases hvalid : helloWireIsValid wire kClientHelloType with
  | false => exact .inr (refused_error (by decide))
  | true =>
    obtain ⟨version, random, rest, hversion, hrandom, hlt, hwire⟩ := helloWireIsValid_iff.1 hvalid
    obtain ⟨before, hbefore, hsplit⟩ := handshake_split kClientHelloType (zeros random) rest hversion
      (by rw [Extension.length_zeros, hrandom])
    have hsmall : (before ++ rest).length < 2 ^ 32 := by
      have hoffset : before.length = 38 := hbefore
      simp only [length_append] at hlt ⊢
      omega
    rw [if_neg (by decide), hwire, zeroRandom_handshake rest hversion hrandom]
    show _ ∨ Refused (skipVector8 (handshake kClientHelloType (version ++ (zeros random ++ rest)))
      (kHandshakeHeaderLength + 2 + kHelloRandomLength) .sessionId >>= _)
    rw [hsplit rest rfl, ← hbefore]
    rcases skipVector8_cases (e := .sessionId) (by decide) before rest with ⟨sessionId, rest1,
      hsession, rfl⟩ | hrefused
    swap
    · exact .inr (hrefused.bind _)
    rw [skipVector8_append before sessionId rest1 hsession, ← append_assoc before]
    rw [← append_assoc before] at hsmall
    show _ ∨ Refused (skipCipherSuites (before ++ vector8 sessionId ++ rest1)
      (before ++ vector8 sessionId).length >>= _)
    rcases skipCipherSuites_cases (before ++ vector8 sessionId) rest1 with ⟨cipherSuites, rest2, hsuites,
      heven, rfl⟩ | hrefused
    swap
    · exact .inr (hrefused.bind _)
    rw [skipCipherSuites_append _ cipherSuites rest2 hsuites heven, ← append_assoc (before ++ _)]
    rw [← append_assoc (before ++ _)] at hsmall
    show _ ∨ Refused (skipVector8 (before ++ vector8 sessionId ++ vector16 cipherSuites ++ rest2)
      (before ++ vector8 sessionId ++ vector16 cipherSuites).length .compressionMethods >>= _)
    rcases skipVector8_cases (e := .compressionMethods) (by decide)
      (before ++ vector8 sessionId ++ vector16 cipherSuites) rest2 with
      ⟨methods, rest3, hmethods, rfl⟩ | hrefused
    swap
    · exact .inr (hrefused.bind _)
    rw [skipVector8_append _ methods rest3 hmethods, ← append_assoc (before ++ _ ++ _)]
    rw [← append_assoc (before ++ _ ++ _)] at hsmall
    rcases zeroExtensionBlock_cases (before ++ vector8 sessionId ++ vector16 cipherSuites ++
      vector8 methods) rest3 hsmall with
      ⟨extensions, hextensions, rfl⟩ | hrefused
    · exact .inl ⟨⟨version, random, sessionId, cipherSuites, methods, extensions, hversion, hrandom,
        hsession, hsuites, heven, hmethods,
        hextensions⟩, rfl⟩
    · exact .inr hrefused

theorem serverHello_authData (hello : ServerHello) (hlt : hello.wire.length < 2 ^ 24) :
    jlsServerHelloAuthData hello.wire = .ok hello.zeroed.wire := by
  have hvalid : helloWireIsValid hello.wire kServerHelloType = true :=
    helloWireIsValid_iff.2 ⟨hello.version, hello.random, hello.rest, hello.version_length, hello.random_length,
      by rw [ServerHello.wire, length_handshake] at hlt; omega, rfl⟩
  unfold jlsServerHelloAuthData
  rw [if_neg (by simp [hvalid])]
  exact zeroRandom_handshake hello.rest hello.version_length hello.random_length

theorem serverHello_lt (hello : ServerHello) : hello.wire.length < 2 ^ 24 := by
  have h1 := hello.sessionId_length
  have h2 : ((hello.extensions.map vector16).getD []).length < 65538 := by
    cases hext : hello.extensions with
    | none => exact (by decide : 0 < 65538)
    | some bytes =>
      have h := hello.extensions_length bytes hext
      show (putU16 bytes.length ++ bytes).length < 65538
      rw [length_append, Wire.length_putU16]
      omega
  simp only [ServerHello.wire, ServerHello.rest, length_handshake, length_append, length_vector8,
    length_cons, hello.version_length,
    hello.random_length, hello.cipherSuite_length]
  omega

theorem serverHello_cases (wire : Bytes) :
    (helloWireIsValid wire kServerHelloType = false ∧ Refused (jlsServerHelloAuthData wire)) ∨
      ∃ version random rest, version.length = 2 ∧ random.length = 32 ∧
      wire = handshake kServerHelloType (version ++ (random ++ rest)) ∧
        jlsServerHelloAuthData wire = .ok (handshake kServerHelloType (version ++ (zeros random ++ rest))) := by
  unfold jlsServerHelloAuthData
  cases hvalid : helloWireIsValid wire kServerHelloType with
  | false => exact .inl ⟨rfl, refused_error (by decide)⟩
  | true =>
    obtain ⟨version, random, rest, hversion, hrandom, -, rfl⟩ := helloWireIsValid_iff.1 hvalid
    exact .inr ⟨version, random, rest, hversion, hrandom, rfl, zeroRandom_handshake rest hversion hrandom⟩

/-! ## The fake random -/

structure JlsUser where
  username : Bytes
  password : Bytes

structure JlsCrypto where
  sha256 : Bytes → Bytes
  aesGcm : Wire.Aead Bytes
  overhead : aesGcm.overhead = 16

def buildJlsFakeRandom (crypto : JlsCrypto) (user : JlsUser) (seed : Vector UInt8 16)
    (authData : Bytes) : Bytes :=
  crypto.aesGcm.encrypt (crypto.sha256 (user.password ++ authData))
  (crypto.sha256 (user.username ++ authData)) seed.toList

def checkJlsFakeRandom (crypto : JlsCrypto) (user : JlsUser) (fakeRandom authData : Bytes) : Bool :=
  if fakeRandom.length ≠ 32 then false
  else
    match crypto.aesGcm.decrypt (crypto.sha256 (user.password ++ authData))
    (crypto.sha256 (user.username ++ authData)) fakeRandom with
    | none => false
    | some seed => seed.length == 16

section FakeRandom

variable {crypto : JlsCrypto} {user : JlsUser} {authData : Bytes}

theorem length_buildJlsFakeRandom (seed : Vector UInt8 16) :
    (buildJlsFakeRandom crypto user seed authData).length = 32 := by
  rw [buildJlsFakeRandom, crypto.aesGcm.encrypt_length, crypto.overhead, Vector.length_toList]

theorem check_build (seed : Vector UInt8 16) :
    checkJlsFakeRandom crypto user (buildJlsFakeRandom crypto user seed authData) authData = true := by
  unfold checkJlsFakeRandom
  rw [if_neg (not_not.2 (length_buildJlsFakeRandom seed)), buildJlsFakeRandom, crypto.aesGcm.decrypt_encrypt]
  exact beq_iff_eq.2 Vector.length_toList

end FakeRandom

/-- **What a well-formed hello comes to**, and what a message that is none: its authentication data is the
hello with its random and its binders zeroed, and the same hello with the random that was built of these
is accepted, whatever its binders are by then. -/
theorem jls_hello_authenticated (crypto : JlsCrypto) (user : JlsUser) (seed : Vector UInt8 16) :
    (∀ hello : ClientHello, jlsClientHelloAuthData hello.wire = .ok hello.zeroed.wire ∧
      ∀ hello' : ClientHello, hello'.zeroed = hello.zeroed →
      hello'.random = buildJlsFakeRandom crypto user seed hello.zeroed.wire →
        ∃ authData, jlsClientHelloAuthData hello'.wire = .ok authData ∧
        checkJlsFakeRandom crypto user hello'.random authData = true) ∧
    (∀ hello : ServerHello, jlsServerHelloAuthData hello.wire = .ok hello.zeroed.wire ∧
      ∀ hello' : ServerHello, hello'.zeroed = hello.zeroed →
      hello'.random = buildJlsFakeRandom crypto user seed hello.zeroed.wire →
        ∃ authData, jlsServerHelloAuthData hello'.wire = .ok authData ∧
        checkJlsFakeRandom crypto user hello'.random authData = true) ∧
    (∀ wire, (∃ hello : ClientHello, wire = hello.wire) ∨ Refused (jlsClientHelloAuthData wire)) ∧
    ∀ wire, (helloWireIsValid wire kServerHelloType = false ∧ Refused (jlsServerHelloAuthData wire)) ∨
      ∃ version random rest, version.length = 2 ∧ random.length = 32 ∧
      wire = handshake kServerHelloType (version ++ (random ++ rest)) ∧
        jlsServerHelloAuthData wire = .ok (handshake kServerHelloType (version ++ (zeros random ++ rest))) := by
  refine ⟨fun hello => ⟨clientHello_authData hello, fun hello' hsame hrandom => ⟨hello.zeroed.wire, ?_, ?_⟩⟩,
    fun hello => ⟨serverHello_authData hello (serverHello_lt hello),
      fun hello' hsame hrandom => ⟨hello.zeroed.wire, ?_, ?_⟩⟩,
    clientHello_cases, serverHello_cases⟩
  · rw [clientHello_authData, hsame]
  · rw [hrandom]
    exact check_build seed
  · rw [serverHello_authData hello' (serverHello_lt hello'), hsame]
  · rw [hrandom]
    exact check_build seed

/-! ### A hello with a pre-shared key -/

def exampleCrypto : JlsCrypto where
  sha256 bytes := (bytes.drop 50 ++ List.replicate 32 0).take 32
  aesGcm := Wire.tagAead
  overhead := rfl

def exampleUser : JlsUser := ⟨[117], [112, 119]⟩

def exampleSeed : Vector UInt8 16 := Vector.replicate 16 9

/-- A ClientHello that offers a pre-shared key between two other extensions, with a binder of 32 bytes. -/
def offer (random : Bytes) (binder : Vector UInt8 32) (h : random.length = 32) : ClientHello where
  version := [3, 3]
  random := random
  sessionId := [1, 2]
  cipherSuites := [19, 1, 19, 2]
  compressionMethods := [0]
  extensions := [.other 43 [2, 3, 4] (by decide) (by decide) (by decide),
    .presharedKey [0, 1, 55, 0, 0, 0, 0] [binder.toList] (by simp) (by simp [bindersWire, vector8]),
    .other 10 [] (by decide) (by decide) (by decide)]
  version_length := rfl
  random_length := h
  sessionId_length := by decide
  cipherSuites_length := by decide
  cipherSuites_even := rfl
  compressionMethods_length := by decide
  extensions_length := by
    simp [extensionsWire, Extension.wire, Extension.data, Extension.type, vector16, vector8, bindersWire,
      Wire.length_putU16]

def reply (random : Bytes) (h : random.length = 32) : ServerHello :=
  ⟨[3, 3], random, [1, 2], [19, 1], 0, some [0, 43, 0, 2, 3, 4], rfl, h, by decide, rfl, by simp⟩

theorem zeroed_offer (random : Bytes) (binder : Vector UInt8 32) (h : random.length = 32) :
    (offer random binder h).zeroed = offer (List.replicate 32 0) (Vector.replicate 32 0) rfl := by
  simp [offer, ClientHello.zeroed, Extension.zeroed, zeros, h]

theorem zeroed_reply (random : Bytes) (h : random.length = 32) :
    (reply random h).zeroed = reply (List.replicate 32 0) rfl := by
  simp [reply, ServerHello.zeroed, zeros, h]

/-- Both hellos go out with their fake random, the offer with a binder that was made after it, and are
authenticated. -/
theorem jls_hello_authenticated_offer :
    (let hello := offer (List.replicate 32 0) (Vector.replicate 32 0) rfl
      let random := buildJlsFakeRandom exampleCrypto exampleUser exampleSeed hello.zeroed.wire
      ∃ authData, jlsClientHelloAuthData
      (offer random (Vector.replicate 32 7) (length_buildJlsFakeRandom _)).wire = .ok authData ∧
        checkJlsFakeRandom exampleCrypto exampleUser random authData = true) ∧
    (let hello := reply (List.replicate 32 0) rfl
      let random := buildJlsFakeRandom exampleCrypto exampleUser exampleSeed hello.zeroed.wire
      ∃ authData, jlsServerHelloAuthData (reply random (length_buildJlsFakeRandom _)).wire = .ok authData ∧
        checkJlsFakeRandom exampleCrypto exampleUser random authData = true) := by
  obtain ⟨hclient, hserver, -⟩ := jls_hello_authenticated exampleCrypto exampleUser exampleSeed
  exact ⟨(hclient (offer (List.replicate 32 0) (Vector.replicate 32 0) rfl)).2
      (offer _ (Vector.replicate 32 7) (length_buildJlsFakeRandom _)) (by rw [zeroed_offer, zeroed_offer]) rfl,
    (hserver (reply (List.replicate 32 0) rfl)).2 (reply _ (length_buildJlsFakeRandom _))
      (by rw [zeroed_reply, zeroed_reply]) rfl⟩

/-- **A message that is no ServerHello is accepted**: it ends with its random. -/
theorem short_serverHello_accepted :
    (∀ hello : ServerHello, hello.wire ≠ [2, 0, 0, 34] ++ List.replicate 34 5) ∧
      jlsServerHelloAuthData ([2, 0, 0, 34] ++ List.replicate 34 5) =
      .ok ([2, 0, 0, 34, 5, 5] ++ List.replicate 32 0) := by
  refine ⟨fun hello heq => ?_, by decide +kernel⟩
  have hlength := congrArg List.length heq
  simp only [ServerHello.wire, ServerHello.rest, length_handshake, length_append, length_vector8,
    length_cons, hello.version_length,
    hello.random_length, hello.cipherSuite_length, length_replicate, length_nil] at hlength
  omega

end ClashNative.Jls
