/-
This file writes down a ClientHello as a TLS client encodes it and proves when
`ClientHelloParser::parse` decodes it.

The encoding is the specification side and is not taken from the source: one
handshake record that holds one ClientHello, every list behind its length. The
bounds of the format are fields of `ClientHelloMessage`; the record length of at most
`0x7fff` bounds every length inside, so that the signed readings of `parse` agree
with the lengths the client wrote.

The block of the extensions is optional: a client that has none to send may end its
hello with the compression methods. `parse` loads the length of the block without
asking whether there is one, so of such a hello it loads two bytes that are not there.
A `ClientHello` is one that has the block, and each of these is decoded.

The decoding proof walks the encoding from front to back. The input is always split
at the cursor, so that each load is one of the `append` lemmas of
`Nattan/Memory.lean` and the cursor is the length of what is already behind it.
-/

import Nattan.ClientHelloParser
import Mathlib.Data.List.TakeWhile

namespace Nattan

/-- A server name: bytes without the terminator of a C string. -/
structure HostName where
  bytes : List UInt8
  noNul : ∀ byte ∈ bytes, byte ≠ 0

/-- An extension of a ClientHello. -/
inductive Extension where
  | serverName (name : HostName)
  | other (type : UInt16) (body : List UInt8) (notServerName : type ≠ 0)

/-- The parts of a ClientHello and of the record that carries it. The block of the extensions may
be left out. -/
structure ClientHelloFields where
  recordVersion : UInt16
  version : UInt16
  random : List UInt8
  session : List UInt8
  ciphers : List UInt16
  compression : List UInt8
  extensionBlock : Option (List Extension)

/-! ### The encoding -/

/-- Two bytes in network order. -/
def be16 (value : Nat) : List UInt8 :=
  [UInt8.ofNat (value / 256), UInt8.ofNat value]

/-- Three bytes in network order. -/
def be24 (value : Nat) : List UInt8 :=
  [UInt8.ofNat (value / 65536), UInt8.ofNat (value / 256), UInt8.ofNat value]

namespace Extension

/-- The extension's type, length and body. The name list holds one name, of type `host_name`. -/
def encode : Extension → List UInt8
  | serverName name =>
    be16 0 ++ (be16 (name.bytes.length + 5) ++ (be16 (name.bytes.length + 3) ++
      (0 :: (be16 name.bytes.length ++ name.bytes))))
  | other type body _ => be16 type.toNat ++ (be16 body.length ++ body)

def isServerName : Extension → Bool
  | serverName _ => true
  | other _ _ _ => false

/-- The first host name of a list of extensions, empty when there is none. -/
def hostName : List Extension → List UInt8
  | [] => []
  | serverName name :: _ => name.bytes
  | other _ _ _ :: rest => hostName rest

/-- The first host name of a list of extensions, if there is one. -/
def named : List Extension → Option (List UInt8)
  | [] => none
  | serverName name :: _ => some name.bytes
  | other _ _ _ :: rest => named rest

theorem getD_named (extensions : List Extension) :
    (named extensions).getD [] = hostName extensions := by
  induction extensions with
  | nil => rfl
  | cons extension rest inductionHypothesis =>
    cases extension with
    | serverName name => rfl
    | other type body notServerName => exact inductionHypothesis

end Extension

namespace ClientHelloFields

variable (fields : ClientHelloFields)

def extensions : List Extension :=
  fields.extensionBlock.getD []

/-- The extension list behind its length, if there is a block. -/
def encodeExtensions : List UInt8 :=
  match fields.extensionBlock with
  | none => []
  | some extensions =>
    be16 (extensions.flatMap Extension.encode).length ++ extensions.flatMap Extension.encode

/-- The cipher list behind its length. -/
def encodeCiphers : List UInt8 :=
  be16 (2 * fields.ciphers.length) ++ fields.ciphers.flatMap fun cipher => be16 cipher.toNat

/-- The session id behind its length. -/
def encodeSession : List UInt8 :=
  UInt8.ofNat fields.session.length :: fields.session

/-- The compression methods behind their number. -/
def encodeCompression : List UInt8 :=
  UInt8.ofNat fields.compression.length :: fields.compression

/-- What follows the random value. -/
def encodeLists : List UInt8 :=
  fields.encodeSession ++ (fields.encodeCiphers ++
    (fields.encodeCompression ++ fields.encodeExtensions))

/-- The ClientHello without its handshake header. -/
def encodeHello : List UInt8 :=
  be16 fields.version.toNat ++ (fields.random ++ fields.encodeLists)

/-- The handshake message: the type `client_hello`, the length, the hello. -/
def encodeHandshake : List UInt8 :=
  1 :: (be24 fields.encodeHello.length ++ fields.encodeHello)

/-- The record: the type `handshake`, the version, the length, the message. -/
def encode : List UInt8 :=
  22 :: (be16 fields.recordVersion.toNat ++
    (be16 fields.encodeHandshake.length ++ fields.encodeHandshake))

end ClientHelloFields

/-- A ClientHello that a client can send in one record. -/
structure ClientHelloMessage extends ClientHelloFields where
  random_length : random.length = 32
  session_length : session.length ≤ 32
  compression_pos : 1 ≤ compression.length
  compression_length : compression.length ≤ 127
  serverNames : toClientHelloFields.extensions.countP Extension.isServerName ≤ 1
  record_length : toClientHelloFields.encodeHandshake.length ≤ 0x7fff

/-- A ClientHello with a block of extensions, which may be empty. -/
structure ClientHello extends ClientHelloMessage where
  listed : extensionBlock.isSome = true

/-- The host name the client asks for, empty when it names none. -/
def ClientHelloMessage.hostName (hello : ClientHelloMessage) : List UInt8 :=
  Extension.hostName hello.extensions

namespace ClientHelloParser

/-! ### Signed readings of small lengths -/

theorem char_ofNat {length : Nat} (small : length ≤ 127) : char (UInt8.ofNat length) = length := by
  have same : (UInt8.ofNat length).toNat = length := by
    rw [UInt8.toNat_ofNat']
    omega
  rw [char, same, if_pos (by omega)]

theorem short_of_lt {word : Nat} (small : word < 0x8000) : short word = word :=
  if_pos small

/-- `ntohs` exchanges the two bytes of a word. -/
theorem ntohs_bytes {low high : Nat} (lowByte : low < 256) (highByte : high < 256) :
    ntohs (low + 256 * high) = high + 256 * low := by
  have remainder : (low + 256 * high) % 256 = low := by omega
  have quotient : (low + 256 * high) / 256 = high := by omega
  rw [ntohs, remainder, quotient, Nat.mod_eq_of_lt highByte]
  omega

/-- The host-order word whose bytes are `be16 value`. -/
def htons (value : Nat) : Nat :=
  (UInt8.ofNat (value / 256)).toNat + 256 * (UInt8.ofNat value).toNat

theorem ntohs_htons {value : Nat} (small : value < 0x10000) : ntohs (htons value) = value := by
  rw [htons, ntohs_bytes (UInt8.toNat_lt _) (UInt8.toNat_lt _), UInt8.toNat_ofNat',
    UInt8.toNat_ofNat']
  omega

section Loads

variable {before after : List UInt8} {cur : Int}

theorem length_append_be16 (value : Nat) : (before ++ be16 value).length = before.length + 2 := by
  rw [List.length_append]
  rfl

theorem loadShort_be16 (value : Nat) (here : cur = before.length) :
    loadShort (before ++ (be16 value ++ after)) cur = .ok (htons value) :=
  loadShort_append _ _ here

/-- A swap in place exchanges the two bytes of a field. -/
theorem storeShort_ntohs (low high : UInt8) :
    storeShort (before ++ low :: high :: after) before.length
        (ntohs (shortAt (before ++ low :: high :: after) before.length)) =
      before ++ high :: low :: after := by
  have within : Within (before ++ low :: high :: after) before.length 2 := by
    refine Or.inr ⟨by omega, ?_⟩
    rw [List.length_append, List.length_cons, List.length_cons]
    omega
  have loaded : loadShort (before ++ low :: high :: after) before.length =
      .ok (low.toNat + 256 * high.toNat) := loadShort_append low high rfl
  rw [loadShort_of_within within] at loaded
  have quotient : (high.toNat + 256 * low.toNat) / 256 = low.toNat := by
    have small := high.toNat_lt
    omega
  have newLow : UInt8.ofNat (high.toNat + 256 * low.toNat) = high := by
    rw [← UInt8.toNat_inj, UInt8.toNat_ofNat']
    have small := high.toNat_lt
    omega
  rw [Except.ok.inj loaded, ntohs_bytes low.toNat_lt high.toNat_lt, storeShort, quotient, newLow,
    UInt8.ofNat_toNat]
  simp

/-- The cipher loop reads the encoded codes. -/
theorem loadCiphers_encoded (ciphers : List UInt16) (here : cur = before.length) :
    loadCiphers (before ++ (ciphers.flatMap (fun cipher => be16 cipher.toNat) ++ after)) cur
      ciphers.length = .ok (ciphers.map UInt16.toNat) := by
  induction ciphers generalizing before cur with
  | nil => rfl
  | cons cipher rest inductionHypothesis =>
    rw [List.flatMap_cons, List.append_assoc, List.length_cons, loadCiphers,
      loadShort_be16 _ here, ok_bind, ← List.append_assoc before,
      inductionHypothesis (by simp [here, be16]), ok_bind, ntohs_htons cipher.toNat_lt]
    rfl

end Loads

/-! ### The extension loop -/

/-- The encoded name of a `server_name` extension is loaded. -/
theorem loadExtensions_serverName {before after fServer : List UInt8} {cur : Int}
    (name : HostName) (here : cur = before.length) (small : name.bytes.length < 0x8000)
    (fuel : Nat) :
    loadExtensions (before ++ ((Extension.serverName name).encode ++ after)) fServer (fuel + 1)
      cur = .ok name.bytes := by
  have inside : cur < (before ++ ((Extension.serverName name).encode ++ after)).length := by
    simp only [here, Extension.encode, be16, List.length_append, List.length_cons]
    omega
  rw [loadExtensions, if_pos inside, Extension.encode]
  simp only [List.append_assoc, List.cons_append]
  rw [loadShort_be16 _ here, ok_bind, ← List.append_assoc before,
    loadShort_be16 _ (by simp [here, be16]), ok_bind, if_pos (by decide),
    ← List.append_assoc (before ++ be16 0), loadShort_be16 _ (by simp [here, be16]), ok_bind,
    ← List.append_assoc (before ++ be16 0 ++ be16 (name.bytes.length + 5)),
    load_append _ (by simp [here, be16]), ok_bind, List.append_cons,
    loadShort_be16 _ (by simp [here, be16]), ok_bind, ntohs_htons (by omega), short_of_lt small,
    loadName, if_neg (by omega), Int.toNat_natCast, ← List.append_assoc _ (be16 _)]
  exact loadBytes_append name.bytes (by simp [here, be16])

/-- Any other extension is passed over. -/
theorem loadExtensions_other {before after fServer body : List UInt8} {cur : Int}
    {type : UInt16} (notServerName : type ≠ 0) (here : cur = before.length)
    (small : body.length < 0x8000) (fuel : Nat) :
    loadExtensions (before ++ ((Extension.other type body notServerName).encode ++ after))
        fServer (fuel + 1) cur =
      loadExtensions (before ++ ((Extension.other type body notServerName).encode ++ after))
        fServer fuel (cur + 4 + body.length) := by
  have inside : cur < (before ++
      ((Extension.other type body notServerName).encode ++ after)).length := by
    simp only [here, Extension.encode, be16, List.length_append, List.length_cons]
    omega
  have nonzero : ¬ short (ntohs (htons type.toNat)) = 0 := by
    rw [ntohs_htons type.toNat_lt, short_eq_zero type.toNat_lt]
    exact fun zero => notServerName (UInt16.toNat_inj.mp zero)
  rw [loadExtensions, if_pos inside]
  have first : loadShort (before ++ ((Extension.other type body notServerName).encode ++ after))
      cur = .ok (htons type.toNat) := by
    rw [Extension.encode, List.append_assoc]
    exact loadShort_be16 _ here
  have second : loadShort (before ++ ((Extension.other type body notServerName).encode ++ after))
      (cur + 2) = .ok (htons body.length) := by
    rw [Extension.encode, List.append_assoc, List.append_assoc, ← List.append_assoc before]
    exact loadShort_be16 _ (by simp [here, be16])
  rw [first, second, ok_bind, ok_bind, if_neg nonzero, ntohs_htons (by omega), short_of_lt small]

/-- The extension loop ends exactly at the end of the encoded list, with the host name of the
first `server_name` extension, or with the old value when there is none. -/
theorem loadExtensions_encoded {before : List UInt8} {cur : Int} (fServer : List UInt8)
    (extensions : List Extension) (here : cur = before.length)
    (small : (extensions.flatMap Extension.encode).length < 0x8000) {fuel : Nat}
    (enough : extensions.length < fuel) :
    loadExtensions (before ++ extensions.flatMap Extension.encode) fServer fuel cur =
      .ok ((Extension.named extensions).getD fServer) := by
  induction extensions generalizing before cur fuel with
  | nil =>
    obtain ⟨fuel, rfl⟩ := Nat.exists_eq_add_one_of_ne_zero (Nat.ne_of_gt enough)
    rw [loadExtensions, if_neg (by simp [here])]
    rfl
  | cons extension rest inductionHypothesis =>
    obtain ⟨fuel, rfl⟩ := Nat.exists_eq_add_one_of_ne_zero (Nat.ne_of_gt (Nat.zero_lt_of_lt enough))
    rw [List.flatMap_cons, List.length_append] at small
    rw [List.length_cons] at enough
    cases extension with
    | serverName name =>
      refine loadExtensions_serverName name here ?_ fuel
      simp only [Extension.encode, List.length_append, List.length_cons] at small
      omega
    | other type body notServerName =>
      have bodySmall : body.length < 0x8000 := by
        simp only [Extension.encode, List.length_append] at small
        omega
      rw [List.flatMap_cons, loadExtensions_other notServerName here bodySmall,
        ← List.append_assoc]
      refine inductionHypothesis ?_ (by omega) (by omega)
      simp [here, Extension.encode, be16]
      omega

/-! ### The whole hello -/

theorem length_encodeHandshake (hello : ClientHelloMessage) :
    hello.encodeHandshake.length = 38 + hello.encodeLists.length := by
  have random := hello.random_length
  simp only [ClientHelloFields.encodeHandshake, ClientHelloFields.encodeHello, be16, be24,
    List.length_append, List.length_cons, List.length_nil]
  omega

theorem length_encodeCiphers (fields : ClientHelloFields) :
    fields.encodeCiphers.length = 2 + 2 * fields.ciphers.length := by
  simp [ClientHelloFields.encodeCiphers, List.length_flatMap, be16]
  omega

theorem ciphers_small (hello : ClientHelloMessage) : 2 * hello.ciphers.length < 0x8000 := by
  have record := hello.record_length
  simp only [length_encodeHandshake, ClientHelloFields.encodeLists, length_encodeCiphers,
    List.length_append] at record
  omega

theorem encodeExtensions_of_listed (fields : ClientHelloFields)
    (listed : fields.extensionBlock.isSome = true) :
    fields.encodeExtensions = be16 (fields.extensions.flatMap Extension.encode).length ++
      fields.extensions.flatMap Extension.encode := by
  obtain ⟨extensions, found⟩ := Option.isSome_iff_exists.mp listed
  rw [ClientHelloFields.encodeExtensions, ClientHelloFields.extensions, found]
  rfl

theorem encodeExtensions_of_bare (fields : ClientHelloFields)
    (bare : fields.extensionBlock = none) : fields.encodeExtensions = [] := by
  rw [ClientHelloFields.encodeExtensions, bare]

theorem extensions_small (hello : ClientHelloMessage)
    (listed : hello.extensionBlock.isSome = true) :
    (hello.extensions.flatMap Extension.encode).length < 0x8000 := by
  have record := hello.record_length
  simp only [length_encodeHandshake, ClientHelloFields.encodeLists,
    encodeExtensions_of_listed _ listed, List.length_append] at record
  omega

section Fields

variable (hello : ClientHelloMessage) {opened : List UInt8} (front : opened.length = 43)

include front

theorem ciphersAt_encoded :
    (sizeofRecoder + sizeofHandshakeClientHello + hello.session.length : Int) =
      (opened ++ hello.encodeSession).length := by
  rw [List.length_append, ClientHelloFields.encodeSession, List.length_cons, front,
    sizeofRecoder, sizeofHandshakeClientHello]
  omega

theorem compressionAt_encoded :
    (sizeofRecoder + sizeofHandshakeClientHello + hello.session.length + 2 +
      (2 * hello.ciphers.length : Nat) : Int) =
      (opened ++ hello.encodeSession ++ hello.encodeCiphers).length := by
  rw [List.length_append, length_encodeCiphers, ciphersAt_encoded hello front]
  omega

theorem extensionsAt_encoded :
    (sizeofRecoder + sizeofHandshakeClientHello + hello.session.length + 2 +
      (2 * hello.ciphers.length : Nat) + 1 + hello.compression.length : Int) =
      (opened ++ hello.encodeSession ++ hello.encodeCiphers ++
        hello.encodeCompression).length := by
  rw [List.length_append, ClientHelloFields.encodeCompression, List.length_cons,
    compressionAt_encoded hello front]
  omega

theorem loadShort_ciphersLength :
    loadShort (opened ++ hello.encodeLists)
      (sizeofRecoder + sizeofHandshakeClientHello + hello.session.length) =
        .ok (htons (2 * hello.ciphers.length)) := by
  rw [ClientHelloFields.encodeLists, ClientHelloFields.encodeCiphers, List.append_assoc,
    ← List.append_assoc opened]
  exact loadShort_be16 _ (ciphersAt_encoded hello front)

theorem loadCiphers_codes :
    loadCiphers (opened ++ hello.encodeLists)
      (sizeofRecoder + sizeofHandshakeClientHello + hello.session.length + 2)
      hello.ciphers.length = .ok (hello.ciphers.map UInt16.toNat) := by
  rw [ClientHelloFields.encodeLists, ClientHelloFields.encodeCiphers, List.append_assoc,
    ← List.append_assoc opened, ← List.append_assoc _ (be16 _)]
  refine loadCiphers_encoded _ ?_
  rw [ciphersAt_encoded hello front, length_append_be16]
  rfl

theorem load_compressionLength :
    load (opened ++ hello.encodeLists)
      (sizeofRecoder + sizeofHandshakeClientHello + hello.session.length + 2 +
        (2 * hello.ciphers.length : Nat)) = .ok (UInt8.ofNat hello.compression.length) := by
  rw [ClientHelloFields.encodeLists, ← List.append_assoc, ← List.append_assoc]
  exact load_append _ (compressionAt_encoded hello front)

theorem loadShort_extensionLength (listed : hello.extensionBlock.isSome = true) :
    loadShort (opened ++ hello.encodeLists)
      (sizeofRecoder + sizeofHandshakeClientHello + hello.session.length + 2 +
        (2 * hello.ciphers.length : Nat) + 1 + hello.compression.length) =
      .ok (htons (hello.extensions.flatMap Extension.encode).length) := by
  rw [ClientHelloFields.encodeLists, ← List.append_assoc, ← List.append_assoc,
    ← List.append_assoc, encodeExtensions_of_listed _ listed]
  exact loadShort_be16 _ (extensionsAt_encoded hello front)

/-- Where there is no block the length of one is loaded behind the input. -/
theorem loadShort_of_bare (bare : hello.extensionBlock = none) :
    OutOfBounds (loadShort (opened ++ hello.encodeLists)
      (sizeofRecoder + sizeofHandshakeClientHello + hello.session.length + 2 +
        (2 * hello.ciphers.length : Nat) + 1 + hello.compression.length)) := by
  refine loadShort_of_not_within ?_
  rw [extensionsAt_encoded hello front, ClientHelloFields.encodeLists,
    encodeExtensions_of_bare _ bare, List.append_nil, ← List.append_assoc, ← List.append_assoc]
  rintro (none | ⟨-, inside⟩)
  · exact absurd none (by decide)
  · omega

theorem loadExtensions_list (listed : hello.extensionBlock.isSome = true) (fServer : List UInt8)
    {fuel : Nat} (enough : hello.extensions.length < fuel) :
    loadExtensions (opened ++ hello.encodeLists) fServer fuel
      (sizeofRecoder + sizeofHandshakeClientHello + hello.session.length + 2 +
        (2 * hello.ciphers.length : Nat) + 1 + hello.compression.length + 2) =
      .ok ((Extension.named hello.extensions).getD fServer) := by
  rw [ClientHelloFields.encodeLists, ← List.append_assoc, ← List.append_assoc,
    ← List.append_assoc, encodeExtensions_of_listed _ listed, ← List.append_assoc _ (be16 _)]
  refine loadExtensions_encoded fServer _ ?_ (extensions_small hello listed) enough
  rw [extensionsAt_encoded hello front, length_append_be16]
  rfl

/-- `parse` from the session length to the extensions. `opened` stands for what is in front of it,
swapped fields included. -/
theorem parseHello_lists (parser : ClientHelloParser) (fuel : Nat) :
    parseHello fuel parser (opened ++ hello.encodeLists) =
      (loadShort (opened ++ hello.encodeLists)
        (sizeofRecoder + sizeofHandshakeClientHello + hello.session.length + 2 +
          (2 * hello.ciphers.length : Nat) + 1 + hello.compression.length)).bind fun _ =>
        (loadExtensions (opened ++ hello.encodeLists) parser.fServer fuel
          (sizeofRecoder + sizeofHandshakeClientHello + hello.session.length + 2 +
            (2 * hello.ciphers.length : Nat) + 1 + hello.compression.length + 2)).bind fun name =>
          .ok (finish parser (opened ++ hello.encodeLists) (hello.ciphers.map UInt16.toNat)
            name) := by
  have session : char (UInt8.ofNat hello.session.length) = hello.session.length :=
    char_ofNat (Nat.le_trans hello.session_length (by decide))
  have ciphers : short (ntohs (htons (2 * hello.ciphers.length))) =
      (2 * hello.ciphers.length : Nat) := by
    have small := ciphers_small hello
    rw [ntohs_htons (by omega), short_of_lt small]
  have count : (((2 * hello.ciphers.length : Nat) : Int).tdiv 2).toNat = hello.ciphers.length := by
    rw [Int.tdiv_eq_ediv_of_nonneg (by omega)]
    omega
  have compression : char (UInt8.ofNat hello.compression.length) = hello.compression.length :=
    char_ofNat hello.compression_length
  have sessionLoad : load (opened ++ hello.encodeLists) 43 =
      .ok (UInt8.ofNat hello.session.length) := load_append _ (by simp [front])
  simp only [parseHello, sessionLoad, ok_bind, session, loadShort_ciphersLength hello front,
    ciphers, count, loadCiphers_codes hello front, load_compressionLength hello front,
    compression]
  rfl

/-- With a block of extensions `parse` gets to its end. -/
theorem parseHello_encoded (listed : hello.extensionBlock.isSome = true)
    (parser : ClientHelloParser) {fuel : Nat} (enough : hello.extensions.length < fuel) :
    parseHello fuel parser (opened ++ hello.encodeLists) =
      .ok (finish parser (opened ++ hello.encodeLists) (hello.ciphers.map UInt16.toNat)
        ((Extension.named hello.extensions).getD parser.fServer)) := by
  rw [parseHello_lists hello front, loadShort_extensionLength hello front listed,
    loadExtensions_list hello front listed parser.fServer enough]
  rfl

/-- Without one it leaves its input. -/
theorem parseHello_of_bare (bare : hello.extensionBlock = none) (parser : ClientHelloParser)
    (fuel : Nat) : OutOfBounds (parseHello fuel parser (opened ++ hello.encodeLists)) := by
  rw [parseHello_lists hello front]
  exact (loadShort_of_bare hello front bare).bind _

end Fields

theorem length_encode (hello : ClientHelloMessage) :
    hello.encode.length = sizeofRecoder + hello.encodeHandshake.length := by
  simp [ClientHelloFields.encode, be16, sizeofRecoder]
  omega

theorem need_of_le {length : Nat} (small : length ≤ 0x7fff) :
    need length = sizeofRecoder + length := by
  rw [need, short_of_lt (by omega), sizeofRecoder]
  omega

theorem shortAt_recordLength (hello : ClientHelloMessage) :
    ntohs (shortAt hello.encode 3) = hello.encodeHandshake.length := by
  have record := hello.record_length
  have loaded : loadShort hello.encode 3 = .ok (htons hello.encodeHandshake.length) :=
    @loadShort_be16 (22 :: be16 hello.recordVersion.toNat) _ _ _ rfl
  have within : Within hello.encode 3 2 := by
    refine Or.inr ⟨by omega, ?_⟩
    rw [length_encode, sizeofRecoder]
    omega
  rw [loadShort_of_within within] at loaded
  rw [Except.ok.inj loaded, ntohs_htons (by omega)]

/-- The record tests let the encoding through. -/
theorem not_rejected (hello : ClientHelloMessage) : ¬ Rejected hello.encode := by
  rw [Rejected, shortAt_recordLength, need_of_le hello.record_length, length_encode]
  rintro (short | type | more)
  · omega
  · exact type rfl
  · omega

/-- The encoding after the swaps: the bytes of three fields in front of the lists are exchanged,
and the lists are as they were. -/
theorem swapped_encode (hello : ClientHelloMessage) :
    ∃ opened : List UInt8, opened.length = 43 ∧
      swapped hello.encode = opened ++ hello.encodeLists := by
  have record : swappedRecord hello.encode =
      22 :: ((be16 hello.recordVersion.toNat).reverse ++
        ((be16 hello.encodeHandshake.length).reverse ++ hello.encodeHandshake)) := by
    rw [swappedRecord, show storeShort hello.encode 1 (ntohs (shortAt hello.encode 1)) = _ from
      @storeShort_ntohs [22] _ _ _]
    exact @storeShort_ntohs (22 :: (be16 hello.recordVersion.toNat).reverse) _ _ _
  refine ⟨22 :: ((be16 hello.recordVersion.toNat).reverse ++
    ((be16 hello.encodeHandshake.length).reverse ++ (1 :: (be24 hello.encodeHello.length ++
      ((be16 hello.version.toNat).reverse ++ hello.random))))), ?_, ?_⟩
  · simp [be16, be24, hello.random_length]
  · rw [swapped, record]
    exact @storeShort_ntohs (22 :: ((be16 hello.recordVersion.toNat).reverse ++
      ((be16 hello.encodeHandshake.length).reverse ++ (1 :: be24 hello.encodeHello.length)))) _ _ _

theorem takeWhile_hostName (extensions : List Extension) :
    (Extension.hostName extensions).takeWhile (· ≠ 0) = Extension.hostName extensions := by
  induction extensions with
  | nil => rfl
  | cons extension rest inductionHypothesis =>
    cases extension with
    | serverName name =>
      exact List.takeWhile_eq_self_iff.mpr fun byte member =>
        decide_eq_true (name.noNul byte member)
    | other type body notServerName => exact inductionHypothesis

/-- Behind the record tests and the swaps `parse` reads the lists. -/
theorem parse_encode_eq (hello : ClientHelloMessage) :
    ∃ opened : List UInt8, opened.length = 43 ∧ ∀ fuel parser,
      parse fuel parser hello.encode = parseHello fuel parser (opened ++ hello.encodeLists) := by
  obtain ⟨opened, front, same⟩ := swapped_encode hello
  refine ⟨opened, front, fun fuel parser => ?_⟩
  have version : Within (swappedRecord hello.encode) 9 2 := by
    have length := length_encodeHandshake hello
    refine Or.inr ⟨by omega, ?_⟩
    rw [length_swappedRecord, length_encode, sizeofRecoder]
    omega
  rw [parse_of_not_rejected (not_rejected hello), parseClientHello_of_within version, same]

/-- A ClientHello in one record is parsed to its end, whatever the parser held before. -/
theorem parse_encode_after (parser : ClientHelloParser) (hello : ClientHello) :
    ∃ opened : List UInt8, ∀ fuel, hello.extensions.length < fuel →
      parse fuel parser hello.encode =
        .ok (finish parser (opened ++ hello.encodeLists) (hello.ciphers.map UInt16.toNat)
          ((Extension.named hello.extensions).getD parser.fServer)) := by
  obtain ⟨opened, front, parsed⟩ := parse_encode_eq hello.toClientHelloMessage
  refine ⟨opened, fun fuel enough => ?_⟩
  rw [parsed]
  exact parseHello_encoded hello.toClientHelloMessage front hello.listed parser enough

/-- A hello is decoded to its ciphers and its host name. The fuel only has to cover the turns of
the extension loop, one for each extension. -/
def Decodes (hello : ClientHelloMessage) : Prop :=
  ∃ answer, (∀ fuel, hello.extensions.length < fuel →
      parse fuel new hello.encode = .ok answer) ∧
    answer.code = 0 ∧ answer.parser.eof = true ∧
    answer.parser.ciphers = hello.ciphers.map UInt16.toNat ∧
    answer.parser.SNI = hello.hostName

theorem parse_encode (hello : ClientHello) : Decodes hello.toClientHelloMessage := by
  obtain ⟨opened, parsed⟩ := parse_encode_after new hello
  refine ⟨_, parsed, rfl, rfl, rfl, ?_⟩
  show ((Extension.named hello.extensions).getD []).takeWhile (· ≠ 0) = _
  rw [Extension.getD_named]
  exact takeWhile_hostName hello.extensions

/-- Of a hello without a block of extensions `parse` loads two bytes that are not there. -/
theorem parse_of_bare (hello : ClientHelloMessage) (bare : hello.extensionBlock = none)
    (fuel : Nat) (parser : ClientHelloParser) : OutOfBounds (parse fuel parser hello.encode) := by
  obtain ⟨opened, front, parsed⟩ := parse_encode_eq hello
  rw [parsed]
  exact parseHello_of_bare hello front bare parser fuel

/-- A ClientHello in one record is decoded exactly when it has a block of extensions. -/
theorem parse_encode_iff (hello : ClientHelloMessage) :
    Decodes hello ↔ hello.extensionBlock.isSome = true := by
  constructor
  · rintro ⟨answer, parsed, -⟩
    by_contra missing
    obtain ⟨index, fault⟩ := parse_of_bare hello (Option.not_isSome_iff_eq_none.mp missing)
      (hello.extensions.length + 1) new
    rw [parsed _ (Nat.lt_succ_self _)] at fault
    cases fault
  · intro listed
    exact parse_encode ⟨hello, listed⟩

/-- A hello with one cipher, an extension the parser skips and the host name `a.b`. -/
def sampleHello : ClientHello where
  recordVersion := 0x0301
  version := 0x0303
  random := List.replicate 32 7
  session := [1, 2]
  ciphers := [0xc02f]
  compression := [0]
  extensionBlock := some [.other 23 [] (by decide), .serverName ⟨[97, 46, 98], by simp⟩]
  random_length := rfl
  session_length := by decide
  compression_pos := by decide
  compression_length := by decide
  serverNames := by decide
  record_length := by decide
  listed := rfl

theorem parse_encode_sampleHello :
    sampleHello.hostName = [97, 46, 98] ∧
      ∃ answer, parse 3 new sampleHello.encode = .ok answer ∧ answer.code = 0 ∧
        answer.parser.ciphers = [0xc02f] ∧ answer.parser.SNI = [97, 46, 98] := by
  obtain ⟨answer, parsed, code, -, ciphers, name⟩ :=
    (parse_encode_iff sampleHello.toClientHelloMessage).mpr rfl
  exact ⟨rfl, answer, parsed 3 (by decide), code, ciphers, name⟩

/-- A hello with one cipher and no block of extensions. -/
def bareHello : ClientHelloMessage where
  recordVersion := 0x0301
  version := 0x0303
  random := List.replicate 32 7
  session := []
  ciphers := [0xc02f]
  compression := [0]
  extensionBlock := none
  random_length := rfl
  session_length := by decide
  compression_pos := by decide
  compression_length := by decide
  serverNames := by decide
  record_length := by decide

/-- The 50 bytes of the record are there, and `parse` loads the fifty-first. -/
theorem parse_leaves_bareHello :
    bareHello.encode.length = 50 ∧ ¬ Decodes bareHello ∧
      parse 1 new bareHello.encode = .error (.outOfBounds 50) := by
  refine ⟨by decide, ?_, by decide +kernel⟩
  rintro ⟨answer, parsed, -⟩
  obtain ⟨index, fault⟩ := parse_of_bare bareHello rfl 1 new
  rw [parsed 1 (by decide)] at fault
  cases fault

end ClientHelloParser

end Nattan
