/-
This file models `ClientHelloParser::parse` over checked memory and proves when it
stays inside its input.

`parse` tests the record's type and compares the record's length with the bytes it
was given, and from there on moves a cursor by the lengths it reads: the session
id's, the cipher list's, the compression list's, each extension's and the server
name's. None of these is compared with anything. The session and compression
lengths are signed characters and the others signed shorts, so the cursor can also
go backwards, and the record's length is a signed short as well, so that a record
length from `0xfffb` on passes the one comparison there is. The three byte swaps in
place are part of the model: a cursor that goes backwards reads swapped bytes.

The extension loop may run forever, so it takes fuel; what is said of its loads is
said for every amount of fuel.
-/

import Nattan.Memory
import Mathlib.Logic.Relation

namespace Nattan

/-- The members of the parser. `fServer` holds bytes, `fCiphers` the values pushed by `parse`. -/
structure ClientHelloParser where
  fVersion : Int
  fCiphers : List Nat
  fServer : List UInt8
  bCompleted : Bool
  deriving DecidableEq, Repr

namespace ClientHelloParser

/-- A parser as it is constructed. -/
def new : ClientHelloParser where
  fVersion := -1
  fCiphers := []
  fServer := []
  bCompleted := false

def eof (parser : ClientHelloParser) : Bool :=
  parser.bCompleted

def ciphers (parser : ClientHelloParser) : List Nat :=
  parser.fCiphers

/-- `fServer.data()` read as a C string. -/
def SNI (parser : ClientHelloParser) : List UInt8 :=
  parser.fServer.takeWhile (· ≠ 0)

/-- `CONTENT_TYPE_HANDSHAKE`. -/
def contentTypeHandshake : UInt8 := 22

/-- `sizeof(Recoder)`. -/
def sizeofRecoder : Nat := 5

/-- `sizeof(HandshakeClientHello)`. -/
def sizeofHandshakeClientHello : Nat := 39

/-- The value of a 16-bit word as a `short`. -/
def short (word : Nat) : Int :=
  if word < 0x8000 then word else (word : Int) - 0x10000

/-- The value of a byte as a `char`. -/
def char (byte : UInt8) : Int :=
  if byte.toNat < 0x80 then byte.toNat else (byte.toNat : Int) - 0x100

/-- `ntohs` on a little-endian host. -/
def ntohs (word : Nat) : Nat :=
  word % 256 * 256 + word / 256 % 256

/-- What a call of `parse` leaves: its return value, the parser, and the bytes of the caller,
which it swaps in place. -/
structure Answer where
  code : Int
  parser : ClientHelloParser
  data : List UInt8
  deriving DecidableEq, Repr

/-! ### `parse` -/

/-- The cipher loop, from the current cipher on. -/
def loadCiphers (data : List UInt8) (cur : Int) : Nat → Except Fault (List Nat)
  | 0 => .ok []
  | n + 1 => do
    let cipher ← loadShort data cur
    let rest ← loadCiphers data (cur + 2) n
    return ntohs cipher :: rest

/-- `std::string(cur, cur + name_length)`. The constructor throws when the second pointer is
below the first. -/
def loadName (data : List UInt8) (cur name_length : Int) : Except Fault (List UInt8) :=
  if name_length < 0 then .error .lengthError else loadBytes data cur name_length.toNat

/-- The extension loop, `while(cur < end)`. It returns the new value of `fServer`. -/
def loadExtensions (data : List UInt8) (fServer : List UInt8) :
    Nat → Int → Except Fault (List UInt8)
  | 0, _ => .error .outOfFuel
  | fuel + 1, cur =>
    if cur < data.length then do
      let type ← loadShort data cur
      let length ← loadShort data (cur + 2)
      if short (ntohs type) = 0 then do
        let _list_length ← loadShort data (cur + 4)
        let _type ← load data (cur + 6)
        let name_length ← loadShort data (cur + 7)
        loadName data (cur + 9) (short (ntohs name_length))
      else loadExtensions data fServer fuel (cur + 4 + short (ntohs length))
    else .ok fServer

/-- The end of `parse`, from the hello's session length, at offset 43, on. -/
def parseHello (fuel : Nat) (parser : ClientHelloParser) (data : List UInt8) :
    Except Fault Answer := do
  let session_length ← load data 43
  let cur := sizeofRecoder + sizeofHandshakeClientHello + char session_length
  let ciphers_length ← loadShort data cur
  let ciphers ← loadCiphers data (cur + 2) ((short (ntohs ciphers_length)).tdiv 2).toNat
  let cur := cur + 2 + short (ntohs ciphers_length)
  let compression_length ← load data cur
  let cur := cur + 1 + char compression_length
  let _extension_length ← loadShort data cur
  let fServer ← loadExtensions data parser.fServer fuel (cur + 2)
  return { code := 0, data,
           parser := { parser with
             fCiphers := parser.fCiphers ++ ciphers, fServer, bCompleted := true } }

/-- The part of `parse` behind the record tests. -/
def parseClientHello (fuel : Nat) (parser : ClientHelloParser) (data : List UInt8) :
    Except Fault Answer := do
  let version ← loadShort data 9
  parseHello fuel parser (storeShort data 9 (ntohs version))

/-- `recoder->length + sizeof(Recoder)` as a `size_t`. -/
def need (word : Nat) : Nat :=
  ((short word + sizeofRecoder) % (2 ^ 64 : Int)).toNat

/-- `parse(data, length)` on the `length` bytes `data`. -/
def parse (fuel : Nat) (parser : ClientHelloParser) (data : List UInt8) : Except Fault Answer :=
  if data.length < sizeofRecoder then .ok { code := 1, parser, data }
  else do
    let version ← loadShort data 1
    let data := storeShort data 1 (ntohs version)
    let length ← loadShort data 3
    let data := storeShort data 3 (ntohs length)
    let type ← load data 0
    if type ≠ contentTypeHandshake then return { code := -1, parser, data }
    let length ← loadShort data 3
    if data.length < need length then return { code := 1, parser, data }
    parseClientHello fuel parser data

/-! ### Where the lengths lead -/

/-- How the bytes of a length field become a number. -/
structure Reading where
  byte : UInt8 → Int
  word : Nat → Int

/-- The lengths as `parse` reads them. -/
def signed : Reading where
  byte := char
  word := short

/-- The lengths as the format has them. -/
def unsigned : Reading where
  byte byte := byte.toNat
  word word := word

section Positions

variable (reading : Reading) (data : List UInt8)

/-- The two-byte field at `cur`. -/
def wordAt (cur : Int) : Int :=
  reading.word (ntohs (shortAt data cur))

def ciphersAt : Int :=
  sizeofRecoder + sizeofHandshakeClientHello + reading.byte (byteAt data 43)

def compressionAt : Int :=
  ciphersAt reading data + 2 + wordAt reading data (ciphersAt reading data)

def extensionsAt : Int :=
  compressionAt reading data + 1 + reading.byte (byteAt data (compressionAt reading data))

/-- The extension at `cur` is the `server_name` extension. -/
def IsServerName (cur : Int) : Prop :=
  ntohs (shortAt data cur) = 0

/-- The extension at `cur` is inside the input, is not the one the loop ends with, and is
followed by the one at `next`. -/
def NextExtension (cur next : Int) : Prop :=
  cur < data.length ∧ ¬ IsServerName data cur ∧ next = cur + 4 + wordAt reading data (cur + 2)

/-- The cursor reaches `cur` at the start of a turn of the extension loop. -/
def Visited (cur : Int) : Prop :=
  Relation.ReflTransGen (NextExtension reading data) (extensionsAt reading data + 2) cur

end Positions

/-- The loads of one turn of the extension loop are inside the input. -/
structure ExtensionLoadsFit (data : List UInt8) (cur : Int) : Prop where
  header : Within data cur 4
  nameHeader : IsServerName data cur → Within data (cur + 4) 5
  name : IsServerName data cur →
    Within data (cur + 9) (wordAt signed data (cur + 7)).toNat

/-- The fields `parse` loads between the record header and the extensions are inside the input,
each at the place to which the signed lengths before it lead. -/
structure HelloLoadsFit (data : List UInt8) : Prop where
  hello : Within data 43 1
  ciphersLength : Within data (ciphersAt signed data) 2
  ciphers : Within data (ciphersAt signed data + 2)
    (2 * ((wordAt signed data (ciphersAt signed data)).tdiv 2).toNat)
  compressionLength : Within data (compressionAt signed data) 1
  extensionLength : Within data (extensionsAt signed data) 2

/-- Every field `parse` loads behind the record header is inside the input. -/
structure LoadsFit (data : List UInt8) : Prop extends HelloLoadsFit data where
  extensions : ∀ cur, Visited signed data cur → cur < data.length → ExtensionLoadsFit data cur

/-- The unsigned lengths of one extension count bytes that are there. -/
structure ExtensionLengthsFit (data : List UInt8) (cur : Int) : Prop where
  body : cur + 4 + wordAt unsigned data (cur + 2) ≤ data.length
  list : IsServerName data cur → cur + 6 + wordAt unsigned data (cur + 4) ≤ data.length
  name : IsServerName data cur → cur + 9 + wordAt unsigned data (cur + 7) ≤ data.length

/-- Every inner length that `parse` reads counts, as the unsigned number of the format, bytes
that are there. -/
structure LengthsFit (data : List UInt8) : Prop where
  session : ciphersAt unsigned data ≤ data.length
  ciphers : compressionAt unsigned data ≤ data.length
  compression : extensionsAt unsigned data ≤ data.length
  extensionList : extensionsAt unsigned data + 2 +
    wordAt unsigned data (extensionsAt unsigned data) ≤ data.length
  extensions : ∀ cur, Visited unsigned data cur → cur < data.length →
    ExtensionLengthsFit data cur

/-- The input is answered by one of the tests on the record header. -/
def Rejected (data : List UInt8) : Prop :=
  data.length < sizeofRecoder ∨ byteAt data 0 ≠ contentTypeHandshake ∨
    data.length < need (ntohs (shortAt data 3))

/-- The input after the swaps of the two record fields. -/
def swappedRecord (data : List UInt8) : List UInt8 :=
  let versioned := storeShort data 1 (ntohs (shortAt data 1))
  storeShort versioned 3 (ntohs (shortAt versioned 3))

/-- The input after all three swaps. -/
def swapped (data : List UInt8) : List UInt8 :=
  storeShort (swappedRecord data) 9 (ntohs (shortAt (swappedRecord data) 9))

/-! ### What each part of `parse` does -/

theorem ntohs_lt (word : Nat) : ntohs word < 0x10000 := by
  unfold ntohs
  omega

theorem short_eq_zero {word : Nat} (small : word < 0x10000) : short word = 0 ↔ word = 0 := by
  unfold short
  split <;> omega

theorem loadCiphers_of_within {data : List UInt8} {cur : Int} {n : Nat}
    (within : Within data cur (2 * n)) : ∃ ciphers, loadCiphers data cur n = .ok ciphers := by
  induction n generalizing cur with
  | zero => exact ⟨[], rfl⟩
  | succ n inductionHypothesis =>
    rw [show 2 * (n + 1) = 2 + 2 * n by omega] at within
    obtain ⟨first, others⟩ := within_add.mp within
    obtain ⟨ciphers, loaded⟩ : ∃ ciphers, loadCiphers data (cur + 2) n = .ok ciphers :=
      inductionHypothesis others
    refine ⟨ntohs (shortAt data cur) :: ciphers, ?_⟩
    rw [loadCiphers, loadShort_of_within first, loaded]
    rfl

theorem loadCiphers_of_not_within {data : List UInt8} {cur : Int} {n : Nat}
    (outside : ¬ Within data cur (2 * n)) : OutOfBounds (loadCiphers data cur n) := by
  induction n generalizing cur with
  | zero => exact absurd (Or.inl rfl) outside
  | succ n inductionHypothesis =>
    rw [loadCiphers]
    by_cases first : Within data cur 2
    · rw [loadShort_of_within first]
      have others : ¬ Within data (cur + 2) (2 * n) := by
        intro others
        refine outside ?_
        rw [show 2 * (n + 1) = 2 + 2 * n by omega]
        exact within_add.mpr ⟨first, others⟩
      exact (inductionHypothesis others).bind _
    · exact (loadShort_of_not_within first).bind _

/-- The server name is loaded without leaving the input exactly when it is inside. -/
theorem outOfBounds_loadName_iff {data : List UInt8} {cur name_length : Int} :
    OutOfBounds (loadName data cur name_length) ↔ ¬ Within data cur name_length.toNat := by
  unfold loadName
  split
  · rename_i negative
    refine iff_of_false ?_ ?_
    · rintro ⟨index, impossible⟩
      cases impossible
    · rw [Int.toNat_of_nonpos (by omega)]
      exact fun outside => outside (Or.inl rfl)
  · refine ⟨fun faulty within => ?_, loadBytes_of_not_within⟩
    obtain ⟨bytes, loaded⟩ := loadBytes_of_within within
    rw [loaded] at faulty
    exact not_outOfBounds_ok _ faulty

section Turn

variable {data fServer : List UInt8} {cur : Int}

theorem within_header_iff :
    Within data cur 4 ↔ Within data cur 2 ∧ Within data (cur + 2) 2 := by
  unfold Within
  omega

theorem within_nameHeader_iff :
    Within data (cur + 4) 5 ↔
      Within data (cur + 4) 2 ∧ Within data (cur + 6) 1 ∧ Within data (cur + 7) 2 := by
  unfold Within
  omega

/-- A turn of the loop at an extension that is not `server_name`. -/
theorem loadExtensions_of_next (header : Within data cur 4) {next : Int}
    (goesOn : NextExtension signed data cur next) (fuel : Nat) :
    loadExtensions data fServer (fuel + 1) cur = loadExtensions data fServer fuel next := by
  obtain ⟨inside, notName, rfl⟩ := goesOn
  obtain ⟨type, length⟩ := within_header_iff.mp header
  rw [loadExtensions, if_pos inside, loadShort_of_within type, loadShort_of_within length]
  exact if_neg fun zero => notName ((short_eq_zero (ntohs_lt _)).mp zero)

/-- The last turn of the loop, at the `server_name` extension. -/
theorem loadExtensions_of_isServerName (inside : cur < data.length) (header : Within data cur 4)
    (isName : IsServerName data cur) (nameHeader : Within data (cur + 4) 5) (fuel : Nat) :
    loadExtensions data fServer (fuel + 1) cur =
      loadName data (cur + 9) (wordAt signed data (cur + 7)) := by
  obtain ⟨type, length⟩ := within_header_iff.mp header
  obtain ⟨list, nameType, name⟩ := within_nameHeader_iff.mp nameHeader
  rw [loadExtensions, if_pos inside, loadShort_of_within type, loadShort_of_within length]
  show (if short (ntohs (shortAt data cur)) = 0 then _ else _) = _
  rw [if_pos ((short_eq_zero (ntohs_lt _)).mpr isName), loadShort_of_within list,
    load_of_within nameType, loadShort_of_within name]
  rfl

/-- A turn of the loop at an extension that does not fit leaves the input. -/
theorem loadExtensions_of_not_fit (inside : cur < data.length)
    (notFit : ¬ ExtensionLoadsFit data cur) (fuel : Nat) :
    OutOfBounds (loadExtensions data fServer (fuel + 1) cur) := by
  by_cases header : Within data cur 4
  · by_cases isName : IsServerName data cur
    · by_cases nameHeader : Within data (cur + 4) 5
      · rw [loadExtensions_of_isServerName inside header isName nameHeader]
        refine outOfBounds_loadName_iff.mpr fun name => notFit ?_
        exact ⟨header, fun _ => nameHeader, fun _ => name⟩
      · obtain ⟨type, length⟩ := within_header_iff.mp header
        rw [loadExtensions, if_pos inside, loadShort_of_within type, loadShort_of_within length]
        show OutOfBounds (if short (ntohs (shortAt data cur)) = 0 then _ else _)
        rw [if_pos ((short_eq_zero (ntohs_lt _)).mpr isName)]
        by_cases list : Within data (cur + 4) 2
        · rw [loadShort_of_within list]
          by_cases nameType : Within data (cur + 6) 1
          · rw [load_of_within nameType]
            refine (loadShort_of_not_within fun name => ?_).bind _
            exact nameHeader (within_nameHeader_iff.mpr ⟨list, nameType, name⟩)
          · exact (load_of_not_within nameType).bind _
        · exact (loadShort_of_not_within list).bind _
    · exact absurd ⟨header, fun name => absurd name isName, fun name => absurd name isName⟩ notFit
  · rw [loadExtensions, if_pos inside]
    by_cases type : Within data cur 2
    · rw [loadShort_of_within type]
      refine (loadShort_of_not_within fun length => ?_).bind _
      exact header (within_header_iff.mpr ⟨type, length⟩)
    · exact (loadShort_of_not_within type).bind _

end Turn

/-- The extension loop stays inside the input for as long as it runs exactly when every
extension it visits fits. -/
theorem loadExtensions_inside_iff {data fServer : List UInt8} {start : Int} :
    (∀ fuel, ¬ OutOfBounds (loadExtensions data fServer fuel start)) ↔
      ∀ cur, Relation.ReflTransGen (NextExtension signed data) start cur → cur < data.length →
        ExtensionLoadsFit data cur := by
  constructor
  · intro stays cur visited inside
    have here : ∀ fuel, ¬ OutOfBounds (loadExtensions data fServer fuel cur) := by
      clear inside
      induction visited with
      | refl => exact stays
      | @tail middle last _ goesOn inductionHypothesis =>
        intro fuel faulty
        by_cases fits : ExtensionLoadsFit data middle
        · rw [← loadExtensions_of_next fits.header goesOn] at faulty
          exact inductionHypothesis _ faulty
        · exact inductionHypothesis 1 (loadExtensions_of_not_fit goesOn.1 fits 0)
    by_contra notFit
    exact here 1 (loadExtensions_of_not_fit inside notFit 0)
  · intro fits fuel
    induction fuel generalizing start with
    | zero =>
      rintro ⟨index, impossible⟩
      cases impossible
    | succ fuel inductionHypothesis =>
      by_cases inside : start < data.length
      · have here := fits start .refl inside
        by_cases isName : IsServerName data start
        · rw [loadExtensions_of_isServerName inside here.header isName (here.nameHeader isName)]
          exact fun faulty => outOfBounds_loadName_iff.mp faulty (here.name isName)
        · have goesOn : NextExtension signed data start _ := ⟨inside, isName, rfl⟩
          rw [loadExtensions_of_next here.header goesOn]
          exact inductionHypothesis fun cur visited => fits cur (.head goesOn visited)
      · rw [loadExtensions, if_neg inside]
        exact not_outOfBounds_ok _

section Hello

variable {parser : ClientHelloParser} {data : List UInt8}

/-- What `parse` returns at its end. -/
def finish (parser : ClientHelloParser) (data : List UInt8) (ciphers : List Nat)
    (fServer : List UInt8) : Answer where
  code := 0
  data := data
  parser := { parser with fCiphers := parser.fCiphers ++ ciphers, fServer, bCompleted := true }

/-- When the fields before the extensions fit, the rest is the extension loop. -/
theorem parseHello_of_ciphers (parser : ClientHelloParser) (fits : HelloLoadsFit data)
    {ciphers : List Nat}
    (loaded : loadCiphers data (ciphersAt signed data + 2)
      ((wordAt signed data (ciphersAt signed data)).tdiv 2).toNat = .ok ciphers) (fuel : Nat) :
    parseHello fuel parser data =
      (loadExtensions data parser.fServer fuel (extensionsAt signed data + 2)).map
        (finish parser data ciphers) := by
  rw [parseHello, load_of_within fits.hello, ok_bind]
  show (loadShort data (ciphersAt signed data) >>= _) = _
  rw [loadShort_of_within fits.ciphersLength, ok_bind]
  show (loadCiphers data (ciphersAt signed data + 2)
    ((wordAt signed data (ciphersAt signed data)).tdiv 2).toNat >>= _) = _
  rw [loaded, ok_bind]
  show (load data (compressionAt signed data) >>= _) = _
  rw [load_of_within fits.compressionLength, ok_bind]
  show (loadShort data (extensionsAt signed data) >>= _) = _
  rw [loadShort_of_within fits.extensionLength, ok_bind]
  rfl

theorem parseHello_of_fits (parser : ClientHelloParser) (fits : HelloLoadsFit data) :
    ∃ ciphers, ∀ fuel, parseHello fuel parser data =
      (loadExtensions data parser.fServer fuel (extensionsAt signed data + 2)).map
        (finish parser data ciphers) := by
  obtain ⟨ciphers, loaded⟩ := loadCiphers_of_within fits.ciphers
  exact ⟨ciphers, parseHello_of_ciphers parser fits loaded⟩

theorem parseHello_of_not_fits (notFit : ¬ HelloLoadsFit data) (fuel : Nat) :
    OutOfBounds (parseHello fuel parser data) := by
  rw [parseHello]
  by_cases hello : Within data 43 1
  case neg => exact (load_of_not_within hello).bind _
  rw [load_of_within hello, ok_bind]
  show OutOfBounds (loadShort data (ciphersAt signed data) >>= _)
  by_cases ciphersLength : Within data (ciphersAt signed data) 2
  case neg => exact (loadShort_of_not_within ciphersLength).bind _
  rw [loadShort_of_within ciphersLength, ok_bind]
  show OutOfBounds (loadCiphers data (ciphersAt signed data + 2)
    ((wordAt signed data (ciphersAt signed data)).tdiv 2).toNat >>= _)
  by_cases within : Within data (ciphersAt signed data + 2)
    (2 * ((wordAt signed data (ciphersAt signed data)).tdiv 2).toNat)
  case neg => exact (loadCiphers_of_not_within within).bind _
  obtain ⟨ciphers, loaded⟩ := loadCiphers_of_within within
  rw [loaded, ok_bind]
  show OutOfBounds (load data (compressionAt signed data) >>= _)
  by_cases compressionLength : Within data (compressionAt signed data) 1
  case neg => exact (load_of_not_within compressionLength).bind _
  rw [load_of_within compressionLength, ok_bind]
  show OutOfBounds (loadShort data (extensionsAt signed data) >>= _)
  refine (loadShort_of_not_within fun extensionLength => notFit ?_).bind _
  exact ⟨hello, ciphersLength, within, compressionLength, extensionLength⟩

/-- The part behind the record tests stays inside the input for as long as it runs exactly when
every field it loads fits. -/
theorem parseHello_inside_iff :
    (∀ fuel, ¬ OutOfBounds (parseHello fuel parser data)) ↔ LoadsFit data := by
  by_cases fits : HelloLoadsFit data
  · obtain ⟨ciphers, same⟩ := parseHello_of_fits parser fits
    simp only [same, outOfBounds_map_iff, loadExtensions_inside_iff]
    exact ⟨fun extensions => ⟨fits, extensions⟩, fun all => all.extensions⟩
  · refine iff_of_false (fun stays => ?_) fun all => fits all.toHelloLoadsFit
    exact stays 0 (parseHello_of_not_fits fits 0)

end Hello

/-! ### The record tests -/

section Record

variable {parser : ClientHelloParser} {data : List UInt8}

theorem length_swappedRecord : (swappedRecord data).length = data.length := by
  simp [swappedRecord]

theorem length_swapped : (swapped data).length = data.length := by
  simp [swapped, length_swappedRecord]

theorem byteAt_swappedRecord_zero : byteAt (swappedRecord data) 0 = byteAt data 0 :=
  (byteAt_storeShort_of_ne (by decide) (by decide)).trans
    (byteAt_storeShort_of_ne (by decide) (by decide))

/-- The swapped record length, read in host order, is the length in network order. -/
theorem shortAt_swappedRecord_three (long : sizeofRecoder ≤ data.length) :
    shortAt (swappedRecord data) 3 = ntohs (shortAt data 3) := by
  have stored : shortAt (swappedRecord data) 3 =
      ntohs (shortAt (storeShort data 1 (ntohs (shortAt data 1))) 3) := by
    refine shortAt_storeShort_self ?_ (ntohs_lt _)
    rw [length_storeShort]
    exact long
  rw [stored, show (3 : Int) = ((3 : Nat) : Int) from rfl,
    shortAt_storeShort_of_disjoint (by decide)]

/-- `parse` once the input has a record header. -/
theorem parse_of_recoder (long : sizeofRecoder ≤ data.length) (fuel : Nat) :
    parse fuel parser data =
      if byteAt data 0 ≠ contentTypeHandshake then
        .ok { code := -1, parser, data := swappedRecord data }
      else if data.length < need (ntohs (shortAt data 3)) then
        .ok { code := 1, parser, data := swappedRecord data }
      else parseClientHello fuel parser (swappedRecord data) := by
  have inside : ∀ memory : List UInt8, memory.length = data.length → ∀ index : Nat,
      index + 2 ≤ sizeofRecoder → Within memory index 2 := by
    intro memory same index small
    exact Or.inr ⟨by omega, by omega⟩
  have byte : ∀ memory : List UInt8, memory.length = data.length → Within memory 0 1 := by
    intro memory same
    have positive : 5 ≤ data.length := long
    exact Or.inr ⟨by omega, by omega⟩
  have version : Within data (1 : Int) 2 := inside data rfl 1 (by decide)
  have length : Within (storeShort data 1 (ntohs (shortAt data 1))) (3 : Int) 2 :=
    inside _ (length_storeShort _ _ _) 3 (by decide)
  have again : Within (swappedRecord data) (3 : Int) 2 :=
    inside _ length_swappedRecord 3 (by decide)
  rw [parse, if_neg (by omega), loadShort_of_within version, ok_bind]
  show (loadShort (storeShort data 1 (ntohs (shortAt data 1))) 3 >>= _) = _
  rw [loadShort_of_within length, ok_bind]
  show (load (swappedRecord data) 0 >>= _) = _
  rw [load_of_within (byte _ length_swappedRecord), ok_bind, byteAt_swappedRecord_zero]
  by_cases handshake : byteAt data 0 ≠ contentTypeHandshake
  · rw [if_pos handshake, if_pos handshake]
    rfl
  · rw [if_neg handshake, if_neg handshake]
    show (loadShort (swappedRecord data) 3 >>= _) = _
    rw [loadShort_of_within again, ok_bind, shortAt_swappedRecord_three long,
      length_storeShort, length_storeShort]
    rfl

/-- A rejected input is answered with a non-zero code, whatever the fuel. -/
theorem parse_of_rejected (parser : ClientHelloParser) (rejected : Rejected data) :
    ∃ answer, answer.code ≠ 0 ∧ ∀ fuel, parse fuel parser data = .ok answer := by
  by_cases short : data.length < sizeofRecoder
  · exact ⟨_, by simp, fun fuel => if_pos short⟩
  · have long : sizeofRecoder ≤ data.length := by omega
    by_cases handshake : byteAt data 0 ≠ contentTypeHandshake
    · refine ⟨{ code := -1, parser, data := swappedRecord data }, by simp, fun fuel => ?_⟩
      rw [parse_of_recoder long, if_pos handshake]
    · have more : data.length < need (ntohs (shortAt data 3)) :=
        (rejected.resolve_left short).resolve_left handshake
      refine ⟨{ code := 1, parser, data := swappedRecord data }, by simp, fun fuel => ?_⟩
      rw [parse_of_recoder long, if_neg handshake, if_pos more]

/-- Behind the record tests `parse` swaps the hello's version and goes on. -/
theorem parse_of_not_rejected (accepted : ¬ Rejected data) (fuel : Nat) :
    parse fuel parser data = parseClientHello fuel parser (swappedRecord data) := by
  simp only [Rejected, not_or] at accepted
  obtain ⟨long, handshake, enough⟩ := accepted
  rw [parse_of_recoder (by omega), if_neg handshake, if_neg enough]

theorem parseClientHello_of_within (version : Within (swappedRecord data) 9 2) (fuel : Nat) :
    parseClientHello fuel parser (swappedRecord data) = parseHello fuel parser (swapped data) := by
  rw [parseClientHello, loadShort_of_within version, ok_bind]
  rfl

/-- An input whose fields before the extensions fit has the version of the hello. -/
theorem within_version (fits : HelloLoadsFit (swapped data)) :
    Within (swappedRecord data) 9 2 := by
  have hello := fits.hello
  unfold Within at hello ⊢
  rw [length_swapped] at hello
  rw [length_swappedRecord]
  omega

/-- Behind the record tests, where the fields before the extensions fit. -/
theorem parse_of_fits (parser : ClientHelloParser) (accepted : ¬ Rejected data)
    (fits : HelloLoadsFit (swapped data)) :
    ∃ ciphers, ∀ fuel, parse fuel parser data =
      (loadExtensions (swapped data) parser.fServer fuel
        (extensionsAt signed (swapped data) + 2)).map (finish parser (swapped data) ciphers) := by
  obtain ⟨ciphers, same⟩ := parseHello_of_fits parser fits
  refine ⟨ciphers, fun fuel => ?_⟩
  rw [parse_of_not_rejected accepted, parseClientHello_of_within (within_version fits), same]

/-- Behind the record tests, where they do not fit. -/
theorem parse_of_not_fits (accepted : ¬ Rejected data)
    (notFit : ¬ HelloLoadsFit (swapped data)) (fuel : Nat) :
    OutOfBounds (parse fuel parser data) := by
  rw [parse_of_not_rejected accepted]
  by_cases version : Within (swappedRecord data) 9 2
  · rw [parseClientHello_of_within version]
    exact parseHello_of_not_fits notFit fuel
  · exact (loadShort_of_not_within version).bind _

/-- Behind the record tests `parse` stays inside the input exactly when every field fits. -/
theorem parse_inside_iff (accepted : ¬ Rejected data) :
    (∀ fuel, ¬ OutOfBounds (parse fuel parser data)) ↔ LoadsFit (swapped data) := by
  by_cases fits : HelloLoadsFit (swapped data)
  · simp only [parse_of_not_rejected accepted, parseClientHello_of_within (within_version fits)]
    exact parseHello_inside_iff
  · refine iff_of_false (fun stays => ?_) fun all => fits all.toHelloLoadsFit
    exact stays 0 (parse_of_not_fits accepted fits 0)

/-- Behind the record tests every answer is what the end of `parse` leaves. -/
theorem answer_of_parse (accepted : ¬ Rejected data) {fuel : Nat} {answer : Answer}
    (answered : parse fuel parser data = .ok answer) :
    HelloLoadsFit (swapped data) ∧
      ∃ ciphers result, answer = finish parser (swapped data) ciphers result := by
  by_cases fits : HelloLoadsFit (swapped data)
  · obtain ⟨ciphers, same⟩ := parse_of_fits parser accepted fits
    rw [same, Except.map.eq_def] at answered
    split at answered
    · cases answered
    · rename_i result _
      cases answered
      exact ⟨fits, ciphers, result, rfl⟩
  · obtain ⟨index, faulty⟩ := @parse_of_not_fits parser data accepted fits fuel
    rw [faulty] at answered
    cases answered

/-- Behind the record tests no answer has a non-zero code. -/
theorem code_of_not_rejected (accepted : ¬ Rejected data) {fuel : Nat} {answer : Answer}
    (answered : parse fuel parser data = .ok answer) : answer.code = 0 := by
  obtain ⟨-, ciphers, result, rfl⟩ := answer_of_parse accepted answered
  rfl

end Record

/-! ### The input is not left -/

/-- `parse` makes no load outside its input and answers every input whose inner lengths do not
fit with a non-zero code, exactly when a test on the record header already answers, or the
fields fit both as `parse` finds them and as the format counts them. -/
theorem parse_contained_iff (parser : ClientHelloParser) (data : List UInt8) :
    ((∀ fuel, ¬ OutOfBounds (parse fuel parser data)) ∧
      (¬ LengthsFit data → ∃ fuel answer,
        parse fuel parser data = .ok answer ∧ answer.code ≠ 0)) ↔
      Rejected data ∨ (LoadsFit (swapped data) ∧ LengthsFit data) := by
  by_cases rejected : Rejected data
  · obtain ⟨answer, nonzero, answered⟩ := parse_of_rejected parser rejected
    refine iff_of_true ⟨fun fuel => ?_, fun _ => ⟨0, answer, answered 0, nonzero⟩⟩
      (Or.inl rejected)
    rw [answered]
    exact not_outOfBounds_ok answer
  · rw [parse_inside_iff rejected, or_iff_right rejected]
    refine and_congr_right fun _ => ⟨fun answers => ?_, fun fits notFit => absurd fits notFit⟩
    by_contra notFit
    obtain ⟨fuel, answer, answered, nonzero⟩ := answers notFit
    exact nonzero (code_of_not_rejected rejected answered)

/-- A record header that announces an empty record, and nothing else. -/
def emptyRecord : List UInt8 := [22, 3, 1, 0, 0]

/-- The record tests accept it, and the hello's version is loaded behind its end. -/
theorem parse_leaves_emptyRecord :
    ¬ ∀ (parser : ClientHelloParser) (data : List UInt8),
      (∀ fuel, ¬ OutOfBounds (parse fuel parser data)) ∧
        (¬ LengthsFit data → ∃ fuel answer,
          parse fuel parser data = .ok answer ∧ answer.code ≠ 0) := by
  intro contained
  exact (contained new emptyRecord).1 0 ⟨9, rfl⟩

end ClientHelloParser

end Nattan
