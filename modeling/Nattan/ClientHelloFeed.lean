/-
This file models feeding `ClientHelloParser` a growing buffer and proves exactly when
that gives what one call on the whole input gives.

The caller keeps the bytes in one buffer and calls `parse` on what has arrived, again
and again while it asks for more. Two things are in the way. Every call that finds a
record header swaps its version and its length in place, and the call that finds the
whole record swaps the version of the hello, so the caller's bytes change, and a
second call reads a swapped length, unless the two bytes of each field are equal. And
the extension loop runs to the end of what the call was given, not of the record, so
the call that ends the chain may see fewer extensions than a call on the whole input.
-/

import Nattan.ClientHello
import Nattan.ClientHelloLoop

namespace Nattan

namespace ClientHelloParser

/-! ### Where the extension loop ends -/

/-- The extension at `cur` is a `server_name` extension inside the input, with this name. -/
structure NamedAt (data : List UInt8) (cur : Int) (name : List UInt8) : Prop where
  inside : cur < data.length
  header : Within data cur 4
  isName : IsServerName data cur
  nameHeader : Within data (cur + 4) 5
  loaded : loadName data (cur + 9) (wordAt signed data (cur + 7)) = .ok name

section Extensions

variable {data longer fServer result : List UInt8} {cur start : Int}

theorem turn_rightUnique (data : List UInt8) : Relator.RightUnique (Turn data) := by
  rintro cur next other ⟨-, -, -, rfl⟩ ⟨-, -, -, rfl⟩
  rfl

theorem loadExtensions_of_namedAt {name : List UInt8} (named : NamedAt data cur name)
    (fuel : Nat) : loadExtensions data fServer (fuel + 1) cur = .ok name := by
  rw [loadExtensions_of_isServerName named.inside named.header named.isName named.nameHeader,
    named.loaded]

theorem not_turn_of_namedAt {name : List UInt8} {next : Int} (named : NamedAt data cur name) :
    ¬ Turn data cur next :=
  fun turn => turn.2.2.1 named.isName

theorem not_turn_of_le {next : Int} (behind : (data.length : Int) ≤ cur) : ¬ Turn data cur next :=
  fun turn => Int.not_lt.mpr behind turn.2.1

/-- The extension loop returns a value exactly when its turns lead behind the input, and it is the
old value, or to a `server_name` extension, and it is the name. -/
theorem loadExtensions_eq_ok_iff :
    (∃ fuel, loadExtensions data fServer fuel start = .ok result) ↔
      ∃ cur, Relation.ReflTransGen (Turn data) start cur ∧
        (((data.length : Int) ≤ cur ∧ result = fServer) ∨ NamedAt data cur result) := by
  constructor
  · rintro ⟨fuel, returned⟩
    induction fuel generalizing start with
    | zero => cases returned
    | succ fuel inductionHypothesis =>
      by_cases inside : start < data.length
      case neg =>
        rw [loadExtensions, if_neg inside] at returned
        cases returned
        exact ⟨start, .refl, Or.inl ⟨by omega, rfl⟩⟩
      by_cases fits : ExtensionLoadsFit data start
      case neg =>
        obtain ⟨index, outside⟩ := @loadExtensions_of_not_fit data fServer start inside fits fuel
        rw [outside] at returned
        cases returned
      by_cases isName : IsServerName data start
      · have nameHeader := fits.nameHeader isName
        rw [loadExtensions_of_isServerName inside fits.header isName nameHeader] at returned
        exact ⟨start, .refl, Or.inr ⟨inside, fits.header, isName, nameHeader, returned⟩⟩
      · have turn : Turn data start _ := ⟨fits.header, inside, isName, rfl⟩
        rw [loadExtensions_of_turn turn] at returned
        obtain ⟨cur, reaches, ends⟩ := inductionHypothesis returned
        exact ⟨cur, .head turn reaches, ends⟩
  · rintro ⟨cur, reaches, ends⟩
    induction reaches using Relation.ReflTransGen.head_induction_on with
    | refl =>
      rcases ends with ⟨behind, rfl⟩ | named
      · exact ⟨1, by rw [loadExtensions, if_neg (by omega)]⟩
      · exact ⟨1, loadExtensions_of_namedAt named 0⟩
    | head turn _ inductionHypothesis =>
      obtain ⟨fuel, returned⟩ := inductionHypothesis
      exact ⟨fuel + 1, by rw [loadExtensions_of_turn turn, returned]⟩

/-! ### A longer input -/

theorem wordAt_of_isPrefix (goesOn : data <+: longer) (within : Within data cur 2) :
    wordAt signed longer cur = wordAt signed data cur := by
  rw [wordAt, wordAt, shortAt_of_isPrefix goesOn within]

theorem isServerName_of_isPrefix (goesOn : data <+: longer) (within : Within data cur 2) :
    IsServerName longer cur ↔ IsServerName data cur := by
  rw [IsServerName, IsServerName, shortAt_of_isPrefix goesOn within]

theorem Turn.of_isPrefix {next : Int} (turn : Turn data cur next) (goesOn : data <+: longer) :
    Turn longer cur next := by
  obtain ⟨within, inside, notName, rfl⟩ := turn
  obtain ⟨type, length⟩ := within_header_iff.mp within
  have longerLength := goesOn.length_le
  refine ⟨Within.of_isPrefix within goesOn, by omega, ?_, ?_⟩
  · rw [isServerName_of_isPrefix goesOn type]
    exact notName
  · rw [wordAt_of_isPrefix goesOn length]

theorem reaches_of_isPrefix (goesOn : data <+: longer)
    (reaches : Relation.ReflTransGen (Turn data) start cur) :
    Relation.ReflTransGen (Turn longer) start cur :=
  Relation.ReflTransGen.mono (fun _ _ turn => turn.of_isPrefix goesOn) _ _ reaches

theorem NamedAt.of_isPrefix {name : List UInt8} (named : NamedAt data cur name)
    (goesOn : data <+: longer) : NamedAt longer cur name := by
  obtain ⟨type, -⟩ := within_header_iff.mp named.header
  obtain ⟨-, -, nameLength⟩ := within_nameHeader_iff.mp named.nameHeader
  have inside := named.inside
  have length := goesOn.length_le
  refine ⟨by omega, Within.of_isPrefix named.header goesOn, ?_,
    Within.of_isPrefix named.nameHeader goesOn, ?_⟩
  · rw [isServerName_of_isPrefix goesOn type]
    exact named.isName
  · have loaded := named.loaded
    rw [wordAt_of_isPrefix goesOn nameLength]
    rw [loadName] at loaded ⊢
    split at loaded
    · cases loaded
    · rename_i notNegative
      rw [if_neg notNegative]
      exact loadBytes_of_isPrefix goesOn loaded

/-- The positions of the fields before the extensions are the same in a longer input. -/
theorem positions_of_isPrefix (fits : HelloLoadsFit data) (goesOn : data <+: longer) :
    ciphersAt signed longer = ciphersAt signed data ∧
      compressionAt signed longer = compressionAt signed data ∧
      extensionsAt signed longer = extensionsAt signed data := by
  have ciphers : ciphersAt signed longer = ciphersAt signed data := by
    rw [ciphersAt, ciphersAt, byteAt_of_isPrefix goesOn fits.hello]
  have compression : compressionAt signed longer = compressionAt signed data := by
    rw [compressionAt, compressionAt, ciphers, wordAt_of_isPrefix goesOn fits.ciphersLength]
  refine ⟨ciphers, compression, ?_⟩
  rw [extensionsAt, extensionsAt, compression, byteAt_of_isPrefix goesOn fits.compressionLength]

theorem HelloLoadsFit.of_isPrefix (fits : HelloLoadsFit data) (goesOn : data <+: longer) :
    HelloLoadsFit longer := by
  obtain ⟨ciphers, compression, extensions⟩ := positions_of_isPrefix fits goesOn
  have same : wordAt signed longer (ciphersAt signed data) =
      wordAt signed data (ciphersAt signed data) := wordAt_of_isPrefix goesOn fits.ciphersLength
  refine ⟨Within.of_isPrefix fits.hello goesOn, ?_, ?_, ?_, ?_⟩
  · rw [ciphers]
    exact Within.of_isPrefix fits.ciphersLength goesOn
  · rw [ciphers, same]
    exact Within.of_isPrefix fits.ciphers goesOn
  · rw [compression]
    exact Within.of_isPrefix fits.compressionLength goesOn
  · rw [extensions]
    exact Within.of_isPrefix fits.extensionLength goesOn

theorem loadShort_of_isPrefix {word : Nat} (goesOn : data <+: longer)
    (loaded : loadShort data cur = .ok word) : loadShort longer cur = .ok word := by
  by_cases within : Within data cur 2
  · rw [loadShort_of_within within] at loaded
    rw [loadShort_of_within (Within.of_isPrefix within goesOn), shortAt_of_isPrefix goesOn within,
      loaded]
  · obtain ⟨outside, faulty⟩ := loadShort_of_not_within within
    rw [faulty] at loaded
    cases loaded

theorem loadCiphers_of_isPrefix {n : Nat} {ciphers : List Nat} (goesOn : data <+: longer)
    (loaded : loadCiphers data cur n = .ok ciphers) : loadCiphers longer cur n = .ok ciphers := by
  induction n generalizing cur ciphers with
  | zero => exact loaded
  | succ n inductionHypothesis =>
    rw [loadCiphers] at loaded ⊢
    cases first : loadShort data cur with
    | error fault =>
      rw [first] at loaded
      cases loaded
    | ok cipher =>
      rw [first, ok_bind] at loaded
      rw [loadShort_of_isPrefix goesOn first, ok_bind]
      cases others : loadCiphers data (cur + 2) n with
      | error fault =>
        rw [others] at loaded
        cases loaded
      | ok rest =>
        rw [others] at loaded
        rw [inductionHypothesis others]
        exact loaded

end Extensions

/-! ### Swaps that change nothing -/

section Swaps

variable {data longer : List UInt8}

/-- The two bytes at an offset are equal. -/
def SameBytes (data : List UInt8) (index : Nat) : Prop :=
  byteAt data index = byteAt data ((index + 1 : Nat) : Int)

instance (data : List UInt8) (index : Nat) : Decidable (SameBytes data index) :=
  inferInstanceAs (Decidable (_ = _))

theorem ofNat_ntohs_shortAt (data : List UInt8) (index : Nat) :
    UInt8.ofNat (ntohs (shortAt data index)) = byteAt data ((index + 1 : Nat) : Int) ∧
      UInt8.ofNat (ntohs (shortAt data index) / 256) = byteAt data index := by
  have low := (byteAt data index).toNat_lt
  have high := (byteAt data ((index + 1 : Nat) : Int)).toNat_lt
  have word : shortAt data index = (byteAt data index).toNat +
      256 * (byteAt data ((index + 1 : Nat) : Int)).toNat := rfl
  have quotient : ((byteAt data ((index + 1 : Nat) : Int)).toNat +
      256 * (byteAt data index).toNat) / 256 = (byteAt data index).toNat := by
    omega
  rw [word, ntohs_bytes low high, quotient]
  refine ⟨?_, UInt8.ofNat_toNat⟩
  apply UInt8.toNat_inj.mp
  rw [UInt8.toNat_ofNat']
  omega

/-- A swap of two equal bytes changes nothing. -/
theorem storeShort_of_sameBytes {index : Nat} (inside : index + 2 ≤ data.length)
    (same : SameBytes data index) :
    storeShort data index (ntohs (shortAt data index)) = data := by
  obtain ⟨low, high⟩ := ofNat_ntohs_shortAt data index
  exact storeShort_self inside (low.trans same.symm) (high.trans same)

theorem byteAt_swappedRecord (long : sizeofRecoder ≤ data.length) :
    byteAt (swappedRecord data) (1 : Nat) = byteAt data (2 : Nat) ∧
      byteAt (swappedRecord data) (3 : Nat) = byteAt data (4 : Nat) := by
  have inside : 5 ≤ data.length := long
  constructor
  · rw [swappedRecord]
    rw [byteAt_storeShort_of_ne (by decide) (by decide), byteAt_storeShort_low (by omega)]
    exact (ofNat_ntohs_shortAt data 1).1
  · rw [swappedRecord]
    rw [byteAt_storeShort_low (by rw [length_storeShort]; omega)]
    exact (ofNat_ntohs_shortAt (storeShort data 1 (ntohs (shortAt data 1))) 3).1.trans
      (byteAt_storeShort_of_ne (by decide) (by decide))

/-- The record swaps change nothing exactly when the bytes of both fields are equal. -/
theorem swappedRecord_eq_iff (long : sizeofRecoder ≤ data.length) :
    swappedRecord data = data ↔ SameBytes data 1 ∧ SameBytes data 3 := by
  have inside : 5 ≤ data.length := long
  constructor
  · intro unchanged
    have bytes := byteAt_swappedRecord long
    rw [unchanged] at bytes
    exact bytes
  · rintro ⟨version, length⟩
    rw [swappedRecord]
    rw [show storeShort data 1 (ntohs (shortAt data 1)) = data from
      storeShort_of_sameBytes (by omega) version]
    exact storeShort_of_sameBytes (by omega) length

/-- All three swaps change something where the record swaps do. -/
theorem sameBytes_of_swapped_eq (long : sizeofRecoder ≤ data.length)
    (unchanged : swapped data = data) : SameBytes data 1 ∧ SameBytes data 3 := by
  have before (index : Nat) (small : index < 9) :
      byteAt (swapped data) index = byteAt (swappedRecord data) index :=
    byteAt_storeShort_of_ne (by omega) (by omega)
  have bytes := byteAt_swappedRecord long
  rw [← before 1 (by decide), ← before 3 (by decide), unchanged] at bytes
  exact bytes

/-- Nor does the swap of the version of the hello. -/
theorem swapped_eq_iff (long : 11 ≤ data.length) (record : swappedRecord data = data) :
    swapped data = data ↔ SameBytes data 9 := by
  rw [swapped, record]
  constructor
  · intro unchanged
    have version := @byteAt_storeShort_low data 9 (ntohs (shortAt data (9 : Nat))) (by omega)
    rw [show storeShort data 9 (ntohs (shortAt data (9 : Nat))) = data from unchanged,
      (ofNat_ntohs_shortAt data 9).1] at version
    exact version
  · exact storeShort_of_sameBytes (by omega)

theorem sameBytes_of_isPrefix {index : Nat} (goesOn : data <+: longer)
    (inside : index + 2 ≤ data.length) : SameBytes longer index ↔ SameBytes data index := by
  rw [SameBytes, SameBytes, byteAt_of_isPrefix goesOn (Or.inr ⟨by omega, by omega⟩),
    byteAt_of_isPrefix goesOn (Or.inr ⟨by omega, by omega⟩)]

end Swaps

/-! ### Feeding -/

/-- A call of `parse`: the bytes it was given and its answer. -/
structure Call where
  given : List UInt8
  answer : Answer
  deriving DecidableEq, Repr

/-- Calls on what has arrived in the buffer, up to each of the given lengths in turn, as long as
the answer is 1. A call leaves its bytes in the buffer. -/
def feed (fuel : Nat) (parser : ClientHelloParser) (buffer : List UInt8) :
    List Nat → Except Fault (List Call)
  | [] => .ok []
  | length :: rest => do
    let answer ← parse fuel parser (buffer.take length)
    if answer.code = 1 then do
      let calls ← feed fuel answer.parser (answer.data ++ buffer.drop length) rest
      return ⟨buffer.take length, answer⟩ :: calls
    else return [⟨buffer.take length, answer⟩]

/-- Feeding prefixes of `h`, and `h` at last, changes no byte, and ends with the code, the ciphers
and the name with which a single call on `h` ends. -/
def Incremental (h : List UInt8) (lengths : List Nat) : Prop :=
  ∃ fuel wholeFuel calls last fresh,
    feed fuel new h (lengths ++ [h.length]) = .ok calls ∧
      (∀ call ∈ calls, call.answer.data = call.given) ∧ calls.getLast? = some last ∧
      parse wholeFuel new h = .ok fresh ∧ last.answer.code = fresh.code ∧
      last.answer.parser.ciphers = fresh.parser.ciphers ∧
      last.answer.parser.SNI = fresh.parser.SNI

/-- The input decides the answer: it is no handshake, or its record is there. -/
def Complete (data : List UInt8) : Prop :=
  sizeofRecoder ≤ data.length ∧
    (byteAt data 0 ≠ contentTypeHandshake ∨ need (ntohs (shortAt data 3)) ≤ data.length)

instance (data : List UInt8) : Decidable (Complete data) :=
  inferInstanceAs (Decidable (_ ∧ _))

/-- The first of the prefixes that decides the answer. -/
def firstComplete (h : List UInt8) (lengths : List Nat) : Option (List UInt8) :=
  (lengths.map h.take).find? fun given => decide (Complete given)

/-- The extension loop, from `cur` on, finds no name, or one without bytes. -/
def Nameless (data : List UInt8) (cur : Int) : Prop :=
  ∃ last, Relation.ReflTransGen (Turn data) cur last ∧
    ((data.length : Int) ≤ last ∨ ∃ name, NamedAt data last name ∧ name.takeWhile (· ≠ 0) = [])

/-- The fields of the hello are inside the part, and the extension loop meets the name in it, or
leaves it at its end and meets no name in the whole. -/
def Agrees (part whole : List UInt8) : Prop :=
  HelloLoadsFit part ∧
    ∃ cur, Relation.ReflTransGen (Turn part) (extensionsAt signed part + 2) cur ∧
      ((∃ name, NamedAt part cur name) ∨
        ((part.length : Int) ≤ cur ∧ Nameless whole cur))

/-- Swaps change nothing: there is no record header, or the two bytes of its version and of its
length are equal; and where the record is there, so are those of the version of the hello, and the
call that finds the record sees what a call on the whole sees. -/
def Steady (h : List UInt8) (lengths : List Nat) : Prop :=
  (h.length < sizeofRecoder ∨ SameBytes h 1 ∧ SameBytes h 3) ∧
    ∀ given, firstComplete h (lengths ++ [h.length]) = some given →
      byteAt given 0 = contentTypeHandshake → SameBytes h 9 ∧ Agrees given h

/-- The call on the part changes nothing, and ends with what the call on the whole ends with. -/
def EndsAlike (part whole : List UInt8) : Prop :=
  ∃ fuel wholeFuel answer fresh,
    parse fuel new part = .ok answer ∧ answer.data = part ∧ parse wholeFuel new whole = .ok fresh ∧
      answer.code = fresh.code ∧ answer.parser.ciphers = fresh.parser.ciphers ∧
      answer.parser.SNI = fresh.parser.SNI

section Feed

variable {parser : ClientHelloParser} {data h : List UInt8} {lengths : List Nat}

theorem parse_of_short (parser : ClientHelloParser) (short : data.length < sizeofRecoder)
    (fuel : Nat) : parse fuel parser data = .ok { code := 1, parser, data } :=
  if_pos short

/-- What `parse` leaves in the bytes it was given. -/
theorem data_of_parse {fuel : Nat} {answer : Answer} (long : sizeofRecoder ≤ data.length)
    (answered : parse fuel parser data = .ok answer) :
    answer.data = swappedRecord data ∨ answer.data = swapped data := by
  have parsed := answered
  rw [parse_of_recoder long] at parsed
  split at parsed
  · cases parsed
    exact Or.inl rfl
  split at parsed
  · cases parsed
    exact Or.inl rfl
  · rename_i handshake enough
    have accepted : ¬ Rejected data := by
      simp only [Rejected, not_or]
      exact ⟨Nat.not_lt.mpr long, handshake, enough⟩
    obtain ⟨-, ciphers, result, rfl⟩ := answer_of_parse accepted answered
    exact Or.inr rfl

theorem sameBytes_take {count index : Nat} (inside : index + 2 ≤ (h.take count).length)
    (same : SameBytes (h.take count) index) : SameBytes h index :=
  (sameBytes_of_isPrefix (List.take_prefix count h) inside).mpr same

/-- The first of several calls, and what follows when it asks for more. -/
theorem feed_cons_eq_ok {fuel length : Nat} {rest : List Nat} {calls : List Call}
    (fed : feed fuel parser h (length :: rest) = .ok calls) :
    ∃ answer, parse fuel parser (h.take length) = .ok answer ∧
      ((answer.code = 1 ∧ ∃ later,
          feed fuel answer.parser (answer.data ++ h.drop length) rest = .ok later ∧
            calls = ⟨h.take length, answer⟩ :: later) ∨
        (answer.code ≠ 1 ∧ calls = [⟨h.take length, answer⟩])) := by
  rw [feed] at fed
  cases parsed : parse fuel parser (h.take length) with
  | error fault =>
    rw [parsed] at fed
    cases fed
  | ok answer =>
    rw [parsed, ok_bind] at fed
    refine ⟨answer, rfl, ?_⟩
    split at fed
    · rename_i more
      cases others : feed fuel answer.parser (answer.data ++ h.drop length) rest with
      | error fault =>
        rw [others] at fed
        cases fed
      | ok later =>
        rw [others] at fed
        cases fed
        exact Or.inl ⟨more, later, rfl, rfl⟩
    · rename_i ended
      cases fed
      exact Or.inr ⟨ended, rfl⟩

/-- Calls that change nothing, one of them on a record header, need equal bytes. -/
theorem sameBytes_of_feed {fuel : Nat} {calls : List Call}
    (fed : feed fuel parser h lengths = .ok calls)
    (unchanged : ∀ call ∈ calls, call.answer.data = call.given)
    (long : ∃ length ∈ lengths, sizeofRecoder ≤ (h.take length).length) :
    SameBytes h 1 ∧ SameBytes h 3 := by
  induction lengths generalizing calls with
  | nil =>
    obtain ⟨length, member, -⟩ := long
    cases member
  | cons length rest inductionHypothesis =>
    obtain ⟨answer, parsed, ends⟩ := feed_cons_eq_ok fed
    by_cases short : (h.take length).length < sizeofRecoder
    · rw [parse_of_short parser short] at parsed
      cases parsed
      obtain ⟨-, later, fedLater, rfl⟩ := ends.resolve_right fun ended => ended.1 rfl
      rw [List.take_append_drop] at fedLater
      refine inductionHypothesis fedLater
        (fun call member => unchanged call (List.mem_cons_of_mem _ member)) ?_
      obtain ⟨other, member, enough⟩ := long
      rcases List.mem_cons.mp member with rfl | member
      · exact absurd enough (Nat.not_le.mpr short)
      · exact ⟨other, member, enough⟩
    · have enough : sizeofRecoder ≤ (h.take length).length := Nat.le_of_not_lt short
      have enoughBytes : 5 ≤ (h.take length).length := enough
      have first : (⟨h.take length, answer⟩ : Call) ∈ calls := by
        rcases ends with ⟨-, later, -, rfl⟩ | ⟨-, rfl⟩
        · exact List.mem_cons_self
        · exact List.mem_cons_self
      have same : answer.data = h.take length := unchanged _ first
      have bytes : SameBytes (h.take length) 1 ∧ SameBytes (h.take length) 3 := by
        rcases data_of_parse enough parsed with record | hello
        · exact (swappedRecord_eq_iff enough).mp (record.symm.trans same)
        · exact sameBytes_of_swapped_eq enough (hello.symm.trans same)
      exact ⟨sameBytes_take (by omega) bytes.1, sameBytes_take (by omega) bytes.2⟩

/-- A prefix that does not decide the answer asks for more and changes nothing. -/
theorem parse_of_not_complete (parser : ClientHelloParser) (undecided : ¬ Complete data)
    (unchanged : sizeofRecoder ≤ data.length → swappedRecord data = data) (fuel : Nat) :
    parse fuel parser data = .ok { code := 1, parser, data } := by
  by_cases short : data.length < sizeofRecoder
  · exact parse_of_short parser short fuel
  · have long := Nat.le_of_not_lt short
    simp only [Complete, long, true_and, not_or, not_not, Nat.not_le] at undecided
    rw [parse_of_recoder long, if_neg (not_not.mpr undecided.1), if_pos undecided.2, unchanged long]

theorem code_of_complete {fuel : Nat} {answer : Answer} (complete : Complete data)
    (parsed : parse fuel parser data = .ok answer) : answer.code ≠ 1 := by
  obtain ⟨long, decides⟩ := complete
  by_cases type : byteAt data 0 ≠ contentTypeHandshake
  · rw [parse_of_recoder long, if_pos type] at parsed
    cases parsed
    exact (by decide : (-1 : Int) ≠ 1)
  · have accepted : ¬ Rejected data := by
      have enough := decides.resolve_left type
      simp only [Rejected, not_or, Nat.not_lt]
      exact ⟨long, type, enough⟩
    rw [code_of_not_rejected accepted parsed]
    decide

/-- No call on a prefix changes the fields of the record. -/
theorem swappedRecord_take (steady : h.length < sizeofRecoder ∨ SameBytes h 1 ∧ SameBytes h 3)
    {count : Nat} (long : sizeofRecoder ≤ (h.take count).length) :
    swappedRecord (h.take count) = h.take count := by
  have inside : 5 ≤ (h.take count).length := long
  have longer := (List.take_prefix count h).length_le
  obtain ⟨version, length⟩ := steady.resolve_left (by omega)
  refine (swappedRecord_eq_iff long).mpr ⟨?_, ?_⟩
  · exact (sameBytes_of_isPrefix (List.take_prefix count h) (by omega)).mp version
  · exact (sameBytes_of_isPrefix (List.take_prefix count h) (by omega)).mp length

theorem swappedRecord_whole (steady : h.length < sizeofRecoder ∨ SameBytes h 1 ∧ SameBytes h 3)
    (long : sizeofRecoder ≤ h.length) : swappedRecord h = h :=
  (swappedRecord_eq_iff long).mpr (steady.resolve_left (Nat.not_lt.mpr long))

/-- Where the swaps of the record change nothing, the calls before the deciding one ask for more,
and the deciding one ends the chain. -/
theorem feed_of_firstComplete (parser : ClientHelloParser)
    (steady : h.length < sizeofRecoder ∨ SameBytes h 1 ∧ SameBytes h 3) (lengths : List Nat) :
    ∃ earlier : List Call, (∀ call ∈ earlier, call.answer = ⟨1, parser, call.given⟩) ∧
      (firstComplete h lengths = none → earlier.map Call.given = lengths.map h.take) ∧
      ∀ fuel, feed fuel parser h lengths =
        match firstComplete h lengths with
        | none => .ok earlier
        | some given =>
          (parse fuel parser given).map fun answer => earlier ++ [⟨given, answer⟩] := by
  induction lengths with
  | nil => exact ⟨[], fun call member => (by cases member), fun _ => rfl, fun fuel => rfl⟩
  | cons length rest inductionHypothesis =>
    by_cases complete : Complete (h.take length)
    · have first : firstComplete h (length :: rest) = some (h.take length) :=
        List.find?_cons_of_pos (decide_eq_true complete)
      rw [first]
      refine ⟨[], fun call member => (by cases member), fun impossible => (by cases impossible), ?_⟩
      intro fuel
      show feed fuel parser h (length :: rest) =
        (parse fuel parser (h.take length)).map fun answer => [] ++ [⟨h.take length, answer⟩]
      rw [feed]
      cases parsed : parse fuel parser (h.take length) with
      | error fault => rfl
      | ok answer =>
        rw [ok_bind, if_neg (code_of_complete complete parsed)]
        rfl
    · have later : firstComplete h (length :: rest) = firstComplete h rest :=
        List.find?_cons_of_neg (by simpa using complete)
      obtain ⟨earlier, asked, none, fed⟩ := inductionHypothesis
      rw [later]
      refine ⟨⟨h.take length, ⟨1, parser, h.take length⟩⟩ :: earlier, ?_, ?_, ?_⟩
      · intro call member
        rcases List.mem_cons.mp member with rfl | member
        · rfl
        · exact asked call member
      · intro nothing
        rw [List.map_cons, List.map_cons, none nothing]
      · intro fuel
        rw [feed, parse_of_not_complete parser complete (swappedRecord_take steady), ok_bind,
          if_pos rfl, List.take_append_drop, fed fuel]
        cases firstComplete h rest with
        | none => rfl
        | some given =>
          show ((parse fuel parser given).map _ >>= _) = (parse fuel parser given).map _
          cases parse fuel parser given <;> rfl

/-! ### The deciding call -/

theorem accepted_of_complete (complete : Complete data)
    (handshake : byteAt data 0 = contentTypeHandshake) : ¬ Rejected data := by
  obtain ⟨long, decides⟩ := complete
  have enough := decides.resolve_left (not_not.mpr handshake)
  simp only [Rejected, not_or, not_not, Nat.not_lt]
  exact ⟨long, handshake, enough⟩

/-- Behind the record tests, an answer on bytes that no swap changes. -/
theorem parse_eq_ok_iff (accepted : ¬ Rejected data) (record : swappedRecord data = data)
    {fuel : Nat} {answer : Answer} :
    parse fuel parser data = .ok answer ∧ answer.data = data ↔
      SameBytes data 9 ∧ HelloLoadsFit data ∧ ∃ ciphers result,
        loadCiphers data (ciphersAt signed data + 2)
          ((wordAt signed data (ciphersAt signed data)).tdiv 2).toNat = .ok ciphers ∧
        loadExtensions data parser.fServer fuel (extensionsAt signed data + 2) = .ok result ∧
        answer = finish parser data ciphers result := by
  constructor
  · rintro ⟨parsed, same⟩
    have fits := (answer_of_parse accepted parsed).1
    obtain ⟨ciphers, loaded⟩ := loadCiphers_of_within fits.ciphers
    have hello := fits.hello
    unfold Within at hello
    rw [length_swapped] at hello
    rw [parse_of_not_rejected accepted, parseClientHello_of_within (within_version fits),
      parseHello_of_ciphers parser fits loaded, Except.map.eq_def] at parsed
    split at parsed
    · cases parsed
    rename_i result ended
    cases parsed
    have whole : swapped data = data := same
    rw [whole] at fits loaded ended
    refine ⟨(swapped_eq_iff (by omega) record).mp whole, fits, ciphers, result, loaded, ended, ?_⟩
    rw [whole]
  · rintro ⟨bytes, fits, ciphers, result, loaded, ended, rfl⟩
    have hello := fits.hello
    unfold Within at hello
    have whole : swapped data = data := (swapped_eq_iff (by omega) record).mpr bytes
    have version : Within (swappedRecord data) 9 2 := by
      rw [record]
      exact Or.inr ⟨by omega, by omega⟩
    refine ⟨?_, rfl⟩
    rw [parse_of_not_rejected accepted, parseClientHello_of_within version, whole,
      parseHello_of_ciphers parser fits loaded, ended]
    rfl

/-- What the extension loops of a part and of the whole return is the same name exactly when the
loop meets the name in the part, or leaves it and meets none. -/
theorem loadExtensions_agree_iff {part whole : List UInt8} {start : Int}
    (goesOn : part <+: whole) :
    (∃ fuel wholeFuel found full, loadExtensions part [] fuel start = .ok found ∧
        loadExtensions whole [] wholeFuel start = .ok full ∧
        found.takeWhile (· ≠ 0) = full.takeWhile (· ≠ 0)) ↔
      ∃ cur, Relation.ReflTransGen (Turn part) start cur ∧
        ((∃ name, NamedAt part cur name) ∨ ((part.length : Int) ≤ cur ∧ Nameless whole cur)) := by
  constructor
  · rintro ⟨fuel, wholeFuel, found, full, partEnds, wholeEnds, same⟩
    obtain ⟨cur, reaches, ends⟩ := loadExtensions_eq_ok_iff.mp ⟨fuel, partEnds⟩
    obtain ⟨last, reachesLast, endsLast⟩ := loadExtensions_eq_ok_iff.mp ⟨wholeFuel, wholeEnds⟩
    refine ⟨cur, reaches, ?_⟩
    rcases ends with ⟨behind, rfl⟩ | named
    case inr => exact Or.inl ⟨found, named⟩
    refine Or.inr ⟨behind, last, ?_, ?_⟩
    · have stuck : ∀ next, ¬ Turn whole last next := by
        intro next
        rcases endsLast with ⟨behindLast, -⟩ | named
        · exact not_turn_of_le behindLast
        · exact not_turn_of_namedAt named
      rcases Relation.ReflTransGen.total_of_right_unique (turn_rightUnique whole)
        (reaches_of_isPrefix goesOn reaches) reachesLast with later | earlier
      · exact later
      · rcases Relation.ReflTransGen.cases_head earlier with rfl | ⟨next, turn, -⟩
        · exact .refl
        · exact absurd turn (stuck next)
    · rcases endsLast with ⟨behindLast, -⟩ | named
      · exact Or.inl behindLast
      · exact Or.inr ⟨full, named, same.symm⟩
  · rintro ⟨cur, reaches, ⟨name, named⟩ | ⟨behind, last, later, ends⟩⟩
    · obtain ⟨fuel, partEnds⟩ := (@loadExtensions_eq_ok_iff part [] name start).mpr
        ⟨cur, reaches, Or.inr named⟩
      obtain ⟨wholeFuel, wholeEnds⟩ := (@loadExtensions_eq_ok_iff whole [] name start).mpr
        ⟨cur, reaches_of_isPrefix goesOn reaches, Or.inr (named.of_isPrefix goesOn)⟩
      exact ⟨fuel, wholeFuel, name, name, partEnds, wholeEnds, rfl⟩
    · obtain ⟨fuel, partEnds⟩ := (@loadExtensions_eq_ok_iff part [] [] start).mpr
        ⟨cur, reaches, Or.inl ⟨behind, rfl⟩⟩
      have reachesLast := (reaches_of_isPrefix goesOn reaches).trans later
      rcases ends with behindLast | ⟨name, named, empty⟩
      · obtain ⟨wholeFuel, wholeEnds⟩ := (@loadExtensions_eq_ok_iff whole [] [] start).mpr
          ⟨last, reachesLast, Or.inl ⟨behindLast, rfl⟩⟩
        exact ⟨fuel, wholeFuel, [], [], partEnds, wholeEnds, rfl⟩
      · obtain ⟨wholeFuel, wholeEnds⟩ := (@loadExtensions_eq_ok_iff whole [] name start).mpr
          ⟨last, reachesLast, Or.inr named⟩
        exact ⟨fuel, wholeFuel, [], name, partEnds, wholeEnds, empty.symm⟩

/-- A prefix with the record header of the whole is accepted where it has the whole record, and so
is the whole. -/
theorem accepted_of_isPrefix {part whole : List UInt8} (goesOn : part <+: whole)
    (accepted : ¬ Rejected part) : ¬ Rejected whole := by
  simp only [Rejected, not_or, not_not, Nat.not_lt] at accepted ⊢
  obtain ⟨long, handshake, enough⟩ := accepted
  have inside : 5 ≤ part.length := long
  have longer := goesOn.length_le
  rw [byteAt_of_isPrefix goesOn (Or.inr ⟨by decide, by omega⟩),
    shortAt_of_isPrefix goesOn (Or.inr ⟨by decide, by omega⟩)]
  exact ⟨by omega, handshake, by omega⟩

theorem firstComplete_eq_some {given : List UInt8} (first : firstComplete h lengths = some given) :
    Complete given ∧ ∃ count, given = h.take count := by
  obtain ⟨length, -, same⟩ := List.mem_map.mp (List.mem_of_find?_eq_some first)
  have decided := List.find?_some (p := fun given => decide (Complete given)) first
  exact ⟨of_decide_eq_true decided, length, same.symm⟩

/-- The deciding call and the call on the whole answer the same, and change nothing, exactly when
the swap of the hello's version changes nothing and the extension loops agree. -/
theorem deciding_iff {part whole : List UInt8} (goesOn : part <+: whole)
    (accepted : ¬ Rejected part) (partRecord : swappedRecord part = part)
    (wholeRecord : swappedRecord whole = whole) :
    EndsAlike part whole ↔ SameBytes whole 9 ∧ Agrees part whole := by
  constructor
  · rintro ⟨fuel, wholeFuel, answer, fresh, parsed, unchanged, wholeParsed, -, -, name⟩
    obtain ⟨bytes, fits, ciphers, found, -, ended, rfl⟩ :=
      (parse_eq_ok_iff accepted partRecord).mp ⟨parsed, unchanged⟩
    have hello := fits.hello
    have longer := goesOn.length_le
    unfold Within at hello
    have wholeBytes : SameBytes whole 9 := (sameBytes_of_isPrefix goesOn (by omega)).mpr bytes
    have wholeUnchanged : fresh.data = whole := by
      have long : sizeofRecoder ≤ whole.length := by
        rw [sizeofRecoder]
        omega
      rcases data_of_parse long wholeParsed with record | swaps
      · exact record.trans wholeRecord
      · exact swaps.trans ((swapped_eq_iff (by omega) wholeRecord).mpr wholeBytes)
    obtain ⟨-, -, wholeCiphers, full, -, wholeEnded, rfl⟩ :=
      (parse_eq_ok_iff (accepted_of_isPrefix goesOn accepted) wholeRecord).mp
        ⟨wholeParsed, wholeUnchanged⟩
    rw [(positions_of_isPrefix fits goesOn).2.2] at wholeEnded
    exact ⟨wholeBytes, fits,
      (loadExtensions_agree_iff goesOn).mp ⟨fuel, wholeFuel, found, full, ended, wholeEnded, name⟩⟩
  · rintro ⟨wholeBytes, fits, agrees⟩
    have hello := fits.hello
    unfold Within at hello
    obtain ⟨fuel, wholeFuel, found, full, ended, wholeEnded, name⟩ :=
      (loadExtensions_agree_iff goesOn).mpr agrees
    obtain ⟨ciphers, loaded⟩ := loadCiphers_of_within fits.ciphers
    obtain ⟨samePosition, -, sameStart⟩ := positions_of_isPrefix fits goesOn
    have wholeLoaded : loadCiphers whole (ciphersAt signed whole + 2)
        ((wordAt signed whole (ciphersAt signed whole)).tdiv 2).toNat = .ok ciphers := by
      rw [samePosition, wordAt_of_isPrefix goesOn fits.ciphersLength]
      exact loadCiphers_of_isPrefix goesOn loaded
    rw [← sameStart] at wholeEnded
    obtain ⟨parsed, unchanged⟩ := (@parse_eq_ok_iff new part accepted partRecord fuel _).mpr
      ⟨(sameBytes_of_isPrefix goesOn (by omega)).mp wholeBytes, fits, ciphers, found, loaded, ended,
        rfl⟩
    have wholeAccepted := accepted_of_isPrefix goesOn accepted
    obtain ⟨wholeParsed, -⟩ :=
      (@parse_eq_ok_iff new whole wholeAccepted wholeRecord wholeFuel _).mpr
        ⟨wholeBytes, fits.of_isPrefix goesOn, ciphers, full, wholeLoaded, wholeEnded, rfl⟩
    exact ⟨fuel, wholeFuel, _, _, parsed, unchanged, wholeParsed, rfl, rfl, name⟩

/-- What is no handshake is refused, and so is the whole. -/
theorem endsAlike_of_not_handshake {part whole : List UInt8} (goesOn : part <+: whole)
    (long : sizeofRecoder ≤ part.length) (other : byteAt part 0 ≠ contentTypeHandshake)
    (unchanged : swappedRecord part = part) : EndsAlike part whole := by
  have inside : 5 ≤ part.length := long
  have same : byteAt whole 0 = byteAt part 0 :=
    byteAt_of_isPrefix goesOn (Or.inr ⟨by decide, by omega⟩)
  have wholeOther : byteAt whole 0 ≠ contentTypeHandshake := by
    rw [same]
    exact other
  exact ⟨0, 0, ⟨-1, new, swappedRecord part⟩, ⟨-1, new, swappedRecord whole⟩,
    (parse_of_recoder long 0).trans (if_pos other), unchanged,
    (parse_of_recoder (Nat.le_trans long goesOn.length_le) 0).trans (if_pos wholeOther),
    rfl, rfl, rfl⟩

/-! ### Whole chains -/

theorem mem_lengths (h : List UInt8) (lengths : List Nat) : h.length ∈ lengths ++ [h.length] :=
  List.mem_append_right _ (List.mem_singleton_self _)

theorem sameBytes_of_incremental (incremental : Incremental h lengths) :
    h.length < sizeofRecoder ∨ SameBytes h 1 ∧ SameBytes h 3 := by
  obtain ⟨fuel, wholeFuel, calls, last, fresh, fed, unchanged, -⟩ := incremental
  by_cases short : h.length < sizeofRecoder
  · exact Or.inl short
  · refine Or.inr (sameBytes_of_feed fed unchanged ⟨h.length, mem_lengths h lengths, ?_⟩)
    rw [List.take_length]
    exact Nat.le_of_not_lt short

/-- Where no call decides, all of them ask for more, as a single call on the whole does. -/
theorem incremental_of_none (steady : h.length < sizeofRecoder ∨ SameBytes h 1 ∧ SameBytes h 3)
    (undecided : firstComplete h (lengths ++ [h.length]) = none) : Incremental h lengths := by
  obtain ⟨earlier, asked, given, feeds⟩ :=
    feed_of_firstComplete new steady (lengths ++ [h.length])
  have incomplete : ¬ Complete h := by
    have nothing := List.find?_eq_none.mp undecided h
      (List.mem_map.mpr ⟨h.length, mem_lengths h lengths, List.take_length⟩)
    simpa using nothing
  have ends : (earlier.map Call.given).getLast? = some h := by
    rw [given undecided, List.map_append, List.map_singleton, List.take_length,
      List.getLast?_concat]
  rw [List.getLast?_map, Option.map_eq_some_iff] at ends
  obtain ⟨last, isLast, same⟩ := ends
  have answered := asked last (List.mem_of_getLast? isLast)
  refine ⟨0, 0, earlier, last, _, ?_, ?_, isLast,
    parse_of_not_complete new incomplete (swappedRecord_whole steady) 0, ?_⟩
  · rw [feeds 0, undecided]
  · intro call member
    rw [asked call member]
  · rw [answered]
    exact ⟨rfl, rfl, rfl⟩

/-- Where a call decides, that call and a single one on the whole have to end alike. -/
theorem incremental_iff_of_some {given : List UInt8}
    (steady : h.length < sizeofRecoder ∨ SameBytes h 1 ∧ SameBytes h 3)
    (first : firstComplete h (lengths ++ [h.length]) = some given) :
    Incremental h lengths ↔ EndsAlike given h := by
  obtain ⟨earlier, asked, -, feeds⟩ := feed_of_firstComplete new steady (lengths ++ [h.length])
  rw [first] at feeds
  change ∀ fuel, feed fuel new h (lengths ++ [h.length]) =
    (parse fuel new given).map fun answer => earlier ++ [⟨given, answer⟩] at feeds
  constructor
  · rintro ⟨fuel, wholeFuel, calls, last, fresh, fed, unchanged, isLast, whole, results⟩
    rw [feeds fuel] at fed
    cases parsed : parse fuel new given with
    | error fault =>
      rw [parsed] at fed
      cases fed
    | ok answer =>
      rw [parsed] at fed
      cases fed
      have same : answer.data = given :=
        unchanged ⟨given, answer⟩ (List.mem_append_right _ (List.mem_singleton_self _))
      rw [List.getLast?_concat] at isLast
      cases isLast
      exact ⟨fuel, wholeFuel, answer, fresh, parsed, same, whole, results⟩
  · rintro ⟨fuel, wholeFuel, answer, fresh, parsed, same, whole, results⟩
    refine ⟨fuel, wholeFuel, earlier ++ [⟨given, answer⟩], ⟨given, answer⟩, fresh, ?_, ?_,
      List.getLast?_concat, whole, results⟩
    · rw [feeds fuel, parsed]
      rfl
    · intro call member
      rcases List.mem_append.mp member with before | now
      · rw [asked call before]
      · rw [List.mem_singleton.mp now]
        exact same

end Feed

/-- Feeding a growing buffer gives what a single call on the whole gives, without a change of the
bytes, exactly when the input is steady. -/
theorem incremental_iff (h : List UInt8) (lengths : List Nat) :
    Incremental h lengths ↔ Steady h lengths := by
  constructor
  · intro incremental
    have steady := sameBytes_of_incremental incremental
    refine ⟨steady, fun given first handshake => ?_⟩
    have alike := (incremental_iff_of_some steady first).mp incremental
    obtain ⟨complete, count, rfl⟩ := firstComplete_eq_some first
    have goesOn := List.take_prefix count h
    exact (deciding_iff goesOn (accepted_of_complete complete handshake)
      (swappedRecord_take steady complete.1)
      (swappedRecord_whole steady (Nat.le_trans complete.1 goesOn.length_le))).mp alike
  · rintro ⟨steady, agrees⟩
    cases first : firstComplete h (lengths ++ [h.length]) with
    | none => exact incremental_of_none steady first
    | some given =>
      refine (incremental_iff_of_some steady first).mpr ?_
      obtain ⟨complete, count, rfl⟩ := firstComplete_eq_some first
      have goesOn := List.take_prefix count h
      by_cases handshake : byteAt (h.take count) 0 = contentTypeHandshake
      · exact (deciding_iff goesOn (accepted_of_complete complete handshake)
          (swappedRecord_take steady complete.1)
          (swappedRecord_whole steady (Nat.le_trans complete.1 goesOn.length_le))).mpr
          (agrees _ first handshake)
      · exact endsAlike_of_not_handshake goesOn complete.1 handshake
          (swappedRecord_take steady complete.1)

/-- The hello in two pieces: the first call swaps the record's fields, the second swaps them back
and reads the length with its bytes exchanged. -/
theorem not_incremental_sampleHello :
    ¬ ∀ (h : List UInt8) (lengths : List Nat), Incremental h lengths := by
  intro incremental
  obtain ⟨fuel, wholeFuel, calls, last, fresh, fed, unchanged, -⟩ :=
    incremental sampleHello.encode [5]
  have bytes := sameBytes_of_feed fed unchanged ⟨5, List.mem_cons_self, by decide⟩
  exact absurd bytes.1 (by decide)

end ClientHelloParser

end Nattan
