/-
This file models the reuse of a `ClientHelloParser` and proves exactly when it reports
the last hello only.

`reset` clears the flag, the version and the ciphers. It does not clear the server
name, and `parse` assigns the name only when it meets a `server_name` extension, so a
hello without one is reported with the name of an earlier hello. And `parse` never
assigns the version: the statement `fVersion - clientHello->version;` computes a
difference and drops it, so every hello is reported with the version -1.

The ciphers are right after any history: `parse` appends to them, and `reset` is what
makes the list empty.
-/

import Nattan.ClientHello
import Nattan.Transition

namespace Nattan

/-- The hello has a `server_name` extension. -/
def ClientHello.NamesServer (hello : ClientHello) : Prop :=
  Extension.named hello.extensions ≠ none

namespace ClientHelloParser

def version (parser : ClientHelloParser) : Int :=
  parser.fVersion

def reset (parser : ClientHelloParser) : ClientHelloParser :=
  { parser with bCompleted := false, fVersion := -1, fCiphers := [] }

/-- The calls of a history. The fuel is that of the extension loop of `parse`. -/
inductive Op where
  | parse (fuel : Nat) (data : List UInt8)
  | reset

/-- A call that returns. -/
def call (parser : ClientHelloParser) : Op → Option ClientHelloParser
  | .parse fuel data => (parser.parse fuel data).toOption.map Answer.parser
  | .reset => some parser.reset

/-- The parser reports the version, the ciphers and the name of the hello. -/
structure Reports (hello : ClientHello) (parser : ClientHelloParser) : Prop where
  version : parser.version = short hello.version.toNat
  ciphers : parser.ciphers = hello.ciphers.map UInt16.toNat
  name : parser.SNI = hello.hostName

/-- Reset and given the hello, the parser succeeds and reports it. The fuel only has to cover
the turns of the extension loop, one for each extension. -/
def ReportsLast (parser : ClientHelloParser) (hello : ClientHello) : Prop :=
  ∃ answer, (∀ fuel, hello.extensions.length < fuel →
      parse fuel parser.reset hello.encode = .ok answer) ∧
    answer.code = 0 ∧ Reports hello answer.parser

/-! ### What a hello leaves in a reset parser -/

/-- Only the word `0xffff` is read as the version of a parser that saw none. -/
theorem short_eq_neg_one (word : UInt16) : -1 = short word.toNat ↔ word = 0xFFFF := by
  have small := word.toNat_lt
  rw [← UInt16.toNat_inj, show (0xFFFF : UInt16).toNat = 0xFFFF from rfl, short]
  split <;> omega

/-- The name after the hello: that of the hello, and where it has none the one before. -/
theorem SNI_finish (parser : ClientHelloParser) (hello : ClientHello) (data : List UInt8)
    (ciphers : List Nat) :
    (finish parser data ciphers
        ((Extension.named hello.extensions).getD parser.fServer)).parser.SNI =
      ((Extension.named hello.extensions).getD parser.SNI) := by
  show ((Extension.named hello.extensions).getD parser.fServer).takeWhile (· ≠ 0) = _
  cases found : Extension.named hello.extensions with
  | none => rfl
  | some name =>
    have same : name = Extension.hostName hello.extensions := by
      rw [← Extension.getD_named, found]
      rfl
    rw [Option.getD_some, Option.getD_some, same]
    exact takeWhile_hostName hello.extensions

/-- The name reported is the hello's if it has one, or if none was left behind. -/
theorem getD_named_eq_hostName_iff (hello : ClientHello) (left : List UInt8) :
    (Extension.named hello.extensions).getD left = hello.hostName ↔
      hello.NamesServer ∨ left = [] := by
  rw [ClientHelloMessage.hostName, ← Extension.getD_named, ClientHello.NamesServer]
  cases Extension.named hello.extensions with
  | none => exact ⟨Or.inr, fun either => either.resolve_left fun names => names rfl⟩
  | some name => exact ⟨fun _ => Or.inl (Option.some_ne_none name), fun _ => rfl⟩

/-- What was reported of the hello is what the end of `parse` leaves. -/
theorem ReportsLast.reports {parser : ClientHelloParser} {hello : ClientHello}
    (reportsLast : ReportsLast parser hello) :
    ∃ data, Reports hello (finish parser.reset data (hello.ciphers.map UInt16.toNat)
      ((Extension.named hello.extensions).getD parser.fServer)).parser := by
  obtain ⟨opened, parsed⟩ := parse_encode_after parser.reset hello
  obtain ⟨answer, answered, -, reports⟩ := reportsLast
  have same := Except.ok.inj
    ((answered _ (Nat.lt_succ_self _)).symm.trans (parsed _ (Nat.lt_succ_self _)))
  rw [same] at reports
  exact ⟨_, reports⟩

theorem ReportsLast.version {parser : ClientHelloParser} {hello : ClientHello}
    (reportsLast : ReportsLast parser hello) : hello.version = 0xFFFF := by
  obtain ⟨data, reports⟩ := reportsLast.reports
  exact (short_eq_neg_one hello.version).mp reports.version

theorem ReportsLast.name {parser : ClientHelloParser} {hello : ClientHello}
    (reportsLast : ReportsLast parser hello) : hello.NamesServer ∨ parser.SNI = [] := by
  obtain ⟨data, reports⟩ := reportsLast.reports
  exact (getD_named_eq_hostName_iff hello parser.SNI).mp
    ((SNI_finish parser.reset hello data _).symm.trans reports.name)

/-- The hello is reported if its version is `0xffff` and no name of an earlier hello shows
through. This is for every parser, so for one with any history. -/
theorem reportsLast_iff (parser : ClientHelloParser) (hello : ClientHello) :
    ReportsLast parser hello ↔
      hello.version = 0xFFFF ∧ (hello.NamesServer ∨ parser.SNI = []) := by
  constructor
  · exact fun reportsLast => ⟨reportsLast.version, reportsLast.name⟩
  · rintro ⟨version, noneLeft⟩
    obtain ⟨opened, parsed⟩ := parse_encode_after parser.reset hello
    have name : (finish parser.reset (opened ++ hello.encodeLists)
        (hello.ciphers.map UInt16.toNat)
        ((Extension.named hello.extensions).getD parser.fServer)).parser.SNI =
        hello.hostName :=
      (SNI_finish parser.reset hello _ _).trans
        ((getD_named_eq_hostName_iff hello parser.SNI).mpr noneLeft)
    exact ⟨_, parsed, rfl, (short_eq_neg_one hello.version).mpr version, rfl, name⟩

/-- A hello with one cipher and no extension. -/
def plainHello : ClientHello :=
  { sampleHello with
    extensionBlock := some []
    listed := rfl
    serverNames := by decide
    record_length := by decide }

/-- Where the name `a.b` was parsed, the reset parser reports it for a hello without a name, and
it reports the version -1 for the version 3.3. -/
theorem not_reportsLast_plainHello :
    ¬ ∀ parser, Reachable call new parser → ∀ hello, ReportsLast parser hello := by
  intro all
  obtain ⟨answer, parsed, -, -, -, name⟩ := parse_encode sampleHello
  have reached : Reachable call new answer.parser := by
    refine Relation.ReflTransGen.single ⟨.parse 3 sampleHello.encode, trivial, ?_⟩
    rw [call, parsed 3 (by decide)]
    rfl
  rcases (all _ reached plainHello).name with named | empty
  · exact named rfl
  rw [name] at empty
  exact absurd empty (by decide)

end ClientHelloParser

end Nattan
