/-
This file proves on which inputs `ClientHelloParser::parse` ends.

The cipher loop counts to a number below `2 ^ 14` and always ends. The extension loop
moves its cursor by a signed length that nothing compares with anything: a length of
-4 leaves the cursor where it is, and lengths below that move it back. The cursor is
the whole state of the loop, so the loop runs for ever exactly when the cursor comes
back to an extension at which it has been. A load outside the input ends the loop as
a fault.
-/

import Nattan.ClientHelloParser
import Nattan.Walk
import Mathlib.Data.Int.Interval

namespace Nattan

namespace ClientHelloParser

/-- A turn of the extension loop that stays inside the input and goes on to another extension. -/
def Turn (data : List UInt8) (cur next : Int) : Prop :=
  Within data cur 4 ∧ NextExtension signed data cur next

/-- The extension loop starts, and its cursor comes back to an extension at which it has been. -/
def Circles (data : List UInt8) : Prop :=
  HelloLoadsFit data ∧
    ∃ cur, Relation.ReflTransGen (Turn data) (extensionsAt signed data + 2) cur ∧
      Relation.TransGen (Turn data) cur cur

/-- `parse` ends: with some fuel its loop is not cut off. -/
def Ends (parser : ClientHelloParser) (data : List UInt8) : Prop :=
  ∃ fuel, parse fuel parser data ≠ .error .outOfFuel

section Loop

variable {data fServer : List UInt8} {cur : Int}

theorem loadExtensions_of_turn {next : Int} (turn : Turn data cur next) (fuel : Nat) :
    loadExtensions data fServer (fuel + 1) cur = loadExtensions data fServer fuel next :=
  loadExtensions_of_next turn.1 turn.2 fuel

theorem loadName_ne_outOfFuel (data : List UInt8) (cur length : Int) :
    loadName data cur length ≠ .error .outOfFuel := by
  rw [loadName]
  split
  · intro impossible
    cases impossible
  · by_cases within : Within data cur length.toNat
    · obtain ⟨bytes, loaded⟩ := loadBytes_of_within within
      rw [loaded]
      intro impossible
      cases impossible
    · obtain ⟨index, outside⟩ := loadBytes_of_not_within within
      rw [outside]
      intro impossible
      cases impossible

/-- A turn that is the last one does not run out of fuel. -/
theorem turn_of_outOfFuel {fuel : Nat}
    (ran : loadExtensions data fServer (fuel + 1) cur = .error .outOfFuel) :
    Turn data cur (cur + 4 + wordAt signed data (cur + 2)) := by
  by_cases inside : cur < data.length
  case neg =>
    rw [loadExtensions, if_neg inside] at ran
    cases ran
  by_cases fits : ExtensionLoadsFit data cur
  case neg =>
    obtain ⟨index, outside⟩ := @loadExtensions_of_not_fit data fServer cur inside fits fuel
    rw [outside] at ran
    cases ran
  by_cases isName : IsServerName data cur
  · rw [loadExtensions_of_isServerName inside fits.header isName (fits.nameHeader isName)] at ran
    exact absurd ran (loadName_ne_outOfFuel _ _ _)
  · exact ⟨fits.header, inside, isName, rfl⟩

/-- From an extension that comes back the loop never ends. -/
theorem outOfFuel_of_return (returns : Relation.TransGen (Turn data) cur cur) (fuel : Nat) :
    loadExtensions data fServer fuel cur = .error .outOfFuel := by
  induction fuel generalizing cur with
  | zero => rfl
  | succ fuel inductionHypothesis =>
    obtain ⟨next, turn, round⟩ := exists_move_of_return returns
    rw [loadExtensions_of_turn turn]
    exact inductionHypothesis round

/-- Nor does it end from where such an extension is reached. -/
theorem outOfFuel_of_reaches {start : Int}
    (reaches : Relation.ReflTransGen (Turn data) start cur)
    (endless : ∀ fuel, loadExtensions data fServer fuel cur = .error .outOfFuel) (fuel : Nat) :
    loadExtensions data fServer fuel start = .error .outOfFuel := by
  induction reaches using Relation.ReflTransGen.head_induction_on generalizing fuel with
  | refl => exact endless fuel
  | head turn _ inductionHypothesis =>
    cases fuel with
    | zero => rfl
    | succ fuel =>
      rw [loadExtensions_of_turn turn]
      exact inductionHypothesis fuel

/-- The cursor after a number of turns. -/
def cursor (data : List UInt8) (start : Int) : Nat → Int
  | 0 => start
  | turn + 1 =>
    cursor data start turn + 4 + wordAt signed data (cursor data start turn + 2)

/-- A loop that never ends takes turn after turn. -/
theorem turn_of_endless {start : Int}
    (endless : ∀ fuel, loadExtensions data fServer fuel start = .error .outOfFuel) (turn : Nat) :
    (∀ fuel, loadExtensions data fServer fuel (cursor data start turn) = .error .outOfFuel) ∧
      Turn data (cursor data start turn) (cursor data start (turn + 1)) := by
  induction turn with
  | zero => exact ⟨endless, turn_of_outOfFuel (endless 1)⟩
  | succ turn inductionHypothesis =>
    obtain ⟨here, moved⟩ := inductionHypothesis
    have later : ∀ fuel,
        loadExtensions data fServer fuel (cursor data start (turn + 1)) = .error .outOfFuel := by
      intro fuel
      rw [← loadExtensions_of_turn moved]
      exact here (fuel + 1)
    exact ⟨later, turn_of_outOfFuel (later 1)⟩

/-- The extension loop runs for ever exactly when its cursor comes back. -/
theorem endless_iff {start : Int} :
    (∀ fuel, loadExtensions data fServer fuel start = .error .outOfFuel) ↔
      ∃ cur, Relation.ReflTransGen (Turn data) start cur ∧
        Relation.TransGen (Turn data) cur cur := by
  constructor
  · intro endless
    have steps : ∀ turn, Turn data (cursor data start turn) (cursor data start (turn + 1)) :=
      fun turn => (turn_of_endless endless turn).2
    have inside : ∀ turn, cursor data start turn ∈ Set.Ico (0 : Int) data.length := by
      intro turn
      obtain ⟨within, before, -⟩ := steps turn
      unfold Within at within
      exact ⟨by omega, before⟩
    obtain ⟨turn, returns⟩ := exists_return_of_walk steps inside (Set.finite_Ico _ _)
    have reaches := reflTransGen_of_walk steps 0 turn
    rw [Nat.zero_add] at reaches
    exact ⟨_, reaches, returns⟩
  · rintro ⟨cur, reaches, returns⟩
    exact outOfFuel_of_reaches reaches (outOfFuel_of_return returns)

end Loop

section Parse

variable {parser : ClientHelloParser} {data : List UInt8}

theorem map_finish_eq_outOfFuel {ciphers : List Nat} {result : Except Fault (List UInt8)} :
    result.map (finish parser data ciphers) = .error .outOfFuel ↔
      result = .error .outOfFuel := by
  cases result with
  | ok value => exact iff_of_false (by rintro ⟨⟩) (by rintro ⟨⟩)
  | error fault => exact ⟨fun same => (by cases same; rfl), fun same => (by cases same; rfl)⟩

/-- What the extension loop of an input does with its fuel, `parse` does. -/
theorem parse_eq_outOfFuel_iff (accepted : ¬ Rejected data) (fits : HelloLoadsFit (swapped data))
    (fuel : Nat) :
    parse fuel parser data = .error .outOfFuel ↔
      loadExtensions (swapped data) parser.fServer fuel (extensionsAt signed (swapped data) + 2) =
        .error .outOfFuel := by
  obtain ⟨ciphers, same⟩ := parse_of_fits parser accepted fits
  rw [same, map_finish_eq_outOfFuel]

/-- An input on which the cursor comes back keeps `parse` in its loop. -/
theorem parse_of_circles (accepted : ¬ Rejected data) (circles : Circles (swapped data))
    (fuel : Nat) : parse fuel parser data = .error .outOfFuel := by
  obtain ⟨fits, returns⟩ := circles
  exact (parse_eq_outOfFuel_iff accepted fits fuel).mpr (endless_iff.mpr returns fuel)

/-- Behind the record tests, `parse` ends exactly when the cursor of the extension loop never
comes back to an extension at which it has been. -/
theorem parse_ends_iff (parser : ClientHelloParser) (data : List UInt8)
    (accepted : ¬ Rejected data) : Ends parser data ↔ ¬ Circles (swapped data) := by
  constructor
  · rintro ⟨fuel, ended⟩ circles
    exact ended (parse_of_circles accepted circles fuel)
  · intro straight
    by_cases fits : HelloLoadsFit (swapped data)
    · have ended : ¬ ∀ fuel, loadExtensions (swapped data) parser.fServer fuel
          (extensionsAt signed (swapped data) + 2) = .error .outOfFuel :=
        fun endless => straight ⟨fits, endless_iff.mp endless⟩
      obtain ⟨fuel, finished⟩ := not_forall.mp ended
      exact ⟨fuel, fun ran => finished ((parse_eq_outOfFuel_iff accepted fits fuel).mp ran)⟩
    · obtain ⟨index, outside⟩ := @parse_of_not_fits parser data accepted fits 0
      refine ⟨0, ?_⟩
      rw [outside]
      intro impossible
      cases impossible

end Parse

/-- A hello of 53 bytes without session, ciphers and compression methods, and with one extension
of type 1, whose length follows. -/
def oneExtension (high low : UInt8) : List UInt8 :=
  [22, 3, 1, 0, 48] ++ [1, 0, 0, 44, 3, 3] ++ List.replicate 32 7 ++ [0] ++ [0, 0] ++ [0] ++
    [0, 4] ++ [0, 1, high, low]

theorem parse_ends_iff_oneExtension : Ends new (oneExtension 0 0) := by
  refine (parse_ends_iff new (oneExtension 0 0) (by unfold Rejected; decide +kernel)).mpr ?_
  have start : extensionsAt signed (swapped (oneExtension 0 0)) + 2 = 49 := by decide +kernel
  have length : wordAt signed (swapped (oneExtension 0 0)) (49 + 2) = 0 := by decide +kernel
  have size : (swapped (oneExtension 0 0)).length = 53 := by decide +kernel
  have last (next : Int) : ¬ Turn (swapped (oneExtension 0 0)) 53 next := by
    rintro ⟨-, inside, -⟩
    rw [size] at inside
    exact absurd inside (by decide)
  rintro ⟨-, cur, reaches, returns⟩
  obtain ⟨next, turn, round⟩ := Relation.TransGen.head'_iff.mp returns
  rw [start] at reaches
  rcases Relation.ReflTransGen.cases_head reaches with rfl | ⟨second, first, later⟩
  · obtain ⟨-, -, -, rfl⟩ := turn
    rw [length] at round
    rcases Relation.ReflTransGen.cases_head round with impossible | ⟨third, again, -⟩
    · exact absurd impossible (by decide)
    · exact last third again
  · obtain ⟨-, -, -, rfl⟩ := first
    rw [length] at later
    rcases Relation.ReflTransGen.cases_head later with rfl | ⟨third, again, -⟩
    · exact last next turn
    · exact last third again

/-- An extension of length -4 keeps the cursor where it is. -/
theorem not_ends_oneExtension :
    ¬ ∀ (parser : ClientHelloParser) (data : List UInt8), ¬ Rejected data → Ends parser data := by
  intro ends
  have accepted : ¬ Rejected (oneExtension 0xFF 0xFC) := by
    unfold Rejected
    decide +kernel
  have circles : Circles (swapped (oneExtension 0xFF 0xFC)) := by
    refine ⟨⟨by decide +kernel, by decide +kernel, by decide +kernel, by decide +kernel,
      by decide +kernel⟩, 49, ?_, .single ⟨by decide +kernel, by decide +kernel, ?_,
      by decide +kernel⟩⟩
    · rw [show extensionsAt signed (swapped (oneExtension 0xFF 0xFC)) + 2 = 49 by decide +kernel]
    · unfold IsServerName
      decide +kernel
  obtain ⟨fuel, ended⟩ := ends new _ accepted
  exact ended (parse_of_circles accepted circles fuel)

end ClientHelloParser

end Nattan
