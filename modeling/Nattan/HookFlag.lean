/-
This file models the flag that says whether a task's system calls are hooked, and
proves exactly which programs leave it as they found it at every scope and call.

Everything that switches the flag off switches it on again at the end, without
looking at what it was: the scopes `Unhook` and `Poller`, and the calls
`in_set_nonblock`, `co_read_till` and `co_write_till`. So a scope inside a scope leaves
the outer one with the flag on. And `co_read_till` and `co_write_till` return without
switching it on again when the poll in them fails or times out.
-/

import Mathlib.Logic.Basic

namespace Nattan

namespace HookFlag

/-! ### The calls -/

/-- What a `read` or a `write` returns: a count, or a failure, for want of data or of room
(`EAGAIN`, `EWOULDBLOCK`) or for another reason. -/
inductive SysResult where
  | count (bytes : Nat)
  | again
  | error
  deriving DecidableEq, Repr

def SysResult.toInt : SysResult → Int
  | .count bytes => bytes
  | .again | .error => -1

/-- The arguments of `co_read_till` and `co_write_till` that are checked. -/
structure Arguments where
  fd : Int
  buf : Bool
  buf_len : Nat
  deriving DecidableEq, Repr

/-- `fd < 0 || !buf || buf_len <= 0`. -/
def Arguments.refused (arguments : Arguments) : Bool :=
  decide (arguments.fd < 0) || !arguments.buf || decide (arguments.buf_len = 0)

/-- What the system answers in such a call: to the first attempt, to the poll, and to the second
attempt. -/
structure Answers where
  first : SysResult
  poll : Int
  second : SysResult
  deriving DecidableEq, Repr

/-- `co_read_till`, and `co_write_till`, which is the same with `write` for `read`: the flag they
leave and the value they return. -/
def till (hook : Bool) (arguments : Arguments) (answers : Answers) : Bool × Int :=
  if arguments.refused then (hook, -1)
  else
    let hook := false
    if answers.first = .again then
      if answers.poll < 0 then (hook, -1)
      else if answers.poll = 0 then (hook, 0)
      else (true, answers.second.toInt)
    else (true, answers.first.toInt)

/-- `co_read_till`. -/
def co_read_till (hook : Bool) (arguments : Arguments) (answers : Answers) : Bool × Int :=
  till hook arguments answers

/-- `co_write_till`. -/
def co_write_till (hook : Bool) (arguments : Arguments) (answers : Answers) : Bool × Int :=
  till hook arguments answers

/-- `in_set_nonblock`. The flag is off for the first `fcntl` and on for the second, whose result
decides the value. -/
def in_set_nonblock (_hook : Bool) (setfl : Int) : Bool × Int :=
  let hook := true
  if setfl < 0 then (hook, -1) else (hook, 0)

/-! ### Programs -/

/-- A call, with what the system answers in it. -/
inductive Call where
  | co_read_till (arguments : Arguments) (answers : Answers)
  | co_write_till (arguments : Arguments) (answers : Answers)
  | in_set_nonblock (setfl : Int)
  deriving DecidableEq, Repr

/-- The flag a call leaves. -/
def Call.leaves (hook : Bool) : Call → Bool
  | .co_read_till arguments answers => (HookFlag.co_read_till hook arguments answers).1
  | .co_write_till arguments answers => (HookFlag.co_write_till hook arguments answers).1
  | .in_set_nonblock setfl => (HookFlag.in_set_nonblock hook setfl).1

/-- The two classes whose objects keep the flag off as long as they live. -/
inductive Scope where
  | unhook
  | poller
  deriving DecidableEq, Repr

/-- The flag after the constructor, and after the destructor. -/
def Scope.enter (_ : Scope) (_hook : Bool) : Bool :=
  false

def Scope.leave (_ : Scope) (_hook : Bool) : Bool :=
  true

/-- What a task does: scopes with what happens inside them, and calls, one after another. -/
inductive Program where
  | done
  | call (made : Call) (rest : Program)
  | scope (kind : Scope) (body rest : Program)
  deriving DecidableEq, Repr

/-- The flag after a program. -/
def Program.run (hook : Bool) : Program → Bool
  | .done => hook
  | .call made rest => rest.run (made.leaves hook)
  | .scope kind body rest => rest.run (kind.leave (body.run (kind.enter hook)))

/-- At every scope and at every call of the run, the flag is the same at its end as before it. -/
def Program.Keeps (hook : Bool) : Program → Prop
  | .done => True
  | .call made rest => made.leaves hook = hook ∧ rest.Keeps (made.leaves hook)
  | .scope kind body rest =>
    kind.leave (body.run (kind.enter hook)) = hook ∧ body.Keeps (kind.enter hook) ∧
      rest.Keeps (kind.leave (body.run (kind.enter hook)))

/-! ### Which programs keep the flag -/

/-- The call polls, and the poll fails or times out. -/
def givesUp (arguments : Arguments) (answers : Answers) : Prop :=
  arguments.refused = false ∧ answers.first = .again ∧ answers.poll ≤ 0

/-- The flag at the place of the call is the one it leaves: any, when it refuses its arguments;
off, when its poll fails or times out; else on. -/
def Call.Fits (hook : Bool) : Call → Prop
  | .co_read_till arguments answers | .co_write_till arguments answers =>
    arguments.refused = true ∨ givesUp arguments answers ∧ hook = false ∨
      ¬ givesUp arguments answers ∧ hook = true
  | .in_set_nonblock _ => hook = true

/-- Scopes stand only where the flag is on, so that none stands inside another, and every call
stands where its flag is. -/
def Program.Scoped (hook : Bool) : Program → Prop
  | .done => True
  | .call made rest => made.Fits hook ∧ rest.Scoped hook
  | .scope _ body rest => hook = true ∧ body.Scoped false ∧ rest.Scoped hook

theorem till_of_refused {hook : Bool} {arguments : Arguments} (refused : arguments.refused = true)
    (answers : Answers) : (till hook arguments answers).1 = hook := by
  rw [till, if_pos refused]

theorem till_of_givesUp {hook : Bool} {arguments : Arguments} {answers : Answers}
    (gives : givesUp arguments answers) : (till hook arguments answers).1 = false := by
  obtain ⟨accepted, again, poll⟩ := gives
  rw [till, if_neg (by rw [accepted]; simp)]
  dsimp only
  rw [if_pos again]
  by_cases failed : answers.poll < 0
  · rw [if_pos failed]
  · rw [if_neg failed, if_pos (by omega)]

theorem till_of_not_givesUp {hook : Bool} {arguments : Arguments} {answers : Answers}
    (accepted : arguments.refused = false) (keeps : ¬ givesUp arguments answers) :
    (till hook arguments answers).1 = true := by
  rw [till, if_neg (by rw [accepted]; simp)]
  dsimp only
  by_cases again : answers.first = .again
  · have ready : ¬ answers.poll ≤ 0 := fun poll => keeps ⟨accepted, again, poll⟩
    rw [if_pos again, if_neg (by omega), if_neg (by omega)]
  · rw [if_neg again]

theorem till_keeps_iff (hook : Bool) (arguments : Arguments) (answers : Answers) :
    (till hook arguments answers).1 = hook ↔
      arguments.refused = true ∨ givesUp arguments answers ∧ hook = false ∨
        ¬ givesUp arguments answers ∧ hook = true := by
  cases refused : arguments.refused with
  | true => exact iff_of_true (till_of_refused refused answers) (Or.inl rfl)
  | false =>
    by_cases gives : givesUp arguments answers
    · rw [till_of_givesUp gives]
      simp [gives, eq_comm]
    · rw [till_of_not_givesUp refused gives]
      simp [gives, eq_comm]

theorem Call.keeps_iff (hook : Bool) (call : Call) : call.leaves hook = hook ↔ call.Fits hook := by
  cases call with
  | co_read_till arguments answers => exact till_keeps_iff hook arguments answers
  | co_write_till arguments answers => exact till_keeps_iff hook arguments answers
  | in_set_nonblock setfl =>
    have on : (HookFlag.in_set_nonblock hook setfl).1 = true := by
      rw [HookFlag.in_set_nonblock]
      split <;> rfl
    show (HookFlag.in_set_nonblock hook setfl).1 = hook ↔ hook = true
    rw [on, eq_comm]

/-- A program keeps the flag at every scope and every call exactly when it is scoped. -/
theorem keeps_iff_scoped (hook : Bool) (program : Program) :
    program.Keeps hook ↔ program.Scoped hook := by
  induction program generalizing hook with
  | done => exact Iff.rfl
  | call made rest inductionHypothesis =>
    rw [Program.Keeps, Program.Scoped, made.keeps_iff hook]
    refine and_congr_right fun fits => ?_
    rw [(made.keeps_iff hook).mpr fits]
    exact inductionHypothesis hook
  | scope kind body rest inBody inRest =>
    rw [Program.Keeps, Program.Scoped]
    show true = hook ∧ body.Keeps false ∧ rest.Keeps true ↔
      hook = true ∧ body.Scoped false ∧ rest.Scoped hook
    rw [eq_comm, inBody false, inRest true]
    refine and_congr_right fun on => ?_
    rw [on]

/-- A scope in a scope: the flag is on after the inner one, although it was off before it. And a
read with a poll that times out: the flag is off after it, although it was on before. -/
theorem nested_scopes_and_timeouts_change_the_flag :
    ¬ (Program.scope .unhook (.scope .poller .done .done) .done).Keeps true ∧
      (Program.scope .poller .done .done).run false = true ∧
      ¬ (Program.call (.co_read_till ⟨3, true, 8⟩ ⟨.again, 0, .error⟩) .done).Keeps true ∧
      (Program.call (.co_read_till ⟨3, true, 8⟩ ⟨.again, 0, .error⟩) .done).run true = false := by
  refine ⟨fun keeps => ?_, rfl, fun keeps => ?_, rfl⟩
  · exact absurd keeps.2.1.1 (by decide)
  · exact absurd keeps.1 (by decide)

end HookFlag

end Nattan
