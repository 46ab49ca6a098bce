/-
This file models `DNS`, and proves for which histories of one object its answers are
those of the last query, and its channels are destroyed once.

What c-ares does is given to the model: whether a channel can be initialised, with which
statuses and replies the callback runs inside `ares_query`, `ares_process` and
`ares_destroy`, and after how many rounds the query is over or has timed out.

The results are collected in a list that is never cleared, so the addresses of one query
are still there after the next, which reports success because of them. And `bInited` is
never reset. After `destroy` it takes an initialisation that succeeds, or one that fails
at its first allocation and clears the pointer, for the channel not to be destroyed once
more.
-/

import Mathlib.Data.List.Infix
import Mathlib.Data.List.Nodup
import Mathlib.Data.List.Range

namespace Nattan.DNS

variable {Ip : Type}

/-! ### What c-ares does -/

def ARES_SUCCESS : Int := 0

/-- A run of the callback: its status, that of `ares_parse_a_reply`, and the addresses with their
times to live, for which there is room in an array of ten. -/
structure Callback (Ip : Type) where
  status : Int
  parsed : Int
  addrttls : List (Ip × Int)
  room : addrttls.length ≤ 10

/-- What `ares_init_options` does: it returns a new channel, fails at the allocation of one, where
it clears the pointer, or fails later, where it leaves the pointer alone. -/
inductive Initialisation where
  | succeeds
  | outOfMemory
  | fails
  deriving DecidableEq, Repr

/-- The loop of a query: `ares_fds` finds no sockets, `co_poll` times out, or `ares_process` runs
with these callbacks. -/
inductive Rounds (Ip : Type) where
  | finished
  | timedOut
  | processed (callbacks : List (Callback Ip)) (rest : Rounds Ip)

/-- What c-ares does in a call of `resolve`. The callbacks in `ares_destroy` only run if there is a
channel to destroy, and the others if there is a new one. -/
structure Attempt (Ip : Type) where
  destroying : List (Callback Ip)
  initialisation : Initialisation
  querying : List (Callback Ip)
  rounds : Rounds Ip

/-! ### The object -/

/-- A `DNS` object, the number of channels initialised so far, by which they are known, and the
channels in the order in which they were destroyed. -/
structure State (Ip : Type) where
  bInited : Bool
  fChannel : Option Nat
  fResults : List (Ip × Int)
  initialised : Nat
  destroyed : List Nat

def new : State Ip where
  bInited := false
  fChannel := none
  fResults := []
  initialised := 0
  destroyed := []

/-- What a callback delivers. -/
def Callback.delivers (callback : Callback Ip) : List (Ip × Int) :=
  if callback.status ≠ ARES_SUCCESS then []
  else if callback.parsed ≠ ARES_SUCCESS then []
  else callback.addrttls

/-- `__dns_callback`. -/
def dnsCallback (state : State Ip) (callback : Callback Ip) : State Ip :=
  { state with fResults := state.fResults ++ callback.delivers }

/-- `ares_destroy(fChannel)`, which ignores a null pointer. -/
def aresDestroy (state : State Ip) (callbacks : List (Callback Ip)) : State Ip :=
  match state.fChannel with
  | none => state
  | some channel =>
    callbacks.foldl dnsCallback { state with destroyed := state.destroyed ++ [channel] }

def destroy (state : State Ip) (callbacks : List (Callback Ip)) : State Ip :=
  if state.bInited then aresDestroy state callbacks else state

/-- `init()`, with its result. -/
def init (state : State Ip) (attempt : Attempt Ip) : State Ip × Bool :=
  let state := destroy state attempt.destroying
  match attempt.initialisation with
  | .succeeds =>
    ({ state with
        bInited := true
        fChannel := some state.initialised
        initialised := state.initialised + 1 }, true)
  | .outOfMemory => ({ state with fChannel := none }, false)
  | .fails => (state, false)

/-- The loop of `query`. -/
def queryLoop (state : State Ip) : Rounds Ip → State Ip
  | .finished | .timedOut => state
  | .processed callbacks rest => queryLoop (callbacks.foldl dnsCallback state) rest

/-- `query(hostname)`, with its result. -/
def query (state : State Ip) (attempt : Attempt Ip) : State Ip × Bool :=
  let state := queryLoop (attempt.querying.foldl dnsCallback state) attempt.rounds
  (state, !state.fResults.isEmpty)

/-- `resolve(hostname)`, with its result. -/
def resolve (state : State Ip) (attempt : Attempt Ip) : State Ip × Bool :=
  let (state, ready) := init state attempt
  if ready then query state attempt else (state, false)

/-- The object after some calls of `resolve`. -/
def resolves : State Ip → List (Attempt Ip) → State Ip
  | state, [] => state
  | state, attempt :: rest => resolves (resolve state attempt).1 rest

/-! ### What should hold, and when it does -/

def Rounds.delivers : Rounds Ip → List (Ip × Int)
  | .finished | .timedOut => []
  | .processed callbacks rest => callbacks.flatMap Callback.delivers ++ rest.delivers

/-- What the query of a `resolve` delivers. -/
def Attempt.answer (attempt : Attempt Ip) : List (Ip × Int) :=
  match attempt.initialisation with
  | .succeeds => attempt.querying.flatMap Callback.delivers ++ attempt.rounds.delivers
  | .outOfMemory | .fails => []

/-- The addresses among some results. -/
def addresses (results : List (Ip × Int)) : List Ip :=
  results.map Prod.fst

/-- The result of a `resolve` is true when its query has delivered something, and there are only
addresses of this query in the list. -/
def Answers (state : State Ip) (attempt : Attempt Ip) : Prop :=
  ((resolve state attempt).2 = true ↔ attempt.answer ≠ []) ∧
    ∀ result ∈ (resolve state attempt).1.fResults, result.1 ∈ addresses attempt.answer

/-- A property of every `resolve` in a history. -/
def Always (holds : State Ip → Attempt Ip → Prop) : State Ip → List (Attempt Ip) → Prop
  | _, [] => True
  | state, attempt :: rest =>
    holds state attempt ∧ Always holds (resolve state attempt).1 rest

/-- Every channel that was initialised has been destroyed once. -/
def DestroyedOnce (state : State Ip) : Prop :=
  ∀ channel, channel < state.initialised → state.destroyed.count channel = 1

/-- An object that answers some calls of `resolve`, and then ends its life. -/
def Faithful (attempts : List (Attempt Ip)) (last : List (Callback Ip)) : Prop :=
  Always Answers new attempts ∧ DestroyedOnce (destroy (resolves new attempts) last)

/-- The channel that `destroy` destroys. -/
def State.channel (state : State Ip) : Option Nat :=
  if state.bInited then state.fChannel else none

/-- What is in the list when the channel has been destroyed. -/
def leftover (state : State Ip) (callbacks : List (Callback Ip)) : List (Ip × Int) :=
  match state.channel with
  | none => state.fResults
  | some _ => state.fResults ++ callbacks.flatMap Callback.delivers

/-- Every address that was delivered before is delivered again, and the initialisation does not
leave a pointer to the channel that was just destroyed. -/
def Tame (state : State Ip) (attempt : Attempt Ip) : Prop :=
  (∀ result ∈ leftover state attempt.destroying, result.1 ∈ addresses attempt.answer) ∧
    (state.channel ≠ none → attempt.initialisation ≠ .fails)

/-! ### A call of `resolve` -/

theorem foldl_dnsCallback (state : State Ip) (callbacks : List (Callback Ip)) :
    callbacks.foldl dnsCallback state =
      { state with fResults := state.fResults ++ callbacks.flatMap Callback.delivers } := by
  induction callbacks generalizing state with
  | nil => rw [List.foldl_nil, List.flatMap_nil, List.append_nil]
  | cons callback rest inductionHypothesis =>
    rw [List.foldl_cons, inductionHypothesis, List.flatMap_cons, dnsCallback]
    simp only [List.append_assoc]

theorem queryLoop_eq (state : State Ip) (rounds : Rounds Ip) :
    queryLoop state rounds = { state with fResults := state.fResults ++ rounds.delivers } := by
  induction rounds generalizing state with
  | finished => simp only [queryLoop, Rounds.delivers, List.append_nil]
  | timedOut => simp only [queryLoop, Rounds.delivers, List.append_nil]
  | processed callbacks rest inductionHypothesis =>
    rw [queryLoop, inductionHypothesis, foldl_dnsCallback]
    simp only [Rounds.delivers, List.append_assoc]

theorem destroy_eq (state : State Ip) (callbacks : List (Callback Ip)) :
    destroy state callbacks = { state with
      fResults := leftover state callbacks
      destroyed := state.destroyed ++ state.channel.toList } := by
  obtain ⟨bInited, fChannel, fResults, initialised, destroyed⟩ := state
  cases bInited with
  | false => simp [destroy, leftover, State.channel]
  | true =>
    cases fChannel with
    | none => simp [destroy, aresDestroy, leftover, State.channel]
    | some channel => simp [destroy, aresDestroy, leftover, State.channel, foldl_dnsCallback]

/-- What a `resolve` does. -/
theorem resolve_eq (state : State Ip) (attempt : Attempt Ip) :
    resolve state attempt =
      match attempt.initialisation with
      | .succeeds =>
        ({ bInited := true
           fChannel := some state.initialised
           fResults := leftover state attempt.destroying ++ attempt.answer
           initialised := state.initialised + 1
           destroyed := state.destroyed ++ state.channel.toList },
          !(leftover state attempt.destroying ++ attempt.answer).isEmpty)
      | .outOfMemory =>
        ({ state with
            fChannel := none
            fResults := leftover state attempt.destroying
            destroyed := state.destroyed ++ state.channel.toList }, false)
      | .fails =>
        ({ state with
            fResults := leftover state attempt.destroying
            destroyed := state.destroyed ++ state.channel.toList }, false) := by
  unfold resolve init
  rw [destroy_eq]
  cases outcome : attempt.initialisation with
  | succeeds =>
    simp only [query, foldl_dnsCallback, queryLoop_eq, if_true, Attempt.answer, outcome,
      List.append_assoc]
  | outOfMemory => simp only [Bool.false_eq_true, if_false]
  | fails => simp only [Bool.false_eq_true, if_false]

theorem fResults_resolve (state : State Ip) (attempt : Attempt Ip) :
    (resolve state attempt).1.fResults =
      leftover state attempt.destroying ++ attempt.answer := by
  rw [resolve_eq]
  cases outcome : attempt.initialisation with
  | succeeds => rfl
  | outOfMemory => simp only [Attempt.answer, outcome, List.append_nil]
  | fails => simp only [Attempt.answer, outcome, List.append_nil]

/-- The answer is right if and only if what was in the list before is delivered again. -/
theorem answers_iff (state : State Ip) (attempt : Attempt Ip) :
    Answers state attempt ↔
      ∀ result ∈ leftover state attempt.destroying, result.1 ∈ addresses attempt.answer := by
  constructor
  · intro answers result member
    refine answers.2 result ?_
    rw [fResults_resolve]
    exact List.mem_append_left _ member
  · intro again
    constructor
    · rw [resolve_eq]
      cases outcome : attempt.initialisation with
      | succeeds =>
        simp only [Bool.not_eq_true', List.isEmpty_eq_false_iff, ne_eq, List.append_eq_nil_iff,
          not_and]
        constructor
        · intro notEmpty nothing
          refine notEmpty (List.eq_nil_iff_forall_not_mem.mpr fun result member => ?_) nothing
          have listed := again result member
          rw [nothing] at listed
          cases listed
        · exact fun something _ => something
      | outOfMemory => simp only [Attempt.answer, outcome, Bool.false_eq_true, ne_eq, not_true]
      | fails => simp only [Attempt.answer, outcome, Bool.false_eq_true, ne_eq, not_true]
    · intro result member
      rw [fResults_resolve] at member
      rcases List.mem_append.mp member with before | delivered
      · exact again result before
      · exact List.mem_map_of_mem delivered

/-! ### The channels -/

/-- The initialisation does not leave a pointer to the channel that was just destroyed. -/
def Steady (state : State Ip) (attempt : Attempt Ip) : Prop :=
  state.channel ≠ none → attempt.initialisation ≠ .fails

/-- The channels that were destroyed, and then the one that is to be, are those that were
initialised. -/
def Tidy (state : State Ip) : Prop :=
  state.destroyed ++ state.channel.toList = List.range state.initialised

theorem destroyed_resolve (state : State Ip) (attempt : Attempt Ip) :
    (resolve state attempt).1.destroyed = state.destroyed ++ state.channel.toList := by
  rw [resolve_eq]
  cases attempt.initialisation <;> rfl

theorem initialised_resolve (state : State Ip) (attempt : Attempt Ip) :
    state.initialised ≤ (resolve state attempt).1.initialised := by
  rw [resolve_eq]
  cases attempt.initialisation with
  | succeeds => exact Nat.le_succ _
  | outOfMemory => exact Nat.le_refl _
  | fails => exact Nat.le_refl _

theorem tidy_resolve {state : State Ip} (tidy : Tidy state) {attempt : Attempt Ip}
    (steady : Steady state attempt) : Tidy (resolve state attempt).1 := by
  unfold Tidy at tidy ⊢
  rw [destroyed_resolve, tidy, resolve_eq]
  cases outcome : attempt.initialisation with
  | succeeds => exact List.range_succ.symm
  | outOfMemory =>
    have none : State.channel { state with
        fChannel := none
        fResults := leftover state attempt.destroying
        destroyed := state.destroyed ++ state.channel.toList } = none := by
      unfold State.channel
      split <;> rfl
    simp only [none, Option.toList_none, List.append_nil]
  | fails =>
    have none : state.channel = none := by
      by_contra some
      exact steady some outcome
    show List.range state.initialised ++ state.channel.toList = List.range state.initialised
    rw [none, Option.toList_none, List.append_nil]

/-- The channel that is to be destroyed will be. -/
theorem destroyed_isPrefix (state : State Ip) (attempts : List (Attempt Ip))
    (last : List (Callback Ip)) :
    state.destroyed ++ state.channel.toList <+:
      (destroy (resolves state attempts) last).destroyed := by
  induction attempts generalizing state with
  | nil =>
    rw [resolves, destroy_eq]
  | cons attempt rest inductionHypothesis =>
    rw [resolves]
    refine List.IsPrefix.trans ?_ (inductionHypothesis _)
    rw [destroyed_resolve]
    exact List.prefix_append _ _

theorem initialised_resolves (state : State Ip) (attempts : List (Attempt Ip))
    (last : List (Callback Ip)) :
    state.initialised ≤ (destroy (resolves state attempts) last).initialised := by
  induction attempts generalizing state with
  | nil =>
    rw [resolves, destroy_eq]
  | cons attempt rest inductionHypothesis =>
    exact Nat.le_trans (initialised_resolve state attempt) (inductionHypothesis _)

/-- A failure that leaves the pointer has its channel destroyed a second time. -/
theorem not_destroyedOnce_of_fails {state : State Ip} (tidy : Tidy state) {attempt : Attempt Ip}
    (unsteady : ¬ Steady state attempt) (rest : List (Attempt Ip)) (last : List (Callback Ip)) :
    ¬ DestroyedOnce (destroy (resolves (resolve state attempt).1 rest) last) := by
  simp only [Steady, Classical.not_imp, ne_eq, Decidable.not_not] at unsteady
  obtain ⟨pointed, fails⟩ := unsteady
  obtain ⟨channel, current⟩ := Option.ne_none_iff_exists'.mp pointed
  have known : channel < state.initialised := by
    rw [← List.mem_range, ← tidy, current]
    exact List.mem_append_right _ (List.mem_singleton.mpr rfl)
  have still : (resolve state attempt).1.channel = some channel := by
    rw [resolve_eq, fails]
    exact current
  have twice := (destroyed_isPrefix (resolve state attempt).1 rest last).sublist.count_le channel
  rw [destroyed_resolve, still, current, Option.toList_some, List.count_append, List.count_append,
    List.count_singleton_self] at twice
  intro once
  have exactly := once channel (Nat.lt_of_lt_of_le known
    (Nat.le_trans (initialised_resolve state attempt) (initialised_resolves _ rest last)))
  omega

/-- Every channel is destroyed once if and only if no initialisation leaves a dangling pointer. -/
theorem destroyedOnce_iff {state : State Ip} (tidy : Tidy state) (attempts : List (Attempt Ip))
    (last : List (Callback Ip)) :
    DestroyedOnce (destroy (resolves state attempts) last) ↔ Always Steady state attempts := by
  induction attempts generalizing state with
  | nil =>
    refine iff_of_true (fun channel known => ?_) trivial
    rw [resolves, destroy_eq] at known ⊢
    show (state.destroyed ++ state.channel.toList).count channel = 1
    rw [tidy]
    exact List.count_eq_one_of_mem List.nodup_range (List.mem_range.mpr known)
  | cons attempt rest inductionHypothesis =>
    by_cases steady : Steady state attempt
    · exact (inductionHypothesis (tidy_resolve tidy steady)).trans
        (and_iff_right steady).symm
    · exact iff_of_false (not_destroyedOnce_of_fails tidy steady rest last)
        fun always => steady always.1

/-! ### Every history -/

theorem always_and_iff (state : State Ip) (attempts : List (Attempt Ip)) :
    Always Tame state attempts ↔
      Always Answers state attempts ∧ Always Steady state attempts := by
  induction attempts generalizing state with
  | nil => exact (and_self_iff).symm
  | cons attempt rest inductionHypothesis =>
    simp only [Always, inductionHypothesis, answers_iff, Tame, Steady]
    tauto

/-- An object answers for the last name asked and destroys its channels once if and only if every
`resolve` of its life is tame. -/
theorem faithful_iff (attempts : List (Attempt Ip)) (last : List (Callback Ip)) :
    Faithful attempts last ↔ Always Tame new attempts := by
  rw [always_and_iff]
  have tidy : Tidy (new : State Ip) := rfl
  exact and_congr_right fun _ => destroyedOnce_iff tidy attempts last

/-- A reply with one address, and then a query that times out. -/
def replyThenTimeOut : List (Attempt Nat) :=
  [⟨[], .succeeds, [], .processed [⟨0, 0, [(16909060, 60)], by decide⟩] .finished⟩,
    ⟨[], .succeeds, [], .timedOut⟩]

theorem not_faithful_replyThenTimeOut :
    ¬ ∀ (attempts : List (Attempt Nat)) (last : List (Callback Nat)), Faithful attempts last := by
  intro faithful
  have answered := (faithful replyThenTimeOut []).1.2.1.1
  exact absurd (answered.mp (by decide)) (by decide)

end Nattan.DNS
