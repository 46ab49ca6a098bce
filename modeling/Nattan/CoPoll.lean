/-
This file models `co_poll`, and proves exactly when it keeps the contract of `poll`.

Both loops of `co_poll` write through what `get_inner_fd` returns, and they do not ask
whether it is a pointer: an entry whose descriptor has no `inner_fd` (poll's own way of
leaving an entry out is a negative descriptor) ends the process. When the task is resumed,
the event loop and the timers have left a mask in the `inner_fd` of every descriptor. The
result loop translates the masks into `revents`, but it also copies every entry whose mask
is not empty to the front of the caller's array. So the array the caller finds is the
entries with a mask, in order, followed by the rest of the array as it was, and an entry
stands at its own place only if no entry without a mask stood before one with a mask. And
the value returned is the number of masks, although the mask of a timeout translates to no
event at all.
-/

import Mathlib.Data.List.Basic
import Mathlib.Logic.Function.Basic

namespace Nattan

namespace CoPoll

/-! ### The two loops -/

/-- `struct pollfd`. -/
structure PollFd where
  fd : Int
  events : BitVec 16
  revents : BitVec 16
  deriving DecidableEq, Repr

/-- `g_inner_fd_list`: the `error` of the `inner_fd` of a descriptor, if it has one. -/
abbrev Masks := Int → Option (BitVec 32)

def MAX_FD_NUM : Int := 102400

def is_fd_valid (fd : Int) : Bool :=
  decide (-1 < fd ∧ fd < MAX_FD_NUM)

/-- `get_inner_fd(fd)`, as far as its `error` goes. -/
def get_inner_fd (masks : Masks) (fd : Int) : Option (BitVec 32) :=
  if is_fd_valid fd then masks fd else none

def IENONE : BitVec 32 := 0
def IETIMEOUT : BitVec 32 := 1
def IEREAD : BitVec 32 := 2
def IEWRITE : BitVec 32 := 4
def IERDHUP : BitVec 32 := 8
def IEERR : BitVec 32 := 16
def IEHUP : BitVec 32 := 32

def EPOLLIN : BitVec 16 := 0x1
def EPOLLOUT : BitVec 16 := 0x4
def EPOLLERR : BitVec 16 := 0x8
def EPOLLHUP : BitVec 16 := 0x10
def EPOLLRDHUP : BitVec 16 := 0x2000

/-- One of the tests of a mask: the event it stands for. -/
def eventOf (mask bit : BitVec 32) (event : BitVec 16) : BitVec 16 :=
  if mask &&& bit ≠ 0 then event else 0

/-- The events a mask stands for. -/
def translate (mask : BitVec 32) : BitVec 16 :=
  eventOf mask IEREAD EPOLLIN ||| eventOf mask IEWRITE EPOLLOUT |||
    eventOf mask IEERR EPOLLERR ||| eventOf mask IERDHUP EPOLLRDHUP |||
    eventOf mask IEHUP EPOLLHUP

/-- The loop before the wait: it clears the mask of every entry. Writing through a null pointer
ends the process, which is `none`. -/
def arm : List PollFd → Masks → Option Masks
  | [], masks => some masks
  | entry :: rest, masks =>
    match get_inner_fd masks entry.fd with
    | none => none
    | some _ => arm rest (Function.update masks entry.fd (some IENONE))

/-- The loop after the wait, from index `i` on, with `j` entries found so far. `expired` says that
the timer of the call has fired; a descriptor without a mask is then marked. -/
def collect (expired : Bool) :
    Nat → Nat → Nat → List PollFd → Masks → Option (List PollFd × Masks × Nat)
  | 0, _, j, fds, masks => some (fds, masks, j)
  | left + 1, i, j, fds, masks =>
    match fds[i]? with
    | none => some (fds, masks, j)
    | some entry =>
      match get_inner_fd masks entry.fd with
      | none => none
      | some error =>
        if error = IENONE then
          collect expired left (i + 1) j (fds.set i { entry with revents := 0 })
            (if expired then Function.update masks entry.fd (some IETIMEOUT) else masks)
        else
          let found := { entry with revents := translate error }
          collect expired left (i + 1) (j + 1) ((fds.set i found).set j found) masks

/-- `co_poll(fds, nfds, timeout)`: the array it leaves and the value it returns. `called` is
`g_inner_fd_list` at the call. While the task waits, the event loop, the timers and the other tasks
run; `masks` is what they have made of it when the task is resumed, and `fired` whether the timer
has fired that is armed when there is a timeout. -/
def co_poll (fds : List PollFd) (timeout : Int) (called masks : Masks) (fired : Bool) :
    Option (List PollFd × Nat) :=
  let use_timeout := decide (timeout ≠ 0 ∧ timeout ≠ -1)
  (arm fds called).bind fun _ =>
    (collect (use_timeout && fired) fds.length 0 0 fds masks).map fun collected =>
      (collected.1, collected.2.2)

/-! ### The contract of `poll` -/

/-- Every entry has an `inner_fd`. -/
def Registered (masks : Masks) (fds : List PollFd) : Prop :=
  ∀ entry ∈ fds, (get_inner_fd masks entry.fd).isSome = true

instance (masks : Masks) (fds : List PollFd) : Decidable (Registered masks fds) :=
  inferInstanceAs (Decidable (∀ entry ∈ fds, (get_inner_fd masks entry.fd).isSome = true))

/-- The mask of a descriptor; one without an `inner_fd` has none. -/
def errorOf (masks : Masks) (fd : Int) : BitVec 32 :=
  (get_inner_fd masks fd).getD IENONE

/-- An entry with the events of its own descriptor. -/
def answered (masks : Masks) (entry : PollFd) : PollFd :=
  { entry with revents := translate (errorOf masks entry.fd) }

/-- Every entry stays at its place and gets the events of its own descriptor, and the value
returned is the number of entries with events; it is zero when there was nothing but timeouts. -/
structure Contract (fds : List PollFd) (masks : Masks) (result : List PollFd × Nat) : Prop where
  entries : result.1 = fds.map (answered masks)
  count : result.2 = result.1.countP fun entry => entry.revents ≠ 0
  timeout : (∀ entry ∈ fds, errorOf masks entry.fd = IENONE ∨ errorOf masks entry.fd = IETIMEOUT) →
    result.2 = 0

/-- The entry has a mask. -/
def marked (masks : Masks) (entry : PollFd) : Bool :=
  decide (errorOf masks entry.fd ≠ IENONE)

theorem marked_answered (masks : Masks) (entry : PollFd) :
    marked masks (answered masks entry) = marked masks entry :=
  rfl

theorem marked_iff {masks : Masks} {entry : PollFd} :
    marked masks entry = true ↔ errorOf masks entry.fd ≠ IENONE :=
  decide_eq_true_iff

theorem translate_none : translate IENONE = 0 := by
  decide

theorem translate_timeout : translate IETIMEOUT = 0 := by
  decide

/-! ### What the loop computes -/

/-- The array on the way: the entries found so far are moved to the front, and what was looked at
behind them keeps its place. -/
def arranged (masks : Masks) (seen rest : List PollFd) : List PollFd :=
  seen.filter (marked masks) ++ seen.drop (seen.filter (marked masks)).length ++ rest

theorem getElem_arranged (masks : Masks) (seen rest : List PollFd) (entry : PollFd) :
    (arranged masks seen (entry :: rest))[seen.length]? = some entry := by
  have few := List.length_filter_le (marked masks) seen
  rw [arranged, List.getElem?_append_right (by simp; omega)]
  simp [few]

theorem set_arranged (masks : Masks) (seen rest : List PollFd) (entry replaced : PollFd) :
    (arranged masks seen (entry :: rest)).set seen.length replaced =
      seen.filter (marked masks) ++ seen.drop (seen.filter (marked masks)).length ++
        replaced :: rest := by
  have few := List.length_filter_le (marked masks) seen
  rw [arranged, List.set_append_right _ _ (by simp; omega)]
  simp [few]

theorem arranged_unmarked {masks : Masks} {entry : PollFd} (unmarked : marked masks entry = false)
    (seen rest : List PollFd) :
    (arranged masks seen (entry :: rest)).set seen.length (answered masks entry) =
      arranged masks (seen ++ [answered masks entry]) rest := by
  have few := List.length_filter_le (marked masks) seen
  rw [set_arranged, arranged, List.filter_append, List.filter_cons_of_neg
    (by rw [marked_answered, unmarked]; simp), List.filter_nil, List.append_nil,
    List.drop_append_of_le_length few]
  simp

theorem arranged_marked {masks : Masks} {entry : PollFd} (isMarked : marked masks entry = true)
    (seen rest : List PollFd) :
    ((arranged masks seen (entry :: rest)).set seen.length (answered masks entry)).set
        (seen.filter (marked masks)).length (answered masks entry) =
      arranged masks (seen ++ [answered masks entry]) rest := by
  have few := List.length_filter_le (marked masks) seen
  have joined : seen.drop (seen.filter (marked masks)).length ++ answered masks entry :: rest =
      (seen ++ [answered masks entry]).drop (seen.filter (marked masks)).length ++ rest := by
    rw [List.drop_append_of_le_length few]
    simp
  rw [set_arranged, arranged, List.filter_append, List.filter_cons_of_pos
    (by rw [marked_answered, isMarked]), List.filter_nil, List.append_assoc,
    List.set_append_right _ _ (Nat.le_refl _), Nat.sub_self, List.length_append, joined]
  cases dropped : (seen ++ [answered masks entry]).drop (seen.filter (marked masks)).length with
  | nil =>
    rw [List.drop_eq_nil_iff, List.length_append, List.length_singleton] at dropped
    omega
  | cons first others =>
    have behind : (seen ++ [answered masks entry]).drop
        ((seen.filter (marked masks)).length + [answered masks entry].length) = others := by
      rw [List.length_singleton, ← List.tail_drop, dropped]
      rfl
    rw [behind]
    simp

/-! ### Entries without an `inner_fd` -/

theorem get_inner_fd_update_of_ne (masks : Masks) {fd other : Int} (different : other ≠ fd)
    (error : Option (BitVec 32)) :
    get_inner_fd (Function.update masks fd error) other = get_inner_fd masks other := by
  rw [get_inner_fd, get_inner_fd, Function.update_of_ne different]

theorem errorOf_of_get_inner_fd {masks : Masks} {fd : Int} {error : BitVec 32}
    (found : get_inner_fd masks fd = some error) : errorOf masks fd = error := by
  rw [errorOf, found, Option.getD_some]

theorem registered_nil (masks : Masks) : Registered masks [] :=
  fun _ member => absurd member List.not_mem_nil

theorem registered_cons {masks : Masks} {entry : PollFd} {rest : List PollFd} :
    Registered masks (entry :: rest) ↔
      (get_inner_fd masks entry.fd).isSome = true ∧ Registered masks rest :=
  List.forall_mem_cons

/-- What the entry's own step does to the table does not show at the entries behind it. -/
theorem behind_of_distinct {entry : PollFd} {others : List PollFd} {current masks : Masks}
    (distinct : entry.fd ∉ others.map PollFd.fd)
    (unchanged : ∀ other ∈ others, get_inner_fd current other.fd = get_inner_fd masks other.fd)
    (error : Option (BitVec 32)) :
    ∀ other ∈ others, get_inner_fd (Function.update current entry.fd error) other.fd =
      get_inner_fd masks other.fd := by
  intro other member
  have different : other.fd ≠ entry.fd := by
    intro same
    exact distinct (same ▸ List.mem_map_of_mem member)
  rw [get_inner_fd_update_of_ne _ different]
  exact unchanged other member

theorem isSome_arm {called current : Masks} {fds : List PollFd}
    (distinct : (fds.map PollFd.fd).Nodup)
    (unchanged : ∀ entry ∈ fds, get_inner_fd current entry.fd = get_inner_fd called entry.fd) :
    (arm fds current).isSome = true ↔ Registered called fds := by
  induction fds generalizing current with
  | nil => exact iff_of_true rfl (registered_nil called)
  | cons entry others inductionHypothesis =>
    rw [List.map_cons, List.nodup_cons] at distinct
    have own : get_inner_fd current entry.fd = get_inner_fd called entry.fd :=
      unchanged entry List.mem_cons_self
    have later : ∀ other ∈ others, get_inner_fd current other.fd = get_inner_fd called other.fd :=
      fun other member => unchanged other (List.mem_cons_of_mem _ member)
    rw [arm, own, registered_cons]
    cases found : get_inner_fd called entry.fd with
    | none => simp
    | some error =>
      dsimp only
      rw [inductionHypothesis distinct.2 (behind_of_distinct distinct.1 later _)]
      exact ⟨fun rest => ⟨rfl, rest⟩, fun both => both.2⟩

/-- One round of the loop: the entry gets its events, and is moved to the front if it has a
mask. -/
theorem collect_arranged (expired : Bool) {masks current : Masks} {entry : PollFd}
    {error : BitVec 32} (found : get_inner_fd masks entry.fd = some error)
    (own : get_inner_fd current entry.fd = get_inner_fd masks entry.fd)
    (seen others : List PollFd) :
    ∃ after, (after = current ∨ after = Function.update current entry.fd (some IETIMEOUT)) ∧
      collect expired (others.length + 1) seen.length (seen.filter (marked masks)).length
          (arranged masks seen (entry :: others)) current =
        collect expired others.length (seen ++ [answered masks entry]).length
          ((seen ++ [answered masks entry]).filter (marked masks)).length
          (arranged masks (seen ++ [answered masks entry]) others) after := by
  have mask : errorOf masks entry.fd = error := errorOf_of_get_inner_fd found
  have position : (seen ++ [answered masks entry]).length = seen.length + 1 := by
    rw [List.length_append, List.length_singleton]
  rw [collect, getElem_arranged]
  dsimp only
  rw [own, found, position]
  dsimp only
  by_cases none : error = IENONE
  · have unmarked : marked masks entry = false := by
      rw [marked, mask, none]
      rfl
    have blank : ({ entry with revents := 0 } : PollFd) = answered masks entry := by
      rw [answered, mask, none, translate_none]
    have counted : ((seen ++ [answered masks entry]).filter (marked masks)).length =
        (seen.filter (marked masks)).length := by
      rw [List.filter_append, List.filter_cons_of_neg
        (by rw [marked_answered, unmarked]; simp), List.filter_nil, List.append_nil]
    rw [if_pos none, blank, arranged_unmarked unmarked, counted]
    cases expired with
    | false => exact ⟨current, .inl rfl, rfl⟩
    | true => exact ⟨_, .inr rfl, rfl⟩
  · have isMarked : marked masks entry = true := by
      rw [marked_iff, mask]
      exact none
    have counted : ((seen ++ [answered masks entry]).filter (marked masks)).length =
        (seen.filter (marked masks)).length + 1 := by
      rw [List.filter_append, List.filter_cons_of_pos (by rw [marked_answered, isMarked]),
        List.filter_nil, List.length_append, List.length_singleton]
    have noted : ({ entry with revents := translate error } : PollFd) = answered masks entry := by
      rw [answered, mask]
    rw [if_neg none, noted, arranged_marked isMarked, counted]
    exact ⟨current, .inl rfl, rfl⟩

/-- The loop ends exactly if every descriptor has an `inner_fd`, and then it has moved the entries
with a mask to the front and counted them. The descriptors still to be looked at are distinct from
each other, so marking one does not show at another. -/
theorem collect_eq (expired : Bool) {masks current : Masks} {seen rest : List PollFd}
    (distinct : (rest.map PollFd.fd).Nodup)
    (unchanged : ∀ entry ∈ rest, get_inner_fd current entry.fd = get_inner_fd masks entry.fd) :
    (collect expired rest.length seen.length (seen.filter (marked masks)).length
        (arranged masks seen rest) current).map (fun collected => (collected.1, collected.2.2)) =
      if Registered masks rest then
        some (arranged masks (seen ++ rest.map (answered masks)) [],
          ((seen ++ rest.map (answered masks)).filter (marked masks)).length)
      else none := by
  induction rest generalizing seen current with
  | nil =>
    rw [List.map_nil, List.append_nil, if_pos (registered_nil masks)]
    rfl
  | cons entry others inductionHypothesis =>
    rw [List.map_cons, List.nodup_cons] at distinct
    have own : get_inner_fd current entry.fd = get_inner_fd masks entry.fd :=
      unchanged entry List.mem_cons_self
    have later : ∀ other ∈ others, get_inner_fd current other.fd = get_inner_fd masks other.fd :=
      fun other member => unchanged other (List.mem_cons_of_mem _ member)
    have split : seen ++ (entry :: others).map (answered masks) =
        (seen ++ [answered masks entry]) ++ others.map (answered masks) := by
      simp
    cases found : get_inner_fd masks entry.fd with
    | none =>
      have crash : ¬ Registered masks (entry :: others) := by
        rw [registered_cons, found]
        simp
      rw [if_neg crash, List.length_cons, collect, getElem_arranged]
      dsimp only
      rw [own, found]
      rfl
    | some error =>
      obtain ⟨after, marks, next⟩ := collect_arranged expired found own seen others
      have registered : Registered masks (entry :: others) ↔ Registered masks others := by
        rw [registered_cons, found]
        simp
      have same : ∀ other ∈ others, get_inner_fd after other.fd = get_inner_fd masks other.fd := by
        obtain rfl | rfl := marks
        · exact later
        · exact behind_of_distinct distinct.1 later _
      rw [List.length_cons, next, split, inductionHypothesis distinct.2 same]
      exact if_congr registered.symm rfl rfl

theorem co_poll_eq {fds : List PollFd} (distinct : (fds.map PollFd.fd).Nodup) (timeout : Int)
    (called masks : Masks) (fired : Bool) :
    co_poll fds timeout called masks fired =
      if Registered called fds ∧ Registered masks fds then
        some (arranged masks (fds.map (answered masks)) [],
          ((fds.map (answered masks)).filter (marked masks)).length)
      else none := by
  have armed : (arm fds called).isSome = true ↔ Registered called fds :=
    isSome_arm distinct fun _ _ => rfl
  have collected := @collect_eq (decide (timeout ≠ 0 ∧ timeout ≠ -1) && fired) masks masks
    [] fds distinct fun _ _ => rfl
  rw [co_poll]
  cases found : arm fds called with
  | none =>
    rw [found] at armed
    have missing : ¬ Registered called fds :=
      fun registered => absurd (armed.mpr registered) (by simp)
    rw [if_neg fun both => missing both.1]
    rfl
  | some cleared =>
    rw [found] at armed
    refine collected.trans (if_congr ?_ rfl rfl)
    exact ⟨fun registered => ⟨armed.mp rfl, registered⟩, fun both => both.2⟩

/-! ### When nothing is moved, and everything counted has an event -/

/-- Moving the elements with a property to the front changes nothing exactly when none of them
stands behind one without. -/
theorem filter_append_drop_eq_iff {Entry : Type} (property : Entry → Bool) (entries : List Entry) :
    entries.filter property ++ entries.drop (entries.filter property).length = entries ↔
      entries.Pairwise fun before behind => property behind = true → property before = true := by
  induction entries with
  | nil => simp
  | cons entry rest inductionHypothesis =>
    rw [List.pairwise_cons]
    by_cases holds : property entry = true
    · rw [List.filter_cons_of_pos holds, List.length_cons, List.drop_succ_cons, List.cons_append,
        List.cons_eq_cons, inductionHypothesis]
      exact ⟨fun both => ⟨fun _ _ _ => holds, both.2⟩, fun both => ⟨rfl, both.2⟩⟩
    · rw [List.filter_cons_of_neg holds]
      cases found : rest.filter property with
      | nil =>
        have nowhere : ∀ other ∈ rest, ¬ property other = true :=
          List.filter_eq_nil_iff.mp found
        refine iff_of_true rfl ⟨fun other member fails => absurd fails (nowhere other member), ?_⟩
        exact List.pairwise_of_forall_mem_list
          fun _ _ other member fails => absurd fails (nowhere other member)
      | cons first others =>
        have member : first ∈ rest.filter property := by
          rw [found]
          exact List.mem_cons_self
        obtain ⟨inRest, has⟩ := List.mem_filter.mp member
        refine iff_of_false (fun same => ?_) (fun both => holds (both.1 first inRest has))
        rw [List.cons_append, List.cons_eq_cons] at same
        exact holds (same.1 ▸ has)

/-- Fewer elements have a property than another that follows from it, unless they are the same
elements. -/
theorem countP_eq_countP_iff {Entry : Type} {property weaker : Entry → Bool}
    (follows : ∀ entry, property entry = true → weaker entry = true) (entries : List Entry) :
    entries.countP weaker = entries.countP property ↔
      ∀ entry ∈ entries, weaker entry = true → property entry = true := by
  induction entries with
  | nil => simp
  | cons entry rest inductionHypothesis =>
    have fewer : rest.countP property ≤ rest.countP weaker :=
      List.countP_mono_left fun other _ => follows other
    rw [List.forall_mem_cons, ← inductionHypothesis]
    by_cases holds : property entry = true
    · rw [List.countP_cons_of_pos holds, List.countP_cons_of_pos (follows entry holds)]
      exact ⟨fun same => ⟨fun _ => holds, by omega⟩, fun both => by omega⟩
    · rw [List.countP_cons_of_neg holds]
      by_cases weak : weaker entry = true
      · rw [List.countP_cons_of_pos weak]
        exact ⟨fun same => by omega, fun both => absurd (both.1 weak) holds⟩
      · rw [List.countP_cons_of_neg weak]
        exact ⟨fun same => ⟨fun has => absurd has weak, same⟩, fun both => both.2⟩

/-- `co_poll` keeps the contract of `poll` exactly when every entry has an `inner_fd`, at the call
and when the task is resumed, no descriptor without a mask stands before one with a mask, and every
mask stands for an event. -/
theorem co_poll_contract_iff {fds : List PollFd} (distinct : (fds.map PollFd.fd).Nodup)
    (timeout : Int) (called masks : Masks) (fired : Bool) :
    (∃ result, co_poll fds timeout called masks fired = some result ∧ Contract fds masks result) ↔
      Registered called fds ∧ Registered masks fds ∧
        (fds.Pairwise fun before behind =>
          errorOf masks behind.fd ≠ IENONE → errorOf masks before.fd ≠ IENONE) ∧
        ∀ entry ∈ fds, errorOf masks entry.fd ≠ IENONE →
          translate (errorOf masks entry.fd) ≠ 0 := by
  have moved_iff : arranged masks (fds.map (answered masks)) [] = fds.map (answered masks) ↔
      fds.Pairwise fun before behind =>
        errorOf masks behind.fd ≠ IENONE → errorOf masks before.fd ≠ IENONE := by
    rw [arranged, List.append_nil, filter_append_drop_eq_iff, List.pairwise_map]
    simp only [marked_answered, marked_iff]
  have evented : ∀ entry : PollFd,
      ((fun entry => decide (entry.revents ≠ 0)) ∘ answered masks) entry = true →
        (marked masks ∘ answered masks) entry = true := by
    intro entry nonzero
    refine decide_eq_true fun none => of_decide_eq_true nonzero ?_
    exact (congrArg translate none).trans translate_none
  have counted_iff : ((fds.map (answered masks)).filter (marked masks)).length =
        (fds.map (answered masks)).countP (fun entry => entry.revents ≠ 0) ↔
      ∀ entry ∈ fds, errorOf masks entry.fd ≠ IENONE →
        translate (errorOf masks entry.fd) ≠ 0 := by
    rw [← List.countP_eq_length_filter, List.countP_map, List.countP_map,
      countP_eq_countP_iff evented]
    simp only [Function.comp_apply, marked_answered, marked_iff, decide_eq_true_eq]
    exact Iff.rfl
  rw [co_poll_eq distinct]
  constructor
  · rintro ⟨result, returned, entries, count, -⟩
    by_cases registered : Registered called fds ∧ Registered masks fds
    · rw [if_pos registered, Option.some_inj] at returned
      subst returned
      refine ⟨registered.1, registered.2, moved_iff.mp entries, counted_iff.mp ?_⟩
      dsimp only at entries count
      rw [entries] at count
      exact count
    · rw [if_neg registered] at returned
      cases returned
  · rintro ⟨atCall, atResume, inFront, translated⟩
    have entries := moved_iff.mpr inFront
    refine ⟨_, if_pos ⟨atCall, atResume⟩, entries, ?_, ?_⟩
    · show _ = List.countP _ (arranged masks (fds.map (answered masks)) [])
      rw [entries]
      exact counted_iff.mpr translated
    · intro timeouts
      show ((fds.map (answered masks)).filter (marked masks)).length = 0
      rw [List.length_eq_zero_iff, List.filter_eq_nil_iff, List.forall_mem_map]
      intro entry member isMarked
      have some : errorOf masks entry.fd ≠ IENONE := of_decide_eq_true isMarked
      obtain none | expired := timeouts entry member
      · exact some none
      · refine translated entry member some ?_
        rw [expired, translate_timeout]

/-- Two descriptors of which the first is readable. -/
theorem co_poll_contract_of_first_readable :
    ∃ result, co_poll [⟨3, EPOLLIN, 0⟩, ⟨4, EPOLLIN, 0⟩] 1000 (fun _ => some IENONE)
        (fun fd => some (if fd = 3 then IEREAD else IENONE)) false = some result ∧
      Contract [⟨3, EPOLLIN, 0⟩, ⟨4, EPOLLIN, 0⟩]
        (fun fd => some (if fd = 3 then IEREAD else IENONE)) result :=
  (co_poll_contract_iff (by decide) 1000 _ _ false).mpr
    ⟨by decide, by decide, by decide, by decide⟩

/-- Two descriptors of which the second is readable: its entry is copied over that of the first.
A descriptor whose wait timed out is counted, without an event. And an entry that is to be left
out ends the process. -/
theorem co_poll_breaks_contract :
    (co_poll [⟨3, EPOLLIN, 0⟩, ⟨4, EPOLLIN, 0⟩] 1000 (fun _ => some IENONE)
          (fun fd => some (if fd = 4 then IEREAD else IENONE)) false =
        some ([⟨4, EPOLLIN, EPOLLIN⟩, ⟨4, EPOLLIN, EPOLLIN⟩], 1) ∧
      ¬ Contract [⟨3, EPOLLIN, 0⟩, ⟨4, EPOLLIN, 0⟩]
        (fun fd => some (if fd = 4 then IEREAD else IENONE))
        ([⟨4, EPOLLIN, EPOLLIN⟩, ⟨4, EPOLLIN, EPOLLIN⟩], 1)) ∧
    (co_poll [⟨3, EPOLLIN, 0⟩] (-1) (fun _ => some IENONE) (fun _ => some IETIMEOUT) false =
        some ([⟨3, EPOLLIN, 0⟩], 1) ∧
      ¬ Contract [⟨3, EPOLLIN, 0⟩] (fun _ => some IETIMEOUT) ([⟨3, EPOLLIN, 0⟩], 1)) ∧
    co_poll [⟨-1, EPOLLIN, 0⟩] 1000 (fun _ => some IENONE) (fun _ => some IENONE) false = none := by
  refine ⟨⟨by decide +kernel, fun contract => ?_⟩, ⟨by decide +kernel, fun contract => ?_⟩,
    by decide +kernel⟩
  · exact absurd contract.entries (by decide)
  · exact absurd contract.count (by decide)

end CoPoll

end Nattan
