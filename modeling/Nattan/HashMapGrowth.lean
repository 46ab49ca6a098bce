/-
This file proves that growing a `hash_map_t` changes no answer as long as its capacity,
doubled, is an `int`.

Whatever calls a map has been through, it is well formed: its capacity is a power of two and the
size of its table, every node is in the bucket of its key, and the counts are those of the lists.
Where the capacity is below 2^30 `hash_map_resize` keeps that and what `hash_map_get` gives
for every key. The capacity of 2^30 is reached, by as many keys as that, and there
`hash_map_resize` shifts it beyond an `int`.
-/

import Mathlib.Algebra.GroupWithZero.Nat
import Nattan.HashMapBuckets
import Nattan.Transition

namespace Nattan

namespace HashMap

def step (map : HashMap) (operation : Operation) : Option HashMap :=
  (map.perform operation).map Prod.fst

/-- The maps that come of calls on a map that was initialised. -/
def Reached (map : HashMap) : Prop :=
  ∃ start, hash_map_init = some start ∧ Reachable step start map

/-- The lists of the heads are as the fields of the map say. -/
structure WellFormed (map : HashMap) (contents : Nat → List Nat) : Prop where
  rings : Rings map.links contents
  power : ∃ exponent, map.capcity = 2 ^ exponent
  size : map.table.array_size = map.capcity
  heads : ∀ i < map.capcity, map.headAt i = some i
  buckets : ∀ i, ∀ node ∈ contents i,
    i < map.capcity ∧ bucketOf map.capcity (map.key node) = i
  counts : ∀ i < map.capcity, map.headCount i = (contents i).length
  count : map.count = ((List.range map.capcity).map map.headCount).sum

/-- A resize has a result that is well formed, and gives every key the same answer. -/
def ResizeKeeps (map : HashMap) : Prop :=
  ∃ after contents, map.hash_map_resize = some after ∧ after.WellFormed contents ∧
    ∀ keyname, ∃ answer, map.hash_map_get keyname = some answer ∧
      after.hash_map_get keyname = some answer

/-! ### Well-formed maps -/

/-- The lengths of the first buckets. -/
theorem sum_buckets (order : List Nat) (place : Nat → Nat) (size : Nat) :
    ((List.range size).map fun i => (order.filter fun node => place node = i).length).sum =
      (order.filter fun node => place node < size).length := by
  induction size with
  | zero =>
    have none_ : (order.filter fun node => place node < 0) = [] :=
      List.filter_eq_nil_iff.mpr fun _ _ impossible =>
        Nat.not_lt_zero _ (of_decide_eq_true impossible)
    rw [none_]
    rfl
  | succ size inductionHypothesis =>
    rw [List.range_succ, List.map_append, List.sum_append, inductionHypothesis, List.map_singleton,
      List.sum_singleton]
    clear inductionHypothesis
    induction order with
    | nil => rfl
    | cons node rest inductionHypothesis =>
      simp only [List.filter_cons, decide_eq_true_eq]
      split
      · rw [if_neg (by omega), if_pos (by omega), List.length_cons, List.length_cons]
        omega
      · split
        · rw [if_pos (by omega), List.length_cons, List.length_cons]
          omega
        · rw [if_neg (by omega)]
          exact inductionHypothesis

section Reach

variable {map : HashMap} {order : List Nat}

theorem Holds.wellFormed (holds : map.Holds order) :
    map.WellFormed fun i => order.filter fun node => bucket map.capcity (map.key node) = i where
  rings := holds.rings
  power := by
    obtain ⟨exponent, _, _, same⟩ := holds.power
    exact ⟨exponent, same⟩
  size := by
    rw [CArray.array_size, holds.table, List.length_map, List.length_range]
  heads := fun _ inside => holds.headAt_eq inside
  buckets := fun i node member => by
    have own := of_decide_eq_true (List.mem_filter.mp member).2
    rw [holds.bucketOf_eq, own]
    exact ⟨own ▸ bucket_lt holds.positive _, rfl⟩
  counts := holds.headCount
  count := by
    have same : (List.range map.capcity).map map.headCount = (List.range map.capcity).map fun i =>
        (order.filter fun node => bucket map.capcity (map.key node) = i).length :=
      List.map_congr_left fun i member => holds.headCount i (List.mem_range.mp member)
    have all : (order.filter fun node => bucket map.capcity (map.key node) < map.capcity) = order :=
      List.filter_eq_self.mpr fun node _ => decide_eq_true (bucket_lt holds.positive _)
    rw [same, sum_buckets order (fun node => bucket map.capcity (map.key node)), all, holds.count]

/-- Every call keeps what holds of a map. -/
theorem Holds.step (holds : map.Holds order) {operation : Operation} {after : HashMap}
    (stepped : map.step operation = some after) : ∃ order, after.Holds order := by
  unfold HashMap.step at stepped
  cases operation with
  | hash_map_put keyname value =>
    cases hit : order.find? (map.found keyname) with
    | some node =>
      rw [perform, holds.put_found value hit] at stepped
      exact ⟨order, Option.some.inj stepped ▸ holds.set_value _⟩
    | none =>
      by_cases succeeds : keyname.strlen < 1024 ∧ (map.full = true → map.capcity < 2 ^ 30)
      · obtain ⟨next, puts, held, _⟩ := holds.put_new value hit succeeds.1 succeeds.2
        rw [perform, puts] at stepped
        have same : next = after := Option.some.inj stepped
        exact ⟨_, same ▸ held⟩
      · rw [perform, holds.put_fails value hit succeeds] at stepped
        cases stepped
  | hash_map_get keyname =>
    rw [perform, holds.get] at stepped
    exact ⟨order, Option.some.inj stepped ▸ holds⟩
  | hash_map_del keyname =>
    obtain ⟨result, deletes, ⟨_, same⟩ | ⟨node, h, _, same, removed⟩⟩ := holds.del keyname
    · rw [perform, deletes, same] at stepped
      exact ⟨order, Option.some.inj stepped ▸ holds⟩
    · rw [perform, deletes, same] at stepped
      have left : map.remove h node = after := Option.some.inj stepped
      exact ⟨_, left ▸ removed⟩
  | hash_map_clear =>
    obtain ⟨next, clears, held⟩ := holds.clear
    rw [perform, clears] at stepped
    have same : next = after := Option.some.inj stepped
    exact ⟨_, same ▸ held⟩

theorem Reached.holds (reached : map.Reached) : ∃ order, map.Holds order := by
  obtain ⟨start, inits, reached⟩ := reached
  obtain ⟨begun, begins, held⟩ := hash_map_init_holds
  obtain rfl := Option.some.inj (inits.symm.trans begins)
  exact reached.invariant (fun (map : HashMap) => ∃ order, map.Holds order) ⟨[], held⟩
    fun _ _ _ ⟨_, holds⟩ stepped => holds.step stepped

/-- A map has grown to the same nodes, and gives the same answers. -/
theorem Holds.resizeKeeps (holds : map.Holds order) (small : map.capcity < 2 ^ 30) :
    map.ResizeKeeps := by
  obtain ⟨table, heads, links, headCount, resizes, grown⟩ := holds.resize small
  exact ⟨_, _, resizes, grown.wellFormed, fun keyname => ⟨_, holds.get keyname, grown.get keyname⟩⟩

/-- In every map that is reached the lists are as they should be, and a resize keeps that and
all answers exactly where the capacity is below 2^30. -/
theorem resize_keeps_iff (reached : map.Reached) :
    (∃ contents, map.WellFormed contents) ∧ (map.ResizeKeeps ↔ map.capcity < 2 ^ 30) := by
  obtain ⟨order, holds⟩ := reached.holds
  refine ⟨⟨_, holds.wellFormed⟩, fun keeps => ?_, holds.resizeKeeps⟩
  by_contra large
  have atMost := holds.capcity_le
  obtain ⟨after, _, resizes, _⟩ := keeps
  cases (hash_map_resize_full (Nat.le_antisymm atMost (Nat.le_of_not_lt large))).symm.trans resizes

end Reach

/-- A map with one key. -/
theorem resize_keeps_iff_one :
    ∃ map : HashMap, map.count = 1 ∧ (∃ contents, map.WellFormed contents) ∧
      (map.ResizeKeeps ↔ map.capcity < 2 ^ 30) := by
  obtain ⟨start, inits⟩ : ∃ start, hash_map_init = some start :=
    ⟨Option.get _ (by decide +kernel), (Option.some_get _).symm⟩
  have executed : ∃ map, (hash_map_init.bind fun start =>
      run step start [.hash_map_put ⟨[97], by decide⟩ [1]]) = some map ∧ map.count = 1 :=
    ⟨Option.get _ (by decide +kernel), (Option.some_get _).symm, by decide +kernel⟩
  obtain ⟨map, executed, count⟩ := executed
  rw [inits] at executed
  exact ⟨map, count, resize_keeps_iff ⟨start, inits, reachable_of_run executed⟩⟩

/-! ### The capacity of 2^30 -/

/-- A name of 64 characters for every number below 2^64. -/
def nameOf (number : Nat) : CString where
  chars := (List.range 64).map fun i => if number.testBit i then 2 else 1
  noNull := by
    intro null
    obtain ⟨i, _, same⟩ := List.mem_map.mp null
    split at same
    · cases same
    · cases same

theorem strlen_nameOf (number : Nat) : (nameOf number).strlen = 64 := by
  rw [CString.strlen, nameOf, List.length_map, List.length_range]

theorem nameOf_injective {first second : Nat} (small : first < 2 ^ 64) (small' : second < 2 ^ 64)
    (same : (nameOf first).chars = (nameOf second).chars) : first = second := by
  refine Nat.eq_of_testBit_eq fun i => ?_
  by_cases inside : i < 64
  · unfold nameOf at same
    dsimp only at same
    have equal := List.map_inj_left.mp same i (List.mem_range.mpr inside)
    cases bit : first.testBit i with
    | true =>
      cases bit' : second.testBit i with
      | true => rfl
      | false =>
        rw [bit, bit'] at equal
        cases equal
    | false =>
      cases bit' : second.testBit i with
      | true =>
        rw [bit, bit'] at equal
        cases equal
      | false => rfl
  · have power : 2 ^ 64 ≤ 2 ^ i := Nat.pow_le_pow_right (by decide) (Nat.le_of_not_lt inside)
    rw [Nat.testBit_lt_two_pow (Nat.lt_of_lt_of_le small power),
      Nat.testBit_lt_two_pow (Nat.lt_of_lt_of_le small' power)]

/-- A name that was not put in is not found. -/
theorem find_nameOf {map : HashMap} {order : List Nat} {number : Nat} (small : number < 2 ^ 64)
    (names : order.map map.keyname = (List.range number).map nameOf) :
    order.find? (map.found (nameOf number)) = none := by
  refine List.find?_eq_none.mpr fun node member hit => ?_
  have short : (nameOf number).strlen < 1024 := by
    rw [strlen_nameOf]
    decide
  have listed : map.keyname node ∈ (List.range number).map nameOf := by
    rw [← names]
    exact List.mem_map_of_mem member
  obtain ⟨other, inRange, same⟩ := List.mem_map.mp listed
  have below := List.mem_range.mp inRange
  have begins := ((found_iff short).mp hit).2
  rw [← same] at begins
  have length : (nameOf number).chars.length = (nameOf other).chars.length :=
    (strlen_nameOf number).trans (strlen_nameOf other).symm
  have equal := nameOf_injective small (Nat.lt_trans below small) (begins.eq_of_length length)
  omega

/-- With 2^30 keys and more a map that has not grown to that is full. -/
theorem Holds.full_of_large {map : HashMap} {order : List Nat} (holds : map.Holds order)
    (many : 2 ^ 30 ≤ order.length) (small : map.capcity < 2 ^ 30) : map.full = true := by
  obtain ⟨exponent, _, room, power⟩ := holds.power_lt small
  have half : map.capcity ≤ 2 ^ 29 := by
    rw [power]
    exact Nat.pow_le_pow_right (by decide) (Nat.le_of_lt_succ room)
  have rounded := le_floatOf map.count
  rw [holds.count] at rounded
  refine decide_eq_true ?_
  rw [holds.count]
  omega

/-- As many keys as are put in. Beyond 2^30 keys every one of them makes the map grow, unless it
already has. -/
theorem reached_names {number : Nat} (small : number < 2 ^ 64) :
    ∃ map order, Reached map ∧ map.Holds order ∧
      (map.capcity = 2 ^ 30 ∨
        order.map map.keyname = (List.range number).map nameOf ∧
          2 ^ (number - 2 ^ 30) ≤ map.capcity) := by
  induction number with
  | zero =>
    obtain ⟨start, inits, holds⟩ := hash_map_init_holds
    refine ⟨start, [], ⟨start, inits, .refl⟩, holds, .inr ⟨rfl, holds.positive⟩⟩
  | succ number inductionHypothesis =>
    obtain ⟨map, order, reached, holds, large | ⟨names, grown⟩⟩ :=
      inductionHypothesis (Nat.lt_of_succ_lt small)
    · exact ⟨map, order, reached, holds, .inl large⟩
    · by_cases large : map.capcity = 2 ^ 30
      · exact ⟨map, order, reached, holds, .inl large⟩
      · have below : map.capcity < 2 ^ 30 := Nat.lt_of_le_of_ne holds.capcity_le large
        have short : (nameOf number).strlen < 1024 := by
          rw [strlen_nameOf]
          decide
        obtain ⟨after, puts, held, keyname, _, capcity⟩ := holds.put_new []
          (find_nameOf (Nat.lt_of_succ_lt small) names) short fun _ => below
        obtain ⟨start, inits, reached⟩ := reached
        have stepped : map.step (.hash_map_put (nameOf number) []) = some after := by
          rw [HashMap.step, perform, puts]
          rfl
        have length : order.length = number := by
          have same := congrArg List.length names
          rw [List.length_map, List.length_map, List.length_range] at same
          exact same
        have old : order.map after.keyname = order.map map.keyname := by
          refine List.map_congr_left fun node member => ?_
          rw [keyname, Function.update_of_ne (Nat.ne_of_lt (holds.allocated node member))]
        refine ⟨after, _, ⟨start, inits, reached.tail ⟨_, trivial, stepped⟩⟩, held, .inr ⟨?_, ?_⟩⟩
        · rw [List.map_append, old, names, List.range_succ, List.map_append, List.map_singleton,
            List.map_singleton, keyname, Function.update_self]
        · by_cases few : number < 2 ^ 30
          · have first : number + 1 - 2 ^ 30 = 0 := by omega
            rw [first]
            exact held.positive
          · have full := holds.full_of_large (by omega) below
            have next : number + 1 - 2 ^ 30 = number - 2 ^ 30 + 1 := by omega
            rw [capcity, if_pos full, next, Nat.pow_succ, Nat.mul_comm]
            exact Nat.mul_le_mul_left 2 grown

/-- A map of the capacity 2^30 is reached, and cannot be resized. -/
theorem not_resize_keeps : ∃ map : HashMap, map.Reached ∧ ¬ map.ResizeKeeps := by
  obtain ⟨number, many⟩ : ∃ number, number = 2 ^ 30 + 30 := ⟨_, rfl⟩
  have small : number < 2 ^ 64 := by omega
  obtain ⟨map, order, reached, holds, grown⟩ := reached_names small
  have large : map.capcity = 2 ^ 30 := by
    rcases grown with large | ⟨_, grown⟩
    · exact large
    · have last : number - 2 ^ 30 = 30 := by omega
      rw [last] at grown
      exact Nat.le_antisymm holds.capcity_le grown
  refine ⟨map, reached, fun keeps => ?_⟩
  obtain ⟨after, _, resizes, _⟩ := keeps
  cases (hash_map_resize_full large).symm.trans resizes

end HashMap

end Nattan
