/-
This file gives the functions of `hash_map_t` their specification on one list of nodes: those
that are in the map, in the order they were put in.

The list of a bucket is what of the order belongs to it, so that finding a node in its
bucket is finding it in the order. An insertion appends to the order, a removal erases from
it. When the map grows every node of a bucket stays or goes to the bucket as much further
on as there were buckets: while the buckets are walked one after the other, a node is
where its old bucket says as long as that was not walked, and then where its new one
says. The order never changes, and with it no answer.
-/

import Mathlib.Algebra.Group.Nat.Defs
import Mathlib.Data.List.Perm.Subperm
import Nattan.HashMap

namespace Nattan

/-! ### Finding a node -/

/-- The nodes behind one are looked through in their order. -/
theorem HashMap.findLoop_eq {links : Links (Node Nat Nat)} {head turns : Nat}
    {found : Nat → Bool} {first : Node Nat Nat} {rest : List Nat}
    (linked : links.Linked first (rest.map .elem) (.head head)) (enough : rest.length < turns) :
    findLoop links head found turns (links.list_next first) = some (rest.find? found) := by
  induction rest generalizing first turns with
  | nil =>
    obtain ⟨turns, rfl⟩ := Nat.exists_eq_add_one_of_ne_zero (Nat.ne_of_gt enough)
    rw [Links.list_next, linked.1, findLoop, if_pos rfl]
    rfl
  | cons node rest inductionHypothesis =>
    obtain ⟨turns, rfl⟩ :=
      Nat.exists_eq_add_one_of_ne_zero (Nat.ne_of_gt (Nat.zero_lt_of_lt enough))
    obtain ⟨next, _, behind⟩ := linked
    rw [Links.list_next, next, findLoop, if_neg (fun impossible => by cases impossible),
      List.find?_cons]
    cases found node with
    | true => rfl
    | false => exact inductionHypothesis behind (Nat.lt_of_succ_lt_succ enough)

namespace HashMap

/-- The bucket of a key, in a map of so many buckets. -/
def bucket (capcity : Nat) (key : BitVec 32) : Nat :=
  key.toNat % capcity

theorem bucket_lt {capcity : Nat} (positive : 0 < capcity) (key : BitVec 32) :
    bucket capcity key < capcity :=
  Nat.mod_lt _ positive

/-- The sign of a key does not bear on its bucket. -/
theorem bucketOf_eq {exponent : Nat} (small : exponent ≤ 31) (key : BitVec 32) :
    bucketOf (2 ^ exponent) key = bucket (2 ^ exponent) key := by
  have positive : 0 < 2 ^ exponent := Nat.two_pow_pos exponent
  have atMost : 2 ^ exponent ≤ 2 ^ 31 := Nat.pow_le_pow_right (by decide) small
  have mask : (BitVec.ofNat 64 (2 ^ exponent - 1)).toNat = 2 ^ exponent - 1 := by
    rw [BitVec.toNat_ofNat]
    exact Nat.mod_eq_of_lt (by omega)
  have divides : 2 ^ exponent ∣ 2 ^ 32 := Nat.pow_dvd_pow 2 (by omega)
  have signed : (key.signExtend 64).toNat % 2 ^ exponent = key.toNat % 2 ^ exponent := by
    rw [BitVec.toNat_signExtend, BitVec.toNat_setWidth,
      Nat.mod_eq_of_lt (Nat.lt_trans key.isLt (by decide))]
    split
    · have high : 2 ^ 64 - 2 ^ 32 = 2 ^ 32 * (2 ^ 32 - 1) := by decide
      rw [high, Nat.add_mod, Nat.mod_eq_zero_of_dvd (Nat.dvd_mul_right_of_dvd divides _),
        Nat.add_zero, Nat.mod_mod]
    · rfl
  have below : key.toNat % 2 ^ exponent < 2 ^ exponent := Nat.mod_lt _ positive
  unfold bucketOf bucket
  rw [decrement_eq positive, BitVec.toNat_and, mask, Nat.and_two_pow_sub_one_eq_mod, signed]
  exact intOf_of_lt (by omega) (by omega)

/-- The table holds the heads in their order. -/
theorem headAt_eq {map : HashMap} {size i : Nat}
    (table : map.table.cells = (List.range size).map some) (inside : i < size)
    (small : size ≤ 2 ^ 31) : map.headAt i = some i := by
  have index : ((i : Int) % 2 ^ 64).toNat = i := by omega
  rw [headAt, index, CArray.array_get_eq, table, List.getElem?_map, List.getElem?_range inside]
  rfl

/-- What holds of a map between two calls. Its nodes are those of `order`, in the order they were
put in. -/
structure Holds (map : HashMap) (order : List Nat) : Prop where
  power : ∃ exponent, 4 ≤ exponent ∧ exponent ≤ 30 ∧ map.capcity = 2 ^ exponent
  table : map.table.cells = (List.range map.capcity).map some
  heads : map.heads = map.capcity
  rings : Rings map.links fun h => order.filter fun node => bucket map.capcity (map.key node) = h
  nodup : order.Nodup
  allocated : ∀ node ∈ order, node < map.nodes
  named : ∀ node ∈ order, map.key node = string_hash (map.keyname node)
  headCount : ∀ h < map.capcity, map.headCount h =
    (order.filter fun node => bucket map.capcity (map.key node) = h).length
  count : map.count = order.length
  few : order.length ≤ 2 * map.capcity

/-- Nodes that were allocated are no more than the nodes allocated. -/
theorem length_le_of_allocated {order : List Nat} {nodes : Nat} (nodup : order.Nodup)
    (allocated : ∀ node ∈ order, node < nodes) : order.length ≤ nodes := by
  have inRange : order ⊆ List.range nodes := fun node member =>
    List.mem_range.mpr (allocated node member)
  exact Nat.le_trans (nodup.subperm inRange).length_le (Nat.le_of_eq List.length_range)

section Find

variable {map : HashMap} {order : List Nat}

theorem Holds.positive (holds : map.Holds order) : 0 < map.capcity := by
  obtain ⟨exponent, _, _, same⟩ := holds.power
  rw [same]
  exact Nat.two_pow_pos exponent

theorem Holds.capcity_le (holds : map.Holds order) : map.capcity ≤ 2 ^ 30 := by
  obtain ⟨exponent, _, small, same⟩ := holds.power
  rw [same]
  exact Nat.pow_le_pow_right (by decide) small

/-- A capacity below 2^30 is a lower power of two. -/
theorem Holds.power_lt (holds : map.Holds order) (small : map.capcity < 2 ^ 30) :
    ∃ exponent, 4 ≤ exponent ∧ exponent < 30 ∧ map.capcity = 2 ^ exponent := by
  obtain ⟨exponent, low, _, power⟩ := holds.power
  refine ⟨exponent, low, ?_, power⟩
  by_contra high
  have atLeast : 2 ^ 30 ≤ 2 ^ exponent :=
    Nat.pow_le_pow_right (by decide) (Nat.le_of_not_lt high)
  omega

theorem Holds.bucketOf_eq (holds : map.Holds order) (key : BitVec 32) :
    bucketOf map.capcity key = bucket map.capcity key := by
  obtain ⟨exponent, _, small, same⟩ := holds.power
  rw [same]
  exact HashMap.bucketOf_eq (Nat.le_succ_of_le small) key

theorem Holds.headAt_eq (holds : map.Holds order) {i : Nat} (inside : i < map.capcity) :
    map.headAt i = some i :=
  HashMap.headAt_eq holds.table inside (Nat.le_trans holds.capcity_le (by decide))

theorem Holds.length_filter_le (holds : map.Holds order) (p : Nat → Bool) :
    (order.filter p).length ≤ map.nodes :=
  Nat.le_trans (List.length_filter_le p order) (length_le_of_allocated holds.nodup holds.allocated)

theorem found_key {keyname : CString} {node : Nat} (hit : map.found keyname node = true) :
    map.key node = string_hash keyname :=
  (of_decide_eq_true hit).1.symm

/-- What is found in the bucket of a key is what is found first among all nodes. -/
theorem Holds.find_eq (holds : map.Holds order) (keyname : CString) :
    map.find keyname =
      some (bucket map.capcity (string_hash keyname), order.find? (map.found keyname)) := by
  have inside := bucket_lt holds.positive (string_hash keyname)
  have enough := Nat.lt_succ_of_le (holds.length_filter_le fun node =>
    bucket map.capcity (map.key node) = bucket map.capcity (string_hash keyname))
  have own : (fun node => decide (decide (bucket map.capcity (map.key node) =
      bucket map.capcity (string_hash keyname)) = true ∧ map.found keyname node = true)) =
        map.found keyname := by
    funext node
    cases hit : map.found keyname node with
    | true => exact decide_eq_true ⟨decide_eq_true (by rw [found_key hit]), rfl⟩
    | false => exact decide_eq_false fun both => Bool.noConfusion both.2
  rw [find, holds.bucketOf_eq, holds.headAt_eq inside, Option.bind_some,
    findLoop_eq (holds.rings.linked _) enough, Option.map_some, List.find?_filter, own]

end Find

/-! ### Taking out and putting in -/

section Single

variable {map : HashMap} {order : List Nat}

theorem Holds.length_le (holds : map.Holds order) : order.length ≤ 2 ^ 31 :=
  Nat.le_trans holds.few (Nat.mul_le_mul_left 2 holds.capcity_le)

/-- A value may be replaced. -/
theorem Holds.set_value (holds : map.Holds order) (value : Nat → List UInt8) :
    Holds { map with value := value } order :=
  ⟨holds.power, holds.table, holds.heads, holds.rings, holds.nodup, holds.allocated, holds.named,
    holds.headCount, holds.count, holds.few⟩

theorem Holds.remove (holds : map.Holds order) {node : Nat} (member : node ∈ order) :
    (map.remove (bucket map.capcity (map.key node)) node).Holds (order.erase node) := by
  have positive : 0 < order.length := List.length_pos_of_mem member
  refine ⟨holds.power, holds.table, holds.heads, ?_, holds.nodup.erase node, ?_, ?_, ?_, ?_, ?_⟩
  · have rings := holds.rings.list_delete node
    simp only [List.erase_filter] at rings
    exact rings
  · exact fun other inside => holds.allocated other (List.mem_of_mem_erase inside)
  · exact fun other inside => holds.named other (List.mem_of_mem_erase inside)
  · intro h inside
    show Function.update map.headCount _ _ h =
      ((order.erase node).filter fun node => bucket map.capcity (map.key node) = h).length
    rw [← List.erase_filter]
    by_cases own : h = bucket map.capcity (map.key node)
    · have here : node ∈ order.filter fun node => bucket map.capcity (map.key node) = h :=
        List.mem_filter.mpr ⟨member, decide_eq_true own.symm⟩
      have some_ := List.length_pos_of_mem here
      rw [List.length_erase_of_mem here, own, Function.update_self, ← own,
        holds.headCount h inside, decrement_eq some_]
    · have away : node ∉ order.filter fun node => bucket map.capcity (map.key node) = h :=
        fun here => own (of_decide_eq_true (List.mem_filter.mp here).2).symm
      rw [List.erase_of_not_mem away, Function.update_of_ne own]
      exact holds.headCount h inside
  · show decrement map.count = _
    rw [List.length_erase_of_mem member, holds.count, decrement_eq positive]
  · exact Nat.le_trans (List.length_erase_le) holds.few

/-- The buckets with one more node. -/
theorem filter_append_bucket {capcity node : Nat} {before after : Nat → BitVec 32}
    (kept : ∀ other ∈ order, after other = before other) (h : Nat) :
    ((order ++ [node]).filter fun node => bucket capcity (after node) = h) =
      appended (fun h => order.filter fun node => bucket capcity (before node) = h)
        (bucket capcity (after node)) node h := by
  have old : (order.filter fun node => bucket capcity (after node) = h) =
      order.filter fun node => bucket capcity (before node) = h :=
    List.filter_congr fun other inside => by rw [kept other inside]
  rw [List.filter_append, old, appended]
  by_cases own : h = bucket capcity (after node)
  · rw [own, Function.update_self, List.filter_singleton, decide_eq_true rfl]
    rfl
  · rw [Function.update_of_ne own, List.filter_singleton,
      decide_eq_false fun same => own same.symm]
    exact List.append_nil _

/-- A key is put in at the end of its bucket. -/
theorem Holds.insert (holds : map.Holds order) {keyname : CString} (value : List UInt8)
    (fits : keyname.strlen < 1024) (room : order.length < 2 * map.capcity) :
    ∃ after, map.insert (bucket map.capcity (string_hash keyname)) keyname value = some after ∧
      after.Holds (order ++ [map.nodes]) ∧
      after.keyname = Function.update map.keyname map.nodes keyname ∧
      after.value = Function.update map.value map.nodes value ∧ after.capcity = map.capcity := by
  have long := holds.length_le
  have fresh : map.nodes ∉ order := fun inside => Nat.lt_irrefl _ (holds.allocated _ inside)
  have other : ∀ node ∈ order, node ≠ map.nodes := fun node inside same => fresh (same ▸ inside)
  obtain ⟨key, key_eq⟩ : ∃ key, key = Function.update (Function.update map.key map.nodes (-1))
    map.nodes (string_hash keyname) := ⟨_, rfl⟩
  have keySelf : key map.nodes = string_hash keyname := by
    rw [key_eq, Function.update_self]
  have keyOther : ∀ node ∈ order, key node = map.key node := by
    intro node inside
    rw [key_eq, Function.update_of_ne (other node inside),
      Function.update_of_ne (other node inside)]
  have buckets := @filter_append_bucket order map.capcity map.nodes map.key key keyOther
  rw [keySelf] at buckets
  have absent : ∀ h, map.nodes ∉ order.filter fun node => bucket map.capcity (map.key node) = h :=
    fun h inside => fresh (List.mem_filter.mp inside).1
  have rings : Rings ((map.links.list_init (.elem map.nodes)).list_add_before
      (.head (bucket map.capcity (string_hash keyname))) (.elem map.nodes))
      fun h => (order ++ [map.nodes]).filter fun node => bucket map.capcity (key node) = h := by
    rw [funext buckets]
    exact (holds.rings.list_init absent).list_add_before absent
  refine ⟨_, if_neg (Nat.not_le_of_lt fits), ?_, rfl, Function.update_idem .., rfl⟩
  rw [alloc_map_node]
  dsimp only
  rw [← key_eq]
  have each : ∀ {p : Nat → Prop}, (∀ node ∈ order, p node) → p map.nodes →
      ∀ node ∈ order ++ [map.nodes], p node := by
    intro p before last node inside
    rcases List.mem_append.mp inside with old | new
    · exact before node old
    · exact List.mem_singleton.mp new ▸ last
  refine ⟨holds.power, holds.table, holds.heads, rings, ?_, each ?_ ?_, each ?_ ?_, ?_, ?_, ?_⟩
  · refine List.nodup_append.mpr ⟨holds.nodup, List.nodup_singleton _, ?_⟩
    exact fun node inside last own => List.mem_singleton.mp own ▸ other node inside
  · exact fun node inside => Nat.lt_succ_of_lt (holds.allocated node inside)
  · exact Nat.lt_succ_self _
  · intro node inside
    show key node = string_hash (Function.update map.keyname map.nodes keyname node)
    rw [keyOther node inside, Function.update_of_ne (other node inside)]
    exact holds.named node inside
  · show key map.nodes = string_hash (Function.update map.keyname map.nodes keyname map.nodes)
    rw [keySelf, Function.update_self]
  · intro h inside
    dsimp only at inside ⊢
    rw [buckets h, appended]
    by_cases own : h = bucket map.capcity (string_hash keyname)
    · have few := List.length_filter_le
        (fun node => decide (bucket map.capcity (map.key node) = h)) order
      rw [own, Function.update_self, Function.update_self, List.length_append, ← own,
        holds.headCount h inside, increment_eq (by omega), List.length_singleton]
    · rw [Function.update_of_ne own, Function.update_of_ne own]
      exact holds.headCount h inside
  · show increment map.count = _
    rw [holds.count, increment_eq (by omega), List.length_append]
    rfl
  · show (order ++ [map.nodes]).length ≤ 2 * map.capcity
    rw [List.length_append]
    exact room

end Single

/-! ### Growing -/

/-- New heads fill the table, and are heads of empty lists. -/
theorem allocLoop_eq {count i : Nat} {map : HashMap}
    (table : map.table.cells = (List.range i).map some) (heads : map.heads = i)
    (small : i + count ≤ 2 ^ 31)
    (alone : ∀ h, i ≤ h → map.links.next (.head h) = .head h ∧ map.links.prev (.head h) = .head h) :
    ∃ table headCount, allocLoop count i map =
        some { map with table := table, heads := i + count, headCount := headCount } ∧
      table.cells = (List.range (i + count)).map some ∧
      (∀ h < i, headCount h = map.headCount h) ∧
      ∀ h, i ≤ h → h < i + count → headCount h = 0 := by
  induction count generalizing i map with
  | zero =>
    refine ⟨map.table, map.headCount, ?_, table, fun _ _ => rfl, fun h low high => ?_⟩
    · rw [allocLoop, Nat.add_zero, ← heads]
    · omega
  | succ count inductionHypothesis =>
    have size : map.table.array_size = i := by
      rw [CArray.array_size, table, List.length_map, List.length_range]
    obtain ⟨inserted, inserts, cells⟩ :=
      CArray.array_insert_end (some i) (show map.table.array_size < 2 ^ 31 by omega)
    rw [size] at inserts
    obtain ⟨next, prev⟩ := alone i (Nat.le_refl i)
    have links : map.alloc_map_head.1.links = map.links := by
      rw [alloc_map_head, heads]
      exact Links.list_init_of_self next prev
    obtain ⟨table', headCount, loops, filled, kept, zero⟩ :=
      @inductionHypothesis (i + 1) { map.alloc_map_head.1 with table := inserted }
        (by rw [cells, table, List.range_succ, List.map_append]; rfl)
        (by rw [alloc_map_head, heads]) (by omega)
        (fun h low => by rw [links]; exact alone h (Nat.le_of_succ_le low))
    refine ⟨table', headCount, ?_, ?_, ?_, ?_⟩
    · rw [allocLoop, heads, inserts, Option.bind_some, loops, links, alloc_map_head,
        Nat.add_right_comm, Nat.add_assoc]
    · rw [Nat.add_right_comm, Nat.add_assoc] at filled
      exact filled
    · intro h low
      rw [kept h (Nat.lt_succ_of_lt low), alloc_map_head, heads]
      exact Function.update_of_ne (Nat.ne_of_lt low) ..
    · intro h low high
      by_cases first : h = i
      · rw [kept h (first ▸ Nat.lt_succ_self i), alloc_map_head, heads, first]
        exact Function.update_self ..
      · exact zero h (by omega) (by omega)

/-- The links before any is stored into are those of empty lists. -/
theorem rings_id : Rings (⟨id, id⟩ : Links (Node Nat Nat)) fun _ => [] where
  linked := fun _ => ⟨rfl, rfl⟩
  nodup := fun _ => List.nodup_nil
  disjoint := fun _ _ _ inside => absurd inside List.not_mem_nil
  alone := fun _ _ => ⟨rfl, rfl⟩

theorem hash_map_init_holds : ∃ map, hash_map_init = some map ∧ map.Holds [] := by
  obtain ⟨table, headCount, loops, filled, _, zero⟩ :=
    @allocLoop_eq HASH_MAP_DEFALUT_CAPCITY 0
      { capcity := HASH_MAP_DEFALUT_CAPCITY
        table := CArray.array_init
        count := 0
        links := ⟨id, id⟩
        heads := 0
        headCount := fun _ => 0
        nodes := 0
        key := fun _ => 0
        keyname := fun _ => ⟨[], List.not_mem_nil⟩
        value := fun _ => [] } rfl rfl (by decide) (fun _ _ => ⟨rfl, rfl⟩)
  refine ⟨_, loops, ⟨⟨4, by decide, by decide, rfl⟩, ?_, ?_, rings_id, List.nodup_nil, ?_, ?_, ?_,
    rfl, Nat.zero_le _⟩⟩
  · rw [Nat.zero_add] at filled
    exact filled
  · exact Nat.zero_add _
  · exact fun _ inside => absurd inside List.not_mem_nil
  · exact fun _ inside => absurd inside List.not_mem_nil
  · exact fun h inside => zero h (Nat.zero_le h) (by rw [Nat.zero_add]; exact inside)

section Walk

variable {links : Links (Node Nat Nat)} {contents : Nat → List Nat} {i target node : Nat}
  {kept rest : List Nat}

/-- The node behind one of a list. -/
theorem list_next_elem (rings : Rings links contents) (shape : contents i = kept ++ node :: rest) :
    links.list_next (.elem node) = (rest.map .elem).headD (.head i) := by
  have linked := rings.linked i
  rw [shape, List.map_append] at linked
  exact linked.split.2.next_eq

/-- A node goes from one list to the end of another. -/
theorem rings_move (rings : Rings links contents) (shape : contents i = kept ++ node :: rest)
    (different : target ≠ i) :
    ∃ after, Rings ((links.list_delete (.elem node)).list_add_before (.head target) (.elem node))
        after ∧
      after i = kept ++ rest ∧ after target = contents target ++ [node] ∧
      ∀ h, h ≠ i → h ≠ target → after h = contents h := by
  have member : node ∈ contents i := by
    rw [shape]
    exact List.mem_append_right _ List.mem_cons_self
  have away : ∀ h, h ≠ i → (contents h).erase node = contents h := fun h other =>
    List.erase_of_not_mem fun inside => other (rings.disjoint node h i inside member)
  have nodup := rings.nodup i
  rw [shape] at nodup
  have notKept : node ∉ kept := fun inside =>
    (List.nodup_append.mp nodup).2.2 node inside node List.mem_cons_self rfl
  have absent : ∀ h, node ∉ (contents h).erase node := fun h => rings.notMem_erase h
  refine ⟨_, (rings.list_delete node).list_add_before absent, ?_, ?_, fun h notI notTarget => ?_⟩
  · rw [appended, Function.update_of_ne different.symm, shape,
      List.erase_append_right _ notKept, List.erase_cons_head]
  · rw [appended, Function.update_self, away target different]
  · rw [appended, Function.update_of_ne notTarget, away h notI]

/-- A node whose bucket stays is passed, -/
theorem rehash_stays {map : HashMap} (stays : bucketOf map.capcity (map.key node) = i) :
    map.rehash i i node = some map := by
  unfold rehash
  dsimp only
  rw [stays, if_pos rfl]

/-- and another one is moved. -/
theorem rehash_moves {map : HashMap} (goes : bucketOf map.capcity (map.key node) = target)
    (different : target ≠ i) (at_ : map.headAt target = some target)
    (positive : 0 < map.headCount i) (small : map.headCount target < 2 ^ 64 - 1) :
    ∃ headCount, map.rehash i i node = some { map with
        links := (map.links.list_delete (.elem node)).list_add_before (.head target) (.elem node)
        headCount := headCount } ∧
      headCount i = map.headCount i - 1 ∧ headCount target = map.headCount target + 1 ∧
      ∀ h, h ≠ i → h ≠ target → headCount h = map.headCount h := by
  have moves : ¬ (target : Int) = i := fun same => different (Int.ofNat.inj same)
  let less := Function.update map.headCount i (decrement (map.headCount i))
  refine ⟨Function.update less target (increment (less target)), ?_, ?_, ?_,
    fun h notI notTarget => ?_⟩
  · unfold rehash
    dsimp only
    rw [goes, if_neg moves, at_, Option.map_some]
  · have lessOwn : less i = decrement (map.headCount i) := Function.update_self ..
    rw [Function.update_of_ne different.symm, lessOwn, decrement_eq positive]
  · have same : less target = map.headCount target := Function.update_of_ne different ..
    rw [Function.update_self, same, increment_eq small]
  · exact (Function.update_of_ne notTarget ..).trans (Function.update_of_ne notI ..)

theorem filter_cons_here {place : Nat → Nat} (here : place node = i) :
    (node :: rest).filter (place · = i) = node :: rest.filter (place · = i) := by
  rw [List.filter_cons, if_pos (decide_eq_true here)]

theorem filter_cons_away {place : Nat → Nat} (away : place node ≠ i) :
    (node :: rest).filter (place · = i) = rest.filter (place · = i) := by
  rw [List.filter_cons, if_neg fun same => away (of_decide_eq_true same)]

/-- The walk over one bucket. The nodes that leave it come to the end of the other in their
order. -/
theorem rehashLoop_eq {map : HashMap} {turns : Nat} {place : Nat → Nat}
    (rings : Rings map.links contents) (shape : contents i = kept ++ rest) (different : target ≠ i)
    (buckets : ∀ node, bucketOf map.capcity (map.key node) = place node)
    (goes : ∀ node ∈ rest, place node = i ∨ place node = target)
    (at_ : map.headAt target = some target)
    (count : map.headCount i = (contents i).length)
    (count' : map.headCount target = (contents target).length)
    (bound : (contents i).length + (contents target).length < 2 ^ 64 - 1)
    (enough : rest.length < turns) :
    ∃ links headCount after,
      rehashLoop i i turns ((rest.map .elem).headD (.head i)) map =
        some { map with links := links, headCount := headCount } ∧
      Rings links after ∧ after i = kept ++ rest.filter (place · = i) ∧
      after target = contents target ++ rest.filter (place · = target) ∧
      (∀ h, h ≠ i → h ≠ target → after h = contents h) ∧
      headCount i = (after i).length ∧ headCount target = (after target).length ∧
      ∀ h, h ≠ i → h ≠ target → headCount h = map.headCount h := by
  induction rest generalizing map contents kept turns with
  | nil =>
    obtain ⟨turns, rfl⟩ := Nat.exists_eq_add_one_of_ne_zero (Nat.ne_of_gt enough)
    refine ⟨map.links, map.headCount, contents, ?_, rings, shape, (List.append_nil _).symm,
      fun _ _ _ => rfl, count, count', fun _ _ _ => rfl⟩
    rw [List.map_nil, List.headD_nil, rehashLoop, if_pos rfl]
  | cons node rest inductionHypothesis =>
    obtain ⟨turns, rfl⟩ :=
      Nat.exists_eq_add_one_of_ne_zero (Nat.ne_of_gt (Nat.zero_lt_of_lt enough))
    have later : rest.length < turns := Nat.lt_of_succ_lt_succ enough
    have goes' : ∀ node ∈ rest, place node = i ∨ place node = target := fun other inside =>
      goes other (List.mem_cons_of_mem node inside)
    rw [List.map_cons, List.headD_cons, rehashLoop, if_neg (fun impossible => by cases impossible),
      list_next_elem rings shape]
    by_cases stays : place node = i
    · have passes : map.rehash i i node = some map :=
        rehash_stays ((buckets node).trans (by rw [stays]))
      have shape' : contents i = (kept ++ [node]) ++ rest := by
        rw [List.append_assoc]
        exact shape
      have away : place node ≠ target := fun same => different (same.symm.trans stays)
      obtain ⟨links, headCount, after, loops, rings', own, other, kept', counts⟩ :=
        inductionHypothesis rings shape' buckets goes' at_ count count' bound later
      refine ⟨links, headCount, after, ?_, rings', ?_, ?_, kept', counts⟩
      · rw [passes, Option.bind_some]
        exact loops
      · rw [own, filter_cons_here stays, List.append_assoc]
        rfl
      · rw [other, filter_cons_away away]
    · have moves : place node = target := (goes node List.mem_cons_self).resolve_left stays
      have long : 0 < (contents i).length ∧
          (contents i).length = kept.length + (rest.length + 1) := by
        rw [shape, List.length_append, List.length_cons]
        omega
      obtain ⟨counted, rehashes, less, more, kept'⟩ :=
        rehash_moves ((buckets node).trans (by rw [moves])) different at_
          (by rw [count]; exact long.1) (by rw [count']; omega)
      obtain ⟨moved, rings', own, other, apart⟩ := rings_move rings shape different
      have size : (moved i).length = (contents i).length - 1 := by
        rw [own, List.length_append, long.2]
        rfl
      have size' : (moved target).length = (contents target).length + 1 := by
        rw [other, List.length_append]
        rfl
      obtain ⟨links, headCount, after, loops, rings'', own', other', apart', counts⟩ :=
        @inductionHypothesis moved kept
          { map with
            links :=
              (map.links.list_delete (.elem node)).list_add_before (.head target) (.elem node)
            headCount := counted }
          turns rings' own buckets goes' at_
          (show counted i = (moved i).length by rw [less, size, count])
          (show counted target = (moved target).length by rw [more, size', count']) (by omega) later
      refine ⟨links, headCount, after, ?_, rings'', ?_, ?_, ?_, counts.1, counts.2.1, ?_⟩
      · rw [rehashes, Option.bind_some]
        exact loops
      · rw [own', filter_cons_away stays]
      · rw [other', other, filter_cons_here moves, List.append_assoc]
        rfl
      · exact fun h notI notTarget => (apart' h notI notTarget).trans (apart h notI notTarget)
      · exact fun h notI notTarget =>
          (counts.2.2 h notI notTarget).trans (kept' h notI notTarget)

end Walk

/-- With twice as many buckets a key stays in its bucket or goes as much further on as there were
buckets. -/
theorem bucket_double (old : Nat) (key : BitVec 32) :
    bucket (2 * old) key = bucket old key ∨ bucket (2 * old) key = bucket old key + old := by
  unfold bucket
  rw [Nat.mul_comm, Nat.mod_mul]
  rcases Nat.mod_two_eq_zero_or_one (key.toNat / old) with even | odd
  · rw [even, Nat.mul_zero]
    exact .inl rfl
  · rw [odd, Nat.mul_one]
    exact .inr rfl

/-- Where a key is while the map grows, when so many of its old buckets were walked. -/
def placeOf (old i : Nat) (key : BitVec 32) : Nat :=
  if bucket old key < i then bucket (2 * old) key else bucket old key

/-- What the loop over the buckets keeps. -/
structure Growing (links : Links (Node Nat Nat)) (headCount : Nat → Nat) (key : Nat → BitVec 32)
    (order : List Nat) (old i : Nat) : Prop where
  rings : Rings links fun h => order.filter fun node => placeOf old i (key node) = h
  headCount : ∀ h < 2 * old,
    headCount h = (order.filter fun node => placeOf old i (key node) = h).length

section Places

variable {old i : Nat} {key : BitVec 32}

/-- The keys of the bucket that is walked come to their new bucket. -/
theorem placeOf_walked {h : Nat} (inside : i < old) (either : h = i ∨ h = i + old) :
    placeOf old i key = i ∧ bucket (2 * old) key = h ↔ placeOf old (i + 1) key = h := by
  have below := bucket_lt (Nat.zero_lt_of_lt inside) key
  have double := bucket_double old key
  unfold placeOf
  split
  · split
    · omega
    · omega
  · split
    · omega
    · omega

theorem placeOf_fresh (inside : i < old) : placeOf old i key ≠ i + old := by
  have below := bucket_lt (Nat.zero_lt_of_lt inside) key
  have double := bucket_double old key
  unfold placeOf
  split
  · omega
  · omega

theorem placeOf_goes (inside : i < old) (here : placeOf old i key = i) :
    bucket (2 * old) key = i ∨ bucket (2 * old) key = i + old := by
  have below := bucket_lt (Nat.zero_lt_of_lt inside) key
  have double := bucket_double old key
  unfold placeOf at here
  split at here
  · omega
  · omega

theorem placeOf_other {h : Nat} (inside : i < old) (notI : h ≠ i) (notTarget : h ≠ i + old) :
    placeOf old i key = h ↔ placeOf old (i + 1) key = h := by
  have below := bucket_lt (Nat.zero_lt_of_lt inside) key
  have double := bucket_double old key
  unfold placeOf
  split
  · split
    · rfl
    · omega
  · split
    · omega
    · rfl

end Places

/-- What is left of a bucket is what the next turn says of it. -/
theorem filter_filter_place {order : List Nat} {p q r : Nat → Prop} [DecidablePred p]
    [DecidablePred q] [DecidablePred r] (same : ∀ node, p node ∧ q node ↔ r node) :
    ((order.filter fun node => p node).filter fun node => q node) =
      order.filter fun node => r node := by
  rw [List.filter_filter]
  refine List.filter_congr fun node _ => ?_
  rw [← Bool.decide_and]
  exact decide_eq_decide.mpr (and_comm.trans (same node))

/-- One bucket. -/
theorem Growing.step {map : HashMap} {order : List Nat} {old i : Nat}
    (growing : Growing map.links map.headCount map.key order old i) (inside : i < old)
    (buckets : ∀ node, bucketOf map.capcity (map.key node) = bucket (2 * old) (map.key node))
    (heads : ∀ h < 2 * old, map.headAt h = some h) (short : order.length ≤ 2 ^ 31)
    (enough : order.length ≤ map.nodes) :
    ∃ links headCount,
      rehashLoop i i (map.nodes + 1) (map.links.list_next (.head i)) map =
        some { map with links := links, headCount := headCount } ∧
      Growing links headCount map.key order old (i + 1) := by
  have target : i + old ≠ i := by omega
  have own := growing.headCount i (by omega)
  have other := growing.headCount (i + old) (by omega)
  have long := List.length_filter_le (fun node => decide (placeOf old i (map.key node) = i)) order
  have none_ : (order.filter fun node => placeOf old i (map.key node) = i + old) = [] :=
    List.filter_eq_nil_iff.mpr fun node _ here => placeOf_fresh inside (of_decide_eq_true here)
  have first : map.links.list_next (.head i) =
      ((order.filter fun node => placeOf old i (map.key node) = i).map .elem).headD (.head i) :=
    growing.rings.next_head
  have bound : (order.filter fun node => placeOf old i (map.key node) = i).length +
      (order.filter fun node => placeOf old i (map.key node) = i + old).length < 2 ^ 64 - 1 := by
    rw [none_, List.length_nil]
    omega
  obtain ⟨links, headCount, after, loops, rings, stays, moves, apart, counts, counts', kept⟩ :=
    @rehashLoop_eq _ i (i + old) [] _ map (map.nodes + 1)
      (fun node => bucket (2 * old) (map.key node)) growing.rings rfl target buckets
      (fun node member => placeOf_goes inside (of_decide_eq_true (List.mem_filter.mp member).2))
      (heads _ (by omega)) own other bound (by omega)
  have contents : after =
      fun h => order.filter fun node => placeOf old (i + 1) (map.key node) = h := by
    funext h
    by_cases atI : h = i
    · rw [atI, stays, List.nil_append]
      exact filter_filter_place fun node => placeOf_walked inside (.inl rfl)
    · by_cases atTarget : h = i + old
      · rw [atTarget, moves, none_, List.nil_append]
        exact filter_filter_place fun node => placeOf_walked inside (.inr rfl)
      · rw [apart h atI atTarget]
        exact List.filter_congr fun node _ =>
          decide_eq_decide.mpr (placeOf_other inside atI atTarget)
  have lengthAt : ∀ h, (order.filter fun node => placeOf old (i + 1) (map.key node) = h).length =
      (after h).length := fun h => by rw [contents]
  refine ⟨links, headCount, first ▸ loops, contents ▸ rings, fun h below => ?_⟩
  rw [lengthAt]
  by_cases atI : h = i
  · rw [atI]
    exact counts
  · by_cases atTarget : h = i + old
    · rw [atTarget]
      exact counts'
    · rw [kept h atI atTarget, growing.headCount h below, apart h atI atTarget]

/-- All buckets. -/
theorem bucketLoop_eq {map : HashMap} {order : List Nat} {old i count : Nat}
    (growing : Growing map.links map.headCount map.key order old i) (ends : i + count = old)
    (buckets : ∀ node, bucketOf map.capcity (map.key node) = bucket (2 * old) (map.key node))
    (heads : ∀ h < 2 * old, map.headAt h = some h) (short : order.length ≤ 2 ^ 31)
    (enough : order.length ≤ map.nodes) :
    ∃ links headCount,
      bucketLoop count i map = some { map with links := links, headCount := headCount } ∧
      Growing links headCount map.key order old old := by
  induction count generalizing map i with
  | zero =>
    refine ⟨map.links, map.headCount, by rw [bucketLoop], ?_⟩
    have last : i = old := ends
    exact last ▸ growing
  | succ count inductionHypothesis =>
    obtain ⟨links, headCount, walks, next⟩ :=
      growing.step (show i < old by omega) buckets heads short enough
    obtain ⟨links', headCount', loops, final⟩ :=
      @inductionHypothesis { map with links := links, headCount := headCount } (i + 1) next
        (by omega) buckets heads enough
    refine ⟨links', headCount', ?_, final⟩
    rw [bucketLoop, heads i (by omega), Option.bind_some, walks, Option.bind_some]
    exact loops

section Resize

variable {map : HashMap} {order : List Nat}

/-- No node is in a bucket beyond the capacity, -/
theorem Holds.filter_beyond (holds : map.Holds order) {h : Nat} (above : map.capcity ≤ h) :
    (order.filter fun node => bucket map.capcity (map.key node) = h) = [] :=
  List.filter_eq_nil_iff.mpr fun node _ here =>
    Nat.not_lt_of_le above (of_decide_eq_true here ▸ bucket_lt holds.positive (map.key node))

/-- and the heads that are not allocated yet are alone. -/
theorem Holds.alone (holds : map.Holds order) {h : Nat} (above : map.capcity ≤ h) :
    map.links.next (.head h) = .head h ∧ map.links.prev (.head h) = .head h := by
  have linked := holds.rings.linked h
  rw [holds.filter_beyond above] at linked
  exact linked

/-- Before the first bucket is walked every node is where it was. -/
theorem Holds.growing (holds : map.Holds order) {headCount : Nat → Nat}
    (kept : ∀ h < map.capcity, headCount h = map.headCount h)
    (zero : ∀ h, map.capcity ≤ h → h < 2 * map.capcity → headCount h = 0) :
    Growing map.links headCount map.key order map.capcity 0 := by
  have starts : ∀ key, placeOf map.capcity 0 key = bucket map.capcity key := fun key =>
    if_neg (Nat.not_lt_zero _)
  refine ⟨?_, fun h below => ?_⟩
  · simp only [starts]
    exact holds.rings
  · simp only [starts]
    by_cases old : h < map.capcity
    · exact (kept h old).trans (holds.headCount h old)
    · rw [zero h (Nat.le_of_not_lt old) below, holds.filter_beyond (Nat.le_of_not_lt old)]
      rfl

/-- The map grows where its capacity, doubled, is an `int`: the order of the nodes stays. -/
theorem Holds.resize (holds : map.Holds order) (small : map.capcity < 2 ^ 30) :
    ∃ table heads links headCount,
      map.hash_map_resize = some { map with
        capcity := 2 * map.capcity
        table := table
        heads := heads
        links := links
        headCount := headCount } ∧
      Holds { map with
        capcity := 2 * map.capcity
        table := table
        heads := heads
        links := links
        headCount := headCount } order := by
  obtain ⟨exponent, low, room, power⟩ := holds.power_lt small
  have double : 2 * map.capcity = 2 ^ (exponent + 1) := by
    rw [power, Nat.pow_succ, Nat.mul_comm]
  have old_cap : intOf map.capcity = map.capcity := intOf_of_lt (by omega) (by omega)
  have positive := holds.positive
  obtain ⟨table, filled, allocates, cells, kept, zero⟩ :=
    @allocLoop_eq map.capcity map.capcity { map with capcity := 2 * map.capcity } holds.table
      holds.heads (by omega) fun _ above => holds.alone above
  rw [← Nat.two_mul] at allocates cells zero
  have ends : ∀ key, placeOf map.capcity map.capcity key = bucket (2 * map.capcity) key :=
    fun key => if_pos (bucket_lt positive key)
  have buckets : ∀ node, bucketOf (2 * map.capcity) (map.key node) =
      bucket (2 * map.capcity) (map.key node) := by
    intro node
    rw [double]
    exact HashMap.bucketOf_eq (by omega) _
  obtain ⟨links, headCount, loops, grown⟩ :=
    @bucketLoop_eq
      { map with
        capcity := 2 * map.capcity
        table := table
        heads := 2 * map.capcity
        headCount := filled }
      order map.capcity 0 map.capcity (holds.growing kept zero) (Nat.zero_add _) buckets
      (fun h below => HashMap.headAt_eq cells below (by omega)) holds.length_le
      (length_le_of_allocated holds.nodup holds.allocated)
  refine ⟨table, 2 * map.capcity, links, headCount, ?_, ?_⟩
  · have fits : 0 ≤ (map.capcity : Int) ∧ 2 * (map.capcity : Int) < 2 ^ 31 := by omega
    have index : (2 * (map.capcity : Int)).toNat = 2 * map.capcity := by omega
    have count : 2 * map.capcity - map.capcity = map.capcity := by omega
    unfold hash_map_resize
    dsimp only
    rw [old_cap, if_pos fits, index, Int.toNat_natCast, count, allocates, Option.bind_some]
    exact loops
  · obtain ⟨rings, counts⟩ := grown
    simp only [ends] at rings counts
    exact ⟨⟨exponent + 1, by omega, by omega, double⟩, cells, rfl, rings, holds.nodup,
      holds.allocated, holds.named, counts, holds.count,
      Nat.le_trans holds.few (by dsimp only; omega)⟩

end Resize

theorem hash_map_resize_full {map : HashMap} (full : map.capcity = 2 ^ 30) :
    map.hash_map_resize = none := by
  have old_cap : intOf map.capcity = 2 ^ 30 := by
    rw [full]
    exact intOf_of_lt (by omega) (by omega)
  unfold hash_map_resize
  dsimp only
  rw [old_cap]
  exact if_neg (by omega)

/-! ### Emptying -/

section Clear

variable {map : HashMap} {order : List Nat}

/-- The walk over one bucket takes out its nodes. -/
theorem Holds.clearLoop (holds : map.Holds order) {h turns : Nat} (inside : h < map.capcity)
    (enough : (order.filter fun node => bucket map.capcity (map.key node) = h).length < turns) :
    ∃ after, HashMap.clearLoop h turns (map.links.list_next (.head h)) map = some after ∧
      after.Holds (order.filter fun node => bucket map.capcity (map.key node) ≠ h) ∧
      after.capcity = map.capcity ∧ after.key = map.key ∧ after.nodes = map.nodes := by
  induction turns generalizing map order with
  | zero => cases enough
  | succ turns inductionHypothesis =>
    have next : map.links.list_next (.head h) = ((order.filter fun node =>
        bucket map.capcity (map.key node) = h).map .elem).headD (.head h) :=
      holds.rings.next_head
    cases shape : order.filter fun node => bucket map.capcity (map.key node) = h with
    | nil =>
      rw [shape] at next
      have none_ : map.links.list_empty (.head h) = true := holds.rings.list_empty_head.mpr shape
      have all : (order.filter fun node => bucket map.capcity (map.key node) ≠ h) = order :=
        List.filter_eq_self.mpr fun node member => decide_eq_true fun here =>
          (List.filter_eq_nil_iff.mp shape) node member (decide_eq_true here)
      refine ⟨map, ?_, all.symm ▸ holds, rfl, rfl, rfl⟩
      rw [next, List.map_nil, List.headD_nil, HashMap.clearLoop, if_pos none_]
    | cons node rest =>
      have inBucket : node ∈ order.filter fun node => bucket map.capcity (map.key node) = h := by
        rw [shape]
        exact List.mem_cons_self
      obtain ⟨member, own⟩ := List.mem_filter.mp inBucket
      have own : bucket map.capcity (map.key node) = h := of_decide_eq_true own
      have some_ : map.links.list_empty (.elem node) = false :=
        holds.rings.list_empty_elem inBucket
      have removed : (map.remove h node).Holds (order.erase node) := own ▸ holds.remove member
      have left : ((order.erase node).filter fun node => bucket map.capcity (map.key node) = h) =
          rest := by
        rw [← List.erase_filter, shape, List.erase_cons_head]
      have behind : map.links.list_next (.elem node) =
          (map.remove h node).links.list_next (.head h) := by
        have nextRemoved : (map.remove h node).links.list_next (.head h) =
            (((order.erase node).filter fun node =>
              bucket map.capcity (map.key node) = h).map .elem).headD (.head h) :=
          removed.rings.next_head
        rw [nextRemoved, left]
        exact @list_next_elem _ _ h node [] rest holds.rings shape
      rw [shape, List.map_cons, List.headD_cons] at next
      rw [shape] at enough
      obtain ⟨after, loops, cleared, capcity, key, nodes⟩ :=
        @inductionHypothesis (map.remove h node) (order.erase node) removed inside
          (left.symm ▸ Nat.lt_of_succ_lt_succ enough)
      refine ⟨after, ?_, ?_, capcity, key, nodes⟩
      · rw [next, HashMap.clearLoop, if_neg (Bool.eq_false_iff.mp some_), behind]
        exact loops
      · have out : node ∉ order.filter fun node => bucket map.capcity (map.key node) ≠ h :=
          fun stays => of_decide_eq_true (List.mem_filter.mp stays).2 own
        have same : ((order.erase node).filter fun node => bucket map.capcity (map.key node) ≠ h) =
            order.filter fun node => bucket map.capcity (map.key node) ≠ h := by
          rw [← List.erase_filter, List.erase_of_not_mem out]
        rw [← same]
        exact cleared

/-- The buckets that were not walked yet keep their nodes. -/
theorem Holds.clearBuckets (holds : map.Holds order) {i : Nat} (inside : i ≤ map.capcity) :
    ∃ after, HashMap.clearBuckets i map = some after ∧
      after.Holds (order.filter fun node => i ≤ bucket map.capcity (map.key node)) := by
  induction i generalizing map order with
  | zero =>
    have all : (order.filter fun node => 0 ≤ bucket map.capcity (map.key node)) = order :=
      List.filter_eq_self.mpr fun node _ => decide_eq_true (Nat.zero_le _)
    exact ⟨map, by rw [HashMap.clearBuckets], all.symm ▸ holds⟩
  | succ i inductionHypothesis =>
    obtain ⟨walked, walks, left, capcity, key, nodes⟩ :=
      holds.clearLoop inside (Nat.lt_succ_of_le (holds.length_filter_le _))
    obtain ⟨after, loops, cleared⟩ :=
      inductionHypothesis left (by rw [capcity]; exact Nat.le_of_succ_le inside)
    refine ⟨after, ?_, ?_⟩
    · rw [HashMap.clearBuckets, holds.headAt_eq inside, Option.bind_some, walks, Option.bind_some]
      exact loops
    · rw [capcity, key] at cleared
      have same := @filter_filter_place order
        (fun node => bucket map.capcity (map.key node) ≠ i)
        (fun node => i ≤ bucket map.capcity (map.key node))
        (fun node => i + 1 ≤ bucket map.capcity (map.key node)) _ _ _ (fun node => by omega)
      rw [← same]
      exact cleared

theorem Holds.clear (holds : map.Holds order) :
    ∃ after, map.hash_map_clear = some after ∧ after.Holds [] := by
  have positive := holds.positive
  have atMost := holds.capcity_le
  have index : (intOf (decrement map.capcity) + 1).toNat = map.capcity := by
    rw [decrement_eq positive, intOf_of_lt (by omega) (by omega)]
    omega
  obtain ⟨after, loops, cleared⟩ := holds.clearBuckets (Nat.le_refl _)
  have none_ : (order.filter fun node => map.capcity ≤ bucket map.capcity (map.key node)) = [] :=
    List.filter_eq_nil_iff.mpr fun node _ beyond =>
      Nat.not_le_of_lt (bucket_lt positive (map.key node)) (of_decide_eq_true beyond)
  rw [none_] at cleared
  refine ⟨after, ?_, cleared⟩
  unfold hash_map_clear
  rw [index]
  exact loops

end Clear

/-! ### The functions of the map -/

section Functions

variable {map : HashMap} {order : List Nat} {keyname : CString}

/-- A key is compared with the beginning of a name. -/
theorem strncmpZero_iff {first second : CString} :
    strncmpZero first second first.strlen = true ↔ first.chars <+: second.chars := by
  have whole : (first.chars ++ [0]).take first.strlen = first.chars := List.take_left
  rw [strncmpZero, decide_eq_true_eq, whole]
  constructor
  · intro same
    have begins : first.chars <+: second.chars ++ [0] := same ▸ List.take_prefix _ _
    rcases List.prefix_concat_iff.mp begins with all | inside
    · refine absurd ?_ first.noNull
      rw [all]
      exact List.mem_append_right _ List.mem_cons_self
    · exact inside
  · intro begins
    exact List.prefix_iff_eq_take.mp (begins.trans (List.prefix_append _ _))

/-- A node is found for a key with the same hash that is the beginning of its name. -/
theorem found_iff (short : keyname.strlen < 1024) {node : Nat} :
    map.found keyname node = true ↔
      string_hash keyname = map.key node ∧ keyname.chars <+: (map.keyname node).chars := by
  have length : (intOf keyname.strlen % 2 ^ 64).toNat = keyname.strlen := by
    rw [intOf_of_lt (by omega) (by omega)]
    omega
  rw [found, decide_eq_true_eq, length, strncmpZero_iff]

/-- What is rounded up to a `float` is at least half as large. -/
theorem le_floatOf (size : Nat) : size ≤ 2 * floatOf size := by
  unfold floatOf
  split
  · omega
  · rename_i large
    dsimp only
    have nonzero : size ≠ 0 := by omega
    have unit_le : 2 ^ (Nat.log2 size - 23) ≤ size :=
      Nat.le_trans (Nat.pow_le_pow_right (by decide) (Nat.sub_le _ _)) (Nat.log2_self_le nonzero)
    have unit_pos : 0 < 2 ^ (Nat.log2 size - 23) := Nat.two_pow_pos _
    generalize 2 ^ (Nat.log2 size - 23) = unit at unit_le unit_pos
    have divides := Nat.div_add_mod' size unit
    have rest := Nat.mod_lt size unit_pos
    have once : unit ≤ size / unit * unit := by
      have positive : 1 ≤ size / unit := Nat.div_pos unit_le unit_pos
      exact Nat.le_trans (Nat.le_of_eq (Nat.one_mul unit).symm) (Nat.mul_le_mul_right unit positive)
    split
    · omega
    · rw [Nat.add_mul, Nat.one_mul]
      omega

/-- A map that need not grow has room. -/
theorem Holds.room (holds : map.Holds order) (notFull : ¬ map.full = true) :
    order.length < 2 * map.capcity := by
  have less : ¬ 3 * map.capcity ≤ 4 * floatOf map.count := fun full => notFull (decide_eq_true full)
  have half := le_floatOf map.count
  rw [holds.count] at less half
  omega

theorem Holds.get (holds : map.Holds order) (keyname : CString) :
    map.hash_map_get keyname =
      some (match order.find? (map.found keyname) with
        | none => (-1, none)
        | some node => (0, some (map.value node))) := by
  rw [hash_map_get, holds.find_eq]
  rfl

theorem Holds.put_found (holds : map.Holds order) {node : Nat} (value : List UInt8)
    (hit : order.find? (map.found keyname) = some node) :
    map.hash_map_put keyname value =
      some { map with value := Function.update map.value node value } := by
  rw [hash_map_put, holds.find_eq, hit]
  rfl

/-- A key that is not found is put in, if its name fits and the map can grow when it must. -/
theorem Holds.put_new (holds : map.Holds order) (value : List UInt8)
    (miss : order.find? (map.found keyname) = none) (fits : keyname.strlen < 1024)
    (grows : map.full = true → map.capcity < 2 ^ 30) :
    ∃ after, map.hash_map_put keyname value = some after ∧ after.Holds (order ++ [map.nodes]) ∧
      after.keyname = Function.update map.keyname map.nodes keyname ∧
      after.value = Function.update map.value map.nodes value ∧
      after.capcity = if map.full then 2 * map.capcity else map.capcity := by
  rw [hash_map_put, holds.find_eq, miss, Option.bind_some]
  dsimp only
  by_cases full : map.full = true
  · rw [if_pos full, if_pos full]
    obtain ⟨table, heads, links, headCount, resizes, grown⟩ := holds.resize (grows full)
    have room : order.length < 2 * (2 * map.capcity) := by
      have few := holds.few
      have positive := holds.positive
      omega
    obtain ⟨after, inserts, result⟩ := grown.insert value fits room
    refine ⟨after, ?_, result⟩
    rw [resizes, Option.bind_some, grown.bucketOf_eq, grown.headAt_eq (bucket_lt grown.positive _),
      Option.bind_some]
    exact inserts
  · rw [if_neg full, if_neg full]
    exact holds.insert value fits (holds.room full)

/-- Otherwise it has no result. -/
theorem Holds.put_fails (holds : map.Holds order) (value : List UInt8)
    (miss : order.find? (map.found keyname) = none)
    (fails : ¬ (keyname.strlen < 1024 ∧ (map.full = true → map.capcity < 2 ^ 30))) :
    map.hash_map_put keyname value = none := by
  have long : ∀ (map : HashMap) h, ¬ keyname.strlen < 1024 → map.insert h keyname value = none :=
    fun _ _ long => if_pos (Nat.le_of_not_lt long)
  rw [hash_map_put, holds.find_eq, miss, Option.bind_some]
  dsimp only
  by_cases full : map.full = true
  · rw [if_pos full]
    by_cases grows : map.capcity < 2 ^ 30
    · obtain ⟨table, heads, links, headCount, resizes, grown⟩ := holds.resize grows
      rw [resizes, Option.bind_some, grown.bucketOf_eq,
        grown.headAt_eq (bucket_lt grown.positive _), Option.bind_some]
      exact long _ _ fun fits => fails ⟨fits, fun _ => grows⟩
    · have atMost := holds.capcity_le
      rw [hash_map_resize_full (by omega)]
      rfl
  · rw [if_neg full]
    exact long _ _ fun fits => fails ⟨fits, fun impossible => absurd impossible full⟩

theorem Holds.del (holds : map.Holds order) (keyname : CString) :
    ∃ after, map.hash_map_del keyname = some after ∧
      (order.find? (map.found keyname) = none ∧ after = (map, -1) ∨
        ∃ node h, order.find? (map.found keyname) = some node ∧ after = (map.remove h node, 0) ∧
          (map.remove h node).Holds (order.erase node)) := by
  rw [hash_map_del, holds.find_eq]
  cases hit : order.find? (map.found keyname) with
  | none => exact ⟨_, rfl, .inl ⟨rfl, rfl⟩⟩
  | some node =>
    have removed := holds.remove (List.mem_of_find?_eq_some hit)
    rw [found_key (List.find?_some hit)] at removed
    exact ⟨_, rfl, .inr ⟨node, _, rfl, rfl, removed⟩⟩

end Functions

end HashMap

end Nattan
