/-
This file models `hash_map_t`, the store of the variables that are local to a coroutine: its
buckets with their heads and lists, the hash of a key, and how the map grows.

A key is looked for by its hash, which is an `int` that wraps, and by a comparison of as many
characters as the key has: a node is found when the key is the beginning of its name. The
heads are allocated one after the other and never freed. They are known by the number of
their allocation, as the nodes are. Where the code would follow a null pointer, walk a list
without an end, write beyond a name or shift beyond an `int`, there is no result.
-/

import Nattan.CArray
import Nattan.File
import Nattan.LinkedList

namespace Nattan

/-- A string, up to its null. -/
structure CString where
  chars : List UInt8
  noNull : 0 ∉ chars
  deriving DecidableEq, Repr

def CString.strlen (string : CString) : Nat :=
  string.chars.length

/-- Whether `strncmp` is 0. -/
def strncmpZero (first second : CString) (n : Nat) : Bool :=
  (first.chars ++ [0]).take n = (second.chars ++ [0]).take n

/-- A `size_t` counted up. -/
def increment (size : Nat) : Nat :=
  if size = 2 ^ 64 - 1 then 0 else size + 1

/-- A `size_t` counted down. -/
def decrement (size : Nat) : Nat :=
  if size = 0 then 2 ^ 64 - 1 else size - 1

theorem increment_eq {size : Nat} (small : size < 2 ^ 64 - 1) : increment size = size + 1 :=
  if_neg (Nat.ne_of_lt small)

theorem decrement_eq {size : Nat} (positive : 0 < size) : decrement size = size - 1 :=
  if_neg (Nat.ne_of_gt positive)

/-- `hash_map_t`, and the memory of its heads and nodes. -/
structure HashMap where
  capcity : Nat
  table : CArray (Option Nat)
  count : Nat
  links : Links (Node Nat Nat)
  heads : Nat
  headCount : Nat → Nat
  nodes : Nat
  key : Nat → BitVec 32
  keyname : Nat → CString
  value : Nat → List UInt8

namespace HashMap

def HASH_MAP_DEFALUT_CAPCITY : Nat := 16

/-- `string_hash`. A `char` is signed. -/
def string_hash (keyname : CString) : BitVec 32 :=
  let len := intOf keyname.strlen
  (keyname.chars.take len.toNat).foldl (fun key char => key * 31 + char.toBitVec.signExtend 32) 0

/-- `key & (map->capcity - 1)`, as an `int`. -/
def bucketOf (capcity : Nat) (key : BitVec 32) : Int :=
  intOf (key.signExtend 64 &&& BitVec.ofNat 64 (decrement capcity)).toNat

/-- A `size_t` converted to a `float`, which has 24 bits: to the nearest, and to an even one when
two are as near. -/
def floatOf (size : Nat) : Nat :=
  if size < 2 ^ 24 then size
  else
    let unit := 2 ^ (Nat.log2 size - 23)
    let rest := size % unit
    if 2 * rest < unit ∨ 2 * rest = unit ∧ size / unit % 2 = 0 then size / unit * unit
    else (size / unit + 1) * unit

/-- Whether the count is up to the load factor. The capacity is a power of two, so that its
product with 0.75 is exact. -/
def full (map : HashMap) : Bool :=
  3 * map.capcity ≤ 4 * floatOf map.count

def alloc_map_head (map : HashMap) : HashMap × Nat :=
  ({ map with
      heads := map.heads + 1
      links := map.links.list_init (.head map.heads)
      headCount := Function.update map.headCount map.heads 0 },
    map.heads)

def alloc_map_node (map : HashMap) : HashMap × Nat :=
  ({ map with
      nodes := map.nodes + 1
      links := map.links.list_init (.elem map.nodes)
      key := Function.update map.key map.nodes (-1)
      value := Function.update map.value map.nodes [] },
    map.nodes)

/-- The head at an index of the table. -/
def headAt (map : HashMap) (idx : Int) : Option Nat :=
  map.table.array_get (idx % 2 ^ 64).toNat

/-- The loop that fills the table with so many new heads, from an index on. -/
def allocLoop : Nat → Nat → HashMap → Option HashMap
  | 0, _, map => some map
  | count + 1, i, map =>
    (map.table.array_insert i (some map.heads)).bind fun inserted =>
      allocLoop count (i + 1) { map.alloc_map_head.1 with table := inserted.1 }

/-- `hash_map_init`. The memory of the heads and nodes is not used yet. -/
def hash_map_init : Option HashMap :=
  allocLoop HASH_MAP_DEFALUT_CAPCITY 0
    { capcity := HASH_MAP_DEFALUT_CAPCITY
      table := CArray.array_init
      count := 0
      links := ⟨id, id⟩
      heads := 0
      headCount := fun _ => 0
      nodes := 0
      key := fun _ => 0
      keyname := fun _ => ⟨[], List.not_mem_nil⟩
      value := fun _ => [] }

/-- The loop over the list of a head, for so many nodes at most: the first that is looked for. -/
def findLoop (links : Links (Node Nat Nat)) (head : Nat) (found : Nat → Bool) :
    Nat → Node Nat Nat → Option (Option Nat)
  | 0, _ => none
  | turns + 1, ls =>
    if ls = .head head then some none
    else
      match ls with
      | .head _ => none
      | .elem node =>
        if found node then some (some node)
        else findLoop links head found turns (links.list_next ls)

/-- Whether a node is found for a key. -/
def found (map : HashMap) (keyname : CString) (node : Nat) : Bool :=
  string_hash keyname = map.key node ∧
    strncmpZero keyname (map.keyname node) (intOf keyname.strlen % 2 ^ 64).toNat

/-- What `hash_map_get`, `hash_map_put` and `hash_map_del` begin with: the head of a key, and the
node that is found. No list is longer than there are nodes. -/
def find (map : HashMap) (keyname : CString) : Option (Nat × Option Nat) :=
  (map.headAt (bucketOf map.capcity (string_hash keyname))).bind fun h =>
    (findLoop map.links h (map.found keyname) (map.nodes + 1)
      (map.links.list_next (.head h))).map fun node => (h, node)

/-- `hash_map_get`: what it returns, and the value it stores. -/
def hash_map_get (map : HashMap) (keyname : CString) : Option (Int × Option (List UInt8)) :=
  (map.find keyname).map fun result =>
    match result.2 with
    | none => (-1, none)
    | some node => (0, some (map.value node))

/-- The body of the walk of `hash_map_resize`, for a node of the bucket `i`. -/
def rehash (map : HashMap) (head : Nat) (i : Int) (node : Nat) : Option HashMap :=
  let idx := bucketOf map.capcity (map.key node)
  if idx = i then some map
  else
    (map.headAt idx).map fun target =>
      let headCount :=
        Function.update map.headCount head (decrement (map.headCount head))
      { map with
        links := (map.links.list_delete (.elem node)).list_add_before (.head target) (.elem node)
        headCount := Function.update headCount target (increment (headCount target)) }

/-- The walk of `hash_map_resize` over the list of a head, for so many nodes at most. -/
def rehashLoop (head : Nat) (i : Int) : Nat → Node Nat Nat → HashMap → Option HashMap
  | 0, _, _ => none
  | turns + 1, ls, map =>
    if ls = .head head then some map
    else
      match ls with
      | .head _ => none
      | .elem node =>
        (map.rehash head i node).bind (rehashLoop head i turns (map.links.list_next ls))

/-- The loop of `hash_map_resize` over so many buckets, from an index on. -/
def bucketLoop : Nat → Nat → HashMap → Option HashMap
  | 0, _, map => some map
  | count + 1, i, map =>
    (map.headAt i).bind fun head =>
      (rehashLoop head i (map.nodes + 1) (map.links.list_next (.head head)) map).bind
        (bucketLoop count (i + 1))

/-- `hash_map_resize`. It shifts an `int`. -/
def hash_map_resize (map : HashMap) : Option HashMap :=
  let old_cap := intOf map.capcity
  if 0 ≤ old_cap ∧ 2 * old_cap < 2 ^ 31 then
    let capcity := (2 * old_cap).toNat
    (allocLoop (capcity - old_cap.toNat) old_cap.toNat { map with capcity := capcity }).bind
      (bucketLoop old_cap.toNat 0)
  else none

/-- The end of `hash_map_put`: a new node at the end of the list of a head. A name has room for
1024 characters, the null among them. -/
def insert (map : HashMap) (h : Nat) (keyname : CString) (value : List UInt8) : Option HashMap :=
  if 1024 ≤ keyname.strlen then none
  else
    let node := map.nodes
    let allocated := map.alloc_map_node.1
    some { allocated with
      key := Function.update allocated.key node (string_hash keyname)
      keyname := Function.update allocated.keyname node keyname
      value := Function.update allocated.value node value
      links := allocated.links.list_add_before (.head h) (.elem node)
      headCount := Function.update map.headCount h (increment (map.headCount h))
      count := increment map.count }

/-- `hash_map_put`, which returns 0. The value is copied. -/
def hash_map_put (map : HashMap) (keyname : CString) (value : List UInt8) : Option HashMap :=
  (map.find keyname).bind fun result =>
    match result.2 with
    | some node => some { map with value := Function.update map.value node value }
    | none =>
      if map.full then
        map.hash_map_resize.bind fun map =>
          (map.headAt (bucketOf map.capcity (string_hash keyname))).bind fun h =>
            map.insert h keyname value
      else map.insert result.1 keyname value

/-- A node is unlinked and freed, and counted off. -/
def remove (map : HashMap) (h node : Nat) : HashMap :=
  { map with
    links := map.links.list_delete (.elem node)
    headCount := Function.update map.headCount h (decrement (map.headCount h))
    count := decrement map.count }

/-- `hash_map_del`, and what it returns. -/
def hash_map_del (map : HashMap) (keyname : CString) : Option (HashMap × Int) :=
  (map.find keyname).map fun result =>
    match result.2 with
    | some node => (map.remove result.1 node, 0)
    | none => (map, -1)

def hash_map_size (map : HashMap) : Nat :=
  map.count

/-- The walk of `hash_map_clearall` over the list of a head, for so many nodes at most. It ends
at a node that is an empty list. -/
def clearLoop (head : Nat) : Nat → Node Nat Nat → HashMap → Option HashMap
  | 0, _, _ => none
  | turns + 1, ls, map =>
    if map.links.list_empty ls then some map
    else
      match ls with
      | .head _ => none
      | .elem node => clearLoop head turns (map.links.list_next ls) (map.remove head node)

/-- The loop of `hash_map_clearall` over so many buckets, the last of them first. -/
def clearBuckets : Nat → HashMap → Option HashMap
  | 0, map => some map
  | i + 1, map =>
    (map.headAt i).bind fun head =>
      (clearLoop head (map.nodes + 1) (map.links.list_next (.head head)) map).bind (clearBuckets i)

/-- `hash_map_clear`. Its index is an `int`. -/
def hash_map_clear (map : HashMap) : Option HashMap :=
  clearBuckets (intOf (decrement map.capcity) + 1).toNat map

/-! ### Calls -/

inductive Operation where
  | hash_map_put (keyname : CString) (value : List UInt8)
  | hash_map_get (keyname : CString)
  | hash_map_del (keyname : CString)
  | hash_map_clear
  deriving DecidableEq, Repr

/-- A call, and its answer: what it returns, and the value it stores. -/
def perform (map : HashMap) : Operation → Option (HashMap × Int × Option (List UInt8))
  | .hash_map_put keyname value =>
    (map.hash_map_put keyname value).map fun after => (after, 0, none)
  | .hash_map_get keyname => (map.hash_map_get keyname).map fun answer => (map, answer)
  | .hash_map_del keyname => (map.hash_map_del keyname).map fun result => (result.1, result.2, none)
  | .hash_map_clear => map.hash_map_clear.map fun after => (after, 0, none)

end HashMap

end Nattan
