/-
This file proves that `hash_map_t` is a finite map from whole keys to values, as long as no key
is taken for another and the map can grow when it must.

What a key should be answered is read off the calls: the value of the last put of exactly that
key behind which there is no del of it and no clear. The keys alive are kept in the order they
were put in, since the first of them that a key is the beginning of, with the same hash, is
the one that is found. That is another key than the one that is looked for when a longer key
with the same hash is alive and the key itself is not, or was put in later.
-/

import Mathlib.Data.List.Find
import Nattan.HashMapBuckets
import Nattan.Transition

namespace Nattan

namespace HashMap

/-! ### Finite maps -/

/-- The value of a key behind these calls, the last of them first. -/
def stored : List Operation → CString → Option (List UInt8)
  | [], _ => none
  | .hash_map_put keyname value :: calls, key =>
    if keyname = key then some value else stored calls key
  | .hash_map_get _ :: calls, key => stored calls key
  | .hash_map_del keyname :: calls, key => if keyname = key then none else stored calls key
  | .hash_map_clear :: _, _ => none

/-- The keys alive behind these calls, in the order they were put in. -/
def live : List Operation → List CString
  | [] => []
  | .hash_map_put keyname _ :: calls =>
    if keyname ∈ live calls then live calls else live calls ++ [keyname]
  | .hash_map_get _ :: calls => live calls
  | .hash_map_del keyname :: calls => (live calls).erase keyname
  | .hash_map_clear :: _ => []

/-- What a call should answer. -/
def expected (calls : List Operation) : Operation → Int × Option (List UInt8)
  | .hash_map_put _ _ => (0, none)
  | .hash_map_get keyname =>
    match stored calls keyname with
    | some value => (0, some value)
    | none => (-1, none)
  | .hash_map_del keyname => (if (stored calls keyname).isSome then 0 else -1, none)
  | .hash_map_clear => (0, none)

theorem live_nodup (calls : List Operation) : (live calls).Nodup := by
  induction calls with
  | nil => exact List.nodup_nil
  | cons call calls inductionHypothesis =>
    cases call with
    | hash_map_put keyname value =>
      rw [live]
      split
      · exact inductionHypothesis
      · rename_i absent
        refine List.nodup_append.mpr ⟨inductionHypothesis, List.nodup_singleton _, ?_⟩
        exact fun key member last own same => absent (List.mem_singleton.mp own ▸ same ▸ member)
    | hash_map_get keyname => exact inductionHypothesis
    | hash_map_del keyname => exact inductionHypothesis.erase keyname
    | hash_map_clear => exact List.nodup_nil

/-- The keys alive are those with a value. -/
theorem mem_live (calls : List Operation) (key : CString) :
    key ∈ live calls ↔ (stored calls key).isSome = true := by
  induction calls with
  | nil => exact ⟨fun member => absurd member List.not_mem_nil, fun some_ => by cases some_⟩
  | cons call calls inductionHypothesis =>
    cases call with
    | hash_map_put keyname value =>
      rw [live, stored]
      by_cases same : keyname = key
      · rw [if_pos same]
        refine ⟨fun _ => rfl, fun _ => ?_⟩
        split
        · rename_i member
          exact same ▸ member
        · exact List.mem_append_right _ (List.mem_singleton.mpr same.symm)
      · rw [if_neg same, ← inductionHypothesis]
        split
        · rfl
        · rw [List.mem_append, List.mem_singleton]
          exact ⟨fun either => either.resolve_right (Ne.symm same), .inl⟩
    | hash_map_get keyname => exact inductionHypothesis
    | hash_map_del keyname =>
      rw [live, stored, (live_nodup calls).mem_erase_iff]
      by_cases same : keyname = key
      · rw [if_pos same]
        exact ⟨fun both => absurd same.symm both.1, fun impossible => by cases impossible⟩
      · rw [if_neg same, ← inductionHypothesis]
        exact ⟨And.right, fun member => ⟨Ne.symm same, member⟩⟩
    | hash_map_clear =>
      exact ⟨fun member => absurd member List.not_mem_nil, fun some_ => by cases some_⟩

/-! ### Runs -/

/-- Whether a key is taken for another: it has the same hash, and is the beginning of it. -/
def takenFor (key name : CString) : Bool :=
  string_hash key = string_hash name ∧ key.chars <+: name.chars

/-- A map, and the calls it has been through, the last of them first. -/
structure Run where
  map : HashMap
  calls : List Operation

namespace Run

def step (run : Run) (operation : Operation) : Option Run :=
  (run.map.perform operation).map fun result =>
    { map := result.1, calls := operation :: run.calls }

/-- A call gives the answer of a finite map. -/
def Answers (run : Run) (operation : Operation) : Prop :=
  ∃ after, run.map.perform operation = some (after, expected run.calls operation)

/-- `hash_map_size` is the number of distinct keys with a value. -/
def Sized (run : Run) : Prop :=
  ∃ keys : List CString, keys.Nodup ∧
    (∀ key, key ∈ keys ↔ (stored run.calls key).isSome = true) ∧
    run.map.hash_map_size = keys.length

/-- A key of fewer than 1024 characters. -/
def Short (_ : Run) : Operation → Prop
  | .hash_map_put keyname _ | .hash_map_get keyname | .hash_map_del keyname =>
    keyname.strlen < 1024
  | .hash_map_clear => True

/-- The first key alive that a key is taken for, if there is one, is the key itself. -/
def Own (run : Run) (key : CString) : Prop :=
  ((live run.calls).find? (takenFor key)).getD key = key

/-- No key is taken for another, and a new one does not meet a full map of the capacity 2^30. -/
def Apart (run : Run) : Operation → Prop
  | .hash_map_put keyname _ => keyname.strlen < 1024 ∧ run.Own keyname ∧
      (keyname ∉ live run.calls → run.map.full = true → run.map.capcity < 2 ^ 30)
  | .hash_map_get keyname | .hash_map_del keyname => keyname.strlen < 1024 ∧ run.Own keyname
  | .hash_map_clear => True

/-- The nodes of the map are the keys alive, with their values. -/
def Represents (run : Run) (order : List Nat) : Prop :=
  run.map.Holds order ∧ order.map run.map.keyname = live run.calls ∧
    ∀ node ∈ order, stored run.calls (run.map.keyname node) = some (run.map.value node)

section Steps

variable {run after : Run} {order : List Nat} {key : CString} {node : Nat}

/-- Nodes are found as the keys alive are. -/
theorem Represents.find (represents : run.Represents order) (short : key.strlen < 1024) :
    (order.find? (run.map.found key)).map run.map.keyname =
      (live run.calls).find? (takenFor key) := by
  obtain ⟨holds, names, _⟩ := represents
  have same : ∀ node ∈ order,
      run.map.found key node = (takenFor key ∘ run.map.keyname) node := by
    intro node member
    rw [Bool.eq_iff_iff, found_iff short, Function.comp_apply, takenFor, decide_eq_true_eq,
      holds.named node member]
  rw [← names, List.find?_map, List.find?_congr same]

theorem takenFor_self (key : CString) : takenFor key key = true :=
  decide_eq_true ⟨rfl, List.prefix_refl _⟩

/-- A key that is not found is not alive, -/
theorem Represents.notMem_of_none (represents : run.Represents order) (short : key.strlen < 1024)
    (miss : order.find? (run.map.found key) = none) : key ∉ live run.calls := by
  have none_ := represents.find short
  rw [miss, Option.map_none] at none_
  exact fun member => List.find?_eq_none.mp none_.symm key member (takenFor_self key)

/-- and one that is found is the key of its node. -/
theorem Represents.keyname_of_some (represents : run.Represents order)
    (short : key.strlen < 1024) (own : run.Own key)
    (hit : order.find? (run.map.found key) = some node) :
    node ∈ order ∧ run.map.keyname node = key := by
  have some_ := represents.find short
  rw [hit, Option.map_some] at some_
  rw [Own, ← some_, Option.getD_some] at own
  exact ⟨List.mem_of_find?_eq_some hit, own⟩

/-- Two nodes have different names. -/
theorem Represents.inj (represents : run.Represents order) {first second : Nat}
    (member : first ∈ order) (member' : second ∈ order)
    (same : run.map.keyname first = run.map.keyname second) : first = second := by
  have nodup : (order.map run.map.keyname).Nodup := by
    rw [represents.2.1]
    exact live_nodup _
  exact List.inj_on_of_nodup_map nodup member member' same

theorem stored_of_notMem {calls : List Operation} (absent : key ∉ live calls) :
    stored calls key = none :=
  Option.not_isSome_iff_eq_none.mp fun some_ => absent ((mem_live calls key).mpr some_)

theorem Represents.get (represents : run.Represents order) (short : key.strlen < 1024)
    (own : run.Own key) :
    run.map.hash_map_get key = some (expected run.calls (.hash_map_get key)) := by
  rw [represents.1.get, expected]
  cases hit : order.find? (run.map.found key) with
  | none => rw [stored_of_notMem (represents.notMem_of_none short hit)]
  | some node =>
    obtain ⟨member, same⟩ := represents.keyname_of_some short own hit
    have value := represents.2.2 node member
    rw [same] at value
    rw [value]

/-- A key alive gets another value. -/
theorem Represents.put_found (represents : run.Represents order) (value : List UInt8)
    (member : node ∈ order) (same : run.map.keyname node = key) :
    Represents
      ⟨{ run.map with value := Function.update run.map.value node value },
        .hash_map_put key value :: run.calls⟩ order := by
  have alive : key ∈ live run.calls := by
    rw [← represents.2.1, ← same]
    exact List.mem_map_of_mem member
  refine ⟨represents.1.set_value _, ?_, fun other inside => ?_⟩
  · rw [live, if_pos alive]
    exact represents.2.1
  · show stored (.hash_map_put key value :: run.calls) (run.map.keyname other) =
      some (Function.update run.map.value node value other)
    rw [stored]
    by_cases this : other = node
    · rw [this, Function.update_self, if_pos same.symm]
    · rw [Function.update_of_ne this, if_neg]
      · exact represents.2.2 other inside
      · exact fun equal => this (represents.inj inside member (equal.symm.trans same.symm))

/-- A new key is alive behind its put. -/
theorem Represents.put_new (represents : run.Represents order) {value : List UInt8}
    {map : HashMap} (absent : key ∉ live run.calls) (holds : map.Holds (order ++ [run.map.nodes]))
    (keyname : map.keyname = Function.update run.map.keyname run.map.nodes key)
    (values : map.value = Function.update run.map.value run.map.nodes value) :
    Represents ⟨map, .hash_map_put key value :: run.calls⟩ (order ++ [run.map.nodes]) := by
  have other : ∀ node ∈ order, node ≠ run.map.nodes := fun node inside =>
    Nat.ne_of_lt (represents.1.allocated node inside)
  have old : order.map map.keyname = order.map run.map.keyname :=
    List.map_congr_left fun node inside => by
      rw [keyname, Function.update_of_ne (other node inside)]
  refine ⟨holds, ?_, fun node inside => ?_⟩
  · show (order ++ [run.map.nodes]).map map.keyname = live (.hash_map_put key value :: run.calls)
    rw [live, if_neg absent, List.map_append, old, represents.2.1, List.map_singleton, keyname,
      Function.update_self]
  · show stored (.hash_map_put key value :: run.calls) (map.keyname node) = some (map.value node)
    rw [stored, keyname, values]
    rcases List.mem_append.mp inside with before | last
    · have notKey : key ≠ run.map.keyname node := by
        rintro rfl
        refine absent ?_
        rw [← represents.2.1]
        exact List.mem_map_of_mem before
      rw [Function.update_of_ne (other node before), Function.update_of_ne (other node before),
        if_neg notKey]
      exact represents.2.2 node before
    · rw [List.mem_singleton.mp last, Function.update_self, Function.update_self, if_pos rfl]

/-- Where the names are different an erased node is an erased name. -/
theorem map_erase_of_nodup {names : Nat → CString} (member : node ∈ order)
    (nodup : (order.map names).Nodup) :
    (order.erase node).map names = (order.map names).erase (names node) := by
  obtain ⟨front, back, rfl⟩ := List.append_of_mem member
  rw [List.map_append, List.map_cons] at nodup ⊢
  have notFront' : names node ∉ front.map names := fun inside =>
    (List.nodup_append.mp nodup).2.2 _ inside _ List.mem_cons_self rfl
  have notFront : node ∉ front := fun inside => notFront' (List.mem_map_of_mem inside)
  rw [List.erase_append_right _ notFront, List.erase_cons_head,
    List.erase_append_right _ notFront', List.erase_cons_head, List.map_append]

/-- A key is not alive behind its del. -/
theorem Represents.del_found (represents : run.Represents order) {map : HashMap}
    (member : node ∈ order) (same : run.map.keyname node = key)
    (holds : map.Holds (order.erase node)) (keyname : map.keyname = run.map.keyname)
    (values : map.value = run.map.value) :
    Represents ⟨map, .hash_map_del key :: run.calls⟩ (order.erase node) := by
  refine ⟨holds, ?_, fun other inside => ?_⟩
  · show (order.erase node).map map.keyname = (live run.calls).erase key
    have nodup : (order.map run.map.keyname).Nodup := by
      rw [represents.2.1]
      exact live_nodup _
    rw [keyname, map_erase_of_nodup member nodup, represents.2.1, same]
  · show stored (.hash_map_del key :: run.calls) (map.keyname other) = some (map.value other)
    have before := List.mem_of_mem_erase inside
    have different : key ≠ run.map.keyname other := by
      intro equal
      have this : other = node := represents.inj before member (equal.symm.trans same.symm)
      exact (represents.1.nodup.mem_erase_iff.mp inside).1 this
    rw [stored, keyname, values, if_neg different]
    exact represents.2.2 other before

/-- A del of a key that is not alive changes nothing. -/
theorem Represents.del_missing (represents : run.Represents order)
    (absent : key ∉ live run.calls) :
    Represents ⟨run.map, .hash_map_del key :: run.calls⟩ order := by
  refine ⟨represents.1, ?_, fun node inside => ?_⟩
  · show order.map run.map.keyname = (live run.calls).erase key
    rw [List.erase_of_not_mem absent]
    exact represents.2.1
  · show stored (.hash_map_del key :: run.calls) (run.map.keyname node) =
      some (run.map.value node)
    have different : key ≠ run.map.keyname node := by
      rintro rfl
      refine absent ?_
      rw [← represents.2.1]
      exact List.mem_map_of_mem inside
    rw [stored, if_neg different]
    exact represents.2.2 node inside

/-- A call where no key is taken for another returns what it should, and behind it the map is
again what the calls say. -/
theorem Represents.perform (represents : run.Represents order) {operation : Operation}
    (apart : run.Apart operation) :
    ∃ map order', run.map.perform operation = some (map, expected run.calls operation) ∧
      Represents ⟨map, operation :: run.calls⟩ order' := by
  cases operation with
  | hash_map_put key value =>
    obtain ⟨short, own, grows⟩ := apart
    cases hit : order.find? (run.map.found key) with
    | none =>
      have absent := represents.notMem_of_none short hit
      obtain ⟨map, puts, holds, keyname, values, _⟩ :=
        represents.1.put_new value hit short (grows absent)
      refine ⟨map, _, ?_, represents.put_new absent holds keyname values⟩
      rw [HashMap.perform, puts]
      rfl
    | some node =>
      obtain ⟨member, same⟩ := represents.keyname_of_some short own hit
      refine ⟨_, order, ?_, represents.put_found value member same⟩
      rw [HashMap.perform, represents.1.put_found value hit]
      rfl
  | hash_map_get key =>
    refine ⟨run.map, order, ?_, represents⟩
    rw [HashMap.perform, represents.get apart.1 apart.2]
    rfl
  | hash_map_del key =>
    obtain ⟨short, own⟩ := apart
    obtain ⟨result, deletes, ⟨miss, same⟩ | ⟨node, h, hit, same, holds⟩⟩ := represents.1.del key
    · have absent := represents.notMem_of_none short miss
      refine ⟨run.map, order, ?_, represents.del_missing absent⟩
      rw [HashMap.perform, deletes, same, expected, stored_of_notMem absent]
      rfl
    · obtain ⟨member, named⟩ := represents.keyname_of_some short own hit
      refine ⟨run.map.remove h node, _, ?_, represents.del_found member named holds rfl rfl⟩
      have alive : (stored run.calls key).isSome = true := by
        rw [← mem_live, ← represents.2.1, ← named]
        exact List.mem_map_of_mem member
      rw [HashMap.perform, deletes, same, expected, if_pos alive]
      rfl
  | hash_map_clear =>
    obtain ⟨map, clears, holds⟩ := represents.1.clear
    refine ⟨map, [], ?_, holds, rfl, fun _ inside => absurd inside List.not_mem_nil⟩
    rw [HashMap.perform, clears]
    rfl

end Steps

/-- A map behind its initialisation. -/
def Begins (run : Run) : Prop :=
  hash_map_init = some run.map ∧ run.calls = []

theorem Begins.represents {run : Run} (begins : run.Begins) : run.Represents [] := by
  obtain ⟨map, inits, holds⟩ := hash_map_init_holds
  obtain ⟨begun, calls⟩ := begins
  obtain rfl : map = run.map := Option.some.inj (inits.symm.trans begun)
  exact ⟨holds, by rw [calls]; rfl, fun _ inside => absurd inside List.not_mem_nil⟩

/-- While no key is taken for another and no full map of the capacity 2^30 must grow, the map is
a finite map from whole keys to values. -/
theorem keys_apart {start run : Run} (begins : start.Begins)
    (reached : ReachableBy step Apart start run) :
    run.Sized ∧ ∀ operation, run.Apart operation → run.Answers operation := by
  have represents : ∃ order, run.Represents order := by
    refine reached.invariant (fun (run : Run) => ∃ order, run.Represents order)
      ⟨[], begins.represents⟩ ?_
    rintro before operation after ⟨order, represents⟩ apart stepped
    obtain ⟨map, order', performs, next⟩ := represents.perform apart
    rw [step, performs] at stepped
    have same : (⟨map, operation :: before.calls⟩ : Run) = after := Option.some.inj stepped
    exact ⟨order', same ▸ next⟩
  obtain ⟨order, represents⟩ := represents
  refine ⟨⟨live run.calls, live_nodup _, mem_live _, ?_⟩, fun operation apart => ?_⟩
  · rw [← represents.2.1, List.length_map]
    exact represents.1.count
  · obtain ⟨map, _, performs, _⟩ := represents.perform apart
    exact ⟨map, performs⟩

instance (run : Run) (key : CString) : Decidable (run.Own key) :=
  inferInstanceAs (Decidable (_ = _))

instance (run : Run) (operation : Operation) : Decidable (run.Apart operation) :=
  match operation with
  | .hash_map_put _ _ => inferInstanceAs (Decidable (_ ∧ _ ∧ (_ → _ → _)))
  | .hash_map_get _ | .hash_map_del _ => inferInstanceAs (Decidable (_ ∧ _))
  | .hash_map_clear => inferInstanceAs (Decidable True)

/-- Two keys, one of them put in twice, the other one deleted. -/
theorem keys_apart_two :
    ∃ run : Run, run.map.hash_map_size = 1 ∧ run.Sized ∧
      ∀ operation, run.Apart operation → run.Answers operation := by
  obtain ⟨map, inits⟩ : ∃ map, hash_map_init = some map :=
    ⟨Option.get _ (by decide +kernel), (Option.some_get _).symm⟩
  have executed : ∃ run, (hash_map_init.bind fun map => runBy step Apart ⟨map, []⟩
      [.hash_map_put ⟨[97], by decide⟩ [1], .hash_map_put ⟨[98], by decide⟩ [2],
        .hash_map_put ⟨[97], by decide⟩ [3], .hash_map_del ⟨[98], by decide⟩]) = some run ∧
      run.map.hash_map_size = 1 :=
    ⟨Option.get _ (by decide +kernel), (Option.some_get _).symm, by decide +kernel⟩
  obtain ⟨run, executed, size⟩ := executed
  rw [inits] at executed
  have begins : Begins ⟨map, []⟩ := ⟨inits, rfl⟩
  exact ⟨run, size, keys_apart begins (reachableBy_of_runBy executed)⟩

/-- The key `id`. -/
def shorter : CString :=
  ⟨[105, 100], by decide⟩

/-- The key `idjftqnu`, with the same hash. -/
def longer : CString :=
  ⟨[105, 100, 106, 102, 116, 113, 110, 117], by decide⟩

/-- With only the longer key put in, the shorter one is found. -/
theorem not_keys_apart :
    ∃ start run : Run, start.Begins ∧ ReachableBy step Short start run ∧
      ∃ operation, run.Short operation ∧ ¬ run.Answers operation := by
  obtain ⟨map, inits⟩ : ∃ map, hash_map_init = some map :=
    ⟨Option.get _ (by decide +kernel), (Option.some_get _).symm⟩
  have executed : ∃ run, (hash_map_init.bind fun map =>
        step ⟨map, []⟩ (.hash_map_put longer [1])) = some run ∧
      (run.map.perform (.hash_map_get shorter)).map Prod.snd = some (0, some [1]) ∧
      expected run.calls (.hash_map_get shorter) = (-1, none) :=
    ⟨Option.get _ (by decide +kernel), (Option.some_get _).symm, by decide +kernel,
      by decide +kernel⟩
  obtain ⟨run, stepped, answer, should⟩ := executed
  rw [inits] at stepped
  have short : Short ⟨map, []⟩ (.hash_map_put longer [1]) := by
    show longer.strlen < 1024
    decide
  refine ⟨⟨map, []⟩, run, ⟨inits, rfl⟩, .single ⟨_, short, stepped⟩, .hash_map_get shorter, ?_, ?_⟩
  · show shorter.strlen < 1024
    decide
  · rintro ⟨after, answers⟩
    rw [answers, should] at answer
    cases answer

end Run

end HashMap

end Nattan
