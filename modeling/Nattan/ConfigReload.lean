/-
This file models `load` and `reload` of `ConfigParser` on a file system that changes
between the calls, and proves when a failed call keeps the configuration.

A name leads to nothing, to a file that cannot be opened, or to one that can. `load` asks
`access` with `F_OK`, which a file that cannot be opened passes, and returns if there is
nothing. Behind that test, and in `reload` from the start, the map is cleared first, and
the loader reads the lines of a stream that may not be open. It has none then, and what
is left of the configuration is one section without a name and without keys.

So a call that cannot open its file keeps the configuration if it is a `load` and there
is no file, or if there was nothing to keep.
-/

import Nattan.ConfigParser

namespace Nattan.ConfigReload

open ConfigParser

/-! ### The file system and the calls -/

/-- What a path leads to. -/
inductive Entry where
  | missing
  | unreadable
  | readable (contents : Text)
  deriving DecidableEq, Repr

abbrev FileSystem := Text → Entry

/-- `file.c_str()`. -/
def c_str (file : Text) : Text :=
  file.takeWhile fun byte => decide (byte ≠ 0)

/-- What `access` and `open` find under a name. The empty path leads to nothing. -/
def FileSystem.find (files : FileSystem) (file : Text) : Entry :=
  if c_str file = [] then .missing else files (c_str file)

/-- The contents of a file that can be opened. -/
def FileSystem.opened (files : FileSystem) (file : Text) : Option Text :=
  match files.find file with
  | .readable contents => some contents
  | .missing | .unreadable => none

/-- A `ConfigParser` object, with the name it keeps for `reload`. -/
structure State where
  filename : Text
  parser : ConfigParser

def new : State where
  filename := []
  parser := ConfigParser.new

/-- `configMap.clear()` and `loadConfig2Map()`. A stream that is not open has no lines. -/
def refill (state : State) (files : FileSystem) : State :=
  { state with parser := { state.parser with
      configMap := loadConfig2Map ((files.opened state.filename).getD []) } }

/-- `load(file)`. -/
def load (state : State) (files : FileSystem) (file : Text) : State :=
  if files.find file = .missing then
    { state with parser := { state.parser with isFileExisted := false } }
  else refill { state with filename := file } files

/-- `reload()`. -/
def reload (state : State) (files : FileSystem) : State :=
  refill state files

inductive Call where
  | load (file : Text)
  | reload
  deriving DecidableEq, Repr

/-- A call, with the file system as it is then. -/
def call (state : State) (files : FileSystem) : Call → State
  | .load file => load state files file
  | .reload => reload state files

/-- The file of a call. -/
def Call.file (state : State) : Call → Text
  | .load file => file
  | .reload => state.filename

/-! ### The property and the condition -/

/-- What a call should do: the results stay if its file cannot be opened, and are those of the file
alone if it can. -/
def Keeps (state : State) (files : FileSystem) (made : Call) : Prop :=
  ∀ section_ key, getValueByKey (call state files made).parser section_ key =
    match files.opened (made.file state) with
    | none => getValueByKey state.parser section_ key
    | some contents => (filed (getlines contents) section_ key).getD []

/-- The file can be opened, or it is not there and the call is a `load`, or there is nothing to
keep. -/
def Harmless (state : State) (files : FileSystem) (made : Call) : Prop :=
  (files.opened (made.file state)).isSome ∨
    (∃ file, made = .load file ∧ files.find file = .missing) ∨
    ∀ section_ key, getValueByKey state.parser section_ key = []

/-- A property of every call in a sequence. -/
def Always (holds : State → FileSystem → Call → Prop) :
    State → List (FileSystem × Call) → Prop
  | _, [] => True
  | state, (files, made) :: rest =>
    holds state files made ∧ Always holds (call state files made) rest

theorem always_congr {holds other : State → FileSystem → Call → Prop}
    (same : ∀ state files made, holds state files made ↔ other state files made) (state : State)
    (calls : List (FileSystem × Call)) : Always holds state calls ↔ Always other state calls := by
  induction calls generalizing state with
  | nil => exact Iff.rfl
  | cons first rest inductionHypothesis =>
    exact and_congr (same state first.1 first.2) (inductionHypothesis _)

/-! ### One call -/

/-- The results after the map was filled from the file that is remembered. -/
theorem getValueByKey_refill (state : State) (files : FileSystem) (section_ key : Text) :
    getValueByKey (refill state files).parser section_ key =
      (filed (getlines ((files.opened state.filename).getD [])) section_ key).getD [] :=
  getValueByKey_load state.parser _ section_ key

/-- A file without lines has no keys. -/
theorem filed_nil (section_ key : Text) : filed (getlines []) section_ key = none := by
  show (([([], [])] : List (Text × List (Text × Text))).lookup section_).bind _ = none
  rw [lookup_entry, List.lookup_nil, Option.or_none]
  split
  · rfl
  · rfl

/-- Filling the map keeps the promise if the file can be opened, or if there was nothing to keep. -/
theorem refill_keeps_iff (state : State) (files : FileSystem) (before : ConfigParser) :
    (∀ section_ key, getValueByKey (refill state files).parser section_ key =
        match files.opened state.filename with
        | none => getValueByKey before section_ key
        | some contents => (filed (getlines contents) section_ key).getD []) ↔
      (files.opened state.filename).isSome ∨
        ∀ section_ key, getValueByKey before section_ key = [] := by
  simp only [getValueByKey_refill]
  cases files.opened state.filename with
  | some contents => exact iff_of_true (fun _ _ => rfl) (Or.inl rfl)
  | none =>
    simp only [Option.getD_none, filed_nil, Option.isSome_none, Bool.false_eq_true, false_or]
    exact forall_congr' fun section_ => forall_congr' fun key => eq_comm

/-- A call does what it should if and only if it is harmless. -/
theorem keeps_iff (state : State) (files : FileSystem) (made : Call) :
    Keeps state files made ↔ Harmless state files made := by
  cases made with
  | load file =>
    by_cases found : files.find file = .missing
    · refine iff_of_true (fun section_ key => ?_) (Or.inr (Or.inl ⟨file, rfl, found⟩))
      have unopened : files.opened file = none := by
        rw [FileSystem.opened, found]
      rw [call, load, if_pos found, Call.file, unopened]
      rfl
    · refine Iff.trans ?_ ((refill_keeps_iff { state with filename := file } files
        state.parser).trans ?_)
      · rw [Keeps, call, load, if_neg found, Call.file]
      · refine or_congr_right (Iff.symm (or_iff_right ?_))
        rintro ⟨other, same, missing⟩
        cases same
        exact found missing
  | reload =>
    refine (refill_keeps_iff state files state.parser).trans ?_
    refine or_congr_right (Iff.symm (or_iff_right ?_))
    rintro ⟨_, same, -⟩
    cases same

/-! ### Every sequence of calls -/

/-- In a sequence of calls each keeps the configuration or replaces it as a whole if and only if
each is harmless. -/
theorem always_keeps_iff (calls : List (FileSystem × Call)) :
    Always Keeps new calls ↔ Always Harmless new calls :=
  always_congr keeps_iff new calls

/-- A file with one key under the name "a", as it is before and after its permissions change. -/
def withKey : FileSystem := fun path =>
  if path = [97] then .readable [91, 115, 93, 10, 107, 61, 118] else .missing

def withoutPermission : FileSystem := fun path => if path = [97] then .unreadable else .missing

theorem not_always_keeps :
    ¬ ∀ calls : List (FileSystem × Call), Always Keeps new calls := by
  intro keeps
  have kept := (keeps [(withKey, .load [97]), (withoutPermission, .reload)]).2.1
  exact absurd (kept [115] [107]) (by decide)

end Nattan.ConfigReload
