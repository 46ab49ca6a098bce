/-
This file models `ConfigParser`, and says what it makes of a file.

The loader reads line after line. A line that starts with '[' is a section, whatever it
ends with: its text is what is left without the first and the last character. A line
that does not start with '[' or '#' and has an equals sign is a key with its value. The
keys are collected in a map, which is inserted under the section when the next section
begins, and once more at the end. Both maps keep what was inserted first. The first
section does not clear the map, so the keys before it are taken for its own.

The length of a line is kept in an `int`. In a line of 2^31 bytes or more it is
something else.

What comes out of the loop is stated without the loop: the file is cut into blocks at
the lines that start with '[', and the value of a key in a section is the first one in
the first block with the text of the section.
-/

import Nattan.File

namespace Nattan

namespace ConfigParser

/-- A `std::string`. -/
abbrev Text := List UInt8

def SECTB : UInt8 := 91
def SECTE : UInt8 := 93
def COMTB : UInt8 := 35
def KEYB : UInt8 := 61
def space : UInt8 := 32
def newline : UInt8 := 10

/-- The types of lines. -/
inductive LineType where
  | SECTION
  | COMMENT
  | KEYVAL
  | ERRLINE
  deriving DecidableEq, Repr

/-! ### Lines -/

/-- The lines that `getline` gives. `pending` is the beginning of the line. -/
def linesFrom (pending : Text) : Text → List Text
  | [] => if pending = [] then [] else [pending]
  | byte :: rest =>
    if byte = newline then pending :: linesFrom [] rest else linesFrom (pending ++ [byte]) rest

def getlines (contents : Text) : List Text :=
  linesFrom [] contents

/-- The loop over the spaces at the beginning of a line, from `idx` on: whether it comes to the
end. The character behind the last one is a null. -/
def emptyFrom (len : Int) : Text → Nat → Bool
  | [], idx => decide (len ≤ idx)
  | byte :: rest, idx =>
    if byte ≠ space ∨ len ≤ idx then decide (len ≤ idx) else emptyFrom len rest (idx + 1)

/-- The loop that looks for an equals sign, from `idx` on: whether it finds one. -/
def keyFrom (len : Int) : Text → Nat → Bool
  | [], _ => false
  | byte :: rest, idx =>
    if byte = KEYB then true else if len ≤ idx then false else keyFrom len rest (idx + 1)

/-- An `int` converted to a `size_t`. -/
def sizeOfInt (value : Int) : Nat :=
  (value % 2 ^ 64).toNat

/-- `decideLineType`: the type of a line, and its content. -/
def decideLineType (line : Text) : LineType × Text :=
  let len := intOf line.length
  let lst := line.headD 0
  if lst = SECTB then (.SECTION, (line.drop 1).take (sizeOfInt (len - 2)))
  else if lst = COMTB then (.COMMENT, [])
  else if emptyFrom len line 0 then (.ERRLINE, [])
  else if keyFrom len line 0 then (.KEYVAL, line)
  else (.ERRLINE, [])

/-- What stands before the first equals sign. -/
def keyOf (content : Text) : Text :=
  content.takeWhile fun byte => decide (byte ≠ KEYB)

/-- What stands behind the first equals sign. -/
def valueOf (content : Text) : Text :=
  (content.dropWhile fun byte => decide (byte ≠ KEYB)).drop 1

/-! ### The maps -/

/-- A `std::map` from texts. -/
abbrev Map (Value : Type) := Text → Option Value

/-- `insert`, which leaves an entry that is there. -/
def Map.insert {Value : Type} (map : Map Value) (key : Text) (value : Value) : Map Value :=
  fun other => if (map other).isNone ∧ other = key then some value else map other

/-- The variables of the loop in `loadConfig2Map`. -/
structure Loader where
  configMap : Map (Map Text)
  section_ : Text
  kvMap : Map Text
  is1stSec : Bool

def Loader.start : Loader where
  configMap := fun _ => none
  section_ := []
  kvMap := fun _ => none
  is1stSec := true

/-- One turn of the loop. -/
def Loader.line (loader : Loader) (line : Text) : Loader :=
  match decideLineType line with
  | (.SECTION, content) =>
    if loader.is1stSec then { loader with is1stSec := false, section_ := content }
    else
      { loader with
        configMap := loader.configMap.insert loader.section_ loader.kvMap
        kvMap := fun _ => none
        section_ := content }
  | (.KEYVAL, content) =>
    { loader with kvMap := loader.kvMap.insert (keyOf content) (valueOf content) }
  | (.COMMENT, _) | (.ERRLINE, _) => loader

/-- What is inserted behind the loop. -/
def Loader.finish (loader : Loader) : Map (Map Text) :=
  loader.configMap.insert loader.section_ loader.kvMap

/-- `loadConfig2Map`. -/
def loadConfig2Map (contents : Text) : Map (Map Text) :=
  ((getlines contents).foldl Loader.line .start).finish

end ConfigParser

open ConfigParser in
/-- A `ConfigParser` object. -/
structure ConfigParser where
  isFileExisted : Bool
  configMap : Map (Map Text)

namespace ConfigParser

def new : ConfigParser where
  isFileExisted := false
  configMap := fun _ => none

/-- `load`. The file may not be there. -/
def load (parser : ConfigParser) (file : Option Text) : ConfigParser :=
  match file with
  | none => { parser with isFileExisted := false }
  | some contents => { parser with configMap := loadConfig2Map contents }

/-- `getValueByKey`. -/
def getValueByKey (parser : ConfigParser) (section_ key : Text) : Text :=
  match parser.configMap section_ with
  | none => []
  | some kvMap =>
    match kvMap key with
    | none => []
    | some value => value

/-! ### The blocks of a file -/

/-- The line starts with '['. -/
def startsSection (line : Text) : Bool :=
  decide (line.headD 0 = SECTB)

/-- The lines before the first that starts with '[', and each such line with those up to the
next. -/
def cut : List Text → List Text × List (Text × List Text)
  | [] => ([], [])
  | line :: rest =>
    if startsSection line then ([], (line, (cut rest).1) :: (cut rest).2)
    else (line :: (cut rest).1, (cut rest).2)

/-- The text of a section line. -/
def textOf (line : Text) : Text :=
  (decideLineType line).2

/-- The key and the value of a line that has them. -/
def pairOf (line : Text) : Option (Text × Text) :=
  match decideLineType line with
  | (.KEYVAL, content) => some (keyOf content, valueOf content)
  | _ => none

def pairs (lines : List Text) : List (Text × Text) :=
  lines.filterMap pairOf

/-- A block of the file: the text of its section and its keys with their values. -/
def blockOf (block : Text × List Text) : Text × List (Text × Text) :=
  (textOf block.1, pairs block.2)

/-- The blocks of the lines, after these keys have been read before any section. The keys before
the first section are in the first block, and the block of a file without sections has the
empty text. -/
def blocksAfter (collected : List (Text × Text)) (lines : List Text) :
    List (Text × List (Text × Text)) :=
  match (cut lines).2 with
  | [] => [([], collected ++ pairs (cut lines).1)]
  | (header, body) :: rest =>
    (textOf header, collected ++ pairs (cut lines).1 ++ pairs body) :: rest.map blockOf

/-- The blocks of the file. -/
def blocks (lines : List Text) : List (Text × List (Text × Text)) :=
  blocksAfter [] lines

/-- The value of a key in a section: the first one in the first block of the section. -/
def filed (lines : List Text) (section_ key : Text) : Option Text :=
  ((blocks lines).lookup section_).bind fun collected => collected.lookup key

/-! ### What the loop does -/

/-- The map of these keys, of which the first of each key counts. -/
def mapOf (collected : List (Text × Text)) : Map Text :=
  fun key => collected.lookup key

/-- What is found in a list: in its first entry, or else in the rest. -/
theorem lookup_entry {Value : Type} (key other : Text) (value : Value)
    (rest : List (Text × Value)) :
    ((key, value) :: rest).lookup other =
      (if other = key then some value else none).or (rest.lookup other) := by
  rw [List.lookup_cons]
  by_cases same : other = key
  · rw [if_pos same, Option.some_or, same, beq_self_eq_true]
  · rw [if_neg same, Option.none_or, beq_false_of_ne same]

theorem Map.insert_apply {Value : Type} (map : Map Value) (key : Text) (value : Value)
    (other : Text) :
    map.insert key value other = (map other).or (if other = key then some value else none) := by
  unfold Map.insert
  generalize map other = earlier
  cases earlier with
  | none => simp only [Option.isNone_none, true_and, Option.none_or]
  | some text => simp only [Option.isNone_some, Bool.false_eq_true, false_and, if_false,
      Option.some_or]

theorem insert_mapOf (collected : List (Text × Text)) (key value : Text) :
    (mapOf collected).insert key value = mapOf (collected ++ [(key, value)]) := by
  funext other
  rw [Map.insert_apply]
  simp only [mapOf, List.lookup_append, lookup_entry, List.lookup_nil, Option.or_none]

theorem decideLineType_of_first {line : Text} (first : line.headD 0 = SECTB) :
    decideLineType line =
      (.SECTION, (line.drop 1).take (sizeOfInt (intOf line.length - 2))) :=
  if_pos first

theorem decideLineType_of_startsSection {line : Text} (starts : startsSection line = true) :
    decideLineType line = (.SECTION, textOf line) := by
  rw [textOf, decideLineType_of_first (of_decide_eq_true starts)]

/-- A line that does not start with '[' is a key with its value, or nothing. -/
theorem decideLineType_of_not_startsSection {line : Text}
    (starts : ¬ startsSection line = true) : (decideLineType line).1 ≠ .SECTION := by
  have first : ¬ line.headD 0 = SECTB := fun same => starts (decide_eq_true same)
  unfold decideLineType
  simp only [if_neg first]
  split
  · decide
  · split
    · decide
    · split
      · exact fun same => by cases same
      · decide

/-- A section line that is not the first files the keys before it. -/
theorem line_of_startsSection {loader : Loader} {line : Text}
    (starts : startsSection line = true) (later : loader.is1stSec = false) :
    loader.line line =
      { configMap := loader.configMap.insert loader.section_ loader.kvMap
        section_ := textOf line
        kvMap := mapOf []
        is1stSec := false } := by
  unfold Loader.line
  rw [decideLineType_of_startsSection starts]
  simp only [later, Bool.false_eq_true, if_false]
  rfl

/-- The first section line only gives its text. -/
theorem line_of_startsSection_first {loader : Loader} {line : Text}
    (starts : startsSection line = true) (first : loader.is1stSec = true) :
    loader.line line = { loader with section_ := textOf line, is1stSec := false } := by
  unfold Loader.line
  rw [decideLineType_of_startsSection starts]
  simp only [first, if_true]

theorem pairs_singleton (line : Text) : pairs [line] = (pairOf line).toList := by
  unfold pairs
  cases found : pairOf line with
  | none => rw [List.filterMap_cons_none found, List.filterMap_nil, Option.toList_none]
  | some pair => rw [List.filterMap_cons_some found, List.filterMap_nil, Option.toList_some]

/-- Any other line adds its key. -/
theorem line_of_not_startsSection {loader : Loader} {line : Text} {collected : List (Text × Text)}
    (starts : ¬ startsSection line = true) (kept : loader.kvMap = mapOf collected) :
    loader.line line = { loader with kvMap := mapOf (collected ++ pairs [line]) } := by
  have notSection := decideLineType_of_not_startsSection starts
  rw [pairs_singleton]
  unfold Loader.line pairOf
  generalize decideLineType line = decided at notSection
  obtain ⟨type, content⟩ := decided
  cases type with
  | SECTION => exact absurd rfl notSection
  | KEYVAL =>
    simp only [kept, insert_mapOf, Option.toList_some]
  | COMMENT =>
    simp only [Option.toList_none, List.append_nil, ← kept]
  | ERRLINE =>
    simp only [Option.toList_none, List.append_nil, ← kept]

theorem pairs_append (lines others : List Text) :
    pairs (lines ++ others) = pairs lines ++ pairs others :=
  List.filterMap_append

theorem pairs_cons (line : Text) (lines : List Text) :
    pairs (line :: lines) = pairs [line] ++ pairs lines :=
  pairs_append [line] lines

theorem cut_of_startsSection {line : Text} (starts : startsSection line = true)
    (rest : List Text) : cut (line :: rest) = ([], (line, (cut rest).1) :: (cut rest).2) :=
  if_pos starts

theorem cut_of_not_startsSection {line : Text} (starts : ¬ startsSection line = true)
    (rest : List Text) : cut (line :: rest) = (line :: (cut rest).1, (cut rest).2) :=
  if_neg starts

/-- Behind the first section, the loop files what it has collected, and then the blocks. -/
theorem finish_foldl (section_ : Text) (lines : List Text) (loader : Loader)
    (collected : List (Text × Text)) (later : loader.is1stSec = false)
    (kept : loader.kvMap = mapOf collected) :
    (lines.foldl Loader.line loader).finish section_ =
      (loader.configMap section_).or
        ((((loader.section_, collected ++ pairs (cut lines).1) ::
          (cut lines).2.map blockOf).lookup section_).map mapOf) := by
  induction lines generalizing loader collected with
  | nil =>
    rw [List.foldl_nil, Loader.finish, Map.insert_apply, kept]
    simp only [cut, pairs, List.filterMap_nil, List.append_nil, List.map_nil, lookup_entry,
      List.lookup_nil, Option.or_none, apply_ite (Option.map mapOf), Option.map_some,
      Option.map_none]
  | cons line rest hypothesis =>
    rw [List.foldl_cons]
    by_cases starts : startsSection line = true
    · rw [line_of_startsSection starts later]
      rw [hypothesis _ [] rfl rfl]
      simp only [Map.insert_apply, Option.or_assoc, kept, cut_of_startsSection starts, pairs,
        List.filterMap_nil, List.append_nil, List.nil_append, List.map_cons, blockOf]
      rw [lookup_entry loader.section_, Option.map_or, apply_ite (Option.map mapOf)]
      rfl
    · rw [line_of_not_startsSection starts kept]
      rw [hypothesis { loader with kvMap := mapOf (collected ++ pairs [line]) }
        (collected ++ pairs [line]) later rfl]
      rw [cut_of_not_startsSection starts, List.append_assoc, ← pairs_cons]

/-- The loop from the beginning files the blocks. -/
theorem finish_foldl_start (section_ : Text) (lines : List Text)
    (collected : List (Text × Text)) :
    (lines.foldl Loader.line { Loader.start with kvMap := mapOf collected }).finish section_ =
      ((blocksAfter collected lines).lookup section_).map mapOf := by
  induction lines generalizing collected with
  | nil =>
    rw [List.foldl_nil, Loader.finish, Map.insert_apply]
    simp only [Loader.start, Option.none_or, blocksAfter, cut, pairs, List.filterMap_nil,
      List.append_nil, lookup_entry, List.lookup_nil, Option.or_none,
      apply_ite (Option.map mapOf), Option.map_some, Option.map_none]
    rfl
  | cons line rest hypothesis =>
    rw [List.foldl_cons]
    by_cases starts : startsSection line = true
    · rw [line_of_startsSection_first starts rfl, finish_foldl section_ rest _ collected rfl rfl]
      simp only [Loader.start, Option.none_or, blocksAfter, cut_of_startsSection starts, pairs,
        List.filterMap_nil, List.append_nil]
    · rw [line_of_not_startsSection starts rfl]
      refine (hypothesis (collected ++ pairs [line])).trans ?_
      unfold blocksAfter
      rw [cut_of_not_startsSection starts]
      rw [pairs_cons line (cut rest).1]
      simp only [List.append_assoc]

/-- After a file has been loaded, a key in a section has the value that is filed. -/
theorem getValueByKey_load (parser : ConfigParser) (contents section_ key : Text) :
    getValueByKey (load parser (some contents)) section_ key =
      (filed (getlines contents) section_ key).getD [] := by
  have loaded : (load parser (some contents)).configMap section_ =
      ((blocks (getlines contents)).lookup section_).map mapOf :=
    finish_foldl_start section_ (getlines contents) []
  unfold getValueByKey filed
  rw [loaded]
  cases (blocks (getlines contents)).lookup section_ with
  | none => rfl
  | some collected =>
    simp only [Option.map_some, Option.bind_some, mapOf]
    cases collected.lookup key with
    | none => rfl
    | some value => rfl

end ConfigParser

end Nattan
