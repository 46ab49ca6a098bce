/-
This file compares what the loader of `ConfigParser` makes of a file with a reading of
the same lines. In the reading, a header is '[', a name and ']' and nothing else, a key
belongs to the section that the nearest header before it names, and of the lines with
the same key in a section, wherever its headers stand, the first one counts.

Every key line has a section under which the loader files it, or none when it is lost,
and one to which it belongs, or none when there is no header before it. The two differ
where a text is used again by a later section line, where a key stands before the first
section, where a line starts with '[' and is no header, and on lines whose length is not
an `int`. The loader and the reading agree on a file when the first key line that is
filed and the first one that belongs always have the same value.
-/

import Mathlib.Data.List.Nodup
import Nattan.ConfigParser

namespace Nattan

namespace ConfigParser

/-! ### The reading -/

/-- The line of a section header. -/
def headerLine (name : Text) : Text :=
  SECTB :: (name ++ [SECTE])

/-- The name in a section header, when the line is one. -/
def headerName (line : Text) : Option Text :=
  if line = headerLine (line.drop 1).dropLast then some (line.drop 1).dropLast else none

/-- The line has a key with a value: it is no section or comment and has an equals sign. -/
def isKeyLine (line : Text) : Bool :=
  decide (line.headD 0 ≠ SECTB ∧ line.headD 0 ≠ COMTB ∧ KEYB ∈ line)

/-- The key and the value of a key line. -/
def keyLine (line : Text) : List (Text × Text) :=
  if isKeyLine line then [(keyOf line, valueOf line)] else []

/-- The keys with their values on the lines whose nearest header names the section. -/
def declared (section_ : Text) (nearest : Option Text) : List Text → List (Text × Text)
  | [] => []
  | line :: rest =>
    match headerName line with
    | some name => declared section_ (some name) rest
    | none =>
      (if nearest = some section_ then keyLine line else []) ++ declared section_ nearest rest

/-! ### Where the lines go -/

/-- A key line: the section under which the loader files it, and the section to which it belongs.
-/
structure Filing where
  filed : Option Text
  belongs : Option Text
  key : Text
  value : Text
  deriving DecidableEq, Repr

/-- The section under which the loader files the keys behind these section lines, of which the last
one comes first: the text of the last one, unless one before it has the same. Before any
section line, it is the text of the first one in the file. -/
def filedUnder (first : Text) : List Text → Option Text
  | [] => some first
  | header :: earlier =>
    if ∀ other ∈ earlier, textOf other ≠ textOf header then some (textOf header) else none

/-- The key lines among these lines. `sections` are the section lines before them, and `nearest` is
the name in the nearest header. -/
def filingsFrom (first : Text) (sections : List Text) (nearest : Option Text) :
    List Text → List Filing
  | [] => []
  | line :: rest =>
    if startsSection line then
      filingsFrom first (line :: sections) ((headerName line).or nearest) rest
    else if isKeyLine line then
      { filed := if (decideLineType line).1 = .KEYVAL then filedUnder first sections else none
        belongs := nearest
        key := keyOf line
        value := valueOf line } :: filingsFrom first sections nearest rest
    else filingsFrom first sections nearest rest

/-- The text of the first section line, or the empty text. -/
def firstSection (lines : List Text) : Text :=
  match (cut lines).2 with
  | [] => []
  | (header, _) :: _ => textOf header

/-- The key lines of a file. -/
def filings (lines : List Text) : List Filing :=
  filingsFrom (firstSection lines) [] none lines

/-- The keys of the key lines with this section as their place. -/
def placed (place : Filing → Option Text) (section_ : Text) (lines : List Filing) :
    List (Text × Text) :=
  lines.filterMap fun line =>
    if place line = some section_ then some (line.key, line.value) else none

/-! ### The lines of the loader -/

theorem headerName_headerLine (name : Text) : headerName (headerLine name) = some name := by
  have inner : ((headerLine name).drop 1).dropLast = name := List.dropLast_concat
  unfold headerName
  rw [inner, if_pos rfl]

theorem eq_headerLine_of_headerName {line name : Text} (named : headerName line = some name) :
    line = headerLine name := by
  unfold headerName at named
  split at named
  case isTrue proper =>
    cases named
    exact proper
  case isFalse => cases named

theorem startsSection_headerLine (name : Text) : startsSection (headerLine name) = true :=
  rfl

theorem isKeyLine_of_startsSection {line : Text} (starts : startsSection line = true) :
    isKeyLine line = false :=
  decide_eq_false fun key => key.1 (of_decide_eq_true starts)

theorem not_startsSection_of_isKeyLine {line : Text} (key : isKeyLine line = true) :
    ¬ startsSection line = true := fun starts =>
  (of_decide_eq_true key).1 (of_decide_eq_true starts)

theorem headerName_of_not_startsSection {line : Text} (starts : ¬ startsSection line = true) :
    headerName line = none := by
  cases named : headerName line with
  | none => rfl
  | some name =>
    rw [eq_headerLine_of_headerName named] at starts
    exact absurd (startsSection_headerLine name) starts

theorem keyLine_of_startsSection {line : Text} (starts : startsSection line = true) :
    keyLine line = [] := by
  rw [keyLine, isKeyLine_of_startsSection starts, if_neg Bool.false_ne_true]

theorem keyFrom_eq_false {line : Text} {len : Int} {idx : Nat} (key : KEYB ∉ line) :
    keyFrom len line idx = false := by
  induction line generalizing idx with
  | nil => rfl
  | cons byte rest hypothesis =>
    rw [List.mem_cons, not_or] at key
    rw [keyFrom, if_neg fun found => key.1 found.symm, hypothesis key.2, ite_self]

theorem decideLineType_of_comment {line : Text} (first : line.headD 0 = COMTB) :
    decideLineType line = (.COMMENT, []) := by
  have noSection : ¬ line.headD 0 = SECTB := by
    rw [first]
    decide
  unfold decideLineType
  simp only [if_neg noSection, if_pos first]

theorem decideLineType_of_other {line : Text} (noSection : ¬ line.headD 0 = SECTB)
    (noComment : ¬ line.headD 0 = COMTB) :
    decideLineType line =
      if emptyFrom (intOf line.length) line 0 then (.ERRLINE, [])
      else if keyFrom (intOf line.length) line 0 then (.KEYVAL, line)
      else (.ERRLINE, []) := by
  unfold decideLineType
  simp only [if_neg noSection, if_neg noComment]

/-- The loader finds no key on a line that is no key line. -/
theorem decideLineType_of_not_isKeyLine {line : Text} (key : ¬ isKeyLine line = true) :
    (decideLineType line).1 ≠ .KEYVAL := by
  have noKey : ¬ (line.headD 0 ≠ SECTB ∧ line.headD 0 ≠ COMTB ∧ KEYB ∈ line) :=
    fun holds => key (decide_eq_true holds)
  by_cases isSection : line.headD 0 = SECTB
  · rw [decideLineType_of_first isSection]
    exact fun same => (by cases same)
  · by_cases isComment : line.headD 0 = COMTB
    · rw [decideLineType_of_comment isComment]
      decide
    · have equals : KEYB ∉ line := fun member => noKey ⟨isSection, isComment, member⟩
      rw [decideLineType_of_other isSection isComment, keyFrom_eq_false equals,
        if_neg Bool.false_ne_true, ite_self]
      decide

/-- What the loader finds on a line is its key with its value. -/
theorem pairOf_eq {line : Text} (starts : ¬ startsSection line = true) :
    pairOf line =
      if (decideLineType line).1 = .KEYVAL then some (keyOf line, valueOf line) else none := by
  have noSection : ¬ line.headD 0 = SECTB := fun same => starts (decide_eq_true same)
  unfold pairOf
  by_cases isComment : line.headD 0 = COMTB
  · rw [decideLineType_of_comment isComment]
    rfl
  · rw [decideLineType_of_other noSection isComment]
    cases emptyFrom (intOf line.length) line 0 with
    | true => rfl
    | false =>
      cases keyFrom (intOf line.length) line 0 with
      | true => rfl
      | false => rfl

/-! ### The keys that are filed, and those that belong -/

theorem placed_cons (place : Filing → Option Text) (section_ : Text) (line : Filing)
    (rest : List Filing) :
    placed place section_ (line :: rest) =
      (if place line = some section_ then [(line.key, line.value)] else []) ++
        placed place section_ rest := by
  unfold placed
  rw [List.filterMap_cons]
  by_cases here : place line = some section_
  · simp only [if_pos here, List.singleton_append]
  · simp only [if_neg here, List.nil_append]

/-- The keys whose nearest header names a section are those that belong to it. -/
theorem declared_eq_placed (first section_ : Text) (sections : List Text)
    (nearest : Option Text) (lines : List Text) :
    declared section_ nearest lines =
      placed Filing.belongs section_ (filingsFrom first sections nearest lines) := by
  induction lines generalizing sections nearest with
  | nil => rfl
  | cons line rest hypothesis =>
    by_cases starts : startsSection line = true
    · rw [filingsFrom, if_pos starts, declared]
      cases headerName line with
      | some name => exact hypothesis (line :: sections) (some name)
      | none =>
        simp only [keyLine_of_startsSection starts, ite_self, List.nil_append, Option.none_or]
        exact hypothesis (line :: sections) nearest
    · rw [filingsFrom, if_neg starts, declared, headerName_of_not_startsSection starts]
      simp only [hypothesis sections nearest, keyLine]
      by_cases key : isKeyLine line = true
      · rw [if_pos key, if_pos key, placed_cons]
      · rw [if_neg key, if_neg key, ite_self, List.nil_append]

theorem filedUnder_cons_eq_some {first section_ header : Text} {earlier : List Text} :
    filedUnder first (header :: earlier) = some section_ ↔
      section_ = textOf header ∧ ¬ ∃ other ∈ earlier, textOf other = section_ := by
  rw [filedUnder]
  constructor
  · intro found
    split at found
    case isTrue fresh =>
      cases found
      exact ⟨rfl, fun ⟨other, member, same⟩ => fresh other member same⟩
    case isFalse => cases found
  · rintro ⟨rfl, fresh⟩
    exact if_pos fun other member same => fresh ⟨other, member, same⟩

theorem exists_textOf_cons {section_ header : Text} {earlier : List Text} :
    (∃ other ∈ header :: earlier, textOf other = section_) ↔
      section_ = textOf header ∨ ∃ other ∈ earlier, textOf other = section_ := by
  rw [List.exists_mem_cons_iff, eq_comm]

/-- The keys that are filed under a section are those of its first block. -/
theorem placed_filingsFrom (first section_ : Text) (sections : List Text)
    (nearest : Option Text) (lines : List Text) :
    placed Filing.filed section_ (filingsFrom first sections nearest lines) =
      (if filedUnder first sections = some section_ then pairs (cut lines).1 else []) ++
        if ∃ other ∈ sections, textOf other = section_ then []
        else (((cut lines).2.map blockOf).lookup section_).getD [] := by
  induction lines generalizing sections nearest with
  | nil =>
    simp only [filingsFrom, placed, List.filterMap_nil, cut, pairs, List.map_nil,
      List.lookup_nil, Option.getD_none, ite_self, List.append_nil]
  | cons line rest hypothesis =>
    by_cases starts : startsSection line = true
    · rw [filingsFrom, if_pos starts, hypothesis, cut_of_startsSection starts]
      simp only [pairs, List.filterMap_nil, ite_self, List.nil_append, List.map_cons, blockOf,
        lookup_entry, filedUnder_cons_eq_some, exists_textOf_cons]
      by_cases seen : ∃ other ∈ sections, textOf other = section_
      · rw [if_neg fun found => found.2 seen, if_pos (Or.inr seen), if_pos seen, List.append_nil]
      · rw [if_neg seen]
        by_cases same : section_ = textOf line
        · rw [if_pos ⟨same, seen⟩, if_pos (Or.inl same), if_pos same, Option.some_or,
            Option.getD_some, List.append_nil]
        · rw [if_neg fun found => same found.1, if_neg fun found => found.elim same seen,
            if_neg same, Option.none_or, List.nil_append]
    · rw [filingsFrom, if_neg starts, cut_of_not_startsSection starts,
        pairs_cons line (cut rest).1, pairs_singleton, pairOf_eq starts]
      by_cases key : isKeyLine line = true
      · rw [if_pos key, placed_cons, hypothesis, ← List.append_assoc]
        congr 1
        by_cases decided : (decideLineType line).1 = .KEYVAL
        · by_cases here : filedUnder first sections = some section_
          · simp only [if_pos decided, if_pos here, Option.toList_some]
          · simp only [if_pos decided, if_neg here, List.append_nil]
        · simp only [if_neg decided, reduceCtorEq, if_false, List.nil_append, Option.toList_none]
      · rw [if_neg key, hypothesis, if_neg (decideLineType_of_not_isKeyLine key),
          Option.toList_none, List.nil_append]

/-- What a section holds, after a file has been loaded, are the keys that are filed under it. -/
theorem lookup_blocks (lines : List Text) (section_ : Text) :
    ((blocks lines).lookup section_).getD [] = placed Filing.filed section_ (filings lines) := by
  have noSections : ¬ ∃ other ∈ ([] : List Text), textOf other = section_ :=
    fun ⟨other, member, _⟩ => (by cases member)
  rw [filings, placed_filingsFrom, if_neg noSections]
  unfold blocks blocksAfter firstSection filedUnder
  cases (cut lines).2 with
  | nil =>
    simp only [lookup_entry, List.lookup_nil, Option.or_none, List.map_nil, Option.getD_none,
      List.append_nil, List.nil_append, Option.some_inj]
    by_cases same : section_ = []
    · rw [if_pos same, if_pos same.symm, Option.getD_some]
    · rw [if_neg same, if_neg (Ne.symm same), Option.getD_none]
  | cons block rest =>
    obtain ⟨header, body⟩ := block
    simp only [lookup_entry, List.map_cons, blockOf, List.nil_append, Option.some_inj]
    by_cases same : section_ = textOf header
    · rw [if_pos same, if_pos same.symm, if_pos same, Option.some_or, Option.some_or,
        Option.getD_some, Option.getD_some]
    · rw [if_neg same, if_neg (Ne.symm same), if_neg same, Option.none_or, List.nil_append]

/-- The value of a key after loading is that of the first line with the key that is filed under the
section. -/
theorem getValueByKey_eq_placed (parser : ConfigParser) (contents section_ key : Text) :
    getValueByKey (load parser (some contents)) section_ key =
      ((placed Filing.filed section_ (filings (getlines contents))).lookup key).getD [] := by
  rw [getValueByKey_load, ← lookup_blocks, filed]
  cases (blocks (getlines contents)).lookup section_ with
  | none => rfl
  | some collected => rfl

/-! ### Files that are read right -/

/-- After loading, every key has the value of the first line with it in its section. -/
def ReadRight (parser : ConfigParser) (contents : Text) : Prop :=
  ∀ section_ key, getValueByKey (load parser (some contents)) section_ key =
    ((declared section_ none (getlines contents)).lookup key).getD []

/-- The first line with a key that has one place, and the first that has the other, always have the
same value. -/
def SameValues (place other : Filing → Option Text) (lines : List Filing) : Prop :=
  ∀ section_ key, ((placed place section_ lines).lookup key).getD [] =
    ((placed other section_ lines).lookup key).getD []

/-- No line is lost or misfiled. -/
def FiledWhereTheyBelong (lines : List Filing) : Prop :=
  ∀ line ∈ lines, line.filed = line.belongs

/-- No two lines have the same key, and no value is empty, so that every line shows. -/
def NothingHidden (lines : List Filing) : Prop :=
  (lines.map Filing.key).Nodup ∧ ∀ line ∈ lines, line.value ≠ []

instance (lines : List Filing) : Decidable (FiledWhereTheyBelong lines) :=
  inferInstanceAs (Decidable (∀ line ∈ lines, line.filed = line.belongs))

instance (lines : List Filing) : Decidable (NothingHidden lines) :=
  inferInstanceAs (Decidable ((lines.map Filing.key).Nodup ∧ ∀ line ∈ lines, line.value ≠ []))

theorem readRight_iff (parser : ConfigParser) (contents : Text) :
    ReadRight parser contents ↔
      SameValues Filing.filed Filing.belongs (filings (getlines contents)) := by
  have reading : ∀ section_, declared section_ none (getlines contents) =
      placed Filing.belongs section_ (filings (getlines contents)) :=
    fun section_ => declared_eq_placed _ section_ [] none _
  simp only [ReadRight, SameValues, getValueByKey_eq_placed, reading]

theorem placed_congr {place other : Filing → Option Text} {lines : List Filing}
    (same : ∀ line ∈ lines, place line = other line) (section_ : Text) :
    placed place section_ lines = placed other section_ lines := by
  refine List.filterMap_congr fun line member => ?_
  rw [same line member]

theorem readRight_of_filedWhereTheyBelong (parser : ConfigParser) {contents : Text}
    (filed : FiledWhereTheyBelong (filings (getlines contents))) :
    ReadRight parser contents := by
  refine (readRight_iff parser contents).mpr fun section_ key => ?_
  rw [placed_congr filed section_]

theorem exists_of_lookup_placed {place : Filing → Option Text} {section_ key value : Text}
    {lines : List Filing} (found : (placed place section_ lines).lookup key = some value) :
    ∃ line ∈ lines, place line = some section_ ∧ line.key = key := by
  induction lines with
  | nil => cases found
  | cons line rest hypothesis =>
    rw [placed_cons, List.lookup_append] at found
    by_cases here : place line = some section_ ∧ line.key = key
    · exact ⟨line, List.mem_cons_self, here⟩
    · have later : (placed place section_ rest).lookup key = some value := by
        by_cases placedHere : place line = some section_
        · have different : ¬ key = line.key := fun same => here ⟨placedHere, same.symm⟩
          rwa [if_pos placedHere, lookup_entry, if_neg different, List.lookup_nil, Option.or_none,
            Option.none_or] at found
        · rwa [if_neg placedHere, List.lookup_nil, Option.none_or] at found
      obtain ⟨other, member, properties⟩ := hypothesis later
      exact ⟨other, List.mem_cons_of_mem _ member, properties⟩

theorem lookup_placed_of_mem {place : Filing → Option Text} {section_ : Text} {line : Filing}
    {lines : List Filing} (distinct : (lines.map Filing.key).Nodup) (member : line ∈ lines)
    (here : place line = some section_) :
    (placed place section_ lines).lookup line.key = some line.value := by
  induction lines with
  | nil => cases member
  | cons first rest hypothesis =>
    rw [List.map_cons, List.nodup_cons] at distinct
    rw [placed_cons, List.lookup_append]
    rcases List.mem_cons.mp member with same | member
    · rw [← same, if_pos here, lookup_entry, if_pos rfl, Option.some_or, Option.some_or]
    · have different : ¬ line.key = first.key := fun same =>
        distinct.1 (List.mem_map.mpr ⟨line, member, same⟩)
      have skipped : (if place first = some section_ then [(first.key, first.value)]
          else []).lookup line.key = none := by
        split
        · rw [lookup_entry, if_neg different, List.lookup_nil, Option.or_none]
        · rfl
      rw [skipped, Option.none_or]
      exact hypothesis distinct.2 member

/-- Where every line shows, a line that has one place has the other. -/
theorem SameValues.place_eq {place other : Filing → Option Text} {lines : List Filing}
    (same : SameValues place other lines) (shown : NothingHidden lines) {line : Filing}
    (member : line ∈ lines) {section_ : Text} (here : place line = some section_) :
    other line = some section_ := by
  have values := same section_ line.key
  rw [lookup_placed_of_mem shown.1 member here, Option.getD_some] at values
  cases found : (placed other section_ lines).lookup line.key with
  | none =>
    rw [found, Option.getD_none] at values
    exact absurd values (shown.2 line member)
  | some value =>
    obtain ⟨twin, twinMember, twinPlace, twinKey⟩ := exists_of_lookup_placed found
    have equal : twin = line := List.inj_on_of_nodup_map shown.1 twinMember member twinKey
    rw [← equal]
    exact twinPlace

/-- The loader reads a file right if and only if the first line with a key that is filed under a
section, and the first that belongs to it, always have the same value. This is so when every
line is filed where it belongs, and where every line shows, only then. -/
theorem lines_read_right_iff (parser : ConfigParser) (contents : Text) :
    (ReadRight parser contents ↔
      SameValues Filing.filed Filing.belongs (filings (getlines contents))) ∧
    (FiledWhereTheyBelong (filings (getlines contents)) → ReadRight parser contents) ∧
    (NothingHidden (filings (getlines contents)) →
      (ReadRight parser contents ↔ FiledWhereTheyBelong (filings (getlines contents)))) := by
  refine ⟨readRight_iff parser contents, readRight_of_filedWhereTheyBelong parser, ?_⟩
  intro shown
  refine ⟨fun right line member => ?_, readRight_of_filedWhereTheyBelong parser⟩
  have same := (readRight_iff parser contents).mp right
  refine Option.ext fun section_ => ⟨same.place_eq shown member, ?_⟩
  exact SameValues.place_eq (fun section_ key => (same section_ key).symm) shown member

/-- `[a]`, `x=1`, `[b]`, `y=2`, with a comment: a file that is read right. -/
def twoSections : Text :=
  [91, 97, 93, 10, 35, 10, 120, 61, 49, 10, 91, 98, 93, 10, 121, 61, 50, 10]

theorem lines_read_right_iff_twoSections :
    NothingHidden (filings (getlines twoSections)) ∧
      FiledWhereTheyBelong (filings (getlines twoSections)) ∧ ReadRight new twoSections := by
  have shown : NothingHidden (filings (getlines twoSections)) := by decide +kernel
  have filed : FiledWhereTheyBelong (filings (getlines twoSections)) := by decide +kernel
  exact ⟨shown, filed, ((lines_read_right_iff new twoSections).2.2 shown).mpr filed⟩

/-- `[a]`, `x=1`, `[b]`, `[a]`, `y=2`: the second `[a]`. -/
def repeatedSection : Text :=
  [91, 97, 93, 10, 120, 61, 49, 10, 91, 98, 93, 10, 91, 97, 93, 10, 121, 61, 50, 10]

/-- `x=1`, `[a]`: a key before the first section. -/
def keyBeforeSection : Text :=
  [120, 61, 49, 10, 91, 97, 93, 10]

/-- `[a] b`, `x=1`: a line that starts like a header. -/
def trailingText : Text :=
  [91, 97, 93, 32, 98, 10, 120, 61, 49, 10]

/-- The key below the second `[a]` is lost, the key before the first section is filed under it, and
the line with something behind the bracket makes a section of its own. -/
theorem lines_lost_and_misfiled :
    (getValueByKey (load new (some repeatedSection)) [97] [121] = [] ∧
      ¬ ReadRight new repeatedSection) ∧
    (getValueByKey (load new (some keyBeforeSection)) [97] [120] = [49] ∧
      ¬ ReadRight new keyBeforeSection) ∧
    getValueByKey (load new (some trailingText)) [97, 93, 32] [120] = [49] ∧
      ¬ ReadRight new trailingText := by
  refine ⟨⟨by decide +kernel, fun right => ?_⟩, ⟨by decide +kernel, fun right => ?_⟩,
    by decide +kernel, fun right => ?_⟩
  · exact absurd (right [97] [121]) (by decide +kernel)
  · exact absurd (right [97] [120]) (by decide +kernel)
  · exact absurd (right [97, 93, 32] [120]) (by decide +kernel)

end ConfigParser

end Nattan
