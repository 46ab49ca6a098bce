/-
This file proves that `ConfigParser` reads back what has been written: the sections of a
configuration, each as its header and its keys with their values, with comments, blank
lines and lines without an equals sign put in between.

A key line is told from the others by its first character and its equals sign, so what
is put in between leaves no trace in the key lines of the file. Every section of the
configuration has one header, so every key line is filed where it belongs.

The lines of the configuration have to be shorter than 2^31 bytes, because the length of
a line is kept in an `int`. A longer key line is dropped.
-/

import Nattan.ConfigLines

namespace Nattan

namespace ConfigParser

/-! ### Configurations as they are written -/

/-- A configuration: its sections with their keys and values, none of which has a newline. A key
has no equals sign and does not start like a section or a comment. Of the values of a key, the
first counts. -/
structure Config where
  sections : List (Text × List (Text × Text))
  distinct : (sections.map Prod.fst).Nodup
  names : ∀ entry ∈ sections, newline ∉ entry.1
  keys : ∀ entry ∈ sections, ∀ pair ∈ entry.2,
    KEYB ∉ pair.1 ∧ pair.1.headD 0 ≠ SECTB ∧ pair.1.headD 0 ≠ COMTB ∧ newline ∉ pair.1
  values : ∀ entry ∈ sections, ∀ pair ∈ entry.2, newline ∉ pair.2

/-- The value that a configuration has for a key in a section, or nothing. -/
def Config.value (config : Config) (section_ key : Text) : Text :=
  ((config.sections.lookup section_).bind fun pairs => pairs.lookup key).getD []

/-- The line of a key with its value. -/
def entryLine (pair : Text × Text) : Text :=
  pair.1 ++ KEYB :: pair.2

/-- The lines of a section. -/
def renderSection (entry : Text × List (Text × Text)) : List Text :=
  headerLine entry.1 :: entry.2.map entryLine

def render (sections : List (Text × List (Text × Text))) : List Text :=
  sections.flatMap renderSection

/-- A line that may stand anywhere: a comment, or a line without an equals sign that does not start
with '['. -/
def isNoise (line : Text) : Bool :=
  decide (line.headD 0 = COMTB ∨ (KEYB ∉ line ∧ line.headD 0 ≠ SECTB))

/-- The file with these lines. -/
def unlines (lines : List Text) : Text :=
  lines.flatMap fun line => line ++ [newline]

/-! ### Lines -/

theorem linesFrom_line (pending line rest : Text) (whole : newline ∉ line) :
    linesFrom pending (line ++ newline :: rest) = (pending ++ line) :: linesFrom [] rest := by
  induction line generalizing pending with
  | nil => rw [List.nil_append, linesFrom, if_pos rfl, List.append_nil]
  | cons byte behind hypothesis =>
    rw [List.mem_cons, not_or] at whole
    rw [List.cons_append, linesFrom, if_neg (Ne.symm whole.1), hypothesis _ whole.2,
      List.append_assoc, List.singleton_append]

theorem getlines_unlines (lines : List Text) (whole : ∀ line ∈ lines, newline ∉ line) :
    getlines (unlines lines) = lines := by
  induction lines with
  | nil => rfl
  | cons line rest hypothesis =>
    have behind := hypothesis fun other member => whole other (List.mem_cons_of_mem _ member)
    unfold getlines at behind ⊢
    rw [unlines, List.flatMap_cons, List.append_assoc, List.singleton_append,
      linesFrom_line [] line _ (whole line List.mem_cons_self), List.nil_append]
    exact congrArg (line :: ·) behind

theorem intOf_length {line : Text} (short : line.length < 2 ^ 31) :
    intOf line.length = line.length :=
  intOf_of_lt (by omega) (by omega)

/-- The text of a header that is not too long is its name. -/
theorem textOf_headerLine {name : Text} (short : (headerLine name).length < 2 ^ 31) :
    textOf (headerLine name) = name := by
  have length : (headerLine name).length = name.length + 2 := by
    simp only [headerLine, List.length_cons, List.length_append, List.length_nil]
  have size : sizeOfInt (intOf (headerLine name).length - 2) = name.length := by
    rw [intOf_length short, length]
    unfold sizeOfInt
    omega
  rw [textOf, decideLineType_of_first rfl, size]
  exact List.take_left

/-- The loop over the spaces does not come to the end of a line with another character. -/
theorem emptyFrom_eq_false {line : Text} {len : Int} {idx : Nat}
    (length : (idx + line.length : Nat) ≤ len) (other : ∃ byte ∈ line, byte ≠ space) :
    emptyFrom len line idx = false := by
  induction line generalizing idx with
  | nil =>
    obtain ⟨byte, member, -⟩ := other
    cases member
  | cons byte rest hypothesis =>
    have before : ¬ len ≤ idx := by
      rw [List.length_cons] at length
      omega
    rw [emptyFrom]
    by_cases blank : byte = space
    · rw [if_neg fun stops => stops.elim (fun different => different blank) before]
      refine hypothesis ?_ ?_
      · rw [List.length_cons] at length
        omega
      · obtain ⟨found, member, different⟩ := other
        refine ⟨found, (List.mem_cons.mp member).resolve_left fun same => ?_, different⟩
        exact different (same.trans blank)
    · rw [if_pos (Or.inl blank)]
      exact decide_eq_false before

/-- The loop over the characters finds an equals sign. -/
theorem keyFrom_eq_true {line : Text} {len : Int} {idx : Nat}
    (length : (idx + line.length : Nat) ≤ len) (key : KEYB ∈ line) :
    keyFrom len line idx = true := by
  induction line generalizing idx with
  | nil => cases key
  | cons byte rest hypothesis =>
    rw [List.length_cons] at length
    rw [keyFrom]
    by_cases found : byte = KEYB
    · rw [if_pos found]
    · rw [if_neg found, if_neg (by omega)]
      refine hypothesis (by omega) ?_
      exact (List.mem_cons.mp key).resolve_left fun same => found same.symm

theorem decideLineType_of_isKeyLine {line : Text} (key : isKeyLine line = true)
    (short : line.length < 2 ^ 31) : decideLineType line = (.KEYVAL, line) := by
  obtain ⟨noSection, noComment, equals⟩ := of_decide_eq_true key
  have length : ((0 + line.length : Nat) : Int) ≤ intOf line.length :=
    Int.le_of_eq (by rw [intOf_length short, Nat.zero_add])
  rw [decideLineType_of_other noSection noComment,
    emptyFrom_eq_false length ⟨KEYB, equals, by decide⟩, keyFrom_eq_true length equals]
  rfl

/-- The line of a key that may be written is a key line with this key. -/
theorem entryLine_spec {pair : Text × Text} (equals : KEYB ∉ pair.1)
    (noSection : pair.1.headD 0 ≠ SECTB) (noComment : pair.1.headD 0 ≠ COMTB) :
    isKeyLine (entryLine pair) = true ∧ keyOf (entryLine pair) = pair.1 ∧
      valueOf (entryLine pair) = pair.2 := by
  have different : ∀ byte ∈ pair.1, decide (byte ≠ KEYB) = true := fun byte member =>
    decide_eq_true fun same => equals (same ▸ member)
  refine ⟨decide_eq_true ⟨?_, ?_, ?_⟩, ?_, ?_⟩
  · unfold entryLine
    cases key : pair.1 with
    | nil => exact (by decide : KEYB ≠ SECTB)
    | cons byte rest =>
      rw [key] at noSection
      exact noSection
  · unfold entryLine
    cases key : pair.1 with
    | nil => exact (by decide : KEYB ≠ COMTB)
    | cons byte rest =>
      rw [key] at noComment
      exact noComment
  · exact List.mem_append_right _ List.mem_cons_self
  · rw [keyOf, entryLine, List.takeWhile_append_of_pos different,
      List.takeWhile_cons_of_neg (by decide), List.append_nil]
  · rw [valueOf, entryLine, List.dropWhile_append_of_pos different,
      List.dropWhile_cons_of_neg (by decide)]
    rfl

/-! ### What is put in between -/

theorem not_startsSection_of_isNoise {line : Text} (noise : isNoise line = true) :
    ¬ startsSection line = true := by
  intro starts
  have first : line.headD 0 = SECTB := of_decide_eq_true starts
  rcases of_decide_eq_true noise with comment | ⟨-, noSection⟩
  · rw [first] at comment
    exact absurd comment (by decide)
  · exact noSection first

theorem not_isKeyLine_of_isNoise {line : Text} (noise : isNoise line = true) :
    ¬ isKeyLine line = true := by
  intro key
  obtain ⟨-, noComment, equals⟩ := of_decide_eq_true key
  rcases of_decide_eq_true noise with comment | ⟨noEquals, -⟩
  · exact noComment comment
  · exact noEquals equals

/-- What is put in between leaves no trace. -/
theorem filingsFrom_filter (first : Text) (sections : List Text) (nearest : Option Text)
    (lines : List Text) :
    filingsFrom first sections nearest (lines.filter fun line => !isNoise line) =
      filingsFrom first sections nearest lines := by
  induction lines generalizing sections nearest with
  | nil => rfl
  | cons line rest hypothesis =>
    by_cases noise : isNoise line = true
    · rw [List.filter_cons_of_neg (by rw [noise]; exact Bool.false_ne_true), hypothesis,
        filingsFrom, if_neg (not_startsSection_of_isNoise noise),
        if_neg (not_isKeyLine_of_isNoise noise)]
    · rw [List.filter_cons_of_pos (by rw [Bool.eq_false_iff.mpr noise]; rfl)]
      unfold filingsFrom
      rw [hypothesis, hypothesis]

/-! ### The key lines of a configuration -/

/-- The key line of a pair in these places. -/
def filingOf (filed belongs : Option Text) (pair : Text × Text) : Filing where
  filed := filed
  belongs := belongs
  key := pair.1
  value := pair.2

/-- The key lines of a section, filed where they belong. -/
def sectionFilings (entry : Text × List (Text × Text)) : List Filing :=
  entry.2.map (filingOf (some entry.1) (some entry.1))

theorem filingsFrom_entries (first : Text) (sections : List Text) (nearest : Option Text)
    (pairs : List (Text × Text)) (rest : List Text)
    (keys : ∀ pair ∈ pairs, KEYB ∉ pair.1 ∧ pair.1.headD 0 ≠ SECTB ∧ pair.1.headD 0 ≠ COMTB)
    (short : ∀ pair ∈ pairs, (entryLine pair).length < 2 ^ 31) :
    filingsFrom first sections nearest (pairs.map entryLine ++ rest) =
      pairs.map (filingOf (filedUnder first sections) nearest) ++
        filingsFrom first sections nearest rest := by
  induction pairs with
  | nil => rfl
  | cons pair others hypothesis =>
    obtain ⟨equals, noSection, noComment⟩ := keys pair List.mem_cons_self
    obtain ⟨key, keyEq, valueEq⟩ := entryLine_spec equals noSection noComment
    have decided := decideLineType_of_isKeyLine key (short pair List.mem_cons_self)
    have behind := hypothesis (fun other member => keys other (List.mem_cons_of_mem _ member))
      fun other member => short other (List.mem_cons_of_mem _ member)
    rw [List.map_cons, List.cons_append, filingsFrom,
      if_neg (not_startsSection_of_isKeyLine key), if_pos key, behind, decided, if_pos rfl, keyEq,
      valueEq, List.map_cons, List.cons_append]
    rfl

/-- Every key line of a rendering is filed where it belongs. -/
theorem filingsFrom_render (first : Text) (before : List Text) (nearest : Option Text)
    (sections : List (Text × List (Text × Text))) (distinct : (sections.map Prod.fst).Nodup)
    (fresh : ∀ other ∈ before, textOf other ∉ sections.map Prod.fst)
    (keys : ∀ entry ∈ sections, ∀ pair ∈ entry.2,
      KEYB ∉ pair.1 ∧ pair.1.headD 0 ≠ SECTB ∧ pair.1.headD 0 ≠ COMTB)
    (short : ∀ line ∈ render sections, line.length < 2 ^ 31) :
    filingsFrom first before nearest (render sections) = sections.flatMap sectionFilings := by
  induction sections generalizing before nearest with
  | nil => rfl
  | cons entry rest hypothesis =>
    rw [List.map_cons, List.nodup_cons] at distinct
    have rendered : render (entry :: rest) =
        headerLine entry.1 :: (entry.2.map entryLine ++ render rest) := rfl
    rw [rendered] at short ⊢
    have text := textOf_headerLine (short _ List.mem_cons_self)
    have under : filedUnder first (headerLine entry.1 :: before) = some entry.1 := by
      rw [filedUnder_cons_eq_some, text]
      refine ⟨rfl, fun ⟨other, member, same⟩ => fresh other member ?_⟩
      rw [same]
      exact List.mem_cons_self
    have freshBehind : ∀ other ∈ headerLine entry.1 :: before,
        textOf other ∉ rest.map Prod.fst := by
      intro other member
      rcases List.mem_cons.mp member with same | member
      · rw [same, text]
        exact distinct.1
      · exact fun found => fresh other member (List.mem_cons_of_mem _ found)
    rw [filingsFrom, if_pos (startsSection_headerLine entry.1), headerName_headerLine,
      Option.some_or, filingsFrom_entries, under, List.flatMap_cons,
      hypothesis _ _ distinct.2 freshBehind]
    · rfl
    · exact fun other member => keys other (List.mem_cons_of_mem _ member)
    · exact fun line member => short line
        (List.mem_cons_of_mem _ (List.mem_append_right _ member))
    · exact keys entry List.mem_cons_self
    · exact fun pair member => short _
        (List.mem_cons_of_mem _ (List.mem_append_left _ (List.mem_map_of_mem member)))

theorem placed_append (place : Filing → Option Text) (section_ : Text)
    (lines others : List Filing) :
    placed place section_ (lines ++ others) =
      placed place section_ lines ++ placed place section_ others :=
  List.filterMap_append

theorem placed_sectionFilings (section_ : Text) (entry : Text × List (Text × Text)) :
    placed Filing.filed section_ (sectionFilings entry) =
      if section_ = entry.1 then entry.2 else [] := by
  obtain ⟨name, pairs⟩ := entry
  induction pairs with
  | nil => exact (ite_self _).symm
  | cons pair rest hypothesis =>
    have cons : sectionFilings (name, pair :: rest) =
        filingOf (some name) (some name) pair :: sectionFilings (name, rest) := rfl
    rw [cons, placed_cons, hypothesis]
    by_cases same : section_ = name
    · simp only [filingOf, same, if_true, List.singleton_append]
    · have other : ¬ some name = some section_ := fun found => same (Option.some.inj found).symm
      simp only [filingOf, if_neg same, List.append_nil]
      exact if_neg other

/-- A section of a configuration holds its own keys. -/
theorem placed_flatMap_sectionFilings (section_ : Text)
    (sections : List (Text × List (Text × Text))) (distinct : (sections.map Prod.fst).Nodup) :
    placed Filing.filed section_ (sections.flatMap sectionFilings) =
      (sections.lookup section_).getD [] := by
  induction sections with
  | nil => rfl
  | cons entry rest hypothesis =>
    obtain ⟨name, pairs⟩ := entry
    rw [List.map_cons, List.nodup_cons] at distinct
    rw [List.flatMap_cons, placed_append, placed_sectionFilings, hypothesis distinct.2,
      lookup_entry]
    by_cases same : section_ = name
    · have absent : rest.lookup section_ = none := by
        refine List.lookup_eq_none_iff.mpr fun entry member => ?_
        refine bne_iff_ne.mpr fun found => distinct.1 ?_
        exact List.mem_map.mpr ⟨entry, member, found.symm.trans same⟩
      rw [if_pos same, if_pos same, absent, Option.getD_none, List.append_nil, Option.some_or,
        Option.getD_some]
    · rw [if_neg same, if_neg same, List.nil_append, Option.none_or]

/-! ### The round trip -/

theorem newline_notMem_render (config : Config) (line : Text)
    (member : line ∈ render config.sections) : newline ∉ line := by
  obtain ⟨entry, entryMember, member⟩ := List.mem_flatMap.mp member
  rcases List.mem_cons.mp member with header | member
  · rw [header, headerLine, List.mem_cons, List.mem_append, List.mem_singleton]
    rintro (first | name | last)
    · exact absurd first (by decide)
    · exact config.names entry entryMember name
    · exact absurd last (by decide)
  · obtain ⟨pair, pairMember, rfl⟩ := List.mem_map.mp member
    rw [entryLine, List.mem_append, List.mem_cons]
    rintro (key | equals | value)
    · exact (config.keys entry entryMember pair pairMember).2.2.2 key
    · exact absurd equals (by decide)
    · exact config.values entry entryMember pair pairMember value

/-- A file with the lines of a configuration, and others put in between, is read back as the
configuration. -/
theorem getValueByKey_load_unlines_render (parser : ConfigParser) (config : Config)
    (lines : List Text)
    (rendered : lines.filter (fun line => !isNoise line) = render config.sections)
    (whole : ∀ line ∈ lines, isNoise line = true → newline ∉ line)
    (short : ∀ line ∈ render config.sections, line.length < 2 ^ 31) (section_ key : Text) :
    getValueByKey (load parser (some (unlines lines))) section_ key =
      config.value section_ key := by
  have wholeLines : ∀ line ∈ lines, newline ∉ line := by
    intro line member
    by_cases noise : isNoise line = true
    · exact whole line member noise
    · refine newline_notMem_render config line ?_
      rw [← rendered, List.mem_filter, Bool.eq_false_iff.mpr noise]
      exact ⟨member, rfl⟩
  have keys : ∀ entry ∈ config.sections, ∀ pair ∈ entry.2,
      KEYB ∉ pair.1 ∧ pair.1.headD 0 ≠ SECTB ∧ pair.1.headD 0 ≠ COMTB := by
    intro entry member pair pairMember
    obtain ⟨equals, noSection, noComment, -⟩ := config.keys entry member pair pairMember
    exact ⟨equals, noSection, noComment⟩
  have found : filings lines = config.sections.flatMap sectionFilings := by
    rw [filings, ← filingsFrom_filter, rendered]
    exact filingsFrom_render _ [] none _ config.distinct (fun other member => (by cases member))
      keys short
  rw [getValueByKey_eq_placed, getlines_unlines lines wholeLines, found,
    placed_flatMap_sectionFilings _ _ config.distinct, Config.value]
  cases config.sections.lookup section_ with
  | none => rfl
  | some pairs => rfl

/-- The sections `a` with `x=1` and `b` with `y=` and `z==`. -/
def smallConfig : Config where
  sections := [([97], [([120], [49])]), ([98], [([121], []), ([122], [61])])]
  distinct := by decide +kernel
  names := by decide +kernel
  keys := by decide +kernel
  values := by decide +kernel

/-- Its lines, with a comment, a blank line and a line without an equals sign. -/
def smallLines : List Text :=
  [[35, 91, 61], [91, 97, 93], [32, 32], [120, 61, 49], [91, 98, 93], [121, 61], [99],
    [122, 61, 61]]

theorem getValueByKey_load_unlines_render_smallLines :
    getValueByKey (load new (some (unlines smallLines))) [98] [122] = [61] :=
  getValueByKey_load_unlines_render new smallConfig smallLines (by decide +kernel)
    (by decide +kernel) (by decide +kernel) [98] [122]

/-! ### Lines that are too long -/

theorem intOf_length_neg {line : Text} (long : 2 ^ 31 ≤ line.length)
    (bound : line.length < 2 ^ 32) : intOf line.length ≤ (0 : Nat) := by
  rw [intOf, Int.bmod_def]
  split
  · omega
  · omega

/-- A key line of 2^31 bytes is dropped. -/
theorem decideLineType_of_long {line : Text} (key : isKeyLine line = true)
    (long : 2 ^ 31 ≤ line.length) (bound : line.length < 2 ^ 32) :
    decideLineType line = (.ERRLINE, []) := by
  obtain ⟨noSection, noComment, -⟩ := of_decide_eq_true key
  have negative := intOf_length_neg long bound
  have empty : emptyFrom (intOf line.length) line 0 = true := by
    cases line with
    | nil => exact decide_eq_true negative
    | cons byte rest =>
      rw [emptyFrom, if_pos (Or.inr negative)]
      exact decide_eq_true negative
  rw [decideLineType_of_other noSection noComment, empty, if_pos rfl]

/-- The section `a` with the key `k` and this value. -/
def oneKey (value : Text) (whole : newline ∉ value) : Config where
  sections := [([97], [([107], value)])]
  distinct := List.nodup_singleton _
  names := by
    intro entry member
    rw [List.mem_singleton.mp member]
    exact (by decide : newline ∉ [97])
  keys := by
    intro entry member pair pairMember
    rw [List.mem_singleton.mp member] at pairMember
    rw [List.mem_singleton.mp pairMember]
    exact (by decide : KEYB ∉ [107] ∧ [107].headD 0 ≠ SECTB ∧ [107].headD 0 ≠ COMTB ∧
      newline ∉ [107])
  values := by
    intro entry member pair pairMember
    rw [List.mem_singleton.mp member] at pairMember
    rw [List.mem_singleton.mp pairMember]
    exact whole

/-- A value that is too long is not read back. -/
theorem getValueByKey_oneKey (parser : ConfigParser) (value : Text) (whole : newline ∉ value)
    (long : 2 ^ 31 ≤ value.length + 2) (bound : value.length + 2 < 2 ^ 32) :
    getValueByKey (load parser (some (unlines (render (oneKey value whole).sections)))) [97] [107] =
      [] := by
  have lines : render (oneKey value whole).sections =
      [headerLine [97], entryLine ([107], value)] := rfl
  have length : (entryLine ([107], value)).length = value.length + 2 := by
    simp only [entryLine, List.length_append, List.length_cons, List.length_nil]
    omega
  obtain ⟨equals, noSection, noComment, -⟩ :=
    (oneKey value whole).keys _ List.mem_cons_self ([107], value) List.mem_cons_self
  obtain ⟨key, -, -⟩ := entryLine_spec equals noSection noComment
  have decided : decideLineType (entryLine ([107], value)) = (.ERRLINE, []) :=
    decideLineType_of_long key (by omega) (by omega)
  have lost : placed Filing.filed [97]
      (filings [headerLine [97], entryLine ([107], value)]) = [] := by
    unfold filings
    rw [filingsFrom, if_pos (startsSection_headerLine [97]), filingsFrom,
      if_neg (not_startsSection_of_isKeyLine key), if_pos key, placed_cons, decided]
    simp only [reduceCtorEq, if_false]
    rfl
  rw [getValueByKey_eq_placed, getlines_unlines _ (newline_notMem_render (oneKey value whole)),
    lines, lost]
  rfl

/-- A value of 2^31 bytes, all of them `v`. -/
def longValue : Text :=
  List.replicate (2 ^ 31) 118

theorem newline_notMem_longValue : newline ∉ longValue := fun member =>
  absurd (List.eq_of_mem_replicate member) (by decide)

/-- The value of 2^31 bytes is written, and the empty text is read. -/
theorem long_value_not_read_back :
    getValueByKey
        (load new (some (unlines (render (oneKey longValue newline_notMem_longValue).sections))))
        [97] [107] ≠
      (oneKey longValue newline_notMem_longValue).value [97] [107] := by
  have length : longValue.length = 2 ^ 31 := List.length_replicate
  have written : (oneKey longValue newline_notMem_longValue).value [97] [107] = longValue := rfl
  rw [written, getValueByKey_oneKey new longValue newline_notMem_longValue (by omega) (by omega)]
  intro same
  rw [← same] at length
  exact absurd length (by decide)

end ConfigParser

end Nattan
