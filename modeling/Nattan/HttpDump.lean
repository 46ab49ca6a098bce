/-
This file proves that what `HttpHeader::dumpToBuffer` writes can be read back.

The buffer is taken as a queue of bytes. The block is read by a decoder that knows
nothing of the header: lines up to the first empty one, the first of them at its
first two spaces, every other one at its first `": "`. It gives back the parts of the
start line and every pair of the map once, and nothing is left behind the block. The
names that the vendored parser has for its numbers are its own tables.

Only what can be confused with a separator is excluded: a carriage return in any
part, a space in the uri and a colon in a key. The first dump of a response writes
`status_desc` where it is empty; the second then writes the same phrase.
-/

import Nattan.Delimiter
import Nattan.HttpReset

namespace Nattan

/-! ### The tables of the vendored parser -/

/-- `method_strings`. -/
def methodStrings : List String :=
  ["DELETE", "GET", "HEAD", "POST", "PUT", "CONNECT", "OPTIONS", "TRACE", "COPY", "LOCK", "MKCOL",
    "MOVE", "PROPFIND", "PROPPATCH", "SEARCH", "UNLOCK", "BIND", "REBIND", "UNBIND", "ACL",
    "REPORT", "MKACTIVITY", "CHECKOUT", "MERGE", "M-SEARCH", "NOTIFY", "SUBSCRIBE", "UNSUBSCRIBE",
    "PATCH", "PURGE", "MKCALENDAR", "LINK", "UNLINK", "SOURCE"]

/-- `HTTP_STATUS_MAP`. -/
def statusStrings : List (Int × String) :=
  [(100, "Continue"), (101, "Switching Protocols"), (102, "Processing"), (200, "OK"),
    (201, "Created"), (202, "Accepted"), (203, "Non-Authoritative Information"),
    (204, "No Content"), (205, "Reset Content"), (206, "Partial Content"),
    (207, "Multi-Status"), (208, "Already Reported"), (226, "IM Used"),
    (300, "Multiple Choices"), (301, "Moved Permanently"), (302, "Found"), (303, "See Other"),
    (304, "Not Modified"), (305, "Use Proxy"), (307, "Temporary Redirect"),
    (308, "Permanent Redirect"), (400, "Bad Request"), (401, "Unauthorized"),
    (402, "Payment Required"), (403, "Forbidden"), (404, "Not Found"),
    (405, "Method Not Allowed"), (406, "Not Acceptable"),
    (407, "Proxy Authentication Required"), (408, "Request Timeout"), (409, "Conflict"),
    (410, "Gone"), (411, "Length Required"), (412, "Precondition Failed"),
    (413, "Payload Too Large"), (414, "URI Too Long"), (415, "Unsupported Media Type"),
    (416, "Range Not Satisfiable"), (417, "Expectation Failed"), (421, "Misdirected Request"),
    (422, "Unprocessable Entity"), (423, "Locked"), (424, "Failed Dependency"),
    (426, "Upgrade Required"), (428, "Precondition Required"), (429, "Too Many Requests"),
    (431, "Request Header Fields Too Large"), (451, "Unavailable For Legal Reasons"),
    (500, "Internal Server Error"), (501, "Not Implemented"), (502, "Bad Gateway"),
    (503, "Service Unavailable"), (504, "Gateway Timeout"), (505, "HTTP Version Not Supported"),
    (506, "Variant Also Negotiates"), (507, "Insufficient Storage"), (508, "Loop Detected"),
    (510, "Not Extended"), (511, "Network Authentication Required")]

/-- The names as the vendored parser has them. A negative method is a large index there, so it
is behind the table. -/
def HttpNames.vendored : HttpNames where
  http_method_str := fun method =>
    bytesOf (if method < 0 then "<unknown>" else methodStrings.getD method.toNat "<unknown>")
  http_status_str := fun status_code =>
    bytesOf ((statusStrings.lookup status_code).getD "<unknown>")

/-! ### Bytes that are no separator -/

def space : Separator UInt8 where
  head := 32
  tail := []

def crlf : Separator UInt8 where
  head := 13
  tail := [10]

def colonSpace : Separator UInt8 where
  head := 58
  tail := [32]

/-- A text that stays inside its line. -/
def InLine (text : List UInt8) : Prop :=
  crlf.head ∉ text

/-- A text that stays inside its word. -/
def InWord (text : List UInt8) : Prop :=
  space.head ∉ text

instance (text : List UInt8) : Decidable (InLine text) :=
  inferInstanceAs (Decidable (crlf.head ∉ text))

instance (text : List UInt8) : Decidable (InWord text) :=
  inferInstanceAs (Decidable (space.head ∉ text))

theorem InLine.append {first second : List UInt8} (inLine : InLine first)
    (inLineToo : InLine second) : InLine (first ++ second) :=
  fun member => (List.mem_append.mp member).elim inLine inLineToo

/-- No method is confused with a separator, and no phrase leaves its line. -/
structure HttpNames.Plain (names : HttpNames) : Prop where
  methodInLine : ∀ method, InLine (names.http_method_str method)
  methodInWord : ∀ method, InWord (names.http_method_str method)
  statusInLine : ∀ status_code, InLine (names.http_status_str status_code)

theorem method_mem (method : Int) :
    (if method < 0 then "<unknown>" else methodStrings.getD method.toNat "<unknown>") ∈
      "<unknown>" :: methodStrings := by
  split
  · exact List.mem_cons_self
  · rw [List.getD_eq_getElem?_getD]
    cases found : methodStrings[method.toNat]? with
    | none => exact List.mem_cons_self
    | some text => exact List.mem_cons_of_mem _ (List.mem_of_getElem? found)

theorem status_mem (status_code : Int) :
    (statusStrings.lookup status_code).getD "<unknown>" ∈
      "<unknown>" :: statusStrings.map Prod.snd := by
  cases found : statusStrings.lookup status_code with
  | none => exact List.mem_cons_self
  | some text =>
    obtain ⟨before, after, table, -⟩ := List.lookup_eq_some_iff.mp found
    refine List.mem_cons_of_mem _ (List.mem_map.mpr ⟨(status_code, text), ?_, rfl⟩)
    rw [table]
    exact List.mem_append_right _ List.mem_cons_self

theorem HttpNames.plain_vendored : HttpNames.vendored.Plain where
  methodInLine := fun method =>
    (by decide +kernel : ∀ text ∈ "<unknown>" :: methodStrings, InLine (bytesOf text)) _
      (method_mem method)
  methodInWord := fun method =>
    (by decide +kernel : ∀ text ∈ "<unknown>" :: methodStrings, InWord (bytesOf text)) _
      (method_mem method)
  statusInLine := fun status_code =>
    (by decide +kernel : ∀ text ∈ "<unknown>" :: statusStrings.map Prod.snd,
      InLine (bytesOf text)) _ (status_mem status_code)

/-- A number has neither a carriage return nor a space in it. -/
theorem number_plain {status_code : Int} {byte : UInt8}
    (member : byte ∈ bytesOf (toString status_code)) : byte ≠ 13 ∧ byte ≠ 32 := by
  rcases mem_bytesOf_toString member with rfl | ⟨low, -⟩
  · decide
  · constructor
    · rintro rfl
      exact absurd low (by decide)
    · rintro rfl
      exact absurd low (by decide)

namespace HttpHeader

/-! ### The map and its keys -/

theorem lex_eq_true_iff (key other : List UInt8) :
    key.lex other (fun left right => decide (left < right)) = true ↔ key < other := by
  rw [List.lex_eq_true_iff_lex]
  simp only [decide_eq_true_eq]
  exact Iff.rfl

/-- The keys of a `std::map`: in increasing order, and exactly those that have a value. -/
structure KeysOf (keys : List (List UInt8)) (fHeaders : List UInt8 → Option (List UInt8)) :
    Prop where
  ordered : keys.Pairwise (· < ·)
  mem_iff : ∀ key, key ∈ keys ↔ fHeaders key ≠ none

theorem mem_insertKey {key other : List UInt8} {keys : List (List UInt8)} :
    other ∈ insertKey key keys ↔ other = key ∨ other ∈ keys := by
  induction keys with
  | nil => rw [insertKey, List.mem_singleton, or_iff_left List.not_mem_nil]
  | cons first rest inductionHypothesis =>
    rw [insertKey]
    split
    · rename_i same
      rw [same, List.mem_cons, ← or_assoc, or_self]
    · split
      · rw [List.mem_cons]
      · rw [List.mem_cons, List.mem_cons, inductionHypothesis, or_left_comm]

theorem ordered_insertKey {key : List UInt8} {keys : List (List UInt8)}
    (ordered : keys.Pairwise (· < ·)) : (insertKey key keys).Pairwise (· < ·) := by
  induction keys with
  | nil => exact List.pairwise_singleton _ _
  | cons first rest inductionHypothesis =>
    obtain ⟨below, orderedRest⟩ := List.pairwise_cons.mp ordered
    rw [insertKey]
    split
    · exact ordered
    rename_i different
    split
    · rename_i first_lex
      have before : key < first := (lex_eq_true_iff key first).mp first_lex
      refine List.pairwise_cons.mpr ⟨fun other member => ?_, ordered⟩
      rcases List.mem_cons.mp member with same | inRest
      · rw [same]
        exact before
      · exact List.lt_trans before (below other inRest)
    · rename_i not_lex
      have notBefore : ¬ key < first := mt (lex_eq_true_iff key first).mpr not_lex
      have behind : first < key :=
        Std.lt_of_le_of_ne (List.not_lt.mp notBefore) fun same => different same.symm
      refine List.pairwise_cons.mpr ⟨fun other member => ?_, inductionHypothesis orderedRest⟩
      rcases mem_insertKey.mp member with same | inRest
      · rw [same]
        exact behind
      · exact below other inRest

theorem keysOf_empty : KeysOf [] fun _ => none where
  ordered := List.Pairwise.nil
  mem_iff := fun _ => ⟨fun member => absurd member List.not_mem_nil, fun found => absurd rfl found⟩

/-- `setHeader` keeps the keys of the map. -/
theorem KeysOf.setHeader {keys : List (List UInt8)} {fHeaders : List UInt8 → Option (List UInt8)}
    (keysOf : KeysOf keys fHeaders) (key value : List UInt8) :
    KeysOf (keysAfter keys key value) (Nattan.setHeader fHeaders key value) := by
  rw [keysAfter, Nattan.setHeader]
  split
  · exact keysOf
  refine ⟨ordered_insertKey keysOf.ordered, fun other => ?_⟩
  rw [mem_insertKey, keysOf.mem_iff]
  by_cases same : other = key
  · rw [same, Function.update_self]
    exact ⟨fun _ => Option.some_ne_none value, fun _ => Or.inl rfl⟩
  · rw [Function.update_of_ne same, or_iff_right same]

/-! ### The pairs of the map -/

/-- The pairs that a walk over the map meets. -/
def entries (keys : List (List UInt8)) (fHeaders : List UInt8 → Option (List UInt8)) :
    List (List UInt8 × List UInt8) :=
  keys.filterMap fun key => (fHeaders key).map fun value => (key, value)

/-- The pairs are those of the map, and no key is there twice. -/
structure Represents (pairs : List (List UInt8 × List UInt8))
    (fHeaders : List UInt8 → Option (List UInt8)) : Prop where
  once : (pairs.map Prod.fst).Nodup
  lookup : ∀ key, pairs.lookup key = fHeaders key

variable {keys : List (List UInt8)} {fHeaders : List UInt8 → Option (List UInt8)}

theorem lookup_entries (key : List UInt8) :
    (entries keys fHeaders).lookup key = if key ∈ keys then fHeaders key else none := by
  induction keys with
  | nil => rfl
  | cons first rest inductionHypothesis =>
    rw [entries, List.filterMap_cons]
    by_cases same : key = first
    · rw [same, if_pos List.mem_cons_self]
      cases found : fHeaders first with
      | none =>
        show (entries rest fHeaders).lookup first = none
        rw [← same, inductionHypothesis, same, found, ite_self]
      | some value => exact List.lookup_cons_self
    · have inRest : key ∈ first :: rest ↔ key ∈ rest :=
        List.mem_cons.trans (or_iff_right same)
      simp only [inRest]
      rw [← inductionHypothesis]
      cases fHeaders first with
      | none => rfl
      | some value =>
        show ((first, value) :: entries rest fHeaders).lookup key = _
        rw [List.lookup_cons, beq_false_of_ne same]

theorem map_fst_entries (known : ∀ key ∈ keys, fHeaders key ≠ none) :
    (entries keys fHeaders).map Prod.fst = keys := by
  induction keys with
  | nil => rfl
  | cons key rest inductionHypothesis =>
    obtain ⟨value, found⟩ := Option.ne_none_iff_exists'.mp (known key List.mem_cons_self)
    rw [entries, List.filterMap_cons, found]
    exact congrArg (key :: ·)
      (inductionHypothesis fun other member => known other (List.mem_cons_of_mem _ member))

theorem KeysOf.represents (keysOf : KeysOf keys fHeaders) :
    Represents (entries keys fHeaders) fHeaders where
  once := by
    rw [map_fst_entries fun key => (keysOf.mem_iff key).mp]
    exact keysOf.ordered.imp fun before => Std.ne_of_lt before
  lookup := by
    intro key
    rw [lookup_entries]
    split
    · rfl
    · rename_i missing
      exact (not_not.mp (mt (keysOf.mem_iff key).mpr missing)).symm

theorem mem_entries {key value : List UInt8} (member : (key, value) ∈ entries keys fHeaders) :
    fHeaders key = some value := by
  obtain ⟨other, -, found⟩ := List.mem_filterMap.mp member
  obtain ⟨text, has, same⟩ := Option.map_eq_some_iff.mp found
  cases same
  exact has

/-! ### What is written, as lines -/

/-- The three parts of the start line. -/
def startParts (names : HttpNames) (header : HttpHeader) :
    Option (List UInt8 × List UInt8 × List UInt8) :=
  match header.type with
  | .request => header.method.map fun method =>
    (names.http_method_str method, header.uri, header.version.str)
  | .response => header.status_code.map fun status_code =>
    (header.version.str, bytesOf (toString status_code), header.phrase names status_code)

/-- A start line without its end of line. -/
def startText : List UInt8 × List UInt8 × List UInt8 → List UInt8
  | (first, second, third) => first ++ (space.toList ++ (second ++ (space.toList ++ third)))

/-- The line of a header without its end of line. -/
def entryText : List UInt8 × List UInt8 → List UInt8
  | (key, value) => key ++ (colonSpace.toList ++ value)

theorem lines_eq (keys : List (List UInt8)) (fHeaders : List UInt8 → Option (List UInt8)) :
    lines keys fHeaders =
      ((entries keys fHeaders).map entryText).flatMap fun line => line ++ crlf.toList := by
  induction keys with
  | nil => rfl
  | cons key rest inductionHypothesis =>
    rw [lines, List.flatMap_cons, entries, List.filterMap_cons]
    cases fHeaders key with
    | none => exact inductionHypothesis
    | some value =>
      show key ++ bytesOf ": " ++ value ++ bytesOf "\r\n" ++ lines rest fHeaders =
        key ++ (colonSpace.toList ++ value) ++ crlf.toList ++
          ((entries rest fHeaders).map entryText).flatMap fun line => line ++ crlf.toList
      rw [inductionHypothesis, ← List.append_assoc key]
      rfl

/-- The content is the start line, the line of every pair and an empty line. -/
theorem dumpToBuffer_eq_some {names : HttpNames} {header after : HttpHeader} {content : List UInt8}
    (dumped : header.dumpToBuffer names keys = some (after, content)) :
    ∃ parts, header.startParts names = some parts ∧
      content = (startText parts :: (entries keys header.fHeaders).map entryText).flatMap
        (fun line => line ++ crlf.toList) ++ (crlf.toList ++ []) := by
  cases type : header.type with
  | request =>
    simp only [dumpToBuffer, type] at dumped
    obtain ⟨method, assigned, same⟩ := Option.map_eq_some_iff.mp dumped
    cases same
    have start : header.requestLine names method =
        startText (names.http_method_str method, header.uri, header.version.str) ++
          crlf.toList := by
      simp only [requestLine, startText, List.append_assoc]
      rfl
    simp only [startParts, type, assigned]
    refine ⟨_, rfl, ?_⟩
    rw [List.flatMap_cons, ← lines_eq, ← start, List.append_nil]
    rfl
  | response =>
    simp only [dumpToBuffer, type] at dumped
    obtain ⟨status_code, assigned, same⟩ := Option.map_eq_some_iff.mp dumped
    cases same
    have start : header.statusLine names status_code =
        startText (header.version.str, bytesOf (toString status_code),
          header.phrase names status_code) ++ crlf.toList := by
      simp only [statusLine, startText, List.append_assoc]
      rfl
    simp only [startParts, type, assigned]
    refine ⟨_, rfl, ?_⟩
    rw [List.flatMap_cons, ← lines_eq, ← start, List.append_nil]
    rfl

theorem phrase_phrase (names : HttpNames) (header : HttpHeader) (status_code : Int) :
    phrase names { header with status_desc := header.phrase names status_code } status_code =
      header.phrase names status_code := by
  by_cases empty : header.status_desc = []
  · have standard : header.phrase names status_code = names.http_status_str status_code :=
      if_pos empty
    rw [standard, phrase, ite_self]
  · have own : header.phrase names status_code = header.status_desc := if_neg empty
    rw [own, phrase, if_neg empty]

theorem dumpToBuffer_response (names : HttpNames) {header : HttpHeader} {status_code : Int}
    (response : header.type = .response) (assigned : header.status_code = some status_code) :
    header.dumpToBuffer names keys =
      some ({ header with status_desc := header.phrase names status_code },
        header.statusLine names status_code ++ lines keys header.fHeaders ++ bytesOf "\r\n") := by
  rw [dumpToBuffer, response, assigned]
  rfl

/-- A second dump writes the same. The phrase that the first one left is the one it wrote. -/
theorem dumpToBuffer_again {names : HttpNames} {header after : HttpHeader} {content : List UInt8}
    (dumped : header.dumpToBuffer names keys = some (after, content)) :
    after.dumpToBuffer names keys = some (after, content) := by
  have written := dumped
  rw [dumpToBuffer] at dumped
  split at dumped
  · obtain ⟨method, assigned, same⟩ := Option.map_eq_some_iff.mp dumped
    cases same
    exact written
  · rename_i response
    obtain ⟨status_code, assigned, same⟩ := Option.map_eq_some_iff.mp dumped
    obtain ⟨rfl, rfl⟩ := Prod.mk.inj same
    rw [@dumpToBuffer_response keys names { header with
      status_desc := header.phrase names status_code } _ response assigned, statusLine,
      phrase_phrase names header status_code]
    rfl

/-! ### Reading it back -/

/-- What a reader finds in a block. -/
structure Block where
  parts : List UInt8 × List UInt8 × List UInt8
  headers : List (List UInt8 × List UInt8)
  left : List UInt8
  deriving DecidableEq, Repr

/-- Read a block: lines up to the first empty one, the first at its first two spaces, every other
one at its first colon with a space. -/
def decode (content : List UInt8) : Option Block := do
  let (lines, left) ← crlf.block content
  match lines with
  | [] => none
  | start :: rest =>
    let (first, behind) ← space.splitFirst start
    let (second, third) ← space.splitFirst behind
    let headers ← rest.mapM colonSpace.splitFirst
    return { parts := (first, second, third), headers, left }

theorem mapM_entryText {pairs : List (List UInt8 × List UInt8)}
    (free : ∀ pair ∈ pairs, colonSpace.head ∉ pair.1) :
    (pairs.map entryText).mapM colonSpace.splitFirst = some pairs := by
  induction pairs with
  | nil => rfl
  | cons pair rest inductionHypothesis =>
    rw [List.map_cons, List.mapM_cons,
      inductionHypothesis fun other member => free other (List.mem_cons_of_mem _ member)]
    have split : colonSpace.splitFirst (entryText pair) = some (pair.1, pair.2) :=
      colonSpace.splitFirst_append (free pair List.mem_cons_self) pair.2
    rw [split]
    rfl

theorem decode_lines {parts : List UInt8 × List UInt8 × List UInt8}
    {pairs : List (List UInt8 × List UInt8)}
    (partsInLine : InLine (startText parts)) (pairsInLine : ∀ pair ∈ pairs, InLine (entryText pair))
    (firstInWord : InWord parts.1) (secondInWord : InWord parts.2.1)
    (free : ∀ pair ∈ pairs, colonSpace.head ∉ pair.1) :
    decode ((startText parts :: pairs.map entryText).flatMap (fun line => line ++ crlf.toList) ++
      (crlf.toList ++ [])) = some ⟨parts, pairs, []⟩ := by
  have inLine : ∀ line ∈ startText parts :: pairs.map entryText, crlf.head ∉ line := by
    intro line member
    rcases List.mem_cons.mp member with same | inPairs
    · rw [same]
      exact partsInLine
    · obtain ⟨pair, inPairs, rfl⟩ := List.mem_map.mp inPairs
      exact pairsInLine pair ‹_›
  have nonempty : ∀ line ∈ startText parts :: pairs.map entryText, line ≠ [] := by
    intro line member
    rcases List.mem_cons.mp member with same | inPairs
    · rw [same]
      exact List.append_ne_nil_of_right_ne_nil _ (List.cons_ne_nil _ _)
    · obtain ⟨pair, inPairs, rfl⟩ := List.mem_map.mp inPairs
      exact List.append_ne_nil_of_right_ne_nil _ (List.cons_ne_nil _ _)
  obtain ⟨first, second, third⟩ := parts
  have firstSplit : space.splitFirst (startText (first, second, third)) =
      some (first, second ++ (space.toList ++ third)) := space.splitFirst_append firstInWord _
  have secondSplit : space.splitFirst (second ++ (space.toList ++ third)) =
      some (second, third) := space.splitFirst_append secondInWord _
  rw [decode, crlf.block_lines inLine nonempty]
  show (space.splitFirst (startText (first, second, third)) >>= _) = _
  rw [firstSplit]
  show (space.splitFirst (second ++ (space.toList ++ third)) >>= _) = _
  rw [secondSplit]
  show ((pairs.map entryText).mapM colonSpace.splitFirst >>= _) = _
  rw [mapM_entryText free]
  rfl

/-! ### The whole block -/

/-- `dumpToBuffer` with the value it returns. -/
def dumpToBufferWithin (names : HttpNames) (kHeaderLimitSize : Nat) (keys : List (List UInt8))
    (header : HttpHeader) : Option (HttpHeader × List UInt8 × Bool) :=
  (header.dumpToBuffer names keys).map fun (after, content) =>
    (after, content, if kHeaderLimitSize < content.length then false else true)

/-- The members that are written are assigned, and none holds a byte that starts the separator
behind it. -/
structure Dumpable (keys : List (List UInt8)) (header : HttpHeader) : Prop where
  method : header.type = .request → header.method ≠ none
  uri : header.type = .request → InLine header.uri ∧ InWord header.uri
  status_code : header.type = .response → header.status_code ≠ none
  status_desc : header.type = .response → InLine header.status_desc
  keysOf : KeysOf keys header.fHeaders
  headers : ∀ key value, header.fHeaders key = some value →
    InLine key ∧ colonSpace.head ∉ key ∧ InLine value

theorem inLine_str (version : HttpVersion) : InLine version.str := by
  cases version <;> decide

theorem inWord_str (version : HttpVersion) : InWord version.str := by
  cases version <;> decide

theorem inLine_space : InLine space.toList := by
  decide

theorem inLine_colonSpace : InLine colonSpace.toList := by
  decide

theorem inLine_toString (status_code : Int) : InLine (bytesOf (toString status_code)) :=
  fun member => (number_plain member).1 rfl

theorem inWord_toString (status_code : Int) : InWord (bytesOf (toString status_code)) :=
  fun member => (number_plain member).2 rfl

theorem Dumpable.inLine_phrase {names : HttpNames} {header : HttpHeader} (plain : names.Plain)
    (dumpable : Dumpable keys header) (response : header.type = .response) (status_code : Int) :
    InLine (header.phrase names status_code) := by
  rw [phrase]
  split
  · exact plain.statusInLine status_code
  · exact dumpable.status_desc response

/-- The start line stays in its line, and its first two parts in their words. -/
theorem Dumpable.start {names : HttpNames} {header : HttpHeader} (plain : names.Plain)
    (dumpable : Dumpable keys header) {parts : List UInt8 × List UInt8 × List UInt8}
    (start : header.startParts names = some parts) :
    InLine (startText parts) ∧ InWord parts.1 ∧ InWord parts.2.1 := by
  have together : ∀ first second third, InLine first → InLine second → InLine third →
      InLine (startText (first, second, third)) := fun first second third one two three =>
    one.append (inLine_space.append (two.append (inLine_space.append three)))
  rw [startParts] at start
  split at start
  · rename_i request
    obtain ⟨method, -, rfl⟩ := Option.map_eq_some_iff.mp start
    obtain ⟨uriInLine, uriInWord⟩ := dumpable.uri request
    exact ⟨together _ _ _ (plain.methodInLine method) uriInLine (inLine_str _),
      plain.methodInWord method, uriInWord⟩
  · rename_i response
    obtain ⟨status_code, -, rfl⟩ := Option.map_eq_some_iff.mp start
    exact ⟨together _ _ _ (inLine_str _) (inLine_toString _)
      (dumpable.inLine_phrase plain response _), inWord_str _, inWord_toString _⟩

theorem Dumpable.dumped {header : HttpHeader} (dumpable : Dumpable keys header)
    (names : HttpNames) :
    ∃ after content, header.dumpToBuffer names keys = some (after, content) := by
  rw [dumpToBuffer]
  split
  · rename_i request
    obtain ⟨method, assigned⟩ := Option.ne_none_iff_exists'.mp (dumpable.method request)
    rw [assigned]
    exact ⟨_, _, rfl⟩
  · rename_i response
    obtain ⟨status_code, assigned⟩ := Option.ne_none_iff_exists'.mp (dumpable.status_code response)
    rw [assigned]
    exact ⟨_, _, rfl⟩

theorem Dumpable.decode {names : HttpNames} {header after : HttpHeader} {content : List UInt8}
    (plain : names.Plain) (dumpable : Dumpable keys header)
    (dumped : header.dumpToBuffer names keys = some (after, content)) :
    ∃ parts, header.startParts names = some parts ∧
      decode content = some ⟨parts, entries keys header.fHeaders, []⟩ := by
  obtain ⟨parts, start, rfl⟩ := dumpToBuffer_eq_some dumped
  obtain ⟨inLine, firstInWord, secondInWord⟩ := dumpable.start plain start
  refine ⟨parts, start, decode_lines inLine ?_ firstInWord secondInWord ?_⟩
  · rintro ⟨key, value⟩ member
    obtain ⟨keyInLine, -, valueInLine⟩ := dumpable.headers key value (mem_entries member)
    exact keyInLine.append (inLine_colonSpace.append valueInLine)
  · rintro ⟨key, value⟩ member
    exact (dumpable.headers key value (mem_entries member)).2.1

/-- The block is written, and read back: the parts of the start line, and every pair of the map
once, with nothing left behind them. A second dump writes the same and returns the same, and the
result is false exactly when the block is longer than the limit. -/
def ReadBack (names : HttpNames) (kHeaderLimitSize : Nat) (keys : List (List UInt8))
    (header : HttpHeader) : Prop :=
  ∃ after content result parts headers,
    header.dumpToBufferWithin names kHeaderLimitSize keys = some (after, content, result) ∧
    header.startParts names = some parts ∧
    HttpHeader.decode content = some ⟨parts, headers, []⟩ ∧
    Represents headers header.fHeaders ∧
    after.dumpToBufferWithin names kHeaderLimitSize keys = some (after, content, result) ∧
    (result = false ↔ kHeaderLimitSize < content.length)

theorem dumpToBuffer_readBack (kHeaderLimitSize : Nat) {header : HttpHeader}
    (dumpable : Dumpable keys header) : ReadBack .vendored kHeaderLimitSize keys header := by
  obtain ⟨after, content, dumped⟩ := dumpable.dumped .vendored
  obtain ⟨parts, start, decoded⟩ := dumpable.decode HttpNames.plain_vendored dumped
  refine ⟨after, content, if kHeaderLimitSize < content.length then false else true, parts,
    entries keys header.fHeaders, ?_, start, decoded, dumpable.keysOf.represents, ?_, ?_⟩
  · rw [dumpToBufferWithin, dumped]
    rfl
  · rw [dumpToBufferWithin, dumpToBuffer_again dumped]
    rfl
  · split
    · rename_i longer
      exact ⟨fun _ => longer, fun _ => rfl⟩
    · rename_i fits
      exact ⟨fun impossible => absurd impossible.symm Bool.false_ne_true,
        fun longer => absurd longer fits⟩

/-- A response with one header and the phrase of its status code. -/
def sampleResponse : HttpHeader :=
  { HttpHeader.new .response with
    status_code := some 404
    fHeaders := Nattan.setHeader (fun _ => none) [65] [66, 58, 32] }

theorem dumpToBuffer_readBack_sampleResponse :
    ReadBack .vendored 8192 [[65]] sampleResponse ∧
      (sampleResponse.dumpToBuffer .vendored [[65]]).map Prod.snd =
        some (bytesOf "HTTP/1.1 404 Not Found\r\nA: B: \r\n\r\n") := by
  have only : ∀ key value, sampleResponse.fHeaders key = some value →
      key = [65] ∧ value = [66, 58, 32] := by
    intro key value found
    by_cases same : key = [65]
    · rw [same] at found
      exact ⟨same, (Option.some.inj found).symm⟩
    · have missing : sampleResponse.fHeaders key = none := by
        show Nattan.setHeader (fun _ => none) [65] [66, 58, 32] key = none
        rw [Nattan.setHeader, if_neg (by decide), Function.update_of_ne same]
      rw [missing] at found
      cases found
  refine ⟨dumpToBuffer_readBack 8192 ?_, by decide +kernel⟩
  exact
    { method := fun request => absurd request (by decide)
      uri := fun request => absurd request (by decide)
      status_code := fun _ => Option.some_ne_none 404
      status_desc := fun _ => List.not_mem_nil
      keysOf := keysOf_empty.setHeader [65] [66, 58, 32]
      headers := by
        intro key value found
        obtain ⟨rfl, rfl⟩ := only key value found
        decide }

end HttpHeader

end Nattan
