/-
This file says what the states of the vendored `http_parser` rely on and proves that every
case of the `switch` leaves what the state it goes on to relies on.

The assertions speak of what earlier bytes have left: of the method guessed so far, of the
header that is matched, of the size of a chunk and of what is counted since its beginning.
So every state has a condition of its own on the rest of the parser. Which of the marks is
set is a matter of the state alone, but for the body, which may have begun in an earlier
call.
-/

import Nattan.HttpExecute

namespace Nattan

namespace Http

variable {strict : Bool} {answer : Int} {start : Nat} {parser : Parser} {state : State}
  {ch : UInt8} {before : Option TextKind}

/-! ### What every state relies on -/

/-- The cases of `s_header_field`. -/
def HeaderState.inName : HeaderState → Bool
  | h_general | h_C | h_CO | h_CON | h_matching_connection | h_matching_proxy_connection
  | h_matching_content_length | h_matching_transfer_encoding | h_matching_upgrade
  | h_connection | h_content_length | h_transfer_encoding | h_upgrade => true
  | _ => false

/-- The cases of `s_header_value`. -/
def HeaderState.inValue : HeaderState → Bool
  | h_connection | h_transfer_encoding => false
  | _ => true

/-- The method guessed so far has a character, or its end, where the next one is looked for. -/
def Parser.Guesses (parser : Parser) : Prop :=
  ∃ matcher ∈ methodStrings[parser.method]?, parser.index ≤ (bytesOf matcher).length

/-- What a state relies on, when the bytes since the last count are `start`. -/
def Parser.Fits (start : Nat) (parser : Parser) : Prop :=
  match parser.state with
  | .s_req_method => parser.Guesses
  | .s_header_field => parser.header_state.inName = true
  | .s_header_value => parser.header_state.inValue = true
  | .s_chunk_size_start => parser.flags.F_CHUNKED = true ∧ parser.nread = start
  | .s_chunk_size | .s_chunk_parameters | .s_chunk_size_almost_done =>
    parser.flags.F_CHUNKED = true ∧ parser.content_length < ULLONG_MAX
  | .s_chunk_data =>
    parser.flags.F_CHUNKED = true ∧ parser.content_length ≠ 0 ∧
      parser.content_length < ULLONG_MAX
  | .s_chunk_data_almost_done => parser.flags.F_CHUNKED = true ∧ parser.content_length = 0
  | .s_chunk_data_done => parser.flags.F_CHUNKED = true
  | .s_body_identity => parser.content_length ≠ 0 ∧ parser.content_length < ULLONG_MAX
  | _ => True

/-- The states that rely on nothing. -/
def State.free : State → Bool
  | s_req_method | s_header_field | s_header_value | s_chunk_size_start | s_chunk_size
  | s_chunk_parameters | s_chunk_size_almost_done | s_chunk_data | s_chunk_data_almost_done
  | s_chunk_data_done | s_body_identity => false
  | _ => true

/-- What all states rely on. -/
structure Sane (parser : Parser) : Prop where
  errno : parser.http_errno = .HPE_OK
  nread : parser.nread ≤ HTTP_MAX_HEADER_SIZE
  width : parser.content_length ≤ ULLONG_MAX

structure Sound (start : Nat) (parser : Parser) : Prop extends Sane parser where
  fits : parser.Fits start

theorem fits_of_free (free : parser.state.free = true) : parser.Fits start := by
  unfold Parser.Fits
  split <;> first
    | trivial
    | rename_i here
      rw [here] at free
      cases free

theorem Sane.sound (sane : Sane parser) (free : parser.state.free = true) : Sound start parser :=
  ⟨sane, fits_of_free free⟩

theorem sound_http_parser_init (type : ParserType) : Sound 0 (http_parser_init type) where
  errno := rfl
  nread := Nat.zero_le _
  width := Nat.zero_le _
  fits := fits_of_free (by cases type <;> rfl)

/-! ### What the macros do to the marks -/

/-- The macros of a case that looks at one byte, by the elements that are open before and behind
it. The body is never opened. -/
inductive Shape : Option TextKind → List Macro → Option TextKind → Prop where
  | stays (kind : Option TextKind) : Shape kind [] kind
  | opens (kind : TextKind) : Shape none [.MARK (.text kind)] (some kind)
  | closes (kind : TextKind) : Shape (some kind) [.CALLBACK_DATA (.text kind)] none
  | notice (notice : Notice) {macros : List Macro} {behind : Option TextKind}
      (rest : Shape none macros behind) : Shape none (.CALLBACK_NOTIFY notice :: macros) behind
  | body : Shape none [.CALLBACK_DATA .body] none
  | empty (kind : TextKind) {macros : List Macro} {behind : Option TextKind}
      (rest : Shape none macros behind) :
      Shape none (.MARK (.text kind) :: .CALLBACK_DATA (.text kind) :: macros) behind

/-- A case fails no assertion, and where it does not end in an error the next state finds what
it relies on. -/
def Outcome.Good (before : Option TextKind) : Outcome → Prop
  | next parser macros => Sound 0 parser ∧ Shape before macros parser.state.open
  | exit parser macros => Sound 0 parser ∧ Shape before macros parser.state.open
  | error parser _ => parser.http_errno ≠ .HPE_OK
  | abort => False

theorem good_SET_ERRNO {errno : Errno} (fails : errno ≠ .HPE_OK) :
    (SET_ERRNO parser errno).Good before :=
  fails

theorem Outcome.Good.notice {outcome : Outcome} (good : outcome.Good none) (notice : Notice) :
    (outcome.behind [.CALLBACK_NOTIFY notice]).Good none := by
  cases outcome with
  | next parser macros => exact ⟨good.1, .notice notice good.2⟩
  | exit parser macros => exact ⟨good.1, .notice notice good.2⟩
  | error parser macros => exact good
  | abort => exact good

theorem Outcome.Good.empty {outcome : Outcome} (good : outcome.Good none) (kind : TextKind) :
    (outcome.behind [.MARK (.text kind), .CALLBACK_DATA (.text kind)]).Good none := by
  cases outcome with
  | next parser macros => exact ⟨good.1, .empty kind good.2⟩
  | exit parser macros => exact ⟨good.1, .empty kind good.2⟩
  | error parser macros => exact good
  | abort => exact good

theorem good_STRICT_CHECK {cond : Bool} {otherwise : Outcome} (good : otherwise.Good before) :
    (STRICT_CHECK strict cond parser otherwise).Good before := by
  unfold STRICT_CHECK
  split
  · exact good_SET_ERRNO (by decide)
  · exact good

/-- A case that goes on without a macro. -/
theorem good_next (sane : Sane parser) (free : parser.state.free = true)
    (stays : parser.state.open = before) : (Outcome.next parser []).Good before :=
  ⟨sane.sound free, stays ▸ .stays _⟩

theorem good_UPDATE_STATE (sane : Sane parser) (free : state.free = true)
    (stays : state.open = before) : (UPDATE_STATE parser state).Good before :=
  ⟨⟨⟨sane.errno, sane.nread, sane.width⟩, fits_of_free free⟩, stays ▸ .stays _⟩

theorem good_version {on : Parser} (sane : Sane on) (free : on.state.free = true)
    (stays : on.state.open = before) : (version parser on ch).Good before := by
  unfold version
  split
  · exact good_SET_ERRNO (by decide)
  · exact good_next sane free stays

theorem good_expect {expected : UInt8} {errno : Errno} (sane : Sane parser)
    (free : state.free = true) (stays : state.open = before) (fails : errno ≠ .HPE_OK) :
    (expect parser ch expected state errno).Good before := by
  unfold expect
  split
  · exact good_SET_ERRNO fails
  · exact good_UPDATE_STATE sane free stays

theorem good_strictly {expected : UInt8} (sane : Sane parser) (free : state.free = true)
    (stays : state.open = before) : (strictly strict parser ch expected state).Good before :=
  good_STRICT_CHECK (good_UPDATE_STATE sane free stays)

/-! ### Start lines -/

/-- A url goes on, or it ends in an error. -/
theorem open_parse_url_char (alive : parse_url_char strict state ch ≠ .s_dead) :
    (parse_url_char strict state ch).free = true ∧
      (parse_url_char strict state ch).open = some .url := by
  have server : ∀ {ch}, parse_url_char.serverChar ch = .s_dead ∨
      (parse_url_char.serverChar ch).free = true ∧
        (parse_url_char.serverChar ch).open = some .url := by
    intro ch
    unfold parse_url_char.serverChar
    repeat' split
    all_goals first | exact Or.inl rfl | exact Or.inr ⟨rfl, rfl⟩
  revert alive
  unfold parse_url_char
  split
  · exact fun alive => absurd rfl alive
  split
  · exact fun alive => absurd rfl alive
  split
  all_goals repeat' split
  all_goals first
    | exact fun alive => absurd rfl alive
    | exact fun _ => ⟨rfl, rfl⟩
    | exact fun alive => server.resolve_left alive

theorem good_urlChar (sane : Sane parser) {macros : List Macro}
    (shape : Shape before macros (some .url)) : (urlChar strict parser ch macros).Good before := by
  unfold urlChar
  simp only
  split
  · exact fun fails => nomatch fails
  · rename_i alive
    obtain ⟨free, inUrl⟩ := open_parse_url_char alive
    exact ⟨⟨⟨sane.errno, sane.nread, sane.width⟩, fits_of_free free⟩, inUrl ▸ shape⟩

theorem Sane.fresh (sane : Sane parser) : Sane parser.fresh :=
  ⟨sane.errno, sane.nread, Nat.le_refl _⟩

theorem mem_of_lookup {Key Value : Type} [BEq Key] [LawfulBEq Key] {key : Key} {value : Value}
    {pairs : List (Key × Value)} (found : pairs.lookup key = some value) :
    (key, value) ∈ pairs := by
  obtain ⟨front, back, rfl, -⟩ := List.lookup_eq_some_iff.mp found
  exact List.mem_append_right _ List.mem_cons_self

theorem guesses_firstMethod {method : Nat} (found : firstMethod.lookup ch = some method) :
    ∃ matcher ∈ methodStrings[method]?, 1 ≤ (bytesOf matcher).length := by
  have all : ∀ entry ∈ firstMethod, ∃ matcher ∈ methodStrings[entry.2]?,
      1 ≤ (bytesOf matcher).length := by decide +kernel
  exact all _ (mem_of_lookup found)

theorem guesses_otherMethod {method index other : Nat}
    (found : otherMethod.lookup (method, index, ch) = some other) :
    ∃ matcher ∈ methodStrings[other]?, index + 1 ≤ (bytesOf matcher).length := by
  have all : ∀ entry ∈ otherMethod, ∃ matcher ∈ methodStrings[entry.2]?,
      entry.1.2.1 + 1 ≤ (bytesOf matcher).length := by decide +kernel
  exact all _ (mem_of_lookup found)

theorem good_s_start_req (sane : Sane parser) (here : parser.state = .s_start_req) :
    (s_start_req parser ch).Good none := by
  unfold s_start_req
  split
  · exact good_next sane (here ▸ rfl) (here ▸ rfl)
  split
  · exact good_SET_ERRNO (by decide)
  cases found : firstMethod.lookup ch with
  | none => exact good_SET_ERRNO (by decide)
  | some method =>
    exact ⟨⟨⟨sane.errno, sane.nread, Nat.le_refl _⟩, guesses_firstMethod found⟩,
      .notice .messageBegin (.stays none)⟩

/-- A text is read up to its zero. -/
theorem charAt_of_le {text : List UInt8} {index : Nat} (inside : index ≤ text.length) :
    ∃ c, charAt text index = some c ∧ (c ≠ 0 → index < text.length) := by
  unfold charAt
  rcases Nat.lt_or_eq_of_le inside with less | rfl
  · exact ⟨text[index], by rw [List.getElem?_append_left less, List.getElem?_eq_getElem less],
      fun _ => less⟩
  · exact ⟨0, by rw [List.getElem?_append_right (Nat.le_refl _), Nat.sub_self]; rfl,
      fun some => absurd rfl some⟩

theorem good_s_req_method (sane : Sane parser) (here : parser.state = .s_req_method)
    (guesses : parser.Guesses) : (s_req_method parser ch).Good none := by
  obtain ⟨matcher, known, inside⟩ := guesses
  obtain ⟨c, found, less⟩ := charAt_of_le inside
  have next : (parser.index + 1) % 128 ≤ parser.index + 1 := Nat.mod_le _ _
  unfold s_req_method
  rw [Option.mem_def.mp known, Option.bind_some, found]
  simp only
  split
  · exact good_SET_ERRNO (by decide)
  rename_i some
  split
  · exact good_UPDATE_STATE ⟨sane.errno, sane.nread, sane.width⟩ rfl rfl
  split
  · rename_i same
    refine ⟨⟨⟨sane.errno, sane.nread, sane.width⟩, ?_⟩, ?_⟩
    · unfold Parser.Fits
      rw [here]
      exact ⟨matcher, known, next.trans (less (same ▸ some))⟩
    · exact (congrArg State.open here : parser.state.open = none) ▸ .stays _
  split
  · cases other : otherMethod.lookup (parser.method, parser.index, ch) with
    | none => exact good_SET_ERRNO (by decide)
    | some method =>
      obtain ⟨matcher, known, inside⟩ := guesses_otherMethod other
      refine ⟨⟨⟨sane.errno, sane.nread, sane.width⟩, ?_⟩, ?_⟩
      · unfold Parser.Fits
        rw [here]
        exact ⟨matcher, known, next.trans inside⟩
      · exact (congrArg State.open here : parser.state.open = none) ▸ .stays _
  · exact good_SET_ERRNO (by decide)

theorem good_s_res_status (sane : Sane parser) (here : parser.state = .s_res_status) :
    (s_res_status parser ch).Good (some .status) := by
  unfold s_res_status
  split
  · exact ⟨⟨⟨sane.errno, sane.nread, sane.width⟩, trivial⟩, .closes .status⟩
  split
  · exact ⟨⟨⟨sane.errno, sane.nread, sane.width⟩, trivial⟩, .closes .status⟩
  · exact good_next sane (here ▸ rfl) (here ▸ rfl)

theorem good_s_res_status_start (sane : Sane parser) :
    (s_res_status_start parser ch).Good none := by
  unfold s_res_status_start
  simp only
  split
  · rename_i ends
    -- the element is empty, and its delimiter is executed in the next state
    unfold s_res_status
    split
    · exact ⟨⟨⟨sane.errno, sane.nread, sane.width⟩, trivial⟩, .empty .status (.stays none)⟩
    · rename_i other
      rw [if_pos (ends.resolve_left other)]
      exact ⟨⟨⟨sane.errno, sane.nread, sane.width⟩, trivial⟩, .empty .status (.stays none)⟩
  · exact ⟨⟨⟨sane.errno, sane.nread, sane.width⟩, trivial⟩, .opens .status⟩

theorem good_s_res_status_code (sane : Sane parser) (here : parser.state = .s_res_status_code) :
    (s_res_status_code parser ch).Good none := by
  unfold s_res_status_code
  split
  · split
    · exact good_UPDATE_STATE sane rfl rfl
    split
    · exact good_s_res_status_start ⟨sane.errno, sane.nread, sane.width⟩
    · exact good_SET_ERRNO (by decide)
  · simp only
    split
    · exact good_SET_ERRNO (by decide)
    · exact good_next ⟨sane.errno, sane.nread, sane.width⟩
        (congrArg State.free here) (congrArg State.open here)

/-! ### The end of a header -/

theorem free_NEW_MESSAGE (strict : Bool) (parser : Parser) :
    (NEW_MESSAGE strict parser).free = true ∧ (NEW_MESSAGE strict parser).open = none := by
  unfold NEW_MESSAGE start_state
  repeat' split
  all_goals exact ⟨rfl, rfl⟩

/-- A message ends with its notice, and the parser goes on to a new one. -/
theorem Sane.ends (sane : Sane parser) :
    Sound 0 (completed strict parser) ∧
      Shape none [.CALLBACK_NOTIFY .messageComplete] (completed strict parser).state.open := by
  obtain ⟨free, outside⟩ := free_NEW_MESSAGE strict parser
  exact ⟨⟨⟨sane.errno, sane.nread, sane.width⟩, fits_of_free free⟩,
    outside.symm ▸ .notice .messageComplete (.stays none)⟩

theorem good_s_message_done (sane : Sane parser) :
    (s_message_done strict parser).Good none := by
  unfold s_message_done
  split
  · exact sane.ends
  · exact sane.ends

theorem good_s_headers_done (sane : Sane parser) :
    (s_headers_done strict parser ch).Good none := by
  have zero : Sane { parser with nread := 0 } := ⟨sane.errno, Nat.zero_le _, sane.width⟩
  refine good_STRICT_CHECK ?_
  simp only
  split
  · exact zero.ends
  split
  · exact zero.ends
  split
  · rename_i chunked
    exact ⟨⟨⟨zero.errno, zero.nread, zero.width⟩, chunked, rfl⟩, .stays none⟩
  split
  · exact zero.ends
  rename_i some
  split
  · rename_i counted
    exact ⟨⟨⟨zero.errno, zero.nread, zero.width⟩, some,
      Nat.lt_of_le_of_ne zero.width counted⟩, .stays none⟩
  split
  · exact zero.ends
  · exact good_UPDATE_STATE zero rfl rfl

theorem good_headersComplete (sane : Sane parser) :
    (headersComplete strict answer parser ch).Good none := by
  have skips : Sane { parser with flags := { parser.flags with F_SKIPBODY := true } } :=
    ⟨sane.errno, sane.nread, sane.width⟩
  unfold headersComplete
  simp only
  split
  · exact good_s_headers_done sane
  split
  · exact good_s_headers_done ⟨skips.errno, skips.nread, skips.width⟩
  split
  · exact good_s_headers_done skips
  · exact good_SET_ERRNO (by decide)

theorem good_s_headers_almost_done (sane : Sane parser) :
    (s_headers_almost_done strict answer parser ch).Good none := by
  refine good_STRICT_CHECK ?_
  split
  · exact good_s_message_done ⟨sane.errno, sane.nread, sane.width⟩
  split
  · exact good_SET_ERRNO (by decide)
  · refine Outcome.Good.notice (good_headersComplete ?_) _
    exact ⟨sane.errno, sane.nread, sane.width⟩

/-! ### Header lines -/

theorem inName_firstHeaderState (c : UInt8) : (firstHeaderState c).inName = true := by
  unfold firstHeaderState
  repeat' split
  all_goals rfl

theorem good_s_header_field_start (sane : Sane parser) :
    (s_header_field_start strict answer parser ch).Good none := by
  unfold s_header_field_start
  split
  · exact good_UPDATE_STATE sane rfl rfl
  split
  · exact good_s_headers_almost_done ⟨sane.errno, sane.nread, sane.width⟩
  simp only
  split
  · exact good_SET_ERRNO (by decide)
  · exact ⟨⟨⟨sane.errno, sane.nread, sane.width⟩, inName_firstHeaderState _⟩, .opens .field⟩

theorem good_s_header_value_start (sane : Sane parser) :
    (s_header_value_start parser ch).Good none := by
  have width : digit ch ≤ ULLONG_MAX := by
    have small := ch.toNat_lt
    unfold digit ULLONG_MAX
    omega
  unfold s_header_value_start
  simp only
  split
  · exact ⟨⟨⟨sane.errno, sane.nread, sane.width⟩, rfl⟩, .opens .value⟩
  · refine ⟨⟨⟨sane.errno, sane.nread, sane.width⟩, ?_⟩, .opens .value⟩
    show HeaderState.inValue _ = true
    split <;> rfl
  · split
    · exact fun fails => nomatch fails
    split
    · exact fun fails => nomatch fails
    · exact ⟨⟨⟨sane.errno, sane.nread, width⟩, rfl⟩, .opens .value⟩
  · exact ⟨⟨⟨sane.errno, sane.nread, sane.width⟩, rfl⟩, .opens .value⟩
  · refine ⟨⟨⟨sane.errno, sane.nread, sane.width⟩, ?_⟩, .opens .value⟩
    show HeaderState.inValue _ = true
    repeat' split
    all_goals rfl
  · exact ⟨⟨⟨sane.errno, sane.nread, sane.width⟩, rfl⟩, .opens .value⟩
  · exact ⟨⟨⟨sane.errno, sane.nread, sane.width⟩, rfl⟩, .opens .value⟩

theorem good_s_header_value_lws (sane : Sane parser) :
    (s_header_value_lws strict answer parser ch).Good none := by
  unfold s_header_value_lws
  split
  · exact good_s_header_value_start ⟨sane.errno, sane.nread, sane.width⟩
  · exact good_s_header_field_start ⟨sane.errno, sane.nread, sane.width⟩

theorem good_s_header_value_discard_lws (sane : Sane parser) :
    (s_header_value_discard_lws strict answer parser ch).Good none := by
  unfold s_header_value_discard_lws
  split
  · exact good_UPDATE_STATE sane rfl rfl
  split
  · exact good_SET_ERRNO (by decide)
  · refine Outcome.Good.empty (good_s_header_field_start ?_) .value
    exact ⟨sane.errno, sane.nread, sane.width⟩

theorem good_s_header_value_discard_ws (sane : Sane parser)
    (here : parser.state = .s_header_value_discard_ws) :
    (s_header_value_discard_ws parser ch).Good none := by
  unfold s_header_value_discard_ws
  split
  · exact good_next sane (here ▸ rfl) (here ▸ rfl)
  split
  · exact good_UPDATE_STATE sane rfl rfl
  split
  · exact good_UPDATE_STATE sane rfl rfl
  · exact good_s_header_value_start sane

theorem good_s_header_almost_done (sane : Sane parser) :
    (s_header_almost_done parser ch).Good none := by
  unfold s_header_almost_done
  split
  · exact good_SET_ERRNO (by decide)
  · exact good_UPDATE_STATE sane rfl rfl

/-! ### Chunks -/

theorem toNat_unhexAt_le (ch : UInt8) : (unhexAt ch).toNat ≤ 15 := by
  have all : ∀ value ∈ unhex, value.toNat ≤ 15 := by decide +kernel
  unfold unhexAt
  rw [List.getD_eq_getElem?_getD]
  cases found : unhex[ch.toNat]? with
  | none => exact Nat.zero_le _
  | some value => exact all value (List.mem_of_getElem? found)

/-- What a digit more does not carry to the value that stands for no length. -/
theorem more_lt {length base digit : Nat} (small : ¬ (ULLONG_MAX - base) / base < length)
    (positive : 0 < base) (less : digit < base) (fits : base ≤ ULLONG_MAX) :
    length * base + digit < ULLONG_MAX := by
  have most : length * base ≤ ULLONG_MAX - base :=
    (Nat.le_div_iff_mul_le positive).mp (Nat.le_of_not_lt small)
  omega

theorem good_chunkCase (sound : Sound 1 parser)
    (chunks : parser.state = .s_chunk_size_start ∨ parser.state = .s_chunk_size ∨
      parser.state = .s_chunk_parameters ∨ parser.state = .s_chunk_size_almost_done ∨
      parser.state = .s_chunk_data_almost_done ∨ parser.state = .s_chunk_data_done) :
    (chunkCase strict parser ch).Good none := by
  have sane := sound.toSane
  have digit := toNat_unhexAt_le ch
  have fits := sound.fits
  unfold Parser.Fits at fits
  unfold chunkCase
  rcases chunks with here | here | here | here | here | here <;>
    simp only [here] at fits ⊢
  · obtain ⟨chunked, first⟩ := fits
    rw [chunked, if_neg (by decide), if_neg (fun other => other first)]
    split
    · exact good_SET_ERRNO (by decide)
    · refine ⟨⟨⟨sane.errno, sane.nread, ?_⟩, chunked, ?_⟩, .stays none⟩
      · show (unhexAt ch).toNat ≤ ULLONG_MAX
        unfold ULLONG_MAX
        omega
      · show (unhexAt ch).toNat < ULLONG_MAX
        unfold ULLONG_MAX
        omega
  · obtain ⟨chunked, small⟩ := fits
    rw [chunked, if_neg (by decide)]
    split
    · exact ⟨⟨⟨sane.errno, sane.nread, sane.width⟩, chunked, small⟩, .stays none⟩
    unfold chunkDigit
    split
    · split
      · exact ⟨⟨⟨sane.errno, sane.nread, sane.width⟩, chunked, small⟩, .stays none⟩
      · exact good_SET_ERRNO (by decide)
    split
    · exact good_SET_ERRNO (by decide)
    · rename_i room
      have less := more_lt room (by decide) (Nat.lt_succ_of_le digit) (by decide)
      have same : (parser.content_length * 16 + (unhexAt ch).toNat) % 2 ^ 64 =
          parser.content_length * 16 + (unhexAt ch).toNat :=
        Nat.mod_eq_of_lt (less.trans (by decide))
      rw [same]
      refine ⟨⟨⟨sane.errno, sane.nread, less.le⟩, ?_⟩, ?_⟩
      · unfold Parser.Fits
        simp only [here]
        exact ⟨chunked, less⟩
      · exact (congrArg State.open here : parser.state.open = none) ▸ .stays _
  · obtain ⟨chunked, small⟩ := fits
    rw [chunked, if_neg (by decide)]
    split
    · exact ⟨⟨⟨sane.errno, sane.nread, sane.width⟩, chunked, small⟩, .stays none⟩
    · refine ⟨⟨sane, ?_⟩, (congrArg State.open here : parser.state.open = none) ▸ .stays _⟩
      unfold Parser.Fits
      simp only [here]
      exact ⟨chunked, small⟩
  · obtain ⟨chunked, small⟩ := fits
    rw [chunked, if_neg (by decide)]
    refine good_STRICT_CHECK ?_
    split
    · exact ⟨⟨⟨sane.errno, Nat.zero_le _, sane.width⟩, trivial⟩, .stays none⟩
    · rename_i some
      exact ⟨⟨⟨sane.errno, Nat.zero_le _, sane.width⟩, chunked, some, small⟩, .stays none⟩
  · obtain ⟨chunked, done⟩ := fits
    rw [chunked, if_neg (by decide), if_neg (fun other => other done)]
    exact good_STRICT_CHECK ⟨⟨⟨sane.errno, sane.nread, sane.width⟩, chunked⟩, .body⟩
  · rw [fits, if_neg (by decide)]
    exact good_STRICT_CHECK
      ⟨⟨⟨sane.errno, Nat.zero_le _, sane.width⟩, fits, rfl⟩, .stays none⟩

/-! ### The `switch` -/

/-- The states whose cases read ahead. -/
def State.readsAhead : State → Bool
  | s_header_field | s_header_value | s_chunk_data | s_body_identity | s_body_identity_eof => true
  | _ => false

/-- Inside of a url, behind the part that names its server. -/
theorem good_url (sane : Sane parser) :
    (if ch = SP then
        Outcome.next { parser with state := .s_req_http_start } [.CALLBACK_DATA (.text .url)]
      else if ch = CR ∨ ch = LF then
        .next { parser with
          http_major := 0
          http_minor := 9
          state := if ch = CR then .s_req_line_almost_done else .s_header_field_start }
            [.CALLBACK_DATA (.text .url)]
      else urlChar strict parser ch []).Good (some .url) := by
  split
  · exact ⟨⟨⟨sane.errno, sane.nread, sane.width⟩, trivial⟩, .closes .url⟩
  split
  · split
    · exact ⟨⟨⟨sane.errno, sane.nread, sane.width⟩, trivial⟩, .closes .url⟩
    · exact ⟨⟨⟨sane.errno, sane.nread, sane.width⟩, trivial⟩, .closes .url⟩
  · exact good_urlChar sane (.stays _)

theorem good_switchByte (sound : Sound 1 parser) (here : parser.state.readsAhead = false) :
    (switchByte strict answer parser ch).Good parser.state.open := by
  have sane := sound.toSane
  have fits := sound.fits
  unfold Parser.Fits at fits
  unfold switchByte
  cases state : parser.state <;> simp only [state] at fits here ⊢
  case s_header_field | s_header_value | s_chunk_data | s_body_identity | s_body_identity_eof =>
    cases here
  case s_chunk_size_start | s_chunk_size | s_chunk_parameters | s_chunk_size_almost_done
      | s_chunk_data_almost_done | s_chunk_data_done =>
    exact good_chunkCase sound (by simp [state])
  case s_res_H | s_res_HT | s_res_HTT | s_res_HTTP | s_res_line_almost_done | s_req_http_H
      | s_req_http_HT | s_req_http_HTT | s_req_http_I | s_req_http_IC | s_req_http_HTTP
      | s_header_value_discard_ws_almost_done =>
    exact good_strictly sane rfl rfl
  case s_res_http_major | s_res_http_minor | s_req_http_major | s_req_http_minor =>
    exact good_version ⟨sane.errno, sane.nread, sane.width⟩ rfl rfl
  case s_res_http_dot | s_res_http_end | s_req_http_dot | s_req_line_almost_done =>
    exact good_expect sane rfl rfl (by decide)
  case s_req_schema | s_req_schema_slash | s_req_schema_slash_slash | s_req_server_start =>
    split
    · exact good_SET_ERRNO (by decide)
    · exact good_urlChar sane (.stays _)
  case s_req_server | s_req_server_with_at | s_req_path | s_req_query_string_start
      | s_req_query_string | s_req_fragment_start | s_req_fragment =>
    exact good_url sane
  case s_dead =>
    split
    · exact good_next sane (state ▸ rfl) (state ▸ rfl)
    · exact good_SET_ERRNO (by decide)
  case s_start_req_or_res =>
    split
    · exact good_next sane (state ▸ rfl) (state ▸ rfl)
    split
    · exact ⟨⟨⟨sane.errno, sane.nread, Nat.le_refl _⟩, trivial⟩,
        .notice .messageBegin (.stays none)⟩
    · exact good_s_start_req ⟨sane.errno, sane.nread, Nat.le_refl _⟩ rfl
  case s_res_or_resp_H =>
    split
    · exact ⟨⟨⟨sane.errno, sane.nread, sane.width⟩, trivial⟩, .stays none⟩
    split
    · exact good_SET_ERRNO (by decide)
    · have inside : 2 ≤ (bytesOf "HEAD").length := by decide +kernel
      exact ⟨⟨⟨sane.errno, sane.nread, sane.width⟩, "HEAD", rfl, inside⟩, .stays none⟩
  case s_start_res =>
    split
    · exact good_next sane (state ▸ rfl) (state ▸ rfl)
    split
    · exact ⟨⟨⟨sane.errno, sane.nread, Nat.le_refl _⟩, trivial⟩,
        .notice .messageBegin (.stays none)⟩
    · exact good_SET_ERRNO (by decide)
  case s_res_first_status_code =>
    split
    · split
      · exact good_next sane (state ▸ rfl) (state ▸ rfl)
      · exact good_SET_ERRNO (by decide)
    · exact ⟨⟨⟨sane.errno, sane.nread, sane.width⟩, trivial⟩, .stays none⟩
  case s_res_status_code => exact good_s_res_status_code sane state
  case s_res_status_start => exact good_s_res_status_start sane
  case s_res_status => exact good_s_res_status sane state
  case s_start_req => exact good_s_start_req sane state
  case s_req_method => exact good_s_req_method sane state fits
  case s_req_spaces_before_url =>
    split
    · exact good_next sane (state ▸ rfl) (state ▸ rfl)
    · refine good_urlChar ?_ (.opens .url)
      split
      · exact ⟨sane.errno, sane.nread, sane.width⟩
      · exact sane
  case s_req_http_start =>
    split
    · exact good_next sane (state ▸ rfl) (state ▸ rfl)
    split
    · exact good_UPDATE_STATE sane rfl rfl
    split
    · exact good_UPDATE_STATE sane rfl rfl
    · exact good_SET_ERRNO (by decide)
  case s_req_http_end =>
    split
    · exact good_UPDATE_STATE sane rfl rfl
    · exact good_expect sane rfl rfl (by decide)
  case s_header_field_start => exact good_s_header_field_start sane
  case s_header_value_discard_ws => exact good_s_header_value_discard_ws sane state
  case s_header_value_discard_lws => exact good_s_header_value_discard_lws sane
  case s_header_value_start => exact good_s_header_value_start sane
  case s_header_value_lws => exact good_s_header_value_lws sane
  case s_header_almost_done => exact good_s_header_almost_done sane
  case s_headers_almost_done => exact good_s_headers_almost_done sane
  case s_headers_done => exact good_s_headers_done sane
  case s_message_done => exact good_s_message_done sane

/-! ### Header names and values -/

theorem matching_which (parser : Parser) (text : String) (whole other h_state : HeaderState)
    (c : UInt8) : (matching text whole other parser h_state c).2 = whole ∨
      (matching text whole other parser h_state c).2 = other ∨
        (matching text whole other parser h_state c).2 = h_state := by
  unfold matching
  simp only
  split
  · exact Or.inr (Or.inl rfl)
  split
  · exact Or.inl rfl
  · exact Or.inr (Or.inr rfl)

/-- A character of a header name changes the match alone. -/
theorem fieldByte_eq (inName : parser.header_state.inName = true) (c : UInt8) :
    ∃ index h_state, fieldByte parser ch c =
      some { parser with index := index, header_state := h_state } ∧ h_state.inName = true := by
  have follows (text : String) (whole h_state : HeaderState) (whole_inName : whole.inName = true)
      (inName : h_state.inName = true) :
      ∃ index found, some { (matching text whole .h_general parser h_state c).1 with
        header_state := (matching text whole .h_general parser h_state c).2 } =
          some { parser with index := index, header_state := found } ∧ found.inName = true := by
    refine ⟨_, (matching text whole .h_general parser h_state c).2, rfl, ?_⟩
    rcases matching_which parser text whole .h_general h_state c with which | which | which <;>
      rw [which]
    · exact whole_inName
    · rfl
    · exact inName
  unfold fieldByte
  simp only
  cases state : parser.header_state <;> simp only [state] at inName ⊢
  case h_general => exact ⟨parser.index, .h_general, by rw [← state], rfl⟩
  case h_C | h_CO =>
    refine ⟨_, _, rfl, ?_⟩
    split <;> rfl
  case h_CON =>
    refine ⟨_, _, rfl, ?_⟩
    split
    · rfl
    split <;> rfl
  case h_matching_connection | h_matching_proxy_connection | h_matching_content_length
      | h_matching_transfer_encoding | h_matching_upgrade =>
    exact follows _ _ _ rfl rfl
  case h_connection | h_content_length | h_transfer_encoding | h_upgrade =>
    refine ⟨parser.index, _, rfl, ?_⟩
    split <;> rfl
  all_goals cases inName

/-- A character of a header value is an error, or it changes the match and what the header
sets. -/
def Read (parser : Parser) : Except Parser (Parser × HeaderState) → Prop
  | .ok (on, found) => Sane on ∧ found.inValue = true ∧ on.nread = parser.nread ∧
      (parser.state = .s_header_value → on.state = .s_header_value)
  | .error failed => failed.http_errno ≠ .HPE_OK

theorem Sane.read (sane : Sane parser) {h_state : HeaderState} (inValue : h_state.inValue = true) :
    Read parser (.ok (parser, h_state)) :=
  ⟨sane, inValue, rfl, id⟩

theorem read_lengthByte (sane : Sane parser) (h_state : HeaderState)
    (inValue : h_state.inValue = true) : Read parser (lengthByte parser h_state ch) := by
  unfold lengthByte
  split
  · exact sane.read rfl
  split
  · exact fun fails => nomatch fails
  · rename_i digits
    obtain ⟨-, room⟩ := not_or.mp digits
    refine ⟨⟨sane.errno, sane.nread, ?_⟩, inValue, rfl, id⟩
    exact Nat.le_of_lt_succ (Nat.mod_lt _ (by decide))

theorem read_matching (sane : Sane parser) (text : String) {whole other h_state : HeaderState}
    (whole_inValue : whole.inValue = true) (other_inValue : other.inValue = true)
    (inValue : h_state.inValue = true) (c : UInt8) :
    Read parser (.ok (matching text whole other parser h_state c)) := by
  refine ⟨⟨sane.errno, sane.nread, sane.width⟩, ?_, rfl, id⟩
  show (matching text whole other parser h_state c).2.inValue = true
  rcases matching_which parser text whole other h_state c with which | which | which <;> rw [which]
  · exact whole_inValue
  · exact other_inValue
  · exact inValue

theorem read_valueByte (ch : UInt8) (sane : Sane parser) {h_state : HeaderState}
    (inValue : h_state.inValue = true) : Read parser (valueByte parser h_state ch) := by
  unfold valueByte
  simp only
  cases h_state <;> simp only
  case h_connection | h_transfer_encoding => cases inValue
  case h_content_length =>
    split
    · exact sane.read rfl
    · exact read_lengthByte sane _ rfl
  case h_content_length_num => exact read_lengthByte sane _ rfl
  case h_content_length_ws =>
    split
    · exact sane.read rfl
    · exact fun fails => nomatch fails
  case h_matching_transfer_encoding_chunked | h_matching_connection_keep_alive
      | h_matching_connection_close | h_matching_connection_upgrade =>
    exact read_matching sane _ rfl rfl rfl _
  case h_matching_connection_token_start =>
    refine sane.read ?_
    repeat' split
    all_goals rfl
  case h_matching_connection_token =>
    split
    · exact ⟨⟨sane.errno, sane.nread, sane.width⟩, rfl, rfl, id⟩
    · exact sane.read rfl
  case h_transfer_encoding_chunked =>
    refine sane.read ?_
    split <;> rfl
  case h_connection_keep_alive | h_connection_close | h_connection_upgrade =>
    split
    · exact ⟨⟨sane.errno, sane.nread, sane.width⟩, rfl, rfl, id⟩
    · refine sane.read ?_
      split <;> rfl
  all_goals exact ⟨⟨sane.errno, sane.nread, sane.width⟩, rfl, rfl, fun _ => rfl⟩

/-- A header name, a character after the other. -/
def readName (strict : Bool) : Parser → List UInt8 → Option Parser
  | parser, [] => some parser
  | parser, ch :: rest =>
    (fieldByte parser ch (TOKEN strict ch)).bind fun parser => readName strict parser rest

theorem readName_append (front back : List UInt8) :
    readName strict parser (front ++ back) =
      (readName strict parser front).bind fun parser => readName strict parser back := by
  induction front generalizing parser with
  | nil => rfl
  | cons ch rest inductionHypothesis =>
    rw [List.cons_append, readName, readName, Option.bind_assoc]
    exact congrArg _ (funext fun _ => inductionHypothesis)

theorem readName_general (general : parser.header_state = .h_general) (name : List UInt8) :
    readName strict parser name = some parser := by
  induction name with
  | nil => rfl
  | cons ch rest inductionHypothesis =>
    rw [readName, fieldByte]
    simp only [general]
    exact inductionHypothesis

theorem readName_eq (strict : Bool) (inName : parser.header_state.inName = true)
    (name : List UInt8) :
    ∃ index h_state, readName strict parser name =
      some { parser with index := index, header_state := h_state } ∧ h_state.inName = true := by
  induction name generalizing parser with
  | nil => exact ⟨parser.index, parser.header_state, rfl, inName⟩
  | cons ch rest inductionHypothesis =>
    obtain ⟨index, h_state, read, inName⟩ := fieldByte_eq inName (TOKEN strict ch)
    rw [readName, read]
    exact @inductionHypothesis { parser with index := index, header_state := h_state } inName

theorem skipTokens_eq (strict : Bool) (left : Nat) (p : List UInt8) :
    ∃ skipped, p = skipped ++ skipTokens strict left p ∧ ∀ ch ∈ skipped, TOKEN strict ch ≠ 0 := by
  induction left generalizing p with
  | zero => exact ⟨[], rfl, List.forall_mem_nil _⟩
  | succ left inductionHypothesis =>
    cases p with
    | nil => exact ⟨[], rfl, List.forall_mem_nil _⟩
    | cons ch rest =>
      rw [skipTokens]
      split
      · exact ⟨[], rfl, List.forall_mem_nil _⟩
      · rename_i token
        obtain ⟨skipped, whole, tokens⟩ := inductionHypothesis rest
        exact ⟨ch :: skipped, congrArg (List.cons ch) whole,
          List.forall_mem_cons.mpr ⟨token, tokens⟩⟩

/-- The loop of `s_header_field` reads one token after the other, up to the end or to a byte that
is none. -/
theorem fieldLoop_eq (strict : Bool) {turns : Nat} {p : List UInt8}
    (inName : parser.header_state.inName = true) (enough : p.length ≤ turns) :
    ∃ name q on, p = name ++ q ∧ (∀ ch ∈ name, TOKEN strict ch ≠ 0) ∧
      (∀ ch ∈ q.head?, TOKEN strict ch = 0) ∧ readName strict parser name = some on ∧
        fieldLoop strict turns parser p = some (on, q) := by
  induction turns generalizing parser p with
  | zero =>
    rw [List.length_eq_zero_iff.mp (Nat.le_zero.mp enough)]
    exact ⟨[], [], parser, rfl, List.forall_mem_nil _, fun _ none => (nomatch none), rfl, rfl⟩
  | succ turns inductionHypothesis =>
    cases p with
    | nil =>
      exact ⟨[], [], parser, rfl, List.forall_mem_nil _, fun _ none => (nomatch none), rfl, rfl⟩
    | cons ch rest =>
      rw [fieldLoop]
      by_cases token : TOKEN strict ch = 0
      · refine ⟨[], ch :: rest, parser, rfl, List.forall_mem_nil _, ?_, rfl, if_pos token⟩
        rintro _ ⟨⟩
        exact token
      rw [if_neg token]
      by_cases general : parser.header_state = .h_general
      · rw [if_pos general]
        obtain ⟨skipped, whole, tokens⟩ := skipTokens_eq strict
          (min (rest.length + 1) HTTP_MAX_HEADER_SIZE - 1) rest
        have shorter : (skipTokens strict (min (rest.length + 1) HTTP_MAX_HEADER_SIZE - 1)
            rest).length ≤ turns := by
          have lengths := congrArg List.length whole
          rw [List.length_append] at lengths
          rw [List.length_cons] at enough
          omega
        obtain ⟨name, q, on, split, more, ends, read, loop⟩ := inductionHypothesis inName shorter
        refine ⟨ch :: skipped ++ name, q, on, ?_, ?_, ends, ?_, loop⟩
        · rw [List.append_assoc, ← split, List.cons_append, ← whole]
        · exact List.forall_mem_append.mpr ⟨List.forall_mem_cons.mpr ⟨token, tokens⟩, more⟩
        · rw [readName_append, readName_general general]
          exact read
      · rw [if_neg general]
        obtain ⟨index, h_state, byte, inName⟩ := fieldByte_eq inName (TOKEN strict ch)
        obtain ⟨name, q, on, split, more, ends, read, loop⟩ := @inductionHypothesis
          { parser with index := index, header_state := h_state } rest inName
          (Nat.le_of_succ_le_succ enough)
        rw [byte]
        refine ⟨ch :: name, q, on, congrArg (List.cons ch) split,
          List.forall_mem_cons.mpr ⟨token, more⟩, ends, ?_, loop⟩
        rw [readName, byte]
        exact read

/-- The fast loop of a value ends somewhere behind where it began. -/
theorem skipGeneral_suffix (lenient : Bool) (left : Nat) (p : List UInt8) :
    match skipGeneral lenient left p with
    | .ok q => q <:+ p
    | .error q => q <:+ p := by
  induction left generalizing p with
  | zero => exact List.tail_suffix p
  | succ left inductionHypothesis =>
    cases p with
    | nil => exact List.suffix_refl _
    | cons ch rest =>
      rw [skipGeneral]
      by_cases line : ch = CR ∨ ch = LF
      · rewrite [if_pos line]
        exact List.suffix_refl _
      rw [if_neg line]
      by_cases bad : invalid lenient ch = true
      · rewrite [if_pos bad]
        exact List.suffix_refl _
      rw [if_neg bad]
      have more := inductionHypothesis rest
      cases skipped : skipGeneral lenient left rest with
      | ok q =>
        rw [skipped] at more
        exact more.trans (List.suffix_cons ch rest)
      | error q =>
        rw [skipped] at more
        exact more.trans (List.suffix_cons ch rest)

/-- Where the loop of a value ends well. -/
def Scan.Good (nread : Nat) (p : List UInt8) : Scan → Prop
  | reached parser h_state q => Sane parser ∧ h_state.inValue = true ∧ parser.nread = nread ∧
      parser.state = .s_header_value ∧ q <:+ p
  | failed parser q => parser.http_errno ≠ .HPE_OK ∧ q <:+ p
  | abort => False

theorem Scan.Good.mono {scan : Scan} {nread : Nat} {p q : List UInt8} (good : scan.Good nread q)
    (suffix : q <:+ p) : scan.Good nread p := by
  cases scan with
  | reached parser h_state rest =>
    obtain ⟨sane, inValue, counted, here, behind⟩ := good
    exact ⟨sane, inValue, counted, here, behind.trans suffix⟩
  | failed parser rest => exact ⟨good.1, good.2.trans suffix⟩
  | abort => exact good

/-- Where a character of a value means something, the loop goes on with the next one. -/
theorem valueLoop_cons {turns : Nat} {h_state : HeaderState} {rest : List UInt8}
    (inValue : h_state.inValue = true) (special : h_state ≠ .h_general)
    (line : ¬ (ch = CR ∨ ch = LF)) (good : ¬ invalid parser.lenient_http_headers ch = true) :
    valueLoop (turns + 1) parser h_state (ch :: rest) =
      match valueByte parser h_state ch with
      | .ok (parser, h_state) => valueLoop turns parser h_state rest
      | .error parser => .failed parser (ch :: rest) := by
  have meaning : ¬ (h_state = .h_connection ∨ h_state = .h_transfer_encoding) := by
    rintro (rfl | rfl) <;> cases inValue
  rewrite [valueLoop, if_neg line, if_neg good, if_neg special, if_neg meaning]
  rfl

theorem good_valueLoop (turns : Nat) (p : List UInt8) {h_state : HeaderState} (sane : Sane parser)
    (here : parser.state = .s_header_value) (inValue : h_state.inValue = true) :
    (valueLoop turns parser h_state p).Good parser.nread p := by
  induction turns generalizing parser h_state p with
  | zero => cases p <;> exact ⟨sane, inValue, rfl, here, List.suffix_refl _⟩
  | succ turns inductionHypothesis =>
    cases p with
    | nil => exact ⟨sane, inValue, rfl, here, List.suffix_refl _⟩
    | cons ch rest =>
      by_cases line : ch = CR ∨ ch = LF
      · rw [valueLoop, if_pos line]
        exact ⟨sane, inValue, rfl, here, List.suffix_refl _⟩
      by_cases bad : invalid parser.lenient_http_headers ch = true
      · rw [valueLoop, if_neg line, if_pos bad]
        exact ⟨fun fails => (nomatch fails), List.suffix_refl _⟩
      by_cases general : h_state = .h_general
      · rw [valueLoop, if_neg line, if_neg bad, if_pos general]
        have suffix := skipGeneral_suffix parser.lenient_http_headers
          (min (rest.length + 1) HTTP_MAX_HEADER_SIZE) (ch :: rest)
        cases skipped : skipGeneral parser.lenient_http_headers
            (min (rest.length + 1) HTTP_MAX_HEADER_SIZE) (ch :: rest) with
        | ok q =>
          rw [skipped] at suffix
          exact (inductionHypothesis q sane here rfl).mono suffix
        | error q =>
          rw [skipped] at suffix
          exact ⟨fun fails => (nomatch fails), suffix⟩
      · rw [valueLoop_cons inValue general line bad]
        have read := read_valueByte ch sane inValue
        cases byte : valueByte parser h_state ch with
        | ok next =>
          rw [byte] at read
          obtain ⟨sane, inValue, counted, stays⟩ := read
          exact counted ▸ (inductionHypothesis rest sane (stays here) inValue).mono
            (List.suffix_cons ch rest)
        | error failed =>
          rw [byte] at read
          exact ⟨read, List.suffix_refl _⟩

end Http

end Nattan
