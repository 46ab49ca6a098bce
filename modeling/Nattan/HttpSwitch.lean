/-
This file models the state of the vendored `http_parser`, its tables, and the cases of the
`switch` in `http_parser_execute` that look at one byte. The cases that read ahead and the
loop around the `switch` are in `Nattan/HttpExecute.lean`.

A case says how the parser goes on and lists the macros it uses on the way: `MARK`,
`CALLBACK_DATA` and `CALLBACK_NOTIFY`. `REEXECUTE` calls the case of the next state on the
same byte. Whether the checks of `HTTP_PARSER_STRICT` are compiled in is a parameter, and so
is what `on_headers_complete` answers. The other callbacks return zero. A failed assertion, or
a byte read behind the end of a text, has no result.
-/

import Nattan.HttpDump
import Nattan.HttpSegmentation

namespace Nattan

namespace Http

/-! ### Characters -/

def chr (character : Char) : UInt8 :=
  UInt8.ofNat character.toNat

def CR : UInt8 := 13
def LF : UInt8 := 10
def HT : UInt8 := 9
def SP : UInt8 := 32

def LOWER (c : UInt8) : UInt8 :=
  c ||| 0x20

def IS_ALPHA (c : UInt8) : Bool :=
  chr 'a' ≤ LOWER c && LOWER c ≤ chr 'z'

def IS_NUM (c : UInt8) : Bool :=
  chr '0' ≤ c && c ≤ chr '9'

def IS_ALPHANUM (c : UInt8) : Bool :=
  IS_ALPHA c || IS_NUM c

def IS_MARK (c : UInt8) : Bool :=
  (bytesOf "-_.!~*'()").contains c

def IS_USERINFO_CHAR (c : UInt8) : Bool :=
  IS_ALPHANUM c || IS_MARK c || (bytesOf "%;:&=+$,").contains c

/-- `IS_HEADER_CHAR`. -/
def IS_HEADER_CHAR (ch : UInt8) : Bool :=
  ch = CR || ch = LF || ch = HT || (31 < ch && ch ≠ 127)

/-- The value of a digit. -/
def digit (ch : UInt8) : Nat :=
  ch.toNat - 48

/-- The first half of `tokens`. The other one is zero. -/
def tokens : List UInt8 :=
  [0, 0, 0, 0, 0, 0, 0, 0,
    0, 0, 0, 0, 0, 0, 0, 0,
    0, 0, 0, 0, 0, 0, 0, 0,
    0, 0, 0, 0, 0, 0, 0, 0,
    32, 33, 0, 35, 36, 37, 38, 39,
    0, 0, 42, 43, 0, 45, 46, 0,
    48, 49, 50, 51, 52, 53, 54, 55,
    56, 57, 0, 0, 0, 0, 0, 0,
    0, 97, 98, 99, 100, 101, 102, 103,
    104, 105, 106, 107, 108, 109, 110, 111,
    112, 113, 114, 115, 116, 117, 118, 119,
    120, 121, 122, 0, 0, 0, 94, 95,
    96, 97, 98, 99, 100, 101, 102, 103,
    104, 105, 106, 107, 108, 109, 110, 111,
    112, 113, 114, 115, 116, 117, 118, 119,
    120, 121, 122, 0, 124, 0, 126, 0]

def STRICT_TOKEN (c : UInt8) : UInt8 :=
  if c = SP then 0 else tokens.getD c.toNat 0

def TOKEN (strict : Bool) (c : UInt8) : UInt8 :=
  if strict then STRICT_TOKEN c else tokens.getD c.toNat 0

/-- The first half of `unhex`. The table leaves the other one out, so it is zero and not `-1`. -/
def unhex : List Int :=
  [-1, -1, -1, -1, -1, -1, -1, -1, -1, -1, -1, -1, -1, -1, -1, -1,
    -1, -1, -1, -1, -1, -1, -1, -1, -1, -1, -1, -1, -1, -1, -1, -1,
    -1, -1, -1, -1, -1, -1, -1, -1, -1, -1, -1, -1, -1, -1, -1, -1,
    0, 1, 2, 3, 4, 5, 6, 7, 8, 9, -1, -1, -1, -1, -1, -1,
    -1, 10, 11, 12, 13, 14, 15, -1, -1, -1, -1, -1, -1, -1, -1, -1,
    -1, -1, -1, -1, -1, -1, -1, -1, -1, -1, -1, -1, -1, -1, -1, -1,
    -1, 10, 11, 12, 13, 14, 15, -1, -1, -1, -1, -1, -1, -1, -1, -1,
    -1, -1, -1, -1, -1, -1, -1, -1, -1, -1, -1, -1, -1, -1, -1, -1]

def unhexAt (ch : UInt8) : Int :=
  unhex.getD ch.toNat 0

/-- The first half of `normal_url_char`, a bit for each character. `T(v)` is zero in strict
mode. -/
def normal_url_char (strict : Bool) : List Nat :=
  [0, if strict then 0 else 2 ||| 16, 0, 0,
    0 ||| 2 ||| 4 ||| 0 ||| 16 ||| 32 ||| 64 ||| 128, 255, 255, 127,
    255, 255, 255, 255, 255, 255, 255, 127]

def BIT_AT (bits : List Nat) (i : Nat) : Bool :=
  (bits.getD (i / 8) 0).testBit (i % 8)

def IS_URL_CHAR (strict : Bool) (c : UInt8) : Bool :=
  BIT_AT (normal_url_char strict) c.toNat || (!strict && (c &&& 0x80) ≠ 0)

/-! ### States -/

/-- `enum http_parser_type`. -/
inductive ParserType where
  | HTTP_REQUEST
  | HTTP_RESPONSE
  | HTTP_BOTH
  deriving DecidableEq, Repr

/-- `enum state`. -/
inductive State where
  | s_dead
  | s_start_req_or_res
  | s_res_or_resp_H
  | s_start_res
  | s_res_H
  | s_res_HT
  | s_res_HTT
  | s_res_HTTP
  | s_res_http_major
  | s_res_http_dot
  | s_res_http_minor
  | s_res_http_end
  | s_res_first_status_code
  | s_res_status_code
  | s_res_status_start
  | s_res_status
  | s_res_line_almost_done
  | s_start_req
  | s_req_method
  | s_req_spaces_before_url
  | s_req_schema
  | s_req_schema_slash
  | s_req_schema_slash_slash
  | s_req_server_start
  | s_req_server
  | s_req_server_with_at
  | s_req_path
  | s_req_query_string_start
  | s_req_query_string
  | s_req_fragment_start
  | s_req_fragment
  | s_req_http_start
  | s_req_http_H
  | s_req_http_HT
  | s_req_http_HTT
  | s_req_http_HTTP
  | s_req_http_I
  | s_req_http_IC
  | s_req_http_major
  | s_req_http_dot
  | s_req_http_minor
  | s_req_http_end
  | s_req_line_almost_done
  | s_header_field_start
  | s_header_field
  | s_header_value_discard_ws
  | s_header_value_discard_ws_almost_done
  | s_header_value_discard_lws
  | s_header_value_start
  | s_header_value
  | s_header_value_lws
  | s_header_almost_done
  | s_chunk_size_start
  | s_chunk_size
  | s_chunk_parameters
  | s_chunk_size_almost_done
  | s_headers_almost_done
  | s_headers_done
  | s_chunk_data
  | s_chunk_data_almost_done
  | s_chunk_data_done
  | s_body_identity
  | s_body_identity_eof
  | s_message_done
  deriving DecidableEq, Repr

/-- `PARSING_HEADER(state)`: the states up to `s_headers_done`. -/
def State.parsingHeader : State → Bool
  | s_chunk_data | s_chunk_data_almost_done | s_chunk_data_done => false
  | s_body_identity | s_body_identity_eof | s_message_done => false
  | _ => true

/-- `enum header_states`. -/
inductive HeaderState where
  | h_general
  | h_C
  | h_CO
  | h_CON
  | h_matching_connection
  | h_matching_proxy_connection
  | h_matching_content_length
  | h_matching_transfer_encoding
  | h_matching_upgrade
  | h_connection
  | h_content_length
  | h_content_length_num
  | h_content_length_ws
  | h_transfer_encoding
  | h_upgrade
  | h_matching_transfer_encoding_chunked
  | h_matching_connection_token_start
  | h_matching_connection_keep_alive
  | h_matching_connection_close
  | h_matching_connection_upgrade
  | h_matching_connection_token
  | h_transfer_encoding_chunked
  | h_connection_keep_alive
  | h_connection_close
  | h_connection_upgrade
  deriving DecidableEq, Repr

/-- The values of `enum http_errno` that the parser sets by itself or for `on_headers_complete`. -/
inductive Errno where
  | HPE_OK
  | HPE_CB_headers_complete
  | HPE_INVALID_EOF_STATE
  | HPE_HEADER_OVERFLOW
  | HPE_CLOSED_CONNECTION
  | HPE_INVALID_VERSION
  | HPE_INVALID_STATUS
  | HPE_INVALID_METHOD
  | HPE_INVALID_URL
  | HPE_LF_EXPECTED
  | HPE_INVALID_HEADER_TOKEN
  | HPE_INVALID_CONTENT_LENGTH
  | HPE_UNEXPECTED_CONTENT_LENGTH
  | HPE_INVALID_CHUNK_SIZE
  | HPE_INVALID_CONSTANT
  | HPE_STRICT
  deriving DecidableEq, Repr

/-- `enum flags`, as the bits of a word. -/
structure Flags where
  F_CHUNKED : Bool
  F_CONNECTION_KEEP_ALIVE : Bool
  F_CONNECTION_CLOSE : Bool
  F_CONNECTION_UPGRADE : Bool
  F_TRAILING : Bool
  F_UPGRADE : Bool
  F_SKIPBODY : Bool
  F_CONTENTLENGTH : Bool
  deriving DecidableEq, Repr

def Flags.zero : Flags :=
  ⟨false, false, false, false, false, false, false, false⟩

/-- `struct http_parser`. -/
structure Parser where
  type : ParserType
  flags : Flags
  state : State
  header_state : HeaderState
  index : Nat
  lenient_http_headers : Bool
  nread : Nat
  content_length : Nat
  http_major : Nat
  http_minor : Nat
  status_code : Nat
  method : Nat
  http_errno : Errno
  upgrade : Bool
  deriving DecidableEq, Repr

def ULLONG_MAX : Nat := 2 ^ 64 - 1
def HTTP_MAX_HEADER_SIZE : Nat := 80 * 1024

def HTTP_DELETE : Nat := 0
def HTTP_GET : Nat := 1
def HTTP_HEAD : Nat := 2
def HTTP_POST : Nat := 3
def HTTP_PUT : Nat := 4
def HTTP_CONNECT : Nat := 5
def HTTP_OPTIONS : Nat := 6
def HTTP_TRACE : Nat := 7
def HTTP_COPY : Nat := 8
def HTTP_LOCK : Nat := 9
def HTTP_MKCOL : Nat := 10
def HTTP_MOVE : Nat := 11
def HTTP_PROPFIND : Nat := 12
def HTTP_PROPPATCH : Nat := 13
def HTTP_SEARCH : Nat := 14
def HTTP_UNLOCK : Nat := 15
def HTTP_BIND : Nat := 16
def HTTP_REBIND : Nat := 17
def HTTP_UNBIND : Nat := 18
def HTTP_ACL : Nat := 19
def HTTP_REPORT : Nat := 20
def HTTP_MKACTIVITY : Nat := 21
def HTTP_CHECKOUT : Nat := 22
def HTTP_MERGE : Nat := 23
def HTTP_MSEARCH : Nat := 24
def HTTP_NOTIFY : Nat := 25
def HTTP_SUBSCRIBE : Nat := 26
def HTTP_UNSUBSCRIBE : Nat := 27
def HTTP_PATCH : Nat := 28
def HTTP_PURGE : Nat := 29
def HTTP_MKCALENDAR : Nat := 30
def HTTP_LINK : Nat := 31
def HTTP_UNLINK : Nat := 32
def HTTP_SOURCE : Nat := 33

/-- `http_parser_init`. -/
def http_parser_init (type : ParserType) : Parser where
  type := type
  flags := .zero
  state := match type with
    | .HTTP_REQUEST => .s_start_req
    | .HTTP_RESPONSE => .s_start_res
    | .HTTP_BOTH => .s_start_req_or_res
  header_state := .h_general
  index := 0
  lenient_http_headers := false
  nread := 0
  content_length := 0
  http_major := 0
  http_minor := 0
  status_code := 0
  method := 0
  http_errno := .HPE_OK
  upgrade := false

/-- `http_message_needs_eof`. -/
def http_message_needs_eof (parser : Parser) : Bool :=
  if parser.type = .HTTP_REQUEST then false
  else if parser.status_code / 100 = 1 ∨ parser.status_code = 204 ∨ parser.status_code = 304 ∨
      parser.flags.F_SKIPBODY then false
  else if parser.flags.F_CHUNKED ∨ parser.content_length ≠ ULLONG_MAX then false
  else true

/-- `http_should_keep_alive`. -/
def http_should_keep_alive (parser : Parser) : Bool :=
  if 0 < parser.http_major ∧ 0 < parser.http_minor then
    if parser.flags.F_CONNECTION_CLOSE then false else !http_message_needs_eof parser
  else if !parser.flags.F_CONNECTION_KEEP_ALIVE then false
  else !http_message_needs_eof parser

/-! ### What a case does -/

/-- What a mark is for. -/
inductive Mark where
  | text (kind : TextKind)
  | body
  deriving DecidableEq, Repr

def Mark.callback : Mark → List UInt8 → Callback
  | text kind => kind.callback
  | body => .body

/-- The macros that a case uses. `CALLBACK_DATA_` takes the current byte into the span. -/
inductive Macro where
  | MARK (mark : Mark)
  | CALLBACK_DATA (mark : Mark)
  | CALLBACK_DATA_ (mark : Mark)
  | CALLBACK_NOTIFY (notice : Notice)
  deriving DecidableEq, Repr

/-- How a case ends: with the next byte, with a `RETURN` behind this one, with an error, which is
set behind the macros, or in a failed assertion. -/
inductive Outcome where
  | next (parser : Parser) (macros : List Macro)
  | exit (parser : Parser) (macros : List Macro)
  | error (parser : Parser) (macros : List Macro)
  | abort
  deriving DecidableEq, Repr

def Outcome.macros : Outcome → List Macro
  | next _ macros => macros
  | exit _ macros => macros
  | error _ macros => macros
  | abort => []

/-- The macro begins with `assert(HTTP_PARSER_ERRNO(parser) == HPE_OK)`. `on_headers_complete` is
called without a macro. -/
def Macro.asserts : Macro → Bool
  | MARK _ => false
  | CALLBACK_DATA _ => true
  | CALLBACK_DATA_ _ => true
  | CALLBACK_NOTIFY (.headersComplete _) => false
  | CALLBACK_NOTIFY _ => true

/-- The macros of a case that has gone on with `REEXECUTE`. -/
def Outcome.behind (macros : List Macro) : Outcome → Outcome
  | next parser more => .next parser (macros ++ more)
  | exit parser more => .exit parser (macros ++ more)
  | error parser more => .error parser (macros ++ more)
  | abort => .abort

/-- `SET_ERRNO(e); goto error;`. -/
def SET_ERRNO (parser : Parser) (errno : Errno) : Outcome :=
  .error { parser with http_errno := errno } []

/-- `STRICT_CHECK(cond)`. -/
def STRICT_CHECK (strict : Bool) (cond : Bool) (parser : Parser) (otherwise : Outcome) : Outcome :=
  if strict && cond then SET_ERRNO parser .HPE_STRICT else otherwise

/-- `UPDATE_STATE(V); break;`. -/
def UPDATE_STATE (parser : Parser) (state : State) : Outcome :=
  .next { parser with state := state } []

def start_state (parser : Parser) : State :=
  if parser.type = .HTTP_REQUEST then .s_start_req else .s_start_res

/-- `NEW_MESSAGE()`. -/
def NEW_MESSAGE (strict : Bool) (parser : Parser) : State :=
  if strict && !http_should_keep_alive parser then .s_dead else start_state parser

/-- A character of a text with its terminating zero. -/
def charAt (text : List UInt8) (index : Nat) : Option UInt8 :=
  (text ++ [0])[index]?

/-! ### Start lines -/

/-- `parse_url_char`. -/
def parse_url_char (strict : Bool) (s : State) (ch : UInt8) : State :=
  if ch = SP ∨ ch = CR ∨ ch = LF then .s_dead
  else if strict ∧ (ch = HT ∨ ch = 12) then .s_dead
  else match s with
    | .s_req_spaces_before_url =>
      if ch = chr '/' ∨ ch = chr '*' then .s_req_path
      else if IS_ALPHA ch then .s_req_schema
      else .s_dead
    | .s_req_schema =>
      if IS_ALPHA ch then s
      else if ch = chr ':' then .s_req_schema_slash
      else .s_dead
    | .s_req_schema_slash => if ch = chr '/' then .s_req_schema_slash_slash else .s_dead
    | .s_req_schema_slash_slash => if ch = chr '/' then .s_req_server_start else .s_dead
    | .s_req_server_with_at =>
      if ch = chr '@' then .s_dead else serverChar ch
    | .s_req_server_start | .s_req_server => serverChar ch
    | .s_req_path =>
      if IS_URL_CHAR strict ch then s
      else if ch = chr '?' then .s_req_query_string_start
      else if ch = chr '#' then .s_req_fragment_start
      else .s_dead
    | .s_req_query_string_start | .s_req_query_string =>
      if IS_URL_CHAR strict ch then .s_req_query_string
      else if ch = chr '?' then .s_req_query_string
      else if ch = chr '#' then .s_req_fragment_start
      else .s_dead
    | .s_req_fragment_start =>
      if IS_URL_CHAR strict ch then .s_req_fragment
      else if ch = chr '?' then .s_req_fragment
      else if ch = chr '#' then s
      else .s_dead
    | .s_req_fragment =>
      if IS_URL_CHAR strict ch then s
      else if ch = chr '?' ∨ ch = chr '#' then s
      else .s_dead
    | _ => .s_dead
where
  serverChar (ch : UInt8) : State :=
    if ch = chr '/' then .s_req_path
    else if ch = chr '?' then .s_req_query_string_start
    else if ch = chr '@' then .s_req_server_with_at
    else if IS_USERINFO_CHAR ch ∨ ch = chr '[' ∨ ch = chr ']' then .s_req_server
    else .s_dead

/-- A character of a url. -/
def urlChar (strict : Bool) (parser : Parser) (ch : UInt8) (macros : List Macro) : Outcome :=
  let state := parse_url_char strict parser.state ch
  if state = .s_dead then (SET_ERRNO { parser with state := state } .HPE_INVALID_URL).behind macros
  else .next { parser with state := state } macros

/-- The first guess from the first character of a method. -/
def firstMethod : List (UInt8 × Nat) :=
  [(chr 'A', HTTP_ACL), (chr 'B', HTTP_BIND), (chr 'C', HTTP_CONNECT), (chr 'D', HTTP_DELETE),
    (chr 'G', HTTP_GET), (chr 'H', HTTP_HEAD), (chr 'L', HTTP_LOCK), (chr 'M', HTTP_MKCOL),
    (chr 'N', HTTP_NOTIFY), (chr 'O', HTTP_OPTIONS), (chr 'P', HTTP_POST), (chr 'R', HTTP_REPORT),
    (chr 'S', HTTP_SUBSCRIBE), (chr 'T', HTTP_TRACE), (chr 'U', HTTP_UNLOCK)]

/-- The guesses that a character replaces: `XX(meth, pos, ch, new_meth)`. -/
def otherMethod : List ((Nat × Nat × UInt8) × Nat) :=
  [((HTTP_POST, 1, chr 'U'), HTTP_PUT), ((HTTP_POST, 1, chr 'A'), HTTP_PATCH),
    ((HTTP_POST, 1, chr 'R'), HTTP_PROPFIND), ((HTTP_PUT, 2, chr 'R'), HTTP_PURGE),
    ((HTTP_CONNECT, 1, chr 'H'), HTTP_CHECKOUT), ((HTTP_CONNECT, 2, chr 'P'), HTTP_COPY),
    ((HTTP_MKCOL, 1, chr 'O'), HTTP_MOVE), ((HTTP_MKCOL, 1, chr 'E'), HTTP_MERGE),
    ((HTTP_MKCOL, 1, chr '-'), HTTP_MSEARCH), ((HTTP_MKCOL, 2, chr 'A'), HTTP_MKACTIVITY),
    ((HTTP_MKCOL, 3, chr 'A'), HTTP_MKCALENDAR), ((HTTP_SUBSCRIBE, 1, chr 'E'), HTTP_SEARCH),
    ((HTTP_SUBSCRIBE, 1, chr 'O'), HTTP_SOURCE), ((HTTP_REPORT, 2, chr 'B'), HTTP_REBIND),
    ((HTTP_PROPFIND, 4, chr 'P'), HTTP_PROPPATCH), ((HTTP_LOCK, 1, chr 'I'), HTTP_LINK),
    ((HTTP_UNLOCK, 2, chr 'S'), HTTP_UNSUBSCRIBE), ((HTTP_UNLOCK, 2, chr 'B'), HTTP_UNBIND),
    ((HTTP_UNLOCK, 3, chr 'I'), HTTP_UNLINK)]

/-- A character of a method behind the first one. -/
def s_req_method (parser : Parser) (ch : UInt8) : Outcome :=
  if ch = 0 then SET_ERRNO parser .HPE_INVALID_METHOD
  else match methodStrings[parser.method]?.bind fun matcher =>
      charAt (bytesOf matcher) parser.index with
    | none => .abort
    | some expected =>
      let on := { parser with index := (parser.index + 1) % 128 }
      if ch = SP ∧ expected = 0 then UPDATE_STATE on .s_req_spaces_before_url
      else if ch = expected then .next on []
      else if (chr 'A' ≤ ch ∧ ch ≤ chr 'Z') ∨ ch = chr '-' then
        match otherMethod.lookup (parser.method, parser.index, ch) with
        | some method => .next { on with method := method } []
        | none => SET_ERRNO parser .HPE_INVALID_METHOD
      else SET_ERRNO parser .HPE_INVALID_METHOD

/-- A new message: `parser->flags = 0; parser->content_length = ULLONG_MAX;`. -/
def Parser.fresh (parser : Parser) : Parser :=
  { parser with flags := .zero, content_length := ULLONG_MAX }

def s_start_req (parser : Parser) (ch : UInt8) : Outcome :=
  if ch = CR ∨ ch = LF then .next parser []
  else if !IS_ALPHA ch then SET_ERRNO parser.fresh .HPE_INVALID_METHOD
  else
    match firstMethod.lookup ch with
    | none => SET_ERRNO { parser.fresh with method := 0, index := 1 } .HPE_INVALID_METHOD
    | some method =>
      .next { parser.fresh with method := method, index := 1, state := .s_req_method }
        [.CALLBACK_NOTIFY .messageBegin]

def s_res_status (parser : Parser) (ch : UInt8) : Outcome :=
  if ch = CR then
    .next { parser with state := .s_res_line_almost_done } [.CALLBACK_DATA (.text .status)]
  else if ch = LF then
    .next { parser with state := .s_header_field_start } [.CALLBACK_DATA (.text .status)]
  else .next parser []

def s_res_status_start (parser : Parser) (ch : UInt8) : Outcome :=
  let on := { parser with state := .s_res_status, index := 0 }
  if ch = CR ∨ ch = LF then (s_res_status on ch).behind [.MARK (.text .status)]
  else .next on [.MARK (.text .status)]

/-- A character of the status code behind the first one. -/
def s_res_status_code (parser : Parser) (ch : UInt8) : Outcome :=
  if !IS_NUM ch then
    if ch = SP then UPDATE_STATE parser .s_res_status_start
    else if ch = CR ∨ ch = LF then
      s_res_status_start { parser with state := .s_res_status_start } ch
    else SET_ERRNO parser .HPE_INVALID_STATUS
  else
    let on := { parser with
      status_code := (parser.status_code * 10 % 2 ^ 16 + digit ch) % 2 ^ 16 }
    if 999 < on.status_code then SET_ERRNO on .HPE_INVALID_STATUS else .next on []

/-! ### The end of a header -/

/-- `CALLBACK_NOTIFY(message_complete)` in a case that goes on with a new message. -/
def completed (strict : Bool) (parser : Parser) : Parser :=
  { parser with state := NEW_MESSAGE strict parser }

def s_message_done (strict : Bool) (parser : Parser) : Outcome :=
  if parser.upgrade then .exit (completed strict parser) [.CALLBACK_NOTIFY .messageComplete]
  else .next (completed strict parser) [.CALLBACK_NOTIFY .messageComplete]

/-- The message has a body, as far as its header says so. -/
def hasBody (parser : Parser) : Bool :=
  parser.flags.F_CHUNKED || (0 < parser.content_length && parser.content_length ≠ ULLONG_MAX)

def s_headers_done (strict : Bool) (parser : Parser) (ch : UInt8) : Outcome :=
  STRICT_CHECK strict (ch ≠ LF) parser <|
    let parser := { parser with nread := 0 }
    if parser.upgrade ∧ (parser.method = HTTP_CONNECT ∨ parser.flags.F_SKIPBODY ∨
        !hasBody parser) then
      .exit (completed strict parser) [.CALLBACK_NOTIFY .messageComplete]
    else if parser.flags.F_SKIPBODY then
      .next (completed strict parser) [.CALLBACK_NOTIFY .messageComplete]
    else if parser.flags.F_CHUNKED then UPDATE_STATE parser .s_chunk_size_start
    else if parser.content_length = 0 then
      .next (completed strict parser) [.CALLBACK_NOTIFY .messageComplete]
    else if parser.content_length ≠ ULLONG_MAX then UPDATE_STATE parser .s_body_identity
    else if !http_message_needs_eof parser then
      .next (completed strict parser) [.CALLBACK_NOTIFY .messageComplete]
    else UPDATE_STATE parser .s_body_identity_eof

/-- What `on_headers_complete` sees. -/
def Parser.info (parser : Parser) : HeadersInfo where
  method := parser.method
  status_code := parser.status_code
  http_major := parser.http_major
  http_minor := parser.http_minor
  shouldKeepAlive := http_should_keep_alive parser

/-- The parser in front of `on_headers_complete`. -/
def Parser.headersDone (parser : Parser) : Parser :=
  { parser with
    state := .s_headers_done
    upgrade :=
      if parser.flags.F_UPGRADE ∧ parser.flags.F_CONNECTION_UPGRADE then
        parser.type = .HTTP_REQUEST || parser.status_code = 101
      else parser.method = HTTP_CONNECT }

/-- What follows from the answer of `on_headers_complete`. -/
def headersComplete (strict : Bool) (answer : Int) (parser : Parser) (ch : UInt8) : Outcome :=
  let skips := { parser with flags := { parser.flags with F_SKIPBODY := true } }
  if answer = 0 then s_headers_done strict parser ch
  else if answer = 2 then s_headers_done strict { skips with upgrade := true } ch
  else if answer = 1 then s_headers_done strict skips ch
  else SET_ERRNO parser .HPE_CB_headers_complete

/-- Nobody listens to `chunk_complete`. -/
def s_headers_almost_done (strict : Bool) (answer : Int) (parser : Parser) (ch : UInt8) :
    Outcome :=
  STRICT_CHECK strict (ch ≠ LF) parser <|
    if parser.flags.F_TRAILING then s_message_done strict { parser with state := .s_message_done }
    else if parser.flags.F_CHUNKED ∧ parser.flags.F_CONTENTLENGTH then
      SET_ERRNO parser .HPE_UNEXPECTED_CONTENT_LENGTH
    else
      let done := parser.headersDone
      (headersComplete strict answer done ch).behind
        [.CALLBACK_NOTIFY (.headersComplete done.info)]

/-! ### Header lines -/

/-- The header that a first letter can begin. -/
def firstHeaderState (c : UInt8) : HeaderState :=
  if c = chr 'c' then .h_C
  else if c = chr 'p' then .h_matching_proxy_connection
  else if c = chr 't' then .h_matching_transfer_encoding
  else if c = chr 'u' then .h_matching_upgrade
  else .h_general

def s_header_field_start (strict : Bool) (answer : Int) (parser : Parser) (ch : UInt8) :
    Outcome :=
  if ch = CR then UPDATE_STATE parser .s_headers_almost_done
  else if ch = LF then
    s_headers_almost_done strict answer { parser with state := .s_headers_almost_done } ch
  else
    let c := TOKEN strict ch
    if c = 0 then SET_ERRNO parser .HPE_INVALID_HEADER_TOKEN
    else
      .next { parser with index := 0, state := .s_header_field, header_state := firstHeaderState c }
        [.MARK (.text .field)]

def s_header_value_start (parser : Parser) (ch : UInt8) : Outcome :=
  let on := { parser with state := .s_header_value, index := 0 }
  let c := LOWER ch
  let within (header_state : HeaderState) : Outcome :=
    .next { on with header_state := header_state } [.MARK (.text .value)]
  let fails (errno : Errno) : Outcome := (SET_ERRNO on errno).behind [.MARK (.text .value)]
  match parser.header_state with
  | .h_upgrade =>
    .next { on with flags := { on.flags with F_UPGRADE := true }, header_state := .h_general }
      [.MARK (.text .value)]
  | .h_transfer_encoding =>
    within (if c = chr 'c' then .h_matching_transfer_encoding_chunked else .h_general)
  | .h_content_length =>
    if !IS_NUM ch then fails .HPE_INVALID_CONTENT_LENGTH
    else if parser.flags.F_CONTENTLENGTH then fails .HPE_UNEXPECTED_CONTENT_LENGTH
    else
      .next { on with
        flags := { on.flags with F_CONTENTLENGTH := true }
        content_length := digit ch
        header_state := .h_content_length_num } [.MARK (.text .value)]
  | .h_content_length_ws => within .h_content_length_ws
  | .h_connection =>
    within (if c = chr 'k' then .h_matching_connection_keep_alive
      else if c = chr 'c' then .h_matching_connection_close
      else if c = chr 'u' then .h_matching_connection_upgrade
      else .h_matching_connection_token)
  | .h_matching_connection_token_start => within .h_matching_connection_token_start
  | _ => within .h_general

/-- The flag that a header sets at its end. -/
def Flags.finished (flags : Flags) : HeaderState → Flags
  | .h_connection_keep_alive => { flags with F_CONNECTION_KEEP_ALIVE := true }
  | .h_connection_close => { flags with F_CONNECTION_CLOSE := true }
  | .h_connection_upgrade => { flags with F_CONNECTION_UPGRADE := true }
  | .h_transfer_encoding_chunked => { flags with F_CHUNKED := true }
  | _ => flags

/-- The end of a line, or its continuation on the next one. -/
def s_header_value_lws (strict : Bool) (answer : Int) (parser : Parser) (ch : UInt8) : Outcome :=
  if ch = SP ∨ ch = HT then
    s_header_value_start { parser with
      state := .s_header_value_start
      header_state := if parser.header_state = .h_content_length_num then .h_content_length_ws
        else parser.header_state } ch
  else
    s_header_field_start strict answer { parser with
      state := .s_header_field_start
      flags := parser.flags.finished parser.header_state } ch

/-- The value may be empty. -/
def s_header_value_discard_lws (strict : Bool) (answer : Int) (parser : Parser) (ch : UInt8) :
    Outcome :=
  if ch = SP ∨ ch = HT then UPDATE_STATE parser .s_header_value_discard_ws
  else if parser.header_state = .h_content_length then
    SET_ERRNO parser .HPE_INVALID_CONTENT_LENGTH
  else
    (s_header_field_start strict answer { parser with
      state := .s_header_field_start
      flags := parser.flags.finished parser.header_state } ch).behind
        [.MARK (.text .value), .CALLBACK_DATA (.text .value)]

def s_header_value_discard_ws (parser : Parser) (ch : UInt8) : Outcome :=
  if ch = SP ∨ ch = HT then .next parser []
  else if ch = CR then UPDATE_STATE parser .s_header_value_discard_ws_almost_done
  else if ch = LF then UPDATE_STATE parser .s_header_value_discard_lws
  else s_header_value_start parser ch

def s_header_almost_done (parser : Parser) (ch : UInt8) : Outcome :=
  if ch ≠ LF then SET_ERRNO parser .HPE_LF_EXPECTED
  else UPDATE_STATE parser .s_header_value_lws

/-! ### Chunks -/

/-- A digit of the size of a chunk behind the first one. -/
def chunkDigit (parser : Parser) (ch : UInt8) : Outcome :=
  if unhexAt ch = -1 then
    if ch = chr ';' ∨ ch = SP then UPDATE_STATE parser .s_chunk_parameters
    else SET_ERRNO parser .HPE_INVALID_CHUNK_SIZE
  else if (ULLONG_MAX - 16) / 16 < parser.content_length then
    SET_ERRNO parser .HPE_INVALID_CONTENT_LENGTH
  else
    .next { parser with
      content_length := (parser.content_length * 16 + (unhexAt ch).toNat) % 2 ^ 64 } []

/-- The cases inside of the chunks. All of them assert that the message is chunked. -/
def chunkCase (strict : Bool) (parser : Parser) (ch : UInt8) : Outcome :=
  if !parser.flags.F_CHUNKED then .abort
  else match parser.state with
    | .s_chunk_size_start =>
      if parser.nread ≠ 1 then .abort
      else if unhexAt ch = -1 then SET_ERRNO parser .HPE_INVALID_CHUNK_SIZE
      else
        .next { parser with content_length := (unhexAt ch).toNat, state := .s_chunk_size } []
    | .s_chunk_size =>
      if ch = CR then UPDATE_STATE parser .s_chunk_size_almost_done else chunkDigit parser ch
    | .s_chunk_parameters =>
      if ch = CR then UPDATE_STATE parser .s_chunk_size_almost_done else .next parser []
    | .s_chunk_size_almost_done =>
      STRICT_CHECK strict (ch ≠ LF) parser <|
        if parser.content_length = 0 then
          .next { parser with
            nread := 0
            flags := { parser.flags with F_TRAILING := true }
            state := .s_header_field_start } []
        else .next { parser with nread := 0, state := .s_chunk_data } []
    | .s_chunk_data_almost_done =>
      if parser.content_length ≠ 0 then .abort
      else
        STRICT_CHECK strict (ch ≠ CR) parser <|
          .next { parser with state := .s_chunk_data_done } [.CALLBACK_DATA .body]
    | .s_chunk_data_done =>
      STRICT_CHECK strict (ch ≠ LF) parser <|
        .next { parser with nread := 0, state := .s_chunk_size_start } []
    | _ => .abort

/-! ### The `switch` -/

/-- `UPDATE_STATE` behind a number of one digit. -/
def version (parser on : Parser) (ch : UInt8) : Outcome :=
  if !IS_NUM ch then SET_ERRNO parser .HPE_INVALID_VERSION else .next on []

/-- A byte that has to be a given one. -/
def expect (parser : Parser) (ch expected : UInt8) (state : State) (errno : Errno) : Outcome :=
  if ch ≠ expected then SET_ERRNO parser errno else UPDATE_STATE parser state

/-- A byte that only strict mode looks at. -/
def strictly (strict : Bool) (parser : Parser) (ch expected : UInt8) (state : State) : Outcome :=
  STRICT_CHECK strict (ch ≠ expected) parser <| UPDATE_STATE parser state

/-- The cases that look at one byte. -/
def switchByte (strict : Bool) (answer : Int) (parser : Parser) (ch : UInt8) : Outcome :=
  match parser.state with
  | .s_dead =>
    if ch = CR ∨ ch = LF then .next parser [] else SET_ERRNO parser .HPE_CLOSED_CONNECTION
  | .s_start_req_or_res =>
    if ch = CR ∨ ch = LF then .next parser []
    else if ch = chr 'H' then
      .next { parser.fresh with state := .s_res_or_resp_H } [.CALLBACK_NOTIFY .messageBegin]
    else s_start_req { parser.fresh with type := .HTTP_REQUEST, state := .s_start_req } ch
  | .s_res_or_resp_H =>
    if ch = chr 'T' then .next { parser with type := .HTTP_RESPONSE, state := .s_res_HT } []
    else if ch ≠ chr 'E' then SET_ERRNO parser .HPE_INVALID_CONSTANT
    else
      .next { parser with
        type := .HTTP_REQUEST, method := HTTP_HEAD, index := 2, state := .s_req_method } []
  | .s_start_res =>
    if ch = CR ∨ ch = LF then .next parser []
    else if ch = chr 'H' then
      .next { parser.fresh with state := .s_res_H } [.CALLBACK_NOTIFY .messageBegin]
    else SET_ERRNO parser.fresh .HPE_INVALID_CONSTANT
  | .s_res_H => strictly strict parser ch (chr 'T') .s_res_HT
  | .s_res_HT => strictly strict parser ch (chr 'T') .s_res_HTT
  | .s_res_HTT => strictly strict parser ch (chr 'P') .s_res_HTTP
  | .s_res_HTTP => strictly strict parser ch (chr '/') .s_res_http_major
  | .s_res_http_major =>
    version parser { parser with http_major := digit ch, state := .s_res_http_dot } ch
  | .s_res_http_dot => expect parser ch (chr '.') .s_res_http_minor .HPE_INVALID_VERSION
  | .s_res_http_minor =>
    version parser { parser with http_minor := digit ch, state := .s_res_http_end } ch
  | .s_res_http_end => expect parser ch SP .s_res_first_status_code .HPE_INVALID_VERSION
  | .s_res_first_status_code =>
    if !IS_NUM ch then
      if ch = SP then .next parser [] else SET_ERRNO parser .HPE_INVALID_STATUS
    else .next { parser with status_code := digit ch, state := .s_res_status_code } []
  | .s_res_status_code => s_res_status_code parser ch
  | .s_res_status_start => s_res_status_start parser ch
  | .s_res_status => s_res_status parser ch
  | .s_res_line_almost_done => strictly strict parser ch LF .s_header_field_start
  | .s_start_req => s_start_req parser ch
  | .s_req_method => s_req_method parser ch
  | .s_req_spaces_before_url =>
    if ch = SP then .next parser []
    else
      urlChar strict (if parser.method = HTTP_CONNECT then
        { parser with state := .s_req_server_start } else parser) ch [.MARK (.text .url)]
  | .s_req_schema | .s_req_schema_slash | .s_req_schema_slash_slash | .s_req_server_start =>
    if ch = SP ∨ ch = CR ∨ ch = LF then SET_ERRNO parser .HPE_INVALID_URL
    else urlChar strict parser ch []
  | .s_req_server | .s_req_server_with_at | .s_req_path | .s_req_query_string_start
  | .s_req_query_string | .s_req_fragment_start | .s_req_fragment =>
    if ch = SP then
      .next { parser with state := .s_req_http_start } [.CALLBACK_DATA (.text .url)]
    else if ch = CR ∨ ch = LF then
      .next { parser with
        http_major := 0
        http_minor := 9
        state := if ch = CR then .s_req_line_almost_done else .s_header_field_start }
          [.CALLBACK_DATA (.text .url)]
    else urlChar strict parser ch []
  | .s_req_http_start =>
    if ch = SP then .next parser []
    else if ch = chr 'H' then UPDATE_STATE parser .s_req_http_H
    else if ch = chr 'I' ∧ parser.method = HTTP_SOURCE then UPDATE_STATE parser .s_req_http_I
    else SET_ERRNO parser .HPE_INVALID_CONSTANT
  | .s_req_http_H => strictly strict parser ch (chr 'T') .s_req_http_HT
  | .s_req_http_HT => strictly strict parser ch (chr 'T') .s_req_http_HTT
  | .s_req_http_HTT => strictly strict parser ch (chr 'P') .s_req_http_HTTP
  | .s_req_http_I => strictly strict parser ch (chr 'C') .s_req_http_IC
  | .s_req_http_IC => strictly strict parser ch (chr 'E') .s_req_http_HTTP
  | .s_req_http_HTTP => strictly strict parser ch (chr '/') .s_req_http_major
  | .s_req_http_major =>
    version parser { parser with http_major := digit ch, state := .s_req_http_dot } ch
  | .s_req_http_dot => expect parser ch (chr '.') .s_req_http_minor .HPE_INVALID_VERSION
  | .s_req_http_minor =>
    version parser { parser with http_minor := digit ch, state := .s_req_http_end } ch
  | .s_req_http_end =>
    if ch = CR then UPDATE_STATE parser .s_req_line_almost_done
    else expect parser ch LF .s_header_field_start .HPE_INVALID_VERSION
  | .s_req_line_almost_done => expect parser ch LF .s_header_field_start .HPE_LF_EXPECTED
  | .s_header_field_start => s_header_field_start strict answer parser ch
  | .s_header_value_discard_ws => s_header_value_discard_ws parser ch
  | .s_header_value_start => s_header_value_start parser ch
  | .s_header_almost_done => s_header_almost_done parser ch
  | .s_header_value_lws => s_header_value_lws strict answer parser ch
  | .s_header_value_discard_ws_almost_done =>
    strictly strict parser ch LF .s_header_value_discard_lws
  | .s_header_value_discard_lws => s_header_value_discard_lws strict answer parser ch
  | .s_headers_almost_done => s_headers_almost_done strict answer parser ch
  | .s_headers_done => s_headers_done strict parser ch
  | .s_message_done => s_message_done strict parser
  | .s_chunk_size_start | .s_chunk_size | .s_chunk_parameters | .s_chunk_size_almost_done
  | .s_chunk_data_almost_done | .s_chunk_data_done => chunkCase strict parser ch
  | .s_header_field | .s_header_value | .s_chunk_data | .s_body_identity
  | .s_body_identity_eof => .abort

end Http

end Nattan
