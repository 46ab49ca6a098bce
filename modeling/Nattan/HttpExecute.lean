/-
This file models `http_parser_execute`: its loop, the cases of its `switch` that read ahead,
the marks, and the callbacks with their spans.

A pointer into the data is what is left of the data from there on, so the difference of two
pointers is the difference of their lengths. A mark is the pointer at which it was set, and
the span of a callback reaches from there to the pointer at which it is fired.

The cases that read ahead count the bytes they have read at their end. Inside of a header
name or value whose kind no longer matters they look for its end in a loop of their own,
which stops at the limit for headers.
-/

import Nattan.HttpSwitch

namespace Nattan

namespace Http

/-! ### Marks and callbacks -/

/-- The parser, the local variables and the callbacks fired so far. -/
structure Call where
  parser : Parser
  marks : Mark → Option (List UInt8)
  callbacks : List Callback

/-- How a turn of the loop ends: with `p++`, with a `return`, or in a failed assertion. -/
inductive Progress where
  | next (call : Call) (p : List UInt8)
  | stop (call : Call) (p : List UInt8)
  | abort

namespace Call

/-- Fire the callback of a mark that is set, with the span up to `p`. -/
def fire (call : Call) (p : List UInt8) (mark : Mark) : Call :=
  match call.marks mark with
  | none => call
  | some start =>
    { call with
      marks := Function.update call.marks mark none
      callbacks := call.callbacks ++ [mark.callback (start.take (start.length - p.length))] }

def perform (call : Call) (p : List UInt8) : Macro → Call
  | .MARK mark =>
    if call.marks mark = none then
      { call with marks := Function.update call.marks mark (some p) }
    else call
  | .CALLBACK_DATA mark => call.fire p mark
  | .CALLBACK_DATA_ mark => call.fire p.tail mark
  | .CALLBACK_NOTIFY notice => { call with callbacks := call.callbacks ++ [notice.callback] }

/-- The end of a case that looks at the byte at `p`. No case sets an errno in front of a macro, so
the assertions of its macros look at the errno in front of the case. -/
def finish (call : Call) (p : List UInt8) (outcome : Outcome) : Progress :=
  if call.parser.http_errno ≠ .HPE_OK ∧ outcome.macros.any Macro.asserts then .abort
  else match outcome with
    | .next parser macros =>
      .next (macros.foldl (fun call => call.perform p) { call with parser := parser }) p.tail
    | .exit parser macros =>
      .stop (macros.foldl (fun call => call.perform p) { call with parser := parser }) p.tail
    | .error parser macros =>
      .stop (macros.foldl (fun call => call.perform p) { call with parser := parser }) p
    | .abort => .abort

/-- `CALLBACK_DATA` at `p`, with its assertion. -/
def CALLBACK_DATA (call : Call) (p : List UInt8) (mark : Mark) (otherwise : Call → Progress) :
    Progress :=
  if call.parser.http_errno ≠ .HPE_OK then .abort else otherwise (call.fire p mark)

/-- `SET_ERRNO(e); goto error;` at `p`. -/
def fail (call : Call) (p : List UInt8) (errno : Errno) : Progress :=
  .stop { call with parser := { call.parser with http_errno := errno } } p

/-- `COUNT_HEADER_SIZE(V)` at `p`. -/
def COUNT_HEADER_SIZE (call : Call) (p : List UInt8) (v : Nat) (otherwise : Call → Progress) :
    Progress :=
  let counted := { call with parser := { call.parser with
    nread := (call.parser.nread + v) % 2 ^ 32 } }
  if HTTP_MAX_HEADER_SIZE < counted.parser.nread then counted.fail p .HPE_HEADER_OVERFLOW
  else otherwise counted

end Call

/-! ### Header names -/

/-- The next character of a text that is to be matched, among other cases the last one. -/
def matching (text : String) (whole other : HeaderState) (parser : Parser) (h_state : HeaderState)
    (c : UInt8) : Parser × HeaderState :=
  let index := (parser.index + 1) % 128
  ({ parser with index := index },
    if text.length < index ∨ charAt (bytesOf text) index ≠ some c then other
    else if index + 1 = text.length then whole
    else h_state)

/-- A character of a header name, with what `TOKEN` makes of it. -/
def fieldByte (parser : Parser) (ch c : UInt8) : Option Parser :=
  let become (header_state : HeaderState) : Option Parser :=
    some { parser with index := (parser.index + 1) % 128, header_state := header_state }
  let follow (text : String) (whole : HeaderState) : Option Parser :=
    let (on, header_state) := matching text whole .h_general parser parser.header_state c
    some { on with header_state := header_state }
  match parser.header_state with
  | .h_general => some parser
  | .h_C => become (if c = chr 'o' then .h_CO else .h_general)
  | .h_CO => become (if c = chr 'n' then .h_CON else .h_general)
  | .h_CON =>
    become (if c = chr 'n' then .h_matching_connection
      else if c = chr 't' then .h_matching_content_length
      else .h_general)
  | .h_matching_connection => follow "connection" .h_connection
  | .h_matching_proxy_connection => follow "proxy-connection" .h_connection
  | .h_matching_content_length => follow "content-length" .h_content_length
  | .h_matching_transfer_encoding => follow "transfer-encoding" .h_transfer_encoding
  | .h_matching_upgrade => follow "upgrade" .h_upgrade
  | .h_connection | .h_content_length | .h_transfer_encoding | .h_upgrade =>
    some { parser with header_state := if ch ≠ SP then .h_general else parser.header_state }
  | _ => none

/-- `while (p+1 < pe && TOKEN(p[1])) p++;` and the `p++` behind it, from behind the byte at `p`. -/
def skipTokens (strict : Bool) : Nat → List UInt8 → List UInt8
  | 0, p => p
  | _ + 1, [] => []
  | left + 1, ch :: rest => if TOKEN strict ch = 0 then ch :: rest else skipTokens strict left rest

/-- The loop of `s_header_field`. It ends at the end of the data or at a byte that is no token. -/
def fieldLoop (strict : Bool) : Nat → Parser → List UInt8 → Option (Parser × List UInt8)
  | _, parser, [] => some (parser, [])
  | 0, parser, p => some (parser, p)
  | turns + 1, parser, ch :: rest =>
    if TOKEN strict ch = 0 then some (parser, ch :: rest)
    else if parser.header_state = .h_general then
      fieldLoop strict turns parser
        (skipTokens strict (min (rest.length + 1) HTTP_MAX_HEADER_SIZE - 1) rest)
    else (fieldByte parser ch (TOKEN strict ch)).bind fun parser =>
      fieldLoop strict turns parser rest

/-- `case s_header_field` -/
def s_header_field (strict : Bool) (call : Call) (p : List UInt8) : Progress :=
  match fieldLoop strict p.length call.parser p with
  | none => .abort
  | some (parser, []) =>
    Call.COUNT_HEADER_SIZE { call with parser := parser } (p.drop (p.length - 1)) (p.length - 1)
      fun call => .next call []
  | some (parser, ch :: rest) =>
    Call.COUNT_HEADER_SIZE { call with parser := parser } (ch :: rest)
      (p.length - (ch :: rest).length) fun call =>
        if ch = chr ':' then
          call.finish (ch :: rest) (.next { call.parser with state := .s_header_value_discard_ws }
            [.CALLBACK_DATA (.text .field)])
        else call.fail (ch :: rest) .HPE_INVALID_HEADER_TOKEN

/-! ### Header values -/

/-- A digit of a content length. -/
def lengthByte (parser : Parser) (h_state : HeaderState) (ch : UInt8) :
    Except Parser (Parser × HeaderState) :=
  if ch = SP then .ok (parser, .h_content_length_ws)
  else if !IS_NUM ch ∨ (ULLONG_MAX - 10) / 10 < parser.content_length then
    .error { parser with http_errno := .HPE_INVALID_CONTENT_LENGTH, header_state := h_state }
  else
    .ok ({ parser with
      content_length := (parser.content_length * 10 % 2 ^ 64 + digit ch) % 2 ^ 64 }, h_state)

/-- A character of a header value that means something. `h_state` is a local variable. -/
def valueByte (parser : Parser) (h_state : HeaderState) (ch : UInt8) :
    Except Parser (Parser × HeaderState) :=
  let c := LOWER ch
  match h_state with
  | .h_content_length =>
    if ch = SP then .ok (parser, h_state) else lengthByte parser .h_content_length_num ch
  | .h_content_length_num => lengthByte parser .h_content_length_num ch
  | .h_content_length_ws =>
    if ch = SP then .ok (parser, h_state)
    else .error { parser with http_errno := .HPE_INVALID_CONTENT_LENGTH, header_state := h_state }
  | .h_matching_transfer_encoding_chunked =>
    .ok (matching "chunked" .h_transfer_encoding_chunked .h_general parser h_state c)
  | .h_matching_connection_token_start =>
    .ok (parser,
      if c = chr 'k' then .h_matching_connection_keep_alive
      else if c = chr 'c' then .h_matching_connection_close
      else if c = chr 'u' then .h_matching_connection_upgrade
      else if STRICT_TOKEN c ≠ 0 then .h_matching_connection_token
      else if c = SP ∨ c = HT then h_state
      else .h_general)
  | .h_matching_connection_keep_alive =>
    .ok (matching "keep-alive" .h_connection_keep_alive .h_matching_connection_token parser
      h_state c)
  | .h_matching_connection_close =>
    .ok (matching "close" .h_connection_close .h_matching_connection_token parser h_state c)
  | .h_matching_connection_upgrade =>
    .ok (matching "upgrade" .h_connection_upgrade .h_matching_connection_token parser h_state c)
  | .h_matching_connection_token =>
    if ch = chr ',' then .ok ({ parser with index := 0 }, .h_matching_connection_token_start)
    else .ok (parser, h_state)
  | .h_transfer_encoding_chunked => .ok (parser, if ch ≠ SP then .h_general else h_state)
  | .h_connection_keep_alive | .h_connection_close | .h_connection_upgrade =>
    if ch = chr ',' then
      .ok ({ parser with flags := parser.flags.finished h_state, index := 0 },
        .h_matching_connection_token_start)
    else .ok (parser, if ch ≠ SP then .h_matching_connection_token else h_state)
  | _ => .ok ({ parser with state := .s_header_value }, .h_general)

/-- The byte may not stand in a header. -/
def invalid (lenient : Bool) (ch : UInt8) : Bool :=
  !lenient && !IS_HEADER_CHAR ch

/-- The loop of `h_general` up to `pe`, and the `p++` behind it. Where the data ends, or where the
line ends, `p` is first taken back by one; at the limit it is not. -/
def skipGeneral (lenient : Bool) : Nat → List UInt8 → Except (List UInt8) (List UInt8)
  | 0, p => .ok p.tail
  | _ + 1, [] => .ok []
  | left + 1, ch :: rest =>
    if ch = CR ∨ ch = LF then .ok (ch :: rest)
    else if invalid lenient ch then .error (ch :: rest)
    else skipGeneral lenient left rest

/-- Where the loop of `s_header_value` ends. -/
inductive Scan where
  | reached (parser : Parser) (h_state : HeaderState) (p : List UInt8)
  | failed (parser : Parser) (p : List UInt8)
  | abort

/-- The loop of `s_header_value`, up to the end of the data or of the line. -/
def valueLoop : Nat → Parser → HeaderState → List UInt8 → Scan
  | _, parser, h_state, [] => .reached parser h_state []
  | 0, parser, h_state, p => .reached parser h_state p
  | turns + 1, parser, h_state, ch :: rest =>
    if ch = CR ∨ ch = LF then .reached parser h_state (ch :: rest)
    else if invalid parser.lenient_http_headers ch then
      .failed { parser with http_errno := .HPE_INVALID_HEADER_TOKEN } (ch :: rest)
    else if h_state = .h_general then
      match skipGeneral parser.lenient_http_headers (min (rest.length + 1) HTTP_MAX_HEADER_SIZE)
          (ch :: rest) with
      | .ok p => valueLoop turns parser .h_general p
      | .error p => .failed { parser with http_errno := .HPE_INVALID_HEADER_TOKEN } p
    else if h_state = .h_connection ∨ h_state = .h_transfer_encoding then .abort
    else
      match valueByte parser h_state ch with
      | .ok (parser, h_state) => valueLoop turns parser h_state rest
      | .error parser => .failed parser (ch :: rest)

/-- `case s_header_value` -/
def s_header_value (call : Call) (p : List UInt8) : Progress :=
  match valueLoop p.length call.parser call.parser.header_state p with
  | .abort => .abort
  | .failed parser q => .stop { call with parser := parser } q
  | .reached parser h_state [] =>
    Call.COUNT_HEADER_SIZE { call with parser := { parser with header_state := h_state } }
      (p.drop (p.length - 1)) (p.length - 1) fun call => .next call []
  | .reached parser h_state (ch :: rest) =>
    let almost := { parser with state := .s_header_almost_done }
    if ch = CR then
      Call.CALLBACK_DATA { call with parser := { almost with header_state := h_state } }
        (ch :: rest) (.text .value) fun call =>
          call.COUNT_HEADER_SIZE (ch :: rest) (p.length - (ch :: rest).length) fun call =>
            .next call rest
    else
      -- the line ends here, and its bytes are counted before `header_state` is stored
      Call.COUNT_HEADER_SIZE { call with parser := almost } (ch :: rest)
        (p.length - (ch :: rest).length) fun call =>
          Call.CALLBACK_DATA { call with parser := { call.parser with header_state := h_state } }
            (ch :: rest) (.text .value) fun call =>
              call.finish (ch :: rest) (s_header_almost_done call.parser ch)

/-! ### Bodies -/

/-- `to_read` bytes of a counted body, up to the last of them. -/
def takeBody (call : Call) (p : List UInt8) : Call × List UInt8 :=
  let to_read := min call.parser.content_length p.length
  ({ call.perform p (.MARK .body) with
      parser := { call.parser with content_length := call.parser.content_length - to_read } },
    p.drop (to_read - 1))

/-- `case s_body_identity` -/
def s_body_identity (strict : Bool) (call : Call) (p : List UInt8) : Progress :=
  if call.parser.content_length = 0 ∨ call.parser.content_length = ULLONG_MAX then .abort
  else
    let (taken, q) := takeBody call p
    if taken.parser.content_length = 0 then
      -- the last byte is executed again in the next state
      taken.finish q ((s_message_done strict { taken.parser with
        state := .s_message_done }).behind [.CALLBACK_DATA_ .body])
    else .next taken q.tail

/-- `case s_body_identity_eof` -/
def s_body_identity_eof (call : Call) (p : List UInt8) : Progress :=
  .next (call.perform p (.MARK .body)) []

/-- `case s_chunk_data` -/
def s_chunk_data (call : Call) (p : List UInt8) : Progress :=
  if !call.parser.flags.F_CHUNKED ∨ call.parser.content_length = 0 ∨
      call.parser.content_length = ULLONG_MAX then .abort
  else
    let (taken, q) := takeBody call p
    .next { taken with parser := { taken.parser with
      state := if taken.parser.content_length = 0 then .s_chunk_data_almost_done
        else .s_chunk_data } } q.tail

/-! ### `http_parser_execute` -/

/-- The `switch`, at the byte `ch` in front of `rest`. -/
def switch (strict : Bool) (answer : Int) (call : Call) (ch : UInt8) (rest : List UInt8) :
    Progress :=
  match call.parser.state with
  | .s_header_field => s_header_field strict call (ch :: rest)
  | .s_header_value => s_header_value call (ch :: rest)
  | .s_body_identity => s_body_identity strict call (ch :: rest)
  | .s_body_identity_eof => s_body_identity_eof call (ch :: rest)
  | .s_chunk_data => s_chunk_data call (ch :: rest)
  | _ => call.finish (ch :: rest) (switchByte strict answer call.parser ch)

/-- A turn of the loop. -/
def turn (strict : Bool) (answer : Int) (call : Call) (ch : UInt8) (rest : List UInt8) :
    Progress :=
  if call.parser.state.parsingHeader then
    call.COUNT_HEADER_SIZE (ch :: rest) 1 fun call => switch strict answer call ch rest
  else switch strict answer call ch rest

/-- The loop, from `p` on. What `on_headers_complete` answers may depend on how many callbacks have
been fired before the turn that calls it. -/
def loop (strict : Bool) (answers : Nat → Int) : Nat → Call → List UInt8 → Progress
  | _, call, [] => .next call []
  | 0, call, p => .next call p
  | turns + 1, call, ch :: rest =>
    match turn strict (answers call.callbacks.length) call ch rest with
    | .next call p => loop strict answers turns call p
    | .stop call p => .stop call p
    | .abort => .abort

/-- The element a state is inside of. A call that begins there marks its first byte. -/
def State.open : State → Option TextKind
  | s_header_field => some .field
  | s_header_value => some .value
  | s_req_path | s_req_schema | s_req_schema_slash | s_req_schema_slash_slash
  | s_req_server_start | s_req_server | s_req_server_with_at | s_req_query_string_start
  | s_req_query_string | s_req_fragment_start | s_req_fragment => some .url
  | s_res_status => some .status
  | _ => none

/-- The marks in front of the loop. -/
def initialMarks (parser : Parser) (data : List UInt8) : Mark → Option (List UInt8)
  | .text kind => if parser.state.open = some kind then some data else none
  | .body => none

/-- The marks in the order in which they are left over. -/
def allMarks : List Mark :=
  [.text .field, .text .value, .text .url, .body, .text .status]

/-- `http_parser_execute`, with the callbacks that it fires and what it returns. -/
def http_parser_execute (strict : Bool) (answers : Nat → Int) (parser : Parser)
    (data : List UInt8) :
    Option (Parser × List Callback × Nat) :=
  if parser.http_errno ≠ .HPE_OK then some (parser, [], 0)
  else if data = [] then
    match parser.state with
    -- the assertion of this callback is what has just been looked at
    | .s_body_identity_eof => some (parser, [.messageComplete], 0)
    | .s_dead | .s_start_req_or_res | .s_start_res | .s_start_req => some (parser, [], 0)
    | _ => some ({ parser with http_errno := .HPE_INVALID_EOF_STATE }, [], 1)
  else
    match loop strict answers data.length ⟨parser, initialMarks parser data, []⟩ data with
    | .abort => none
    | .stop call p => some (call.parser, call.callbacks, data.length - p.length)
    | .next call _ =>
      if 1 < (allMarks.filter fun mark => call.marks mark ≠ none).length then none
      else if call.parser.http_errno ≠ .HPE_OK then none
      else
        let call := allMarks.foldl (fun call mark => call.fire [] mark) call
        some (call.parser, call.callbacks, data.length)

end Http

end Nattan
