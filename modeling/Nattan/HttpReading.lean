/-
This file says what `http_parser_execute` does as a machine that reads one byte at a time and
proves that a call does exactly this.

The code reads names, values and bodies ahead, skips what no longer matters, and counts the
bytes of a header when it is through with them. The machine does none of it: it reads a byte,
counts it, and sets or fires a mark in front of the byte or behind it. A call shorter than a
word may count is the machine on the bytes of the call.
-/

import Nattan.HttpCalls

namespace Nattan

namespace Http

variable {strict : Bool} {answer : Int} {parser on : Parser} {state : State} {ch : UInt8}
  {register : Register} {callbacks : List Callback}

/-! ### The machine -/

/-- What is done one after the other: a macro at the place that is reached, or a byte is read. -/
inductive Step where
  | use (step : Macro)
  | byte (ch : UInt8)
  deriving DecidableEq, Repr

/-- How bytes are read: all of them, up to a `RETURN` in front of the rest, or with an error. -/
inductive Reading where
  | accepted (parser : Parser) (steps : List Step)
  | exited (parser : Parser) (steps : List Step) (rest : List UInt8)
  | refused
  deriving DecidableEq, Repr

/-- The steps behind others. -/
def Reading.behind (front : List Step) : Reading → Reading
  | accepted parser steps => .accepted parser (front ++ steps)
  | exited parser steps rest => .exited parser (front ++ steps) rest
  | refused => .refused

/-- Read on with what is left. -/
def Reading.andThen (reading : Reading) (rest : List UInt8) (more : Parser → Reading) : Reading :=
  match reading with
  | accepted parser steps => (more parser).behind steps
  | exited parser steps unread => .exited parser steps (unread ++ rest)
  | refused => .refused

/-- A case of the `switch` that looks at one byte. -/
def Outcome.reading (ch : UInt8) : Outcome → Reading
  | next parser macros => .accepted parser (macros.map .use ++ [.byte ch])
  | exit parser macros => .exited parser (macros.map .use ++ [.byte ch]) []
  | error _ _ => .refused
  | abort => .refused

/-- A byte of a body, which is marked unless it is already. -/
def bodyByte (ch : UInt8) : List Step :=
  [.use (.MARK .body), .byte ch]

/-- A byte of a header name, or the one behind it. -/
def nameByte (strict : Bool) (parser : Parser) (ch : UInt8) : Reading :=
  if TOKEN strict ch ≠ 0 then
    match fieldByte parser ch (TOKEN strict ch) with
    | some on => .accepted on [.byte ch]
    | none => .refused
  else if ch = chr ':' then
    .accepted { parser with state := .s_header_value_discard_ws }
      [.use (.CALLBACK_DATA (.text .field)), .byte ch]
  else .refused

/-- A byte of a header value, or the end of its line. -/
def textByte (parser : Parser) (ch : UInt8) : Reading :=
  if ch = CR then
    .accepted { parser with state := .s_header_almost_done }
      [.use (.CALLBACK_DATA (.text .value)), .byte ch]
  else if ch = LF then
    .accepted { parser with state := .s_header_value_lws }
      [.use (.CALLBACK_DATA (.text .value)), .byte ch]
  else if invalid parser.lenient_http_headers ch then .refused
  else match valueByte parser parser.header_state ch with
    | .ok (on, h_state) => .accepted { on with header_state := h_state } [.byte ch]
    | .error _ => .refused

/-- A byte of a body that is counted. -/
def countedByte (strict : Bool) (parser : Parser) (ch : UInt8) : Reading :=
  let on := { parser with content_length := parser.content_length - 1 }
  if on.content_length = 0 then
    let last := completed strict { on with state := .s_message_done }
    let steps := bodyByte ch ++
      [.use (.CALLBACK_DATA .body), .use (.CALLBACK_NOTIFY .messageComplete)]
    if on.upgrade then .exited last steps [] else .accepted last steps
  else .accepted on (bodyByte ch)

/-- A byte of the data of a chunk. -/
def chunkByte (parser : Parser) (ch : UInt8) : Reading :=
  .accepted { parser with
    content_length := parser.content_length - 1
    state := if parser.content_length - 1 = 0 then .s_chunk_data_almost_done else .s_chunk_data }
      (bodyByte ch)

/-- A byte, when it is counted. -/
def readCounted (strict : Bool) (answer : Int) (parser : Parser) (ch : UInt8) : Reading :=
  match parser.state with
  | .s_header_field => nameByte strict parser ch
  | .s_header_value => textByte parser ch
  | .s_body_identity => countedByte strict parser ch
  | .s_body_identity_eof => .accepted parser (bodyByte ch)
  | .s_chunk_data => chunkByte parser ch
  | _ => (switchByte strict answer parser ch).reading ch

/-- Read a byte. -/
def readByte (strict : Bool) (answer : Int) (parser : Parser) (ch : UInt8) : Reading :=
  if parser.state.parsingHeader then
    if HTTP_MAX_HEADER_SIZE < parser.nread + 1 then .refused
    else readCounted strict answer { parser with nread := parser.nread + 1 } ch
  else readCounted strict answer parser ch

/-- Read bytes one after the other. -/
def readBytes (strict : Bool) (answer : Int) : Parser → List UInt8 → Reading
  | parser, [] => .accepted parser []
  | parser, ch :: rest =>
    (readByte strict answer parser ch).andThen rest fun parser =>
      readBytes strict answer parser rest

/-- What steps do to the mark, and the callbacks they fire. -/
def Register.play (register : Register) : List Step → Register × List Callback
  | [] => (register, [])
  | .byte ch :: rest => (register.push ch).play rest
  | .use step :: rest =>
    (((register.perform 0 step).1.play rest).1,
      (register.perform 0 step).2 ++ ((register.perform 0 step).1.play rest).2)

@[simp]
theorem Reading.behind_nil (reading : Reading) : reading.behind [] = reading := by
  cases reading <;> rfl

theorem Reading.behind_behind (front back : List Step) (reading : Reading) :
    (reading.behind back).behind front = reading.behind (front ++ back) := by
  cases reading with
  | accepted parser steps => exact congrArg (accepted parser) (List.append_assoc ..).symm
  | exited parser steps rest =>
    exact congrArg (fun steps => exited parser steps rest) (List.append_assoc ..).symm
  | refused => rfl

theorem play_append (register : Register) (front back : List Step) :
    register.play (front ++ back) =
      (((register.play front).1.play back).1,
        (register.play front).2 ++ ((register.play front).1.play back).2) := by
  induction front generalizing register with
  | nil => rfl
  | cons step rest inductionHypothesis =>
    cases step with
    | byte ch => exact inductionHypothesis _
    | use step =>
      rw [List.cons_append, Register.play, Register.play, inductionHypothesis,
        List.append_assoc]

/-- Bytes without a macro are read into the mark that is set. -/
theorem play_bytes (set : Mark) (span bytes : List UInt8) :
    Register.play (some (set, span)) (bytes.map .byte) = (some (set, span ++ bytes), []) := by
  induction bytes generalizing span with
  | nil => rw [List.map_nil, Register.play, List.append_nil]
  | cons ch rest inductionHypothesis =>
    rw [List.map_cons, Register.play, List.append_cons]
    exact inductionHypothesis (span ++ [ch])

/-- The macros of a case, and then its byte. -/
theorem play_macros {macros : List Macro} (plain : ∀ mark, .CALLBACK_DATA_ mark ∉ macros) :
    register.play (macros.map .use ++ [.byte ch]) =
      ((register.performAll ch macros).1.push ch, (register.performAll ch macros).2) := by
  induction macros generalizing register with
  | nil => rfl
  | cons step rest inductionHypothesis =>
    have same : register.perform 0 step = register.perform ch step := by
      cases step with
      | MARK mark => rfl
      | CALLBACK_DATA mark => rfl
      | CALLBACK_DATA_ mark => exact absurd List.mem_cons_self (plain mark)
      | CALLBACK_NOTIFY notice => rfl
    rw [List.map_cons, List.cons_append, Register.play, same, Register.performAll]
    simp only
    rw [inductionHypothesis fun mark member => plain mark (List.mem_cons_of_mem _ member)]

/-- Only the code of a body that is counted fires a callback behind its byte. -/
theorem Shape.plain {macros : List Macro} {before behind : Option TextKind}
    (shape : Shape before macros behind) (mark : Mark) : .CALLBACK_DATA_ mark ∉ macros := by
  induction shape with
  | stays kind => exact List.not_mem_nil
  | opens kind => exact List.mem_singleton.not.mpr fun same => nomatch same
  | closes kind => exact List.mem_singleton.not.mpr fun same => nomatch same
  | body => exact List.mem_singleton.not.mpr fun same => nomatch same
  | notice notice rest inductionHypothesis =>
    rw [List.mem_cons, not_or]
    exact ⟨(fun same => nomatch same), inductionHypothesis⟩
  | empty kind rest inductionHypothesis =>
    rw [List.mem_cons, not_or, List.mem_cons, not_or]
    exact ⟨(fun same => nomatch same), (fun same => nomatch same), inductionHypothesis⟩

/-! ### What a turn of the loop reads -/

/-- From `p` on, a turn of the loop or all of it reads what the machine reads. -/
def Progress.Reads (strict : Bool) (answer : Int) (parser : Parser) (register : Register)
    (callbacks : List Callback) (p : List UInt8) : Progress → Prop
  | next call q => ∃ on steps,
      call = callAt on (register.play steps).1 (callbacks ++ (register.play steps).2) q ∧
        readBytes strict answer parser p = (readBytes strict answer on q).behind steps
  | stop call q =>
    if call.parser.http_errno = .HPE_OK then
      ∃ steps, call.callbacks = callbacks ++ (register.play steps).2 ∧
        readBytes strict answer parser p = .exited call.parser steps q
    else readBytes strict answer parser p = .refused
  | abort => False

theorem Progress.Reads.trans {progress : Progress} {p q : List UInt8} {steps : List Step}
    (first : readBytes strict answer parser p = (readBytes strict answer on q).behind steps)
    (second : progress.Reads strict answer on (register.play steps).1
      (callbacks ++ (register.play steps).2) q) :
    progress.Reads strict answer parser register callbacks p := by
  cases progress with
  | next call rest =>
    obtain ⟨last, more, same, reads⟩ := second
    refine ⟨last, steps ++ more, ?_, ?_⟩
    · rw [same, play_append, List.append_assoc]
    · rw [first, reads, Reading.behind_behind]
  | stop call rest =>
    unfold Reads at second ⊢
    simp only at second ⊢
    split
    · rename_i works
      rw [if_pos works] at second
      obtain ⟨more, same, reads⟩ := second
      refine ⟨steps ++ more, ?_, ?_⟩
      · rw [same, play_append, List.append_assoc]
      · rw [first, reads, Reading.behind]
    · rename_i fails
      rw [if_neg fails] at second
      rw [first, second, Reading.behind]
  | abort => exact second

theorem reads_fail {call : Call} {p q : List UInt8} {errno : Errno} (fails : errno ≠ .HPE_OK)
    (refused : readBytes strict answer parser p = .refused) :
    (call.fail q errno).Reads strict answer parser register callbacks p :=
  (if_neg fails).mpr refused

theorem reads_COUNT_HEADER_SIZE {call : Call} {p q : List UInt8} {v : Nat}
    {otherwise : Call → Progress} (short : call.parser.nread + v < 2 ^ 32)
    (overflow : HTTP_MAX_HEADER_SIZE < call.parser.nread + v →
      readBytes strict answer parser p = .refused)
    (goesOn : call.parser.nread + v ≤ HTTP_MAX_HEADER_SIZE →
      (otherwise { call with parser := { call.parser with
        nread := call.parser.nread + v } }).Reads strict answer parser register callbacks p) :
    (call.COUNT_HEADER_SIZE q v otherwise).Reads strict answer parser register callbacks p := by
  unfold Call.COUNT_HEADER_SIZE
  simp only
  rw [Nat.mod_eq_of_lt short]
  split
  · rename_i much
    exact reads_fail (by decide) (overflow much)
  · rename_i small
    exact goesOn (Nat.le_of_not_lt small)

/-- A case that goes on with the next byte. -/
theorem reads_next (macros : List Macro) {rest : List UInt8} (proper : register.Proper ch macros)
    (plain : ∀ mark, .CALLBACK_DATA_ mark ∉ macros)
    (reads : readBytes strict answer parser (ch :: rest) =
      (readBytes strict answer on rest).behind (macros.map .use ++ [.byte ch]))
    {counted : Parser} (works : counted.http_errno = .HPE_OK) :
    ((callAt counted register callbacks (ch :: rest)).finish (ch :: rest)
      (.next on macros)).Reads strict answer parser register callbacks (ch :: rest) := by
  rw [finish_callAt works]
  refine ⟨on, macros.map .use ++ [.byte ch], ?_, reads⟩
  rw [play_macros plain, callAt_push]
  exact performAll_callAt proper

/-- A case that looks at one byte. -/
theorem reads_finish {outcome : Outcome} {before : Option TextKind} {rest : List UInt8}
    (good : outcome.Good before) (agrees : register.Agrees before)
    (reads : readBytes strict answer parser (ch :: rest) =
      (outcome.reading ch).andThen rest fun parser => readBytes strict answer parser rest)
    {counted : Parser} (works : counted.http_errno = .HPE_OK) :
    ((callAt counted register callbacks (ch :: rest)).finish (ch :: rest) outcome).Reads
      strict answer parser register callbacks (ch :: rest) := by
  cases outcome with
  | next on macros => exact reads_next macros (good.2.proper ch agrees).1 good.2.plain reads works
  | exit on macros =>
    rw [finish_callAt works]
    have performed := @performAll_callAt on ch rest register callbacks macros
      (good.2.proper ch agrees).1
    refine (if_pos ?_).mpr ⟨macros.map .use ++ [.byte ch], ?_, ?_⟩
    · exact (congrArg Parser.http_errno (parser_perform _ _ _)).trans good.1.errno
    · rw [play_macros good.2.plain]
      exact congrArg Call.callbacks performed
    · rw [reads]
      exact congrArg (fun last => Reading.exited last _ _) (congrArg Call.parser performed).symm
  | error on macros =>
    rw [finish_callAt works]
    refine (if_neg fun works => good ?_).mpr reads
    exact (congrArg Parser.http_errno (parser_perform _ _ _)).symm.trans works
  | abort => exact absurd good id

/-! ### Header names -/

/-- A character of a name does not look at what is counted. -/
theorem fieldByte_nread (parser : Parser) (nread : Nat) (ch c : UInt8) :
    fieldByte { parser with nread := nread } ch c =
      (fieldByte parser ch c).map fun on => { on with nread := nread } := by
  obtain ⟨type, flags, state, header_state⟩ := parser
  cases header_state <;> rfl

theorem readName_nread (strict : Bool) (parser : Parser) (nread : Nat) (name : List UInt8) :
    readName strict { parser with nread := nread } name =
      (readName strict parser name).map fun on => { on with nread := nread } := by
  induction name generalizing parser with
  | nil => rfl
  | cons ch rest inductionHypothesis =>
    rw [readName, readName, fieldByte_nread]
    cases fieldByte parser ch (TOKEN strict ch) with
    | none => rfl
    | some on => exact inductionHypothesis on

/-- What is counted, when a byte of a header is read. -/
theorem readByte_counted (ch : UInt8) (header : parser.state.parsingHeader = true) :
    readByte strict answer parser ch =
      if HTTP_MAX_HEADER_SIZE < parser.nread + 1 then .refused
      else readCounted strict answer { parser with nread := parser.nread + 1 } ch := by
  rw [readByte, if_pos header]

theorem readBytes_overflow (parser : Parser) (rest : List UInt8)
    (header : parser.state.parsingHeader = true)
    (much : HTTP_MAX_HEADER_SIZE < parser.nread + 1) :
    readBytes strict answer parser (ch :: rest) = .refused := by
  rw [readBytes, readByte_counted ch header, if_pos much, Reading.andThen]

theorem readBytes_counted (strict : Bool) (answer : Int) (parser : Parser) (ch : UInt8)
    (rest : List UInt8) (header : parser.state.parsingHeader = true)
    (small : parser.nread + 1 ≤ HTTP_MAX_HEADER_SIZE) :
    readBytes strict answer parser (ch :: rest) =
      (readCounted strict answer { parser with nread := parser.nread + 1 } ch).andThen rest
        fun parser => readBytes strict answer parser rest := by
  rw [readBytes, readByte_counted ch header, if_neg (Nat.not_lt_of_le small)]

theorem readCounted_field (parser : Parser) (ch : UInt8) (here : parser.state = .s_header_field) :
    readCounted strict answer parser ch = nameByte strict parser ch := by
  unfold readCounted
  rw [here]

theorem readBytes_field (strict : Bool) (answer : Int) (parser : Parser) (ch : UInt8)
    (rest : List UInt8) (here : parser.state = .s_header_field)
    (small : parser.nread + 1 ≤ HTTP_MAX_HEADER_SIZE) :
    readBytes strict answer parser (ch :: rest) =
      (nameByte strict { parser with nread := parser.nread + 1 } ch).andThen rest
        fun parser => readBytes strict answer parser rest := by
  rw [readBytes_counted _ _ _ _ _ (here ▸ rfl) small,
    readCounted_field { parser with nread := parser.nread + 1 } ch here]

/-- A name is read like any other bytes, one after the other. -/
theorem readBytes_name (strict : Bool) (answer : Int) {name : List UInt8} (q : List UInt8)
    (here : parser.state = .s_header_field)
    (inName : parser.header_state.inName = true) (small : parser.nread ≤ HTTP_MAX_HEADER_SIZE)
    (tokens : ∀ ch ∈ name, TOKEN strict ch ≠ 0) (read : readName strict parser name = some on) :
    readBytes strict answer parser (name ++ q) =
      if parser.nread + name.length ≤ HTTP_MAX_HEADER_SIZE then
        (readBytes strict answer { on with nread := parser.nread + name.length } q).behind
          (name.map .byte)
      else .refused := by
  induction name generalizing parser on with
  | nil =>
    rw [← Option.some.inj read, List.length_nil, Nat.add_zero, if_pos small, List.map_nil,
      Reading.behind_nil]
    rfl
  | cons ch rest inductionHypothesis =>
    have header : parser.state.parsingHeader = true := here ▸ rfl
    rw [List.cons_append, List.length_cons]
    by_cases much : HTTP_MAX_HEADER_SIZE < parser.nread + 1
    · rw [readBytes_overflow parser _ header much, if_neg (by omega)]
    obtain ⟨token, tokens⟩ := List.forall_mem_cons.mp tokens
    obtain ⟨index, h_state, byte, inName⟩ := fieldByte_eq inName (TOKEN strict ch)
    rw [readName, byte] at read
    have nameRead : readCounted strict answer { parser with nread := parser.nread + 1 } ch =
        .accepted { parser with
          nread := parser.nread + 1, index := index, header_state := h_state } [.byte ch] := by
      rw [readCounted_field { parser with nread := parser.nread + 1 } ch here, nameByte,
        if_pos token, fieldByte_nread, byte]
      rfl
    have readOn : readName strict { parser with
        nread := parser.nread + 1, index := index, header_state := h_state } rest =
          some { on with nread := parser.nread + 1 } := by
      have same := readName_nread strict
        { parser with index := index, header_state := h_state } (parser.nread + 1) rest
      rw [show readName strict { parser with index := index, header_state := h_state } rest =
        some on from read] at same
      exact same
    rw [readBytes_counted _ _ _ _ _ header (Nat.le_of_not_lt much), nameRead, Reading.andThen]
    rw [@inductionHypothesis { parser with
      nread := parser.nread + 1, index := index, header_state := h_state }
      { on with nread := parser.nread + 1 } here inName (Nat.le_of_not_lt much) tokens readOn]
    simp only
    rw [Nat.add_assoc, Nat.add_comm 1]
    split
    · rw [Reading.behind_behind]
      rfl
    · rfl

/-- The name is read at once, and so is its end. -/
theorem reads_s_header_field (answer : Int) (callbacks : List Callback) {rest : List UInt8}
    (sane : Sane parser) (here : parser.state = .s_header_field)
    (inName : parser.header_state.inName = true) (agrees : register.Agrees (some .field))
    (short : (ch :: rest).length < 2 ^ 31) :
    (s_header_field strict (callAt { parser with nread := parser.nread + 1 } register callbacks
      (ch :: rest)) (ch :: rest)).Reads strict answer parser register callbacks
        (ch :: rest) := by
  obtain ⟨name, q, last, whole, tokens, ends, counted, loop⟩ :=
    @fieldLoop_eq { parser with nread := parser.nread + 1 } strict _ _ inName
      (Nat.le_refl (ch :: rest).length)
  obtain ⟨index, h_state, read, -⟩ := readName_eq strict inName name
  rw [readName_nread, read] at counted
  obtain rfl := Option.some.inj counted
  have reads := readBytes_name strict answer q here inName sane.nread
    tokens read
  rw [← whole] at reads
  have lengths := congrArg List.length whole
  rw [List.length_append] at lengths
  have small := sane.nread
  have limit : HTTP_MAX_HEADER_SIZE = 81920 := rfl
  obtain ⟨span, rfl⟩ := agrees.eq_some
  unfold s_header_field
  rw [callAt, loop]
  cases q with
  | nil =>
    rw [List.length_nil, Nat.add_zero] at lengths
    have positive : 0 < name.length := lengths ▸ Nat.succ_pos _
    have count : parser.nread + 1 + ((ch :: rest).length - 1) = parser.nread + name.length := by
      omega
    refine reads_COUNT_HEADER_SIZE ?_ (fun much => ?_) fun fits => ?_
    · show parser.nread + 1 + ((ch :: rest).length - 1) < 2 ^ 32
      omega
    · rw [reads, if_neg (Nat.not_le_of_lt (count ▸ much))]
    · rw [if_pos (count ▸ fits)] at reads
      refine ⟨_, _, ?_, reads⟩
      rw [play_bytes, List.append_nil, callAt_append, ← whole, ← count]
      rfl
  | cons end_ behind =>
    have count : parser.nread + 1 + ((ch :: rest).length - (end_ :: behind).length) =
        parser.nread + name.length + 1 := by
      omega
    refine reads_COUNT_HEADER_SIZE ?_ (fun much => ?_) fun fits => ?_
    · show parser.nread + 1 + ((ch :: rest).length - (end_ :: behind).length) < 2 ^ 32
      omega
    · have much : HTTP_MAX_HEADER_SIZE < parser.nread + name.length + 1 := count ▸ much
      rw [reads]
      split
      · rw [readBytes_overflow _ behind ?_ much]
        · rfl
        · exact congrArg State.parsingHeader here
      · rfl
    · have fits : parser.nread + name.length + 1 ≤ HTTP_MAX_HEADER_SIZE := count ▸ fits
      rw [if_pos (Nat.le_of_succ_le fits)] at reads
      refine Progress.Reads.trans reads ?_
      rw [play_bytes, List.append_nil]
      have ended : TOKEN strict end_ = 0 := ends end_ rfl
      have byte := readBytes_field strict answer { parser with
        nread := parser.nread + name.length, index := index, header_state := h_state } end_ behind
        here fits
      rw [nameByte, if_neg (not_not.mpr ended)] at byte
      split
      · rename_i colon
        rw [if_pos colon] at byte
        show (Call.finish (callAt { parser with
          nread := parser.nread + 1 + ((ch :: rest).length - (end_ :: behind).length),
          index := index, header_state := h_state } (some (.text .field, span)) callbacks
            (ch :: rest)) _ _).Reads _ _ _ _ _ _
        rw [whole, ← callAt_append, ← whole, count]
        have agrees : Register.Agrees (some (.text .field, span ++ name)) (some .field) := rfl
        have shape := Shape.closes .field
        exact reads_next _ (shape.proper end_ agrees).1 shape.plain byte sane.errno
      · rename_i other
        rw [if_neg other] at byte
        exact reads_fail (by decide) byte

/-! ### Header values -/

/-- A character of a value looks neither at what is counted nor at what its header was. -/
theorem valueByte_with (parser : Parser) (nread : Nat) (header_state h_state : HeaderState)
    (ch : UInt8) :
    (valueByte { parser with nread := nread, header_state := header_state } h_state ch).toOption =
      (valueByte parser h_state ch).toOption.map fun (on, found) =>
        ({ on with nread := nread, header_state := header_state }, found) := by
  unfold valueByte
  cases h_state <;> simp only
  case h_content_length | h_content_length_num =>
    unfold lengthByte
    repeat' split
    all_goals rfl
  case h_connection_keep_alive | h_connection_close | h_connection_upgrade | h_content_length_ws
      | h_matching_connection_token =>
    split <;> rfl
  all_goals rfl

/-- The characters of a value, one after the other. -/
def readValue : Parser → HeaderState → List UInt8 → Option (Parser × HeaderState)
  | parser, h_state, [] => some (parser, h_state)
  | parser, h_state, ch :: rest =>
    if invalid parser.lenient_http_headers ch then none
    else (valueByte parser h_state ch).toOption.bind fun (on, found) => readValue on found rest

theorem readCounted_value (parser : Parser) (ch : UInt8) (here : parser.state = .s_header_value) :
    readCounted strict answer parser ch = textByte parser ch := by
  unfold readCounted
  rw [here]

theorem readBytes_text (strict : Bool) (answer : Int) (parser : Parser) (ch : UInt8)
    (rest : List UInt8) (here : parser.state = .s_header_value)
    (small : parser.nread + 1 ≤ HTTP_MAX_HEADER_SIZE) :
    readBytes strict answer parser (ch :: rest) =
      (textByte { parser with nread := parser.nread + 1 } ch).andThen rest
        fun parser => readBytes strict answer parser rest := by
  rw [readBytes_counted _ _ _ _ _ (here ▸ rfl) small,
    readCounted_value { parser with nread := parser.nread + 1 } ch here]

/-- A value is read like any other bytes, one after the other. -/
theorem readBytes_value (strict : Bool) (answer : Int) {value : List UInt8} (q : List UInt8)
    {h_state : HeaderState} (nread : Nat) (sane : Sane parser)
    (here : parser.state = .s_header_value) (inValue : h_state.inValue = true)
    (small : nread ≤ HTTP_MAX_HEADER_SIZE) (within : ∀ ch ∈ value, ¬ (ch = CR ∨ ch = LF)) :
    readBytes strict answer { parser with nread := nread, header_state := h_state }
        (value ++ q) =
      match readValue parser h_state value with
      | none => .refused
      | some (on, found) =>
        if nread + value.length ≤ HTTP_MAX_HEADER_SIZE then
          (readBytes strict answer { on with
            nread := nread + value.length, header_state := found } q).behind (value.map .byte)
        else .refused := by
  induction value generalizing parser h_state nread with
  | nil =>
    simp only [readValue, List.length_nil, Nat.add_zero, if_pos small, List.map_nil,
      Reading.behind_nil, List.nil_append]
  | cons ch rest inductionHypothesis =>
    obtain ⟨line, within⟩ := List.forall_mem_cons.mp within
    rw [List.cons_append, List.length_cons, readValue]
    by_cases much : HTTP_MAX_HEADER_SIZE < nread + 1
    · rw [readBytes_overflow { parser with nread := nread, header_state := h_state } _
        (congrArg State.parsingHeader here) much]
      split
      · rfl
      · rw [if_neg (by omega)]
    rw [readBytes_text _ _ { parser with nread := nread, header_state := h_state } _ _ here
      (Nat.le_of_not_lt much), textByte,
      if_neg fun cr => line (Or.inl cr), if_neg fun lf => line (Or.inr lf)]
    simp only
    by_cases bad : invalid parser.lenient_http_headers ch = true
    · rw [if_pos bad, if_pos bad]
      rfl
    rw [if_neg bad, if_neg bad]
    have same := valueByte_with parser (nread + 1) h_state h_state ch
    have read := read_valueByte ch sane inValue
    cases byte : valueByte parser h_state ch with
    | error failed =>
      rw [byte] at same
      cases byte : valueByte { parser with nread := nread + 1, header_state := h_state } h_state
          ch with
      | error failed => rfl
      | ok next =>
        rw [byte] at same
        cases same
    | ok next =>
      rw [byte] at same read
      obtain ⟨sane, inValue, -, stays⟩ := read
      cases byte : valueByte { parser with nread := nread + 1, header_state := h_state } h_state
          ch with
      | error failed =>
        rw [byte] at same
        cases same
      | ok counted =>
        rw [byte] at same
        obtain rfl := Option.some.inj same
        refine (congrArg (Reading.behind _) (inductionHypothesis (nread + 1) sane (stays here)
          inValue (Nat.le_of_not_lt much) within)).trans ?_
        show Reading.behind _ _ = match readValue next.1 next.2 rest with
          | none => .refused
          | some (on, found) => _
        cases readValue next.1 next.2 rest with
        | none => rfl
        | some last =>
          simp only
          rw [Nat.add_assoc, Nat.add_comm 1]
          split
          · rw [Reading.behind_behind]
            rfl
          · rfl

/-- A character of a value whose header no longer matters only has to be one of a header. -/
theorem readValue_general (here : parser.state = .s_header_value) (value : List UInt8) :
    readValue parser .h_general value =
      if value.any (invalid parser.lenient_http_headers) then none
      else some (parser, .h_general) := by
  have same : { parser with state := .s_header_value } = parser := by
    rw [← here]
  induction value with
  | nil => rfl
  | cons ch rest inductionHypothesis =>
    rw [readValue, List.any_cons]
    by_cases bad : invalid parser.lenient_http_headers ch = true
    · rw [if_pos bad, bad, Bool.true_or, if_pos rfl]
    · rw [if_neg bad, Bool.eq_false_iff.mpr bad, Bool.false_or, ← inductionHypothesis]
      exact congrArg (fun on => readValue on .h_general rest) same

variable {lenient : Bool} {value q : List UInt8}

/-- What the fast loop skips, unless it stops at its limit. -/
theorem skipGeneral_eq {left : Nat} (room : value.length + min 1 q.length ≤ left)
    (within : ∀ ch ∈ value, ¬ (ch = CR ∨ ch = LF)) (line : ∀ ch ∈ q.head?, ch = CR ∨ ch = LF) :
    if value.any (invalid lenient) then ∃ rest, skipGeneral lenient left (value ++ q) = .error rest
    else skipGeneral lenient left (value ++ q) = .ok q := by
  induction value generalizing left with
  | nil =>
    rw [List.any_nil, if_neg Bool.false_ne_true, List.nil_append]
    cases q with
    | nil => cases left <;> rfl
    | cons ch rest =>
      obtain ⟨left, rfl⟩ : ∃ more, left = more + 1 := by
        refine Nat.exists_eq_add_one.mpr (Nat.lt_of_lt_of_le ?_ room)
        rw [List.length_cons]
        omega
      rw [skipGeneral, if_pos (line ch rfl)]
  | cons ch rest inductionHypothesis =>
    obtain ⟨text, within⟩ := List.forall_mem_cons.mp within
    rw [List.length_cons] at room
    obtain ⟨left, rfl⟩ : ∃ more, left = more + 1 := Nat.exists_eq_add_one.mpr (by omega)
    rw [List.cons_append, List.any_cons, skipGeneral, if_neg text]
    by_cases bad : invalid lenient ch = true
    · rw [bad, Bool.true_or, if_pos rfl]
      exact ⟨_, if_pos rfl⟩
    · rw [Bool.eq_false_iff.mpr bad, Bool.false_or]
      exact inductionHypothesis (by omega) within

/-- Behind its value the loop ends. -/
theorem valueLoop_end {turns : Nat} {h_state : HeaderState} (enough : q.length ≤ turns)
    (line : ∀ ch ∈ q.head?, ch = CR ∨ ch = LF) :
    valueLoop turns parser h_state q = .reached parser h_state q := by
  cases q with
  | nil => cases turns <;> rfl
  | cons ch rest =>
    obtain ⟨turns, rfl⟩ : ∃ more, turns = more + 1 :=
      Nat.exists_eq_add_one.mpr (Nat.lt_of_lt_of_le (Nat.succ_pos _) enough)
    rw [valueLoop, if_pos (line ch rfl)]

/-- The loop of `s_header_value` reads one character after the other, unless it comes to the
limit. -/
theorem valueLoop_eq {turns : Nat} {h_state : HeaderState}
    (enough : (value ++ q).length ≤ turns)
    (room : value.length + min 1 q.length ≤ HTTP_MAX_HEADER_SIZE) (sane : Sane parser)
    (here : parser.state = .s_header_value) (inValue : h_state.inValue = true)
    (within : ∀ ch ∈ value, ¬ (ch = CR ∨ ch = LF)) (line : ∀ ch ∈ q.head?, ch = CR ∨ ch = LF) :
    match readValue parser h_state value with
    | none => ∃ failed rest, valueLoop turns parser h_state (value ++ q) = .failed failed rest
    | some (on, found) => valueLoop turns parser h_state (value ++ q) = .reached on found q := by
  induction value generalizing turns parser h_state with
  | nil => exact valueLoop_end enough line
  | cons ch rest inductionHypothesis =>
    obtain ⟨text, others⟩ := List.forall_mem_cons.mp within
    rw [List.cons_append, List.length_cons] at enough
    obtain ⟨turns, rfl⟩ : ∃ more, turns = more + 1 := Nat.exists_eq_add_one.mpr (by omega)
    by_cases general : h_state = .h_general
    · rw [general, readValue_general here]
      have skipped := @skipGeneral_eq parser.lenient_http_headers (ch :: rest) q
        (min ((rest ++ q).length + 1) HTTP_MAX_HEADER_SIZE)
        (by rw [List.length_cons] at room ⊢; rw [List.length_append] at enough ⊢; omega) within line
      rw [List.cons_append] at skipped ⊢
      by_cases bad : (ch :: rest).any (invalid parser.lenient_http_headers) = true
      · rw [if_pos bad] at skipped ⊢
        obtain ⟨left, skipped⟩ := skipped
        by_cases first : invalid parser.lenient_http_headers ch = true
        · exact ⟨_, _, by rw [valueLoop, if_neg text, if_pos first]⟩
        · exact ⟨_, _, by rw [valueLoop, if_neg text, if_neg first, if_pos rfl, skipped]⟩
      · rw [if_neg bad] at skipped ⊢
        have first : ¬ invalid parser.lenient_http_headers ch = true := by
          rw [List.any_cons, Bool.or_eq_true, not_or] at bad
          exact bad.1
        simp only
        rw [valueLoop, if_neg text, if_neg first, if_pos rfl, skipped]
        refine valueLoop_end ?_ line
        rw [List.length_append] at enough
        omega
    · rw [readValue, List.cons_append]
      by_cases bad : invalid parser.lenient_http_headers ch = true
      · rw [if_pos bad, valueLoop, if_neg text, if_pos bad]
        exact ⟨_, _, rfl⟩
      rw [if_neg bad, valueLoop_cons inValue general text bad]
      have read := read_valueByte ch sane inValue
      cases byte : valueByte parser h_state ch with
      | error failed => exact ⟨_, _, rfl⟩
      | ok next =>
        rw [byte] at read
        obtain ⟨sane, inValue, -, stays⟩ := read
        rw [List.length_cons] at room
        exact inductionHypothesis (Nat.le_of_succ_le_succ enough) (by omega) sane (stays here)
          inValue others

/-- Where the loop ends in front of the end of the data, the line ends. -/
theorem line_of_reached {turns : Nat} {h_state found : HeaderState} {p rest : List UInt8}
    (enough : p.length ≤ turns)
    (reached : valueLoop turns parser h_state p = .reached on found (ch :: rest)) :
    ch = CR ∨ ch = LF := by
  induction turns generalizing parser h_state p with
  | zero =>
    rw [List.length_eq_zero_iff.mp (Nat.le_zero.mp enough)] at reached
    cases reached
  | succ turns inductionHypothesis =>
    cases p with
    | nil => cases reached
    | cons first behind =>
      have fewer : behind.length ≤ turns := Nat.le_of_succ_le_succ enough
      rw [valueLoop] at reached
      split at reached
      · rename_i line
        injection reached with _ _ same
        injection same with same
        exact same ▸ line
      rename_i text
      split at reached
      · cases reached
      rename_i good
      split at reached
      · obtain ⟨left, limit⟩ : ∃ left, min (behind.length + 1) HTTP_MAX_HEADER_SIZE = left + 1 :=
          Nat.exists_eq_add_one.mpr (Nat.lt_min.mpr ⟨Nat.succ_pos _, by decide⟩)
        have suffix := skipGeneral_suffix parser.lenient_http_headers left behind
        rw [limit, skipGeneral, if_neg text, if_neg good] at reached
        cases skipped : skipGeneral parser.lenient_http_headers left behind with
        | ok q =>
          rw [skipped] at reached suffix
          exact inductionHypothesis (suffix.length_le.trans fewer) reached
        | error q =>
          rw [skipped] at reached
          cases reached
      split at reached
      · cases reached
      split at reached
      · exact inductionHypothesis fewer reached
      · cases reached

/-- Data up to the end of a line, and from there on. -/
theorem line_split (p : List UInt8) :
    ∃ value q, p = value ++ q ∧ (∀ ch ∈ value, ¬ (ch = CR ∨ ch = LF)) ∧
      ∀ ch ∈ q.head?, ch = CR ∨ ch = LF := by
  induction p with
  | nil => exact ⟨[], [], rfl, List.forall_mem_nil _, fun _ none => (nomatch none)⟩
  | cons ch rest inductionHypothesis =>
    by_cases line : ch = CR ∨ ch = LF
    · refine ⟨[], ch :: rest, rfl, List.forall_mem_nil _, ?_⟩
      rintro _ ⟨⟩
      exact line
    · obtain ⟨value, q, whole, within, ends⟩ := inductionHypothesis
      exact ⟨ch :: value, q, congrArg (List.cons ch) whole,
        List.forall_mem_cons.mpr ⟨line, within⟩, ends⟩

theorem state_readValue {h_state found : HeaderState} (sane : Sane parser)
    (here : parser.state = .s_header_value) (inValue : h_state.inValue = true)
    (read : readValue parser h_state value = some (on, found)) : on.state = .s_header_value := by
  induction value generalizing parser h_state with
  | nil =>
    cases read
    exact here
  | cons ch rest inductionHypothesis =>
    rw [readValue] at read
    split at read
    · cases read
    have next := read_valueByte ch sane inValue
    cases byte : valueByte parser h_state ch with
    | error failed =>
      rw [byte] at read
      cases read
    | ok last =>
      rw [byte] at read next
      obtain ⟨sane, inValue, -, stays⟩ := next
      exact inductionHypothesis sane (stays here) inValue read

/-- What the machine makes of a value and the byte behind it. -/
theorem readBytes_line (strict : Bool) (answer : Int) {h_state : HeaderState} (nread : Nat)
    (sane : Sane parser) (here : parser.state = .s_header_value)
    (inValue : h_state.inValue = true) (small : nread ≤ HTTP_MAX_HEADER_SIZE)
    (within : ∀ ch ∈ value, ¬ (ch = CR ∨ ch = LF)) :
    readBytes strict answer { parser with nread := nread, header_state := h_state }
        (value ++ q) =
      match readValue parser h_state value with
      | none => .refused
      | some (on, found) =>
        if nread + (value.length + min 1 q.length) ≤ HTTP_MAX_HEADER_SIZE then
          (readBytes strict answer { on with
            nread := nread + value.length, header_state := found } q).behind (value.map .byte)
        else .refused := by
  rw [readBytes_value strict answer q nread sane here inValue small within]
  cases read : readValue parser h_state value with
  | none => rfl
  | some last =>
    simp only
    cases q with
    | nil => rfl
    | cons ch rest =>
      have one : min 1 (ch :: rest).length = 1 := by
        rw [List.length_cons]
        omega
      rw [one, ← Nat.add_assoc]
      by_cases fits : nread + value.length + 1 ≤ HTTP_MAX_HEADER_SIZE
      · rw [if_pos fits, if_pos (Nat.le_of_succ_le fits)]
      · rw [if_neg fits]
        split
        · rw [readBytes_overflow _ rest ?_ (Nat.lt_of_not_le fits)]
          · rfl
          · exact congrArg State.parsingHeader (state_readValue sane here inValue read)
        · rfl

/-- Where the loop of `s_header_value` ends, seen from the machine. -/
theorem valueLoop_reads (strict : Bool) (answer : Int) {p : List UInt8} (sane : Sane parser)
    (here : parser.state = .s_header_value) (inValue : parser.header_state.inValue = true)
    (first : parser.nread + 1 ≤ HTTP_MAX_HEADER_SIZE) :
    match valueLoop p.length { parser with nread := parser.nread + 1 } parser.header_state p with
    | .abort => False
    | .failed failed _ => failed.http_errno ≠ .HPE_OK ∧
        readBytes strict answer parser p = .refused
    | .reached on found r => Sane on ∧ on.state = .s_header_value ∧
        on.nread = parser.nread + 1 ∧ (∀ ch ∈ r.head?, ch = CR ∨ ch = LF) ∧
          ∃ value, p = value ++ r ∧ readBytes strict answer parser p =
            if parser.nread + (value.length + min 1 r.length) ≤ HTTP_MAX_HEADER_SIZE then
              (readBytes strict answer { on with
                nread := parser.nread + value.length, header_state := found } r).behind
                  (value.map .byte)
            else .refused := by
  obtain ⟨value, q, whole, within, line⟩ := line_split p
  have counted : Sane { parser with nread := parser.nread + 1 } := ⟨sane.errno, first, sane.width⟩
  have good := good_valueLoop p.length p counted here inValue
  have reads : readBytes strict answer parser (value ++ q) = _ :=
    @readBytes_line { parser with nread := parser.nread + 1 } value q strict answer
      parser.header_state parser.nread counted here inValue sane.nread within
  rw [← whole] at reads
  have limit : HTTP_MAX_HEADER_SIZE = 81920 := rfl
  have lengths := congrArg List.length whole
  rw [List.length_append] at lengths
  by_cases room : value.length + min 1 q.length ≤ HTTP_MAX_HEADER_SIZE
  · have loop := @valueLoop_eq { parser with nread := parser.nread + 1 } value q p.length
      parser.header_state (whole ▸ Nat.le_refl _) room counted here inValue within line
    rw [← whole] at loop
    cases read : readValue { parser with nread := parser.nread + 1 } parser.header_state value with
    | none =>
      rw [read] at loop reads
      obtain ⟨failed, rest, loop⟩ := loop
      rw [loop] at good ⊢
      exact ⟨good.1, reads⟩
    | some last =>
      rw [read] at loop reads
      have loop : valueLoop p.length { parser with nread := parser.nread + 1 }
        parser.header_state p = .reached last.1 last.2 q := loop
      rw [loop] at good ⊢
      exact ⟨good.1, good.2.2.2.1, good.2.2.1, line, value, whole, reads⟩
  · have refused : readBytes strict answer parser p = .refused := by
      rw [reads]
      split
      · rfl
      · rw [if_neg (by omega)]
    cases scanned : valueLoop p.length { parser with nread := parser.nread + 1 }
        parser.header_state p with
    | abort =>
      rw [scanned] at good
      exact good
    | failed failed r =>
      rw [scanned] at good
      exact ⟨good.1, refused⟩
    | reached last found r =>
      rw [scanned] at good
      obtain ⟨sane, -, nread, here, text, split⟩ := good
      have ends : ∀ ch ∈ r.head?, ch = CR ∨ ch = LF := by
        cases r with
        | nil => exact fun _ none => nomatch none
        | cons ch rest =>
          rintro _ ⟨⟩
          exact line_of_reached (Nat.le_refl _) scanned
      refine ⟨sane, here, nread, ends, text, split.symm, ?_⟩
      rw [refused, if_neg ?_]
      cases r with
      | nil =>
        have all := congrArg List.length split
        rw [List.append_nil] at all
        rw [List.length_nil]
        omega
      | cons ch rest =>
        have longer : value.length ≤ text.length := by
          rcases List.append_eq_append_iff.mp (whole.symm.trans split.symm) with
            ⟨more, rfl, -⟩ | ⟨more, rfl, same⟩
          · rw [List.length_append]
            exact Nat.le_add_right _ _
          · cases more with
            | nil => rw [List.append_nil]
            | cons other behind =>
              injection same with same
              exact absurd (same ▸ ends ch rfl)
                (within other (List.mem_append_right _ List.mem_cons_self))
        rw [List.length_cons]
        omega

/-- The value is read at once, and so is its end. -/
theorem reads_s_header_value (strict : Bool) (answer : Int) (callbacks : List Callback)
    {rest : List UInt8} (sane : Sane parser) (here : parser.state = .s_header_value)
    (inValue : parser.header_state.inValue = true) (agrees : register.Agrees (some .value))
    (first : parser.nread + 1 ≤ HTTP_MAX_HEADER_SIZE) (short : (ch :: rest).length < 2 ^ 31) :
    (s_header_value (callAt { parser with nread := parser.nread + 1 } register callbacks
      (ch :: rest)) (ch :: rest)).Reads strict answer parser register callbacks
        (ch :: rest) := by
  have scan := @valueLoop_reads parser strict answer (ch :: rest) sane here inValue first
  have limit : HTTP_MAX_HEADER_SIZE = 81920 := rfl
  obtain ⟨span, rfl⟩ := agrees.eq_some
  unfold s_header_value
  simp only [callAt]
  cases scanned : valueLoop (ch :: rest).length { parser with nread := parser.nread + 1 }
      parser.header_state (ch :: rest) with
  | abort =>
    rw [scanned] at scan
    exact absurd scan id
  | failed failed r =>
    rw [scanned] at scan
    exact (if_neg scan.1).mpr scan.2
  | reached on found r =>
    rw [scanned] at scan
    obtain ⟨sane, here, nread, line, value, whole, reads⟩ := scan
    have lengths := congrArg List.length whole
    rw [List.length_append] at lengths
    cases r with
    | nil =>
      rw [List.length_nil, Nat.min_zero, Nat.add_zero] at reads
      rw [List.length_nil, Nat.add_zero] at lengths
      have count : on.nread + ((ch :: rest).length - 1) = parser.nread + value.length := by
        rw [List.length_cons] at lengths ⊢
        omega
      refine reads_COUNT_HEADER_SIZE ?_ (fun much => ?_) fun fits => ?_
      · show on.nread + ((ch :: rest).length - 1) < 2 ^ 32
        omega
      · rw [reads, if_neg (Nat.not_le_of_lt (count ▸ much))]
      · rw [if_pos (count ▸ fits)] at reads
        refine ⟨_, _, ?_, reads⟩
        rw [play_bytes, List.append_nil, callAt_append, ← whole, ← count]
        rfl
    | cons last behind =>
      have one : min 1 (last :: behind).length = 1 := by
        rw [List.length_cons]
        omega
      have count : on.nread + ((ch :: rest).length - (last :: behind).length) =
          parser.nread + (value.length + 1) := by
        omega
      have counted : on.nread + ((ch :: rest).length - (last :: behind).length) < 2 ^ 32 := by
        have small := sane.nread
        omega
      rw [one] at reads
      have overflow (much : HTTP_MAX_HEADER_SIZE <
          on.nread + ((ch :: rest).length - (last :: behind).length)) :
          readBytes strict answer parser (ch :: rest) = .refused := by
        rw [reads, if_neg (Nat.not_le_of_lt (count ▸ much))]
      have ends (fits : on.nread + ((ch :: rest).length - (last :: behind).length) ≤
          HTTP_MAX_HEADER_SIZE) (state : State)
          (ended : textByte { on with
            nread := parser.nread + value.length + 1, header_state := found } last =
              .accepted { on with
                state := state, nread := parser.nread + value.length + 1, header_state := found }
                  [.use (.CALLBACK_DATA (.text .value)), .byte last]) :
          (Progress.next (callAt { on with
            state := state
            header_state := found
            nread := on.nread + ((ch :: rest).length - (last :: behind).length) } none
              (callbacks ++ [.headerValue (span ++ value)]) behind) behind).Reads strict answer
            parser (some (.text .value, span)) callbacks (ch :: rest) := by
        rw [if_pos (count ▸ fits)] at reads
        rw [readBytes_text strict answer { on with
          nread := parser.nread + value.length, header_state := found } last behind here
          (by simp only; omega), ended, Reading.andThen, Reading.behind_behind] at reads
        refine ⟨_, _, ?_, reads⟩
        rw [play_append, play_bytes, count]
        simp only [Register.play, Register.perform, if_true]
        rfl
      simp only
      split
      · rename_i cr
        have fired := fire_append { on with
          state := .s_header_almost_done, header_state := found } callbacks (.text .value) span
            value (last :: behind)
        rw [← whole, callAt] at fired
        rw [CALLBACK_DATA_of_works sane.errno, fired]
        refine reads_COUNT_HEADER_SIZE counted overflow fun fits => ?_
        exact ends fits .s_header_almost_done (by rw [textByte, if_pos cr])
      · rename_i other
        have lf : last = LF := (line last rfl).resolve_left other
        refine reads_COUNT_HEADER_SIZE counted overflow fun fits => ?_
        have fired := fire_append { on with
          state := .s_header_almost_done
          header_state := found
          nread := on.nread + ((ch :: rest).length - (last :: behind).length) } callbacks
            (.text .value) span value (last :: behind)
        rw [← whole, callAt] at fired
        rw [CALLBACK_DATA_of_works sane.errno, fired, finish_callAt, s_header_almost_done,
          if_neg (not_not.mpr lf)]
        swap
        · exact sane.errno
        exact ends fits .s_header_value_lws (by rw [textByte, if_neg other, if_pos lf])

/-! ### Bodies -/

theorem readByte_identity (parser : Parser) (ch : UInt8) (here : parser.state = .s_body_identity) :
    readByte strict answer parser ch = countedByte strict parser ch := by
  unfold readByte readCounted
  rw [here]
  rfl

theorem readByte_chunk (parser : Parser) (ch : UInt8) (here : parser.state = .s_chunk_data) :
    readByte strict answer parser ch = chunkByte parser ch := by
  unfold readByte readCounted
  rw [here]
  rfl

/-- A byte in front of the last one is only counted. -/
theorem readByte_body (ch : UInt8)
    (here : parser.state = .s_body_identity ∨ parser.state = .s_chunk_data)
    (more : 1 < parser.content_length) :
    readByte strict answer parser ch =
      .accepted { parser with content_length := parser.content_length - 1 } (bodyByte ch) := by
  have left : parser.content_length - 1 ≠ 0 := by omega
  rcases here with here | here
  · rw [readByte_identity parser ch here]
    exact if_neg left
  · rw [readByte_chunk parser ch here, chunkByte, if_neg left, ← here]

theorem readBytes_body (strict : Bool) (answer : Int) {bytes : List UInt8} (q : List UInt8)
    (here : parser.state = .s_body_identity ∨ parser.state = .s_chunk_data)
    (more : bytes.length < parser.content_length) :
    readBytes strict answer parser (bytes ++ q) =
      (readBytes strict answer
        { parser with content_length := parser.content_length - bytes.length } q).behind
          (bytes.flatMap bodyByte) := by
  induction bytes generalizing parser with
  | nil => exact (Reading.behind_nil _).symm
  | cons ch rest inductionHypothesis =>
    rw [List.length_cons] at more
    rw [List.cons_append, readBytes, readByte_body ch here (by omega), Reading.andThen,
      @inductionHypothesis { parser with content_length := parser.content_length - 1 } here
        (show rest.length < parser.content_length - 1 by omega),
      Reading.behind_behind, List.flatMap_cons, List.length_cons]
    simp only
    rw [Nat.sub_sub, Nat.add_comm 1]

/-- The bytes of a body are read into its mark. -/
theorem play_body {span : List UInt8} (marked : register.getD (.body, []) = (.body, span))
    (ch : UInt8) (rest : List UInt8) :
    register.play ((ch :: rest).flatMap bodyByte) = (some (.body, span ++ ch :: rest), []) := by
  induction rest generalizing register span ch with
  | nil =>
    show Register.play _ (bodyByte ch ++ []) = _
    simp only [bodyByte, List.append_nil, Register.play, Register.perform, marked]
    rfl
  | cons next rest inductionHypothesis =>
    rw [List.flatMap_cons, play_append]
    have first : register.play (bodyByte ch) = (some (.body, span ++ [ch]), []) := by
      simp only [bodyByte, Register.play, Register.perform, marked]
      rfl
    rw [first, inductionHypothesis (show Option.getD (some (.body, span ++ [ch])) _ = _ from rfl)
      next, List.append_cons span ch (next :: rest)]
    rfl

theorem reads_s_body_identity_eof (strict : Bool) (answer : Int) (callbacks : List Callback)
    (ch : UInt8) (rest : List UInt8) (here : parser.state = .s_body_identity_eof)
    (fits : register.Fits parser.state) :
    (s_body_identity_eof (callAt parser register callbacks (ch :: rest)) (ch :: rest)).Reads
      strict answer parser register callbacks (ch :: rest) := by
  obtain ⟨span, marked⟩ := fits.body (here ▸ rfl)
  have reads (bytes : List UInt8) :
      readBytes strict answer parser bytes = .accepted parser (bytes.flatMap bodyByte) := by
    induction bytes with
    | nil => rfl
    | cons ch rest inductionHypothesis =>
      have byte : readByte strict answer parser ch = .accepted parser (bodyByte ch) := by
        unfold readByte readCounted
        rw [here]
        rfl
      rw [readBytes, byte, Reading.andThen, inductionHypothesis]
      rfl
  refine ⟨parser, (ch :: rest).flatMap bodyByte, ?_, ?_⟩
  · rw [play_body marked, List.append_nil, callAt_append, List.append_nil,
      perform_callAt fun mark same set found => ?_]
    · rw [Register.perform, marked, List.append_nil]
    · obtain rfl := Option.mem_def.mp found
      injection same with same
      rw [← same]
      exact congrArg Prod.fst marked
  · rw [reads, readBytes, Reading.behind, List.append_nil]

theorem play_read {span : List UInt8} (marked : register.getD (.body, []) = (.body, span))
    (read : List UInt8) (last : UInt8) :
    register.play (read.flatMap bodyByte ++ bodyByte last) =
      (some (.body, span ++ read ++ [last]), []) := by
  have whole : read.flatMap bodyByte ++ bodyByte last = (read ++ [last]).flatMap bodyByte := by
    rw [List.flatMap_append, List.flatMap_singleton]
  rw [whole, List.append_assoc]
  cases read with
  | nil => exact play_body marked last []
  | cons ch rest => exact play_body marked ch (rest ++ [last])

theorem reads_s_chunk_data (strict : Bool) (answer : Int) (callbacks : List Callback)
    {rest : List UInt8} (sound : Sound 0 parser) (here : parser.state = .s_chunk_data)
    (fits : register.Fits parser.state) :
    (s_chunk_data (callAt parser register callbacks (ch :: rest)) (ch :: rest)).Reads
      strict answer parser register callbacks (ch :: rest) := by
  have counted := sound.fits
  unfold Parser.Fits at counted
  simp only [here] at counted
  obtain ⟨chunked, some, less⟩ := counted
  obtain ⟨span, marked⟩ := fits.body (here ▸ rfl)
  obtain ⟨read, last, behind, whole, length, taken⟩ := takeBody_eq ch rest callbacks marked some
  have passes : ¬ ((!parser.flags.F_CHUNKED) = true ∨ parser.content_length = 0 ∨
      parser.content_length = ULLONG_MAX) := by
    rw [chunked]
    exact not_or.mpr ⟨by decide, not_or.mpr ⟨some, less.ne⟩⟩
  have more : read.length < parser.content_length := by omega
  have reads := readBytes_body strict answer (last :: behind) (Or.inr here) more
  rw [readBytes, readByte_chunk { parser with
    content_length := parser.content_length - read.length } last here, chunkByte, Reading.andThen,
    Reading.behind_behind,
    ← whole] at reads
  unfold s_chunk_data
  rw [parser_callAt, if_neg passes, taken]
  refine ⟨_, _, ?_, reads⟩
  rw [play_read marked, List.append_nil]
  exact (callAt_push _ (Option.some (.body, span ++ read)) callbacks last behind).symm

theorem reads_s_body_identity (strict : Bool) (answer : Int) (callbacks : List Callback)
    {rest : List UInt8} (sound : Sound 0 parser) (here : parser.state = .s_body_identity)
    (fits : register.Fits parser.state) :
    (s_body_identity strict (callAt parser register callbacks (ch :: rest)) (ch :: rest)).Reads
      strict answer parser register callbacks (ch :: rest) := by
  have sane := sound.toSane
  have counted := sound.fits
  unfold Parser.Fits at counted
  simp only [here] at counted
  obtain ⟨some, less⟩ := counted
  obtain ⟨span, marked⟩ := fits.body (here ▸ rfl)
  obtain ⟨read, last, behind, whole, length, taken⟩ := takeBody_eq ch rest callbacks marked some
  have more : read.length < parser.content_length := by omega
  have reads := readBytes_body strict answer (last :: behind) (Or.inl here) more
  rw [readBytes, readByte_identity { parser with
    content_length := parser.content_length - read.length } last here, countedByte,
    ← whole] at reads
  have left : parser.content_length - read.length - 1 =
      parser.content_length - (read.length + 1) := Nat.sub_sub _ _ _
  unfold s_body_identity
  rw [parser_callAt, if_neg (not_or.mpr ⟨some, less.ne⟩), taken]
  simp only [left] at reads ⊢
  split
  · rename_i done
    have done : parser.content_length - (read.length + 1) = 0 := done
    have fired (on : Parser) : List.foldl (fun call => Call.perform call (last :: behind))
        (callAt on (Option.some (.body, span ++ read)) callbacks (last :: behind))
        [.CALLBACK_DATA_ .body, .CALLBACK_NOTIFY .messageComplete] =
          callAt on none (callbacks ++ [.body (span ++ read ++ [last]), .messageComplete])
            behind := by
      have proper : Register.Proper last (Option.some (.body, span ++ read))
          [.CALLBACK_DATA_ .body, .CALLBACK_NOTIFY .messageComplete] :=
        ⟨fun _ same => (nomatch same), fun _ same => (nomatch same), trivial⟩
      rw [performAll_callAt proper]
      simp only [Register.performAll, Register.perform, if_true]
      rfl
    have played : register.play (read.flatMap bodyByte ++ (bodyByte last ++
        [.use (.CALLBACK_DATA .body), .use (.CALLBACK_NOTIFY .messageComplete)])) =
          (none, [.body (span ++ read ++ [last]), .messageComplete]) := by
      rw [← List.append_assoc, play_append, play_read marked]
      simp only [Register.play, Register.perform, if_true]
      rfl
    rw [if_pos done] at reads
    rw [finish_callAt]
    swap
    · exact sane.errno
    unfold s_message_done
    rw [parser_callAt]
    by_cases upgrade : parser.upgrade = true
    · rw [if_pos upgrade] at reads ⊢
      refine (if_pos ?_).mpr ⟨read.flatMap bodyByte ++ (bodyByte last ++
        [.use (.CALLBACK_DATA .body), .use (.CALLBACK_NOTIFY .messageComplete)]), ?_, ?_⟩
      · exact (congrArg (fun call => call.parser.http_errno) (fired _)).trans sane.errno
      · exact (congrArg Call.callbacks (fired _)).trans (congrArg (callbacks ++ ·)
          (congrArg Prod.snd played).symm)
      · rw [reads]
        exact congrArg (fun last => Reading.exited last _ _)
          (congrArg Call.parser (fired _)).symm
    · rw [if_neg upgrade] at reads ⊢
      rw [Reading.andThen, Reading.behind_behind] at reads
      refine ⟨_, _, ?_, reads⟩
      rw [played]
      exact fired _
  · rename_i done
    have done : ¬ parser.content_length - (read.length + 1) = 0 := done
    rw [if_neg done, Reading.andThen, Reading.behind_behind] at reads
    refine ⟨_, _, ?_, reads⟩
    rw [play_read marked, List.append_nil]
    exact (callAt_push _ (Option.some (.body, span ++ read)) callbacks last behind).symm

/-! ### Calls -/

theorem readCounted_alone (parser : Parser) (ch : UInt8)
    (alone : parser.state.readsAhead = false) :
    readCounted strict answer parser ch =
      (switchByte strict answer parser ch).reading ch := by
  unfold readCounted
  split
  · rename_i here
    rw [here] at alone
    cases alone
  · rename_i here
    rw [here] at alone
    cases alone
  · rename_i here
    rw [here] at alone
    cases alone
  · rename_i here
    rw [here] at alone
    cases alone
  · rename_i here
    rw [here] at alone
    cases alone
  · rfl

/-- The cases that look at one byte, also where the mark of the body is left to be fired. -/
theorem reads_switchByte {counted : Parser} {rest : List UInt8} (callbacks : List Callback)
    (sound : Sound 1 counted) (alone : counted.state.readsAhead = false)
    (fits : register.Fits counted.state)
    (reads : readBytes strict answer parser (ch :: rest) =
      ((switchByte strict answer counted ch).reading ch).andThen rest
        fun parser => readBytes strict answer parser rest) :
    ((callAt counted register callbacks (ch :: rest)).finish (ch :: rest)
      (switchByte strict answer counted ch)).Reads strict answer parser register callbacks
        (ch :: rest) := by
  by_cases body : counted.state.readsBody = true
  · have here : counted.state = .s_chunk_data_almost_done := by
      cases here : counted.state <;> rw [here] at body alone <;>
        first | rfl | exact absurd body (by decide) | exact absurd alone (by decide)
    obtain ⟨chunked, done⟩ : counted.flags.F_CHUNKED = true ∧ counted.content_length = 0 := by
      have relies := sound.fits
      unfold Parser.Fits at relies
      simpa only [here] using relies
    have case_ : switchByte strict answer counted ch =
        STRICT_CHECK strict (ch ≠ CR) counted
          (.next { counted with state := .s_chunk_data_done } [.CALLBACK_DATA .body]) := by
      unfold switchByte chunkCase
      simp only [here]
      rw [chunked, if_neg (by decide), if_neg (fun other => other done)]
    rw [case_] at reads ⊢
    unfold STRICT_CHECK at reads ⊢
    split
    · rename_i fails
      rw [if_pos fails] at reads
      rw [finish_callAt sound.errno]
      show (Call.fail (callAt counted register callbacks (ch :: rest)) (ch :: rest)
        .HPE_STRICT).Reads _ _ _ _ _ _
      exact reads_fail (by decide) reads
    · rename_i passes
      rw [if_neg passes] at reads
      exact reads_next [.CALLBACK_DATA .body] ⟨fun _ same => (nomatch same), trivial⟩
        Shape.body.plain reads sound.errno
  · exact reads_finish (good_switchByte sound alone)
      (fits.agrees (Bool.eq_false_iff.mpr body)) reads sound.errno

/-- A turn of the loop reads what the machine reads. -/
theorem reads_turn (strict : Bool) (answer : Int) (callbacks : List Callback) {rest : List UInt8}
    (sound : Sound 0 parser) (fits : register.Fits parser.state)
    (short : (ch :: rest).length < 2 ^ 31) :
    (turn strict answer (callAt parser register callbacks (ch :: rest)) ch rest).Reads
      strict answer parser register callbacks (ch :: rest) := by
  have limit : HTTP_MAX_HEADER_SIZE = 81920 := rfl
  have sane := sound.toSane
  have small := sane.nread
  have relies := sound.fits
  unfold Parser.Fits at relies
  unfold turn
  rw [parser_callAt]
  split
  · rename_i header
    refine reads_COUNT_HEADER_SIZE (by rw [parser_callAt]; omega)
      (readBytes_overflow parser rest header) fun first => ?_
    rw [parser_callAt] at first
    show (switch strict answer (callAt { parser with nread := parser.nread + 1 } register
      callbacks (ch :: rest)) ch rest).Reads _ _ _ _ _ _
    unfold switch
    rw [parser_callAt]
    split
    · rename_i here
      have here : parser.state = .s_header_field := here
      have agrees := fits.agrees (here ▸ rfl)
      rw [here] at agrees
      simp only [here] at relies
      exact reads_s_header_field answer callbacks sane here relies agrees short
    · rename_i here
      have here : parser.state = .s_header_value := here
      have agrees := fits.agrees (here ▸ rfl)
      rw [here] at agrees
      simp only [here] at relies
      exact reads_s_header_value strict answer callbacks sane here relies agrees first short
    · rename_i here
      have here : parser.state = .s_body_identity := here
      rw [here] at header
      cases header
    · rename_i here
      have here : parser.state = .s_body_identity_eof := here
      rw [here] at header
      cases header
    · rename_i here
      have here : parser.state = .s_chunk_data := here
      rw [here] at header
      cases header
    · have alone : parser.state.readsAhead = false := by
        cases here : parser.state <;> first | rfl | exact absurd here (by assumption)
      refine reads_switchByte callbacks (sound.counts first fun _ => rfl) alone fits ?_
      rw [readBytes_counted _ _ _ _ _ header first,
        readCounted_alone { parser with nread := parser.nread + 1 } ch alone]
  · rename_i body
    have byte : readBytes strict answer parser (ch :: rest) =
        (readCounted strict answer parser ch).andThen rest
          fun parser => readBytes strict answer parser rest := by
      rw [readBytes, readByte, if_neg body]
    unfold switch
    rw [parser_callAt]
    split
    · rename_i here
      exact absurd (here ▸ rfl) body
    · rename_i here
      exact absurd (here ▸ rfl) body
    · rename_i here
      exact reads_s_body_identity strict answer callbacks sound here fits
    · rename_i here
      exact reads_s_body_identity_eof strict answer callbacks ch rest here fits
    · rename_i here
      exact reads_s_chunk_data strict answer callbacks sound here fits
    · have alone : parser.state.readsAhead = false := by
        cases here : parser.state <;> first | rfl | exact absurd here (by assumption)
      refine reads_switchByte callbacks (sound.restart fun here => body (here ▸ rfl)) alone fits ?_
      rw [byte, readCounted_alone _ _ alone]

/-- The register is what the marks say. -/
theorem marksOf_inj {first second : Register} {p : List UInt8}
    (same : marksOf first p = marksOf second p) : first = second := by
  cases first with
  | none =>
    cases second with
    | none => rfl
    | some set => exact absurd (congrFun same set.1) fun none => nomatch none.trans (if_pos rfl)
  | some set =>
    have at_ := congrFun same set.1
    rw [show marksOf (some set) p set.1 = some (set.2 ++ p) from if_pos rfl] at at_
    cases second with
    | none => cases at_
    | some other =>
      by_cases equal : other.1 = set.1
      · rw [show marksOf (some other) p set.1 = some (other.2 ++ p) from if_pos equal] at at_
        have spans : set.2 = other.2 := List.append_cancel_right (Option.some.inj at_)
        exact congrArg some (Prod.ext equal.symm spans)
      · rw [show marksOf (some other) p set.1 = none from if_neg equal] at at_
        cases at_

/-- The loop reads what the machine reads. -/
theorem reads_loop (strict : Bool) (answer : Int) {turns : Nat} {p : List UInt8}
    (sound : Sound 0 parser) (fits : register.Fits parser.state) (enough : p.length ≤ turns)
    (short : p.length < 2 ^ 31) :
    (loop strict (fun _ => answer) turns (callAt parser register callbacks p) p).Reads strict answer
      parser register callbacks p := by
  induction turns generalizing parser register callbacks p with
  | zero =>
    rw [List.length_eq_zero_iff.mp (Nat.le_zero.mp enough)]
    exact ⟨parser, [], by rw [Register.play, List.append_nil], (Reading.behind_nil _).symm⟩
  | succ turns inductionHypothesis =>
    cases p with
    | nil => exact ⟨parser, [], by rw [Register.play, List.append_nil], (Reading.behind_nil _).symm⟩
    | cons ch rest =>
      have step := reads_turn strict answer callbacks sound fits short
      have relies := sound_turn strict answer callbacks ch rest sound fits
      rw [loop]
      cases turned : turn strict answer (callAt parser register callbacks (ch :: rest)) ch
          rest with
      | next call q =>
        rw [turned] at step relies
        obtain ⟨on, steps, rfl, reads⟩ := step
        obtain ⟨⟨next, marked, fired, same, sound, fits⟩, fewer⟩ := relies
        obtain rfl : on = next := congrArg Call.parser same
        obtain rfl := marksOf_inj (congrArg Call.marks same)
        exact Progress.Reads.trans reads (inductionHypothesis sound fits
          (Nat.le_of_lt_succ (fewer.trans_le enough)) (fewer.trans short))
      | stop call q =>
        rw [turned] at step
        exact step
      | abort =>
        rw [turned] at step
        exact step

/-- The callback of the mark that is left over. -/
def Register.leftover : Register → List Callback
  | none => []
  | some (mark, span) => [mark.callback span]

theorem leftover_none (parser : Parser) (callbacks : List Callback) (marks : List Mark) :
    marks.foldl (fun call mark => call.fire [] mark) (callAt parser none callbacks []) =
      callAt parser none callbacks [] := by
  induction marks with
  | nil => rfl
  | cons mark rest inductionHypothesis => exact inductionHypothesis

theorem leftover_some (parser : Parser) (callbacks : List Callback) (set : Mark)
    (span : List UInt8) {marks : List Mark} (member : set ∈ marks) :
    marks.foldl (fun call mark => call.fire [] mark)
        (callAt parser (some (set, span)) callbacks []) =
      callAt parser none (callbacks ++ [set.callback span]) [] := by
  induction marks with
  | nil => cases member
  | cons mark rest inductionHypothesis =>
    have fired := @fire_callAt parser (some (set, span)) callbacks [] [] mark
    rw [List.append_nil] at fired
    rw [List.foldl_cons, fired]
    simp only
    by_cases same : set = mark
    · rw [if_pos same, leftover_none, List.append_nil, same]
    · rw [if_neg same]
      exact inductionHypothesis ((List.mem_cons.mp member).resolve_left same)

theorem callbacks_leftover (parser : Parser) (register : Register) (callbacks : List Callback) :
    (allMarks.foldl (fun call mark => call.fire [] mark)
      (callAt parser register callbacks [])).callbacks = callbacks ++ register.leftover := by
  cases register with
  | none =>
    rw [leftover_none]
    exact (List.append_nil _).symm
  | some set =>
    obtain ⟨mark, span⟩ := set
    have member : mark ∈ allMarks := by
      rcases mark with (_ | _ | _ | _) | _ <;> decide
    rw [leftover_some parser callbacks mark span member]
    rfl

/-- What a call returns, when its bytes are read like this. -/
def Reading.Returned (marked : Register) (length : Nat) (reading : Reading)
    (returned : Option (Parser × List Callback × Nat)) : Prop :=
  match reading with
  | accepted last steps =>
    returned = some (last, (marked.play steps).2 ++ (marked.play steps).1.leftover, length)
  | exited last steps rest => returned = some (last, (marked.play steps).2, length - rest.length)
  | refused => ∃ failed callbacks parsed, returned = some (failed, callbacks, parsed) ∧
      failed.http_errno ≠ .HPE_OK

/-- A call does what the machine does with its bytes. -/
theorem returned_execute (strict : Bool) (answer : Int) {data : List UInt8} (sound : Sound 0 parser)
    (some : data ≠ []) (short : data.length < 2 ^ 31) :
    (readBytes strict answer parser data).Returned parser.state.marked data.length
      (http_parser_execute strict (fun _ => answer) parser data) := by
  have reads := @reads_loop parser parser.state.marked [] strict answer data.length data sound
    (fits_marked _) (Nat.le_refl _) short
  have ends := sound_loop strict (fun _ => answer) data.length
    ⟨parser, parser.state.marked, [], rfl, sound, fits_marked _⟩ (Nat.le_refl data.length)
  unfold http_parser_execute
  rw [if_neg (not_not.mpr sound.errno), if_neg some, ← callAt_marked]
  cases looped : loop strict (fun _ => answer) data.length
      (callAt parser parser.state.marked [] data) data with
  | next call q =>
    rw [looped] at reads ends
    obtain ⟨on, steps, rfl, reads⟩ := reads
    obtain ⟨⟨next, register, callbacks, same, relies, -⟩, rfl⟩ := ends
    obtain rfl : on = next := congrArg Call.parser same
    rw [reads, readBytes, Reading.behind, List.append_nil]
    refine ((if_neg (Nat.not_lt_of_le (length_marks _ []))).trans
      (if_neg (not_not.mpr relies.errno))).trans ?_
    simp only
    rw [callbacks_leftover, parser_leftover, parser_callAt, List.nil_append]
  | stop call q =>
    rw [looped] at reads
    unfold Progress.Reads at reads
    simp only at reads
    split at reads
    · obtain ⟨steps, same, reads⟩ := reads
      rw [List.nil_append] at same
      rw [reads, Reading.Returned, ← same]
    · rename_i fails
      rw [reads]
      exact ⟨_, _, _, rfl, fails⟩
  | abort =>
    rw [looped] at ends
    exact absurd ends id

/-- Whatever calls came before, as long as they found no error, a call on fewer bytes than an `int`
counts does what the machine does that reads one byte after the other: it stops where the machine
stops, leaves the parser as the machine does, and fires the callbacks of the machine's marks. -/
theorem execute_reads_bytes (strict : Bool) (type : ParserType)
    (calls : List ((Nat → Int) × List UInt8)) (parser : Parser)
    (reached : executeAll strict (http_parser_init type) calls = some parser)
    (works : parser.http_errno = .HPE_OK) (answer : Int) (data : List UInt8)
    (given : data ≠ []) (short : data.length < 2 ^ 31) :
    (readBytes strict answer parser data).Returned parser.state.marked data.length
      (http_parser_execute strict (fun _ => answer) parser data) := by
  obtain ⟨last, same, ready⟩ := Parser.Ready.executeAll
    (fun _ => sound_http_parser_init type) strict calls
  obtain rfl := Option.some.inj (reached.symm.trans same)
  exact returned_execute strict answer (ready works) given short

/-- The second half of a request, whose first half ends inside of its url. -/
theorem execute_reads_bytes_half :
    ∃ parser, executeAll true (http_parser_init .HTTP_REQUEST) [(fun _ => 0, bytesOf "GET /in")] =
        some parser ∧ parser.http_errno = .HPE_OK ∧
      (readBytes true 0 parser (bytesOf "dex HTTP/1.1\r\nA: b\r\n\r\n")).Returned
        parser.state.marked (bytesOf "dex HTTP/1.1\r\nA: b\r\n\r\n").length
          (http_parser_execute true (fun _ => 0) parser
            (bytesOf "dex HTTP/1.1\r\nA: b\r\n\r\n")) := by
  have reached : executeAll true (http_parser_init .HTTP_REQUEST)
      [(fun _ => 0, bytesOf "GET /in")] = some _ := (Option.some_get (by decide +kernel)).symm
  have works : (Option.get (executeAll true (http_parser_init .HTTP_REQUEST)
      [(fun _ => 0, bytesOf "GET /in")]) (by decide +kernel)).http_errno = .HPE_OK := by
    decide +kernel
  exact ⟨_, reached, works, execute_reads_bytes true .HTTP_REQUEST _ _ reached works 0 _
    (by decide +kernel) (by decide +kernel)⟩

end Http

end Nattan
