/-
This file follows the marks through a call of `http_parser_execute` and proves that no
sequence of calls fails an assertion or reads behind the end of a text.

At most one mark is set at a time, so the marks are a register: the mark with the bytes read
since. A turn of the loop keeps what the state relies on and what the register has to be
there, and it reads at least one byte.
-/

import Nattan.HttpSound

namespace Nattan

namespace Http

variable {strict : Bool} {answer : Int} {parser : Parser} {state : State} {ch : UInt8}
  {before : Option TextKind}

/-! ### Marks -/

/-- The mark that is set, with the bytes since. -/
abbrev Register := Option (Mark × List UInt8)

def marksOf (register : Register) (p : List UInt8) (mark : Mark) : Option (List UInt8) :=
  match register with
  | none => none
  | some (set, span) => if set = mark then some (span ++ p) else none

/-- The states in which the body can be marked. -/
def State.readsBody : State → Bool
  | s_body_identity | s_body_identity_eof | s_chunk_data | s_chunk_data_almost_done => true
  | _ => false

/-- The mark is the one of the state. -/
def Register.Fits (register : Register) (state : State) : Prop :=
  match register with
  | none => state.open = none
  | some (.text kind, _) => state.open = some kind
  | some (.body, _) => state.readsBody = true

namespace Register

/-- What a macro does to the mark, and the callbacks it fires. -/
def perform (register : Register) (ch : UInt8) : Macro → Register × List Callback
  | .MARK mark => (some (register.getD (mark, [])), [])
  | .CALLBACK_DATA mark =>
    match register with
    | some (set, span) => if set = mark then (none, [mark.callback span]) else (register, [])
    | none => (none, [])
  | .CALLBACK_DATA_ mark =>
    match register with
    | some (set, span) =>
      if set = mark then (none, [mark.callback (span ++ [ch])]) else (register, [])
    | none => (none, [])
  | .CALLBACK_NOTIFY notice => (register, [notice.callback])

def performAll (register : Register) (ch : UInt8) : List Macro → Register × List Callback
  | [] => (register, [])
  | step :: rest =>
    let (next, fired) := register.perform ch step
    let (last, more) := performAll next ch rest
    (last, fired ++ more)

/-- The byte is behind `p` now. -/
def push (register : Register) (ch : UInt8) : Register :=
  register.map fun (mark, span) => (mark, span ++ [ch])

end Register

theorem marksOf_push (register : Register) (rest : List UInt8) :
    marksOf (register.push ch) rest = marksOf register (ch :: rest) := by
  cases register with
  | none => rfl
  | some set =>
    funext mark
    show (if set.1 = mark then some (set.2 ++ [ch] ++ rest) else none) =
      if set.1 = mark then some (set.2 ++ ch :: rest) else none
    rw [List.append_assoc, List.singleton_append]

theorem fits_push (register : Register) :
    (register.push ch).Fits state ↔ register.Fits state := by
  cases register with
  | none => exact Iff.rfl
  | some set =>
    obtain ⟨mark, span⟩ := set
    cases mark <;> exact Iff.rfl

variable {rest : List UInt8} {register : Register} {callbacks : List Callback}
  {macros : List Macro} {behind : Option TextKind}

/-- A call that is at `p`. -/
def callAt (parser : Parser) (register : Register) (callbacks : List Callback) (p : List UInt8) :
    Call :=
  ⟨parser, marksOf register p, callbacks⟩

@[simp]
theorem parser_callAt (parser : Parser) (register : Register) (callbacks : List Callback)
    (p : List UInt8) : (callAt parser register callbacks p).parser = parser :=
  rfl

theorem callbacks_callAt (parser : Parser) (register : Register) (callbacks : List Callback)
    (p : List UInt8) : (callAt parser register callbacks p).callbacks = callbacks :=
  rfl

theorem callAt_push (parser : Parser) (register : Register) (callbacks : List Callback)
    (ch : UInt8) (rest : List UInt8) :
    callAt parser (register.push ch) callbacks rest =
      callAt parser register callbacks (ch :: rest) := by
  rw [callAt, marksOf_push, callAt]

/-- The span of a callback reaches from the mark to the pointer at which it is fired. -/
theorem fire_callAt (read q : List UInt8) (mark : Mark) :
    (callAt parser register callbacks (read ++ q)).fire q mark =
      match register with
      | none => callAt parser none callbacks (read ++ q)
      | some (set, span) =>
        if set = mark then
          callAt parser none (callbacks ++ [mark.callback (span ++ read)]) (read ++ q)
        else callAt parser register callbacks (read ++ q) := by
  unfold Call.fire callAt
  cases register with
  | none => rfl
  | some set =>
    obtain ⟨set, span⟩ := set
    simp only [marksOf]
    by_cases same : set = mark
    · have cleared : Function.update (marksOf (some (set, span)) (read ++ q)) mark none =
          marksOf none (read ++ q) := by
        funext other
        by_cases own : other = mark
        · rw [own, Function.update_self, marksOf]
        · rw [Function.update_of_ne own]
          exact if_neg fun equal : set = other => own (equal.symm.trans same)
      rw [if_pos same, if_pos same]
      simp only
      rw [cleared, ← List.append_assoc, List.length_append, Nat.add_sub_cancel_right,
        List.take_left]
    · rw [if_neg same, if_neg same]

/-- The bytes a case has read belong to the mark. -/
theorem callAt_append {set : Mark} {span read q : List UInt8} :
    callAt parser (some (set, span ++ read)) callbacks q =
      callAt parser (some (set, span)) callbacks (read ++ q) := by
  unfold callAt
  congr 1
  funext mark
  simp only [marksOf, List.append_assoc]

/-- The callback of the mark that is set. -/
theorem fire_append (parser : Parser) (callbacks : List Callback) (set : Mark)
    (span read q : List UInt8) :
    (callAt parser (some (set, span)) callbacks (read ++ q)).fire q set =
      callAt parser none (callbacks ++ [set.callback (span ++ read)]) q :=
  (fire_callAt read q set).trans (if_pos rfl)

/-- What a macro does, when the mark that is set is the one it sets. -/
theorem perform_callAt {step : Macro}
    (own : ∀ mark, step = .MARK mark → ∀ set ∈ register, set.1 = mark) :
    (callAt parser register callbacks (ch :: rest)).perform (ch :: rest) step =
      callAt parser (register.perform ch step).1 (callbacks ++ (register.perform ch step).2)
        (ch :: rest) := by
  cases step with
  | MARK mark =>
    unfold Call.perform Register.perform
    simp only [List.append_nil]
    cases register with
    | none =>
      rw [if_pos (show (callAt parser none callbacks (ch :: rest)).marks mark = none from rfl)]
      unfold callAt
      congr 1
      funext other
      by_cases same : other = mark
      · rw [same, Function.update_self]
        exact (if_pos rfl).symm
      · rw [Function.update_of_ne same]
        exact (if_neg fun equal => same equal.symm).symm
    | some set =>
      have same := own mark rfl set rfl
      have taken : (callAt parser (some set) callbacks (ch :: rest)).marks mark ≠ none := by
        show (if set.1 = mark then some (set.2 ++ ch :: rest) else none) ≠ none
        rw [if_pos same]
        exact Option.some_ne_none _
      rw [if_neg taken]
      rfl
  | CALLBACK_NOTIFY notice => rfl
  | CALLBACK_DATA mark =>
    refine (fire_callAt [] (ch :: rest) mark).trans ?_
    unfold Register.perform
    cases register with
    | none => rw [List.append_nil]; rfl
    | some set =>
      obtain ⟨set, span⟩ := set
      simp only
      split
      · rw [List.append_nil]; rfl
      · rw [List.append_nil]; rfl
  | CALLBACK_DATA_ mark =>
    refine (fire_callAt [ch] rest mark).trans ?_
    unfold Register.perform
    cases register with
    | none => rw [List.append_nil]; rfl
    | some set =>
      obtain ⟨set, span⟩ := set
      simp only
      split
      · rfl
      · rw [List.append_nil]; rfl

/-- No macro sets a second mark. -/
def Register.Proper (ch : UInt8) : Register → List Macro → Prop
  | _, [] => True
  | register, step :: rest =>
    (∀ mark, step = .MARK mark → ∀ set ∈ register, set.1 = mark) ∧
      Proper ch (register.perform ch step).1 rest

theorem performAll_callAt (proper : register.Proper ch macros) :
    macros.foldl (fun call => call.perform (ch :: rest))
        (callAt parser register callbacks (ch :: rest)) =
      callAt parser (register.performAll ch macros).1
        (callbacks ++ (register.performAll ch macros).2) (ch :: rest) := by
  induction macros generalizing register callbacks with
  | nil => rw [Register.performAll, List.append_nil, List.foldl_nil]
  | cons step more inductionHypothesis =>
    rw [List.foldl_cons, perform_callAt proper.1, inductionHypothesis proper.2,
      List.append_assoc]
    rfl

/-- The mark that is set belongs to the element that is open. -/
def Register.Agrees (register : Register) (before : Option TextKind) : Prop :=
  match register with
  | none => before = none
  | some (.text kind, _) => before = some kind
  | some (.body, _) => False

theorem Register.Agrees.eq_none (agrees : register.Agrees none) : register = none := by
  match register, agrees with
  | none, _ => rfl

theorem Register.Agrees.eq_some {kind : TextKind} (agrees : register.Agrees (some kind)) :
    ∃ span, register = some (.text kind, span) := by
  match register, agrees with
  | some (.text _, span), rfl => exact ⟨span, rfl⟩

/-- The macros of a case set no second mark and leave the one of the element that is open. -/
theorem Shape.proper (ch : UInt8) (shape : Shape before macros behind)
    (agrees : register.Agrees before) :
    register.Proper ch macros ∧ (register.performAll ch macros).1.Agrees behind := by
  induction shape generalizing register with
  | stays kind => exact ⟨trivial, agrees⟩
  | opens kind =>
    obtain rfl := agrees.eq_none
    exact ⟨⟨fun _ _ _ none => (nomatch none), trivial⟩, rfl⟩
  | closes kind =>
    obtain ⟨span, rfl⟩ := agrees.eq_some
    refine ⟨⟨fun _ mark => (nomatch mark), trivial⟩, ?_⟩
    simp only [Register.performAll, Register.perform, if_true]
    rfl
  | body =>
    obtain rfl := agrees.eq_none
    exact ⟨⟨fun _ mark => (nomatch mark), trivial⟩, rfl⟩
  | notice notice rest inductionHypothesis =>
    obtain ⟨proper, agrees⟩ := inductionHypothesis agrees
    exact ⟨⟨fun _ mark => (nomatch mark), proper⟩, agrees⟩
  | empty kind rest inductionHypothesis =>
    obtain rfl := agrees.eq_none
    obtain ⟨proper, agrees⟩ := inductionHypothesis agrees
    have emptied : (Register.perform (some (.text kind, [])) ch (.CALLBACK_DATA (.text kind))).1 =
        none := by
      simp only [Register.perform, if_true]
    refine ⟨⟨fun _ _ _ none => (nomatch none), fun _ mark => (nomatch mark), ?_⟩, ?_⟩
    · show Register.Proper ch (Register.perform (some (.text kind, [])) ch
        (.CALLBACK_DATA (.text kind))).1 _
      rw [emptied]
      exact proper
    · show (Register.performAll (Register.perform (some (.text kind, [])) ch
        (.CALLBACK_DATA (.text kind))).1 ch _).1.Agrees _
      rw [emptied]
      exact agrees

theorem Register.Agrees.fits (agrees : register.Agrees state.open) : register.Fits state := by
  match register, agrees with
  | none, agrees => exact agrees
  | some (.text _, _), agrees => exact agrees

/-! ### A turn of the loop -/

/-- The parser and the marks are what the next turn relies on. -/
def Call.Sound (call : Call) (p : List UInt8) : Prop :=
  ∃ parser register callbacks, call = callAt parser register callbacks p ∧
    Http.Sound 0 parser ∧ register.Fits parser.state

/-- A turn at `p` fails no assertion, and it reads at least one byte. -/
def Progress.Sound (p : List UInt8) : Progress → Prop
  | next call q => call.Sound q ∧ q.length < p.length
  | stop call q => (call.parser.http_errno = .HPE_OK → Http.Sound 0 call.parser) ∧
      q.length ≤ p.length
  | abort => False

theorem Progress.Sound.mono {progress : Progress} {p q : List UInt8} (sound : progress.Sound q)
    (behind : q.length ≤ p.length) : progress.Sound p := by
  cases progress with
  | next call rest => exact ⟨sound.1, sound.2.trans_le behind⟩
  | stop call rest => exact ⟨sound.1, sound.2.trans behind⟩
  | abort => exact sound

theorem sound_fail {call : Call} {p q : List UInt8} {errno : Errno} (fails : errno ≠ .HPE_OK)
    (behind : q.length ≤ p.length) : (call.fail q errno).Sound p :=
  ⟨fun works => absurd works fails, behind⟩

theorem parser_fire (call : Call) (p : List UInt8) (mark : Mark) :
    (call.fire p mark).parser = call.parser := by
  unfold Call.fire
  split <;> rfl

theorem parser_perform (call : Call) (p : List UInt8) (macros : List Macro) :
    (macros.foldl (fun call => call.perform p) call).parser = call.parser := by
  induction macros generalizing call with
  | nil => rfl
  | cons step rest inductionHypothesis =>
    rw [List.foldl_cons, inductionHypothesis]
    cases step with
    | MARK mark =>
      rw [Call.perform]
      split <;> rfl
    | CALLBACK_DATA mark => exact parser_fire call p mark
    | CALLBACK_DATA_ mark => exact parser_fire call p.tail mark
    | CALLBACK_NOTIFY notice => rfl

/-- While there is no error, the assertions of the macros hold. -/
theorem finish_callAt {p : List UInt8} (works : parser.http_errno = .HPE_OK) (outcome : Outcome) :
    (callAt parser register callbacks p).finish p outcome = match outcome with
      | .next on macros =>
        .next (macros.foldl (fun call => call.perform p) (callAt on register callbacks p)) p.tail
      | .exit on macros =>
        .stop (macros.foldl (fun call => call.perform p) (callAt on register callbacks p)) p.tail
      | .error on macros =>
        .stop (macros.foldl (fun call => call.perform p) (callAt on register callbacks p)) p
      | .abort => .abort :=
  if_neg fun fails => fails.1 works

theorem CALLBACK_DATA_of_works {call : Call} (works : call.parser.http_errno = .HPE_OK)
    (p : List UInt8) (mark : Mark) (otherwise : Call → Progress) :
    call.CALLBACK_DATA p mark otherwise = otherwise (call.fire p mark) :=
  if_neg fun fails => fails works

theorem sound_finish {outcome : Outcome} (works : parser.http_errno = .HPE_OK)
    (good : outcome.Good before) (agrees : register.Agrees before) :
    ((callAt parser register callbacks (ch :: rest)).finish (ch :: rest) outcome).Sound
      (ch :: rest) := by
  rw [finish_callAt works]
  cases outcome with
  | next on macros =>
    obtain ⟨proper, behind⟩ := good.2.proper ch agrees
    refine ⟨⟨on, (register.performAll ch macros).1.push ch,
      callbacks ++ (register.performAll ch macros).2, ?_, good.1, (fits_push _).mpr behind.fits⟩,
      Nat.lt_succ_self _⟩
    rw [List.tail_cons, callAt_push]
    exact performAll_callAt proper
  | exit on macros =>
    refine ⟨fun _ => Eq.mpr (congrArg (Http.Sound 0) (parser_perform ..)) ?_, Nat.le_succ _⟩
    exact good.1
  | error on macros =>
    refine ⟨fun works => absurd ?_ good, Nat.le_refl _⟩
    rw [← works]
    exact (congrArg Parser.http_errno (parser_perform
      (callAt on register callbacks (ch :: rest)) _ _)).symm
  | abort => exact good

theorem sound_COUNT_HEADER_SIZE {call : Call} {p q : List UInt8} {v : Nat}
    {otherwise : Call → Progress} (behind : q.length ≤ p.length)
    (goesOn : ∀ nread ≤ HTTP_MAX_HEADER_SIZE, nread = (call.parser.nread + v) % 2 ^ 32 →
      (otherwise { call with parser := { call.parser with nread := nread } }).Sound p) :
    (call.COUNT_HEADER_SIZE q v otherwise).Sound p := by
  unfold Call.COUNT_HEADER_SIZE
  simp only
  split
  · exact sound_fail (by decide) behind
  · rename_i small
    exact goesOn _ (Nat.le_of_not_lt small) rfl

theorem sound_s_header_field (sane : Sane parser) (here : parser.state = .s_header_field)
    (inName : parser.header_state.inName = true) (agrees : register.Agrees (some .field)) :
    (s_header_field strict (callAt parser register callbacks (ch :: rest)) (ch :: rest)).Sound
      (ch :: rest) := by
  obtain ⟨name, q, on, whole, -, -, read, loop⟩ :=
    fieldLoop_eq strict inName (Nat.le_refl (ch :: rest).length)
  obtain ⟨sane, here, inName⟩ : Sane on ∧ on.state = .s_header_field ∧
      on.header_state.inName = true := by
    obtain ⟨index, h_state, same, inName⟩ := readName_eq strict inName name
    rw [Option.some.inj (read.symm.trans same)]
    exact ⟨⟨sane.errno, sane.nread, sane.width⟩, here, inName⟩
  have suffix : q.length ≤ (ch :: rest).length := whole ▸ (List.suffix_append name q).length_le
  obtain ⟨span, rfl⟩ := agrees.eq_some
  unfold s_header_field
  rw [callAt, loop]
  cases q with
  | nil =>
    refine sound_COUNT_HEADER_SIZE (List.drop_suffix _ _).length_le fun nread small _ => ?_
    refine ⟨⟨{ on with nread := nread }, some (.text .field, span ++ name), callbacks, ?_,
      ⟨⟨sane.errno, small, sane.width⟩, ?_⟩, congrArg State.open here⟩, Nat.succ_pos _⟩
    · rw [callAt_append, ← whole]
      rfl
    · unfold Parser.Fits
      simp only [here]
      exact inName
  | cons last behind =>
    refine sound_COUNT_HEADER_SIZE suffix fun nread small _ => ?_
    split
    · show (Call.finish (callAt { on with nread := nread } (some (.text .field, span)) callbacks
        (ch :: rest)) _ _).Sound _
      rw [whole, ← callAt_append]
      refine Progress.Sound.mono ?_ (whole ▸ suffix)
      exact sound_finish sane.errno ⟨⟨⟨sane.errno, small, sane.width⟩, trivial⟩, .closes .field⟩ rfl
    · exact sound_fail (by decide) suffix

theorem sound_s_header_value (sane : Sane parser) (here : parser.state = .s_header_value)
    (inValue : parser.header_state.inValue = true) (agrees : register.Agrees (some .value)) :
    (s_header_value (callAt parser register callbacks (ch :: rest)) (ch :: rest)).Sound
      (ch :: rest) := by
  have good := good_valueLoop (ch :: rest).length (ch :: rest) sane here inValue
  obtain ⟨span, rfl⟩ := agrees.eq_some
  unfold s_header_value
  simp only [callAt]
  cases scanned : valueLoop (ch :: rest).length parser parser.header_state (ch :: rest) with
  | abort => exact absurd good (by rw [scanned]; exact id)
  | failed failed q =>
    rw [scanned] at good
    exact ⟨fun works => absurd works good.1, good.2.length_le⟩
  | reached on h_state q =>
    rw [scanned] at good
    obtain ⟨sane, inValue, -, here, value, whole⟩ := good
    have suffix : q.length ≤ (ch :: rest).length := whole ▸ (List.suffix_append value q).length_le
    cases q with
    | nil =>
      refine sound_COUNT_HEADER_SIZE (List.drop_suffix _ _).length_le fun nread small _ => ?_
      refine ⟨⟨{ on with header_state := h_state, nread := nread },
        some (.text .value, span ++ value), callbacks, ?_,
        ⟨⟨sane.errno, small, sane.width⟩, ?_⟩, congrArg State.open here⟩, Nat.succ_pos _⟩
      · rw [callAt_append, whole]
        rfl
      · unfold Parser.Fits
        simp only [here]
        exact inValue
    | cons last behind =>
      simp only
      split
      · have fired := fire_append { on with
          state := .s_header_almost_done, header_state := h_state } callbacks (.text .value) span
            value (last :: behind)
        rw [whole, callAt] at fired
        rw [CALLBACK_DATA_of_works sane.errno, fired]
        refine sound_COUNT_HEADER_SIZE suffix fun nread small _ => ?_
        exact ⟨⟨{ on with
          state := .s_header_almost_done, header_state := h_state, nread := nread }, none, _, rfl,
          ⟨⟨sane.errno, small, sane.width⟩, trivial⟩, rfl⟩, suffix⟩
      · refine sound_COUNT_HEADER_SIZE suffix fun nread small _ => ?_
        have fired := fire_append { on with
          state := .s_header_almost_done, header_state := h_state, nread := nread } callbacks
            (.text .value) span value (last :: behind)
        rw [whole, callAt] at fired
        rw [CALLBACK_DATA_of_works sane.errno, fired]
        refine Progress.Sound.mono (sound_finish sane.errno (good_s_header_almost_done ?_) rfl)
          suffix
        exact ⟨sane.errno, small, sane.width⟩

/-- A case that first fires the callback of the mark that is set. -/
theorem sound_finish_behind {step : Macro} (outcome : Outcome)
    (works : parser.http_errno = .HPE_OK) (fires : (register.perform ch step).1 = none)
    (quiet : ∀ mark, step ≠ .MARK mark)
    (good : outcome.Good none) :
    ((callAt parser register callbacks (ch :: rest)).finish (ch :: rest)
      (outcome.behind [step])).Sound (ch :: rest) := by
  rw [finish_callAt works]
  cases outcome with
  | next on macros =>
    obtain ⟨proper, behind⟩ := good.2.proper ch (show Register.Agrees none none from rfl)
    have all : (register.performAll ch (step :: macros)).1 =
        (Register.performAll none ch macros).1 := by
      show (Register.performAll (register.perform ch step).1 ch macros).1 = _
      rw [fires]
    refine ⟨⟨on, (register.performAll ch (step :: macros)).1.push ch,
      callbacks ++ (register.performAll ch (step :: macros)).2, ?_, good.1,
      (fits_push _).mpr (all ▸ behind.fits)⟩, Nat.lt_succ_self _⟩
    rw [List.tail_cons, callAt_push]
    exact performAll_callAt ⟨fun mark same => absurd same (quiet mark), fires ▸ proper⟩
  | exit on macros =>
    refine ⟨fun _ => Eq.mpr (congrArg (Http.Sound 0) (parser_perform ..)) ?_, Nat.le_succ _⟩
    exact good.1
  | error on macros =>
    refine ⟨fun works => absurd ?_ good, Nat.le_refl _⟩
    rw [← works]
    exact (congrArg Parser.http_errno (parser_perform
      (callAt on register callbacks (ch :: rest)) _ _)).symm
  | abort => exact good

/-! ### Bodies -/

/-- What is set in a state that reads the body is its mark, if anything is. -/
theorem Register.Fits.body (fits : register.Fits state) (reads : state.readsBody = true) :
    ∃ span, register.getD (.body, []) = (.body, span) := by
  match register, fits with
  | none, _ => exact ⟨[], rfl⟩
  | some (.body, span), _ => exact ⟨span, rfl⟩
  | some (.text _, _), within =>
    have outside : state.open = none := by
      revert reads
      cases state <;> intro reads <;> first | rfl | cases reads
    cases outside.symm.trans within

theorem takeBody_eq (ch : UInt8) (rest : List UInt8) (callbacks : List Callback)
    {span : List UInt8} (marked : register.getD (.body, []) = (.body, span))
    (some : parser.content_length ≠ 0) :
    ∃ read last behind, ch :: rest = read ++ last :: behind ∧
      read.length + 1 = min parser.content_length (ch :: rest).length ∧
        takeBody (callAt parser register callbacks (ch :: rest)) (ch :: rest) =
          (callAt { parser with content_length := parser.content_length - (read.length + 1) }
            (Option.some (.body, span ++ read)) callbacks (last :: behind), last :: behind) := by
  have shorter : min parser.content_length (ch :: rest).length - 1 < (ch :: rest).length := by
    rw [List.length_cons]
    omega
  have positive : 0 < min parser.content_length (ch :: rest).length := by
    rw [List.length_cons]
    omega
  cases dropped : (ch :: rest).drop (min parser.content_length (ch :: rest).length - 1) with
  | nil => exact absurd (List.drop_eq_nil_iff.mp dropped) (Nat.not_le_of_lt shorter)
  | cons last behind =>
    have whole := List.take_append_drop (min parser.content_length (ch :: rest).length - 1)
      (ch :: rest)
    rw [dropped] at whole
    have length :
        ((ch :: rest).take (min parser.content_length (ch :: rest).length - 1)).length + 1 =
          min parser.content_length (ch :: rest).length := by
      rw [List.length_take]
      omega
    refine ⟨_, last, behind, whole.symm, length, ?_⟩
    unfold takeBody
    simp only
    rw [parser_callAt, dropped, callAt_append, whole, length,
      perform_callAt fun mark same set found => ?_]
    · rw [Register.perform, marked, List.append_nil]
      rfl
    · obtain rfl := Option.mem_def.mp found
      injection same with same
      rw [← same]
      exact congrArg Prod.fst marked

theorem sound_s_body_identity (sound : Sound 0 parser) (here : parser.state = .s_body_identity)
    (fits : register.Fits parser.state) :
    (s_body_identity strict (callAt parser register callbacks (ch :: rest))
      (ch :: rest)).Sound (ch :: rest) := by
  have sane := sound.toSane
  have counted := sound.fits
  unfold Parser.Fits at counted
  simp only [here] at counted
  obtain ⟨some, less⟩ := counted
  obtain ⟨span, marked⟩ := fits.body (here ▸ rfl)
  obtain ⟨read, last, behind, whole, length, taken⟩ := takeBody_eq ch rest callbacks marked some
  have suffix : (last :: behind).length ≤ (ch :: rest).length :=
    whole ▸ (List.suffix_append read (last :: behind)).length_le
  have width : parser.content_length - (read.length + 1) < ULLONG_MAX := by omega
  unfold s_body_identity
  rw [parser_callAt, if_neg (not_or.mpr ⟨some, less.ne⟩), taken]
  simp only
  split
  · refine Progress.Sound.mono (sound_finish_behind _ sane.errno ?_ (fun _ same => nomatch same)
      (good_s_message_done ?_)) suffix
    · rw [Register.perform, if_pos rfl]
    · exact ⟨sane.errno, sane.nread, width.le⟩
  · rename_i more
    refine ⟨⟨{ parser with content_length := parser.content_length - (read.length + 1) },
      Option.some (.body, span ++ read ++ [last]), callbacks, ?_,
      ⟨⟨sane.errno, sane.nread, width.le⟩, ?_⟩, congrArg State.readsBody here⟩, suffix⟩
    · exact (callAt_push _ (Option.some (.body, span ++ read)) callbacks last behind).symm
    · unfold Parser.Fits
      simp only [here]
      exact ⟨more, width⟩

theorem sound_s_body_identity_eof (sound : Sound 0 parser)
    (here : parser.state = .s_body_identity_eof) (fits : register.Fits parser.state) :
    (s_body_identity_eof (callAt parser register callbacks (ch :: rest)) (ch :: rest)).Sound
      (ch :: rest) := by
  obtain ⟨span, marked⟩ := fits.body (here ▸ rfl)
  refine ⟨⟨parser, some (.body, span ++ (ch :: rest)), callbacks, ?_, sound, here ▸ rfl⟩,
    Nat.succ_pos _⟩
  rw [perform_callAt fun mark same set found => ?_]
  · rw [Register.perform, marked, List.append_nil, callAt_append, List.append_nil]
  · obtain rfl := Option.mem_def.mp found
    injection same with same
    rw [← same]
    exact congrArg Prod.fst marked

theorem sound_s_chunk_data (sound : Sound 0 parser) (here : parser.state = .s_chunk_data)
    (fits : register.Fits parser.state) :
    (s_chunk_data (callAt parser register callbacks (ch :: rest)) (ch :: rest)).Sound
      (ch :: rest) := by
  have sane := sound.toSane
  have counted := sound.fits
  unfold Parser.Fits at counted
  simp only [here] at counted
  obtain ⟨chunked, some, less⟩ := counted
  obtain ⟨span, marked⟩ := fits.body (here ▸ rfl)
  obtain ⟨read, last, behind, whole, length, taken⟩ := takeBody_eq ch rest callbacks marked some
  have suffix : (last :: behind).length ≤ (ch :: rest).length :=
    whole ▸ (List.suffix_append read (last :: behind)).length_le
  have width : parser.content_length - (read.length + 1) < ULLONG_MAX := by omega
  have passes : ¬ ((!parser.flags.F_CHUNKED) = true ∨ parser.content_length = 0 ∨
      parser.content_length = ULLONG_MAX) := by
    rw [chunked]
    exact not_or.mpr ⟨by decide, not_or.mpr ⟨some, less.ne⟩⟩
  unfold s_chunk_data
  rw [parser_callAt, if_neg passes, taken]
  refine ⟨⟨{ parser with
    content_length := parser.content_length - (read.length + 1)
    state := if parser.content_length - (read.length + 1) = 0 then .s_chunk_data_almost_done
      else .s_chunk_data }, Option.some (.body, span ++ read ++ [last]), callbacks, ?_,
    ⟨⟨sane.errno, sane.nread, width.le⟩, ?_⟩, ?_⟩, suffix⟩
  · exact (callAt_push _ (Option.some (.body, span ++ read)) callbacks last behind).symm
  · unfold Parser.Fits
    by_cases done : parser.content_length - (read.length + 1) = 0
    · simp only [if_pos done]
      exact ⟨chunked, done⟩
    · simp only [if_neg done]
      exact ⟨chunked, done, width⟩
  · show State.readsBody (if _ then _ else _) = true
    split <;> rfl

/-! ### Calls -/

theorem Register.Fits.agrees (fits : register.Fits state) (outside : state.readsBody = false) :
    register.Agrees state.open := by
  match register, fits with
  | none, closed => exact closed
  | some (.text _, _), within => exact within
  | some (.body, _), reads => cases outside.symm.trans reads

/-- Only the first byte of a chunk looks at what is counted. -/
theorem Sound.counts {nread : Nat} (sound : Sound 0 parser) (small : nread ≤ HTTP_MAX_HEADER_SIZE)
    (first : parser.state = .s_chunk_size_start → nread = parser.nread + 1) :
    Sound 1 { parser with nread := nread } := by
  refine ⟨⟨sound.errno, small, sound.width⟩, ?_⟩
  have fits := sound.fits
  unfold Parser.Fits at fits ⊢
  cases here : parser.state <;> simp only [here] at fits ⊢
  case s_chunk_size_start => exact ⟨fits.1, (first here).trans (congrArg (· + 1) fits.2)⟩
  all_goals exact fits

theorem Sound.restart {first second : Nat} (sound : Sound first parser)
    (other : parser.state ≠ .s_chunk_size_start) : Sound second parser := by
  refine ⟨sound.toSane, ?_⟩
  have fits := sound.fits
  unfold Parser.Fits at fits ⊢
  cases here : parser.state <;> simp only [here] at fits other ⊢
  case s_chunk_size_start => exact absurd rfl other
  all_goals exact fits

theorem sound_switch (sound : Sound 1 parser) (fits : register.Fits parser.state) :
    (switch strict answer (callAt parser register callbacks (ch :: rest)) ch rest).Sound
      (ch :: rest) := by
  have relies := sound.fits
  unfold Parser.Fits at relies
  unfold switch
  rw [parser_callAt]
  split
  · rename_i here
    simp only [here] at relies
    have agrees := fits.agrees (here ▸ rfl)
    rw [here] at agrees
    exact sound_s_header_field sound.toSane here relies agrees
  · rename_i here
    simp only [here] at relies
    have agrees := fits.agrees (here ▸ rfl)
    rw [here] at agrees
    exact sound_s_header_value sound.toSane here relies agrees
  · rename_i here
    exact sound_s_body_identity (sound.restart (here ▸ fun other => nomatch other)) here fits
  · rename_i here
    exact sound_s_body_identity_eof (sound.restart (here ▸ fun other => nomatch other)) here fits
  · rename_i here
    exact sound_s_chunk_data (sound.restart (here ▸ fun other => nomatch other)) here fits
  · have alone : parser.state.readsAhead = false := by
      cases here : parser.state <;> first | rfl | exact absurd here (by assumption)
    by_cases reads : parser.state.readsBody = true
    · -- the body that is behind has its callback now
      have here : parser.state = .s_chunk_data_almost_done := by
        cases here : parser.state <;> rw [here] at reads alone <;>
          first | rfl | exact absurd reads (by decide) | exact absurd alone (by decide)
      obtain ⟨chunked, done⟩ : parser.flags.F_CHUNKED = true ∧ parser.content_length = 0 := by
        simpa only [here] using relies
      unfold switchByte chunkCase
      simp only [here]
      rw [chunked, if_neg (by decide), if_neg (fun other => other done)]
      unfold STRICT_CHECK
      split
      · rw [finish_callAt sound.errno]
        exact ⟨fun works => (nomatch works), Nat.le_refl _⟩
      · obtain ⟨span, marked⟩ := fits.body reads
        refine sound_finish_behind (.next _ []) sound.errno ?_ (fun _ same => nomatch same)
          ⟨⟨⟨sound.errno, sound.nread, sound.width⟩, chunked⟩, .stays none⟩
        cases register with
        | none => rfl
        | some set =>
          obtain rfl : set = (.body, span) := marked
          rw [Register.perform, if_pos rfl]
    · exact sound_finish sound.errno (good_switchByte sound alone)
        (fits.agrees (Bool.eq_false_iff.mpr reads))

theorem sound_turn (strict : Bool) (answer : Int) (callbacks : List Callback) (ch : UInt8)
    (rest : List UInt8) (sound : Sound 0 parser) (fits : register.Fits parser.state) :
    (turn strict answer (callAt parser register callbacks (ch :: rest)) ch rest).Sound
      (ch :: rest) := by
  unfold turn
  split
  · refine sound_COUNT_HEADER_SIZE (Nat.le_refl _) fun nread small counted => ?_
    refine sound_switch (sound.counts small fun _ => ?_) fits
    rw [counted]
    exact Nat.mod_eq_of_lt (Nat.lt_of_le_of_lt (Nat.succ_le_succ sound.nread) (by decide))
  · rename_i behind
    refine sound_switch (sound.restart fun here => behind ?_) fits
    rw [parser_callAt, here]
    rfl

/-- The loop ends at the end of the data, or in a `return`. -/
theorem sound_loop (strict : Bool) (answers : Nat → Int) (turns : Nat) {call : Call}
    {p : List UInt8} (sound : call.Sound p) (enough : p.length ≤ turns) :
    match loop strict answers turns call p with
    | .next last q => last.Sound q ∧ q = []
    | .stop last q => (last.parser.http_errno = .HPE_OK → Http.Sound 0 last.parser) ∧
        q.length ≤ p.length
    | .abort => False := by
  induction turns generalizing call p with
  | zero =>
    rw [List.length_eq_zero_iff.mp (Nat.le_zero.mp enough)] at sound ⊢
    exact ⟨sound, rfl⟩
  | succ turns inductionHypothesis =>
    cases p with
    | nil => exact ⟨sound, rfl⟩
    | cons ch rest =>
      obtain ⟨parser, register, callbacks, rfl, relies, fits⟩ := sound
      have step := sound_turn strict (answers callbacks.length) callbacks ch rest relies fits
      rw [loop, callbacks_callAt]
      cases turned : turn strict (answers callbacks.length)
          (callAt parser register callbacks (ch :: rest)) ch rest with
      | next call q =>
        rw [turned] at step
        have more := inductionHypothesis step.1
          (Nat.le_of_lt_succ (step.2.trans_le enough))
        simp only
        cases looped : loop strict answers turns call q with
        | next last q =>
          rw [looped] at more
          exact more
        | stop last end_ =>
          rw [looped] at more
          exact ⟨more.1, more.2.trans step.2.le⟩
        | abort =>
          rw [looped] at more
          exact more
      | stop call q =>
        rw [turned] at step
        exact step
      | abort =>
        rw [turned] at step
        exact step

/-- What is marked in front of the loop. -/
def State.marked (state : State) : Register :=
  state.open.map fun kind => (.text kind, [])

theorem fits_marked (state : State) : state.marked.Fits state := by
  unfold State.marked
  cases within : state.open with
  | none => exact within
  | some kind => exact within

theorem callAt_marked (parser : Parser) (data : List UInt8) :
    callAt parser parser.state.marked [] data = ⟨parser, initialMarks parser data, []⟩ := by
  unfold callAt
  congr 1
  funext mark
  cases mark with
  | body =>
    show marksOf parser.state.marked data .body = none
    unfold State.marked
    cases parser.state.open <;> rfl
  | text kind =>
    show marksOf parser.state.marked data (.text kind) =
      if parser.state.open = some kind then some data else none
    unfold State.marked
    cases within : parser.state.open with
    | none => rfl
    | some other =>
      by_cases same : other = kind
      · rw [if_pos (congrArg some same)]
        exact if_pos (congrArg Mark.text same)
      · rw [if_neg fun equal => same (Option.some.inj equal)]
        exact if_neg fun equal => same (Mark.text.inj equal)

/-- At most one mark is left over. -/
theorem length_marks (register : Register) (p : List UInt8) :
    (allMarks.filter fun mark => marksOf register p mark ≠ none).length ≤ 1 := by
  cases register with
  | none => exact Nat.zero_le _
  | some set =>
    obtain ⟨set, span⟩ := set
    have alone : (allMarks.filter fun mark => marksOf (some (set, span)) p mark ≠ none) =
        allMarks.filter fun mark => set = mark := by
      refine List.filter_congr fun mark _ => ?_
      unfold marksOf
      by_cases same : set = mark <;> simp [same]
    rw [alone]
    rcases set with (_ | _ | _ | _) | _ <;> decide

theorem parser_leftover (call : Call) (p : List UInt8) (marks : List Mark) :
    (marks.foldl (fun call mark => call.fire p mark) call).parser = call.parser := by
  induction marks generalizing call with
  | nil => rfl
  | cons mark rest inductionHypothesis =>
    rw [List.foldl_cons, inductionHypothesis, parser_fire]

/-- Between two calls, an error has been found, or the parser is what the next call relies on. -/
def Parser.Ready (parser : Parser) : Prop :=
  parser.http_errno = .HPE_OK → Sound 0 parser

/-- A call returns, and it leaves what the next one relies on. -/
theorem Parser.Ready.execute (ready : parser.Ready) (strict : Bool) (answers : Nat → Int)
    (data : List UInt8) :
    ∃ next callbacks parsed,
      http_parser_execute strict answers parser data = some (next, callbacks, parsed) ∧
        next.Ready ∧ (parsed ≤ data.length ∨ next.http_errno ≠ .HPE_OK) := by
  unfold http_parser_execute
  by_cases failed : parser.http_errno ≠ .HPE_OK
  · rw [if_pos failed]
    exact ⟨parser, [], 0, rfl, ready, Or.inl (Nat.zero_le _)⟩
  rw [if_neg failed]
  have sound := ready (not_not.mp failed)
  by_cases empty : data = []
  · rw [if_pos empty]
    split
    · exact ⟨_, _, _, rfl, ready, Or.inl (Nat.zero_le _)⟩
    · exact ⟨_, _, _, rfl, ready, Or.inl (Nat.zero_le _)⟩
    · exact ⟨_, _, _, rfl, ready, Or.inl (Nat.zero_le _)⟩
    · exact ⟨_, _, _, rfl, ready, Or.inl (Nat.zero_le _)⟩
    · exact ⟨_, _, _, rfl, ready, Or.inl (Nat.zero_le _)⟩
    · exact ⟨_, _, _, rfl, fun works => (nomatch works), Or.inr fun works => nomatch works⟩
  · rw [if_neg empty, ← callAt_marked]
    have ends := sound_loop strict answers data.length
      ⟨parser, parser.state.marked, [], rfl, sound, fits_marked _⟩ (Nat.le_refl _)
    cases looped : loop strict answers data.length
        (callAt parser parser.state.marked [] data) data with
    | next last q =>
      rw [looped] at ends
      obtain ⟨⟨on, register, callbacks, rfl, sound, -⟩, rfl⟩ := ends
      refine ⟨_, _, _, (if_neg (Nat.not_lt_of_le (length_marks register []))).trans
        (if_neg (not_not.mpr sound.errno)), ?_, Or.inl (Nat.le_refl _)⟩
      intro _
      rw [parser_leftover]
      exact sound
    | stop last q =>
      rw [looped] at ends
      exact ⟨_, _, _, rfl, ends.1, Or.inl (Nat.sub_le _ _)⟩
    | abort =>
      rw [looped] at ends
      exact absurd ends id

/-- Calls one after the other: what `on_headers_complete` answers in each of them, and its data. -/
def executeAll (strict : Bool) : Parser → List ((Nat → Int) × List UInt8) → Option Parser
  | parser, [] => some parser
  | parser, (answers, data) :: rest =>
    (http_parser_execute strict answers parser data).bind fun (next, _, _) =>
      executeAll strict next rest

theorem Parser.Ready.executeAll (ready : parser.Ready) (strict : Bool)
    (calls : List ((Nat → Int) × List UInt8)) :
    ∃ last, Http.executeAll strict parser calls = some last ∧ last.Ready := by
  induction calls generalizing parser with
  | nil => exact ⟨parser, rfl, ready⟩
  | cons call rest inductionHypothesis =>
    obtain ⟨next, callbacks, parsed, executed, ready, -⟩ := ready.execute strict call.1 call.2
    rw [Http.executeAll, executed]
    exact inductionHypothesis ready

/-- Whatever is given to it in whatever calls, and whatever `on_headers_complete` answers, the parser
fails no assertion and never reads behind the end of a text, and it ends in an error or in a state
that the next call can rely on. -/
theorem never_aborts (strict : Bool) (type : ParserType) (calls : List ((Nat → Int) × List UInt8)) :
    ∃ last, executeAll strict (http_parser_init type) calls = some last ∧ last.Ready :=
  Parser.Ready.executeAll (fun _ => sound_http_parser_init type) strict calls

end Http

end Nattan
