/-
This file models `Logger` and the `log_printf` under it, and proves for which messages
both stay inside their buffers.

The message is formatted twice. `Logger` formats it into a buffer of its own and puts a
newline at the index that `vsnprintf` has returned, which for a message of 4095 bytes is
that of the terminating zero. `log_printf` formats a heading with the level, the time and
three ids, takes the result as the format of a second run, and hands `write` what that
returned: the length the text would have had, not the number of bytes in the buffer.

A message is given as the bytes it is formatted to, with any zeros among them.
-/

import Nattan.Text

namespace Nattan.Logger

/-! ### Formatted output -/

/-- An argument of a format: a pointer to these bytes, an `int` or an `unsigned long`. -/
inductive Argument where
  | string (memory : List UInt8)
  | int (value : Int)
  | unsigned (value : Nat)
  deriving DecidableEq, Repr

/-- What a format with the conversions `%s`, `%d` and `%lu` is formatted to. A conversion without
its argument reads behind the arguments. -/
def render : List UInt8 → List Argument → Except Fault (List UInt8)
  | [], _ => .ok []
  | 37 :: 115 :: rest, .string memory :: args => do
    let text ← cString memory
    let more ← render rest args
    return text ++ more
  | 37 :: 100 :: rest, .int value :: args => do
    let more ← render rest args
    return bytesOf (toString value) ++ more
  | 37 :: 108 :: 117 :: rest, .unsigned value :: args => do
    let more ← render rest args
    return bytesOf (toString (value : Int)) ++ more
  | 37 :: _, _ => .error (.outOfBounds 0)
  | byte :: rest, args => do
    let more ← render rest args
    return byte :: more

/-- `snprintf(buffer, size, ...)` of what is formatted to `text`: the buffer and the result. A
length that is no `int` is an error, after as much as before has been written. -/
def snprintf (buffer : List UInt8) (size : Nat) (text : List UInt8) :
    Except Fault (List UInt8 × Int) := do
  let buffer ← copyIn buffer 0 (text.take (size - 1) ++ [0])
  return (buffer, if text.length < 2 ^ 31 then text.length else -1)

/-! ### `log_printf` -/

def LOG_BUFFER_SIZE : Nat := 4096

/-- `LOG_DEBUG`, `LOG_INFO` and `LOG_ERROR`. -/
inductive Level where
  | DEBUG
  | INFO
  | ERROR
  deriving DecidableEq, Repr

/-- `_log_levels`. -/
def logLevels : Level → List UInt8
  | .DEBUG => bytesOf "D"
  | .INFO => bytesOf "I"
  | .ERROR => bytesOf "E"

/-- `_log_fmt`. -/
def logFmt : List UInt8 := bytesOf "[%s]>%s<[%d-%d-%lu] %s"

/-- The clock, and who logs. -/
structure Context where
  hour : Nat
  minute : Nat
  second : Nat
  tv_usec : Nat
  pid : Int
  tid : Int
  cid : Nat
  tv_usec_lt : tv_usec < 10 ^ 6
  pid_int : -2 ^ 31 ≤ pid ∧ pid < 2 ^ 31
  tid_int : -2 ^ 31 ≤ tid ∧ tid < 2 ^ 31
  cid_long : cid < 2 ^ 64

/-- Two digits of `%T`. -/
def twoDigits (number : Nat) : List UInt8 :=
  [UInt8.ofNat (48 + number / 10 % 10), UInt8.ofNat (48 + number % 10)]

/-- `get_time_str()`. -/
def timeStr (context : Context) : List UInt8 :=
  twoDigits context.hour ++ bytesOf ":" ++ twoDigits context.minute ++ bytesOf ":" ++
    twoDigits context.second ++ bytesOf "." ++ bytesOf (toString (context.tv_usec : Int))

/-- A buffer of `log_printf`, with what was logged before. -/
structure LogBuffer where
  bytes : List UInt8
  size : bytes.length = LOG_BUFFER_SIZE

/-- What `log_printf` hands to `write`, and how many bytes it has formatted into the buffer. -/
structure Written where
  buf : List UInt8
  formatted : Nat
  len : Int
  deriving DecidableEq, Repr

/-- `len` as the `size_t` that `write` takes. -/
def Written.count (written : Written) : Nat :=
  (written.len % 2 ^ 64).toNat

/-- `if(len < 0) abort();` -/
def checked (len : Int) : Except Fault Nat :=
  if len < 0 then .error .lengthError else .ok len.toNat

/-- `log_printf(fd, level, "%s", buffer)`. -/
def log_printf (context : Context) (buf : LogBuffer) (level : Level) (buffer : List UInt8) :
    Except Fault Written := do
  let header ← render logFmt [.string (logLevels level ++ [0]), .string (timeStr context ++ [0]),
    .int context.pid, .int context.tid, .unsigned context.cid, .string (bytesOf "%s" ++ [0])]
  let (new_fmt, len) ← snprintf (List.replicate 1024 0) 1024 header
  let len ← checked len
  let new_fmt ← copyIn new_fmt len [0]
  let fmt ← cString new_fmt
  let text ← render fmt [.string buffer]
  let (buf, len) ← snprintf buf.bytes LOG_BUFFER_SIZE text
  return ⟨buf, min text.length (LOG_BUFFER_SIZE - 1), len⟩

/-! ### `Logger` -/

/-- `LOGGER_ERROR`, `LOGGER_INFO` and `LOGGER_DEBUG`. -/
inductive LoggerLevel where
  | ERROR
  | INFO
  | DEBUG
  deriving DecidableEq, Repr

def LoggerLevel.toNat : LoggerLevel → Nat
  | ERROR => 0
  | INFO => 1
  | DEBUG => 2

/-- The buffer that is handed to `log_printf`. -/
def compose (message : List UInt8) : Except Fault (List UInt8) := do
  let (buffer, n) ← snprintf (List.replicate LOG_BUFFER_SIZE 0) LOG_BUFFER_SIZE message
  return if 0 < n ∧ n < LOG_BUFFER_SIZE then buffer.set n.toNat 10 else buffer

/-- The four functions, which differ in the level they log under. -/
def log (context : Context) (buf : LogBuffer) (level : Level) (message : List UInt8) :
    Except Fault (Option Written) := do
  let buffer ← compose message
  some <$> log_printf context buf level buffer

/-- The four functions of a `Logger`. -/
inductive Call where
  | printf
  | debug
  | info
  | error
  deriving DecidableEq, Repr

section

variable (level : LoggerLevel) (context : Context) (buf : LogBuffer) (message : List UInt8)

def printf : Except Fault (Option Written) := log context buf .INFO message

def debug : Except Fault (Option Written) :=
  if level.toNat < LoggerLevel.DEBUG.toNat then .ok none else log context buf .DEBUG message

def info : Except Fault (Option Written) :=
  if level.toNat < LoggerLevel.INFO.toNat then .ok none else log context buf .INFO message

def error : Except Fault (Option Written) :=
  if level.toNat < LoggerLevel.ERROR.toNat then .ok none else log context buf .ERROR message

def call : Call → Except Fault (Option Written)
  | .printf => printf context buf message
  | .debug => debug level context buf message
  | .info => info level context buf message
  | .error => error level context buf message

end

/-! ### The property and the condition -/

/-- The message was dropped; or the buffer handed to `log_printf` has a zero within its size, and
the count handed to `write` is not above the number of bytes formatted. -/
def Safe (message : List UInt8) (result : Except Fault (Option Written)) : Prop :=
  result = .ok none ∨
    (∃ buffer, compose message = .ok buffer ∧ buffer.length = LOG_BUFFER_SIZE ∧ 0 ∈ buffer) ∧
      ∃ written, result = .ok (some written) ∧ written.count ≤ written.formatted

/-- A function that is not called for, at the level of the logger. -/
def Call.dropped (level : LoggerLevel) : Call → Prop
  | printf => False
  | debug => level.toNat < LoggerLevel.DEBUG.toNat
  | info => level.toNat < LoggerLevel.INFO.toNat
  | error => level.toNat < LoggerLevel.ERROR.toNat

/-- The level of the heading. -/
def Call.heads : Call → Level
  | printf => .INFO
  | debug => .DEBUG
  | info => .INFO
  | error => .ERROR

/-- The heading of a line. -/
def heading (context : Context) (level : Level) : List UInt8 :=
  bytesOf "[" ++ logLevels level ++ bytesOf "]>" ++ timeStr context ++ bytesOf "<[" ++
    bytesOf (toString context.pid) ++ bytesOf "-" ++ bytesOf (toString context.tid) ++
    bytesOf "-" ++ bytesOf (toString (context.cid : Int)) ++ bytesOf "] "

/-- The message as it stands in the buffer: with a newline, or cut off. -/
def shaped (message : List UInt8) : List UInt8 :=
  if 0 < message.length ∧ message.length < LOG_BUFFER_SIZE then message ++ [10]
  else message.take (LOG_BUFFER_SIZE - 1)

/-- What stands in front of the first zero. -/
def content (message : List UInt8) : List UInt8 :=
  (shaped message).takeWhile (· != 0)

/-! ### The first formatting -/

theorem snprintf_eq {buffer : List UInt8} {size : Nat} (text : List UInt8)
    (room : (text.take (size - 1)).length < buffer.length) :
    snprintf buffer size text =
      .ok (text.take (size - 1) ++ 0 :: buffer.drop ((text.take (size - 1)).length + 1),
        if text.length < 2 ^ 31 then text.length else -1) := by
  have inside : Within buffer (0 : Nat) (text.take (size - 1) ++ [0]).length := by
    refine Or.inr ⟨Int.le_refl 0, ?_⟩
    rw [List.length_append, List.length_singleton]
    omega
  rw [snprintf, copyIn, if_pos inside, ok_bind, List.take_zero, List.nil_append, Nat.zero_add,
    List.length_append, List.length_singleton, List.append_assoc]
  rfl

theorem length_shaped_le (message : List UInt8) : (shaped message).length ≤ LOG_BUFFER_SIZE := by
  unfold shaped LOG_BUFFER_SIZE
  split
  · rw [List.length_append, List.length_singleton]
    omega
  · rw [List.length_take]
    omega

theorem cons_drop_replicate {count size : Nat} (inside : count < size) :
    (0 : UInt8) :: (List.replicate size 0).drop (count + 1) = List.replicate (size - count) 0 := by
  rw [List.drop_replicate, ← List.replicate_succ]
  congr 1
  omega

/-- The buffer that is handed to `log_printf`. -/
theorem compose_eq (message : List UInt8) :
    compose message =
      .ok (shaped message ++ List.replicate (LOG_BUFFER_SIZE - (shaped message).length) 0) := by
  have room : (message.take (LOG_BUFFER_SIZE - 1)).length <
      (List.replicate LOG_BUFFER_SIZE (0 : UInt8)).length := by
    rw [List.length_take, List.length_replicate, LOG_BUFFER_SIZE]
    omega
  have filled := @cons_drop_replicate (message.take (LOG_BUFFER_SIZE - 1)).length LOG_BUFFER_SIZE
    (by rw [List.length_replicate] at room; exact room)
  rw [compose, snprintf_eq message room, ok_bind, filled]
  by_cases marked : 0 < message.length ∧ message.length < LOG_BUFFER_SIZE
  · obtain ⟨some, fits⟩ := marked
    have whole : message.take (LOG_BUFFER_SIZE - 1) = message :=
      List.take_of_length_le (by omega)
    have small : message.length < 2 ^ 31 := Nat.lt_trans fits (by decide)
    have zeros : List.replicate (LOG_BUFFER_SIZE - message.length) (0 : UInt8) =
        0 :: List.replicate (LOG_BUFFER_SIZE - (message ++ [10]).length) 0 := by
      rw [List.length_append, List.length_singleton, ← List.replicate_succ]
      congr 1
      omega
    have shape : shaped message = message ++ [10] := if_pos ⟨some, fits⟩
    rw [shape, whole, zeros, if_pos small]
    show Except.ok (if 0 < (message.length : Int) ∧ (message.length : Int) < LOG_BUFFER_SIZE then
      (message ++ 0 :: _).set (message.length : Int).toNat 10 else _) = _
    rw [if_pos ⟨by omega, by omega⟩, Int.toNat_natCast,
      List.set_append_right _ _ (Nat.le_refl _), Nat.sub_self, List.set_cons_zero,
      List.append_assoc]
    rfl
  · have shape : shaped message = message.take (LOG_BUFFER_SIZE - 1) := if_neg marked
    rw [shape]
    show Except.ok (if 0 < (if message.length < 2 ^ 31 then (message.length : Int) else -1) ∧
      (if message.length < 2 ^ 31 then (message.length : Int) else -1) < LOG_BUFFER_SIZE then _
      else _) = _
    rw [if_neg]
    split
    · omega
    · omega

theorem length_content_lt_iff (message : List UInt8) :
    (content message).length < LOG_BUFFER_SIZE ↔
      0 ∈ shaped message ++ List.replicate (LOG_BUFFER_SIZE - (shaped message).length) 0 := by
  have bound := length_shaped_le message
  by_cases short : (shaped message).length < LOG_BUFFER_SIZE
  · refine iff_of_true ?_ ?_
    · exact Nat.lt_of_le_of_lt (List.takeWhile_prefix _).length_le short
    · refine List.mem_append_right _ (List.mem_replicate.mpr ⟨by omega, rfl⟩)
  · have full : (shaped message).length = LOG_BUFFER_SIZE := by omega
    rw [full, Nat.sub_self, List.replicate_zero, List.append_nil]
    constructor
    · intro cut
      by_contra absent
      rw [content, takeWhile_of_not_mem absent] at cut
      omega
    · intro member
      by_contra long
      have whole : content message = shaped message :=
        (List.takeWhile_prefix _).eq_of_length_le (by rw [full]; exact Nat.le_of_not_lt long)
      have nonzero := List.takeWhile_eq_self_iff.mp whole 0 member
      exact absurd nonzero (by decide)

/-! ### The second formatting -/

/-- A part of a format without conversions. -/
theorem render_literal {literal : List UInt8} (plain : ∀ byte ∈ literal, byte ≠ 37)
    (rest : List UInt8) (args : List Argument) :
    render (literal ++ rest) args = (literal ++ ·) <$> render rest args := by
  induction literal with
  | nil => exact (id_map (f := Except Fault) _).symm
  | cons byte literal inductionHypothesis =>
    have unequal := plain byte List.mem_cons_self
    rw [List.cons_append, render,
      inductionHypothesis fun byte member => plain byte (List.mem_cons_of_mem _ member)]
    · cases render rest args <;> rfl
    all_goals
      intros
      contradiction

/-- A text without percent signs and zeros. -/
def Plain (text : List UInt8) : Prop :=
  ∀ byte ∈ text, byte ≠ 37 ∧ byte ≠ 0

instance (text : List UInt8) : Decidable (Plain text) :=
  inferInstanceAs (Decidable (∀ byte ∈ text, byte ≠ 37 ∧ byte ≠ 0))

theorem Plain.append {text other : List UInt8} (plain : Plain text) (otherPlain : Plain other) :
    Plain (text ++ other) := by
  intro byte member
  rcases List.mem_append.mp member with inText | inOther
  · exact plain byte inText
  · exact otherPlain byte inOther

theorem Plain.zero_not_mem {text : List UInt8} (plain : Plain text) : 0 ∉ text :=
  fun member => (plain 0 member).2 rfl

theorem Plain.cString {text : List UInt8} (plain : Plain text) (rest : List UInt8) :
    cString (text ++ 0 :: rest) = .ok text := by
  rw [cString_append, takeWhile_of_not_mem plain.zero_not_mem]

theorem plain_twoDigits (number : Nat) : Plain (twoDigits number) := by
  have digit (value : Nat) : UInt8.ofNat (48 + value % 10) ≠ 37 ∧
      UInt8.ofNat (48 + value % 10) ≠ 0 := by
    rw [Ne, Ne, ← UInt8.toNat_inj, ← UInt8.toNat_inj, UInt8.toNat_ofNat',
      show (37 : UInt8).toNat = 37 from rfl, show (0 : UInt8).toNat = 0 from rfl]
    omega
  intro byte member
  simp only [twoDigits, List.mem_cons, List.not_mem_nil, or_false] at member
  rcases member with rfl | rfl
  · exact digit _
  · exact digit _

theorem plain_number (number : Int) : Plain (bytesOf (toString number)) := by
  intro byte member
  rcases mem_bytesOf_toString member with rfl | ⟨low, -⟩
  · decide
  · constructor
    · rintro rfl
      exact absurd low (by decide)
    · rintro rfl
      exact absurd low (by decide)

theorem plain_logLevels (level : Level) : Plain (logLevels level) := by
  cases level <;> decide +kernel

theorem plain_timeStr (context : Context) : Plain (timeStr context) := by
  have colon : Plain (bytesOf ":") := by decide +kernel
  have point : Plain (bytesOf ".") := by decide +kernel
  exact (((((plain_twoDigits _).append colon).append (plain_twoDigits _)).append colon).append
    (plain_twoDigits _)).append point |>.append (plain_number _)

/-- The heading can be used as a format. -/
theorem plain_heading (context : Context) (level : Level) : Plain (heading context level) := by
  have opens : Plain (bytesOf "[") := by decide +kernel
  have time : Plain (bytesOf "]>") := by decide +kernel
  have ids : Plain (bytesOf "<[") := by decide +kernel
  have dash : Plain (bytesOf "-") := by decide +kernel
  have closes : Plain (bytesOf "] ") := by decide +kernel
  have front := ((opens.append (plain_logLevels level)).append time).append (plain_timeStr context)
  exact ((((((front.append ids).append (plain_number _)).append dash).append
    (plain_number _)).append dash).append (plain_number _)).append closes

theorem length_heading_le (context : Context) (level : Level) :
    (heading context level).length ≤ 70 := by
  have levels : (logLevels level).length = 1 := by cases level <;> decide +kernel
  have usec := @length_toString_le (context.tv_usec : Int) 6
    (by have := context.tv_usec_lt; omega) (by decide)
  have pid := @length_toString_le context.pid 10 (by have := context.pid_int; omega) (by decide)
  have tid := @length_toString_le context.tid 10 (by have := context.tid_int; omega) (by decide)
  have cid := @length_toString_le (context.cid : Int) 20
    (by have := context.cid_long; omega) (by decide)
  have literals : (bytesOf "[").length = 1 ∧ (bytesOf "]>").length = 2 ∧
      (bytesOf "<[").length = 2 ∧ (bytesOf "-").length = 1 ∧ (bytesOf "] ").length = 2 ∧
      (bytesOf ":").length = 1 ∧ (bytesOf ".").length = 1 := by decide +kernel
  simp only [heading, timeStr, twoDigits, List.length_append, List.length_cons, List.length_nil,
    levels, length_bytesOf (toString _)]
  omega

theorem render_string {memory text : List UInt8} (read : cString memory = .ok text)
    (rest : List UInt8) (args : List Argument) :
    render (37 :: 115 :: rest) (.string memory :: args) = (text ++ ·) <$> render rest args := by
  rw [render, read, ok_bind]
  cases render rest args <;> rfl

theorem render_int (value : Int) (rest : List UInt8) (args : List Argument) :
    render (37 :: 100 :: rest) (.int value :: args) =
      (bytesOf (toString value) ++ ·) <$> render rest args := by
  rw [render]
  cases render rest args <;> rfl

theorem render_unsigned (value : Nat) (rest : List UInt8) (args : List Argument) :
    render (37 :: 108 :: 117 :: rest) (.unsigned value :: args) =
      (bytesOf (toString (value : Int)) ++ ·) <$> render rest args := by
  rw [render]
  cases render rest args <;> rfl

theorem render_logFmt (context : Context) (level : Level) :
    render logFmt [.string (logLevels level ++ [0]), .string (timeStr context ++ [0]),
      .int context.pid, .int context.tid, .unsigned context.cid,
      .string (bytesOf "%s" ++ [0])] = .ok (heading context level ++ [37, 115]) := by
  have parts : logFmt = bytesOf "[" ++ 37 :: 115 :: (bytesOf "]>" ++ 37 :: 115 ::
      (bytesOf "<[" ++ 37 :: 100 :: (bytesOf "-" ++ 37 :: 100 :: (bytesOf "-" ++
        37 :: 108 :: 117 :: (bytesOf "] " ++ 37 :: 115 :: []))))) := by decide +kernel
  have last : cString (bytesOf "%s" ++ [0]) = .ok [37, 115] := by decide +kernel
  rw [parts, render_literal (by decide +kernel), render_string ((plain_logLevels level).cString []),
    render_literal (by decide +kernel), render_string ((plain_timeStr context).cString []),
    render_literal (by decide +kernel), render_int, render_literal (by decide +kernel), render_int,
    render_literal (by decide +kernel), render_unsigned, render_literal (by decide +kernel),
    render_string last, render]
  simp only [Except.map_ok, heading, List.append_assoc, List.append_nil]

/-- What a line of the log is, if the message ends within its buffer. -/
theorem log_printf_eq (context : Context) (buf : LogBuffer) (level : Level)
    {buffer text : List UInt8} (read : cString buffer = .ok text)
    (short : (heading context level ++ text).length < 2 ^ 31) :
    ∃ written, log_printf context buf level buffer = .ok written ∧
      written.count = (heading context level ++ text).length ∧
      written.formatted = min (heading context level ++ text).length (LOG_BUFFER_SIZE - 1) := by
  have bound := length_heading_le context level
  generalize size : (heading context level ++ [37, 115]).length = count
  have counted : count ≤ 72 := by
    rw [← size, List.length_append]
    exact Nat.add_le_add_right bound 2
  have whole : (heading context level ++ [37, 115]).take (1024 - 1) =
      heading context level ++ [37, 115] := List.take_of_length_le (by omega)
  have ends : ∃ rest, copyIn (heading context level ++ [37, 115] ++
      0 :: (List.replicate 1024 0).drop (count + 1)) count [0] =
        .ok (heading context level ++ [37, 115] ++ 0 :: rest) := by
    have inside : Within (heading context level ++ [37, 115] ++
        0 :: (List.replicate 1024 (0 : UInt8)).drop (count + 1)) count [(0 : UInt8)].length := by
      refine Or.inr ⟨Int.natCast_nonneg _, ?_⟩
      rw [List.length_append, size]
      simp only [List.length_cons, List.length_nil]
      omega
    have front : (heading context level ++ [37, 115] ++
        0 :: (List.replicate 1024 0).drop (count + 1)).take count =
          heading context level ++ [37, 115] := by
      rw [← size, List.take_left]
    exact ⟨(heading context level ++ [37, 115] ++
      0 :: (List.replicate 1024 0).drop (count + 1)).drop (count + 1),
      (if_pos inside).trans (by rw [front]; rfl)⟩
  obtain ⟨rest, stored⟩ := ends
  have absent : 0 ∉ heading context level ++ [37, 115] := by
    intro member
    rcases List.mem_append.mp member with inHeading | inFormat
    · exact (plain_heading context level).zero_not_mem inHeading
    · exact absurd inFormat (by decide)
  have format : cString (heading context level ++ [37, 115] ++ 0 :: rest) =
      .ok (heading context level ++ [37, 115]) := by
    rw [cString_append, takeWhile_of_not_mem absent]
  have rendered : render (heading context level ++ [37, 115]) [.string buffer] =
      .ok (heading context level ++ text) := by
    rw [render_literal fun byte member => ((plain_heading context level) byte member).1,
      render_string read, render]
    simp only [Except.map_ok, List.append_nil]
  have room : ((heading context level ++ text).take (LOG_BUFFER_SIZE - 1)).length <
      buf.bytes.length := by
    rw [buf.size, List.length_take, LOG_BUFFER_SIZE]
    omega
  have headerRoom : ((heading context level ++ [37, 115]).take (1024 - 1)).length <
      (List.replicate 1024 (0 : UInt8)).length := by
    rw [whole, size, List.length_replicate]
    omega
  have fits : checked (count : Int) = .ok count := by
    rw [checked, if_neg (by omega), Int.toNat_natCast]
  have printed := snprintf_eq (heading context level ++ text) room
  rw [if_pos short] at printed
  obtain ⟨after, printed⟩ : ∃ after, snprintf buf.bytes LOG_BUFFER_SIZE
      (heading context level ++ text) = .ok (after, (heading context level ++ text).length) :=
    ⟨_, printed⟩
  refine ⟨⟨after, min (heading context level ++ text).length (LOG_BUFFER_SIZE - 1),
    (heading context level ++ text).length⟩, ?_, ?_, rfl⟩
  · rw [log_printf, render_logFmt, ok_bind, snprintf_eq _ headerRoom, ok_bind, whole, size,
      if_pos (by omega)]
    simp only [fits, ok_bind, stored, format, rendered, printed]
    rfl
  · show (((heading context level ++ text).length : Int) % 2 ^ 64).toNat = _
    omega

/-- The message can be read to its end, or it cannot. -/
theorem safe_log_iff (context : Context) (buf : LogBuffer) (level : Level)
    (message : List UInt8) :
    Safe message (log context buf level message) ↔
      (heading context level).length + (content message).length ≤ LOG_BUFFER_SIZE - 1 := by
  have ends := length_content_lt_iff message
  have size : (shaped message ++
      List.replicate (LOG_BUFFER_SIZE - (shaped message).length) 0).length = LOG_BUFFER_SIZE := by
    have bound := length_shaped_le message
    rw [List.length_append, List.length_replicate]
    omega
  have read (member : 0 ∈ shaped message ++
      List.replicate (LOG_BUFFER_SIZE - (shaped message).length) 0) :
      cString (shaped message ++
        List.replicate (LOG_BUFFER_SIZE - (shaped message).length) 0) = .ok (content message) := by
    rw [cString_of_mem member, takeWhile_append_zeros]
    rfl
  have limit : LOG_BUFFER_SIZE = 4096 := rfl
  have bound := length_heading_le context level
  unfold Safe log
  rw [compose_eq, ok_bind]
  generalize shaped message ++
    List.replicate (LOG_BUFFER_SIZE - (shaped message).length) 0 = buffer at ends size read ⊢
  by_cases terminated : 0 ∈ buffer
  · have short := ends.mpr terminated
    obtain ⟨written, logged, count, formatted⟩ := log_printf_eq context buf level
      (read terminated) (by rw [List.length_append]; omega)
    rw [logged]
    rw [List.length_append] at count formatted
    constructor
    · rintro (dropped | ⟨-, other, same, fits⟩)
      · cases dropped
      · cases same
        omega
    · intro fits
      exact Or.inr ⟨⟨buffer, rfl, size, terminated⟩, written, rfl, by omega⟩
  · have long := mt ends.mp terminated
    refine iff_of_false ?_ (by omega)
    rintro (dropped | ⟨⟨other, same, -, member⟩, -⟩)
    · cases logged : log_printf context buf level buffer with
      | error fault =>
        rw [logged] at dropped
        cases dropped
      | ok written =>
        rw [logged] at dropped
        cases dropped
    · cases same
      exact terminated member

/-- A message is logged within the buffers if and only if it is dropped, or there is room for the
heading and for what stands in front of its first zero, newline included, in one buffer. -/
theorem safe_call_iff (level : LoggerLevel) (context : Context) (buf : LogBuffer)
    (message : List UInt8) (made : Call) :
    Safe message (call level context buf message made) ↔
      made.dropped level ∨ (heading context made.heads).length + (content message).length ≤
        LOG_BUFFER_SIZE - 1 := by
  have gated (least : Nat) (heads : Level) :
      Safe message (if level.toNat < least then .ok none else log context buf heads message) ↔
        level.toNat < least ∨ (heading context heads).length + (content message).length ≤
          LOG_BUFFER_SIZE - 1 := by
    by_cases low : level.toNat < least
    · rw [if_pos low]
      exact iff_of_true (Or.inl rfl) (Or.inl low)
    · rw [if_neg low, safe_log_iff, or_iff_right low]
  cases made with
  | printf => exact (safe_log_iff context buf .INFO message).trans (or_iff_right id).symm
  | debug => exact gated LoggerLevel.DEBUG.toNat .DEBUG
  | info => exact gated LoggerLevel.INFO.toNat .INFO
  | error => exact gated LoggerLevel.ERROR.toNat .ERROR

/-- Noon, in the first process. -/
def noon : Context where
  hour := 12
  minute := 0
  second := 0
  tv_usec := 0
  pid := 1
  tid := 1
  cid := 0
  tv_usec_lt := by decide
  pid_int := by decide
  tid_int := by decide
  cid_long := by decide

def emptyBuffer : LogBuffer where
  bytes := List.replicate LOG_BUFFER_SIZE 0
  size := List.length_replicate

/-- A message that fills the first buffer. -/
def longMessage : List UInt8 := List.replicate 4095 120

theorem not_safe_longMessage :
    ¬ ∀ (level : LoggerLevel) (context : Context) (buf : LogBuffer) (message : List UInt8)
      (made : Call), Safe message (call level context buf message made) := by
  intro safe
  have fits := (safe_log_iff noon emptyBuffer .INFO longMessage).mp
    (safe .INFO noon emptyBuffer longMessage .printf)
  have absent : 0 ∉ longMessage ++ [10] := by
    intro member
    rcases List.mem_append.mp member with inMessage | inNewline
    · exact absurd (List.eq_of_mem_replicate inMessage) (by decide)
    · exact absurd inNewline (by decide)
  have length : longMessage.length = 4095 := List.length_replicate
  have shape : shaped longMessage = longMessage ++ [10] := by
    rw [shaped, if_pos]
    rw [length]
    decide
  rw [content, shape, takeWhile_of_not_mem absent, List.length_append, length] at fits
  have limit : LOG_BUFFER_SIZE = 4096 := rfl
  rw [List.length_singleton] at fits
  omega

end Nattan.Logger
