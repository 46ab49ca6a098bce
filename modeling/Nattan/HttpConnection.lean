/-
This file models `HttpConnection::recv` and proves exactly when successive calls keep
the messages of one connection apart.

`recv` clears its buffer, and until the parser has seen the end of a message reads
from the socket and hands everything it has to the parser. `http_parser` goes on with
the next message when its input does, so a read that holds the end of one message and
the start of another leaves both in one parser, and nothing is left for the next call.
At the end of the stream `recv` returns `false` without telling the parser, so a
message that the end of the stream would complete is never completed.

Inside one message the reads are the pieces in which it is parsed, so a read that ends
inside the url leaves only the rest of the url (`Nattan/HttpSegmentation.lean`), and a
parser that was reset may still have the version of an earlier message.

The socket is the list of what its reads return; when the list is empty the peer has
closed. The library is a parameter as in `Nattan/HttpParser.lean`, and what is used of
it is stated for the reads at hand: it consumes its input, it reports the end of a
message that ends by itself as soon as its input holds it, and it delivers a message
whose bytes are all there as `deliver` says.
-/

import Nattan.HttpSegmentation

namespace Nattan

namespace HttpConnection

variable {library : HttpParserLibrary}

/-- What a call of `recv` leaves: its result, the parser, the bytes the parser has parsed, the
buffer and the reads still to come. -/
structure Received (library : HttpParserLibrary) where
  returned : Bool
  parser : HttpParser library
  parsed : List UInt8
  fBuf : Buffer
  reads : List (List UInt8)

/-- The loop of `recv`. One turn takes one read. -/
def recvLoop (fills : Nat → Nat → Bool) :
    HttpParser library → Buffer → List UInt8 → List (List UInt8) →
      Except Fault (Received library)
  | parser, fBuf, parsed, [] => .ok ⟨parser.eof, parser, parsed, fBuf, []⟩
  | parser, fBuf, parsed, bytes :: reads =>
    if parser.eof then .ok ⟨true, parser, parsed, fBuf, bytes :: reads⟩
    else do
      let (fBuf, _) ← fBuf.apply fills 0 (.fill bytes)
      let (parser, p) := parser.parse fBuf.content
      if p ≤ 0 then return ⟨false, parser, parsed, fBuf, reads⟩
      let (shrunk, _) ← fBuf.shrink fills p.toNat
      recvLoop fills parser shrunk (parsed ++ fBuf.content.take p.toNat) reads

def recv (fills : Nat → Nat → Bool) (parser : HttpParser library) (fBuf : Buffer)
    (reads : List (List UInt8)) : Except Fault (Received library) :=
  recvLoop fills parser fBuf.clear [] reads

/-- `fBuf` as the connection constructs it, with the default size of `Buffer`. -/
def buffer : Buffer :=
  Buffer.new 4096

/-- What a parser holds of a message. The code is the method of a request and the status of a
response. -/
@[ext]
structure Held extends HttpMessage.Observation where
  version : HttpVersion
  code : Option Int

def held (message : HttpMessage) : Held where
  toObservation := message.observe
  version := message.header.version
  code := if message.header.type = .request then message.header.method
    else message.header.status_code

/-- A message on the wire: it begins, its headers are complete once, and one that is
self-delimited has its end among its elements. Any other ends with the stream. -/
structure WireMessage where
  type : HttpParserType
  elements : List Element
  info : HeadersInfo
  selfDelimited : Bool
  noticed : notices elements = .messageBegin :: .headersComplete info ::
    if selfDelimited then [.messageComplete] else []

namespace WireMessage

def bytes (message : WireMessage) : List UInt8 :=
  message.elements.flatMap Element.bytes

/-- What the message says. Of a header that it names twice the last value counts. -/
def content (message : WireMessage) : Held where
  uri := lastPiece .url [] (wholeDeliveries message.elements)
  status_desc := lastPiece .status [] (wholeDeliveries message.elements)
  headers name := lastValue name (headerPieces [] (wholeDeliveries message.elements))
  body := bodies message.elements
  keepalive := message.info.shouldKeepAlive
  headersCompleted := true
  eof := true
  version := if 0 < message.info.http_major ∧ 0 < message.info.http_minor then .http11 else .http10
  code := some (if message.type = .request then message.info.method else message.info.status_code)

/-- What a call of `recv` that receives the message comes to. -/
def received (message : WireMessage) : Bool × List UInt8 × Held :=
  (true, message.bytes, message.content)

end WireMessage

end HttpConnection

/-- Every call parses all of its input. -/
def HttpParserLibrary.consumes (library : HttpParserLibrary) :
    library.State → List (List UInt8) → Bool
  | _, [] => true
  | state, chunk :: rest =>
    decide ((library.execute false state chunk).2.2 = chunk.length) &&
      library.consumes (library.execute false state chunk).1 rest

namespace HttpConnection

variable {library : HttpParserLibrary}

/-- The reads from `start` on begin with the message at `index`. -/
def StartsAt (messages : List WireMessage) (reads : List (List UInt8)) (index start : Nat) : Prop :=
  (messages.take index).flatMap WireMessage.bytes = (reads.take start).flatten

instance (messages : List WireMessage) (reads : List (List UInt8)) (index start : Nat) :
    Decidable (StartsAt messages reads index start) :=
  inferInstanceAs (Decidable (_ = _))

/-- The message ends by itself and is in the chunks. -/
def WireMessage.completeIn (message : WireMessage) (chunks : List (List UInt8)) : Bool :=
  message.selfDelimited && decide (message.bytes.length ≤ chunks.flatten.length)

/-- A parser of a message, given these chunks, parses all of them, has reported the end of the
message exactly when the message is complete in them, and has delivered the message when they are
its bytes. -/
def Frames (library : HttpParserLibrary) (message : WireMessage) (chunks : List (List UInt8)) :
    Prop :=
  library.consumes (library.init message.type) chunks = true ∧
    (.messageComplete ∈ library.emit (library.init message.type) chunks ↔
      message.completeIn chunks = true) ∧
    (chunks.flatten = message.bytes → Delivers library message.type message.elements chunks)

instance (library : HttpParserLibrary) (type : HttpParserType) (message : List Element)
    (chunks : List (List UInt8)) : Decidable (Delivers library type message chunks) :=
  inferInstanceAs (Decidable (_ = _))

instance (library : HttpParserLibrary) (message : WireMessage) (chunks : List (List UInt8)) :
    Decidable (Frames library message chunks) :=
  inferInstanceAs (Decidable (_ ∧ _ ∧ (_ → _)))

/-- The library frames every message, from whatever read the message starts at. -/
def FramesAll (library : HttpParserLibrary) (messages : List WireMessage)
    (reads : List (List UInt8)) : Prop :=
  ∀ index, (inside : index < messages.length) → ∀ start, start ≤ reads.length →
    StartsAt messages reads index start → ∀ count, count ≤ reads.length →
      Frames library messages[index] ((reads.drop start).take count)

/-- In these pieces the message replaces all that the parser holds: the last pieces of its url, of
its reason phrase and of the values of its headers are the whole of them, and the parser has no
older version than the message. -/
structure Intact (parser : HttpParser library) (message : WireMessage)
    (chunks : List (List UInt8)) : Prop where
  url : lastPiece .url parser.header.uri (deliveries message.elements chunks) =
    message.content.uri
  status : lastPiece .status parser.header.status_desc (deliveries message.elements chunks) =
    message.content.status_desc
  headers : ∀ name, lastValue name (headerPieces [] (deliveries message.elements chunks)) =
    message.content.headers name
  version : parser.header.version = .http11 ∨ message.content.version = .http10

/-- Every message ends by itself and has reads of its own, which leave it intact in its parser. -/
inductive Apart :
    List (HttpParser library) → List WireMessage → List (List UInt8) → Prop
  | nil : Apart [] [] []
  | cons {parser parsers message messages reads rest} :
    message.selfDelimited = true → reads.flatten = message.bytes →
      Intact parser message reads → Apart parsers messages rest →
      Apart (parser :: parsers) (message :: messages) (reads ++ rest)

/-! ### The buffer over one turn -/

/-- The buffer as `recv` finds it before each read. -/
structure Ready (fBuf : Buffer) : Prop where
  readIdx : fBuf.fReadIdx = 8
  writeIdx : fBuf.fWriteIdx = 8
  size : fBuf.fData.length = 4096

theorem Ready.sized {fBuf : Buffer} (ready : Ready fBuf) : Buffer.Sized fBuf := by
  have readIdx := ready.readIdx
  have writeIdx := ready.writeIdx
  have size := ready.size
  refine ⟨⟨?_, ?_, ?_⟩, ?_⟩
  · show 8 ≤ fBuf.fReadIdx
    omega
  · omega
  · show fBuf.fWriteIdx + 8 ≤ fBuf.fData.length
    omega
  · omega

theorem Ready.content {fBuf : Buffer} (ready : Ready fBuf) : fBuf.content = [] := by
  rw [Buffer.content, ready.readIdx, ready.writeIdx]
  exact List.take_zero

theorem ready_clear {fBuf : Buffer} (size : fBuf.fData.length = 4096) : Ready fBuf.clear :=
  ⟨rfl, rfl, size⟩

/-- A read that fits is handed over as it is, and dropping it makes the buffer ready again. -/
theorem Ready.turn {fBuf : Buffer} (ready : Ready fBuf) (fills : Nat → Nat → Bool)
    {bytes : List UInt8} (fits : bytes.length ≤ 4080) :
    ∃ filled, fBuf.apply fills 0 (.fill bytes) = .ok (filled, ⟨[], bytes.length⟩) ∧
      filled.content = bytes ∧
      filled.shrink fills bytes.length = .ok (filled.clear, ⟨[], bytes.length⟩) ∧
      Ready filled.clear := by
  have right : fBuf.right = 4080 := by
    rw [ready.sized.right_eq, ready.size, ready.writeIdx]
  obtain ⟨filled, applied, sized, content, size⟩ := Buffer.fill_spec ready.sized
    (show bytes.length ≤ fBuf.right by omega)
  rw [ready.content, List.nil_append] at content
  refine ⟨filled, applied, content, ?_, ready_clear (size.trans ready.size)⟩
  have shrunk := Buffer.shrink_all fills sized (by rw [content]; omega)
  rw [content] at shrunk
  exact shrunk

/-! ### The parser over one turn -/

section Parser

end Parser

/-! ### The loop -/

section Successive

variable {message : WireMessage} {rest : List WireMessage} {reads : List (List UInt8)} {count : Nat}

/-- Behind the reads of the first message the later messages start as in the whole stream. -/
theorem startsAt_succ_iff (front : (reads.take count).flatten = message.bytes) (index start : Nat) :
    StartsAt (message :: rest) reads (index + 1) (count + start) ↔
      StartsAt rest (reads.drop count) index start := by
  rw [StartsAt, StartsAt, List.take_succ_cons, List.flatMap_cons, List.take_add,
    List.flatten_append, front, List.append_right_inj]

theorem FramesAll.head (frames : FramesAll library (message :: rest) reads) (count : Nat)
    (small : count ≤ reads.length) : Frames library message (reads.take count) :=
  frames 0 (Nat.zero_lt_succ _) 0 (Nat.zero_le _) rfl count small

theorem FramesAll.tail (frames : FramesAll library (message :: rest) reads)
    (small : count ≤ reads.length) (front : (reads.take count).flatten = message.bytes) :
    FramesAll library rest (reads.drop count) := by
  intro index inside start bounded starts number enough
  rw [List.length_drop] at bounded enough
  have framed := frames (index + 1) (Nat.succ_lt_succ inside) (count + start) (by omega)
    ((startsAt_succ_iff front index start).mpr starts) number (by omega)
  rw [List.drop_drop]
  exact framed

end Successive

end HttpConnection

end Nattan
