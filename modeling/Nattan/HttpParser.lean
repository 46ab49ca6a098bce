/-
This file models `HttpParser` over the vendored `http_parser`. When its result does not
depend on how a message is cut into `parse()` calls is the subject of
`Nattan/HttpSegmentation.lean`.

`http_parser` itself is a parameter: a state, an initial state for each type, and an
execute function that returns the callbacks it fires and the number of bytes it
parsed. What is used of it is how it delivers the parts of a message. A url, a
reason phrase, a header name and a header value end when their delimiter is seen; a
call whose input ends before the delimiter delivers what it has, and the next call
starts a new span, an empty one when nothing but the delimiter was missing. A body
is counted, so it ends without a delimiter.

The callbacks of `HttpParser` append the spans of a body, but a span of a url, a
reason phrase or a header name replaces the one before it, and a span of a header
value replaces the value stored for the current name. So what is left of each is its
last piece, and for a value its last non-empty piece.
-/

import Mathlib.Logic.Function.Basic
import Nattan.Buffer

namespace Nattan

/-! ### `http_parser` -/

/-- `http_parser_type`. -/
inductive HttpParserType where
  | request
  | response
  deriving DecidableEq, Repr

/-- What `on_headers_complete` reads from the `http_parser`. -/
structure HeadersInfo where
  method : Nat
  status_code : Nat
  http_major : Nat
  http_minor : Nat
  shouldKeepAlive : Bool
  deriving DecidableEq, Repr

/-- A callback with the span it is given. -/
inductive Callback where
  | messageBegin
  | url (span : List UInt8)
  | status (span : List UInt8)
  | headerField (span : List UInt8)
  | headerValue (span : List UInt8)
  | headersComplete (info : HeadersInfo)
  | body (span : List UInt8)
  | messageComplete
  deriving DecidableEq, Repr

/-- The vendored parser. `execute skipBody` is `http_parser_execute` with callbacks that return
zero, except that `on_headers_complete` returns one when `skipBody` is set. -/
structure HttpParserLibrary where
  State : Type
  init : HttpParserType → State
  execute : Bool → State → List UInt8 → State × List Callback × Nat

/-! ### `HttpHeader` and `HttpParser` -/

/-- `HTTP_VERSION`. -/
inductive HttpVersion where
  | http09
  | http10
  | http11
  deriving DecidableEq, Repr

/-- The members of `HttpHeader` that parsing writes. `method` and `status_code` are not
initialised. -/
structure HttpHeader where
  version : HttpVersion
  type : HttpParserType
  method : Option Int
  status_code : Option Int
  uri : List UInt8
  status_desc : List UInt8
  fHeaders : List UInt8 → Option (List UInt8)

def HttpHeader.new (type : HttpParserType) : HttpHeader where
  version := .http11
  type := type
  method := none
  status_code := none
  uri := []
  status_desc := []
  fHeaders := fun _ => none

/-- `setHeader` on the map of headers. -/
def setHeader (fHeaders : List UInt8 → Option (List UInt8)) (key value : List UInt8) :
    List UInt8 → Option (List UInt8) :=
  if key = [] ∨ value = [] then fHeaders else Function.update fHeaders key (some value)

/-- `HttpHeader::reset`. The other members keep what they have. -/
def HttpHeader.reset (header : HttpHeader) : HttpHeader :=
  { header with fHeaders := fun _ => none }

/-- The members of `HttpParser` that the callbacks write. The body is the bytes handed to
`HttpBody::write` since it was constructed or reset. -/
structure HttpMessage where
  header : HttpHeader
  body : List UInt8
  bEndOfMessage : Bool
  bHeadRequest : Bool
  bKeepalive : Bool
  bHeadersCompleted : Bool
  fHeaderKey : List UInt8

structure HttpParser (library : HttpParserLibrary) extends HttpMessage where
  bInited : Bool
  fParser : library.State

namespace HttpMessage

/-- What a callback does. -/
def on (message : HttpMessage) : Callback → HttpMessage
  | .messageBegin => message
  | .url span => { message with header := { message.header with uri := span } }
  | .status span => { message with header := { message.header with status_desc := span } }
  | .headerField span => { message with fHeaderKey := span }
  | .headerValue span =>
    { message with header := { message.header with
        fHeaders := setHeader message.header.fHeaders message.fHeaderKey span } }
  | .headersComplete info =>
    { message with
      header := { message.header with
        method := if message.header.type = .request then some info.method
          else message.header.method
        status_code := if message.header.type = .request then message.header.status_code
          else some info.status_code
        version := if 0 < info.http_major ∧ 0 < info.http_minor then message.header.version
          else .http10 }
      bKeepalive := info.shouldKeepAlive
      bHeadersCompleted := true }
  | .body span => { message with body := message.body ++ span }
  | .messageComplete => { message with bEndOfMessage := true }

/-- What a user of a parser sees of the message. -/
structure Observation where
  uri : List UInt8
  status_desc : List UInt8
  headers : List UInt8 → Option (List UInt8)
  body : List UInt8
  keepalive : Bool
  headersCompleted : Bool
  eof : Bool

def observe (message : HttpMessage) : Observation where
  uri := message.header.uri
  status_desc := message.header.status_desc
  headers := message.header.fHeaders
  body := message.body
  keepalive := message.bKeepalive
  headersCompleted := message.bHeadersCompleted
  eof := message.bEndOfMessage

def new (type : HttpParserType) : HttpMessage where
  header := HttpHeader.new type
  body := []
  bEndOfMessage := false
  bHeadRequest := false
  bKeepalive := false
  bHeadersCompleted := false
  fHeaderKey := []

end HttpMessage

namespace HttpParser

variable {library : HttpParserLibrary}

def new (library : HttpParserLibrary) (type : HttpParserType) : HttpParser library where
  toHttpMessage := HttpMessage.new type
  bInited := false
  fParser := library.init type

def eof (parser : HttpParser library) : Bool :=
  parser.bEndOfMessage

def init (parser : HttpParser library) : HttpParser library :=
  { parser with
    bKeepalive := false
    bHeadersCompleted := false
    bEndOfMessage := false
    bInited := true
    fParser := library.init parser.header.type }

def reset (parser : HttpParser library) : HttpParser library :=
  { parser with
    bEndOfMessage := false
    bHeadersCompleted := false
    bHeadRequest := false
    bKeepalive := false
    bInited := false
    header := parser.header.reset
    body := []
    fHeaderKey := [] }

/-- What `on_headers_complete` returns is not zero. -/
def skipsBody (parser : HttpParser library) : Bool :=
  parser.header.type = .response && parser.bHeadRequest

/-- `parse(buf, buf_len)`, with the `int` it returns. -/
def parse (parser : HttpParser library) (buf : List UInt8) : HttpParser library × Int :=
  let parser := if parser.bInited then parser else parser.init
  let (fParser, callbacks, parsed) := library.execute parser.skipsBody parser.fParser buf
  ({ parser with toHttpMessage := callbacks.foldl HttpMessage.on parser.toHttpMessage, fParser },
    Buffer.toInt parsed)

/-- Consecutive `parse()` calls. -/
def parseAll (parser : HttpParser library) (chunks : List (List UInt8)) : HttpParser library :=
  chunks.foldl (fun parser chunk => (parser.parse chunk).1) parser

/-- A parser that has no message in progress. -/
structure Fresh (parser : HttpParser library) : Prop where
  bInited : parser.bInited = false
  bHeadRequest : parser.bHeadRequest = false
  bEndOfMessage : parser.bEndOfMessage = false
  bHeadersCompleted : parser.bHeadersCompleted = false
  bKeepalive : parser.bKeepalive = false

theorem fresh_new (type : HttpParserType) : (HttpParser.new library type).Fresh :=
  ⟨rfl, rfl, rfl, rfl, rfl⟩

end HttpParser

end Nattan
