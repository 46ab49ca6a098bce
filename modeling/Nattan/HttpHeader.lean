/-
This file models how `HttpHeader` serialises itself, and an `HttpParser` object with
everything a caller can do to its header.

`std::map` keeps the headers in the order of their keys, and `dumpToBuffer` writes
them in that order, so the keys are kept beside the function `fHeaders`. Beside them
is kept which members of the header were assigned since the object was constructed
or reset; the program has no such record, and nothing it does depends on it.

`dumpToBuffer` is not only an observer: a response without a reason phrase gets the
standard phrase of its status code, and keeps it.
-/

import Nattan.File
import Nattan.HttpParser
import Nattan.Text

namespace Nattan

/-- The names the vendored parser has for its numbers. -/
structure HttpNames where
  http_method_str : Int → List UInt8
  http_status_str : Int → List UInt8

/-- A method and two status codes under their standard names. -/
def fewNames : HttpNames where
  http_method_str := fun method => if method = 1 then bytesOf "GET" else bytesOf "<unknown>"
  http_status_str := fun status_code =>
    if status_code = 200 then bytesOf "OK"
    else if status_code = 404 then bytesOf "Not Found"
    else bytesOf "<unknown>"

/-- `HTTP_VERSION_STR`. -/
def HttpVersion.str : HttpVersion → List UInt8
  | .http09 => bytesOf "HTTP/0.9"
  | .http10 => bytesOf "HTTP/1.0"
  | .http11 => bytesOf "HTTP/1.1"

namespace HttpHeader

/-- Insert a key into the keys of a `std::map`, which are in increasing order. -/
def insertKey (key : List UInt8) : List (List UInt8) → List (List UInt8)
  | [] => [key]
  | first :: rest =>
    if key = first then first :: rest
    else if key.lex first (fun left right => decide (left < right)) then key :: first :: rest
    else first :: insertKey key rest

/-- What `setHeader` does to the keys. -/
def keysAfter (keys : List (List UInt8)) (key value : List UInt8) : List (List UInt8) :=
  if key = [] ∨ value = [] then keys else insertKey key keys

/-- The lines of the headers, each with its end of line. -/
def lines (keys : List (List UInt8)) (fHeaders : List UInt8 → Option (List UInt8)) :
    List UInt8 :=
  keys.flatMap fun key =>
    match fHeaders key with
    | some value => key ++ bytesOf ": " ++ value ++ bytesOf "\r\n"
    | none => []

/-- The first line of a request. -/
def requestLine (names : HttpNames) (header : HttpHeader) (method : Int) : List UInt8 :=
  names.http_method_str method ++ bytesOf " " ++ header.uri ++ bytesOf " " ++
    header.version.str ++ bytesOf "\r\n"

/-- The reason phrase that `dumpToBuffer` leaves in `status_desc`, and writes. -/
def phrase (names : HttpNames) (header : HttpHeader) (status_code : Int) : List UInt8 :=
  if header.status_desc = [] then names.http_status_str status_code else header.status_desc

/-- The first line of a response. -/
def statusLine (names : HttpNames) (header : HttpHeader) (status_code : Int) : List UInt8 :=
  header.version.str ++ bytesOf " " ++ bytesOf (toString status_code) ++ bytesOf " " ++
    header.phrase names status_code ++ bytesOf "\r\n"

/-- `dumpToBuffer`, with the header it leaves and the content of the buffer. Nothing is said of
what it does when the method or the status code it reads was never assigned. -/
def dumpToBuffer (names : HttpNames) (keys : List (List UInt8)) (header : HttpHeader) :
    Option (HttpHeader × List UInt8) :=
  match header.type with
  | .request => header.method.map fun method =>
    (header, header.requestLine names method ++ lines keys header.fHeaders ++ bytesOf "\r\n")
  | .response => header.status_code.map fun status_code =>
    ({ header with status_desc := header.phrase names status_code },
      header.statusLine names status_code ++ lines keys header.fHeaders ++ bytesOf "\r\n")

end HttpHeader

/-! ### The object and its operations -/

/-- Which members of the header were assigned since the object was constructed or reset. -/
structure Assigned where
  version : Bool
  method : Bool
  status_code : Bool
  uri : Bool
  status_desc : Bool
  deriving DecidableEq, Repr

def Assigned.none : Assigned :=
  ⟨false, false, false, false, false⟩

/-- What a callback assigns. -/
def Assigned.on (assigned : Assigned) (type : HttpParserType) : Callback → Assigned
  | .url _ => { assigned with uri := true }
  | .status _ => { assigned with status_desc := true }
  | .headersComplete info =>
    { assigned with
      method := assigned.method || decide (type = .request)
      status_code := assigned.status_code || decide (type ≠ .request)
      version := assigned.version || decide (¬ (0 < info.http_major ∧ 0 < info.http_minor)) }
  | .messageBegin | .headerField _ | .headerValue _ | .body _ | .messageComplete => assigned

/-- An `HttpRequest` or `HttpResponse`. -/
structure HttpObject (library : HttpParserLibrary) where
  parser : HttpParser library
  keys : List (List UInt8)
  assigned : Assigned

namespace HttpObject

variable {library : HttpParserLibrary}

def new (library : HttpParserLibrary) (type : HttpParserType) : HttpObject library where
  parser := HttpParser.new library type
  keys := []
  assigned := Assigned.none

def reset (object : HttpObject library) : HttpObject library where
  parser := object.parser.reset
  keys := []
  assigned := Assigned.none

/-- The keys of the headers after a callback. -/
def keysOn (message : HttpMessage) (keys : List (List UInt8)) :
    Callback → List (List UInt8)
  | .headerValue span => HttpHeader.keysAfter keys message.fHeaderKey span
  | .messageBegin | .url _ | .status _ | .headerField _ | .headersComplete _ | .body _
  | .messageComplete => keys

/-- The keys of the headers after the callbacks of a call of `parse`. -/
def keysOnAll (message : HttpMessage) (keys : List (List UInt8)) :
    List Callback → List (List UInt8)
  | [] => keys
  | callback :: rest => keysOnAll (message.on callback) (keysOn message keys callback) rest

/-- The callbacks of a call of `parse`. -/
def callbacks (parser : HttpParser library) (buf : List UInt8) : List Callback :=
  let parser := if parser.bInited then parser else parser.init
  (library.execute parser.skipsBody parser.fParser buf).2.1

def setMembers (object : HttpObject library) (header : HttpHeader) (assigned : Assigned) :
    HttpObject library :=
  { object with parser := { object.parser with header := header }, assigned := assigned }

inductive Op where
  | parse (buf : List UInt8)
  | setVersion (version : HttpVersion)
  | setMethod (method : Int)
  | setStatusCode (status_code : Int)
  | setUri (uri : List UInt8)
  | setStatusDesc (status_desc : List UInt8)
  | setHeader (key value : List UInt8)
  | getHeader (key : List UInt8)
  | flags
  | dumpToBuffer
  deriving DecidableEq, Repr

inductive Reply where
  | done
  | parsed (result : Int)
  | value (found : Option (List UInt8))
  | flags (eof keepalive headersCompleted : Bool)
  | block (bytes : Option (List UInt8))
  deriving DecidableEq, Repr

/-- An operation. `sendTo` does to the header what `dumpToBuffer` does, which it calls first. -/
def apply (names : HttpNames) (object : HttpObject library) : Op → HttpObject library × Reply
  | .parse buf =>
    let parsed := object.parser.parse buf
    let fired := callbacks object.parser buf
    let type := object.parser.header.type
    ({ parser := parsed.1
       keys := keysOnAll object.parser.toHttpMessage object.keys fired
       assigned := fired.foldl (fun assigned callback => assigned.on type callback)
         object.assigned }, .parsed parsed.2)
  | .setVersion version =>
    (object.setMembers { object.parser.header with version := version }
      { object.assigned with version := true }, .done)
  | .setMethod method =>
    (object.setMembers { object.parser.header with method := some method }
      { object.assigned with method := true }, .done)
  | .setStatusCode status_code =>
    (object.setMembers { object.parser.header with status_code := some status_code }
      { object.assigned with status_code := true }, .done)
  | .setUri uri =>
    (object.setMembers { object.parser.header with uri := uri }
      { object.assigned with uri := true }, .done)
  | .setStatusDesc status_desc =>
    (object.setMembers { object.parser.header with status_desc := status_desc }
      { object.assigned with status_desc := true }, .done)
  | .setHeader key value =>
    ({ object.setMembers { object.parser.header with
          fHeaders := setHeader object.parser.header.fHeaders key value } object.assigned with
        keys := HttpHeader.keysAfter object.keys key value }, .done)
  | .getHeader key => (object, .value (object.parser.header.fHeaders key))
  | .flags =>
    (object, .flags object.parser.eof object.parser.bKeepalive object.parser.bHeadersCompleted)
  | .dumpToBuffer =>
    match object.parser.header.dumpToBuffer names object.keys with
    | some (header, bytes) =>
      (object.setMembers header { object.assigned with
        status_desc := object.assigned.status_desc || decide (header.type = .response) },
        .block (some bytes))
    | none => (object, .block none)

end HttpObject

end Nattan
